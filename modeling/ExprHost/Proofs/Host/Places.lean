import ExprHost.Host.TempEntry

/-!
# Where paths lead

A path to a directory, continued by a plain name, leads to the entry of that name, and
entries that are made where nothing stands do not move any path.

* `Path.absolute_join`: a continued path is seen from a directory as the path is.
* `FileTree.Vacant.put_eq`, `FileTree.entry?_insert_self`: entries made where nothing stands.
* `FileTree.walk_append_eq_ok_iff`, `FileTree.walk_mono`: walks in parts, and in larger trees.
* `FileTree.Plain`: a name that leads to an entry of its own.
* `FileTree.locate_join`: **where a path continued by a name leads.**
* `FileTree.find_insert_of_not_mem`: **what is made plays no part for other paths.**
-/

namespace ExprHost

namespace Path

/-- A path continued by a name is the path, up to one separator, and then the name. -/
theorem toList_join {p : Path} (hp : p.text ≠ "") (name : String) :
    ∃ front, (p.text.toList = front ∨ p.text.toList = front ++ ['/']) ∧
      (p.join name).text.toList = front ++ '/' :: name.toList := by
  have hne : p.text.toList ≠ [] := fun h => hp (String.toList_inj.1 h)
  obtain ⟨front, last, hlast⟩ : ∃ front last, p.text.toList = front ++ [last] :=
    ⟨_, _, (List.dropLast_concat_getLast hne).symm⟩
  -- a separator at the end of the path is the one between the two parts
  by_cases hsep : last = '/'
  · subst hsep
    refine ⟨front, Or.inr hlast, ?_⟩
    have hjoin : p.join name = ⟨p.text ++ name⟩ := by
      simp [join, hlast]
    rw [hjoin, String.toList_append, hlast, List.append_assoc]
    rfl
  · refine ⟨p.text.toList, Or.inl rfl, ?_⟩
    have hjoin : p.join name = ⟨p.text ++ "/" ++ name⟩ := by
      simp [join, hlast]
    rw [hjoin, String.toList_append, String.toList_append, List.append_assoc]
    rfl

/-- A continued path has the bytes of both parts, and those of at most one separator. -/
theorem length_join {p : Path} (hp : p.text ≠ "") (name : String) :
    (Utf8.bytes p.text).length + (Utf8.bytes name).length ≤
        (Utf8.bytes (p.join name).text).length ∧
      (Utf8.bytes (p.join name).text).length ≤
        (Utf8.bytes p.text).length + (Utf8.bytes name).length + 1 := by
  obtain ⟨front, hfront, hjoin⟩ := toList_join hp name
  have hslash : (String.utf8EncodeChar '/').length = 1 := by decide
  have hlen : (Utf8.bytes (p.join name).text).length =
      (Utf8.encode front).length + (1 + (Utf8.bytes name).length) := by
    simp only [Utf8.bytes, Utf8.encode, hjoin, List.flatMap_append, List.flatMap_cons,
      List.length_append, hslash]
  have hp' : (Utf8.bytes p.text).length = (Utf8.encode front).length ∨
      (Utf8.bytes p.text).length = (Utf8.encode front).length + 1 := by
    rcases hfront with h | h
    · exact Or.inl (by rw [Utf8.bytes, h])
    · refine Or.inr ?_
      simp only [Utf8.bytes, Utf8.encode, h, List.flatMap_append, List.flatMap_cons,
        List.flatMap_nil, List.append_nil, List.length_append, hslash]
  omega

theorem text_join_ne_empty {p : Path} (hp : p.text ≠ "") (name : String) :
    (p.join name).text ≠ "" := by
  obtain ⟨front, -, hjoin⟩ := toList_join hp name
  intro h
  rw [h] at hjoin
  simp at hjoin

/-- What a path is continued from does not depend on what it is continued by. -/
theorem exists_join_eq (dir : Path) : ∃ front : String, ∀ name, dir.join name = ⟨front ++ name⟩ := by
  cases hlast : dir.text.toList.getLast? with
  | none => exact ⟨"", fun name => by simp [join, hlast]⟩
  | some c =>
    by_cases hc : c = '/'
    · subst hc
      exact ⟨dir.text, fun name => by simp [join, hlast]⟩
    · exact ⟨dir.text ++ "/", fun name => by simp [join, hlast]⟩

/-- What stands in front of a path plays no part in how it is continued. -/
theorem join_append {p : Path} (hp : p.text ≠ "") (front name : String) :
    (⟨front ++ p.text⟩ : Path).join name = ⟨front ++ (p.join name).text⟩ := by
  have hne : p.text.toList ≠ [] := fun h => hp (String.toList_inj.1 h)
  have hlast : (front ++ p.text).toList.getLast? = p.text.toList.getLast? := by
    rw [String.toList_append, List.getLast?_append, Option.or_of_isSome (List.getLast?_isSome.2 hne)]
  unfold join
  rw [hlast]
  cases hc : p.text.toList.getLast? with
  | none => exact absurd (List.getLast?_eq_none_iff.1 hc) hne
  | some c =>
    by_cases hsep : c = '/'
    · subst hsep
      simp [String.append_assoc]
    · simp [String.append_assoc]

theorem absolute_eq (dir p : Path) :
    dir.absolute p = if p.text.toList.head? = some '/' then p else dir.join p.text := by
  rw [absolute]
  split
  · rename_i hcs
    rw [hcs, List.head?_cons, if_pos rfl]
  · rename_i hne
    rw [if_neg]
    intro h
    obtain ⟨rest, hrest⟩ := List.head?_eq_some_iff.1 h
    exact hne rest hrest

theorem text_absolute_ne_empty {p : Path} (hp : p.text ≠ "") (dir : Path) :
    (dir.absolute p).text ≠ "" := by
  rw [absolute_eq]
  split
  · exact hp
  · obtain ⟨front, hfront⟩ := dir.exists_join_eq
    rw [hfront]
    exact fun h => hp (String.append_eq_empty_iff.1 h).2

/-- A path continued by a name is seen from a directory as the path is. -/
theorem absolute_join {p : Path} (hp : p.text ≠ "") (dir : Path) (name : String) :
    dir.absolute (p.join name) = (dir.absolute p).join name := by
  have hhead : (p.join name).text.toList.head? = p.text.toList.head? := by
    obtain ⟨front, hfront, hjoin⟩ := toList_join hp name
    rw [hjoin]
    cases front with
    | cons c rest => rcases hfront with h | h <;> rw [h] <;> rfl
    | nil =>
      rcases hfront with h | h
      · exact absurd (String.toList_inj.1 h) hp
      · rw [h]
        rfl
  obtain ⟨front, hfront⟩ := dir.exists_join_eq
  rw [absolute_eq, absolute_eq, hhead]
  split
  · rfl
  · rw [hfront, hfront, join_append hp]

end Path

namespace FileTree

/-! ## Entries -/

variable {t : FileTree} {loc x : Location} {e : Entry}

theorem entry?_insert_of_some (h : t.entry? x = some e) (loc : Location) (d : Entry) :
    FileTree.entry? (t.insert loc d) x = some e := by
  by_cases hx : x = []
  · subst hx
    rw [ entry?, if_pos rfl] at h ⊢
    exact h
  · rw [ entry?, if_neg hx] at h ⊢
    obtain ⟨p, hp, rfl⟩ := Option.map_eq_some_iff.1 h
    rw [insert, List.find?_append, hp]
    rfl

theorem entry?_insert_self (hloc : loc ≠ []) (h : t.entry? loc = none) :
    FileTree.entry? (t.insert loc e) loc = some e := by
  rw [ entry?, if_neg hloc] at h ⊢
  rw [insert, List.find?_append, Option.map_eq_none_iff.1 h]
  simp

theorem Vacant.entry? (h : t.Vacant loc) (hloc : loc ≠ []) : t.entry? loc = none := by
  rw [ FileTree.entry?, if_neg hloc, Option.map_eq_none_iff, List.find?_eq_none]
  intro p hp heq
  obtain rfl := of_decide_eq_true heq
  have hself : p.1.isPrefixOf p.1 = true := List.isPrefixOf_iff_prefix.2 (List.prefix_refl p.1)
  rw [h p hp] at hself
  cases hself

theorem Vacant.append (h : t.Vacant loc) (more : Location) : t.Vacant (loc ++ more) := by
  intro p hp
  have hnot := h p hp
  rw [Bool.eq_false_iff, ne_eq, List.isPrefixOf_iff_prefix] at hnot ⊢
  intro hpre
  exact hnot ((List.prefix_append loc more).trans hpre)

theorem Vacant.insert (h : t.Vacant loc) (hx : loc.isPrefixOf x = false) (e : Entry) :
    (t.insert x e).Vacant loc := by
  intro p hp
  rcases List.mem_append.1 hp with hp | hp
  · exact h p hp
  · obtain rfl := List.mem_singleton.1 hp
    exact hx

theorem Vacant.put_eq (h : t.Vacant loc) (e : Entry) : t.put loc e = t.insert loc e := by
  rw [put, erase_eq_self h]

/-! ## Walks -/

/-- The directories of one tree are directories of another. -/
def DirsIn (t t' : FileTree) : Prop :=
  ∀ loc, t.entry? loc = some .directory → t'.entry? loc = some .directory

theorem dirsIn_insert (t : FileTree) (loc : Location) (e : Entry) : DirsIn t (t.insert loc e) :=
  fun _ h => entry?_insert_of_some h loc e

theorem walk_cons_eq_ok_iff {here : Location} {piece : FileName} {rest : List FileName} :
    t.walk here (piece :: rest) = .ok x ↔ t.entry? here = some .directory ∧
      ((stays piece = true ∧ t.walk here rest = .ok x) ∨
        (stays piece = false ∧ leaves piece = true ∧ t.walk here.dropLast rest = .ok x) ∨
        (stays piece = false ∧ leaves piece = false ∧ piece.length ≤ nameLimit ∧
          t.walk (here ++ [piece]) rest = .ok x)) := by
  rw [walk]
  cases t.entry? here with
  | none => simp
  | some found =>
    cases found with
    | file content executable => simp
    | directory =>
      cases stays piece with
      | true => simp
      | false =>
        cases leaves piece with
        | true => simp
        | false =>
          by_cases hlen : nameLimit < piece.length
          · have hnot : ¬ piece.length ≤ nameLimit := Nat.not_le_of_lt hlen
            simp [hlen, hnot]
          · have hle : piece.length ≤ nameLimit := Nat.le_of_not_lt hlen
            simp [hlen, hle]

/-- A walk goes on from where its first part leads. -/
theorem walk_append_eq_ok_iff {here : Location} {front back : List FileName} :
    t.walk here (front ++ back) = .ok x ↔
      ∃ loc, t.walk here front = .ok loc ∧ t.walk loc back = .ok x := by
  induction front generalizing here with
  | nil => simp [walk]
  | cons piece rest ih =>
    rw [List.cons_append, walk_cons_eq_ok_iff]
    simp only [walk_cons_eq_ok_iff, ih]
    constructor
    · rintro ⟨hdir, ⟨hs, loc, hw, hx⟩ | ⟨hs, hl, loc, hw, hx⟩ | ⟨hs, hl, hlen, loc, hw, hx⟩⟩
      · exact ⟨loc, ⟨hdir, Or.inl ⟨hs, hw⟩⟩, hx⟩
      · exact ⟨loc, ⟨hdir, Or.inr (Or.inl ⟨hs, hl, hw⟩)⟩, hx⟩
      · exact ⟨loc, ⟨hdir, Or.inr (Or.inr ⟨hs, hl, hlen, hw⟩)⟩, hx⟩
    · rintro ⟨loc, ⟨hdir, ⟨hs, hw⟩ | ⟨hs, hl, hw⟩ | ⟨hs, hl, hlen, hw⟩⟩, hx⟩
      · exact ⟨hdir, Or.inl ⟨hs, loc, hw, hx⟩⟩
      · exact ⟨hdir, Or.inr (Or.inl ⟨hs, hl, loc, hw, hx⟩)⟩
      · exact ⟨hdir, Or.inr (Or.inr ⟨hs, hl, hlen, loc, hw, hx⟩)⟩

/-- Where directories stay, walks do. -/
theorem walk_mono {t' : FileTree} (hdirs : DirsIn t t') {here loc : Location}
    {pieces : List FileName} (h : t.walk here pieces = .ok loc) : t'.walk here pieces = .ok loc := by
  induction pieces generalizing here with
  | nil => exact h
  | cons piece rest ih =>
    obtain ⟨hdir, hstep⟩ := walk_cons_eq_ok_iff.1 h
    refine walk_cons_eq_ok_iff.2 ⟨hdirs here hdir, ?_⟩
    rcases hstep with ⟨hs, hw⟩ | ⟨hs, hl, hw⟩ | ⟨hs, hl, hlen, hw⟩
    · exact Or.inl ⟨hs, ih hw⟩
    · exact Or.inr (Or.inl ⟨hs, hl, ih hw⟩)
    · exact Or.inr (Or.inr ⟨hs, hl, hlen, ih hw⟩)

/-- What is made at a location plays no part elsewhere. -/
theorem entry?_insert_of_ne (h : x ≠ loc) (e : Entry) :
    FileTree.entry? (t.insert loc e) x = t.entry? x := by
  unfold FileTree.entry?
  split
  · rfl
  · rw [insert, List.find?_append, List.find?_singleton, decide_eq_false (Ne.symm h),
      if_neg Bool.false_ne_true, Option.or_none]

/-- A walk that no piece leads into a new place is the same without it. -/
theorem walk_insert_of_not_mem {name : FileName} (hloc : name ∈ loc) (e : Entry) :
    ∀ {here : Location} {pieces : List FileName}, name ∉ here → name ∉ pieces →
      walk (t.insert loc e) here pieces = t.walk here pieces
  | here, [], _, _ => rfl
  | here, piece :: rest, hhere, hpieces => by
    -- no location on the way has the name in it
    have hne : here ≠ loc := fun heq => hhere (heq ▸ hloc)
    have hpiece := List.ne_of_not_mem_cons hpieces
    have hrest := List.not_mem_of_not_mem_cons hpieces
    have hback : name ∉ here.dropLast := fun hmem => hhere (List.dropLast_subset here hmem)
    have hon : name ∉ here ++ [piece] := by
      rw [List.mem_append, List.mem_singleton]
      exact not_or.2 ⟨hhere, hpiece⟩
    rw [walk, walk, entry?_insert_of_ne hne]
    simp only [walk_insert_of_not_mem hloc e hhere hrest, walk_insert_of_not_mem hloc e hback hrest,
      walk_insert_of_not_mem hloc e hon hrest]

/-- Nothing is in the name of a location that a walk leads to but what it was led by. -/
theorem not_mem_of_walk {name : FileName} : ∀ {here : Location} {pieces : List FileName},
    name ∉ here → name ∉ pieces → t.walk here pieces = .ok x → name ∉ x
  | here, [], hhere, _, h => by
    cases h
    exact hhere
  | here, piece :: rest, hhere, hpieces, h => by
    have hpiece := List.ne_of_not_mem_cons hpieces
    have hrest := List.not_mem_of_not_mem_cons hpieces
    obtain ⟨-, ⟨-, hw⟩ | ⟨-, -, hw⟩ | ⟨-, -, -, hw⟩⟩ := walk_cons_eq_ok_iff.1 h
    · exact not_mem_of_walk hhere hrest hw
    · exact not_mem_of_walk (fun hmem => hhere (List.dropLast_subset here hmem)) hrest hw
    · refine not_mem_of_walk ?_ hrest hw
      rw [List.mem_append, List.mem_singleton]
      exact not_or.2 ⟨hhere, hpiece⟩

/-- A name that leads from a directory to an entry of its own. -/
structure Plain (name : String) : Prop where
  noSeparator : '/' ∉ name.toList
  named : stays (Utf8.bytes name) = false ∧ leaves (Utf8.bytes name) = false
  short : (Utf8.bytes name).length ≤ nameLimit

theorem plain_of_length {name : String} (hsep : '/' ∉ name.toList) (hlong : 2 < name.toList.length)
    (hshort : (Utf8.bytes name).length ≤ nameLimit) : Plain name := by
  have hother : ∀ other : String, other.toList.length ≤ 2 →
      Utf8.bytes name ≠ Utf8.bytes other := by
    intro other hle heq
    have hlist : name.toList = other.toList := Utf8.encode_injective heq
    rw [hlist] at hlong
    omega
  have hempty : Utf8.bytes name ≠ [] := hother "" (by decide)
  have hhere := hother "." (by decide)
  have hup := hother ".." (by decide)
  exact ⟨hsep, ⟨by simp [stays, hempty, hhere], by simp [leaves, hup]⟩, hshort⟩

/-- The names of a path, from where it begins. -/
def names (p : Path) : List FileName := (Text.splitChar '/' p.text.toList).map Utf8.encode

theorem pieces_eq_names (workDir p : Path) : pieces workDir p = names (workDir.absolute p) := rfl

theorem walk_names_join {p : Path} (hp : p.text ≠ "") {name : String} (hname : Plain name)
    (hwalk : t.walk [] (names p) = .ok loc) (hdir : t.entry? loc = some .directory) :
    t.walk [] (names (p.join name)) = .ok (loc ++ [Utf8.bytes name]) := by
  obtain ⟨front, hfront, hjoin⟩ := Path.toList_join hp name
  have hnames : names (p.join name) =
      (Text.splitChar '/' front).map Utf8.encode ++ [Utf8.bytes name] := by
    rw [names, hjoin, Text.splitChar_append, Text.splitChar_of_not_mem hname.noSeparator,
      List.map_append]
    rfl
  have hlast : t.walk loc [Utf8.bytes name] = .ok (loc ++ [Utf8.bytes name]) :=
    walk_cons_eq_ok_iff.2 ⟨hdir, Or.inr (Or.inr ⟨hname.named.1, hname.named.2, hname.short, rfl⟩)⟩
  rw [hnames]
  refine walk_append_eq_ok_iff.2 ⟨loc, ?_, hlast⟩
  rcases hfront with hfront | hfront
  · rwa [names, hfront] at hwalk
  · -- the separator at the end of the path makes an empty piece, which stays where it is
    rw [names, hfront, Text.splitChar_append, List.map_append] at hwalk
    obtain ⟨mid, hmid, hend⟩ := walk_append_eq_ok_iff.1 hwalk
    obtain ⟨-, hstep⟩ := walk_cons_eq_ok_iff.1 hend
    rcases hstep with ⟨-, hw⟩ | ⟨hs, -⟩ | ⟨hs, -⟩
    · cases hw
      exact hmid
    · cases hs
    · cases hs

theorem checkPath_eq_ok_iff {p : Path} : checkPath p = .ok () ↔ '\x00' ∉ p.text.toList ∧
    p.text ≠ "" ∧ (Utf8.bytes p.text).length ≤ pathLimit := by
  unfold checkPath
  by_cases hnul : '\x00' ∈ p.text.toList
  · simp [hnul]
  · by_cases hempty : p.text = ""
    · simp [hempty]
    · by_cases hlen : pathLimit < (Utf8.bytes p.text).length
      · simp [hnul, hempty, hlen]
      · simp [hnul, hempty, hlen, Nat.le_of_not_lt hlen]

/-- A path that the system takes, continued by a name, can only get too long. -/
theorem checkPath_join {p : Path} {name : String} (hp : checkPath p = .ok ())
    (hname : '\x00' ∉ name.toList) :
    checkPath (p.join name) =
      if pathLimit < (Utf8.bytes (p.join name).text).length then .error .nameTooLong else .ok () := by
  obtain ⟨hnul, hne, -⟩ := checkPath_eq_ok_iff.1 hp
  have hjoin : '\x00' ∉ (p.join name).text.toList := by
    obtain ⟨front, hfront, htext⟩ := Path.toList_join hne name
    -- the only characters that are not the path's or the name's are separators
    have hfree : '\x00' ∉ front := by
      rcases hfront with h | h
      · rwa [h] at hnul
      · rw [h] at hnul
        exact fun hmem => hnul (List.mem_append_left _ hmem)
    rw [htext, List.mem_append, List.mem_cons]
    rintro (h | h | h)
    · exact hfree h
    · exact absurd h (by decide)
    · exact hname h
  unfold checkPath
  simp only [List.contains_iff_mem, hjoin, Path.text_join_ne_empty hne name, if_false]

theorem locate_eq_ok_iff {workDir p : Path} : t.locate workDir p = .ok loc ↔
    checkPath p = .ok () ∧ t.walk [] (pieces workDir p) = .ok loc := by
  simp only [locate, bind, Except.bind]
  cases checkPath p with
  | error e => simp
  | ok u => simp

theorem locate_mono {t' : FileTree} (hdirs : DirsIn t t') {workDir p : Path}
    (h : t.locate workDir p = .ok loc) : t'.locate workDir p = .ok loc := by
  obtain ⟨hcheck, hwalk⟩ := locate_eq_ok_iff.1 h
  exact locate_eq_ok_iff.2 ⟨hcheck, walk_mono hdirs hwalk⟩

theorem find_eq_ok_iff {workDir p : Path} : t.find workDir p = .ok (loc, e) ↔
    t.locate workDir p = .ok loc ∧ t.entry? loc = some e := by
  simp only [find, bind, Except.bind]
  cases t.locate workDir p with
  | error e => simp
  | ok found =>
    rw [Except.ok.injEq]
    constructor
    · intro h
      cases hentry : t.entry? found with
      | none => simp [hentry] at h
      | some d =>
        simp only [hentry, Except.ok.injEq, Prod.mk.injEq] at h
        obtain ⟨rfl, rfl⟩ := h
        exact ⟨rfl, hentry⟩
    · rintro ⟨rfl, hentry⟩
      simp only [hentry]

theorem find_insert {workDir p : Path} (h : t.find workDir p = .ok (loc, e)) (x : Location)
    (d : Entry) : (t.insert x d).find workDir p = .ok (loc, e) := by
  obtain ⟨hlocate, hentry⟩ := find_eq_ok_iff.1 h
  exact find_eq_ok_iff.2
    ⟨locate_mono (dirsIn_insert t x d) hlocate, entry?_insert_of_some hentry x d⟩

/-- **What is made plays no part for a path that its name is no piece of.** -/
theorem find_insert_of_not_mem {workDir p : Path} {name : FileName} (hloc : name ∈ loc)
    (hp : name ∉ pieces workDir p) (d : Entry) :
    find (t.insert loc d) workDir p = t.find workDir p := by
  have hwalk := walk_insert_of_not_mem (t := t) hloc d List.not_mem_nil hp
  simp only [find, locate, hwalk, bind, Except.bind]
  cases checkPath p with
  | error e => rfl
  | ok u =>
    cases hfound : t.walk [] (pieces workDir p) with
    | error e => simp only
    | ok found =>
      have hne : found ≠ loc := fun heq =>
        not_mem_of_walk List.not_mem_nil hp hfound (heq ▸ hloc)
      simp only [entry?_insert_of_ne hne]

theorem read_of_locate_error {workDir p : Path} {os : OsError}
    (h : t.locate workDir p = .error os) : t.read workDir p = .error os := by
  simp only [read, find, h, bind, Except.bind]

theorem read_of_locate {workDir p : Path} (h : t.locate workDir p = .ok loc) :
    t.read workDir p = match t.entry? loc with
      | none => .error .notFound
      | some .directory => .error .isDirectory
      | some (.file content _) => .ok content := by
  simp only [read, find, h, bind, Except.bind]
  cases t.entry? loc with
  | none => rfl
  | some d => cases d <;> rfl

/-- **Where a path continued by a name leads,** if the system takes it. -/
theorem locate_join {workDir p : Path} {name : String} (hp : t.locate workDir p = .ok loc)
    (hdir : t.entry? loc = some .directory) (hname : Plain name) :
    t.locate workDir (p.join name) =
      (checkPath (p.join name)).map fun _ => loc ++ [Utf8.bytes name] := by
  obtain ⟨hcheck, hwalk⟩ := locate_eq_ok_iff.1 hp
  have hne : p.text ≠ "" := (checkPath_eq_ok_iff.1 hcheck).2.1
  have hjoin : t.walk [] (pieces workDir (p.join name)) = .ok (loc ++ [Utf8.bytes name]) := by
    rw [pieces_eq_names] at hwalk ⊢
    rw [Path.absolute_join hne]
    exact walk_names_join (Path.text_absolute_ne_empty hne workDir) hname hwalk hdir
  simp only [locate, bind, Except.bind, Except.map]
  cases checkPath (p.join name) with
  | error e => rfl
  | ok u => rw [hjoin]

end FileTree

end ExprHost
