import ExprHost.Proofs.Host.Directories
import ExprHost.Proofs.Path.Entries

/-!
# Directories on the way

What is made on the way to a directory are directories, each where the path leads to after some
of its steps. From there on a path without `..` only leads down, so what is made in the directory
itself is what its path leaves again.

* `FileTree.withDirs`: a tree with more directories.
* `FileTree.OnTheWay`, `FileTree.LeftAgain`: the places that a path comes by, and those of them
  that it leaves by a `..`.
* `FileTree.createDirs_eq_withDirs`: **what is made on the way to a directory.**
* `FileTree.children_createDirs`: **what is made in the directory itself.**
-/

namespace ExprHost

namespace FileTree

variable {t : FileTree} {workDir dir p : Path} {loc : Location}

/-- The tree with directories at some more locations. -/
def withDirs (t : FileTree) (made : List Location) : FileTree :=
  ⟨t.entries ++ made.map (·, .directory)⟩

@[simp] theorem withDirs_nil (t : FileTree) : t.withDirs [] = t := by
  simp [withDirs]

theorem withDirs_append (t : FileTree) (made more : List Location) :
    t.withDirs (made ++ more) = (t.withDirs made).withDirs more := by
  simp [withDirs, List.append_assoc]

theorem dirsIn_withDirs (t : FileTree) (made : List Location) : DirsIn t (t.withDirs made) := by
  induction made generalizing t with
  | nil => rw [withDirs_nil]; exact fun _ h => h
  | cons loc rest ih =>
    intro x hx
    have hsplit : t.withDirs (loc :: rest) = (t.insert loc .directory).withDirs rest :=
      t.withDirs_append [loc] rest
    rw [hsplit]
    exact ih _ x (dirsIn_insert t loc .directory x hx)

/-- The name of a location in a directory, if it lies there. -/
def nameIn? (dir loc : Location) : Option FileName :=
  if loc.dropLast = dir then loc.getLast? else none

theorem children_withDirs (t : FileTree) (made : List Location) (loc : Location) :
    (t.withDirs made).children loc = t.children loc ++ made.filterMap (nameIn? loc) := by
  simp only [children, withDirs, List.filterMap_append, List.filterMap_map]
  rfl

/-! ## What a path comes by -/

/-- A path leads to a location after some of its steps. -/
def OnTheWay (t : FileTree) (workDir dir : Path) (loc : Location) : Prop :=
  ∃ p ∈ dir.lineage, t.locate workDir p = .ok loc

/-- A path leads to a location after some of its steps, and has a `..` among the steps after. -/
def LeftAgain (t : FileTree) (workDir dir : Path) (loc : Location) : Prop :=
  ∃ p ∈ dir.lineage, ∃ rest, dir.components = p.components ++ rest ∧ .up ∈ rest ∧
    t.locate workDir p = .ok loc

/-- What is made to have one directory there. -/
theorem ensureDir_eq_withDirs {t' : FileTree} (h : t.ensureDir workDir p = .ok t') :
    ∃ made, t' = t.withDirs made ∧ ∀ m ∈ made, t'.locate workDir p = .ok m := by
  rcases ensureDir_eq_ok h with hmake | ⟨rfl, -⟩
  · obtain ⟨loc, htree, hleads, -⟩ := makeDir_eq_insert hmake
    refine ⟨[loc], htree, fun m hm => ?_⟩
    rw [List.mem_singleton.1 hm]
    exact hleads
  · exact ⟨[], t'.withDirs_nil.symm, fun m hm => by cases hm⟩

/-- What is made of a lineage are directories that its paths lead to, whether or not all of them
could be made. -/
theorem createLineage_eq_withDirs (t : FileTree) (workDir : Path) (ps : List Path) :
    ∃ made, (t.createLineage workDir ps).2 = t.withDirs made ∧
      ∀ m ∈ made, ∃ p ∈ ps, (t.withDirs made).locate workDir p = .ok m := by
  induction ps with
  | nil => exact ⟨[], t.withDirs_nil.symm, fun m hm => by cases hm⟩
  | cons p outer ih =>
    rw [createLineage_cons]
    split
    · rename_i there hthere
      obtain ⟨made, rfl, hon⟩ := ensureDir_eq_withDirs hthere
      exact ⟨made, rfl, fun m hm => ⟨p, List.mem_cons_self, hon m hm⟩⟩
    · obtain ⟨made, htree, hon⟩ := ih
      have houter : ∀ m ∈ made, ∃ q ∈ p :: outer, (t.withDirs made).locate workDir q = .ok m := by
        intro m hm
        obtain ⟨q, hq, hleads⟩ := hon m hm
        exact ⟨q, List.mem_cons_of_mem p hq, hleads⟩
      split
      · rename_i hfail
        rw [hfail] at htree
        exact ⟨made, htree, houter⟩
      · rename_i hall
        rw [hall] at htree
        obtain rfl : _ = t.withDirs made := htree
        split
        · -- those further out are still where they were once this one is made as well
          rename_i there hthere
          obtain ⟨more, rfl, hmore⟩ := ensureDir_eq_withDirs hthere
          rw [← withDirs_append] at hmore ⊢
          refine ⟨made ++ more, rfl, fun m hm => ?_⟩
          rcases List.mem_append.1 hm with hm | hm
          · obtain ⟨q, hq, hleads⟩ := houter m hm
            rw [withDirs_append]
            exact ⟨q, hq, locate_mono (dirsIn_withDirs _ more) hleads⟩
          · exact ⟨p, List.mem_cons_self, hmore m hm⟩
        · exact ⟨made, rfl, houter⟩
    · exact ⟨[], t.withDirs_nil.symm, fun m hm => by cases hm⟩

/-- **What is made on the way to a directory** are directories that its path comes by. -/
theorem createDirs_eq_withDirs (t : FileTree) (workDir dir : Path) :
    ∃ made, (t.createDirs workDir dir).2 = t.withDirs made ∧
      ∀ m ∈ made, (t.withDirs made).OnTheWay workDir dir m :=
  t.createLineage_eq_withDirs workDir dir.lineage

/-- Where there is a directory already, nothing is made. -/
theorem createDirs_of_leadsToDir (h : t.leadsToDir workDir dir = true) :
    t.createDirs workDir dir = (.ok (), t) := by
  rw [createDirs]
  rcases dir.lineage_cases with hnil | ⟨outer, hcons⟩
  · rw [hnil]
    rfl
  · rw [hcons]
    exact createLineage_of_leadsToDir h outer

/-! ## Paths that only lead down -/

theorem leaves_encode_iff {piece : List Char} :
    leaves (Utf8.encode piece) = true ↔ piece = ['.', '.'] := by
  rw [leaves, decide_eq_true_eq]
  exact ⟨fun h => Utf8.encode_injective (b := ['.', '.']) h, fun h => by rw [h]; rfl⟩

/-- A walk without `..` ends below where it begins. -/
theorem prefix_of_walk {here : Location} {pieces : List FileName}
    (hdown : ∀ a ∈ pieces, leaves a = false) (h : t.walk here pieces = .ok loc) : here <+: loc := by
  induction pieces generalizing here with
  | nil =>
    cases h
    exact List.prefix_refl _
  | cons piece rest ih =>
    have hrest : ∀ a ∈ rest, leaves a = false := fun a ha => hdown a (List.mem_cons_of_mem piece ha)
    obtain ⟨-, ⟨-, hw⟩ | ⟨-, hl, -⟩ | ⟨-, -, -, hw⟩⟩ := walk_cons_eq_ok_iff.1 h
    · exact ih hrest hw
    · rw [hdown piece List.mem_cons_self] at hl
      cases hl
    · exact (List.prefix_append here [piece]).trans (ih hrest hw)

/-- Where a path leads is below all that it comes by and does not leave by a `..`. -/
theorem OnTheWay.prefix_or_left {m : Location} (hon : t.OnTheWay workDir dir m)
    (hdir : t.locate workDir dir = .ok loc) : m <+: loc ∨ t.LeftAgain workDir dir m := by
  obtain ⟨p, hp, hm⟩ := hon
  obtain ⟨hne, rfl | ⟨more, htext⟩⟩ := Path.text_of_mem_lineage hp
  · obtain rfl := Except.ok.inj (hm.symm.trans hdir)
    exact Or.inl (List.prefix_refl m)
  · have hrest := Path.components_append hne htext
    by_cases hup : .up ∈ (Text.splitChar '/' more).filterMap Path.component?
    · exact Or.inr ⟨p, hp, _, hrest, hup, hm⟩
    · obtain ⟨-, hwalk⟩ := locate_eq_ok_iff.1 hdir
      obtain ⟨-, hfront⟩ := locate_eq_ok_iff.1 hm
      rw [Path.pieces_of_text htext hne] at hwalk
      obtain ⟨mid, hmid, hback⟩ := walk_append_eq_ok_iff.1 hwalk
      obtain rfl := Except.ok.inj (hfront.symm.trans hmid)
      refine Or.inl (prefix_of_walk (fun a ha => ?_) hback)
      obtain ⟨piece, hpiece, rfl⟩ := List.mem_map.1 ha
      refine Bool.eq_false_iff.2 fun hleaves => hup ?_
      rw [leaves_encode_iff.1 hleaves] at hpiece
      exact List.mem_filterMap.2 ⟨_, hpiece, rfl⟩

/-- What has a name in a directory lies one step below it. -/
theorem nameIn?_eq_some_iff {m : Location} {name : FileName} :
    nameIn? loc m = some name ↔ m = loc ++ [name] := by
  unfold nameIn?
  split
  · next hlast =>
    rw [List.getLast?_eq_some_iff]
    constructor
    · rintro ⟨front, rfl⟩
      rw [List.dropLast_concat] at hlast
      rw [hlast]
    · exact fun h => ⟨loc, h⟩
  · next hlast =>
    refine iff_of_false (by simp) fun h => hlast ?_
    rw [h, List.dropLast_concat]

/-- A path without `..` leaves nothing again. -/
theorem LeftAgain.up_mem {m : Location} (h : t.LeftAgain workDir dir m) : .up ∈ dir.components := by
  obtain ⟨p, -, rest, hrest, hup, -⟩ := h
  rw [hrest]
  exact List.mem_append_right _ hup

/-- **What is made in the directory itself** is what the path comes by and leaves again: nothing,
if it has no `..`. -/
theorem children_createDirs (t : FileTree) (workDir dir : Path) :
    ∃ made, (t.createDirs workDir dir).2 = t.withDirs made ∧
      (∀ m ∈ made, (t.withDirs made).OnTheWay workDir dir m) ∧
      ∀ loc, (t.withDirs made).locate workDir dir = .ok loc →
        ∃ new, (t.withDirs made).children loc = t.children loc ++ new ∧
          (∀ name ∈ new, (t.withDirs made).LeftAgain workDir dir (loc ++ [name])) ∧
          (.up ∉ dir.components → new = []) := by
  obtain ⟨made, htree, hon⟩ := t.createDirs_eq_withDirs workDir dir
  refine ⟨made, htree, hon, fun loc hloc => ?_⟩
  have hleft : ∀ name ∈ made.filterMap (nameIn? loc),
      (t.withDirs made).LeftAgain workDir dir (loc ++ [name]) := by
    intro name hname
    obtain ⟨m, hm, hin⟩ := List.mem_filterMap.1 hname
    obtain rfl := nameIn?_eq_some_iff.1 hin
    rcases (hon _ hm).prefix_or_left hloc with hpre | hleft
    · -- what lies in the directory does not lead to it
      have hlen := hpre.length_le
      rw [List.length_append, List.length_singleton] at hlen
      omega
    · exact hleft
  refine ⟨_, t.children_withDirs made loc, hleft, fun hdown => ?_⟩
  exact List.eq_nil_iff_forall_not_mem.2 fun name hname => hdown (hleft name hname).up_mem

end FileTree

end ExprHost
