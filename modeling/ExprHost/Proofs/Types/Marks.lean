import ExprHost.Proofs.Types.Levels

/-!
# Marked names

A mark is the marker with at least one decimal digit. Stripping takes one mark off the end of a
name and leaves all other names alone. Since the mark that is put on a name is the last one in
it, whatever the name holds, it can be taken off again. It is taken off every level of a
spelling, though, and not only off those that were marked.

* `TypeDesc.stripArity_cases`: what stripping does, by how the name ends.
* `TypeDesc.append_markText_inj`: a marked name determines the name and the number.
* `TypeDesc.parametric_name_determines`: **marking and stripping are inverse.**
* `TypeDesc.render_not_generic`: **a type without parameters is spelled by its names, without
  the marks that they happen to end in.**
-/

namespace ExprHost.TypeDesc

/-- The marker and at least one digit. -/
def IsMark (mark : List Char) : Prop :=
  ∃ digits, mark = arityMarker :: digits ∧ digits ≠ [] ∧ ∀ c ∈ digits, c.isDigit = true

/-- A name that ends in a mark. -/
def Marked (name : String) : Prop := ∃ front mark, IsMark mark ∧ name.toList = front ++ mark

/-- What marks a number of parameters is a mark. -/
theorem isMark_markText (n : Nat) : IsMark (markText n).toList := by
  refine ⟨Nat.toDigits 10 n, toList_markText n, Nat.toDigits_ne_nil, ?_⟩
  intro c hc
  exact Nat.isDigit_of_mem_toDigits (by decide) (by decide) hc

theorem IsMark.length_pos {mark : List Char} (h : IsMark mark) : 0 < mark.length := by
  obtain ⟨digits, rfl, -, -⟩ := h
  exact Nat.succ_pos _

theorem IsMark.stripMark_append {mark : List Char} (h : IsMark mark) (front : List Char) :
    stripMark (front ++ mark) = front := by
  obtain ⟨digits, rfl, hne, hdig⟩ := h
  exact TypeDesc.stripMark_append front hne hdig

/-- A name that ends in no mark stays as it is. -/
theorem stripMark_eq_self {name : List Char}
    (h : ∀ front mark, IsMark mark → name ≠ front ++ mark) : stripMark name = name := by
  have hsplit := List.takeWhile_append_dropWhile (p := Char.isDigit) (l := name.reverse)
  cases hback : name.reverse.dropWhile Char.isDigit with
  | nil => simp only [stripMark, hback]
  | cons c front =>
    simp only [stripMark, hback]
    rw [if_neg]
    rintro ⟨rfl, hne⟩
    -- read forwards, the name is what stands before the marker, the marker, and digits
    rw [hback] at hsplit
    have hname := congrArg List.reverse hsplit
    rw [List.reverse_append, List.reverse_cons, List.reverse_reverse, List.append_assoc,
      List.singleton_append] at hname
    refine h front.reverse _ ⟨_, rfl, ?_, ?_⟩ hname.symm
    · rwa [ne_eq, List.reverse_eq_nil_iff]
    · intro d hd
      exact List.all_eq_true.1 List.all_takeWhile d (List.mem_reverse.1 hd)

/-- **Stripping takes the mark off a name that ends in one,** and leaves all others alone. -/
theorem stripArity_cases (name : String) :
    (∃ mark, IsMark mark ∧ name.toList = (stripArity name).toList ++ mark) ∨
      (¬Marked name ∧ stripArity name = name) := by
  by_cases h : Marked name
  · obtain ⟨front, mark, hmark, hname⟩ := h
    refine .inl ⟨mark, hmark, ?_⟩
    rw [stripArity, String.toList_ofList, hname, hmark.stripMark_append]
  · refine .inr ⟨h, ?_⟩
    rw [stripArity, stripMark_eq_self, String.ofList_toList]
    intro front mark hmark hname
    exact h ⟨front, mark, hmark, hname⟩

/-! ## Marking -/

theorem stripArity_append_markText (name : String) (n : Nat) :
    stripArity (name ++ markText n) = name := by
  rw [stripArity, String.toList_append, (isMark_markText n).stripMark_append,
    String.ofList_toList]

theorem markText_injective {n k : Nat} (h : markText n = markText k) : n = k := by
  have hlists := congrArg String.toList h
  rw [toList_markText, toList_markText] at hlists
  have hread := congrArg (fun digits => Nat.ofDigitChars 10 digits 0) (List.cons.inj hlists).2
  simpa only [Nat.ofDigitChars_ten_toDigits] using hread

/-- A marked name determines the name and the number. -/
theorem append_markText_inj {a b : String} {n k : Nat} :
    a ++ markText n = b ++ markText k ↔ a = b ∧ n = k := by
  constructor
  · intro h
    have hname := congrArg stripArity h
    rw [stripArity_append_markText, stripArity_append_markText] at hname
    rw [hname, String.append_right_inj] at h
    exact ⟨hname, markText_injective h⟩
  · rintro ⟨rfl, rfl⟩
    rfl

theorem name_parametric {n : Nat} (hn : 0 < n) (q : TypeName) (c : Crate) :
    (parametric q c n).name = q.addSuffix (markText n) := by
  rw [parametric, if_neg (Nat.ne_of_gt hn)]

/-- **Marking and stripping are inverse:** the simple name of a generic type is its own again
when it is stripped, the modules are never touched, and types with different names or different
numbers of parameters have different marked names. -/
theorem parametric_name_determines {q r : TypeName} {c d : Crate} {n k : Nat} (hn : 0 < n)
    (hk : 0 < k) :
    stripArity (parametric q c n).name.simple = q.simple ∧
      (parametric q c n).name.modules = q.modules ∧
      ((parametric q c n).name = (parametric r d k).name ↔ q = r ∧ n = k) := by
  rw [name_parametric hn, name_parametric hk]
  refine ⟨stripArity_append_markText q.simple n, rfl, ?_⟩
  obtain ⟨modules, simple⟩ := q
  obtain ⟨modules', simple'⟩ := r
  simp only [TypeName.addSuffix, TypeName.mk.injEq, append_markText_inj, and_assoc]

/-- A name can end in a mark of its own before it is marked. -/
theorem parametric_name_determines_twice :
    let q : TypeName := ⟨["geo"], "Odd`1"⟩
    let r : TypeName := ⟨["geo"], "Odd"⟩
    0 < 2 ∧ 0 < 12 ∧ stripArity (parametric q .std 2).name.simple = "Odd`1" ∧
      (parametric q .std 2).name ≠ (parametric r .core 12).name := by
  intro q r
  obtain ⟨hstrip, -, hnames⟩ := parametric_name_determines (q := q) (r := r) (c := .std)
    (d := .core) (n := 2) (k := 12) (by decide) (by decide)
  exact ⟨by decide, by decide, hstrip, fun h => absurd (hnames.1 h).2 (by decide)⟩

/-! ## Types without parameters -/

theorem params_of_not_generic {t : TypeDesc} (h : t.isGeneric = false) :
    ∀ l ∈ t.chain, l.params = 0 := by
  intro l hl
  rw [isGeneric, List.any_eq_false] at h
  have hpos := h l hl
  rw [decide_eq_true_eq] at hpos
  omega

/-- A level without parameters gets no arguments. -/
theorem share_of_params {levels : List TypeDesc} {l : TypeDesc} {i : Nat}
    (hl : levels[i]? = some l) (hparams : l.params = 0) (args : List TypeDesc) :
    share levels args i = [] := by
  have hlen := (dealt_share levels args).length_le i l hl
  rw [hparams] at hlen
  exact List.eq_nil_of_length_eq_zero (Nat.le_zero.1 hlen)

/-- A type without parameters is spelled by the stripped names of its levels. -/
theorem render_of_not_generic {t : TypeDesc} (h : t.isGeneric = false) :
    t.render = Text.join "::" (t.chain.map fun l => stripArity l.name.simple) := by
  rw [(render_eq_join t).1]
  congr 1
  apply List.ext_getElem?
  intro i
  rw [List.getElem?_mapIdx, List.getElem?_map]
  cases hl : t.chain[i]? with
  | none => rfl
  | some l =>
    have hmem : l ∈ t.chain := List.mem_of_getElem? hl
    rw [Option.map_some, Option.map_some, share_of_params hl (params_of_not_generic h l hmem)]
    rfl

theorem length_stripArity_le (name : String) : (stripArity name).length ≤ name.length := by
  rcases stripArity_cases name with ⟨mark, -, hname⟩ | ⟨-, hname⟩
  · have hlen := congrArg List.length hname
    rw [List.length_append, String.length_toList, String.length_toList] at hlen
    omega
  · rw [hname]

theorem length_stripArity_lt {name : String} (h : Marked name) :
    (stripArity name).length < name.length := by
  rcases stripArity_cases name with ⟨mark, hmark, hname⟩ | ⟨hnot, -⟩
  · have hlen := congrArg List.length hname
    have hpos := hmark.length_pos
    rw [List.length_append, String.length_toList, String.length_toList] at hlen
    omega
  · exact absurd h hnot

/-- Stripping makes no joined names longer, and all of them shorter but those without a mark. -/
theorem length_join_stripArity : ∀ names : List String,
    (Text.join "::" (names.map stripArity)).length ≤ (Text.join "::" names).length ∧
      ((Text.join "::" names).length ≤ (Text.join "::" (names.map stripArity)).length →
        ∀ name ∈ names, ¬Marked name)
  | [] => by simp [Text.join]
  | [name] => by
    refine ⟨length_stripArity_le name, ?_⟩
    intro hle other hother hmarked
    rw [List.mem_singleton.1 hother] at hmarked
    exact Nat.not_lt.2 hle (length_stripArity_lt hmarked)
  | name :: next :: rest => by
    obtain ⟨hle, hnone⟩ := length_join_stripArity (next :: rest)
    have hname := length_stripArity_le name
    simp only [List.map_cons] at hle hnone
    simp only [List.map_cons, Text.join, String.length_append]
    refine ⟨by omega, ?_⟩
    intro hall other hother hmarked
    rcases List.mem_cons.1 hother with h | hother
    · rw [h] at hmarked
      have hlt := length_stripArity_lt hmarked
      omega
    · exact hnone (by omega) other hother hmarked

/-- Names are joined alike with and without their marks when none of them has one. -/
theorem join_stripArity_eq_iff {names : List String} :
    Text.join "::" (names.map stripArity) = Text.join "::" names ↔
      ∀ name ∈ names, ¬Marked name := by
  constructor
  · intro h
    exact (length_join_stripArity names).2 (Nat.le_of_eq (congrArg String.length h.symm))
  · intro h
    have hsame : names.map stripArity = names.map id := by
      apply List.map_congr_left
      intro name hname
      exact ((stripArity_cases name).resolve_left fun ⟨mark, hmark, heq⟩ =>
        h name hname ⟨_, mark, hmark, heq⟩).2
    rw [hsame, List.map_id]

/-- The names of a type's levels do not depend on its arguments. -/
theorem map_name_chain_applied (t : TypeDesc) (args : List TypeDesc) :
    (t.applied args).chain.map (·.name) = t.chain.map (·.name) := by
  obtain ⟨name, crate, params, args', declaring⟩ := t
  rw [applied, chain, chain, List.map_append, List.map_append]
  rfl

theorem isGeneric_applied (t : TypeDesc) (args : List TypeDesc) :
    (t.applied args).isGeneric = t.isGeneric := by
  obtain ⟨name, crate, params, args', declaring⟩ := t
  rw [applied, isGeneric, isGeneric, chain, chain, List.any_append, List.any_append]
  rfl

/-- **A type without parameters is spelled by its names alone,** its arguments left out. Marks are
taken off every level, though it has no parameters, so the names are the ones that the levels
have exactly if none of these happens to end in a mark. -/
theorem render_not_generic {t : TypeDesc} (h : t.isGeneric = false) :
    t.render = Text.join "::" (t.chain.map fun l => stripArity l.name.simple) ∧
      (t.render = Text.join "::" (t.chain.map fun l => l.name.simple) ↔
        ∀ l ∈ t.chain, ¬Marked l.name.simple) ∧
      ∀ args, (t.applied args).render = t.render := by
  have hrender := render_of_not_generic h
  refine ⟨hrender, ?_, ?_⟩
  · have hnames : t.chain.map (fun l => stripArity l.name.simple) =
        (t.chain.map fun l => l.name.simple).map stripArity := by
      rw [List.map_map]
      rfl
    rw [hrender, hnames, join_stripArity_eq_iff, List.forall_mem_map]
  · intro args
    have happlied : (t.applied args).isGeneric = false := by rw [isGeneric_applied, h]
    have hsimple := congrArg (List.map fun n : TypeName => stripArity n.simple)
      (map_name_chain_applied t args)
    rw [List.map_map, List.map_map] at hsimple
    rw [render_of_not_generic happlied, hrender]
    exact congrArg (Text.join "::") hsimple

/-- A marked name of a level around the type is stripped too, and arguments are left out. -/
theorem render_not_generic_inside :
    let t := (plain (.ofPath "lib::Inner") .std).inside (plain (.ofPath "lib::Outer`2") .std)
    t.isGeneric = false ∧ t.render = "Outer::Inner" ∧
      ¬(∀ l ∈ t.chain, ¬Marked l.name.simple) ∧
      (t.applied [plain (.global "u8") .core]).render = "Outer::Inner" := by
  intro t
  have hgeneric : t.isGeneric = false := by decide
  obtain ⟨hrender, hsame, hargs⟩ := render_not_generic hgeneric
  have hspelled : t.render = "Outer::Inner" := by
    rw [hrender]
    decide
  have hdiffers : t.render ≠ Text.join "::" (t.chain.map fun l => l.name.simple) := by
    rw [hspelled]
    decide
  refine ⟨hgeneric, hspelled, mt hsame.2 hdiffers, ?_⟩
  rw [hargs, hspelled]

/-- **A type without parameters loses the end of its name** if that looks like an arity. -/
theorem render_plain_marked :
    let t := plain (.ofPath "lib::Odd`1") .std
    t.isGeneric = false ∧ t.render = "Odd" ∧
      t.render ≠ Text.join "::" (t.chain.map fun l => l.name.simple) := by
  decide

end ExprHost.TypeDesc
