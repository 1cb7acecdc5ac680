import ExprHost.Path.Parts
import Mathlib.Data.List.TakeWhile

/-!
# Bare paths

A path of a single step that does not begin at the root, such as the bare name of a file, lies in
the empty path. No other path does: what is left of a longer one begins with a step, and what is
left of one that begins at the root begins with a separator.

* `Path.cases_relative`: the components and the parent of a path that does not begin at the root.
* `Path.components_eq_nil_iff`: only the empty path has no components.
* `Path.parent?_eq_empty_iff`: **which paths lie in the empty path.**
-/

namespace ExprHost.Path

/-- A path of a single step that does not begin at the root: a bare name, or `.` or `..`. -/
def IsBare (p : Path) : Prop := ∃ step, step ≠ .root ∧ p.components = [step]

theorem component?_ne_root (piece : List Char) : component? piece ≠ some .root := by
  unfold component?
  split <;> simp

theorem component?_eq_none_iff {piece : List Char} :
    component? piece = none ↔ piece = [] ∨ piece = ['.'] := by
  unfold component?
  split <;> simp_all

/-- Nothing comes before the last piece that counts if no piece does. -/
theorem beforeLast?_eq_none_iff {pieces : List (List Char)} :
    beforeLast? pieces = none ↔ pieces.filterMap component? = [] := by
  have hidle : pieces.reverse.dropWhile isIdle = [] ↔ ∀ a ∈ pieces, component? a = none := by
    simp [List.dropWhile_eq_nil_iff, isIdle]
  rw [List.filterMap_eq_nil_iff, ← hidle, beforeLast?]
  cases pieces.reverse.dropWhile isIdle <;> simp

theorem unsplit_ne_empty {first : List Char} (h : first ≠ []) (pieces : List (List Char)) :
    unsplit (first :: pieces) ≠ "" := by
  cases pieces with
  | nil => simpa [unsplit, Text.join] using h
  | cons next rest => simp [unsplit, Text.join, String.append_eq_empty_iff]

theorem splitChar_cons_of_ne {sep c : Char} (hc : c ≠ sep) (cs : List Char) :
    ∃ first rest, first ≠ [] ∧ Text.splitChar sep (c :: cs) = first :: rest := by
  rw [Text.splitChar, if_neg hc]
  cases Text.splitChar sep cs with
  | nil => exact ⟨[c], [], List.cons_ne_nil c [], rfl⟩
  | cons piece rest => exact ⟨c :: piece, rest, List.cons_ne_nil c piece, rfl⟩

/-- The components of a path that does not begin at the root. A `.` counts only as its first
piece. -/
theorem components_of_split {p : Path} {c : Char} {cs first : List Char} {rest : List (List Char)}
    (hc : c ≠ '/') (htext : p.text.toList = c :: cs)
    (hsplit : Text.splitChar '/' (c :: cs) = first :: rest) :
    p.components = if first = ['.'] then .here :: rest.filterMap component?
      else (first :: rest).filterMap component? := by
  unfold components
  rewrite [htext]
  split
  · next heq => exact absurd (List.cons.inj heq).1 hc
  · rewrite [hsplit]
    split
    · next heq =>
      obtain ⟨rfl, rfl⟩ := List.cons.inj heq
      rfl
    · next hdot =>
      rw [if_neg]
      rintro rfl
      exact hdot rest rfl

/-- The first piece of a path that does not begin at the root is a step. -/
theorem components_relative {p : Path} {c : Char} {cs first : List Char} {rest : List (List Char)}
    (hc : c ≠ '/') (htext : p.text.toList = c :: cs) (hne : first ≠ [])
    (hsplit : Text.splitChar '/' (c :: cs) = first :: rest) :
    ∃ step, step ≠ .root ∧ p.components = step :: rest.filterMap component? := by
  have hsteps := components_of_split hc htext hsplit
  by_cases hdot : first = ['.']
  · rw [if_pos hdot] at hsteps
    exact ⟨.here, by simp, hsteps⟩
  · obtain ⟨step, hstep⟩ : ∃ step, component? first = some step := by
      rw [← Option.ne_none_iff_exists', ne_eq, component?_eq_none_iff]
      exact not_or.2 ⟨hne, hdot⟩
    rw [if_neg hdot, List.filterMap_cons_some hstep] at hsteps
    refine ⟨step, ?_, hsteps⟩
    rintro rfl
    exact component?_ne_root first hstep

/-- The parent of a path that does not begin at the root. -/
theorem parent?_relative {p : Path} {c : Char} {cs first : List Char} {rest : List (List Char)}
    (hc : c ≠ '/') (htext : p.text.toList = c :: cs)
    (hsplit : Text.splitChar '/' (c :: cs) = first :: rest) :
    p.parent? = match beforeLast? rest with
      | some pieces => some ⟨unsplit (first :: pieces)⟩
      | none => some ⟨""⟩ := by
  unfold parent?
  rw [htext]
  split
  · contradiction
  · next heq => exact absurd (List.cons.inj heq).1 hc
  · rewrite [hsplit]
    rfl

theorem components_root {p : Path} {cs : List Char} (htext : p.text.toList = '/' :: cs) :
    p.components = .root :: (Text.splitChar '/' cs).filterMap component? := by
  unfold components
  rewrite [htext]
  rfl

theorem eq_empty_of_toList {p : Path} (h : p.text.toList = []) : p = ⟨""⟩ := by
  obtain ⟨text⟩ := p
  exact congrArg Path.mk (String.toList_eq_nil_iff.1 h)

/-- Only the empty path has no components. -/
theorem components_eq_nil_iff {p : Path} : p.components = [] ↔ p = ⟨""⟩ := by
  constructor
  · intro h
    cases htext : p.text.toList with
    | nil => exact eq_empty_of_toList htext
    | cons c cs =>
      by_cases hc : c = '/'
      · rw [components_root (hc ▸ htext)] at h
        cases h
      · obtain ⟨first, rest, hne, hsplit⟩ := splitChar_cons_of_ne hc cs
        obtain ⟨step, -, hsteps⟩ := components_relative hc htext hne hsplit
        rw [hsteps] at h
        cases h
  · rintro rfl
    decide

/-- **Which paths lie in the empty path:** those of a single step that does not begin at the
root. -/
theorem parent?_eq_empty_iff {p : Path} : p.parent? = some ⟨""⟩ ↔ p.IsBare := by
  cases htext : p.text.toList with
  | nil =>
    obtain rfl := eq_empty_of_toList htext
    have hparent : (⟨""⟩ : Path).parent? = none := by decide
    refine iff_of_false (by simp [hparent]) ?_
    rintro ⟨step, -, hsteps⟩
    rw [components_eq_nil_iff.2 rfl] at hsteps
    cases hsteps
  | cons c cs =>
    by_cases hc : c = '/'
    · -- the parent begins at the root as well
      rw [hc] at htext
      refine iff_of_false ?_ ?_
      · unfold parent?
        rw [htext]
        simp [String.append_eq_empty_iff]
      · rintro ⟨step, hroot, hsteps⟩
        rw [components_root htext] at hsteps
        exact hroot (List.cons.inj hsteps).1.symm
    · obtain ⟨first, rest, hne, hsplit⟩ := splitChar_cons_of_ne hc cs
      obtain ⟨step, hroot, hsteps⟩ := components_relative hc htext hne hsplit
      have hbare : p.IsBare ↔ rest.filterMap component? = [] := by
        rw [IsBare, hsteps]
        constructor
        · rintro ⟨only, -, honly⟩
          exact (List.cons.inj honly).2
        · intro hrest
          exact ⟨step, hroot, by rw [hrest]⟩
      rw [hbare, ← beforeLast?_eq_none_iff, parent?_relative hc htext hsplit]
      cases beforeLast? rest with
      | none => simp
      | some pieces => simp [unsplit_ne_empty hne pieces]

end ExprHost.Path
