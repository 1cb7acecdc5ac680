import ExprHost.Proofs.Path.Bare
import ExprHost.Proofs.StableSort
import ExprHost.Reference.Set

/-!
# Library directories

The directories of a reference set are the parents of the libraries that the compiler has to be
told of, sorted, with neighbours that are the same path made one. Sorting brings all spellings of
one path together, so each directory stays exactly once. The empty path is kept like any other
parent.

* `References.dropRepeats_cons_cases`: what a path does in front of a list.
* `References.pairwise_dropRepeats`, `References.exists_mem_dropRepeats`: what is left of a sorted
  list is strictly sorted, and every path of the list is there in some spelling.
* `References.pairwise_libraryDirs`: **the directories are strictly sorted.**
* `References.exists_of_mem_libraryDirs`, `References.countP_libraryDirs`: **they are the parents
  of the explicit crates, each once.**
* `References.empty_mem_libraryDirs_iff`: when one of them is the empty path.
-/

namespace ExprHost

namespace Path

theorem beq_trans {p q r : Path} (hpq : (p == q) = true) (hqr : (q == r) = true) :
    (p == r) = true :=
  beq_iff.2 ((beq_iff.1 hpq).trans (beq_iff.1 hqr))

theorem beq_symm {p q : Path} (h : (p == q) = true) : (q == p) = true :=
  beq_iff.2 (beq_iff.1 h).symm

/-- Of two paths that are the same neither comes first. -/
theorem not_beq_of_lt {p q : Path} (hlt : compare p q = .lt) : ¬(p == q) = true := by
  intro hsame
  rw [compare_eq_iff.2 hsame] at hlt
  cases hlt

theorem lt_of_isLE_of_not_beq {p q : Path} (hle : (compare p q).isLE = true)
    (hne : ¬(p == q) = true) : compare p q = .lt := by
  cases hcmp : compare p q with
  | lt => rfl
  | eq => exact absurd (compare_eq_iff.1 hcmp) hne
  | gt =>
    rw [hcmp] at hle
    cases hle

end Path

namespace References

/-! ## Neighbours made one -/

/-- **What a path does in front of a list:** it takes the place of the first path that is left if
they are the same, and stands before it otherwise. -/
theorem dropRepeats_cons_cases (p : Path) (l : List Path) :
    (∃ q more, dropRepeats l = q :: more ∧ (p == q) = true ∧ dropRepeats (p :: l) = p :: more) ∨
    ((∀ q ∈ (dropRepeats l).head?, ¬(p == q) = true) ∧
      dropRepeats (p :: l) = p :: dropRepeats l) := by
  cases hl : dropRepeats l with
  | nil =>
    have hcons : dropRepeats (p :: l) = [p] := by rw [dropRepeats, hl]
    exact .inr ⟨by simp, hcons⟩
  | cons q more =>
    have hcons : dropRepeats (p :: l) = if p == q then p :: more else p :: q :: more := by
      rw [dropRepeats, hl]
    by_cases hsame : (p == q) = true
    · exact .inl ⟨q, more, rfl, hsame, by rw [hcons, if_pos hsame]⟩
    · refine .inr ⟨?_, by rw [hcons, if_neg hsame]⟩
      intro x hx
      obtain rfl := Option.some.inj hx
      exact hsame

theorem sublist_dropRepeats (l : List Path) : (dropRepeats l).Sublist l := by
  induction l with
  | nil => exact List.Sublist.refl []
  | cons p rest ih =>
    rcases dropRepeats_cons_cases p rest with ⟨q, more, hrest, -, hcons⟩ | ⟨-, hcons⟩
    · rw [hrest] at ih
      rw [hcons]
      exact ((List.sublist_cons_self q more).trans ih).cons_cons p
    · rw [hcons]
      exact ih.cons_cons p

/-- Every path of a list is left in some spelling. -/
theorem exists_mem_dropRepeats {l : List Path} {p : Path} (h : p ∈ l) :
    ∃ q ∈ dropRepeats l, (q == p) = true := by
  induction l with
  | nil => cases h
  | cons a rest ih =>
    rcases dropRepeats_cons_cases a rest with ⟨q, more, hrest, haq, hcons⟩ | ⟨-, hcons⟩
    · rw [hcons]
      rcases List.mem_cons.1 h with rfl | h
      · exact ⟨p, List.mem_cons_self, Path.beq_iff.2 rfl⟩
      · obtain ⟨x, hx, hxp⟩ := ih h
        rw [hrest] at hx
        -- the path that is dropped is the same as the one in front of it
        rcases List.mem_cons.1 hx with rfl | hx
        · exact ⟨a, List.mem_cons_self, Path.beq_trans haq hxp⟩
        · exact ⟨x, List.mem_cons_of_mem a hx, hxp⟩
    · rw [hcons]
      rcases List.mem_cons.1 h with rfl | h
      · exact ⟨p, List.mem_cons_self, Path.beq_iff.2 rfl⟩
      · obtain ⟨x, hx, hxp⟩ := ih h
        exact ⟨x, List.mem_cons_of_mem a hx, hxp⟩

/-- What is left of a sorted list is strictly sorted. -/
theorem pairwise_dropRepeats {l : List Path} (h : l.Pairwise fun p q => (compare p q).isLE = true) :
    (dropRepeats l).Pairwise fun p q => compare p q = .lt := by
  induction l with
  | nil => exact List.Pairwise.nil
  | cons p rest ih =>
    obtain ⟨hle, hsorted⟩ := List.pairwise_cons.1 h
    have hlt := ih hsorted
    have hfirst : ∀ x ∈ dropRepeats rest, (compare p x).isLE = true := fun x hx =>
      hle x ((sublist_dropRepeats rest).subset hx)
    -- the paths behind the first one that is left come after it, and so after `p`
    have hbehind : ∀ {q more}, dropRepeats rest = q :: more → ∀ x ∈ more, compare p x = .lt := by
      intro q more hrest x hx
      rw [hrest] at hlt hfirst
      exact Std.TransCmp.lt_of_isLE_of_lt (hfirst q List.mem_cons_self)
        ((List.pairwise_cons.1 hlt).1 x hx)
    rcases dropRepeats_cons_cases p rest with ⟨q, more, hrest, -, hcons⟩ | ⟨hne, hcons⟩
    · rw [hcons]
      rw [hrest] at hlt
      exact List.pairwise_cons.2 ⟨hbehind hrest, (List.pairwise_cons.1 hlt).2⟩
    · rw [hcons]
      refine List.pairwise_cons.2 ⟨?_, hlt⟩
      intro x hx
      cases hrest : dropRepeats rest with
      | nil =>
        rw [hrest] at hx
        cases hx
      | cons q more =>
        rw [hrest] at hx hne hfirst
        rcases List.mem_cons.1 hx with rfl | hx
        · exact Path.lt_of_isLE_of_not_beq (hfirst x List.mem_cons_self) (hne x rfl)
        · exact hbehind hrest x hx

/-- A strictly sorted list has a path in one spelling at most. -/
theorem countP_beq_le_one {l : List Path} (h : l.Pairwise fun p q => compare p q = .lt)
    (dir : Path) : l.countP (· == dir) ≤ 1 := by
  induction l with
  | nil => exact Nat.zero_le 1
  | cons p rest ih =>
    obtain ⟨hfirst, hrest⟩ := List.pairwise_cons.1 h
    rw [List.countP_cons]
    by_cases hp : (p == dir) = true
    · have hnone : rest.countP (· == dir) = 0 := by
        refine List.countP_eq_zero.2 fun q hq hqdir => ?_
        exact Path.not_beq_of_lt (hfirst q hq) (Path.beq_trans hp (Path.beq_symm hqdir))
      rw [hnone, if_pos hp]
    · rw [if_neg hp]
      exact ih hrest

/-! ## The directories of a set -/

variable {r : References}

/-- **The directories are strictly sorted,** so no two of them are the same path. -/
theorem pairwise_libraryDirs (r : References) :
    r.libraryDirs.Pairwise fun p q => compare p q = .lt :=
  pairwise_dropRepeats (StableSort.pairwise_mergeSort_isLE compare _)

/-- A directory is the parent of an explicit crate. -/
theorem exists_of_mem_libraryDirs {dir : Path} (h : dir ∈ r.libraryDirs) :
    ∃ e ∈ r.explicit, e.path.parent? = some dir := by
  have hparent := (sublist_dropRepeats _).subset h
  rw [List.mem_mergeSort] at hparent
  exact List.mem_filterMap.1 hparent

/-- The parent of an explicit crate is a directory, in some spelling. -/
theorem exists_mem_libraryDirs {e : LinkedCrate} (he : e ∈ r.explicit) {dir : Path}
    (hdir : e.path.parent? = some dir) : ∃ d ∈ r.libraryDirs, (d == dir) = true := by
  apply exists_mem_dropRepeats
  rw [List.mem_mergeSort]
  exact List.mem_filterMap.2 ⟨e, he, hdir⟩

/-- **The parent of an explicit crate is a directory once,** whatever spellings it has. -/
theorem countP_libraryDirs {e : LinkedCrate} (he : e ∈ r.explicit) {dir : Path}
    (hdir : e.path.parent? = some dir) : r.libraryDirs.countP (· == dir) = 1 := by
  obtain ⟨d, hd, hsame⟩ := exists_mem_libraryDirs he hdir
  have hpos : 0 < r.libraryDirs.countP (· == dir) := List.countP_pos_iff.2 ⟨d, hd, hsame⟩
  have hle := countP_beq_le_one (pairwise_libraryDirs r) dir
  omega

/-- **When one of the directories is the empty path:** exactly when an explicit crate has a bare
path. -/
theorem empty_mem_libraryDirs_iff :
    ⟨""⟩ ∈ r.libraryDirs ↔ ∃ e ∈ r.explicit, e.path.IsBare := by
  constructor
  · intro h
    obtain ⟨e, he, hparent⟩ := exists_of_mem_libraryDirs h
    exact ⟨e, he, Path.parent?_eq_empty_iff.1 hparent⟩
  · rintro ⟨e, he, hbare⟩
    obtain ⟨d, hd, hsame⟩ := exists_mem_libraryDirs he (Path.parent?_eq_empty_iff.2 hbare)
    -- the empty path has one spelling
    have hempty : d = ⟨""⟩ := Path.components_eq_nil_iff.1
      ((Path.beq_iff.1 hsame).trans (Path.components_eq_nil_iff.2 rfl))
    rwa [← hempty]

end References

end ExprHost
