import ExprHost.Proofs.Host.Running
import ExprHost.Request

/-!
# Names of units and of their libraries

A unit's name is short and has only letters, digits and underscores, so the name of its
library leads to an entry of its own in any directory.

* `UnitName.mem_text`, `UnitName.length_text`: what a name is made of.
* `Request.plain_libraryName`: **a library's name is plain.**
-/

namespace ExprHost

theorem Hex.isAlphanum_of_mem_digits {width n : Nat} {c : Char} (h : c ∈ digits width n) :
    c.isAlphanum = true := by
  have hdigit : ∀ m < 16, (digit m).isAlphanum = true := by decide
  induction width generalizing n with
  | zero => cases h
  | succ width ih =>
    rw [digits, List.mem_append, List.mem_singleton] at h
    rcases h with h | rfl
    · exact ih h
    · exact hdigit _ (Nat.mod_lt n (by decide))

namespace UnitName

theorem toList_text (n : UnitName) : n.text.toList =
    stem.toList ++ '_' :: (Hex.word n.digest ++ '_' :: Nat.toDigits 10 n.number.toNat) := by
  simp [text, toString, List.append_assoc]

/-- A name has only letters, digits and underscores. -/
theorem mem_text {n : UnitName} {c : Char} (h : c ∈ n.text.toList) :
    c.isAlphanum = true ∨ c = '_' := by
  have hstem : stem.toList.all Char.isAlphanum = true := by decide
  rw [toList_text] at h
  simp only [List.mem_append, List.mem_cons] at h
  rcases h with h | h | h | h | h
  · exact Or.inl (List.all_eq_true.1 hstem c h)
  · exact Or.inr h
  · exact Or.inl (Hex.isAlphanum_of_mem_digits h)
  · exact Or.inr h
  · have hdigit := Nat.isDigit_of_mem_toDigits (by decide) (by decide) h
    exact Or.inl (by rw [Char.isAlphanum, hdigit, Bool.or_true])

theorem ascii_text {n : UnitName} {c : Char} (h : c ∈ n.text.toList) : c.val ≤ 127 := by
  rcases mem_text h with h | rfl
  · exact Utf8.ascii_of_isAlphanum h
  · decide

/-- A name has 25 characters before its number. -/
theorem length_text_eq (n : UnitName) :
    n.text.toList.length = 25 + (Nat.toDigits 10 n.number.toNat).length := by
  have hword : (Hex.word n.digest).length = 16 := Hex.length_digits 16 _
  have hstem : stem.toList.length = 7 := by decide
  rw [toList_text]
  simp only [List.length_append, List.length_cons, hword, hstem]
  omega

/-- A number has at most 20 digits. -/
theorem length_text (n : UnitName) :
    25 ≤ n.text.toList.length ∧ n.text.toList.length ≤ 45 := by
  have hnumber : n.number.toNat < 10 ^ 20 := Nat.lt_trans n.number.toNat_lt (by decide)
  have hdigits := (Nat.length_toDigits_le_iff (by decide) (by decide)).2 hnumber
  rw [length_text_eq]
  omega

end UnitName

namespace Request

/-- A name can be passed on to a program. -/
theorem passable_crateName (r : Request) : Host.Passable r.crateName := by
  constructor
  · intro hmem
    rcases UnitName.mem_text hmem with h | h
    · exact absurd h (by decide)
    · exact absurd h (by decide)
  · have hlen := r.name.length_text.2
    rw [Utf8.bytes, crateName, Utf8.length_encode_of_ascii fun c hc => UnitName.ascii_text hc,
      Host.argumentLimit]
    omega

theorem toList_libraryName (r : Request) : (Host.libraryName r.crateName).toList =
    'l' :: 'i' :: 'b' :: (r.name.text.toList ++ ['.', 's', 'o']) := by
  rw [Host.libraryName, String.toList_append, String.toList_append]
  rfl

/-- The name of a library has six bytes more than that of the unit. -/
theorem length_libraryName (r : Request) : (Utf8.bytes (Host.libraryName r.crateName)).length =
    31 + (Nat.toDigits 10 r.name.number.toNat).length := by
  have hascii : ∀ c ∈ (Host.libraryName r.crateName).toList, c.val ≤ 127 := by
    intro c hc
    rw [toList_libraryName] at hc
    simp only [List.mem_cons, List.mem_append, List.not_mem_nil, or_false] at hc
    rcases hc with rfl | rfl | rfl | hc | rfl | rfl | rfl
    · decide
    · decide
    · decide
    · exact UnitName.ascii_text hc
    · decide
    · decide
    · decide
  have hname := r.name.length_text_eq
  rw [Utf8.bytes, Utf8.length_encode_of_ascii hascii, toList_libraryName]
  simp only [List.length_cons, List.length_append, List.length_nil]
  omega

theorem not_mem_libraryName (r : Request) {c : Char} (hword : c.isAlphanum = false)
    (hother : c ≠ '_' ∧ c ≠ '.') : c ∉ (Host.libraryName r.crateName).toList := by
  intro h
  rw [toList_libraryName] at h
  simp only [List.mem_cons, List.mem_append, List.not_mem_nil, or_false] at h
  rcases h with rfl | rfl | rfl | h | rfl | rfl | rfl
  · exact absurd hword (by decide)
  · exact absurd hword (by decide)
  · exact absurd hword (by decide)
  · rcases UnitName.mem_text h with h | h
    · exact absurd (h.symm.trans hword) (by decide)
    · exact hother.1 h
  · exact hother.2 rfl
  · exact absurd hword (by decide)
  · exact absurd hword (by decide)

/-- **A library's name is plain.** -/
theorem plain_libraryName (r : Request) : FileTree.Plain (Host.libraryName r.crateName) := by
  have hname := r.name.length_text
  have htext := r.name.length_text_eq
  have hlen : (Host.libraryName r.crateName).toList.length = r.name.text.toList.length + 6 := by
    rw [toList_libraryName]
    simp only [List.length_cons, List.length_append, List.length_nil]
  refine FileTree.plain_of_length ?_ ?_ ?_
  · exact r.not_mem_libraryName (by decide) (by decide)
  · omega
  · rw [length_libraryName, FileTree.nameLimit]
    omega

/-- A library does not take the place of its source. -/
theorem libraryName_ne_source (r : Request) :
    Utf8.bytes (Host.libraryName r.crateName) ≠ Utf8.bytes "lib.rs" := by
  intro h
  have hlist : (Host.libraryName r.crateName).toList = "lib.rs".toList := Utf8.encode_injective h
  have hmem : 'o' ∈ (Host.libraryName r.crateName).toList := by
    rw [toList_libraryName]
    simp
  rw [hlist] at hmem
  exact absurd hmem (by decide)

end Request

end ExprHost
