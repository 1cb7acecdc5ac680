import ExprHost.Host.TempEntry
import ExprHost.Text.Quoted

/-!
# Numbered temporary entries

A library for temporary entries that draws digits: the first number whose name is not taken.

* `TempLibrary.numbered`: that library.
* `TempLibrary.removes_numbered`, `TempLibrary.finds_numbered`: **it removes what it made, and
  finds names while there are numbers.**
-/

namespace ExprHost

/-- The decimal digits of a number, at least six. -/
def sixDigits (n : Nat) : List Char := (Nat.toDigits 10 n).leftpad 6 '0'

theorem ofDigitChars_sixDigits (n : Nat) : Nat.ofDigitChars 10 (sixDigits n) 0 = n := by
  have hzeros (k : Nat) (cs : List Char) :
      Nat.ofDigitChars 10 (List.replicate k '0' ++ cs) 0 = Nat.ofDigitChars 10 cs 0 := by
    induction k with
    | zero => rfl
    | succ k ih =>
      have hzero : '0' = Nat.digitChar 0 := rfl
      rw [List.replicate_succ, List.cons_append, hzero,
        Nat.ofDigitChars_cons_digitChar_of_lt_ten (by decide)]
      exact ih
  rw [sixDigits, List.leftpad, hzeros, Nat.ofDigitChars_ten_toDigits]

theorem isDigit_of_mem_sixDigits {n : Nat} {c : Char} (h : c ∈ sixDigits n) :
    c.isDigit = true := by
  rw [sixDigits, List.leftpad, List.mem_append, List.mem_replicate] at h
  rcases h with ⟨-, rfl⟩ | h
  · decide
  · exact Nat.isDigit_of_mem_toDigits (by decide) (by decide) h

theorem length_sixDigits {n : Nat} (h : n < 1000000) : (sixDigits n).length = 6 := by
  have hdigits : (Nat.toDigits 10 n).length ≤ 6 :=
    (Nat.length_toDigits_le_iff (by decide) (by decide)).2 h
  rw [sixDigits, List.length_leftpad, Nat.max_eq_left hdigits]

/-- The digits of a number, if six are enough. -/
def Drawn.ofNat? (n : Nat) : Option Drawn :=
  if h : n < 1000000 then
    some ⟨sixDigits n, length_sixDigits h, fun c hc => by
      rw [Char.isAlphanum, isDigit_of_mem_sixDigits hc, Bool.or_true]⟩
  else none

theorem Drawn.chars_of_ofNat? {n : Nat} {drawn : Drawn} (h : ofNat? n = some drawn) :
    drawn.chars = sixDigits n := by
  unfold ofNat? at h
  split at h
  · cases h
    rfl
  · cases h

/-- The name with a number in it. -/
def TempKind.numbered (kind : TempKind) (n : Nat) : FileName :=
  Utf8.bytes (kind.front ++ String.ofList (sixDigits n) ++ kind.back)

/-- Numbers are told apart by their names. -/
theorem TempKind.numbered_injective {kind : TempKind} {m n : Nat}
    (h : kind.numbered m = kind.numbered n) : m = n := by
  have htext := Utf8.encode_injective h
  simp only [String.toList_append, String.toList_ofList] at htext
  have hdigits := List.append_cancel_left (List.append_cancel_right htext)
  rw [← ofDigitChars_sixDigits m, hdigits, ofDigitChars_sixDigits]

/-- The first number, from a given one on, whose name is not taken. Of more numbers than
there are names one is free, which bounds the steps. -/
def freeNumber (name : Nat → FileName) (taken : List FileName) : Nat → Nat → Nat
  | 0, n => n
  | steps + 1, n => if name n ∈ taken then freeNumber name taken steps (n + 1) else n

theorem freeNumber_not_mem {name : Nat → FileName} (hname : ∀ {m n}, name m = name n → m = n)
    (taken : List FileName) : ∀ (steps n : Nat) (left : List FileName), left.length ≤ steps →
      (∀ m, n ≤ m → name m ∈ taken → name m ∈ left) →
      name (freeNumber name taken steps n) ∉ taken
  | 0, n, left, hlen, hleft => fun hmem => by
    have hnil : left = [] := List.eq_nil_of_length_eq_zero (Nat.le_zero.1 hlen)
    exact absurd (hleft n (Nat.le_refl n) hmem) (by simp [hnil])
  | steps + 1, n, left, hlen, hleft => by
    rw [freeNumber]
    split
    next htaken =>
      have hhere := hleft n (Nat.le_refl n) htaken
      refine freeNumber_not_mem hname taken steps (n + 1) (left.erase (name n)) ?_ fun m hm hmem => ?_
      · rw [List.length_erase_of_mem hhere]
        omega
      · have hne : name m ≠ name n := fun heq => by
          have := hname heq
          omega
        exact (List.mem_erase_of_ne hne).2 (hleft m (by omega) hmem)
    next hfree => exact hfree

theorem freeNumber_le (name : Nat → FileName) (taken : List FileName) :
    ∀ steps n, freeNumber name taken steps n ≤ n + steps
  | 0, n => Nat.le_refl n
  | steps + 1, n => by
    rw [freeNumber]
    split
    · have hlater := freeNumber_le name taken steps (n + 1)
      omega
    · omega

/-- The names that a new one must not be, in the directory at a path. -/
def FileTree.takenIn (t : FileTree) (workDir dir : Path) : List FileName :=
  match t.find workDir (workDir.absolute dir) with
  | .ok (loc, .directory) => t.namesBelow loc
  | _ => []

theorem FileTree.length_takenIn_le (t : FileTree) (workDir dir : Path) :
    (t.takenIn workDir dir).length ≤ t.entries.length := by
  unfold takenIn
  split
  · exact List.length_filterMap_le _ _
  · exact Nat.zero_le _

/-- The first free number in the directory at a path. -/
def FileTree.freeIn (t : FileTree) (workDir dir : Path) (kind : TempKind) : Nat :=
  freeNumber kind.numbered (t.takenIn workDir dir) (t.takenIn workDir dir).length 0

namespace TempLibrary

/-- **A library for temporary entries that draws digits.** Its words name the path. -/
def numbered : TempLibrary where
  draw t workDir dir kind := Drawn.ofNat? (t.freeIn workDir dir kind)
  words e path :=
    (if e = .alreadyExists then "too many temporary files exist" else e.text) ++ " at path " ++
      Text.quote path.text
  remove := FileTree.erase
  fresh {t workDir dir loc kind drawn} hfind hdraw := by
    have htaken : t.takenIn workDir dir = t.namesBelow loc := by
      rw [FileTree.takenIn, hfind]
    have hname : Utf8.bytes (kind.name drawn) = kind.numbered (t.freeIn workDir dir kind) := by
      rw [TempKind.name, Drawn.chars_of_ofNat? hdraw, TempKind.numbered]
    rw [hname, ← htaken]
    exact freeNumber_not_mem TempKind.numbered_injective _ _ _ _ (Nat.le_refl _) fun _ _ h => h

theorem draw_numbered (t : FileTree) (workDir dir : Path) (kind : TempKind) :
    numbered.draw t workDir dir kind = Drawn.ofNat? (t.freeIn workDir dir kind) := rfl

theorem removes_numbered : numbered.Removes := fun _ _ => rfl

/-- It takes a million entries to run out of names. -/
theorem finds_numbered {t : FileTree} (h : t.entries.length < 1000000) : numbered.Finds t := by
  intro workDir dir kind
  have hfree := freeNumber_le kind.numbered (t.takenIn workDir dir)
    (t.takenIn workDir dir).length 0
  have htaken := t.length_takenIn_le workDir dir
  have hlt : t.freeIn workDir dir kind < 1000000 := by
    unfold FileTree.freeIn
    omega
  simp only [draw_numbered, Drawn.ofNat?, hlt, dite_true, Option.isSome_some]

end TempLibrary

end ExprHost
