/-!
# Fixed-width hexadecimal

A 64-bit word as sixteen lower-case digits, and back.

* `word?_word`: reading undoes writing.
-/

namespace ExprHost.Hex

/-- The lower-case digit of a value below sixteen. -/
def digit (n : Nat) : Char := if n < 10 then Char.ofNat (48 + n) else Char.ofNat (87 + n)

/-- The value of a digit, of either case. -/
def value? (c : Char) : Option Nat :=
  if '0' ≤ c ∧ c ≤ '9' then some (c.toNat - 48)
  else if 'a' ≤ c ∧ c ≤ 'f' then some (c.toNat - 87)
  else if 'A' ≤ c ∧ c ≤ 'F' then some (c.toNat - 55)
  else none

/-- The last `width` digits of a number, most significant first. -/
def digits : Nat → Nat → List Char
  | 0, _ => []
  | width + 1, n => digits width (n / 16) ++ [digit (n % 16)]

/-- The number that digits stand for, after those already read. -/
def number? (acc : Nat) : List Char → Option Nat
  | [] => some acc
  | c :: rest => do number? (acc * 16 + (← value? c)) rest

/-- A word as sixteen digits. -/
def word (w : UInt64) : List Char := digits 16 w.toNat

/-- The word that sixteen digits stand for. -/
def word? (cs : List Char) : Option UInt64 :=
  if cs.length = 16 then (number? 0 cs).map UInt64.ofNat else none

/-- The fewest digits of a number, at least one. -/
def short (n : Nat) : String := String.ofList (Nat.toDigits 16 n)

theorem value?_digit : ∀ {n : Nat}, n < 16 → value? (digit n) = some n := by decide

theorem number?_append (acc : Nat) (a b : List Char) :
    number? acc (a ++ b) = (number? acc a).bind (number? · b) := by
  induction a generalizing acc with
  | nil => rfl
  | cons c a ih =>
    simp only [List.cons_append, number?]
    cases value? c with
    | none => rfl
    | some v => exact ih _

theorem number?_digits (width n acc : Nat) (h : n < Nat.pow 16 width) :
    number? acc (digits width n) = some (acc * Nat.pow 16 width + n) := by
  induction width generalizing n with
  | zero =>
    have hone : Nat.pow 16 0 = 1 := rfl
    simp only [hone, digits, number?, Option.some.injEq] at h ⊢
    omega
  | succ width ih =>
    have hpow : Nat.pow 16 (width + 1) = Nat.pow 16 width * 16 := rfl
    rw [hpow] at h ⊢
    have hn : n / 16 < Nat.pow 16 width := by omega
    have hv := value?_digit (Nat.mod_lt n (by decide : 16 > 0))
    rw [digits, number?_append, ih _ hn]
    simp only [Option.bind, number?, hv, bind]
    congr 1
    have := Nat.div_add_mod n 16
    rw [Nat.add_mul, Nat.mul_assoc]
    omega

theorem length_digits (width n : Nat) : (digits width n).length = width := by
  induction width generalizing n with
  | zero => rfl
  | succ width ih => simp [digits, ih]

theorem word?_word (w : UInt64) : word? (word w) = some w := by
  have h : w.toNat < Nat.pow 16 16 := Nat.lt_of_lt_of_le w.toNat_lt (by decide)
  simp [word?, word, length_digits, number?_digits 16 _ 0 h]

end ExprHost.Hex
