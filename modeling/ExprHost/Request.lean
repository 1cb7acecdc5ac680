import ExprHost.Hash.Xxh64
import ExprHost.Reference.Set
import ExprHost.Text.Hex
import ExprHost.Text.Lines

/-!
# Compilation requests

A source unit to be compiled against some crates, under a name that no other request
of the process has: the digest of the source and a sequence number.

* `UnitName.text`, `UnitName.read?`: the name as text, and back.
* `read?_text`: a name gives back what it was made of.
-/

namespace ExprHost

/-- What the name of a unit is made of. -/
structure UnitName where
  digest : UInt64
  number : UInt64
deriving DecidableEq, Inhabited

namespace UnitName

/-- What every name begins with. -/
def stem : String := "exprbox"

/-- The name as the compiler gets it. -/
def text (n : UnitName) : String :=
  stem ++ "_" ++ String.ofList (Hex.word n.digest) ++ "_" ++ toString n.number.toNat

/-- The number that decimal digits stand for. -/
def number? (cs : List Char) : Option Nat :=
  if cs ≠ [] ∧ cs.all Char.isDigit then
    some (Nat.ofDigitChars 10 cs 0)
  else none

/-- What a name is made of. -/
def read? (name : String) : Option UnitName := do
  let cs ← Text.dropStart? (stem ++ "_").toList name.toList
  let digest ← Hex.word? (cs.take 16)
  let cs ← Text.dropStart? ['_'] (cs.drop 16)
  let number ← number? cs
  return ⟨digest, UInt64.ofNat number⟩

theorem number?_toDigits (n : Nat) : number? (Nat.toDigits 10 n) = some n := by
  have hdig : (Nat.toDigits 10 n).all Char.isDigit = true := List.all_eq_true.2 fun c hc =>
    Nat.isDigit_of_mem_toDigits (by decide) (by decide) hc
  simp [number?, hdig, Nat.toDigits_ne_nil, Nat.ofDigitChars_toDigits]

/-- **A name gives back what it was made of.** -/
theorem read?_text (n : UnitName) : read? n.text = some n := by
  have htext : n.text.toList =
      (stem ++ "_").toList ++ (Hex.word n.digest ++ '_' :: Nat.toDigits 10 n.number.toNat) := by
    simp [text, toString, List.append_assoc]
  have hlen : (Hex.word n.digest).length = 16 := Hex.length_digits 16 _
  simp only [read?, htext, Text.dropStart?_append, Option.bind_eq_bind, Option.bind_some]
  rw [List.take_append_of_le_length (by omega), List.drop_append_of_le_length (by omega),
    List.take_of_length_le (by omega), List.drop_of_length_le (by omega)]
  simp [Hex.word?_word, Text.dropStart?, number?_toDigits]

end UnitName

/-- A source unit to be compiled as a library. -/
structure Request where
  name : UnitName
  source : String
  references : References
deriving Inhabited

namespace Request

/-- The kind of library that a request asks for. -/
def crateType : String := "cdylib"

/-- The request for a source with a given sequence number. -/
def numbered (number : UInt64) (source : String) (references : References) : Request :=
  ⟨⟨Xxh64.digestText source, number⟩, source, references⟩

/-- The name of the unit as text. -/
def crateName (r : Request) : String := r.name.text

end Request

end ExprHost
