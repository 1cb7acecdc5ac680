import ExprHost.Json.Value

/-!
# How JSON is written

The texts of JSON, told apart from how they are read: in which ways a token can be spelled,
and of which tokens a value is made. Spaces may stand around tokens, and a string may spell
each of its characters in several ways.

* `Piece.Written`, `Piece.Means`: the spellings of pieces of strings, and what they stand for.
* `Token.Written`, `Token.Laid`: the spellings of tokens, alone and with spaces around them.
* `tokens`: the tokens of a value.
* `Written`: **the texts of a value.**
-/

namespace ExprHost.Json

/-! ## Strings -/

/-- The letters that may follow a backslash, each with the character it stands for. -/
def escapes : List (Char × Char) :=
  [('"', '"'), ('\\', '\\'), ('/', '/'), ('b', '\x08'), ('f', '\x0c'), ('n', '\n'), ('r', '\r'),
    ('t', '\t')]

/-- The hexadecimal digits in their order, in lower and in upper case. -/
def hexDigits : List (List Char) := ["0123456789abcdef".toList, "0123456789ABCDEF".toList]

/-- A character is a hexadecimal digit of some value. -/
def HexDigit (c : Char) (n : Nat) : Prop := ∃ digits ∈ hexDigits, digits[n]? = some c

theorem HexDigit.lt {c : Char} {n : Nat} (h : HexDigit c n) : n < 16 := by
  have hlen : ∀ digits ∈ hexDigits, digits.length = 16 := by decide
  obtain ⟨digits, hmem, hget⟩ := h
  obtain ⟨hlt, -⟩ := List.getElem?_eq_some_iff.1 hget
  rwa [hlen digits hmem] at hlt

namespace Piece

/-- The ways to write one piece between quotes. -/
inductive Written : Piece → List Char → Prop
  | plain {c : Char} (hcontrol : 0x20 ≤ c.toNat) (hquote : c ≠ '"') (hback : c ≠ '\\') :
      Written (.char c) [c]
  | escape {letter c : Char} (h : (letter, c) ∈ escapes) : Written (.char c) ['\\', letter]
  | unit {a b c d : Char} {k l m n : Nat} (ha : HexDigit a k) (hb : HexDigit b l)
      (hc : HexDigit c m) (hd : HexDigit d n) :
      Written (.unit (((k * 16 + l) * 16 + m) * 16 + n)) ['\\', 'u', a, b, c, d]

/-- The ways to write pieces one after another. -/
inductive WrittenAll : List Piece → List Char → Prop
  | nil : WrittenAll [] []
  | cons {p : Piece} {ps : List Piece} {text rest : List Char} (h : Written p text)
      (hs : WrittenAll ps rest) : WrittenAll (p :: ps) (text ++ rest)

/-- **The text that pieces stand for.** A character is one unit, or beyond the first 2¹⁶ a high
surrogate and a low one. -/
inductive Means : List Piece → List Char → Prop
  | nil : Means [] []
  | char {c : Char} {ps : List Piece} {cs : List Char} (hs : Means ps cs) :
      Means (.char c :: ps) (c :: cs)
  | unit {c : Char} {ps : List Piece} {cs : List Char} (hc : c.toNat < 0x10000)
      (hs : Means ps cs) : Means (.unit c.toNat :: ps) (c :: cs)
  | pair {c : Char} {ps : List Piece} {cs : List Char} (hc : 0x10000 ≤ c.toNat)
      (hs : Means ps cs) :
      Means (.unit (0xD800 + (c.toNat - 0x10000) / 0x400) ::
        .unit (0xDC00 + (c.toNat - 0x10000) % 0x400) :: ps) (c :: cs)

end Piece

/-! ## Numbers -/

/-- At least one decimal digit. -/
def IsDigits (cs : List Char) : Prop := cs ≠ [] ∧ ∀ c ∈ cs, c.isDigit = true

/-- Digits that do not begin with a zero, unless that is all. -/
def IsWhole (cs : List Char) : Prop := cs = ['0'] ∨ IsDigits cs ∧ cs.head? ≠ some '0'

/-- A point and digits, or nothing. -/
def IsFraction (cs : List Char) : Prop := cs = [] ∨ ∃ ds, IsDigits ds ∧ cs = '.' :: ds

/-- A mark, perhaps a sign, and digits, or nothing. -/
def IsExponent (cs : List Char) : Prop :=
  cs = [] ∨ ∃ mark ∈ ['e', 'E'], ∃ sign ∈ [[], ['+'], ['-']], ∃ ds, IsDigits ds ∧
    cs = mark :: (sign ++ ds)

/-- **The texts of numbers.** -/
def IsNumber (cs : List Char) : Prop :=
  ∃ sign ∈ [[], ['-']], ∃ whole fraction exponent, IsWhole whole ∧ IsFraction fraction ∧
    IsExponent exponent ∧ cs = sign ++ (whole ++ (fraction ++ exponent))

/-! ## Tokens -/

namespace Token

/-- The tokens of one character. -/
def marks : List (Char × Token) :=
  [('\x7b', .openObject), ('\x7d', .closeObject), ('[', .openArray), (']', .closeArray),
    (',', .comma), (':', .colon)]

/-- The words among the tokens: how each begins and goes on. -/
def keywords : List (Char × List Char × Token) :=
  [('n', ['u', 'l', 'l'], .null), ('t', ['r', 'u', 'e'], .bool true),
    ('f', ['a', 'l', 's', 'e'], .bool false)]

/-- The ways to write a token. -/
inductive Written : Token → List Char → Prop
  | mark {c : Char} {t : Token} (h : (c, t) ∈ marks) : Written t [c]
  | keyword {c : Char} {word : List Char} {t : Token} (h : (c, word, t) ∈ keywords) :
      Written t (c :: word)
  | number {text : List Char} (h : IsNumber text) : Written (.number text) text
  | string {ps : List Piece} {body : List Char} (h : Piece.WrittenAll ps body) :
      Written (.string ps) ('"' :: (body ++ ['"']))

/-- **The texts of tokens one after another,** with spaces anywhere between them. -/
inductive Laid : List Token → List Char → Prop
  | nil : Laid [] []
  | space {c : Char} {ts : List Token} {cs : List Char} (hc : c ∈ [' ', '\t', '\r', '\n'])
      (hs : Laid ts cs) : Laid ts (c :: cs)
  | token {t : Token} {ts : List Token} {text cs : List Char} (h : Written t text)
      (hs : Laid ts cs) : Laid (t :: ts) (text ++ cs)

end Token

/-! ## Values -/

mutual

/-- **The tokens of a value.** -/
def tokens : Json → List Token
  | .null => [.null]
  | .bool b => [.bool b]
  | .number text => [.number text]
  | .string ps => [.string ps]
  | .array [] => [.openArray, .closeArray]
  | .array (v :: items) => .openArray :: (tokens v ++ moreItems items)
  | .object [] => [.openObject, .closeObject]
  | .object ((key, v) :: members) =>
    .openObject :: .string key :: .colon :: (tokens v ++ moreMembers members)

/-- The tokens of further items, and of the array's end. -/
def moreItems : List Json → List Token
  | [] => [.closeArray]
  | v :: items => .comma :: (tokens v ++ moreItems items)

/-- The tokens of further members, and of the object's end. -/
def moreMembers : List (List Piece × Json) → List Token
  | [] => [.closeObject]
  | (key, v) :: members => .comma :: .string key :: .colon :: (tokens v ++ moreMembers members)

end

/-- **The texts of a value.** -/
def Written (v : Json) (cs : List Char) : Prop := Token.Laid v.tokens cs

end ExprHost.Json
