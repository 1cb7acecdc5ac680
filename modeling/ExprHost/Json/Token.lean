import ExprHost.Text.Hex

/-!
# JSON tokens

The lexical half of reading JSON. Strings keep their `\u` escapes as 16-bit units, so
that only those whose text is wanted have to pair surrogates.

* `Token.scan`: all tokens of a text.
* `Piece.text?`: the text of a string, if its surrogates are paired.
-/

namespace ExprHost.Json

/-- A piece of a string literal: a character, or the unit of a `\u` escape. -/
inductive Piece
  | char (c : Char)
  | unit (n : Nat)
deriving DecidableEq, Inhabited

/-- The text of a string literal. A high surrogate has to be followed by a low one,
and a low one to follow a high one. -/
def Piece.text? : List Piece → Option (List Char)
  | [] => some []
  | .char c :: rest => (text? rest).map (c :: ·)
  | .unit n :: rest =>
    if 0xD800 ≤ n ∧ n < 0xDC00 then
      match rest with
      | .unit m :: rest =>
        if 0xDC00 ≤ m ∧ m < 0xE000 then
          (text? rest).map (Char.ofNat (0x10000 + (n - 0xD800) * 0x400 + (m - 0xDC00)) :: ·)
        else none
      | _ => none
    else if 0xDC00 ≤ n ∧ n < 0xE000 then none
    else (text? rest).map (Char.ofNat n :: ·)

/-- A lexical element. -/
inductive Token
  | openObject | closeObject | openArray | closeArray | comma | colon
  | null
  | bool (b : Bool)
  | number (text : List Char)
  | string (pieces : List Piece)
deriving DecidableEq, Inhabited

namespace Token

/-- The characters that may stand between tokens. -/
def isSpace (c : Char) : Bool := c = ' ' || c = '\t' || c = '\r' || c = '\n'

/-- The character that a letter after a backslash stands for. -/
def escaped? : Char → Option Char
  | '"' => some '"'
  | '\\' => some '\\'
  | '/' => some '/'
  | 'b' => some '\x08'
  | 'f' => some '\x0c'
  | 'n' => some '\n'
  | 'r' => some '\r'
  | 't' => some '\t'
  | _ => none

/-- What begins a result, before the pieces of the rest. -/
def onPieces (p : Piece) (r : Option (List Piece × List Char)) : Option (List Piece × List Char) :=
  r.map fun (ps, rest) => (p :: ps, rest)

/-- The pieces of a string up to its closing quote, and the text after that. Control
characters may not stand in it. -/
def stringBody : List Char → Option (List Piece × List Char)
  | [] => none
  | '"' :: rest => some ([], rest)
  | '\\' :: 'u' :: a :: b :: c :: d :: rest =>
    match Hex.number? 0 [a, b, c, d] with
    | none => none
    | some n => onPieces (.unit n) (stringBody rest)
  | '\\' :: e :: rest =>
    match escaped? e with
    | none => none
    | some c => onPieces (.char c) (stringBody rest)
  | c :: rest =>
    if c.toNat < 0x20 ∨ c = '\\' then none else onPieces (.char c) (stringBody rest)

/-- At least one digit, and the text after all of them. -/
def digits? (cs : List Char) : Option (List Char × List Char) :=
  match cs.takeWhile Char.isDigit with
  | [] => none
  | ds => some (ds, cs.dropWhile Char.isDigit)

/-- The digits of a whole number: no others follow a zero. -/
def whole? : List Char → Option (List Char × List Char)
  | '0' :: rest => some (['0'], rest)
  | cs => digits? cs

/-- The fraction of a number, if there is one. -/
def fraction? : List Char → Option (List Char × List Char)
  | '.' :: rest => (digits? rest).map fun (ds, rest) => ('.' :: ds, rest)
  | cs => some ([], cs)

/-- The sign of an exponent, if there is one. -/
def sign : List Char → List Char × List Char
  | '+' :: rest => (['+'], rest)
  | '-' :: rest => (['-'], rest)
  | cs => ([], cs)

/-- The exponent of a number, if there is one. -/
def exponent? : List Char → Option (List Char × List Char)
  | c :: rest =>
    if c = 'e' ∨ c = 'E' then
      (digits? (sign rest).2).map fun (ds, left) => (c :: ((sign rest).1 ++ ds), left)
    else some ([], c :: rest)
  | [] => some ([], [])

/-- A number without its sign, and the text after it. -/
def unsigned? (cs : List Char) : Option (List Char × List Char) := do
  let (whole, cs) ← whole? cs
  let (fraction, cs) ← fraction? cs
  let (exponent, cs) ← exponent? cs
  return (whole ++ fraction ++ exponent, cs)

/-- A number, and the text after it. -/
def number? : List Char → Option (List Char × List Char)
  | '-' :: rest => (unsigned? rest).map fun (ds, rest) => ('-' :: ds, rest)
  | cs => unsigned? cs

/-- The token at the front of a text that does not begin with a space, and the text
after it. -/
def first? : List Char → Option (Token × List Char)
  | '\x7b' :: rest => some (.openObject, rest)
  | '\x7d' :: rest => some (.closeObject, rest)
  | '[' :: rest => some (.openArray, rest)
  | ']' :: rest => some (.closeArray, rest)
  | ',' :: rest => some (.comma, rest)
  | ':' :: rest => some (.colon, rest)
  | '"' :: rest => (stringBody rest).map fun (ps, rest) => (.string ps, rest)
  | 'n' :: 'u' :: 'l' :: 'l' :: rest => some (.null, rest)
  | 't' :: 'r' :: 'u' :: 'e' :: rest => some (.bool true, rest)
  | 'f' :: 'a' :: 'l' :: 's' :: 'e' :: rest => some (.bool false, rest)
  | cs => (number? cs).map fun (text, rest) => (.number text, rest)

theorem length_stringBody {cs rest : List Char} {ps : List Piece}
    (h : stringBody cs = some (ps, rest)) : rest.length < cs.length := by
  fun_induction stringBody cs generalizing ps rest with
  | case1 | case3 | case5 | case7 => cases h
  | case2 => cases h; simp
  | case4 | case6 | case8 =>
    rename_i ih
    obtain ⟨⟨ps', r⟩, hr, hp⟩ := Option.map_eq_some_iff.1 h
    cases hp
    have := ih hr
    simp only [List.length_cons]
    omega

theorem length_digits? {cs ds rest : List Char} (h : digits? cs = some (ds, rest)) :
    rest.length < cs.length := by
  unfold digits? at h
  split at h
  · cases h
  · next ds' hne =>
    cases h
    have hlen := congrArg List.length (List.takeWhile_append_dropWhile (p := Char.isDigit) (l := cs))
    have hpos := List.length_pos_iff.2 hne
    rw [List.length_append] at hlen
    omega

theorem length_whole? {cs ds rest : List Char} (h : whole? cs = some (ds, rest)) :
    rest.length < cs.length := by
  unfold whole? at h
  split at h
  · cases h; simp
  · exact length_digits? h

theorem length_fraction? {cs ds rest : List Char} (h : fraction? cs = some (ds, rest)) :
    rest.length ≤ cs.length := by
  unfold fraction? at h
  split at h
  · obtain ⟨⟨d, r⟩, hr, hp⟩ := Option.map_eq_some_iff.1 h
    cases hp
    have := length_digits? hr
    simp only [List.length_cons]
    omega
  · cases h; exact Nat.le_refl _

theorem length_sign (cs : List Char) : (sign cs).2.length ≤ cs.length := by
  unfold sign
  split <;> simp

theorem length_exponent? {cs ds rest : List Char} (h : exponent? cs = some (ds, rest)) :
    rest.length ≤ cs.length := by
  unfold exponent? at h
  split at h
  · next c tail =>
    split at h
    · obtain ⟨⟨d, r⟩, hr, hp⟩ := Option.map_eq_some_iff.1 h
      cases hp
      have := length_digits? hr
      have := length_sign tail
      simp only [List.length_cons]
      omega
    · cases h; exact Nat.le_refl _
  · cases h; exact Nat.le_refl _

theorem length_unsigned? {cs ds rest : List Char} (h : unsigned? cs = some (ds, rest)) :
    rest.length < cs.length := by
  obtain ⟨⟨w, cs1⟩, hw, h⟩ := Option.bind_eq_some_iff.1 h
  obtain ⟨⟨f, cs2⟩, hf, h⟩ := Option.bind_eq_some_iff.1 h
  obtain ⟨⟨e, cs3⟩, he, h⟩ := Option.bind_eq_some_iff.1 h
  cases h
  have := length_whole? hw
  have := length_fraction? hf
  have := length_exponent? he
  omega

theorem length_number? {cs ds rest : List Char} (h : number? cs = some (ds, rest)) :
    rest.length < cs.length := by
  unfold number? at h
  split at h
  · obtain ⟨⟨d, r⟩, hr, hp⟩ := Option.map_eq_some_iff.1 h
    cases hp
    have := length_unsigned? hr
    simp only [List.length_cons]
    omega
  · exact length_unsigned? h

/-- **A token takes up some text.** -/
theorem length_first? {cs rest : List Char} {t : Token} (h : first? cs = some (t, rest)) :
    rest.length < cs.length := by
  unfold first? at h
  split at h
  case h_7 tail =>
    obtain ⟨⟨d, r⟩, hr, hp⟩ := Option.map_eq_some_iff.1 h
    cases hp
    have := length_stringBody hr
    simp only [List.length_cons]
    omega
  case h_11 =>
    obtain ⟨⟨d, r⟩, hr, hp⟩ := Option.map_eq_some_iff.1 h
    cases hp
    exact length_number? hr
  all_goals
    cases h
    simp only [List.length_cons]
    omega

/-- **The tokens of a text,** if it is made of tokens and spaces alone. -/
def scan (cs : List Char) : Option (List Token) :=
  match cs with
  | [] => some []
  | c :: rest =>
    if isSpace c then scan rest
    else
      match _h : first? (c :: rest) with
      | none => none
      | some (t, left) => (scan left).map (t :: ·)
termination_by cs.length
decreasing_by
  · simp
  · exact length_first? _h

end Token

end ExprHost.Json
