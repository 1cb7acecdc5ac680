import ExprHost.Types.Render

/-!
# Host types

The types whose values an evaluation can return: their descriptors, and their
spelling with its reader.

* `HostType.desc`: the descriptor of a host type.
* `HostType.spelling`, `HostType.read?`: the spelling, and the type at the front of a text.
-/

namespace ExprHost

/-- A type without arguments. -/
inductive HostType.Atom
  | bool | char
  | i8 | i16 | i32 | i64 | i128 | isize
  | u8 | u16 | u32 | u64 | u128 | usize
  | f32 | f64 | unit | string
deriving DecidableEq, Inhabited

/-- A type constructor with one argument. -/
inductive HostType.Unary
  | vec | vecDeque | option | box | hashSet | btreeSet
deriving DecidableEq, Inhabited

/-- A type constructor with two arguments. -/
inductive HostType.Binary
  | result | hashMap | btreeMap
deriving DecidableEq, Inhabited

/-- A type whose values can cross from an evaluated expression to its host. -/
inductive HostType
  | atom (a : HostType.Atom)
  | unary (c : HostType.Unary) (arg : HostType)
  | binary (c : HostType.Binary) (first second : HostType)
deriving DecidableEq, Inhabited

namespace HostType

/-- The spelling of a type without arguments. -/
def Atom.text : Atom → String
  | .bool => "bool" | .char => "char"
  | .i8 => "i8" | .i16 => "i16" | .i32 => "i32" | .i64 => "i64" | .i128 => "i128" | .isize => "isize"
  | .u8 => "u8" | .u16 => "u16" | .u32 => "u32" | .u64 => "u64" | .u128 => "u128" | .usize => "usize"
  | .f32 => "f32" | .f64 => "f64" | .unit => "()" | .string => "String"

/-- The spelling of a constructor with one argument. -/
def Unary.text : Unary → String
  | .vec => "Vec" | .vecDeque => "VecDeque" | .option => "Option" | .box => "Box"
  | .hashSet => "HashSet" | .btreeSet => "BTreeSet"

/-- The spelling of a constructor with two arguments. -/
def Binary.text : Binary → String
  | .result => "Result" | .hashMap => "HashMap" | .btreeMap => "BTreeMap"

/-- The module that holds a constructor with one argument. -/
def Unary.home : Unary → String
  | .vec => "std::vec" | .vecDeque => "std::collections" | .option => "std::option"
  | .box => "std::boxed" | .hashSet => "std::collections" | .btreeSet => "std::collections"

/-- The module that holds a constructor with two arguments. -/
def Binary.home : Binary → String
  | .result => "std::result" | .hashMap => "std::collections" | .btreeMap => "std::collections"

/-- The constructor with one argument, before it has that argument. -/
def Unary.desc (c : Unary) : TypeDesc :=
  .parametric (.ofPath (c.home ++ "::" ++ c.text)) .std 1

/-- The constructor with two arguments, before it has them. -/
def Binary.desc (c : Binary) : TypeDesc :=
  .parametric (.ofPath (c.home ++ "::" ++ c.text)) .std 2

/-- A type without arguments: strings live in `std`, all else in `core`. -/
def Atom.desc : Atom → TypeDesc
  | .string => .plain (.ofPath "std::string::String") .std
  | a => .plain (.global a.text) .core

/-- **The descriptor of a host type.** -/
def desc : HostType → TypeDesc
  | .atom a => a.desc
  | .unary c arg => c.desc.applied [arg.desc]
  | .binary c first second => c.desc.applied [first.desc, second.desc]

/-- The types that every compilation can name without being told of them. -/
def baseline : List TypeDesc :=
  [(atom .bool).desc, (atom .i32).desc, (atom .string).desc,
   Unary.vec.desc, Unary.option.desc, Binary.hashMap.desc]

/-- The spelling of a host type. -/
def spelling : HostType → String
  | .atom a => a.text
  | .unary c arg => c.text ++ "<" ++ arg.spelling ++ ">"
  | .binary c first second => c.text ++ "<" ++ first.spelling ++ ", " ++ second.spelling ++ ">"

def Atom.all : List Atom :=
  [.bool, .char, .i8, .i16, .i32, .i64, .i128, .isize, .u8, .u16, .u32, .u64, .u128, .usize,
   .f32, .f64, .unit, .string]

def Unary.all : List Unary := [.vec, .vecDeque, .option, .box, .hashSet, .btreeSet]

def Binary.all : List Binary := [.result, .hashMap, .btreeMap]

/-- Whether a character ends the name of a type or a constructor. -/
def endsName (c : Char) : Bool := c = '<' || c = '>' || c = ','

theorem length_le_of_dropStart? {p cs rest : List Char} (h : Text.dropStart? p cs = some rest) :
    rest.length ≤ cs.length := by
  have := congrArg List.length (Text.eq_append_of_dropStart? h)
  simp only [List.length_append] at this
  omega

theorem length_le_of_dropWhile {p : Char → Bool} {cs rest : List Char}
    (h : cs.dropWhile p = rest) : rest.length ≤ cs.length := by
  rw [← h]
  exact (List.dropWhile_sublist _).length_le

theorem length_lt_of_dropWhile {p : Char → Bool} {cs rest : List Char} {c : Char}
    (h : cs.dropWhile p = c :: rest) : rest.length < cs.length :=
  length_le_of_dropWhile h

theorem length_le_of_args {all arg close rest : Nat} (hall : arg < all)
    (harg : close ≤ arg) (hclose : rest ≤ close) : rest ≤ all := by
  omega

theorem length_lt_of_args {all first comma second : Nat} (hall : first < all)
    (hfirst : comma ≤ first) (hcomma : second ≤ comma) : second < all := by
  omega

/-- The text after a given beginning, no longer than before. -/
def after? (p cs : List Char) : Option { rest : List Char // rest.length ≤ cs.length } :=
  match h : Text.dropStart? p cs with
  | none => none
  | some rest => some ⟨rest, length_le_of_dropStart? h⟩

/-- The type whose spelling begins a text, and the text after it. -/
def read? (cs : List Char) : Option (HostType × { rest : List Char // rest.length ≤ cs.length }) :=
  let name := String.ofList (cs.takeWhile (!endsName ·))
  match h : cs.dropWhile (!endsName ·) with
  | '<' :: inner =>
    have hin : inner.length < cs.length := length_lt_of_dropWhile h
    match Unary.all.find? (·.text = name), Binary.all.find? (·.text = name) with
    | some c, _ => do
      let (arg, ⟨r, hr⟩) ← read? inner
      let ⟨rest, hrest⟩ ← after? ['>'] r
      return (.unary c arg, ⟨rest, length_le_of_args hin hr hrest⟩)
    | none, some c => do
      let (first, ⟨r, hr⟩) ← read? inner
      let ⟨s, hs⟩ ← after? [',', ' '] r
      have hlt : s.length < cs.length := length_lt_of_args hin hr hs
      let (second, ⟨t, ht⟩) ← read? s
      let ⟨rest, hrest⟩ ← after? ['>'] t
      return (.binary c first second, ⟨rest, length_le_of_args hlt ht hrest⟩)
    | none, none => none
  | rest => do
    let a ← Atom.all.find? (·.text = name)
    return (.atom a, ⟨rest, length_le_of_dropWhile h⟩)
termination_by cs.length

/-- The type that a whole text spells. -/
def ofSpelling? (s : String) : Option HostType :=
  match read? s.toList with
  | some (t, ⟨[], _⟩) => some t
  | _ => none

end HostType

end ExprHost
