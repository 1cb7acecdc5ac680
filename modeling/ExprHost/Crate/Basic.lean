import ExprHost.Path.Basic

/-!
# Crates

The binary module that declares a type: its name and where its library comes from.
Crates are ordered by name, and crates of one name by where they come from. Files are
told apart, and ordered, by their paths.
-/

namespace ExprHost

/-- Where the library of a crate comes from. -/
inductive Crate.Origin
  /-- The compiler's own library directory. -/
  | sysroot
  /-- A library file. -/
  | file (path : Path)
  /-- Nowhere. -/
  | unlocated
deriving BEq, Inhabited

/-- A crate as types refer to it. -/
structure Crate where
  name : String
  origin : Crate.Origin
deriving BEq, Inhabited

namespace Crate

/-- A crate of the compiler's own library directory. -/
def sysroot (name : String) : Crate := ⟨name, .sysroot⟩

/-- A crate in a library file. -/
def inFile (name : String) (path : Path) : Crate := ⟨name, .file path⟩

/-- A crate without a location. -/
def unlocated (name : String) : Crate := ⟨name, .unlocated⟩

def core : Crate := sysroot "core"
def std : Crate := sysroot "std"

/-- The sysroot crates that every compilation links. -/
def foundationalNames : List String := ["core", "std"]

/-- The library file of a crate that has one. -/
def path? (c : Crate) : Option Path :=
  match c.origin with
  | .file path => some path
  | _ => none

/-- Whether the crate is one that every compilation links. -/
def isFoundational (c : Crate) : Bool :=
  match c.origin with
  | .sysroot => foundationalNames.contains c.name
  | _ => false

/-- The crate's name with its origin in parentheses. -/
def text (c : Crate) : String :=
  match c.origin with
  | .sysroot => c.name ++ " (sysroot)"
  | .file path => c.name ++ " (" ++ path.text ++ ")"
  | .unlocated => c.name ++ " (unlocated)"

/-- The rank of an origin's kind: sysroot, files, unlocated. -/
def Origin.rank : Origin → Nat
  | .sysroot => 0
  | .file _ => 1
  | .unlocated => 2

/-- The library file of an origin, empty where there is none. -/
def Origin.pathKey : Origin → Path
  | .file path => path
  | _ => ⟨""⟩

/-- Origins by kind, files by path. -/
instance : Ord Origin := ⟨compareLex (compareOn Origin.rank) (compareOn Origin.pathKey)⟩

/-- Crates by name, then by origin. -/
instance : Ord Crate := ⟨compareLex (compareOn name) (compareOn origin)⟩

end Crate

end ExprHost
