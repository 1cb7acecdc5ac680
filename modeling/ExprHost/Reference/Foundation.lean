import ExprHost.Error
import ExprHost.Reference.Linked
import ExprHost.Text.Utf8

/-!
# The foundation

The compiler's library directory with the crates that every compilation links. What is
in a directory is given by its entries' names, in any order; `none` stands for a
directory that cannot be read.

* `findLibrary?`: the library of a sysroot crate in a directory.
* `Foundation.inDirectory`: the foundation in a directory.
* `Foundation.find?`: any sysroot crate.
-/

namespace ExprHost

/-- The names in a directory, if it can be read. -/
abbrev Listing := Option (List Bytes)

/-- Whether a name is one of a sysroot crate's library. -/
def isLibraryOf (crate : String) (name : String) : Bool :=
  ("lib" ++ crate ++ "-").toList.isPrefixOf name.toList && ".rlib".toList.isSuffixOf name.toList

/-- The least of some names, by their bytes. -/
def leastName? : List String → Option String
  | [] => none
  | name :: rest =>
    match leastName? rest with
    | none => some name
    | some least => if least < name then some least else some name

/-- The library of a sysroot crate: of several, the one with the least name. Names that
are not text are passed over. -/
def findLibrary? (libdir : Path) (listing : Listing) (crate : String) : Option Path := do
  let names := (← listing).filterMap fun name => (Utf8.strict? name).map String.ofList
  let least ← leastName? (names.filter (isLibraryOf crate))
  return libdir.join least

/-- The library directory of the compiler and the foundational crates in it. -/
structure Foundation where
  libdir : Path
  crates : List LinkedCrate
deriving Inhabited

namespace Foundation

/-- A foundational crate, or the reason why it cannot be linked. -/
def crateIn (libdir : Path) (listing : Listing) (crate : String) :
    Except ResolveError LinkedCrate :=
  match findLibrary? libdir listing crate with
  | some path => .ok (.ofSysroot crate path)
  | none => .error (.foundational crate ("no lib" ++ crate ++ "-*.rlib in " ++ libdir.text))

/-- The foundational crates in turn; the first that is missing is reported. -/
def cratesIn (libdir : Path) (listing : Listing) :
    List String → Except ResolveError (List LinkedCrate)
  | [] => .ok []
  | crate :: rest =>
    match crateIn libdir listing crate with
    | .error e => .error e
    | .ok linked =>
      match cratesIn libdir listing rest with
      | .error e => .error e
      | .ok others => .ok (linked :: others)

/-- **The foundation in a library directory.** -/
def inDirectory (libdir : Path) (listing : Listing) : Except ResolveError Foundation :=
  match cratesIn libdir listing Crate.foundationalNames with
  | .error e => .error e
  | .ok crates => .ok ⟨libdir, crates⟩

/-- Any sysroot crate: one that was located before, else one that is in the directory
now. -/
def find? (f : Foundation) (listing : Listing) (crate : String) : Option LinkedCrate :=
  match f.crates.find? (·.name = crate) with
  | some linked => some linked
  | none => (findLibrary? f.libdir listing crate).map (LinkedCrate.ofSysroot crate)

end Foundation

end ExprHost
