import ExprHost.Path.Parts
import ExprHost.Crate.Id

/-!
# Linked crates

A crate whose library has been found, and how it goes into a compilation.

* `LinkedCrate.order`: the order of linked crates, by name, path, linkage and identity.
-/

namespace ExprHost

/-- How a library goes into a compilation. -/
inductive Linkage
  /-- The compiler finds it itself. -/
  | sysroot
  /-- It is copied in. -/
  | static
  /-- It is needed again when the compiled image is loaded. -/
  | dynamic
deriving DecidableEq, Inhabited

/-- The rank of a linkage. -/
def Linkage.rank : Linkage → Nat
  | sysroot => 0
  | static => 1
  | dynamic => 2

/-- A crate with the library that was found for it. -/
structure LinkedCrate where
  name : String
  path : Path
  linkage : Linkage
  id : CrateId
deriving BEq, Inhabited

namespace LinkedCrate

/-- A sysroot crate whose library was found at a path. -/
def ofSysroot (name : String) (path : Path) : LinkedCrate :=
  ⟨name, path, .sysroot, (Crate.sysroot name).id⟩

/-- A crate in a library file. Files with the extension `so` are dynamic libraries. -/
def ofFile (c : Crate) (path : Path) : LinkedCrate :=
  ⟨c.name, path, if path.extension? = some "so" then .dynamic else .static, c.id⟩

/-- The canonical order of a set: by name, then by path. -/
def keyOrder : LinkedCrate → LinkedCrate → Ordering :=
  compareLex (compareOn name) (compareOn path)

/-- The canonical order, and of crates alike in it by linkage, then by identity. -/
def order : LinkedCrate → LinkedCrate → Ordering :=
  compareLex keyOrder (compareLex (compareOn (·.linkage.rank)) (compareOn id))

instance : Ord LinkedCrate := ⟨order⟩

end LinkedCrate

end ExprHost
