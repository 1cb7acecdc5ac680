import ExprHost.Crate.Basic
import ExprHost.Hash.Xxh64
import ExprHost.Text.Hex

/-!
# Crate identity

A crate is identified by a 64-bit word: the digest of its name, set apart by the kind
of its origin, and for a library file mixed with the digest of the path as spelled.
-/

namespace ExprHost

/-- What tells crates apart in a reference set. -/
structure CrateId where
  word : UInt64
deriving DecidableEq, Inhabited

namespace CrateId

/-- Sets sysroot crates apart. -/
def sysrootMark : UInt64 := 0x2fac10b63a6cc57c

/-- Sets crates in library files apart. -/
def fileMark : UInt64 := 0x5ea77ffbcdf5f302

/-- Sets crates without a location apart. -/
def unlocatedMark : UInt64 := 0x7d3c8b4a92e15f6d

/-- Spreads the name of a crate in a library file before its path is added. -/
def spread : UInt64 := 0x4bc94d6bd06053ad

/-- The identity made of the digest of a name and the digest of a path. -/
def ofDigests (name : UInt64) : Crate.Origin → UInt64 → CrateId
  | .sysroot, _ => ⟨sysrootMark ^^^ name⟩
  | .file _, path => ⟨(fileMark ^^^ name) * spread + path⟩
  | .unlocated, _ => ⟨unlocatedMark ^^^ name⟩

/-- **The identity of a crate,** by its name, its kind of origin and its path. -/
def ofCrate (c : Crate) : CrateId :=
  ofDigests (Xxh64.digestText c.name) c.origin (Xxh64.digestText c.origin.pathKey.text)

/-- The identity as `0x` and sixteen digits. -/
def text (i : CrateId) : String := "0x" ++ String.ofList (Hex.word i.word)

/-- The identity as shown in debugging output. -/
def debugText (i : CrateId) : String := "ModuleId(" ++ i.text ++ ")"

/-- Identities by their words. -/
instance : Ord CrateId := ⟨compareOn word⟩

end CrateId

/-- A crate's identity. -/
def Crate.id (c : Crate) : CrateId := CrateId.ofCrate c

end ExprHost
