import ExprHost.Reference.Linked

/-!
# Reference sets

The crates a compilation links against, each once, in canonical order.
-/

namespace ExprHost

/-- The crates of a compilation in canonical order. -/
structure References where
  crates : List LinkedCrate
deriving BEq, Inhabited

namespace References

/-- No crates. -/
def empty : References := ⟨[]⟩

/-- The number of crates. -/
def size (r : References) : Nat := r.crates.length

/-- Whether a crate with this identity is in the set. -/
def contains (r : References) (id : CrateId) : Bool := r.crates.any (·.id = id)

/-- The crates that the compiler has to be told of. -/
def explicit (r : References) : List LinkedCrate := r.crates.filter (·.linkage ≠ .sysroot)

/-- Drops every element that equals the one before it. -/
def dropRepeats : List Path → List Path
  | [] => []
  | p :: rest =>
    match dropRepeats rest with
    | [] => [p]
    | q :: more => if p == q then p :: more else p :: q :: more

/-- The directories of the explicit crates, in path order, each once. -/
def libraryDirs (r : References) : List Path :=
  dropRepeats ((r.explicit.filterMap (·.path.parent?)).mergeSort fun p q => (compare p q).isLE)

/-- The crates that a compiled image needs when it is loaded. -/
def dynamicNames (r : References) : List String :=
  (r.crates.filter (·.linkage = .dynamic)).map (·.name)

end References

end ExprHost
