import ExprHost.Reference.Foundation
import ExprHost.Reference.Set
import ExprHost.Types.HostType

/-!
# Resolving references

The crates that some types mention, each linked once, with the foundation.

* `References.resolve`: the reference set of some types, or the first crate that
  cannot be linked.
-/

namespace ExprHost

/-- A crate, and the type in whose tree it stands. -/
structure Mention where
  crate : Crate
  typeName : String

/-- The crates in the tree of a type. -/
def TypeDesc.mentions (t : TypeDesc) : List Mention := t.crates.map (⟨·, t.name.text⟩)

namespace References

/-- Adds a linked crate unless one with its identity is there. -/
def addLinked (linked : List LinkedCrate) (c : LinkedCrate) : List LinkedCrate :=
  if linked.any (·.id = c.id) then linked else linked ++ [c]

/-- The library of a mentioned crate. -/
def link (f : Foundation) (listing : Listing) (m : Mention) : Except ResolveError LinkedCrate :=
  match m.crate.origin with
  | .file path => .ok (.ofFile m.crate path)
  | .unlocated => .error (.unlocated m.crate.name m.typeName)
  | .sysroot =>
    match f.find? listing m.crate.name with
    | some linked => .ok linked
    | none => .error (.unlocated m.crate.name m.typeName)

/-- One mention after another. A crate whose identity is there is not linked again. -/
def linkAll (f : Foundation) (listing : Listing) :
    List LinkedCrate → List Mention → Except ResolveError (List LinkedCrate)
  | linked, [] => .ok linked
  | linked, m :: rest =>
    if linked.any (·.id = m.crate.id) then linkAll f listing linked rest
    else
      match link f listing m with
      | .error e => .error e
      | .ok c => linkAll f listing (linked ++ [c]) rest

/-- All that a compilation for some types mentions, the baseline first. -/
def allMentions (types : List TypeDesc) : List Mention :=
  (HostType.baseline ++ types).flatMap TypeDesc.mentions

/-- The canonical order of linked crates; those alike in it stay in the order found. -/
def ofLinked (linked : List LinkedCrate) : References :=
  ⟨linked.mergeSort fun a b => (LinkedCrate.keyOrder a b).isLE⟩

/-- **The reference set of some types:** the foundation, the baseline, and every crate
that a type mentions. -/
def resolve (types : List TypeDesc) (f : Foundation) (listing : Listing) :
    Except ResolveError References :=
  match linkAll f listing (f.crates.foldl addLinked []) (allMentions types) with
  | .error e => .error e
  | .ok linked => .ok (ofLinked linked)

end References

end ExprHost
