import ExprHost.Scope.Load

/-!
# Kept scopes

Scopes that are held under labels, and what can be done with them one after another.
A label that is used again gives up the scope it held before.
-/

namespace ExprHost

/-- The scopes that are held, each under its label. -/
structure Shelf (V : Type) where
  scopes : List (String × Scope V)

namespace Shelf

variable {V : Type}

/-- The shelf that holds nothing. -/
def empty : Shelf V := ⟨[]⟩

/-- The scope under a label. -/
def find? (shelf : Shelf V) (label : String) : Option (Scope V) :=
  (shelf.scopes.find? (·.1 = label)).map (·.2)

/-- The shelf with a scope under a label that is free. -/
def put (shelf : Shelf V) (label : String) (s : Scope V) : Shelf V := ⟨(label, s) :: shelf.scopes⟩

/-- The shelf without a label. -/
def without (shelf : Shelf V) (label : String) : Shelf V := ⟨shelf.scopes.filter (·.1 ≠ label)⟩

/-- The scope under a label dropped, if there is one. -/
def drop (shelf : Shelf V) (label : String) (h : Host) : Bool × Shelf V × Host :=
  match shelf.find? label with
  | none => (false, shelf, h)
  | some s => (true, shelf.without label, s.drop h)

/-- The scope under a label unloaded, if there is one. -/
def unload (shelf : Shelf V) (label : String) (h : Host) :
    Option (Except LoadError Unit) × Shelf V × Host :=
  match shelf.find? label with
  | none => (none, shelf, h)
  | some s => (some (s.unload h).1, shelf.without label, (s.unload h).2)

/-- An image loaded and held under a label. The scope that was there is dropped after
the new one has loaded, and stays if loading fails. -/
def load (shelf : Shelf V) (label : String) (linker : Linker V) (loader : DependencyLoader)
    (stagingDir : Option Path) (image : Image) (h : Host) :
    Except LoadError Unit × Shelf V × Host :=
  match Scope.load linker loader stagingDir image h with
  | (.error e, h) => (.error e, shelf, h)
  | (.ok s, h) =>
    let (_, shelf, h) := shelf.drop label h
    (.ok (), shelf.put label s, h)

/-- The number of scopes that still hold their image. -/
def live (shelf : Shelf V) : Nat := (shelf.scopes.filter (·.2.isLive)).length

end Shelf

end ExprHost
