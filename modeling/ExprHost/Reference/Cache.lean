import ExprHost.Reference.Foundation

/-!
# The foundation cache

One foundation serves the whole process. Several callers may look for it at once, so a
lookup is made of steps between which others can act.

* `Lookup.step`: one step of a lookup.
* `FoundationCache.obtain`: a lookup that nobody interrupts.
* `steps_check`: it is three steps in a row.
-/

namespace ExprHost

/-- The foundation that was stored first, if any. -/
abbrev FoundationCache := Option Foundation

/-- Where a lookup stands. -/
inductive Lookup
  /-- The cache has to be looked at. -/
  | check
  /-- The toolchain has to be asked, and its directory searched. -/
  | ask
  /-- A foundation has been located and has to be stored. -/
  | store (f : Foundation)
  | finished (r : Except ResolveError Foundation)

namespace Lookup

/-- The foundation that a toolchain's answer leads to. -/
def found (answer : Except ToolchainError Path) (listing : Path → Listing) :
    Except ResolveError Foundation :=
  match answer with
  | .error e => .error (.foundational (Text.join ", " Crate.foundationalNames) e.message)
  | .ok libdir => Foundation.inDirectory libdir (listing libdir)

/-- **One step of a lookup.** What is stored stays, and whoever comes to store later
gets what is there. -/
def step (answer : Except ToolchainError Path) (listing : Path → Listing) :
    FoundationCache → Lookup → FoundationCache × Lookup
  | some f, .check => (some f, .finished (.ok f))
  | none, .check => (none, .ask)
  | cache, .ask =>
    match found answer listing with
    | .error e => (cache, .finished (.error e))
    | .ok f => (cache, .store f)
  | some g, .store _ => (some g, .finished (.ok g))
  | none, .store f => (some f, .finished (.ok f))
  | cache, .finished r => (cache, .finished r)

/-- Some steps in a row, with nobody in between. -/
def steps (answer : Except ToolchainError Path) (listing : Path → Listing) :
    Nat → FoundationCache × Lookup → FoundationCache × Lookup
  | 0, s => s
  | n + 1, s => steps answer listing n (step answer listing s.1 s.2)

end Lookup

/-- What a lookup gave, whether it asked the toolchain, and the cache after it. -/
structure FoundationCache.Answer where
  result : Except ResolveError Foundation
  asked : Bool
  cache : FoundationCache

/-- **The foundation of the process,** located if nobody has done so before. -/
def FoundationCache.obtain (cache : FoundationCache) (answer : Except ToolchainError Path)
    (listing : Path → Listing) : FoundationCache.Answer :=
  match cache with
  | some f => ⟨.ok f, false, some f⟩
  | none =>
    match Lookup.found answer listing with
    | .error e => ⟨.error e, true, none⟩
    | .ok f => ⟨.ok f, true, some f⟩

/-- A lookup that nobody interrupts is three steps in a row. -/
theorem Lookup.steps_check (answer : Except ToolchainError Path) (listing : Path → Listing)
    (cache : FoundationCache) :
    Lookup.steps answer listing 3 (cache, .check) =
      ((cache.obtain answer listing).cache,
        .finished (cache.obtain answer listing).result) := by
  cases cache with
  | some f => rfl
  | none =>
    simp only [steps, step, FoundationCache.obtain]
    cases found answer listing <;> rfl

end ExprHost
