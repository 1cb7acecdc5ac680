import ExprHost.Reference.Cache
import ExprHost.Reference.Resolve
import ExprHost.Scope.Load
import ExprHost.Source.Unit
import ExprHost.Toolchain.Run

/-!
# Evaluators

An evaluator is made once for some types and namespaces. Each evaluation then runs from
an expression to its value: a source unit, a compilation, a scope, and the value taken
from it before the scope is unloaded.

* `Evaluator.create`: an evaluator, if its references can be resolved.
* `Evaluator.withSettings`: an evaluator over the external compiler.
* `Evaluator.evaluate`: the value of an expression.
-/

namespace ExprHost

/-- What all evaluations of an evaluator share. -/
structure Evaluator where
  references : References
  preamble : Preamble
  stagingDir : Option Path
deriving Inhabited

namespace Evaluator

/-- **An evaluator for some types and namespaces,** over the foundation of the process
and what its library directory holds now. -/
def create (types : List TypeDesc) (usings : List String) (stagingDir : Option Path)
    (foundation : Except ResolveError Foundation) (listing : Path → Listing) :
    Except EvalError Evaluator :=
  match foundation with
  | .error e => .error (.resolution e)
  | .ok f =>
    match References.resolve types f (listing f.libdir) with
    | .error e => .error (.resolution e)
    | .ok references => .ok ⟨references, .ofUsings usings, stagingDir⟩

/-- **An evaluator over the external compiler.** Images are staged where its scratch directories
go, and the compiler is asked for its library directory if the process has no foundation yet. -/
def withSettings (types : List TypeDesc) (usings : List String) (s : Settings) (program : Program)
    (cache : FoundationCache) (h : Host) : Except EvalError Evaluator × FoundationCache × Host :=
  match cache with
  | some f => (create types usings s.scratchDir (.ok f) h.listing, some f, h)
  | none =>
    let (answer, h) := s.libraryDir program h
    let found := FoundationCache.obtain none answer h.listing
    (create types usings s.scratchDir found.result h.listing, found.cache, h)

/-- The source unit for an expression. -/
def unitFor (ev : Evaluator) (t : HostType) (expression : String) : String :=
  SourceUnit.text ev.preamble t.desc.render expression

/-- The next request of the process, and the host after it. -/
def request (ev : Evaluator) (t : HostType) (expression : String) (h : Host) : Request × Host :=
  (.numbered h.nextUnit (ev.unitFor t expression) ev.references,
    { h with nextUnit := h.nextUnit + 1 })

/-- The value of an image, loaded into a scope of its own. -/
def valueOf {V : Type} (ev : Evaluator) (linker : Linker V) (image : Image) (h : Host) :
    Except EvalError V × Host :=
  match Scope.load linker unresolvable ev.stagingDir image h with
  | (.error e, h) => (.error (.load e), h)
  | (.ok scope, h) => (scope.extract, (scope.unload h).2)

/-- **The value of an expression,** as a value of a host type. -/
def evaluate {V : Type} (ev : Evaluator) (toolchain : Toolchain) (linker : Linker V)
    (t : HostType) (expression : String) (h : Host) : Except EvalError V × Host :=
  let (request, h) := ev.request t expression h
  match toolchain.compile request h with
  | (.error e, h) => (.error (.toolchain e), h)
  | (.ok compilation, h) =>
    match compilation.outcome with
    | .error e => (.error e, h)
    | .ok image => ev.valueOf linker image h

theorem stagingDir_of_create {types : List TypeDesc} {usings : List String}
    {stagingDir : Option Path} {foundation : Except ResolveError Foundation}
    {listing : Path → Listing} {ev : Evaluator}
    (h : create types usings stagingDir foundation listing = .ok ev) :
    ev.stagingDir = stagingDir := by
  unfold create at h
  split at h
  · cases h
  · split at h
    · cases h
    · cases h
      rfl

theorem stagingDir_of_withSettings {types : List TypeDesc} {usings : List String} {s : Settings}
    {program : Program} {cache : FoundationCache} {h : Host} {ev : Evaluator}
    (hev : (withSettings types usings s program cache h).1 = .ok ev) :
    ev.stagingDir = s.scratchDir := by
  cases cache with
  | some f =>
    have hcreate : create types usings s.scratchDir (.ok f) h.listing = .ok ev := hev
    exact stagingDir_of_create hcreate
  | none =>
    have hcreate : create types usings s.scratchDir
        (FoundationCache.obtain none (s.libraryDir program h).1
          (s.libraryDir program h).2.listing).result
        (s.libraryDir program h).2.listing = .ok ev := hev
    exact stagingDir_of_create hcreate

end Evaluator

end ExprHost
