import ExprHost.Host.State
import ExprHost.Image
import ExprHost.Scope.Library

/-!
# Isolated scopes

A scope holds one loaded image. Dependencies are resolved and opened first; then the
image is staged in a file and opened from there. Releasing the scope closes the image
and gives that file up, once.

* `Scope.load`: an image loaded.
* `Scope.release`, `Scope.unload`, `Scope.drop`: the ways a scope ends.
-/

namespace ExprHost

/-- Where the dependencies of an image are found; `none` refuses one. -/
abbrev DependencyLoader := String → Option Path

/-- The loader that refuses everything. -/
def unresolvable : DependencyLoader := fun _ => none

/-- A loaded image: its library, until it is released, and where it was staged. -/
structure Scope (V : Type) where
  library : Option (Library V)
  staged : Location

namespace Scope

variable {V : Type}

/-- Whether the library at a path can be opened. The path may come with the NUL that ends
it. The empty one stands for the process itself, which is always open, and a name without
a separator is left to the platform's loader to find. -/
def openDependency (linker : Linker V) (h : Host) (path : Path) : Except String Unit :=
  match Text.terminated? path.text with
  | none => .error OsError.nulInPath.text
  | some "" => .ok ()
  | some text =>
    match if text.toList.contains '/' then some ⟨text⟩ else h.libraries text with
    | none => .error OsError.notFound.text
    | some p =>
      match h.tree.read h.workDir p with
      | .error e => .error e.text
      | .ok content => (linker content).map fun _ => ()

/-- Every dependency resolved and opened, in order. -/
def openDependencies (linker : Linker V) (loader : DependencyLoader) (h : Host) :
    List String → Except LoadError Unit
  | [] => .ok ()
  | name :: rest =>
    match loader name with
    | none => .error (.unresolvedDependency name)
    | some path =>
      match openDependency linker h path with
      | .error os => .error (.cannotOpen os)
      | .ok () => openDependencies linker loader h rest

/-- **An image loaded.** A load that fails gives up what it has staged. -/
def load (linker : Linker V) (loader : DependencyLoader) (stagingDir : Option Path)
    (image : Image) (h : Host) : Except LoadError (Scope V) × Host :=
  match openDependencies linker loader h image.dependencies with
  | .error e => (.error e, h)
  | .ok () =>
    match h.stage stagingDir image.bytes with
    | .error words => (.error (.cannotStage words), h)
    | .ok (loc, staged) =>
      match linker image.bytes with
      | .error os => (.error (.cannotOpen os), staged.remove loc)
      | .ok library =>
        (.ok ⟨some library, loc⟩, { staged with live := staged.live + 1 })

/-- Whether the scope still holds its image. -/
def isLive (s : Scope V) : Bool := s.library.isSome

/-- The scope closed, if that has not been done. Whatever closing comes to, the scope
no longer counts and its file is given up. -/
def release (s : Scope V) (h : Host) : Except LoadError Unit × Scope V × Host :=
  match s.library with
  | none => (.ok (), s, h)
  | some library =>
    let result := match library.closing with
      | .ok () => .ok ()
      | .error os => .error (.cannotClose os)
    (result, { s with library := none },
      { h.remove s.staged with live := h.live - 1 })

/-- The end of a scope that nobody holds any more. -/
def drop (s : Scope V) (h : Host) : Host := (s.release h).2.2

/-- **The scope closed at its holder's wish,** who learns how it went. What is left of
the scope is dropped then. -/
def unload (s : Scope V) (h : Host) : Except LoadError Unit × Host :=
  let (result, left, h) := s.release h
  (result, left.drop h)

/-- The value of a scope's expression. -/
def extract (s : Scope V) : Except EvalError V :=
  match s.library with
  | some library => library.extract
  | none => .error (.extraction (.missingContainer Container.name))

/-- Whether a scope's image exports a symbol. -/
def exports (s : Scope V) (symbol : String) : Bool :=
  match s.library with
  | some library => library.exports symbol
  | none => false

end Scope

end ExprHost
