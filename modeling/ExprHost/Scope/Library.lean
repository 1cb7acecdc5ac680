import ExprHost.Error
import ExprHost.Text.Lines
import ExprHost.Text.Utf8

/-!
# Loaded libraries

What the platform's loader gives for the bytes of a library, as far as an evaluation
looks at it, and the value taken from it.

* `Library.extract`: the value that the accessor gives.
-/

namespace ExprHost

/-- What a loaded library exports under the two synthetic names, and what closing it
comes to. The accessor gives a value, or what the expression panicked with. -/
structure Library (V : Type) where
  version : Option UInt32
  accessor : Option (Except Container.Payload V)
  closing : Except String Unit

/-- The platform's loader: a library, or the platform's words for the failure. -/
abbrev Linker (V : Type) := Bytes → Except String (Library V)

namespace Library

variable {V : Type}

/-- Whether a library exports a name. -/
def exportsName (l : Library V) (name : String) : Bool :=
  (name = Container.name && l.version.isSome) ||
    (name = Container.accessor && l.accessor.isSome)

/-- Whether a library exports a symbol, whose name may come with the NUL that ends it. -/
def exports (l : Library V) (symbol : String) : Bool :=
  (Text.terminated? symbol).any l.exportsName

/-- **The value of a library's expression.** The container is looked up first, its
version checked, and only then the accessor called. -/
def extract (l : Library V) : Except EvalError V :=
  match l.version with
  | none => .error (.extraction (.missingContainer Container.name))
  | some found =>
    if found ≠ Container.version then
      .error (.extraction (.shapeMismatch Container.version found))
    else
      match l.accessor with
      | none => .error (.extraction (.missingField Container.accessor))
      | some (.ok v) => .ok v
      | some (.error p) => .error (.panicked p.message)

end Library

end ExprHost
