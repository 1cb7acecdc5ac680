import ExprHost.Text.Lines

/-!
# The preamble

The imports at the head of every source unit: the baseline namespaces, then those of
the caller in the order given, each imported whole.
-/

namespace ExprHost

/-- The namespaces imported by every unit. -/
def Preamble.baseline : List String := ["std::collections", "std::convert", "std::iter"]

/-- The imports of a source unit. -/
structure Preamble where
  namespaces : List String
deriving DecidableEq, Inhabited

namespace Preamble

/-- A namespace without a `::*` at its end. Only one is dropped. -/
def dropGlob (ns : String) : String :=
  match Text.dropEnd? "::*".toList ns.toList with
  | some front => String.ofList front
  | none => ns

/-- The imports for the namespaces of a caller. Repeated ones are kept. -/
def ofUsings (usings : List String) : Preamble := ⟨baseline ++ usings.map dropGlob⟩

/-- The line that imports a namespace. -/
def useLine (ns : String) : String := "use " ++ ns ++ "::*;\n"

/-- The imports as source text. -/
def text (p : Preamble) : String :=
  "#![allow(unused_imports)]\n" ++ Text.join "" (p.namespaces.map useLine)

end Preamble

end ExprHost
