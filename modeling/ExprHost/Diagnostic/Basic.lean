/-!
# Compiler diagnostics

What the compiler says about a unit.
-/

namespace ExprHost

/-- How grave a diagnostic is. -/
inductive Severity
  | error
  | warning
  | note
  | help
deriving DecidableEq, Inhabited

/-- The severity of a level. Internal compiler errors are errors, and levels that
are not known are notes. -/
def Severity.ofLevel (level : String) : Severity :=
  if level = "error" ∨ level = "error: internal compiler error" then .error
  else if level = "warning" then .warning
  else if level = "help" then .help
  else .note

/-- One message of the compiler. -/
structure Diagnostic where
  severity : Severity
  message : String
  /-- The message as a terminal would show it, if the compiler gave that. -/
  rendered : Option String
deriving DecidableEq, Inhabited

/-- Whether the diagnostic is an error. -/
def Diagnostic.isError (d : Diagnostic) : Bool := d.severity = .error

end ExprHost
