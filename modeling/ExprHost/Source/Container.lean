/-!
# The synthetic container

What every compiled unit exports, and under which names: a version number, and an
accessor that evaluates the expression.
-/

namespace ExprHost.Container

/-- The name of the container and of the symbol that holds its version. -/
def name : String := "__ExprboxContainer"

/-- The name of the field that holds the expression. -/
def field : String := "VALUE"

/-- The version of the shape that units have and readers expect. -/
def version : UInt32 := 1

/-- The symbol of the accessor. -/
def accessor : String := name ++ "__" ++ field

/-- What an expression gave when it panicked. -/
inductive Payload
  | ownedText (s : String)
  | staticText (s : String)
  | other
deriving DecidableEq, Inhabited

/-- The text for a payload that is not text. -/
def otherPayload : String := "non-string panic payload"

/-- What the accessor reports of a panic. -/
def Payload.message : Payload → String
  | .ownedText s => s
  | .staticText s => s
  | .other => otherPayload

end ExprHost.Container
