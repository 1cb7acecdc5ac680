import ExprHost.Diagnostic.Basic
import ExprHost.Json.Value
import ExprHost.Text.Lines
import ExprHost.Text.Utf8

/-!
# The diagnostic stream

The compiler writes one JSON object a line. A line that is anything else, or that
lacks what a message has, says nothing.

* `Diagnostic.ofLine?`: the diagnostic of a line.
* `Diagnostic.ofText`, `Diagnostic.ofBytes`: the diagnostics of a whole stream, in order.
-/

namespace ExprHost

/-- A member of an object under its decoded key. -/
abbrev Member := List Char × Json

namespace Diagnostic

/-- The members of an object under their decoded keys, if all keys can be decoded. -/
def decodeKeys? : List (List Json.Piece × Json) → Option (List Member)
  | [] => some []
  | (key, v) :: rest => do
    let key ← Json.Piece.text? key
    let rest ← decodeKeys? rest
    return (key, v) :: rest

/-- The values under a key. -/
def valuesAt (key : String) (members : List Member) : List Json :=
  members.filterMap fun m => if m.1 = key.toList then some m.2 else none

/-- The text of a member that has to be there, once. -/
def requiredText? (key : String) (members : List Member) : Option String :=
  match valuesAt key members with
  | [.string pieces] => (Json.Piece.text? pieces).map String.ofList
  | _ => none

/-- The text of a member that may be missing or null, but not there twice. -/
def optionalText? (key : String) (members : List Member) : Option (Option String) :=
  match valuesAt key members with
  | [] => some none
  | [.null] => some none
  | [.string pieces] => (Json.Piece.text? pieces).map fun cs => some (String.ofList cs)
  | _ => none

/-- The diagnostic that the members of an object describe. Objects marked as messages
of another kind are none. -/
def ofMembers? (members : List Member) : Option Diagnostic := do
  let kind ← optionalText? "$message_type" members
  let message ← requiredText? "message" members
  let level ← requiredText? "level" members
  let rendered ← optionalText? "rendered" members
  if kind = none ∨ kind = some "diagnostic" then
    some { severity := .ofLevel level, message, rendered }
  else none

/-- The diagnostic of a line. The object has to begin the line. -/
def ofLine? (line : List Char) : Option Diagnostic :=
  match line with
  | '\x7b' :: _ =>
    match Json.parse? line with
    | some (.object members) => (decodeKeys? members).bind ofMembers?
    | _ => none
  | _ => none

/-- The diagnostics of a text, in order. -/
def ofText (text : List Char) : List Diagnostic := (Text.lines text).filterMap ofLine?

/-- **The diagnostics of a byte stream,** malformed UTF-8 replaced. -/
def ofBytes (stream : Bytes) : List Diagnostic := ofText (Utf8.lossy stream)

end Diagnostic

end ExprHost
