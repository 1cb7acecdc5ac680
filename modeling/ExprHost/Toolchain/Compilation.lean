import ExprHost.Diagnostic.Stream
import ExprHost.Error
import ExprHost.Host.State
import ExprHost.Image
import ExprHost.Request

/-!
# Compilations

What a toolchain makes of a request, and what an evaluation takes from that.

* `Compilation.ofReply`: the compilation that a compiler's reply amounts to.
* `Compilation.outcome`: its image, or why there is none.
-/

namespace ExprHost

/-- The result of a compilation that took place. -/
structure Compilation where
  success : Bool
  /-- In the order in which the compiler gave them. -/
  diagnostics : List Diagnostic
  image : Option Image
deriving Inhabited

namespace Compilation

/-- The first diagnostic that is an error. -/
def firstError? (c : Compilation) : Option Diagnostic := c.diagnostics.find? (·.isError)

/-- **The image of a compilation.** A failure is the caller's if the compiler found an
error, and of all its diagnostics only the first error is reported. -/
def outcome (c : Compilation) : Except EvalError Image :=
  if c.success then
    match c.image with
    | some image => .ok image
    | none => .error .missingImage
  else
    match c.firstError? with
    | some d => .error (.invalidExpression d.message)
    | none =>
      .error (.toolchain (.unexpectedOutput "compilation failed without an error diagnostic"))

/-- **The compilation that a reply amounts to,** with the library found afterwards. An
unsuccessful exit counts as a failed compilation only if some diagnostic is an error. -/
def ofReply (reply : Reply) (library : Except OsError Bytes) (references : References) :
    Except ToolchainError Compilation :=
  let diagnostics := Diagnostic.ofBytes reply.stderr
  if reply.status.isSuccess then
    match library with
    | .ok bytes => .ok ⟨true, diagnostics, some ⟨bytes, references.dynamicNames⟩⟩
    | .error .notFound => .ok ⟨true, diagnostics, none⟩
    | .error e => .error (.io e.text)
  else if diagnostics.any (·.isError) then .ok ⟨false, diagnostics, none⟩
  else .error (.failed reply.status (String.ofList (Utf8.lossy reply.stderr)))

end Compilation

/-- A compiler as evaluators see it. -/
structure Toolchain where
  compile : Request → Host → Except ToolchainError Compilation × Host
  /-- The directory that holds the compiler's own libraries. -/
  libraryDir : Host → Except ToolchainError Path × Host

end ExprHost
