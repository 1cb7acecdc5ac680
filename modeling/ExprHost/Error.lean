import ExprHost.Host.Status
import ExprHost.Source.Container

/-!
# Errors

What can go wrong in each phase of an evaluation, with its wording.

* `EvalError.message`: the words for any error.
* `EvalError.source?`: the words of the operating system's error behind one, if any.
-/

namespace ExprHost

/-- A crate that types refer to could not be found. -/
inductive ResolveError
  | unlocated (crate typeName : String)
  | foundational (crate detail : String)
deriving DecidableEq, Inhabited

/-- The compiler could not be driven. Texts of the operating system stand as given. -/
inductive ToolchainError
  | spawn (program os : String)
  | io (os : String)
  | failed (status : ExitStatus) (stderr : String)
  | unexpectedOutput (text : String)
deriving DecidableEq, Inhabited

/-- An image could not be loaded or unloaded. -/
inductive LoadError
  | unresolvedDependency (name : String)
  | cannotStage (os : String)
  | cannotOpen (os : String)
  | cannotClose (os : String)
deriving DecidableEq, Inhabited

/-- A loaded image does not export what it should. -/
inductive ExtractError
  | missingContainer (symbol : String)
  | missingField (symbol : String)
  | shapeMismatch (expected found : UInt32)
deriving DecidableEq, Inhabited

/-- An evaluation, or the construction of an evaluator, failed. -/
inductive EvalError
  | resolution (e : ResolveError)
  | invalidExpression (message : String)
  | toolchain (e : ToolchainError)
  | missingImage
  | load (e : LoadError)
  | extraction (e : ExtractError)
  | panicked (message : String)
deriving DecidableEq, Inhabited

/-- The words for a resolution error. -/
def ResolveError.message : ResolveError → String
  | unlocated crate typeName =>
    "module '" ++ crate ++ "' declaring '" ++ typeName ++ "' has no resolvable location"
  | foundational crate detail =>
    "foundational module '" ++ crate ++ "' could not be located: " ++ detail

/-- The words for a toolchain error. -/
def ToolchainError.message : ToolchainError → String
  | spawn program os => "failed to run '" ++ program ++ "': " ++ os
  | io os => "toolchain I/O failed: " ++ os
  | failed status stderr =>
    "compiler exited with " ++ status.text ++ " without diagnostics: " ++ stderr
  | unexpectedOutput text => "unexpected toolchain output: " ++ text

/-- The words of the operating system behind a toolchain error. -/
def ToolchainError.source? : ToolchainError → Option String
  | spawn _ os => some os
  | io os => some os
  | _ => none

/-- The words for a load error. -/
def LoadError.message : LoadError → String
  | unresolvedDependency name =>
    "dependency '" ++ name ++ "' cannot be resolved inside an isolated scope"
  | cannotStage os => "failed to stage binary image: " ++ os
  | cannotOpen os => "failed to load binary image: " ++ os
  | cannotClose os => "failed to unload binary image: " ++ os

/-- The words for an extraction error. -/
def ExtractError.message : ExtractError → String
  | missingContainer symbol => "synthetic container '" ++ symbol ++ "' not found"
  | missingField symbol => "synthetic field '" ++ symbol ++ "' not found"
  | shapeMismatch expected found =>
    "synthetic container has shape version " ++ toString found.toNat ++ ", expected " ++
      toString expected.toNat

namespace EvalError

/-- **The words for an error.** The errors of a phase speak for themselves. -/
def message : EvalError → String
  | resolution e => e.message
  | invalidExpression m => "invalid expression: " ++ m
  | toolchain e => e.message
  | missingImage => "compilation succeeded without producing a binary image"
  | load e => e.message
  | extraction e => e.message
  | panicked m => "expression panicked: " ++ m

/-- The words of the operating system's error behind an error. -/
def source? : EvalError → Option String
  | toolchain e => e.source?
  | _ => none

/-- Whether the caller's expression did not compile. -/
def isInvalidExpression : EvalError → Bool
  | invalidExpression _ => true
  | _ => false

/-- Whether a crate could not be found. -/
def isResolution : EvalError → Bool
  | resolution _ => true
  | _ => false

/-- Whether the error is a defect of source synthesis. -/
def isInternal : EvalError → Bool
  | missingImage => true
  | extraction _ => true
  | _ => false

end EvalError

end ExprHost
