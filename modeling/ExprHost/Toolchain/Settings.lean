import ExprHost.Host.State
import ExprHost.Request

/-!
# Compiler settings

Which compiler is run, and how.

* `Settings.ofEnvironment`: the settings that the environment asks for.
* `Settings.command`: the command for a request.
-/

namespace ExprHost

/-- How much the compiler optimizes. -/
inductive OptLevel
  | o0 | o1 | o2 | o3
deriving DecidableEq, Inhabited

namespace OptLevel

/-- The level's number. -/
def number : OptLevel → Nat
  | o0 => 0
  | o1 => 1
  | o2 => 2
  | o3 => 3

/-- The level's name. -/
def text (l : OptLevel) : String := "O" ++ toString l.number

/-- The code generation option that asks for the level. -/
def flag (l : OptLevel) : String := "opt-level=" ++ toString l.number

end OptLevel

/-- Which compiler is run, and how. -/
structure Settings where
  program : Path
  optLevel : OptLevel
  edition : String
  /-- Given to the compiler after all else, in this order. -/
  extraArgs : List String
  /-- Where scratch directories and staged images go. -/
  scratchDir : Option Path
deriving Inhabited

namespace Settings

/-- The variable that names the compiler. -/
def programVariable : String := "EXPRBOX_RUSTC"

/-- The variable that names the compiler if the first is not set. -/
def fallbackVariable : String := "RUSTC"

/-- The compiler that is run if no variable names one. -/
def defaultProgram : String := "rustc"

/-- The default settings for a compiler. -/
def forProgram (program : Path) : Settings := ⟨program, .o0, "2021", [], none⟩

/-- The compiler named by the environment. The first variable that is set decides,
and if it is empty there is no name. -/
def programOf (env : String → Option String) : String :=
  match (env programVariable).or (env fallbackVariable) with
  | some name => if name = "" then defaultProgram else name
  | none => defaultProgram

/-- **The settings that the environment asks for.** -/
def ofEnvironment (env : String → Option String) : Settings := forProgram ⟨programOf env⟩

/-- A change of the settings. -/
inductive Change
  | optLevel (l : OptLevel)
  | edition (e : String)
  | extraArg (arg : String)
  | scratchDir (dir : Path)

/-- The settings after a change. Extra arguments add up; all else is replaced. -/
def change (s : Settings) : Change → Settings
  | .optLevel l => { s with optLevel := l }
  | .edition e => { s with edition := e }
  | .extraArg arg => { s with extraArgs := s.extraArgs ++ [arg] }
  | .scratchDir dir => { s with scratchDir := some dir }

/-- The settings after some changes, in order. -/
def changeAll (s : Settings) (changes : List Change) : Settings := changes.foldl change s

/-- The arguments that tell the compiler of a crate. -/
def crateArgs (c : LinkedCrate) : List String := ["--extern", c.name ++ "=" ++ c.path.text]

/-- The arguments that tell the compiler of a directory. -/
def dirArgs (dir : Path) : List String := ["-L", "dependency=" ++ dir.text]

/-- The arguments that do not depend on the references. -/
def fixedArgs (s : Settings) (r : Request) (outDir : Path) : List String :=
  ["--crate-type", Request.crateType, "--crate-name", r.crateName, "--edition", s.edition,
   "--error-format=json", "-C", s.optLevel.flag, "-C", "prefer-dynamic=no",
   "--out-dir", outDir.text]

/-- **The command for a request** whose source stands in a file. -/
def command (s : Settings) (r : Request) (source outDir : Path) : Command :=
  ⟨s.program, s.fixedArgs r outDir ++ r.references.explicit.flatMap crateArgs ++
    r.references.libraryDirs.flatMap dirArgs ++ s.extraArgs ++ [source.text]⟩

/-- The command that asks for the compiler's library directory. -/
def libraryDirCommand (s : Settings) : Command := ⟨s.program, ["--print", "target-libdir"]⟩

end Settings

end ExprHost
