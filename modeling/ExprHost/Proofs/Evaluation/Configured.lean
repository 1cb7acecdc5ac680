import ExprHost.Proofs.Evaluation.Classified
import Mathlib.Data.List.Basic
import Mathlib.Data.List.Induction

/-!
# How settings reach the compiler

Settings start from the environment and are changed step by step. Of the steps for one option the
last one counts, extra arguments add up, and steps for different options do not touch each other.
What comes of them is the program that is run, its arguments, and the directory that scratch
directories and staged images share.

* `Settings.changeAll_eq`: **what a sequence of changes comes to.**
* `Settings.changeAll_congr`: only the order among the changes of one option counts.
* `Settings.programOf_eq_firstNamed_iff`: **when the first name that the environment has decides.**
* `Settings.Runs`, `Settings.ran_iff_runs`: **when the compiler is run.**
* `Settings.compile_cases`: whether and where it is.
* `Settings.configured`: **what the compiler is run as, on what, and where.**
-/

namespace ExprHost

namespace Settings

/-! ## Changes -/

/-- The options that can be changed. -/
inductive Knob
  | optLevel | edition | extraArg | scratchDir
deriving DecidableEq

namespace Change

/-- The option that a change is for. -/
def knob : Change → Knob
  | .optLevel _ => .optLevel
  | .edition _ => .edition
  | .extraArg _ => .extraArg
  | .scratchDir _ => .scratchDir

/-- The level that a change asks for. -/
def optLevel? : Change → Option OptLevel
  | .optLevel l => some l
  | _ => none

/-- The edition that a change asks for. -/
def edition? : Change → Option String
  | .edition e => some e
  | _ => none

/-- The argument that a change adds. -/
def extraArg? : Change → Option String
  | .extraArg arg => some arg
  | _ => none

/-- The directory that a change asks for. -/
def scratchDir? : Change → Option Path
  | .scratchDir dir => some dir
  | _ => none

end Change

/-- **What a sequence of changes comes to:** the last level, edition and directory asked for, and
all arguments in order. -/
theorem changeAll_eq (s : Settings) (cs : List Change) : s.changeAll cs =
    { program := s.program
      optLevel := (cs.filterMap Change.optLevel?).getLast?.getD s.optLevel
      edition := (cs.filterMap Change.edition?).getLast?.getD s.edition
      extraArgs := s.extraArgs ++ cs.filterMap Change.extraArg?
      scratchDir := (cs.filterMap Change.scratchDir?).getLast?.or s.scratchDir } := by
  induction cs using List.reverseRecOn with
  | nil => simp [changeAll]
  | append_singleton cs c ih =>
    have hlast : s.changeAll (cs ++ [c]) = (s.changeAll cs).change c := by
      rw [changeAll, List.foldl_concat]
      rfl
    rw [hlast, ih]
    simp only [List.filterMap_append, List.getLast?_append]
    cases c <;> simp [change, Change.optLevel?, Change.edition?, Change.extraArg?, Change.scratchDir?]

/-- Changes of different options can be made in either order. -/
theorem change_comm {a b : Change} (hne : a.knob ≠ b.knob) (s : Settings) :
    (s.change a).change b = (s.change b).change a := by
  cases a <;> cases b <;> first | rfl | exact absurd rfl hne

theorem filterMap_filter_knob {α : Type} {f : Change → Option α} {k : Knob}
    (hf : ∀ c, c.knob ≠ k → f c = none) (cs : List Change) :
    (cs.filter (·.knob = k)).filterMap f = cs.filterMap f := by
  rw [List.filterMap_filter]
  congr 1
  funext c
  by_cases hc : c.knob = k
  · simp [hc]
  · simp [hc, hf c hc]

/-- **Only the order among the changes of one option counts.** -/
theorem changeAll_congr {cs cs' : List Change}
    (h : ∀ k, cs'.filter (·.knob = k) = cs.filter (·.knob = k)) (s : Settings) :
    s.changeAll cs' = s.changeAll cs := by
  have hall : ∀ {α : Type} {f : Change → Option α} (k : Knob), (∀ c, c.knob ≠ k → f c = none) →
      cs'.filterMap f = cs.filterMap f := by
    intro α f k hf
    rw [← filterMap_filter_knob hf cs', h k, filterMap_filter_knob hf cs]
  rw [changeAll_eq, changeAll_eq,
    hall .optLevel fun c hc => by cases c <;> first | rfl | exact absurd rfl hc,
    hall .edition fun c hc => by cases c <;> first | rfl | exact absurd rfl hc,
    hall .extraArg fun c hc => by cases c <;> first | rfl | exact absurd rfl hc,
    hall .scratchDir fun c hc => by cases c <;> first | rfl | exact absurd rfl hc]

/-! ## The program -/

/-- The first name that the environment has for the compiler, or the default one. -/
def firstNamed (env : String → Option String) : String :=
  (([programVariable, fallbackVariable].filterMap env).find? (· ≠ "")).getD defaultProgram

/-- The first variable is set, but empty, and the other names another compiler than the default. -/
def Hides (env : String → Option String) : Prop :=
  env programVariable = some "" ∧
    ∃ name, env fallbackVariable = some name ∧ name ≠ "" ∧ name ≠ defaultProgram

/-- **The first name that the environment has decides,** unless the first variable is set but
empty and hides the other; then it is the default one. -/
theorem programOf_eq_firstNamed_iff (env : String → Option String) :
    (programOf env = firstNamed env ↔ ¬ Hides env) ∧
      (Hides env → programOf env = defaultProgram) := by
  cases hfirst : env programVariable with
  | none =>
    have heq : programOf env = firstNamed env := by
      unfold programOf firstNamed
      cases hsecond : env fallbackVariable with
      | none => simp [hfirst, hsecond]
      | some name => by_cases hname : name = "" <;> simp [hfirst, hsecond, hname]
    simp [heq, Hides, hfirst]
  | some first =>
    by_cases hempty : first = ""
    · -- the other variable is not looked at
      subst hempty
      have hprogram : programOf env = defaultProgram := by simp [programOf, hfirst]
      refine ⟨?_, fun _ => hprogram⟩
      rw [hprogram]
      unfold firstNamed Hides
      cases hsecond : env fallbackVariable with
      | none => simp [hfirst, hsecond]
      | some name =>
        by_cases hname : name = ""
        · simp [hfirst, hsecond, hname]
        · simp [hfirst, hsecond, hname, eq_comm]
    · have hprogram : programOf env = first := by simp [programOf, hfirst, hempty]
      have hnamed : firstNamed env = first := by simp [firstNamed, hfirst, hempty]
      simp [hprogram, hnamed, Hides, hfirst, hempty]

/-! ## The run -/

/-- The compiler can be run for a request in a scratch directory: there is room for the source, the
program is found with the source in place, and all texts can be passed on. -/
structure RunsIn (s : Settings) (r : Request) (out : Path) (loc : Location) (h : Host) : Prop where
  room : FileTree.checkPath (out.join "lib.rs") = .ok ()
  found : (withSource h loc r).startable s.program = .ok ()
  program : '\x00' ∉ s.program.text.toList
  args : ∀ arg ∈ (s.command r (out.join "lib.rs") out).args, Host.Passable arg

/-- There is a scratch directory that the compiler can be run in. -/
def Runs (s : Settings) (r : Request) (h : Host) : Prop :=
  ∃ out loc h', h.makeScratch s.scratchDir = (.ok (out, loc), h') ∧ s.RunsIn r out loc h'

variable {s : Settings} {r : Request} {h : Host}

/-- What is launched where the compiler can be run, and only there. -/
theorem exists_start_iff_runs : (∃ started, s.start r h = .ok started) ↔ s.Runs r h := by
  constructor
  · rintro ⟨⟨l, p⟩, hstart⟩
    obtain ⟨out, loc, h', hmake, hroom, hl, -⟩ := start_eq_ok_iff.1 hstart
    obtain ⟨⟨hfound, hprogram, hargs⟩, -⟩ := Host.launched_eq_ok_iff.1 hl
    exact ⟨out, loc, h', hmake, hroom, hfound, hprogram, hargs⟩
  · rintro ⟨out, loc, h', hmake, hroom, hfound, hprogram, hargs⟩
    have hl := (Host.launched_eq_ok_iff (c := s.command r (out.join "lib.rs") out)).2
      ⟨⟨hfound, hprogram, hargs⟩, rfl⟩
    exact ⟨_, start_eq_ok_iff.2 ⟨out, loc, h', hmake, hroom, hl, rfl⟩⟩

/-- **When the compiler is run:** where it can be, whatever it does. -/
theorem ran_iff_runs (s : Settings) (program : Program) (r : Request) (h : Host) :
    (∃ l, h.RanOn (s.compile program r h).2 l) ↔ s.Runs r h := by
  rw [← exists_start_iff_runs]
  obtain ⟨tree, hcompile, -⟩ := s.compile_eq program r h
  rw [hcompile]
  cases s.start r h with
  | error e => exact iff_of_false (fun ⟨l, hl⟩ => Host.not_ranOn_of_launches rfl l hl) (by simp)
  | ok started => exact iff_of_true ⟨started.1, rfl⟩ ⟨started, rfl⟩

/-- **The two ways a compilation can go:** the operating system has a reason why the compiler is not
run, or it is run on the command for the request, in a new directory of the one that the settings
ask for. -/
theorem compile_cases (s : Settings) (program : Program) (r : Request) (h : Host) :
    (∃ e, (s.compile program r h).1 = .error e ∧ e.source?.isSome = true ∧
      ∀ l, ¬ h.RanOn (s.compile program r h).2 l) ∨
    ∃ parent name, (h.parentMade s.scratchDir).2.find h.workDir
        (h.workDir.absolute (s.scratchDir.getD h.tempDir)) = .ok (parent, .directory) ∧
      let out := (h.workDir.absolute (s.scratchDir.getD h.tempDir)).join name
      ∃ l, h.RanOn (s.compile program r h).2 l ∧
        l.args = (s.command r (out.join "lib.rs") out).args := by
  obtain ⟨tree, hcompile, -⟩ := s.compile_eq program r h
  rw [hcompile]
  cases hstart : s.start r h with
  | error e =>
    exact Or.inl ⟨e, rfl, source?_of_start_eq_error hstart, Host.not_ranOn_of_launches rfl⟩
  | ok started =>
    obtain ⟨l, p⟩ := started
    obtain ⟨out, loc, h', hmake, -, hl, -⟩ := start_eq_ok_iff.1 hstart
    obtain ⟨-, hentry, -⟩ := Host.makeScratch_eq_ok_iff.1 hmake
    obtain ⟨parent, drawn, hfind, -, rfl, -⟩ := FileTree.tempEntry_eq_ok_iff.1 hentry
    exact Or.inr ⟨parent, _, hfind, l, rfl, Host.args_of_launched hl⟩

/-- The settings that the environment asks for, after some changes. -/
theorem changeAll_ofEnvironment (env : String → Option String) (cs : List Change) :
    (ofEnvironment env).changeAll cs =
      { program := ⟨programOf env⟩
        optLevel := (cs.filterMap Change.optLevel?).getLast?.getD .o0
        edition := (cs.filterMap Change.edition?).getLast?.getD "2021"
        extraArgs := cs.filterMap Change.extraArg?
        scratchDir := (cs.filterMap Change.scratchDir?).getLast? } := by
  rw [changeAll_eq]
  simp [ofEnvironment, forProgram]

/-- **How settings reach the compiler.** It is run under the name that the environment has for it,
which is the first one there is unless an empty variable hides it, and exactly where it can be. It
is given the last edition and level asked for, and before the source all extra arguments in order.
The last directory asked for is where its scratch directory is made, and where images are staged.
Only the order among the changes of one option counts in all this. -/
theorem configured (env : String → Option String) (cs : List Change) :
    let s := (ofEnvironment env).changeAll cs
    let level := (cs.filterMap Change.optLevel?).getLast?.getD .o0
    let edition := (cs.filterMap Change.edition?).getLast?.getD "2021"
    let extraArgs := cs.filterMap Change.extraArg?
    let scratchDir := (cs.filterMap Change.scratchDir?).getLast?
    -- the program
    (programOf env = firstNamed env ↔ ¬ Hides env) ∧
    (Hides env → programOf env = defaultProgram) ∧
    s.libraryDirCommand.program = ⟨programOf env⟩ ∧
    -- the command
    (∀ (r : Request) (source out : Path), s.command r source out = ⟨⟨programOf env⟩,
      ["--crate-type", Request.crateType, "--crate-name", r.crateName, "--edition", edition,
        "--error-format=json", "-C", level.flag, "-C", "prefer-dynamic=no",
        "--out-dir", out.text] ++
      r.references.explicit.flatMap crateArgs ++ r.references.libraryDirs.flatMap dirArgs ++
      extraArgs ++ [source.text]⟩) ∧
    -- the run
    (∀ (program : Program) (r : Request) (h : Host),
      (∃ e, (s.compile program r h).1 = .error e ∧ e.source?.isSome = true ∧
        ∀ l, ¬ h.RanOn (s.compile program r h).2 l) ∨
      ∃ parent name, (h.parentMade scratchDir).2.find h.workDir
          (h.workDir.absolute (scratchDir.getD h.tempDir)) = .ok (parent, .directory) ∧
        let out := (h.workDir.absolute (scratchDir.getD h.tempDir)).join name
        ∃ l, h.RanOn (s.compile program r h).2 l ∧
          l.args = (s.command r (out.join "lib.rs") out).args) ∧
    (∀ (program : Program) (r : Request) (h : Host), (∃ l, h.RanOn (s.compile program r h).2 l) ↔
      ∃ out loc h', h.makeScratch scratchDir = (.ok (out, loc), h') ∧
        FileTree.checkPath (out.join "lib.rs") = .ok () ∧
        (withSource h' loc r).startable ⟨programOf env⟩ = .ok () ∧
        '\x00' ∉ (programOf env).toList ∧
        ∀ arg ∈ (s.command r (out.join "lib.rs") out).args, Host.Passable arg) ∧
    -- where images go
    (∀ (types : List TypeDesc) (usings : List String) (program : Program)
      (cache : FoundationCache) (h₀ : Host) (ev : Evaluator),
      (Evaluator.withSettings types usings s program cache h₀).1 = .ok ev →
        ∀ {V : Type} (linker : Linker V) (image : Image) (h h' : Host) (scope : Scope V),
          Scope.load linker unresolvable ev.stagingDir image h = (.ok scope, h') →
            ∃ parent name, h.tree.find h.workDir
                (h.workDir.absolute (scratchDir.getD h.tempDir)) = .ok (parent, .directory) ∧
              scope.staged = parent ++ [name]) ∧
    -- the order of the changes
    (∀ cs', (∀ k, cs'.filter (·.knob = k) = cs.filter (·.knob = k)) →
      (ofEnvironment env).changeAll cs' = s) ∧
    ∀ a b : Change, a.knob ≠ b.knob → (s.change a).change b = (s.change b).change a := by
  intro s level edition extraArgs scratchDir
  have hs : s = ⟨⟨programOf env⟩, level, edition, extraArgs, scratchDir⟩ :=
    changeAll_ofEnvironment env cs
  obtain ⟨hnamed, hhidden⟩ := programOf_eq_firstNamed_iff env
  refine ⟨hnamed, hhidden, by rw [hs]; rfl, fun r source out => by rw [hs]; rfl, ?_, ?_, ?_,
    fun cs' h => changeAll_congr h _, fun a b hne => change_comm hne s⟩
  · intro program r h
    rw [hs]
    exact compile_cases _ program r h
  · intro program r h
    rw [ran_iff_runs, Runs, hs]
    constructor
    · rintro ⟨out, loc, h', hmake, hroom, hfound, hprogram, hargs⟩
      exact ⟨out, loc, h', hmake, hroom, hfound, hprogram, hargs⟩
    · rintro ⟨out, loc, h', hmake, hroom, hfound, hprogram, hargs⟩
      exact ⟨out, loc, h', hmake, hroom, hfound, hprogram, hargs⟩
  · intro types usings program cache h₀ ev hev V linker image h h' scope hload
    have hstaging := Evaluator.stagingDir_of_withSettings hev
    rw [hs] at hstaging
    rw [hstaging] at hload
    exact Scope.staged_of_load hload

/-- Where no variable names a compiler, the default one is found in the directories that programs
are searched for in, and run. -/
theorem configured_unset :
    let s := (ofEnvironment fun _ => none).changeAll []
    let request := Evaluator.bare.request (.atom .i64) "1" (Evaluator.deepHost 1 0 [])
    (s.command request.1 ⟨"lib.rs"⟩ ⟨"out"⟩).program = ⟨"rustc"⟩ ∧
      ∃ l, request.2.RanOn (s.compile Evaluator.idle request.1 request.2).2 l := by
  intro s request
  obtain ⟨-, -, -, hcommand, -, hrun, -⟩ := configured (fun _ => none) []
  refine ⟨by rw [hcommand]; rfl, (hrun _ _ _).2 ?_⟩
  obtain ⟨l, hstart⟩ := Evaluator.exists_start_deepHost 0 [] (by decide) (by decide : 1 + 22 ≤ _)
    Evaluator.passesOn_bare "1"
  obtain ⟨out, loc, h', hmake, hruns⟩ := exists_start_iff_runs.1 ⟨_, hstart⟩
  exact ⟨out, loc, h', hmake, hruns.room, hruns.found, hruns.program, hruns.args⟩

/-- **An empty variable hides the other one:** the environment names a compiler, and another one
is run. -/
theorem programOf_ne_firstNamed :
    let env : String → Option String := fun v => if v = "EXPRBOX_RUSTC" then some ""
      else if v = "RUSTC" then some "/b" else none
    firstNamed env = "/b" ∧
      ∀ r source out, ((ofEnvironment env).command r source out).program = ⟨"rustc"⟩ := by
  intro env
  refine ⟨by decide +kernel, fun r source out => ?_⟩
  have hprogram : programOf env = "rustc" := by decide +kernel
  rw [← hprogram]
  rfl

end Settings

end ExprHost
