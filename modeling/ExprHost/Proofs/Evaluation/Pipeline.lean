import ExprHost.Evaluator
import ExprHost.Proofs.Scope.Loading
import ExprHost.Proofs.Toolchain.Start

/-!
# The pipeline of an evaluation

The layers of an evaluation put together: the compiler is started, its reply is a verdict
on the expression or leads to an image, and the image is loaded and asked for its value.

* `Reply.failure`: the compilation that an unsuccessful reply stands for.
* `Evaluator.verdict`: what an evaluation makes of a reply.
* `Evaluator.compiled_eq`: what the compiler has done to the host.
* `Evaluator.evaluate_eq`: **an evaluation is a start and a verdict.**
* `Evaluator.fst_valueOf`: **what an image comes to.**
* `Evaluator.restored_evaluate`: **what an evaluation leaves behind.**
-/

namespace ExprHost

/-- The compilation that an unsuccessful reply stands for. -/
def Reply.failure (reply : Reply) : Compilation := ⟨false, Diagnostic.ofBytes reply.stderr, none⟩

/-- A reply without success is a compilation exactly when it has an error to show. -/
theorem Compilation.ofReply_failure {reply : Reply} (hfail : reply.status.isSuccess = false)
    (library : Except OsError Bytes) (refs : References) :
    ofReply reply library refs =
      if reply.failure.firstError?.isSome then .ok reply.failure
      else .error (.failed reply.status (String.ofList (Utf8.lossy reply.stderr))) := by
  have hany : reply.failure.firstError?.isSome =
      (Diagnostic.ofBytes reply.stderr).any (·.isError) := by
    rw [Bool.eq_iff_iff, firstError?, List.find?_isSome, List.any_eq_true]
    rfl
  simp only [ofReply, hfail, hany, Bool.false_eq_true, if_false]
  rfl

theorem Compilation.ofReply_success {reply : Reply} (hok : reply.status.isSuccess = true)
    (library : Except OsError Bytes) (refs : References) :
    ofReply reply library refs = match library with
      | .ok bytes => .ok ⟨true, Diagnostic.ofBytes reply.stderr, some ⟨bytes, refs.dynamicNames⟩⟩
      | .error .notFound => .ok ⟨true, Diagnostic.ofBytes reply.stderr, none⟩
      | .error e => .error (.io e.text) := by
  cases library with
  | ok bytes => simp only [ofReply, hok, if_true]
  | error e => cases e <;> simp only [ofReply, hok, if_true]

/-- The errors that an image can lead to: all but those of closing it. -/
def EvalError.OfImage : EvalError → Prop
  | .load (.cannotClose _) => False
  | .load _ | .extraction _ | .panicked _ => True
  | _ => False

namespace Evaluator

variable {V : Type}

/-- What an evaluation makes of a reply of the compiler, which was to leave a library under
a path. -/
def verdict (ev : Evaluator) (linker : Linker V) (library : Path) (reply : Reply) (h : Host) :
    Except EvalError V × Host :=
  if reply.status.isSuccess then
    match Host.libraryLeft library reply.artifact with
    | .ok bytes => ev.valueOf linker ⟨bytes, ev.references.dynamicNames⟩ h
    | .error .notFound => (.error .missingImage, h)
    | .error e => (.error (.toolchain (.io e.text)), h)
  else
    match reply.failure.firstError? with
    | some d => (.error (.invalidExpression d.message), h)
    | none =>
      (.error (.toolchain (.failed reply.status (String.ofList (Utf8.lossy reply.stderr)))), h)

/-- What the compiler is given for an expression, and where it is to leave the library. -/
def start (ev : Evaluator) (s : Settings) (t : HostType) (expression : String) (h : Host) :
    Except ToolchainError (Launch × Path) :=
  s.start (ev.request t expression h).1 (ev.request t expression h).2

/-- The host as it is when the compiler is done with an expression. -/
def compiled (ev : Evaluator) (s : Settings) (program : Program) (t : HostType)
    (expression : String) (h : Host) : Host :=
  (s.compile program (ev.request t expression h).1 (ev.request t expression h).2).2

/-- The number of a request plays no part in where its scratch directory goes. -/
theorem parentMade_request (ev : Evaluator) (t : HostType) (expression : String) (h : Host)
    (parent : Option Path) :
    (ev.request t expression h).2.parentMade parent = h.parentMade parent := by
  cases parent <;> rfl

/-- Nor does it in whether there is one. -/
theorem fst_makeScratch_request (ev : Evaluator) (t : HostType) (expression : String) (h : Host)
    (parent : Option Path) :
    ((ev.request t expression h).2.makeScratch parent).1 = (h.makeScratch parent).1 := by
  rw [Host.makeScratch_eq, Host.makeScratch_eq, parentMade_request]
  obtain ⟨result, tree⟩ := h.parentMade parent
  cases result with
  | error e => rfl
  | ok u =>
    have hrequest : (ev.request t expression h).2 = { h with nextUnit := h.nextUnit + 1 } := rfl
    simp only [hrequest, Host.scratchIn]
    cases tree.tempEntry h.temp h.workDir (parent.getD h.tempDir) .scratch <;> rfl

/-- **What the compiler has done to the host:** its launch is recorded, and of the files there is no
more than the way to the scratch directory, once that is removed. -/
theorem compiled_eq (ev : Evaluator) (s : Settings) (program : Program) (t : HostType)
    (expression : String) (h : Host) : ∃ tree, ev.compiled s program t expression h =
        Settings.recorded { (ev.request t expression h).2 with tree } (ev.start s t expression h) ∧
      (h.temp.Removes → tree = (h.parentMade s.scratchDir).2) := by
  obtain ⟨tree, hcompile, htree⟩ := Settings.compile_eq s program (ev.request t expression h).1
    (ev.request t expression h).2
  rw [parentMade_request] at htree
  exact ⟨tree, congrArg Prod.snd hcompile, htree⟩

theorem compiled_of_removes {ev : Evaluator} {s : Settings} {program : Program} {t : HostType}
    {expression : String} {h : Host} (hremoves : h.temp.Removes) :
    ev.compiled s program t expression h = Settings.recorded
      { (ev.request t expression h).2 with tree := (h.parentMade s.scratchDir).2 }
      (ev.start s t expression h) := by
  obtain ⟨tree, hcompiled, htree⟩ := ev.compiled_eq s program t expression h
  rw [hcompiled, htree hremoves]

/-- What is made beside the scratch directory once that is removed goes where it would have gone
before it was made. -/
theorem tempEntry_compiled (ev : Evaluator) (s : Settings) (program : Program) (t : HostType)
    (expression : String) {h : Host} (hremoves : h.temp.Removes) (dir : Option Path)
    (kind : TempKind) :
    let after := ev.compiled s program t expression h
    after.tree.tempEntry after.temp after.workDir (dir.getD after.tempDir) kind =
      (h.parentMade s.scratchDir).2.tempEntry h.temp h.workDir (dir.getD h.tempDir) kind := by
  intro after
  rw [show after = _ from compiled_of_removes hremoves]
  cases ev.start s t expression h <;> rfl

/-- **There is a place for the image of a library that could be left,** if images go where scratch
directories go. -/
theorem exists_place_of_start {ev : Evaluator} {s : Settings} {t : HostType} {expression : String}
    {h : Host} (hstaging : ev.stagingDir = s.scratchDir) {l : Launch} {library : Path}
    (hstart : ev.start s t expression h = .ok (l, library))
    (hcheck : FileTree.checkPath library = .ok ())
    (hfinds : h.temp.Finds (h.parentMade s.scratchDir).2) :
    ∃ found, (h.parentMade s.scratchDir).2.tempEntry h.temp h.workDir
      (ev.stagingDir.getD h.tempDir) .image = .ok found := by
  rw [← ev.parentMade_request t expression h] at hfinds ⊢
  rw [hstaging]
  exact Settings.exists_imagePlace_of_start hstart hcheck hfinds

/-- Of what a compiler does only what it leaves counts for the host. -/
theorem compiled_congr {ev : Evaluator} {s : Settings} {program program' : Program} {t : HostType}
    {expression : String} {h : Host}
    (hleft : ∀ l p, ev.start s t expression h = .ok (l, p) →
      (program' l).artifact = (program l).artifact) :
    ev.compiled s program' t expression h = ev.compiled s program t expression h :=
  Settings.snd_compile_congr hleft

/-- What the layers above the compiler make of its reply is the verdict on it. -/
theorem verdict_eq (ev : Evaluator) (linker : Linker V) (library : Path) (reply : Reply)
    (h : Host) : ev.verdict linker library reply h =
      match Compilation.ofReply reply (Host.libraryLeft library reply.artifact) ev.references with
      | .error e => (.error (.toolchain e), h)
      | .ok compilation =>
        match compilation.outcome with
        | .error e => (.error e, h)
        | .ok image => ev.valueOf linker image h := by
  unfold verdict
  cases hstatus : reply.status.isSuccess with
  | true =>
    rw [if_pos rfl, Compilation.ofReply_success hstatus]
    cases Host.libraryLeft library reply.artifact with
    | ok bytes => rfl
    | error e => cases e <;> rfl
  | false =>
    rw [if_neg Bool.false_ne_true, Compilation.ofReply_failure hstatus]
    cases hfirst : reply.failure.firstError? with
    | none => rfl
    | some d =>
      have hout : reply.failure.outcome = .error (.invalidExpression d.message) := by
        unfold Compilation.outcome
        rw [hfirst]
        rfl
      simp only [Option.isSome_some, if_true, hout]

/-- **An evaluation is a start and a verdict.** -/
theorem evaluate_eq (ev : Evaluator) (s : Settings) (program : Program) (linker : Linker V)
    (t : HostType) (expression : String) (h : Host) :
    ev.evaluate (s.toolchain program) linker t expression h =
      match ev.start s t expression h with
      | .error e => (.error (.toolchain e), ev.compiled s program t expression h)
      | .ok (l, library) =>
        ev.verdict linker library (program l) (ev.compiled s program t expression h) := by
  obtain ⟨tree, hcompile, -⟩ := Settings.compile_eq s program (ev.request t expression h).1
    (ev.request t expression h).2
  unfold evaluate Settings.toolchain compiled start
  simp only
  rw [hcompile]
  cases s.start (ev.request t expression h).1 (ev.request t expression h).2 with
  | error e => rfl
  | ok started =>
    simp only [verdict_eq, Settings.replied]
    have hrefs : (ev.request t expression h).1.references = ev.references := rfl
    rw [hrefs]
    cases Compilation.ofReply (program started.1)
        (Host.libraryLeft started.2 (program started.1).artifact) ev.references with
    | error e => rfl
    | ok compilation => cases compilation.outcome <;> rfl

/-- What a call comes to if the compiler cannot be started. -/
theorem evaluate_of_start_error {ev : Evaluator} {s : Settings} {t : HostType} {expression : String}
    {h : Host} {e : ToolchainError} (hstart : ev.start s t expression h = .error e)
    (program : Program) (linker : Linker V) :
    (ev.evaluate (s.toolchain program) linker t expression h).1 = .error (.toolchain e) := by
  rw [evaluate_eq, hstart]

/-- What a call comes to once the compiler has been started. -/
theorem evaluate_of_start {ev : Evaluator} {s : Settings} {t : HostType} {expression : String}
    {h : Host} {l : Launch} {library : Path} (hstart : ev.start s t expression h = .ok (l, library))
    (program : Program) (linker : Linker V) :
    ev.evaluate (s.toolchain program) linker t expression h =
      ev.verdict linker library (program l) (ev.compiled s program t expression h) := by
  rw [evaluate_eq, hstart]

/-! ## What follows the compiler -/

/-- The errors of a library are of those that images lead to. -/
theorem ofImage_of_extract {library : Library V} {e : EvalError}
    (he : library.extract = .error e) : e.OfImage := by
  unfold Library.extract at he
  split at he
  · cases he
    trivial
  · split at he
    · cases he
      trivial
    · split at he
      · cases he
        trivial
      · cases he
      · cases he
        trivial

/-- No value is asked for while an image is being loaded. -/
theorem extract_ne_load (library : Library V) (e : LoadError) :
    library.extract ≠ .error (.load e) := by
  intro hload
  unfold Library.extract at hload
  repeat' split at hload
  all_goals cases hload

/-- **What an image comes to.** A dependency is refused, whatever it is; the image is staged if
there is a place for it, and linked. -/
theorem fst_valueOf (ev : Evaluator) (linker : Linker V) (image : Image) (h : Host) :
    (ev.valueOf linker image h).1 = match image.dependencies with
      | name :: _ => .error (.load (.unresolvedDependency name))
      | [] =>
        match h.tree.tempEntry h.temp h.workDir (ev.stagingDir.getD h.tempDir) .image with
        | .error words => .error (.load (.cannotStage words))
        | .ok _ =>
          match linker image.bytes with
          | .error os => .error (.load (.cannotOpen os))
          | .ok library => library.extract := by
  obtain ⟨bytes, dependencies⟩ := image
  unfold valueOf Scope.load Host.stage
  cases dependencies with
  | cons name rest => rfl
  | nil =>
    simp only [Scope.openDependencies]
    cases h.tree.tempEntry h.temp h.workDir (ev.stagingDir.getD h.tempDir) .image with
    | error words => rfl
    | ok found =>
      simp only [bind, Except.bind, pure, Except.pure]
      cases linker bytes <;> rfl

/-- What an image does to the host: it leaves it as it was; and its errors are its own. -/
theorem valueOf_cases (ev : Evaluator) (linker : Linker V) (image : Image) (h : Host) :
    h.Restored (ev.valueOf linker image h).2 ∧
      ∀ e, (ev.valueOf linker image h).1 = .error e → e.OfImage := by
  unfold valueOf
  rcases Scope.load_cases linker unresolvable ev.stagingDir image h with
    ⟨e, h', hload, he, hrestored⟩ | ⟨library, loc, -, hload, herase⟩
  · rw [hload]
    refine ⟨hrestored, ?_⟩
    rintro e' h'
    cases h'
    cases e with
    | cannotClose os => exact he.elim
    | unresolvedDependency name => trivial
    | cannotStage os => trivial
    | cannotOpen os => trivial
  · rw [hload]
    exact ⟨Scope.restored_unload library herase, fun e he => ofImage_of_extract he⟩

/-- **Nothing counts after the toolchain:** whatever becomes of a compilation, the host stays
as the toolchain left it. -/
theorem restored_evaluate (ev : Evaluator) (toolchain : Toolchain) (linker : Linker V)
    (t : HostType) (expression : String) (h : Host) :
    Host.Restored
      (toolchain.compile (ev.request t expression h).1 (ev.request t expression h).2).2
      (ev.evaluate toolchain linker t expression h).2 := by
  unfold evaluate
  simp only
  obtain ⟨result, after⟩ :=
    toolchain.compile (ev.request t expression h).1 (ev.request t expression h).2
  cases result with
  | error e => exact .refl after
  | ok compilation =>
    simp only
    cases compilation.outcome with
    | error e => exact .refl after
    | ok image => exact (ev.valueOf_cases linker image after).1

/-- **What an evaluation leaves behind:** the launch is recorded, and of the files there is no more
than the way to the scratch directory, if temporary entries are removed. -/
theorem snd_evaluate_eq (ev : Evaluator) (s : Settings) (program : Program) (linker : Linker V)
    (t : HostType) (expression : String) (h : Host) :
    ∃ tree, (ev.evaluate (s.toolchain program) linker t expression h).2 =
        Settings.recorded { (ev.request t expression h).2 with tree } (ev.start s t expression h) ∧
      (h.temp.Removes → tree = (h.parentMade s.scratchDir).2) := by
  have hrestored := ev.restored_evaluate (s.toolchain program) linker t expression h
  obtain ⟨tree, hcompiled, htree⟩ := ev.compiled_eq s program t expression h
  have hafter : ((s.toolchain program).compile (ev.request t expression h).1
      (ev.request t expression h).2).2 = _ := hcompiled
  rw [hafter] at hrestored
  obtain ⟨tree', hout, htree'⟩ := hrestored
  rw [Settings.temp_recorded, Settings.tree_recorded] at htree'
  exact ⟨tree', hout.trans (Settings.recorded_with_tree _ _ _),
    fun hremoves => (htree' hremoves).trans (htree hremoves)⟩

/-- What is left of an evaluation besides the record: the parent of the scratch directory. -/
theorem evaluate_surroundings (ev : Evaluator) (s : Settings) (program : Program)
    (linker : Linker V) (t : HostType) (expression : String) {h : Host} (hremoves : h.temp.Removes) :
    let after := (ev.evaluate (s.toolchain program) linker t expression h).2
    after.workDir = h.workDir ∧ after.tempDir = h.tempDir ∧ after.searchPath = h.searchPath ∧
      after.tree = (h.parentMade s.scratchDir).2 := by
  intro after
  obtain ⟨tree, hafter, htree⟩ := ev.snd_evaluate_eq s program linker t expression h
  rw [show after = _ from hafter, htree hremoves]
  cases ev.start s t expression h <;> exact ⟨rfl, rfl, rfl, rfl⟩

end Evaluator

end ExprHost
