import ExprHost.Proofs.Evaluation.Stock

/-!
# How evaluations are classified

Each behaviour of the compiler leads to one kind of result: a failure that shows an error
is the caller's, one that shows none is the compiler's, and after a success only what was
left under the library's path counts.

* `Host.RanOn`: the compiler has run, and what it was given.
* `Evaluator.evaluate_cases`: **the two ways an evaluation can go.**
* `Evaluator.evaluate_classified`: **which result follows from which behaviour.**
* `Evaluator.fst_evaluate_deepHost`: what comes of a compiler that leaves nothing.
* `Evaluator.evaluate_longPath`: no library, and yet no missing image.
-/

namespace ExprHost

/-- The compiler has run once between two states of the host, on a launch. -/
def Host.RanOn (h h' : Host) (l : Launch) : Prop := h'.launches = h.launches ++ [l]

/-- The number of kinds, among those an error can be asked for, that it is of. -/
def EvalError.kinds (e : EvalError) : Nat :=
  [e.isInvalidExpression, e.isResolution, e.isInternal].count true

theorem EvalError.kinds_le_one (e : EvalError) : e.kinds ≤ 1 := by
  cases e <;> simp [kinds, isInvalidExpression, isResolution, isInternal]

/-- The errors of an evaluation that an external compiler serves: none of resolution, of
unexpected output, or of closing an image. -/
def EvalError.OfPipeline : EvalError → Prop
  | .resolution _ => False
  | .toolchain (.unexpectedOutput _) => False
  | .load (.cannotClose _) => False
  | _ => True

theorem EvalError.OfImage.ofPipeline {e : EvalError} (h : e.OfImage) : e.OfPipeline := by
  cases e with
  | load e => cases e <;> trivial
  | extraction e => trivial
  | panicked m => trivial
  | resolution e => exact h
  | invalidExpression m => exact h.elim
  | toolchain e => exact h.elim
  | missingImage => exact h.elim

theorem ToolchainError.ofPipeline_of_source {e : ToolchainError} (h : e.source?.isSome = true) :
    (EvalError.toolchain e).OfPipeline := by
  cases e with
  | unexpectedOutput text => cases h
  | spawn program os => trivial
  | io os => trivial
  | failed status stderr => trivial

/-- What is read where a library was to be left, under a path that can only be too long. -/
theorem Host.libraryLeft_eq {p : Path} (hcheck : FileTree.checkPath p =
    if FileTree.pathLimit < (Utf8.bytes p.text).length then .error .nameTooLong else .ok ())
    (artifact : Option Entry) :
    (libraryLeft p artifact = .error .notFound ↔
      artifact = none ∧ (Utf8.bytes p.text).length ≤ FileTree.pathLimit) ∧
    (FileTree.pathLimit < (Utf8.bytes p.text).length →
      libraryLeft p artifact = .error .nameTooLong) := by
  unfold libraryLeft
  rw [hcheck]
  by_cases hlen : FileTree.pathLimit < (Utf8.bytes p.text).length
  · rw [if_pos hlen]
    refine ⟨iff_of_false (by simp) ?_, fun _ => rfl⟩
    rintro ⟨-, hle⟩
    omega
  · rw [if_neg hlen]
    refine ⟨?_, fun h => absurd h hlen⟩
    cases artifact with
    | none => simp [Nat.le_of_not_lt hlen]
    | some e => cases e <;> simp

namespace Evaluator

variable {V : Type}

/-- A reply without success is a verdict by its status and its diagnostics alone. -/
theorem verdict_failure {reply : Reply} (hfail : reply.status.isSuccess = false) (ev : Evaluator)
    (linker : Linker V) (library : Path) (h : Host) :
    ev.verdict linker library reply h = (.error (match reply.failure.firstError? with
      | some d => .invalidExpression d.message
      | none =>
        .toolchain (.failed reply.status (String.ofList (Utf8.lossy reply.stderr)))), h) := by
  rw [verdict, hfail, if_neg Bool.false_ne_true]
  cases reply.failure.firstError? <;> rfl

/-- A reply with success is a verdict by the library alone. -/
theorem verdict_success {reply : Reply} (hok : reply.status.isSuccess = true) (ev : Evaluator)
    (linker : Linker V) (library : Path) (h : Host) :
    ev.verdict linker library reply h = match Host.libraryLeft library reply.artifact with
      | .ok bytes => ev.valueOf linker ⟨bytes, ev.references.dynamicNames⟩ h
      | .error .notFound => (.error .missingImage, h)
      | .error e => (.error (.toolchain (.io e.text)), h) := by
  unfold verdict
  rewrite [hok, if_pos rfl]
  rfl

theorem verdict_eq_invalidExpression_iff {ev : Evaluator} {linker : Linker V} {library : Path}
    {reply : Reply} {h : Host} {m : String} :
    (ev.verdict linker library reply h).1 = .error (.invalidExpression m) ↔
      reply.status.isSuccess = false ∧ ∃ d, reply.failure.firstError? = some d ∧ d.message = m := by
  cases hstatus : reply.status.isSuccess with
  | false =>
    rw [verdict_failure hstatus]
    cases reply.failure.firstError? <;> simp
  | true =>
    refine iff_of_false ?_ (by simp)
    rw [verdict_success hstatus]
    split
    · exact fun he => (ev.valueOf_cases linker _ h).2 _ he
    · simp
    · simp

theorem verdict_eq_missingImage_iff {ev : Evaluator} {linker : Linker V} {library : Path}
    {reply : Reply} {h : Host} : (ev.verdict linker library reply h).1 = .error .missingImage ↔
      reply.status.isSuccess = true ∧
        Host.libraryLeft library reply.artifact = .error .notFound := by
  cases hstatus : reply.status.isSuccess with
  | false =>
    rw [verdict_failure hstatus]
    cases reply.failure.firstError? <;> simp
  | true =>
    rw [verdict_success hstatus]
    split
    · rename_i bytes hleft
      exact iff_of_false (fun he => (ev.valueOf_cases linker _ h).2 _ he) (by simp [hleft])
    · rename_i hleft
      simp [hleft]
    · rename_i e hne hleft
      simpa [hleft] using hne

/-- The errors of a verdict are those of the compiler's reply and of an image. -/
theorem ofPipeline_of_verdict {ev : Evaluator} {linker : Linker V} {library : Path}
    {reply : Reply} {h : Host} {e : EvalError}
    (he : (ev.verdict linker library reply h).1 = .error e) : e.OfPipeline := by
  cases hstatus : reply.status.isSuccess with
  | false =>
    rw [verdict_failure hstatus] at he
    cases hfirst : reply.failure.firstError? with
    | none =>
      simp only [hfirst] at he
      cases he
      trivial
    | some d =>
      simp only [hfirst] at he
      cases he
      trivial
  | true =>
    rw [verdict_success hstatus] at he
    split at he
    · exact ((ev.valueOf_cases linker _ h).2 _ he).ofPipeline
    · cases he
      trivial
    · cases he
      trivial

/-- After a failure replies alike in status and standard error come to the same, whatever was
left and whoever would have linked it. -/
theorem verdict_congr_of_failure {reply reply' : Reply} (hfail : reply.status.isSuccess = false)
    (hstatus : reply'.status = reply.status) (hstderr : reply'.stderr = reply.stderr)
    (ev : Evaluator) (linker linker' : Linker V) (library : Path) (h h' : Host) :
    (ev.verdict linker' library reply' h').1 = (ev.verdict linker library reply h).1 ∧
      (ev.verdict linker' library reply' h').2 = h' ∧
      (ev.verdict linker library reply h).2 = h := by
  have hfail' : reply'.status.isSuccess = false := by rwa [hstatus]
  have hfailure : reply'.failure = reply.failure := by
    rw [Reply.failure, Reply.failure, hstderr]
  rw [verdict_failure hfail, verdict_failure hfail', hfailure, hstatus, hstderr]
  exact ⟨rfl, rfl, rfl⟩

/-- After a success replies that leave the same come to the same. -/
theorem verdict_congr_of_success {reply reply' : Reply} (hok : reply.status.isSuccess = true)
    (hok' : reply'.status.isSuccess = true) (hartifact : reply'.artifact = reply.artifact)
    (ev : Evaluator) (linker : Linker V) (library : Path) (h : Host) :
    ev.verdict linker library reply' h = ev.verdict linker library reply h := by
  rw [verdict_success hok, verdict_success hok', hartifact]

end Evaluator

/-! ## Whole evaluations -/

namespace Host

theorem not_ranOn_of_launches {h h' : Host} (heq : h'.launches = h.launches) (l : Launch) :
    ¬ h.RanOn h' l := by
  intro hran
  have hlen := congrArg List.length (heq.symm.trans hran)
  rw [List.length_append, List.length_singleton] at hlen
  omega

theorem ranOn_iff_of_launches {h h' : Host} {l : Launch} (heq : h'.launches = h.launches ++ [l])
    (l' : Launch) : h.RanOn h' l' ↔ l' = l := by
  constructor
  · intro hran
    exact List.singleton_inj.1 (List.append_cancel_left (hran.symm.trans heq))
  · rintro rfl
    exact heq

end Host

namespace Evaluator

/-- A compiler that is started has run, and only so. -/
theorem ranOn_iff_of_start {ev : Evaluator} {s : Settings} {t : HostType} {expression : String}
    {h : Host} {l : Launch} {library : Path} (hstart : ev.start s t expression h = .ok (l, library))
    (program : Program) (linker : Linker V) (l' : Launch) :
    h.RanOn (ev.evaluate (s.toolchain program) linker t expression h).2 l' ↔ l' = l := by
  obtain ⟨tree, hafter, -⟩ := ev.snd_evaluate_eq s program linker t expression h
  rw [hafter, hstart]
  exact Host.ranOn_iff_of_launches rfl l'

/-- **The two ways an evaluation can go:** the compiler is not run, for a reason that the
operating system gives, or its reply to one launch is the verdict. Which way it goes, and
the launch, do not depend on what the compiler or the linker does. -/
theorem evaluate_cases (ev : Evaluator) (s : Settings) (t : HostType) (expression : String)
    (h : Host) :
    (∃ e : ToolchainError, e.source?.isSome = true ∧ ∀ (program : Program) (linker : Linker V),
      (∀ l, ¬ h.RanOn (ev.evaluate (s.toolchain program) linker t expression h).2 l) ∧
      ev.evaluate (s.toolchain program) linker t expression h =
        (.error (.toolchain e), ev.compiled s program t expression h)) ∨
    ∃ l library, ev.start s t expression h = .ok (l, library) ∧
      Host.artifactPath? l.args = some library ∧
      (FileTree.checkPath library =
        if FileTree.pathLimit < (Utf8.bytes library.text).length then .error .nameTooLong
        else .ok ()) ∧
      ∀ (program : Program) (linker : Linker V),
        (∀ l', h.RanOn (ev.evaluate (s.toolchain program) linker t expression h).2 l' ↔ l' = l) ∧
        ev.evaluate (s.toolchain program) linker t expression h =
          ev.verdict linker library (program l) (ev.compiled s program t expression h) := by
  cases hstart : ev.start s t expression h with
  | error e =>
    refine Or.inl ⟨e, Settings.source?_of_start_eq_error hstart, fun program linker => ⟨?_, ?_⟩⟩
    · obtain ⟨tree, hafter, -⟩ := ev.snd_evaluate_eq s program linker t expression h
      rw [hafter, hstart]
      exact Host.not_ranOn_of_launches rfl
    · rw [evaluate_eq, hstart]
  | ok started =>
    obtain ⟨l, library⟩ := started
    obtain ⟨hpath, hcheck⟩ := Settings.library_of_start_eq_ok hstart
    exact Or.inr ⟨l, library, rfl, hpath, hcheck, fun program linker =>
      ⟨ranOn_iff_of_start hstart program linker, evaluate_of_start hstart program linker⟩⟩

/-- **Which result follows from which behaviour of the compiler.** -/
theorem evaluate_classified (ev : Evaluator) (s : Settings) (program : Program)
    (linker : Linker V) (t : HostType) (expression : String) (h : Host) :
    let run := fun (p : Program) (lk : Linker V) => ev.evaluate (s.toolchain p) lk t expression h
    let out := run program linker
    let ran := h.RanOn out.2
    -- a failure that shows an error is the caller's
    (∀ m, out.1 = .error (.invalidExpression m) ↔
      ∃ l, ran l ∧ (program l).status.isSuccess = false ∧
        ∃ d, (program l).failure.firstError? = some d ∧ d.message = m) ∧
    -- a failure that shows none is the compiler's
    (∀ l, ran l → (program l).status.isSuccess = false → (program l).failure.firstError? = none →
      out.1 = .error (.toolchain
        (.failed (program l).status (String.ofList (Utf8.lossy (program l).stderr))))) ∧
    -- after a failure neither what was left nor the linker counts
    (∀ l, ran l → (program l).status.isSuccess = false → ∀ p lk,
      (p l).status = (program l).status → (p l).stderr = (program l).stderr →
        (run p lk).1 = out.1 ∧ (h.temp.Removes → run p lk = out)) ∧
    -- after a success only what was left counts
    (∀ l, ran l → (program l).status.isSuccess = true → ∀ p, (p l).status.isSuccess = true →
      (p l).artifact = (program l).artifact → run p linker = out) ∧
    -- nothing left is a missing image, where there could have been something
    (out.1 = .error .missingImage ↔
      ∃ l library, ran l ∧ (program l).status.isSuccess = true ∧ (program l).artifact = none ∧
        Host.artifactPath? l.args = some library ∧
        (Utf8.bytes library.text).length ≤ FileTree.pathLimit) ∧
    (∀ l library, ran l → (program l).status.isSuccess = true →
      Host.artifactPath? l.args = some library →
      FileTree.pathLimit < (Utf8.bytes library.text).length →
      out.1 = .error (.toolchain (.io OsError.nameTooLong.text))) ∧
    ∀ e, out.1 = .error e → e.OfPipeline ∧ e.kinds ≤ 1 := by
  intro run out ran
  rcases evaluate_cases ev s t expression h with
    ⟨e, hsource, hall⟩ | ⟨l, library, hstart, hpath, hcheck, hall⟩
  · -- nothing is said of a compiler that has not run
    obtain ⟨hnot, hout⟩ := hall program linker
    have hout : out.1 = .error (.toolchain e) := congrArg Prod.fst hout
    have hnot : ∀ l, ¬ ran l := hnot
    refine ⟨?_, fun l hl => absurd hl (hnot l), fun l hl => absurd hl (hnot l),
      fun l hl => absurd hl (hnot l), ?_, fun l _ hl => absurd hl (hnot l), ?_⟩
    · intro m
      refine iff_of_false ?_ (fun ⟨l, hl, _⟩ => hnot l hl)
      rw [hout]
      simp
    · refine iff_of_false ?_ (fun ⟨l, _, hl, _⟩ => hnot l hl)
      rw [hout]
      simp
    · intro e' he'
      rw [hout] at he'
      cases he'
      exact ⟨ToolchainError.ofPipeline_of_source hsource, EvalError.kinds_le_one _⟩
  · -- there was one launch, and all that is said is said of the verdict on the reply to it
    have hran : ∀ l', ran l' ↔ l' = l := (hall program linker).1
    have hout : out = ev.verdict linker library (program l) (ev.compiled s program t expression h) :=
      (hall program linker).2
    have hrun : ∀ p lk, run p lk = ev.verdict lk library (p l) (ev.compiled s p t expression h) :=
      fun p lk => (hall p lk).2
    obtain ⟨hleft, hlong⟩ := Host.libraryLeft_eq hcheck (program l).artifact
    refine ⟨?_, ?_, ?_, ?_, ?_, ?_, ?_⟩
    · intro m
      rw [hout, verdict_eq_invalidExpression_iff]
      simp only [hran, exists_eq_left]
    · intro l' hl' hfail hnone
      obtain rfl := (hran l').1 hl'
      rw [hout, verdict_failure hfail, hnone]
    · intro l' hl' hfail p lk hstatus hstderr
      obtain rfl := (hran l').1 hl'
      obtain ⟨hresult, hhost, hhost'⟩ := verdict_congr_of_failure hfail hstatus hstderr ev linker lk
        library (ev.compiled s program t expression h) (ev.compiled s p t expression h)
      rw [hrun, hout]
      refine ⟨hresult, fun hremoves => Prod.ext hresult ?_⟩
      rw [hhost, hhost', compiled_of_removes hremoves, compiled_of_removes hremoves]
    · intro l' hl' hok p hok' hartifact
      obtain rfl := (hran l').1 hl'
      have hcompiled : ev.compiled s p t expression h = ev.compiled s program t expression h := by
        refine compiled_congr fun l'' p' hstart' => ?_
        obtain ⟨rfl, -⟩ := Prod.mk.inj (Except.ok.inj (hstart.symm.trans hstart'))
        exact hartifact
      rw [hrun, hout, hcompiled]
      exact verdict_congr_of_success hok hok' hartifact ev linker library _
    · rw [hout, verdict_eq_missingImage_iff, hleft]
      constructor
      · rintro ⟨hok, hnone, hlen⟩
        exact ⟨l, library, (hran l).2 rfl, hok, hnone, hpath, hlen⟩
      · rintro ⟨l', library', hl', hok, hnone, hpath', hlen⟩
        obtain rfl := (hran l').1 hl'
        obtain rfl := Option.some.inj (hpath.symm.trans hpath')
        exact ⟨hok, hnone, hlen⟩
    · intro l' library' hl' hok hpath' hlen
      obtain rfl := (hran l').1 hl'
      obtain rfl := Option.some.inj (hpath.symm.trans hpath')
      rw [hout, verdict_success hok, hlong hlen]
    · intro e he
      rw [hout] at he
      exact ⟨ofPipeline_of_verdict he, e.kinds_le_one⟩

/-! ## What the default compiler can come to -/

/-- A compiler that shows an error and fails. -/
def refusing : Program := fun _ =>
  ⟨[], Utf8.bytes "\x7b\"level\":\"error\",\"message\":\"no\"\x7d", .ofCode 1, none⟩

theorem firstError?_refusing (l : Launch) :
    (refusing l).failure.firstError?.map (·.message) = some "no" := by
  have hbytes : (refusing l).stderr =
      Utf8.bytes "\x7b\"level\":\"error\",\"message\":\"no\"\x7d" := rfl
  rw [Reply.failure, hbytes]
  decide +kernel

/-- Where such a compiler runs the error is the caller's. -/
theorem evaluate_classified_refused :
    let out := bare.evaluate (stock.toolchain refusing) (fun _ => .error "" : Linker Unit)
      (.atom .i64) "1" (deepHost 1 0 [])
    (∃ l, (deepHost 1 0 []).RanOn out.2 l) ∧ out.1 = .error (.invalidExpression "no") := by
  obtain ⟨l, hstart⟩ :=
    exists_start_deepHost 0 [] (by decide) (by decide : 1 + 22 ≤ _) passesOn_bare "1"
  -- what is made on this host is not to be computed
  obtain ⟨h, hh⟩ : ∃ h, h = deepHost 1 0 [] := ⟨_, rfl⟩
  rw [← hh] at hstart ⊢
  obtain ⟨d, hd, hmessage⟩ := Option.map_eq_some_iff.1 (firstError?_refusing l)
  obtain ⟨hinvalid, -⟩ := evaluate_classified bare stock refusing
    (fun _ => .error "" : Linker Unit) (.atom .i64) "1" h
  have hran := (ranOn_iff_of_start hstart refusing (fun _ => .error "" : Linker Unit) l).2 rfl
  have hfail : (refusing l).status.isSuccess = false :=
    Bool.eq_false_iff.2 (mt (ExitStatus.isSuccess_ofCode 1).1 (by decide))
  exact ⟨⟨l, hran⟩, (hinvalid "no").2 ⟨l, hran, hfail, d, hd, hmessage⟩⟩

/-- **What a compiler that leaves nothing comes to** in such a host: the digits of the number decide
whether the path of a library is too long. -/
theorem fst_evaluate_deepHost {V : Type} {k : Nat} (n : UInt64) (launches : List Launch) (hpos : 0 < k)
    (hle : k + 22 ≤ FileTree.pathLimit) (linker : Linker V) :
    (FileTree.pathLimit < k + 45 + (Nat.toDigits 10 n.toNat).length →
      (bare.evaluate (stock.toolchain idle) linker (.atom .i64) "1" (deepHost k n launches)).1 =
        .error (.toolchain (.io OsError.nameTooLong.text))) ∧
    (k + 47 + (Nat.toDigits 10 n.toNat).length ≤ FileTree.pathLimit →
      (bare.evaluate (stock.toolchain idle) linker (.atom .i64) "1" (deepHost k n launches)).1 =
        .error .missingImage) := by
  obtain ⟨l, hstart⟩ := exists_start_deepHost n launches hpos hle passesOn_bare "1"
  have hcheck := (Settings.library_of_start_eq_ok hstart).2
  have hlen := length_deepLibrary n hpos (by omega) bare "1"
  obtain ⟨hmissing, hlong⟩ := Host.libraryLeft_eq hcheck (idle l).artifact
  rw [evaluate_of_start hstart, verdict_success (isSuccess_idle l)]
  constructor
  · intro h
    simp only [hlong (by omega)]
  · intro h
    simp only [hmissing.2 ⟨rfl, by omega⟩]

/-- The compiler runs, succeeds and leaves nothing, and a path that is too long is reported. -/
theorem exists_ranOn_deepHost {V : Type} {k : Nat} (n : UInt64) (launches : List Launch) (hpos : 0 < k)
    (hle : k + 22 ≤ FileTree.pathLimit)
    (hlong : FileTree.pathLimit < k + 45 + (Nat.toDigits 10 n.toNat).length) (linker : Linker V) :
    let out := bare.evaluate (stock.toolchain idle) linker (.atom .i64) "1" (deepHost k n launches)
    ∃ l, (deepHost k n launches).RanOn out.2 l ∧ (idle l).status.isSuccess = true ∧
      (idle l).artifact = none ∧ out.1 ≠ .error .missingImage ∧
      out.1 = .error (.toolchain (.io OsError.nameTooLong.text)) := by
  intro out
  obtain ⟨l, hstart⟩ := exists_start_deepHost n launches hpos hle passesOn_bare "1"
  have hout : out.1 = .error (.toolchain (.io OsError.nameTooLong.text)) :=
    (fst_evaluate_deepHost n launches hpos hle linker).1 hlong
  refine ⟨l, (ranOn_iff_of_start hstart idle linker l).2 rfl, isSuccess_idle l, rfl, ?_, hout⟩
  rw [hout]
  simp

/-- **No library, and yet no missing image:** where the path is too long for one to be there,
that is what is reported. The scratch directory's path still fits, that of a library in it does
not. -/
theorem evaluate_longPath :
    let out := bare.evaluate (stock.toolchain idle) (fun _ => .error "" : Linker Unit) (.atom .i64)
      "1" (deepHost 4070 0 [])
    ∃ l, (deepHost 4070 0 []).RanOn out.2 l ∧ (idle l).status.isSuccess = true ∧
      (idle l).artifact = none ∧ out.1 ≠ .error .missingImage ∧
      out.1 = .error (.toolchain (.io "File name too long (os error 36)")) :=
  exists_ranOn_deepHost 0 [] (by decide) (by decide) (by decide) _

end Evaluator

end ExprHost
