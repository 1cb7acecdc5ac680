import ExprHost.Proofs.Evaluation.Classified
import ExprHost.Proofs.Toolchain.Anonymous

/-!
# Evaluations on two hosts

Hosts on which scratch directories lie in the same surroundings differ in numbers, in what they
have run, and in the names they draw for temporary entries. None of this shows in what becomes of
an expression, but for the paths: one that is too long for the system, and the words that name one.

* `Host.Overran`: the compiler has succeeded where the system takes no path of a library.
* `Evaluator.evaluate_of_start_two`: what one reply comes to on two hosts.
* `Evaluator.evaluate_congr`: **a call ends alike on hosts with the same surroundings.**
* `Evaluator.evaluate_of_left`: **a library that is left is linked and asked for its value.**
-/

namespace ExprHost

/-- The compiler has run once between two states of the host and succeeded, but the path that
its library was to have is longer than the system takes. -/
def Host.Overran (program : Program) (h h' : Host) : Prop :=
  ∃ l library, h.RanOn h' l ∧ (program l).status.isSuccess = true ∧
    Host.artifactPath? l.args = some library ∧
    FileTree.pathLimit < (Utf8.bytes library.text).length

namespace Evaluator

variable {V : Type}

/-- Two results are one, but for the words for an image that cannot be staged. -/
def SameResult (x y : Except EvalError V) : Prop :=
  x = y ∨ ∃ words words', x = .error (.load (.cannotStage words)) ∧
    y = .error (.load (.cannotStage words'))

/-- Images go where scratch directories go, or there is another place for one. -/
def Stages (ev : Evaluator) (s : Settings) (h : Host) : Prop :=
  ev.stagingDir = s.scratchDir ∨ ∃ found, (h.parentMade s.scratchDir).2.tempEntry h.temp h.workDir
    (ev.stagingDir.getD h.tempDir) .image = .ok found

/-! ## Verdicts on two hosts -/

section Verdict

variable {ev : Evaluator} {linker : Linker V} {library library' : Path} {reply : Reply} {h h' : Host}

/-- An image comes to one thing where there is a place for it. -/
theorem valueOf_congr (image : Image)
    (hplace : ∃ found, h.tree.tempEntry h.temp h.workDir (ev.stagingDir.getD h.tempDir) .image =
      .ok found)
    (hplace' : ∃ found, h'.tree.tempEntry h'.temp h'.workDir (ev.stagingDir.getD h'.tempDir) .image =
      .ok found) : (ev.valueOf linker image h').1 = (ev.valueOf linker image h).1 := by
  obtain ⟨found, hfound⟩ := hplace
  obtain ⟨found', hfound'⟩ := hplace'
  rw [fst_valueOf, fst_valueOf, hfound, hfound']

/-- And where there is none, it cannot be staged if anything is to be staged at all. -/
theorem valueOf_sameResult (image : Image)
    (hplace : ¬ ∃ found, h.tree.tempEntry h.temp h.workDir (ev.stagingDir.getD h.tempDir) .image =
      .ok found)
    (hplace' : ¬ ∃ found, h'.tree.tempEntry h'.temp h'.workDir (ev.stagingDir.getD h'.tempDir)
      .image = .ok found) :
    SameResult (ev.valueOf linker image h').1 (ev.valueOf linker image h).1 := by
  rw [fst_valueOf, fst_valueOf]
  cases image.dependencies with
  | cons name rest => exact Or.inl rfl
  | nil =>
    cases hfound : h.tree.tempEntry h.temp h.workDir (ev.stagingDir.getD h.tempDir) .image with
    | ok found => exact absurd ⟨found, hfound⟩ hplace
    | error words =>
      cases hfound' : h'.tree.tempEntry h'.temp h'.workDir (ev.stagingDir.getD h'.tempDir) .image with
      | ok found => exact absurd ⟨found, hfound'⟩ hplace'
      | error words' => exact Or.inr ⟨words', words, rfl, rfl⟩

/-- The verdict on a library that could be left under its path. -/
theorem verdict_short (hok : reply.status.isSuccess = true)
    (hcheck : FileTree.checkPath library = .ok ()) (ev : Evaluator) (linker : Linker V) (h : Host) :
    (ev.verdict linker library reply h).1 = match reply.artifact with
      | none => .error .missingImage
      | some .directory => .error (.toolchain (.io OsError.isDirectory.text))
      | some (.file bytes _) => (ev.valueOf linker ⟨bytes, ev.references.dynamicNames⟩ h).1 := by
  unfold verdict Host.libraryLeft
  rw [hok, if_pos rfl, hcheck]
  rcases reply.artifact with - | - | ⟨bytes, executable⟩ <;> rfl

/-- The verdict on one that could not, for the length of its path. -/
theorem verdict_long (hok : reply.status.isSuccess = true)
    (hcheck : FileTree.checkPath library = .error .nameTooLong) (ev : Evaluator)
    (linker : Linker V) (h : Host) : (ev.verdict linker library reply h).1 =
      .error (.toolchain (.io OsError.nameTooLong.text)) := by
  unfold verdict Host.libraryLeft
  rw [hok, if_pos rfl, hcheck]

/-- The two are never the same. -/
theorem verdict_short_ne_long (hok : reply.status.isSuccess = true)
    (hcheck : FileTree.checkPath library = .ok ()) (ev : Evaluator) (linker : Linker V) (h : Host) :
    (ev.verdict linker library reply h).1 ≠ .error (.toolchain (.io OsError.nameTooLong.text)) := by
  rw [verdict_short hok hcheck]
  rcases reply.artifact with - | - | ⟨bytes, executable⟩
  · simp
  · simp only [ne_eq, Except.error.injEq, EvalError.toolchain.injEq, ToolchainError.io.injEq]
    decide
  · exact fun hvalue => (ev.valueOf_cases linker _ h).2 _ hvalue

end Verdict

/-! ## One call on two hosts -/

section Congr

variable {ev : Evaluator} {s : Settings} {program : Program} {linker : Linker V} {t : HostType}
  {expression : String} {h h' : Host}

/-- The number of a request plays no part in what surrounds its scratch directory. -/
theorem alike_request (ha : Host.Alike s.scratchDir h h') (ev : Evaluator) (t : HostType)
    (expression : String) : Host.Alike s.scratchDir (ev.request t expression h).2
      (ev.request t expression h').2 := by
  have hmade := ha.made
  have hfinds := ha.finds
  have hfinds' := ha.finds'
  rw [← ev.parentMade_request t expression h] at hmade hfinds hfinds'
  rw [← ev.parentMade_request t expression h'] at hmade
  exact ⟨ha.workDir, ha.tempDir, ha.searchPath, hmade, hfinds, hfinds'⟩

/-- Nor does it in whether the program is looked for there. -/
theorem crosses_request (ev : Evaluator) (t : HostType) (expression : String) (h : Host) :
    (ev.request t expression h).2.Crosses s ↔ h.Crosses s := by
  unfold Host.Crosses
  rw [fst_makeScratch_request]
  exact Iff.rfl

/-- Where there is no scratch directory, nothing is run. -/
theorem evaluate_of_unmade {words : String} (hunmade : (h.makeScratch s.scratchDir).1 = .error words)
    (program : Program) (linker : Linker V) :
    (ev.evaluate (s.toolchain program) linker t expression h).1 =
      .error (.toolchain (.io words)) := by
  rw [← ev.fst_makeScratch_request t expression] at hunmade
  exact evaluate_of_start_error (Settings.start_of_unmade hunmade) program linker

/-- The compiler overruns if it succeeds and the path is too long for the system. -/
theorem overran_iff_of_start {l : Launch} {library : Path}
    (hstart : ev.start s t expression h = .ok (l, library)) (program : Program)
    (linker : Linker V) :
    h.Overran program (ev.evaluate (s.toolchain program) linker t expression h).2 ↔
      (program l).status.isSuccess = true ∧
        FileTree.pathLimit < (Utf8.bytes library.text).length := by
  have hran := ranOn_iff_of_start hstart program linker
  have hpath := (Settings.library_of_start_eq_ok hstart).1
  constructor
  · rintro ⟨l', library', hl', hok, hpath', hlong⟩
    obtain rfl := (hran l').1 hl'
    obtain rfl := Option.some.inj (hpath.symm.trans hpath')
    exact ⟨hok, hlong⟩
  · rintro ⟨hok, hlong⟩
    exact ⟨l, library, (hran l).2 rfl, hok, hpath, hlong⟩

/-- It does not if it has not been started. -/
theorem not_overran_of_start_error {e : ToolchainError}
    (hstart : ev.start s t expression h = .error e) (program : Program) (linker : Linker V) :
    ¬ h.Overran program (ev.evaluate (s.toolchain program) linker t expression h).2 := by
  rintro ⟨l, -, hran, -⟩
  obtain ⟨tree, hafter, -⟩ := ev.snd_evaluate_eq s program linker t expression h
  rw [hafter, hstart] at hran
  exact Host.not_ranOn_of_launches rfl l hran

/-- **Where the compiler has overrun,** that is what is reported. -/
theorem evaluate_of_overran
    (hover : h.Overran program (ev.evaluate (s.toolchain program) linker t expression h).2) :
    (ev.evaluate (s.toolchain program) linker t expression h).1 =
      .error (.toolchain (.io OsError.nameTooLong.text)) := by
  cases hstart : ev.start s t expression h with
  | error e => exact absurd hover (not_overran_of_start_error hstart program linker)
  | ok started =>
    obtain ⟨l, library⟩ := started
    obtain ⟨hok, hlong⟩ := (overran_iff_of_start hstart program linker).1 hover
    have hcheck := (Settings.library_of_start_eq_ok hstart).2
    rw [if_pos hlong] at hcheck
    rw [evaluate_of_start hstart]
    exact verdict_long hok hcheck ev linker _

/-- **What one reply comes to on two hosts:** the results are one exactly if the compiler overruns
on both hosts or on neither; or it does on neither and has left one image for both. -/
theorem evaluate_of_start_two {l l' : Launch} {library library' : Path}
    (hl : ev.start s t expression h = .ok (l, library))
    (hl' : ev.start s t expression h' = .ok (l', library')) (hreply : program l' = program l)
    (linker : Linker V) :
    let out := ev.evaluate (s.toolchain program) linker t expression h
    let out' := ev.evaluate (s.toolchain program) linker t expression h'
    (out'.1 = out.1 ↔ (h'.Overran program out'.2 ↔ h.Overran program out.2)) ∨
    (¬ h.Overran program out.2 ∧ ¬ h'.Overran program out'.2 ∧
      FileTree.checkPath library = .ok () ∧ FileTree.checkPath library' = .ok () ∧
      ∃ image, out.1 = (ev.valueOf linker image (ev.compiled s program t expression h)).1 ∧
        out'.1 = (ev.valueOf linker image (ev.compiled s program t expression h')).1) := by
  intro out out'
  have hout : out = _ := evaluate_of_start hl program linker
  have hout' : out' = _ := evaluate_of_start hl' program linker
  have hover := overran_iff_of_start hl program linker
  have hover' := overran_iff_of_start hl' program linker
  have hcheck := (Settings.library_of_start_eq_ok hl).2
  have hcheck' := (Settings.library_of_start_eq_ok hl').2
  rw [hreply] at hout' hover'
  cases hstatus : (program l).status.isSuccess with
  | false =>
    refine Or.inl (iff_of_true ?_ (iff_of_false ?_ ?_))
    · rw [hout, hout', verdict_failure hstatus, verdict_failure hstatus]
    · exact fun h => absurd (hstatus.symm.trans (hover'.1 h).1) (by decide)
    · exact fun h => absurd (hstatus.symm.trans (hover.1 h).1) (by decide)
  | true =>
    simp only [hstatus, true_and] at hover hover'
    rw [hover, hover', hout, hout']
    by_cases hlong : FileTree.pathLimit < (Utf8.bytes library.text).length <;>
      by_cases hlong' : FileTree.pathLimit < (Utf8.bytes library'.text).length
    all_goals simp only [hlong, hlong', if_true, if_false] at hcheck hcheck'
    · refine Or.inl (iff_of_true ?_ (iff_of_true hlong' hlong))
      rw [verdict_long hstatus hcheck, verdict_long hstatus hcheck']
    · refine Or.inl (iff_of_false ?_ fun h => hlong' (h.2 hlong))
      rw [verdict_long hstatus hcheck]
      exact verdict_short_ne_long hstatus hcheck' ev linker _
    · refine Or.inl (iff_of_false ?_ fun h => hlong (h.1 hlong'))
      rw [verdict_long hstatus hcheck']
      exact (verdict_short_ne_long hstatus hcheck ev linker _).symm
    · rw [verdict_short hstatus hcheck, verdict_short hstatus hcheck']
      rcases (program l).artifact with - | - | ⟨bytes, executable⟩
      · exact Or.inl (iff_of_true rfl (iff_of_false hlong' hlong))
      · exact Or.inl (iff_of_true rfl (iff_of_false hlong' hlong))
      · exact Or.inr ⟨hlong, hlong', hcheck, hcheck', _, rfl, rfl⟩

/-- **A call ends alike on hosts with the same surroundings** where there is a scratch directory
and the program is not looked for there: unless an image cannot be staged, the results are one
exactly if the compiler overruns on both hosts or on neither. -/
theorem evaluate_congr (hanon : Program.Anonymous program) (linker : Linker V)
    (ha : Host.Alike s.scratchDir h h') (hremoves : h.temp.Removes) (hremoves' : h'.temp.Removes)
    (hmade : ∃ found, (h.makeScratch s.scratchDir).1 = .ok found) (hcross : ¬ h.Crosses s)
    (hcross' : ¬ h'.Crosses s) :
    let out := ev.evaluate (s.toolchain program) linker t expression h
    let out' := ev.evaluate (s.toolchain program) linker t expression h'
    ((h'.Overran program out'.2 ↔ h.Overran program out.2) → SameResult out'.1 out.1) ∧
    (ev.Stages s h →
      (out'.1 = out.1 ↔ (h'.Overran program out'.2 ↔ h.Overran program out.2))) := by
  intro out out'
  have hmade' := hmade
  rw [← ev.fst_makeScratch_request t expression] at hmade'
  have hunit : (ev.request t expression h').1.source = (ev.request t expression h).1.source := rfl
  have hrefs : (ev.request t expression h').1.references =
      (ev.request t expression h).1.references := rfl
  have hstart := Settings.start_congr (alike_request ha ev t expression) hmade'
    (mt (crosses_request ev t expression h).1 hcross)
    (mt (crosses_request ev t expression h').1 hcross') hunit hrefs
  rcases hstart with ⟨e, he, he'⟩ | ⟨l, l', library, library', hl, hl', hsource, hargs⟩
  · have hsame : out'.1 = out.1 :=
      (evaluate_of_start_error he' program linker).trans
        (evaluate_of_start_error he program linker).symm
    exact ⟨fun _ => Or.inl hsame, fun _ => iff_of_true hsame (iff_of_false
      (not_overran_of_start_error he' program linker)
      (not_overran_of_start_error he program linker))⟩
  · rcases evaluate_of_start_two hl hl' (hanon l' l hsource hargs) linker with
      hiff | ⟨hshort, hshort', hcheck, hcheck', image, hvalue, hvalue'⟩
    · exact ⟨fun hover => Or.inl (hiff.2 hover), fun _ => hiff⟩
    · -- there is a place for the image on both hosts, or on neither
      have hplace := FileTree.exists_tempEntry_iff
        (ha.finds h.workDir (ev.stagingDir.getD h.tempDir) .image)
        (ha.finds' h.workDir (ev.stagingDir.getD h.tempDir) .image)
      have hat := ev.tempEntry_compiled s program t expression hremoves ev.stagingDir .image
      have hat' := ev.tempEntry_compiled s program t expression hremoves' ev.stagingDir .image
      rw [ha.made, ha.workDir, ha.tempDir] at hat'
      have hsame : (∃ found, (h.parentMade s.scratchDir).2.tempEntry h.temp h.workDir
          (ev.stagingDir.getD h.tempDir) .image = .ok found) → out'.1 = out.1 := by
        intro hfound
        rw [show out.1 = _ from hvalue, show out'.1 = _ from hvalue']
        refine valueOf_congr image ?_ ?_
        · rw [hat]
          exact hfound
        · rw [hat']
          exact hplace.2 hfound
      refine ⟨fun _ => ?_, fun hstages => iff_of_true (hsame ?_) (iff_of_false hshort' hshort)⟩
      · by_cases hfound : ∃ found, (h.parentMade s.scratchDir).2.tempEntry h.temp h.workDir
          (ev.stagingDir.getD h.tempDir) .image = .ok found
        · exact Or.inl (hsame hfound)
        · rw [show out.1 = _ from hvalue, show out'.1 = _ from hvalue']
          refine valueOf_sameResult image ?_ ?_
          · rw [hat]
            exact hfound
          · rw [hat']
            exact mt hplace.1 hfound
      · exact hstages.elim (exists_place_of_start · hl hcheck ha.finds) id

/-- **A library that the compiler leaves is linked and asked for its value,** if it needs no other
and images go where scratch directories go. -/
theorem evaluate_of_left (hstaging : ev.stagingDir = s.scratchDir)
    (hdeps : ev.references.dynamicNames = []) {l : Launch} {library : Path}
    (hstart : ev.start s t expression h = .ok (l, library))
    (hcheck : FileTree.checkPath library = .ok ()) (hok : (program l).status.isSuccess = true)
    {bytes : Bytes} {executable : Bool}
    (hleft : (program l).artifact = some (.file bytes executable)) (hremoves : h.temp.Removes)
    (hfinds : h.temp.Finds (h.parentMade s.scratchDir).2) (linker : Linker V) :
    (ev.evaluate (s.toolchain program) linker t expression h).1 =
      match linker bytes with
      | .error os => .error (.load (.cannotOpen os))
      | .ok library => library.extract := by
  obtain ⟨found, hplace⟩ := exists_place_of_start hstaging hstart hcheck hfinds
  rw [← ev.tempEntry_compiled s program t expression hremoves] at hplace
  have hvalue := ev.fst_valueOf linker ⟨bytes, []⟩ (ev.compiled s program t expression h)
  rw [hplace] at hvalue
  rw [evaluate_of_start hstart, verdict_short hok hcheck, hleft, hdeps]
  exact hvalue

end Congr

end Evaluator

end ExprHost
