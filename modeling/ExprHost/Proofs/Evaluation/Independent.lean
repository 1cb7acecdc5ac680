import ExprHost.Proofs.Evaluation.TwoHosts

/-!
# Calls do not influence each other

What calls leave behind are a higher number, a longer record of launches, and the directories
that scratch directories lie in. So a call ends as it would have ended alone, as long as there is
a scratch directory for it and the system takes the paths that are built on the way.

* `Evaluator.Session`: an evaluator and the host that its calls find.
* `Session.after_follows`: **what a sequence of calls leaves behind.**
* `Session.call_independent`: **when a call in a sequence ends as it does alone.**
* `Session.call_depends`: the two ways in which the system can come between.
-/

namespace ExprHost

namespace Evaluator

variable {V : Type}

/-! ## Sequences of calls -/

/-- An expression to be evaluated as a type, and what the names of temporary entries are drawn by
in the meantime. -/
structure Call where
  type : HostType
  expression : String
  temp : TempLibrary

/-- An evaluator and the host as its calls find it. -/
structure Session where
  evaluator : Evaluator
  host : Host

namespace Session

/-- A session on a host whose requests are numbered from a given number on. -/
def numbered (ev : Evaluator) (h : Host) (first : UInt64) : Session :=
  ⟨ev, { h with nextUnit := first }⟩

/-- The host that a call finds. -/
def hostFor (σ : Session) (c : Call) : Host := { σ.host with temp := c.temp }

@[simp] theorem workDir_hostFor (σ : Session) (c : Call) :
    (σ.hostFor c).workDir = σ.host.workDir := rfl

/-- A call, and the session after it. -/
def call (σ : Session) (toolchain : Toolchain) (linker : Linker V) (c : Call) :
    Except EvalError V × Session :=
  let out := σ.evaluator.evaluate toolchain linker c.type c.expression (σ.hostFor c)
  (out.1, { σ with host := out.2 })

@[simp] theorem fst_call (σ : Session) (toolchain : Toolchain) (linker : Linker V) (c : Call) :
    (σ.call toolchain linker c).1 =
      (σ.evaluator.evaluate toolchain linker c.type c.expression (σ.hostFor c)).1 := rfl

@[simp] theorem snd_call (σ : Session) (toolchain : Toolchain) (linker : Linker V) (c : Call) :
    (σ.call toolchain linker c).2 = ⟨σ.evaluator,
      (σ.evaluator.evaluate toolchain linker c.type c.expression (σ.hostFor c)).2⟩ := rfl

/-- The session after some calls, whatever came of them. -/
def after (σ : Session) (toolchain : Toolchain) (linker : Linker V) (calls : List Call) : Session :=
  calls.foldl (fun σ c => (σ.call toolchain linker c).2) σ

theorem after_singleton (σ : Session) (toolchain : Toolchain) (linker : Linker V) (c : Call) :
    σ.after toolchain linker [c] = (σ.call toolchain linker c).2 := rfl

/-- What names are drawn by plays no part in where a scratch directory goes. -/
theorem parentMade_with_temp (h : Host) (lib : TempLibrary) (parent : Option Path) :
    Host.parentMade { h with temp := lib } parent = h.parentMade parent := by
  cases parent <;> rfl

/-- One call keeps the evaluator, and leaves a host that follows. -/
theorem call_follows (σ : Session) (s : Settings) (program : Program) (linker : Linker V)
    {c : Call} (hremoves : c.temp.Removes) {h : Host} (hf : h.Follows s.scratchDir σ.host) :
    (σ.call (s.toolchain program) linker c).2.evaluator = σ.evaluator ∧
      h.Follows s.scratchDir (σ.call (s.toolchain program) linker c).2.host := by
  obtain ⟨hwork, htemp, hpath, htree⟩ :=
    evaluate_surroundings (h := σ.hostFor c) σ.evaluator s program linker c.type c.expression hremoves
  rw [hostFor, parentMade_with_temp] at htree
  exact ⟨rfl, hf.step hwork htemp hpath htree⟩

/-- **What a sequence of calls leaves behind:** the evaluator as it was, and a host that
follows. -/
theorem after_follows (σ : Session) (s : Settings) (program : Program) (linker : Linker V)
    {calls : List Call} (hremoves : ∀ c ∈ calls, c.temp.Removes) {h : Host}
    (hf : h.Follows s.scratchDir σ.host) :
    (σ.after (s.toolchain program) linker calls).evaluator = σ.evaluator ∧
      h.Follows s.scratchDir (σ.after (s.toolchain program) linker calls).host := by
  induction calls generalizing σ with
  | nil => exact ⟨rfl, hf⟩
  | cons c rest ih =>
    obtain ⟨hevaluator, hnext⟩ := σ.call_follows s program linker (hremoves c List.mem_cons_self) hf
    obtain ⟨hafter, hfollows⟩ := ih (σ.call (s.toolchain program) linker c).2
      (fun b hb => hremoves b (List.mem_cons_of_mem _ hb)) hnext
    exact ⟨hafter.trans hevaluator, hfollows⟩

/-- Where the parent of scratch directories cannot be made, there is none. -/
theorem unmade_of_follows {s : Settings} {h h' : Host} (hf : h.Follows s.scratchDir h')
    {e : OsError} (hparent : (h.parentMade s.scratchDir).1 = .error e) (lib : TempLibrary) :
    ∃ words, (Host.makeScratch { h' with temp := lib } s.scratchDir).1 = .error words := by
  obtain ⟨e', he'⟩ := hf.failed e hparent
  have hpair : h'.parentMade s.scratchDir = (.error e', (h'.parentMade s.scratchDir).2) :=
    Prod.ext he' rfl
  rw [Host.makeScratch_eq, parentMade_with_temp, hpair]
  exact ⟨_, rfl⟩

/-- Two hosts that follow one have the same surroundings, if the parent can be made there. -/
theorem alike_of_follows {s : Settings} {h h₁ h₂ : Host} (hf₁ : h.Follows s.scratchDir h₁)
    (hf₂ : h.Follows s.scratchDir h₂) (hok : (h.parentMade s.scratchDir).1 = .ok ())
    {lib₁ lib₂ : TempLibrary} (hfinds₁ : lib₁.Finds (h.parentMade s.scratchDir).2)
    (hfinds₂ : lib₂.Finds (h.parentMade s.scratchDir).2) :
    Host.Alike s.scratchDir { h₁ with temp := lib₁ } { h₂ with temp := lib₂ } := by
  refine ⟨hf₂.workDir.trans hf₁.workDir.symm, hf₂.tempDir.trans hf₁.tempDir.symm,
    hf₂.searchPath.trans hf₁.searchPath.symm, ?_, ?_, ?_⟩
  · rw [parentMade_with_temp h₁, parentMade_with_temp h₂, hf₁.made hok, hf₂.made hok]
  · rw [parentMade_with_temp, hf₁.made hok]
    exact hfinds₁
  · rw [parentMade_with_temp, hf₁.made hok]
    exact hfinds₂

/-- There can be a scratch directory on both of two such hosts, or on neither. -/
theorem unmade_iff_of_follows {s : Settings} {h h₁ h₂ : Host} (hf₁ : h.Follows s.scratchDir h₁)
    (hf₂ : h.Follows s.scratchDir h₂) {lib₁ lib₂ : TempLibrary}
    (hfinds₁ : lib₁.Finds (h.parentMade s.scratchDir).2)
    (hfinds₂ : lib₂.Finds (h.parentMade s.scratchDir).2) :
    (∃ words, (Host.makeScratch { h₂ with temp := lib₂ } s.scratchDir).1 = .error words) ↔
      ∃ words, (Host.makeScratch { h₁ with temp := lib₁ } s.scratchDir).1 = .error words := by
  cases hparent : (h.parentMade s.scratchDir).1 with
  | error e =>
    exact iff_of_true (unmade_of_follows hf₂ hparent _) (unmade_of_follows hf₁ hparent _)
  | ok u => exact (alike_of_follows hf₁ hf₂ hparent hfinds₁ hfinds₂).unmade_iff

/-- **When a call in a sequence ends as it does alone,** wherever the numbers start, whatever came
of the calls before it, and whatever is drawn for temporary names. Where there can be a scratch
directory, and the program is not looked for in it, the results are one exactly if the compiler
overruns in both runs or in neither; which is then what is reported. Where there can be none, both
fail for it, in the words of the system. The evaluator stays what it was. -/
theorem call_independent {program : Program} (hanon : Program.Anonymous program) (ev : Evaluator)
    (s : Settings) (linker : Linker V) (h : Host) (first alone : UInt64) {before : List Call}
    (hbefore : ∀ b ∈ before, b.temp.Removes) {c : Call} (hremoves : c.temp.Removes)
    (hfinds : c.temp.Finds (h.parentMade s.scratchDir).2) {lib : TempLibrary}
    (hremoves' : lib.Removes) (hfinds' : lib.Finds (h.parentMade s.scratchDir).2) :
    let late := (numbered ev h first).after (s.toolchain program) linker before
    let single := numbered ev h alone
    let c' : Call := { c with temp := lib }
    let here := late.call (s.toolchain program) linker c
    let there := single.call (s.toolchain program) linker c'
    let overruns := late.host.Overran program here.2.host
    let overruns' := single.host.Overran program there.2.host
    let made := ∃ found, ((single.hostFor c').makeScratch s.scratchDir).1 = .ok found
    let tooLong : Except EvalError V := .error (.toolchain (.io OsError.nameTooLong.text))
    (late.evaluator = ev ∧ here.2.evaluator = ev) ∧
    (made → ¬ (late.hostFor c).Crosses s → ¬ (single.hostFor c').Crosses s →
      ((overruns ↔ overruns') → SameResult here.1 there.1) ∧
      (ev.Stages s (single.hostFor c') → (here.1 = there.1 ↔ (overruns ↔ overruns')))) ∧
    (overruns → here.1 = tooLong) ∧ (overruns' → there.1 = tooLong) ∧
    (¬ made → (∃ words, here.1 = .error (.toolchain (.io words))) ∧
      ∃ words, there.1 = .error (.toolchain (.io words))) := by
  intro late single c' here there overruns overruns' made tooLong
  have hsingle := Host.follows_nextUnit s.scratchDir h alone h.temp
  obtain ⟨hevaluator, hlate⟩ := (numbered ev h first).after_follows s program linker hbefore
    (Host.follows_nextUnit s.scratchDir h first h.temp)
  have hlateEv : late.evaluator = ev := hevaluator
  have hhere : late.evaluator.evaluate (s.toolchain program) linker c.type c.expression
      (late.hostFor c) = ev.evaluate (s.toolchain program) linker c.type c.expression
      (late.hostFor c) := by rw [hlateEv]
  have hresult : here.1 = (ev.evaluate (s.toolchain program) linker c.type c.expression
      (late.hostFor c)).1 := congrArg Prod.fst hhere
  have hovers : overruns ↔ (late.hostFor c).Overran program
      (late.evaluator.evaluate (s.toolchain program) linker c.type c.expression
        (late.hostFor c)).2 := Iff.rfl
  rw [hhere] at hovers
  refine ⟨⟨hlateEv, hlateEv⟩, ?_, ?_, evaluate_of_overran, ?_⟩
  · rintro ⟨found, hfound⟩ hcross hcross'
    cases hparent : (h.parentMade s.scratchDir).1 with
    | error e =>
      obtain ⟨words, hwords⟩ := unmade_of_follows hsingle hparent lib
      cases hfound.symm.trans hwords
    | ok u =>
      rw [hresult, hovers]
      exact evaluate_congr hanon linker (alike_of_follows hsingle hlate hparent hfinds' hfinds)
        hremoves' hremoves ⟨found, hfound⟩ hcross' hcross
  · intro hover
    rw [hresult]
    exact evaluate_of_overran (hovers.1 hover)
  · intro hunmade
    have hsingleWords : ∃ words,
        ((single.hostFor c').makeScratch s.scratchDir).1 = .error words := by
      cases hmake : ((single.hostFor c').makeScratch s.scratchDir).1 with
      | ok found => exact absurd ⟨found, hmake⟩ hunmade
      | error words => exact ⟨words, rfl⟩
    obtain ⟨words, hwords⟩ := (unmade_iff_of_follows hsingle hlate hfinds' hfinds).2 hsingleWords
    obtain ⟨words', hwords'⟩ := hsingleWords
    rw [hresult]
    exact ⟨⟨words, evaluate_of_unmade hwords program linker⟩,
      words', evaluate_of_unmade hwords' program linker⟩

/-! ## What the system can do to a sequence -/

/-- A call of which nothing but the number of its request is at stake. -/
def one : Call := ⟨.atom .i64, "1", .numbered⟩

/-- A compiler that succeeds and leaves the source it was given for a library. -/
def echo : Program := fun l => ⟨[], [], .ofCode 0, l.source.map (.file · false)⟩

theorem numbered_deepHost (k : Nat) (n : UInt64) :
    numbered bare (deepHost k 0 []) n = ⟨bare, deepHost k n []⟩ := rfl

theorem hostFor_one (k : Nat) (n : UInt64) (launches : List Launch) :
    hostFor ⟨bare, deepHost k n launches⟩ one = deepHost k n launches := rfl

/-- There the program is not looked for by way of the scratch directory. -/
theorem not_crosses_deepHost (k : Nat) (n : UInt64) (launches : List Launch) :
    ¬ (deepHost k n launches).Crosses stock := by
  have hfront : ∀ p ∈ [(⟨"/opt/rustc"⟩ : Path), ⟨"/bin/rustc"⟩],
      ∀ name ∈ FileTree.pieces ⟨"/"⟩ p, ¬ Utf8.bytes TempKind.scratch.front <+: name := by
    decide +kernel
  exact Host.not_crosses_of_front hfront

/-- The session after a call. -/
theorem snd_call_deepHost {k : Nat} (n : UInt64) (launches : List Launch) (hpos : 0 < k)
    (hle : k + 22 ≤ FileTree.pathLimit) (program : Program) (linker : Linker V) :
    ∃ l, (call ⟨bare, deepHost k n launches⟩ (stock.toolchain program) linker one).2 =
      ⟨bare, deepHost k (n + 1) (launches ++ [l])⟩ := by
  obtain ⟨l, hstart⟩ := exists_start_deepHost n launches hpos hle passesOn_bare "1"
  obtain ⟨tree, hafter, htree⟩ := bare.snd_evaluate_eq stock program linker (.atom .i64) "1"
    (deepHost k n launches)
  rw [hstart, htree TempLibrary.removes_numbered] at hafter
  exact ⟨l, congrArg (Session.mk bare) hafter⟩

/-- What comes of the source that is left for a library. -/
theorem call_echo {k : Nat} (n : UInt64) (launches : List Launch) (hpos : 0 < k)
    (hle : k + 47 + (Nat.toDigits 10 n.toNat).length ≤ FileTree.pathLimit) :
    let out := call ⟨bare, deepHost k n launches⟩ (stock.toolchain echo) linking one
    ¬ (deepHost k n launches).Overran echo out.2.host ∧ out.1 = .ok 1 := by
  intro out
  obtain ⟨l, hstart⟩ := exists_start_deepHost n launches hpos (by omega) passesOn_bare "1"
  have hcheck := (Settings.library_of_start_eq_ok hstart).2
  have hlen := (length_deepLibrary n hpos (by omega) bare "1").2
  have hshort : ¬ FileTree.pathLimit < (Utf8.bytes (deepLibrary k n bare "1").text).length := by
    omega
  rw [if_neg hshort] at hcheck
  have hok : (echo l).status.isSuccess = true :=
    (ExitStatus.isSuccess_ofCode 0).2 rfl
  have hleft : (echo l).artifact = some (.file _ false) :=
    congrArg (Option.map (Entry.file · false)) (Settings.source_of_start_eq_ok hstart)
  have hnot := mt (overran_iff_of_start hstart echo linking).1 (fun h => hshort h.2)
  have hvalue : (bare.evaluate (stock.toolchain echo) linking (.atom .i64) "1"
      (deepHost k n launches)).1 = .ok 1 :=
    evaluate_of_left rfl rfl hstart hcheck hok hleft TempLibrary.removes_numbered
      (finds_deepHost k n launches) linking
  simp only [out, fst_call, snd_call, hostFor_one]
  exact ⟨hnot, hvalue⟩

/-- Such a compiler does not look at names, so its second call ends as it would have ended with
another number. -/
theorem call_independent_echo :
    let toolchain := stock.toolchain echo
    let second := (numbered bare (deepHost 1 0 []) 0).after toolchain linking [one]
    let single := numbered bare (deepHost 1 0 []) 7
    Program.Anonymous echo ∧
    ¬ second.host.Overran echo (second.call toolchain linking one).2.host ∧
    ¬ single.host.Overran echo (single.call toolchain linking one).2.host ∧
    (second.call toolchain linking one).1 = (single.call toolchain linking one).1 ∧
    (second.call toolchain linking one).1 = .ok 1 := by
  intro toolchain second single
  have hanon : Program.Anonymous echo := by
    intro l l' hsource hargs
    unfold echo
    rw [hsource]
  obtain ⟨l, hfirst⟩ := snd_call_deepHost 0 [] (by decide) (by decide : 1 + 22 ≤ _) echo linking
  have hsecond : second = ⟨bare, deepHost 1 1 [l]⟩ := hfirst
  have hfinds := finds_deepHost 1 0 []
  have hbefore : ∀ b ∈ [one], b.temp.Removes := by simp [one, TempLibrary.removes_numbered]
  obtain ⟨-, hends, -⟩ := call_independent hanon bare stock linking (deepHost 1 0 []) 0 7 hbefore
    (c := one) TempLibrary.removes_numbered hfinds TempLibrary.removes_numbered hfinds
  obtain ⟨hnot, hvalue⟩ := call_echo 1 [l] (by decide) (by decide : 1 + 47 + _ ≤ _)
  obtain ⟨hnot', -⟩ := call_echo 7 [] (by decide) (by decide : 1 + 47 + _ ≤ _)
  have hcross : ¬ (second.hostFor one).Crosses stock := by
    rw [hsecond]
    exact not_crosses_deepHost 1 1 [l]
  have hover : ¬ second.host.Overran echo (second.call toolchain linking one).2.host := by
    rw [hsecond]
    exact hnot
  have hmake := congrArg Prod.fst (makeScratch_deepHost (k := 1) 7 [] (by decide) (by decide))
  have hmade : ∃ found, ((single.hostFor one).makeScratch stock.scratchDir).1 = .ok found :=
    ⟨_, hmake⟩
  refine ⟨hanon, hover, hnot', ?_, ?_⟩
  · exact ((hends hmade hcross (not_crosses_deepHost 1 7 [])).2
      (Or.inl rfl)).2 (iff_of_false hover hnot')
  · rw [hsecond]
    exact hvalue

/-- The files of a host with one file and no compiler. -/
def fileTree : FileTree := ⟨[([Utf8.bytes "f"], .file [] false)]⟩

/-- Scratch directories are to lie below the file, by way of a directory that is not there. -/
def detour : Settings := { stock with scratchDir := some ⟨"new/../f/x"⟩ }

/-- On the way to the file that stands in its place a directory is made, and stays. -/
theorem createDirs_detour : fileTree.createDirs ⟨"/"⟩ ⟨"new/../f/x"⟩ =
    (.error .alreadyExists, fileTree.insert [Utf8.bytes "new"] .directory) := rfl

/-- Once that directory is there, the file is met earlier. -/
theorem createDirs_detour_again :
    ((fileTree.insert [Utf8.bytes "new"] .directory).createDirs ⟨"/"⟩ ⟨"new/../f/x"⟩).1 =
      .error .notDirectory := rfl

theorem parentMade_detour (h : Host) : h.parentMade detour.scratchDir =
    h.tree.createDirs h.workDir ⟨"new/../f/x"⟩ := rfl

/-- Where scratch directories cannot go, the words are those for their parent. -/
theorem fst_call_detour (σ : Session) {e : OsError} (program : Program) (linker : Linker V)
    (hcreate : (σ.host.tree.createDirs σ.host.workDir ⟨"new/../f/x"⟩).1 = .error e) :
    (σ.call (detour.toolchain program) linker one).1 = .error (.toolchain (.io e.text)) := by
  have hpair : σ.host.tree.createDirs σ.host.workDir ⟨"new/../f/x"⟩ =
      (.error e, (σ.host.tree.createDirs σ.host.workDir ⟨"new/../f/x"⟩).2) := Prod.ext hcreate rfl
  have hunmade : ((σ.hostFor one).makeScratch detour.scratchDir).1 = .error e.text := by
    rw [Host.makeScratch_eq, hostFor, parentMade_with_temp, parentMade_detour, hpair]
  rw [fst_call]
  exact evaluate_of_unmade hunmade program linker

/-- And what is left are the directories on the way. -/
theorem snd_call_detour (σ : Session) (program : Program) (linker : Linker V) :
    (σ.call (detour.toolchain program) linker one).2.host.tree.createDirs
        (σ.call (detour.toolchain program) linker one).2.host.workDir ⟨"new/../f/x"⟩ =
      (σ.host.tree.createDirs σ.host.workDir ⟨"new/../f/x"⟩).2.createDirs σ.host.workDir
        ⟨"new/../f/x"⟩ := by
  have hremoves : (σ.hostFor one).temp.Removes := TempLibrary.removes_numbered
  obtain ⟨hwork, -, -, htree⟩ := evaluate_surroundings σ.evaluator detour program linker one.type
    one.expression hremoves
  rw [workDir_hostFor] at hwork
  rw [hostFor, parentMade_with_temp, parentMade_detour] at htree
  simp only [snd_call]
  rw [hwork, hostFor, htree]

/-- **The system can come between calls in two ways.** What a failure leaves behind can change
the words of the next one, and a number with more digits can make a path too long. -/
theorem call_depends :
    let first : Session :=
      ⟨bare, ⟨fileTree, ⟨"/"⟩, ⟨"/"⟩, [⟨"/bin"⟩], fun _ => none, .numbered, 0, 0, []⟩⟩
    Program.Anonymous idle ∧
    (first.call (detour.toolchain idle) linking one).1 =
      .error (.toolchain (.io "File exists (os error 17)")) ∧
    ((first.after (detour.toolchain idle) linking [one]).call (detour.toolchain idle) linking
      one).1 = .error (.toolchain (.io "Not a directory (os error 20)")) ∧
    ((numbered bare (deepHost 4040 0 []) 0).call (stock.toolchain idle) linking one).1 =
      .error .missingImage ∧
    ((numbered bare (deepHost 4040 0 []) 18446744073709551615).call (stock.toolchain idle) linking
      one).1 = .error (.toolchain (.io "File name too long (os error 36)")) := by
  intro first
  refine ⟨fun _ _ _ _ => rfl, ?_, ?_, ?_, ?_⟩
  · exact fst_call_detour first (e := .alreadyExists) idle linking
      (congrArg Prod.fst createDirs_detour)
  · have hleft := snd_call_detour first idle linking
    have hfirst : first.host.tree.createDirs first.host.workDir ⟨"new/../f/x"⟩ = _ :=
      createDirs_detour
    rw [hfirst] at hleft
    rw [after_singleton]
    refine fst_call_detour _ (e := .notDirectory) idle linking ?_
    rw [hleft]
    exact createDirs_detour_again
  · rw [numbered_deepHost, fst_call, hostFor_one]
    exact (fst_evaluate_deepHost (k := 4040) 0 [] (by decide) (by decide) linking).2 (by decide)
  · rw [numbered_deepHost, fst_call, hostFor_one]
    exact (fst_evaluate_deepHost (k := 4040) 18446744073709551615 [] (by decide) (by decide)
      linking).1 (by decide)

end Session

end Evaluator

end ExprHost
