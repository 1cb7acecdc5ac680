import ExprHost.Proofs.Host.Scratch
import ExprHost.Proofs.Toolchain.UnitNames
import ExprHost.Toolchain.Run

/-!
# Starting the compiler

All that comes before the compiler runs does not depend on what it does, and all that it
does is its reply: a compilation is a start, and what the reply to it amounts to.

* `Settings.start`: what the compiler is given for a request, or why it is not run.
* `Settings.compile_eq`: **a compilation is a start and a reply.**
* `Settings.start_eq_ok_iff`: **when the compiler is run,** and on what.
* `Settings.start_cases`: the two ways a start can end.
* `Settings.library_of_start_eq_ok`: **where the library is to be left.**
* `Settings.exists_imagePlace_of_start`: the library's image can be staged.
* `Settings.source_of_start_eq_ok`: what is read where the source is.
-/

namespace ExprHost.Settings

/-- The host with the source of a request in a scratch directory. -/
def withSource (h : Host) (loc : Location) (r : Request) : Host :=
  { h with
    tree := h.tree.insert (loc ++ [Utf8.bytes "lib.rs"]) (.file (Utf8.bytes r.source) false) }

/-- What the compiler is given for a request in a scratch directory, and where it is to
leave the library; or why it is not run. -/
def startIn (s : Settings) (r : Request) (dir : Path) (loc : Location) (h : Host) :
    Except ToolchainError (Launch × Path) :=
  let source := dir.join "lib.rs"
  match FileTree.checkPath source with
  | .error e => .error (.io e.text)
  | .ok () =>
    match (withSource h loc r).launched (s.command r source dir) with
    | .error e => .error (.spawn s.program.text e.text)
    | .ok l => .ok (l, dir.join (Host.libraryName r.crateName))

/-- **What the compiler is given for a request,** and where it is to leave the library; or
why it is not run. -/
def start (s : Settings) (r : Request) (h : Host) : Except ToolchainError (Launch × Path) :=
  match h.makeScratch s.scratchDir with
  | (.error words, _) => .error (.io words)
  | (.ok (dir, loc), h) => s.startIn r dir loc h

/-- What a start comes to with a compiler: its reply to it. -/
def replied (program : Program) (r : Request) :
    Except ToolchainError (Launch × Path) → Except ToolchainError Compilation
  | .error e => .error e
  | .ok (l, library) =>
    Compilation.ofReply (program l) (Host.libraryLeft library (program l).artifact) r.references

/-- The host after a start, which is recorded if there was a launch. -/
def recorded (h : Host) : Except ToolchainError (Launch × Path) → Host
  | .error _ => h
  | .ok (l, _) => { h with launches := h.launches ++ [l] }

section

variable (h : Host) (started : Except ToolchainError (Launch × Path))

@[simp] theorem tree_recorded : (recorded h started).tree = h.tree := by
  cases started <;> rfl

@[simp] theorem temp_recorded : (recorded h started).temp = h.temp := by
  cases started <;> rfl

theorem recorded_with_tree (tree : FileTree) :
    { recorded h started with tree } = recorded { h with tree } started := by
  cases started <;> rfl

theorem remove_recorded (loc : Location) :
    (recorded h started).remove loc = recorded (h.remove loc) started := by
  cases started <;> rfl

end

/-- The command for a request says where the library is to be left. -/
theorem artifactPath?_command (s : Settings) (r : Request) (source outDir : Path) :
    Host.artifactPath? (s.command r source outDir).args =
      some (outDir.join (Host.libraryName r.crateName)) := by
  simp [Host.artifactPath?, command, fixedArgs, Host.optionValue?, Host.valueOptions]

variable {s : Settings} {r : Request} {h : Host}

theorem compileIn_eq_withSource (program : Program) {dir : Path} (loc : Location)
    (hcheck : FileTree.checkPath (dir.join "lib.rs") = .ok ()) :
    s.compileIn program r dir loc h =
      match (withSource h loc r).run program (s.command r (dir.join "lib.rs") dir) with
      | .error e => (.error (.spawn s.program.text e.text), withSource h loc r)
      | .ok (reply, h) => (Compilation.ofReply reply
          (h.tree.read h.workDir (dir.join (Host.libraryName r.crateName))) r.references, h) := by
  simp only [compileIn, hcheck]
  rewrite [← withSource]
  cases (withSource h loc r).run program (s.command r (dir.join "lib.rs") dir) <;> rfl

theorem compileIn_eq (program : Program) {t : FileTree} {dir : Path} {loc : Location}
    (hs : Host.Scratch t h.workDir dir loc) (htree : h.tree = t.insert loc .directory) :
    (s.compileIn program r dir loc h).1 = replied program r (s.startIn r dir loc h) ∧
      ∃ left, (s.compileIn program r dir loc h).2 =
        recorded { h with tree := left } (s.startIn r dir loc h) ∧ left.erase loc = t := by
  cases hcheck : FileTree.checkPath (dir.join "lib.rs") with
  | error e =>
    -- there is no source: the directory is left empty
    simp only [compileIn, startIn, hcheck]
    refine ⟨rfl, h.tree, rfl, ?_⟩
    rw [htree]
    exact FileTree.erase_insert .directory hs.vacant
  | ok u =>
    have hsource : (withSource h loc r).tree.erase loc = t := by
      rw [withSource, htree]
      exact hs.erase _ _
    have hstart : s.startIn r dir loc h =
        match (withSource h loc r).launched (s.command r (dir.join "lib.rs") dir) with
        | .error e => .error (.spawn s.program.text e.text)
        | .ok l => .ok (l, dir.join (Host.libraryName r.crateName)) := by
      simp only [startIn, hcheck]
    rw [compileIn_eq_withSource program loc hcheck, hstart, Host.run_eq]
    cases (withSource h loc r).launched (s.command r (dir.join "lib.rs") dir) with
    | error e => exact ⟨rfl, _, rfl, hsource⟩
    | ok l =>
      -- next to the source nothing stands under the library's name until the compiler leaves it
      have haw := Host.Scratch.awaits
        (h := { withSource h loc r with launches := h.launches ++ [l] }) hs
        (by rw [withSource, htree]) r.plain_libraryName r.libraryName_ne_source
      have hargs := artifactPath?_command s r (dir.join "lib.rs") dir
      obtain ⟨left, hleft, herase⟩ := Host.exists_withArtifact_eq haw hargs (program l).artifact
      simp only [Except.map, replied, recorded]
      constructor
      · exact congrArg (Compilation.ofReply (program l) · r.references)
          (Host.read_withArtifact haw hargs (program l).artifact)
      · exact ⟨left, hleft, herase.trans hsource⟩

/-- **A compilation is a start and a reply.** Whatever becomes of it, no more than the files are
changed; and once the scratch directory is removed, nothing is left but the directories that lead
to it. -/
theorem compile_eq (s : Settings) (program : Program) (r : Request) (h : Host) :
    ∃ tree, s.compile program r h =
        (replied program r (s.start r h), recorded { h with tree } (s.start r h)) ∧
      (h.temp.Removes → tree = (h.parentMade s.scratchDir).2) := by
  unfold compile start
  rcases h.makeScratch_cases s.scratchDir with ⟨words, hmake⟩ | ⟨dir, loc, hmake, hs⟩
  · rw [hmake]
    exact ⟨_, rfl, fun _ => rfl⟩
  · rw [hmake]
    obtain ⟨hresult, left, hleft, herase⟩ := compileIn_eq (s := s) (r := r) program (h := { h with
      tree := (h.parentMade s.scratchDir).2.insert loc .directory }) hs rfl
    refine ⟨h.temp.remove left loc, Prod.ext hresult ?_, fun hremoves => ?_⟩
    · exact (congrArg (Host.remove · loc) hleft).trans (remove_recorded _ _ loc)
    · rw [hremoves, herase]

/-- **When the compiler is run,** and on what: there is a scratch directory with room for the
source, and the compiler can be launched. -/
theorem start_eq_ok_iff {l : Launch} {p : Path} : s.start r h = .ok (l, p) ↔
    ∃ dir loc h', h.makeScratch s.scratchDir = (.ok (dir, loc), h') ∧
      FileTree.checkPath (dir.join "lib.rs") = .ok () ∧
      (withSource h' loc r).launched (s.command r (dir.join "lib.rs") dir) = .ok l ∧
      p = dir.join (Host.libraryName r.crateName) := by
  unfold start
  constructor
  · intro hstart
    split at hstart
    · cases hstart
    · rename_i dir loc h' hmake
      simp only [startIn] at hstart
      split at hstart
      · cases hstart
      · rename_i hcheck
        split at hstart
        · cases hstart
        · rename_i hlaunched
          cases hstart
          exact ⟨dir, loc, h', hmake, hcheck, hlaunched, rfl⟩
  · rintro ⟨dir, loc, h', hmake, hcheck, hlaunched, rfl⟩
    rw [hmake]
    simp only [startIn, hcheck, hlaunched]

/-- **Of what a compiler does only what it leaves counts for the host.** -/
theorem snd_compile_congr {program program' : Program} (hleft : ∀ l p, s.start r h = .ok (l, p) →
    (program' l).artifact = (program l).artifact) :
    (s.compile program' r h).2 = (s.compile program r h).2 := by
  unfold compile
  rcases hmake : h.makeScratch s.scratchDir with ⟨made, h'⟩
  cases made with
  | error words => rfl
  | ok found =>
    obtain ⟨dir, loc⟩ := found
    refine congrArg (Host.remove · loc) ?_
    cases hcheck : FileTree.checkPath (dir.join "lib.rs") with
    | error e => simp only [compileIn, hcheck]
    | ok u =>
      rw [compileIn_eq_withSource _ loc hcheck, compileIn_eq_withSource _ loc hcheck, Host.run_eq,
        Host.run_eq]
      cases hl : (withSource h' loc r).launched (s.command r (dir.join "lib.rs") dir) with
      | error e => rfl
      | ok l =>
        have hsame := hleft l _ (start_eq_ok_iff.2 ⟨dir, loc, h', hmake, hcheck, hl, rfl⟩)
        simp only [Except.map, hsame]

/-- **The two ways a start can end:** the operating system has a reason why there is none, or
the compiler is given the command for the request in a directory whose path it takes. -/
theorem start_cases (s : Settings) (r : Request) (h : Host) :
    (∃ e, s.start r h = .error e ∧ e.source?.isSome = true) ∨
    ∃ l dir, s.start r h = .ok (l, dir.join (Host.libraryName r.crateName)) ∧
      l.args = (s.command r (dir.join "lib.rs") dir).args ∧ FileTree.checkPath dir = .ok () := by
  cases hstart : s.start r h with
  | error e =>
    refine Or.inl ⟨e, rfl, ?_⟩
    unfold start at hstart
    split at hstart
    · cases hstart
      rfl
    · simp only [startIn] at hstart
      split at hstart
      · cases hstart
        rfl
      · split at hstart
        · cases hstart
          rfl
        · cases hstart
  | ok started =>
    obtain ⟨l, p⟩ := started
    obtain ⟨dir, loc, h', hmake, -, hl, rfl⟩ := start_eq_ok_iff.1 hstart
    obtain ⟨-, hentry, -⟩ := Host.makeScratch_eq_ok_iff.1 hmake
    obtain ⟨-, -, -, -, -, -, hdir⟩ := FileTree.tempEntry_eq_ok_iff.1 hentry
    exact Or.inr ⟨l, dir, rfl, Host.args_of_launched hl, hdir⟩

/-- A start that fails has words of the operating system to show for it. -/
theorem source?_of_start_eq_error {e : ToolchainError} (hstart : s.start r h = .error e) :
    e.source?.isSome = true := by
  rcases s.start_cases r h with ⟨e', he, hsource⟩ | ⟨l, dir, hok, -⟩
  · obtain rfl := Except.error.inj (hstart.symm.trans he)
    exact hsource
  · cases hstart.symm.trans hok

/-- **Where a compiler that runs is to leave its library:** under a path that its arguments
spell, which the system takes unless it is too long. -/
theorem library_of_start_eq_ok {l : Launch} {p : Path} (hstart : s.start r h = .ok (l, p)) :
    Host.artifactPath? l.args = some p ∧
      FileTree.checkPath p = if FileTree.pathLimit < (Utf8.bytes p.text).length then
        .error .nameTooLong else .ok () := by
  rcases s.start_cases r h with ⟨e, he, -⟩ | ⟨l', dir, hok, hargs, hdir⟩
  · cases hstart.symm.trans he
  · obtain ⟨rfl, rfl⟩ := Prod.mk.inj (Except.ok.inj (hstart.symm.trans hok))
    refine ⟨?_, FileTree.checkPath_join hdir (r.not_mem_libraryName (by decide) (by decide))⟩
    rw [hargs]
    exact artifactPath?_command s r _ _

/-- **Where a library can be left its image can be staged,** in the directory that the scratch
directory was made in. -/
theorem exists_imagePlace_of_start {l : Launch} {p : Path} (hstart : s.start r h = .ok (l, p))
    (hcheck : FileTree.checkPath p = .ok ())
    (hfinds : h.temp.Finds (h.parentMade s.scratchDir).2) :
    ∃ found, (h.parentMade s.scratchDir).2.tempEntry h.temp h.workDir
      (s.scratchDir.getD h.tempDir) .image = .ok found := by
  obtain ⟨dir, loc, h', hmake, -, -, rfl⟩ := start_eq_ok_iff.1 hstart
  obtain ⟨-, hentry, -⟩ := Host.makeScratch_eq_ok_iff.1 hmake
  have hlong := r.length_libraryName
  exact FileTree.exists_tempEntry_image hentry hcheck (by omega) hfinds

/-- What is read where the source is: the source. -/
theorem source_of_start_eq_ok {l : Launch} {p : Path} (hstart : s.start r h = .ok (l, p)) :
    l.source = some (Utf8.bytes r.source) := by
  obtain ⟨dir, loc, h', hmake, hcheck, hl, -⟩ := start_eq_ok_iff.1 hstart
  obtain ⟨-, hentry, rfl⟩ := Host.makeScratch_eq_ok_iff.1 hmake
  have hs := Host.scratch_of_tempEntry hentry
  have hplain : FileTree.Plain "lib.rs" :=
    FileTree.plain_of_length (by decide) (by decide) (by decide +kernel)
  have hempty := hs.vacant.entry? hs.below
  have hdir := FileTree.entry?_insert_self (e := Entry.directory) hs.below hempty
  have hvacant := (hs.vacant.append [Utf8.bytes "lib.rs"]).insert
    (FileTree.not_isPrefixOf_parent loc _) .directory
  have hfree := hvacant.entry? (Host.artifact_loc_ne_nil loc _)
  have hleads := FileTree.locate_join hs.leads hdir hplain
  rw [hcheck] at hleads
  have hstays := FileTree.locate_mono (FileTree.dirsIn_insert _ (loc ++ [Utf8.bytes "lib.rs"])
    (.file (Utf8.bytes r.source) false)) hleads
  have hself := FileTree.entry?_insert_self (e := .file (Utf8.bytes r.source) false)
    (Host.artifact_loc_ne_nil loc _) hfree
  have hread := FileTree.read_of_locate hstays
  rw [hself] at hread
  obtain ⟨-, rfl⟩ := Host.launched_eq_ok_iff.1 hl
  have hlast : (s.command r (dir.join "lib.rs") dir).args.getLast? =
      some (dir.join "lib.rs").text := by
    rw [command, List.getLast?_concat]
  unfold Host.launch
  simp only [hlast, Option.map_some, Option.bind_some]
  exact congrArg Except.toOption hread

end ExprHost.Settings
