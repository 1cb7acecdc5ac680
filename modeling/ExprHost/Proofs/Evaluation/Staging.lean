import ExprHost.Proofs.Evaluation.TwoHosts
import ExprHost.Proofs.Host.OnTheWay
import ExprHost.Proofs.Reference.HostTypes

/-!
# Where images are staged

Images are staged in the directory that scratch directories are made in, and loading relies on
the compiler having made it. Once an evaluation is over, scratch directory and image are gone if
temporary entries are removed, and what is left are the directories that had to be made to get
there.

* `Evaluator.unmade_or_place`: there is no scratch directory, or there is a place for an image.
* `Evaluator.evaluate_staging`: **staging never fails, and leaves no trace.**
* `Evaluator.evaluate_leaves_new`: a directory that stays in the scratch directory itself.
-/

namespace ExprHost.Evaluator

variable {V : Type} {ev : Evaluator} {linker : Linker V} {h : Host}

/-- An image fails to be staged only if there is no place for it. -/
theorem valueOf_ne_cannotStage {image : Image} {found : Path × Location}
    (hplace : h.tree.tempEntry h.temp h.workDir (ev.stagingDir.getD h.tempDir) .image = .ok found)
    (words : String) : (ev.valueOf linker image h).1 ≠ .error (.load (.cannotStage words)) := by
  rw [fst_valueOf]
  cases image.dependencies with
  | cons name rest => simp
  | nil =>
    simp only [hplace]
    cases linker image.bytes with
    | error os => simp
    | ok library => exact extract_ne_load library _

/-- What stands at the library's path can be staged, if there is a place for it. -/
theorem verdict_ne_cannotStage {library : Path} {reply : Reply}
    (hplace : FileTree.checkPath library = .ok () → ∃ found,
      h.tree.tempEntry h.temp h.workDir (ev.stagingDir.getD h.tempDir) .image = .ok found)
    (words : String) :
    (ev.verdict linker library reply h).1 ≠ .error (.load (.cannotStage words)) := by
  cases hstatus : reply.status.isSuccess with
  | false => rw [verdict_failure hstatus]; cases reply.failure.firstError? <;> simp
  | true =>
    rw [verdict_success hstatus]
    split
    · next bytes hleft =>
      -- a library that was read has a path that the system takes
      cases hcheck : FileTree.checkPath library with
      | error e => simp [Host.libraryLeft, hcheck] at hleft
      | ok u =>
        obtain ⟨found, hfound⟩ := hplace hcheck
        exact valueOf_ne_cannotStage hfound words
    · simp
    · simp

/-! ## Whole evaluations -/

section Staging

variable {s : Settings}

/-- **Either there is no scratch directory, or there is a place to stage an image.** In the first
case that is what is reported; in the second the place is in the directory that the scratch
directory was made in, which is still there when the compiler has run. -/
theorem unmade_or_place (hstaging : ev.stagingDir = s.scratchDir) (program : Program)
    (linker : Linker V) (t : HostType) (expression : String) (hremoves : h.temp.Removes) :
    let out := ev.evaluate (s.toolchain program) linker t expression h
    let after := ev.compiled s program t expression h
    (∃ words, (h.makeScratch s.scratchDir).1 = .error words ∧
        out.1 = .error (.toolchain (.io words))) ∨
      (∃ loc, after.tree.find after.workDir
        (after.workDir.absolute (ev.stagingDir.getD after.tempDir)) = .ok (loc, .directory)) ∧
      (h.temp.Finds (h.parentMade s.scratchDir).2 →
        ∀ words, out.1 ≠ .error (.load (.cannotStage words))) := by
  intro out after
  cases hmake : (h.makeScratch s.scratchDir).1 with
  | error words => exact Or.inl ⟨words, rfl, evaluate_of_unmade hmake program linker⟩
  | ok found =>
    obtain ⟨dir, loc⟩ := found
    obtain ⟨-, hentry, -⟩ := Host.makeScratch_eq_ok_iff.1 (Prod.ext hmake rfl)
    obtain ⟨parent, drawn, hfind, -⟩ := FileTree.tempEntry_eq_ok_iff.1 hentry
    have hafter : after.tree = (h.parentMade s.scratchDir).2 ∧ after.workDir = h.workDir ∧
        after.tempDir = h.tempDir := by
      rw [show after = _ from compiled_of_removes hremoves]
      cases ev.start s t expression h <;> exact ⟨rfl, rfl, rfl⟩
    refine Or.inr ⟨⟨parent, ?_⟩, fun hfinds words => ?_⟩
    · rw [hafter.1, hafter.2.1, hafter.2.2, hstaging]
      exact hfind
    · cases hstart : ev.start s t expression h with
      | error e =>
        rw [show out.1 = _ from evaluate_of_start_error hstart program linker]
        simp
      | ok started =>
        rw [show out = _ from evaluate_of_start hstart program linker]
        refine verdict_ne_cannotStage (fun hcheck => ?_) words
        obtain ⟨place, hplace⟩ := exists_place_of_start hstaging hstart hcheck hfinds
        exact ⟨place, (ev.tempEntry_compiled s program t expression hremoves _ _).trans hplace⟩

/-- **Images are staged where scratch directories go, and nothing of either stays.** Where names
are found for temporary entries and these are removed when they are given up, staging does not
fail: the compiler has made the directory, or could not, which is then what is reported. Afterwards
the files are as they were but for the directories on the way to the scratch directory. Of these
there are none if it was there, and what its path does not leave by a `..` does not lie in it. -/
theorem evaluate_staging {types : List TypeDesc} {usings : List String} {program : Program}
    {cache : FoundationCache} {h₀ : Host}
    (hev : (withSettings types usings s program cache h₀).1 = .ok ev) (linker : Linker V)
    (t : HostType) (expression : String) (hremoves : h.temp.Removes)
    (hfinds : h.temp.Finds (h.parentMade s.scratchDir).2) :
    let compiled := (s.toolchain program).compile (ev.request t expression h).1
      (ev.request t expression h).2
    let out := ev.evaluate (s.toolchain program) linker t expression h
    (∀ words, out.1 ≠ .error (.load (.cannotStage words))) ∧
    ev.stagingDir = s.scratchDir ∧
    ((∃ words, (h.makeScratch s.scratchDir).1 = .error words ∧
        out.1 = .error (.toolchain (.io words))) ∨
      ∃ loc, compiled.2.tree.find compiled.2.workDir (compiled.2.workDir.absolute
        (ev.stagingDir.getD compiled.2.tempDir)) = .ok (loc, .directory)) ∧
    (s.scratchDir = none → out.2.tree = h.tree) ∧
    ∀ dir, s.scratchDir = some dir →
      (h.tree.leadsToDir h.workDir dir = true → out.2.tree = h.tree) ∧
      ∃ made, out.2.tree = h.tree.withDirs made ∧
        (∀ m ∈ made, out.2.tree.OnTheWay h.workDir dir m) ∧
        ∀ loc, out.2.tree.locate h.workDir dir = .ok loc →
          ∃ new, out.2.tree.children loc = h.tree.children loc ++ new ∧
            (∀ name ∈ new, out.2.tree.LeftAgain h.workDir dir (loc ++ [name])) ∧
            (.up ∉ dir.components → new = []) := by
  intro compiled out
  have hstaging := stagingDir_of_withSettings hev
  have htree : out.2.tree = (h.parentMade s.scratchDir).2 :=
    (evaluate_surroundings ev s program linker t expression hremoves).2.2.2
  have hends := unmade_or_place hstaging program linker t expression hremoves
  refine ⟨?_, hstaging, hends.imp_right And.left, fun hnone => ?_, fun dir hsome => ⟨?_, ?_⟩⟩
  · rcases hends with ⟨words', -, hout⟩ | ⟨-, hstaged⟩
    · intro words
      rw [show out.1 = _ from hout]
      simp
    · exact hstaged hfinds
  · rw [htree, hnone]
    rfl
  · intro hthere
    rw [htree, hsome, Host.parentMade, FileTree.createDirs_of_leadsToDir hthere]
  · rw [htree, hsome, Host.parentMade]
    obtain ⟨made, hmade, hon, hchildren⟩ := h.tree.children_createDirs h.workDir dir
    rw [hmade]
    exact ⟨made, rfl, hon, hchildren⟩

end Staging

/-! ## Directories that are made -/

/-- The files of a host with a compiler and an empty directory. -/
def emptyDirTree : FileTree := ⟨([Utf8.bytes "s"], .directory) :: bareTree.entries⟩

/-- A host with a compiler and an empty directory. -/
def emptyDirHost (n : UInt64) : Host :=
  ⟨emptyDirTree, ⟨"/"⟩, ⟨"/"⟩, [⟨"/opt"⟩, ⟨"/bin"⟩], fun _ => none, .numbered, n, 0, []⟩

/-- Scratch directories and images are to go to a directory. -/
def worksIn (dir : Path) : Settings := { stock with scratchDir := some dir }

/-- Once the foundation is known there is an evaluator of no types, which links nothing else. -/
theorem exists_withSettings (s : Settings) (program : Program) (h : Host) :
    ∃ ev, (withSettings [] [] s program (some .sample) h).1 = .ok ev ∧ PassesOn ev ∧
      ev.references.dynamicNames = [] := by
  have hresolve := References.resolve_of_foundational Foundation.inDirectory_sample
    (References.onlyFoundational_hostTypes []) (h.listing Foundation.sample.libdir)
  obtain ⟨hexplicit, hdirs, hdeps⟩ := References.foundational_asks_nothing
    ⟨"sysroot/libcore-1a.rlib"⟩ ⟨"sysroot/libstd-2b.rlib"⟩
  rw [List.map_nil] at hresolve
  refine ⟨⟨⟨Foundation.sample.crates⟩, .ofUsings [], s.scratchDir⟩, ?_, ?_, hdeps⟩
  · simp only [withSettings, create, hresolve]
  · have hnone : PassesOn ⟨⟨Foundation.sample.crates⟩, .ofUsings [], s.scratchDir⟩ ↔
        ∀ arg ∈ ([] : List String), Host.Passable arg := by
      rw [PassesOn, show References.explicit ⟨Foundation.sample.crates⟩ = [] from hexplicit,
        show References.libraryDirs ⟨Foundation.sample.crates⟩ = [] from hdirs]
      rfl
    exact hnone.2 fun arg harg => by cases harg

theorem createDirs_inside : emptyDirTree.createDirs ⟨"/"⟩ ⟨"/s/w"⟩ =
    (.ok (), emptyDirTree.withDirs [[Utf8.bytes "s", Utf8.bytes "w"]]) := rfl

theorem createDirs_outside : emptyDirTree.createDirs ⟨"/"⟩ ⟨"/s/new/.."⟩ =
    (.ok (), emptyDirTree.withDirs [[Utf8.bytes "s", Utf8.bytes "new"]]) := rfl

/-- The scratch directory in a directory that is made for it. -/
def insideDir : Path := ⟨"/s/w/exprbox-000000"⟩

/-- Its location. -/
def insideLoc : Location :=
  [Utf8.bytes "s", Utf8.bytes "w", Utf8.bytes (TempKind.scratch.name zeros)]

/-- The files once its parent is there. -/
def insideTree : FileTree := emptyDirTree.withDirs [[Utf8.bytes "s", Utf8.bytes "w"]]

/-- Names for temporary entries are found among them. -/
theorem finds_inside : TempLibrary.numbered.Finds
    ((emptyDirHost 0).parentMade (worksIn ⟨"/s/w"⟩).scratchDir).2 :=
  TempLibrary.finds_numbered (by decide : insideTree.entries.length < 1000000)

theorem makeScratch_inside (n : UInt64) : (emptyDirHost n).makeScratch (some ⟨"/s/w"⟩) =
    (.ok (insideDir, insideLoc),
      { emptyDirHost n with tree := insideTree.insert insideLoc .directory }) := by
  have hparent : (emptyDirHost n).parentMade (some ⟨"/s/w"⟩) = (.ok (), insideTree) :=
    createDirs_inside
  have hfind : insideTree.find ⟨"/"⟩ ((⟨"/"⟩ : Path).absolute ⟨"/s/w"⟩) =
      .ok ([Utf8.bytes "s", Utf8.bytes "w"], .directory) := rfl
  have hdraw : TempLibrary.numbered.draw insideTree ⟨"/"⟩ ⟨"/s/w"⟩ .scratch = some zeros := by
    decide +kernel
  have hentry : insideTree.tempEntry .numbered ⟨"/"⟩ ⟨"/s/w"⟩ .scratch =
      .ok (insideDir, insideLoc) :=
    FileTree.tempEntry_eq_ok_iff.2 ⟨_, zeros, hfind, hdraw, rfl, rfl, rfl⟩
  rw [Host.makeScratch_eq_ok_iff, hparent]
  exact ⟨rfl, hentry, rfl⟩

/-- The compiler runs there, and can leave its library. -/
theorem exists_start_inside (hrefs : PassesOn ev) (expression : String) :
    ∃ l library, ev.start (worksIn ⟨"/s/w"⟩) (.atom .i64) expression (emptyDirHost 0) =
      .ok (l, library) ∧ FileTree.checkPath library = .ok () := by
  have hpieces : Utf8.bytes (TempKind.scratch.name zeros) ∉
      FileTree.pieces ⟨"/"⟩ ⟨"/opt/rustc"⟩ := by decide +kernel
  have hbin : insideTree.find ⟨"/"⟩ ⟨"/bin/rustc"⟩ =
      .ok ([Utf8.bytes "bin", Utf8.bytes "rustc"], .file [] true) := rfl
  have hfound := startable_withSource_rustc (emptyDirHost 1) insideTree insideLoc rfl rfl hbin
    (by simp [insideLoc]) hpieces
  have hroom : FileTree.checkPath (insideDir.join "lib.rs") = .ok () := rfl
  obtain ⟨l, hstart⟩ := exists_start_of_found _ (.atom .i64) expression (emptyDirHost 0)
    (makeScratch_inside 1) hroom hfound hrefs
  obtain ⟨r, hr⟩ : ∃ r, r = (ev.request (.atom .i64) expression (emptyDirHost 0)).1 := ⟨_, rfl⟩
  rw [← hr] at hstart
  have hcheck := (Settings.library_of_start_eq_ok hstart).2
  have hdir : (Utf8.bytes insideDir.text).length = 19 := by decide +kernel
  have hname := r.plain_libraryName.short
  have hlen := (Path.length_join (by decide : insideDir.text ≠ "") (Host.libraryName r.crateName)).2
  rw [FileTree.nameLimit] at hname
  rw [FileTree.pathLimit, if_neg (by omega)] at hcheck
  exact ⟨l, _, hstart, hcheck⟩

/-- What is left there is loaded. -/
theorem fst_evaluate_inside (hstaging : ev.stagingDir = some ⟨"/s/w"⟩)
    (hdeps : ev.references.dynamicNames = []) (hrefs : PassesOn ev) (content : Bytes) :
    (ev.evaluate ((worksIn ⟨"/s/w"⟩).toolchain (leaving content)) linking (.atom .i64) "1"
      (emptyDirHost 0)).1 = .ok 1 := by
  obtain ⟨l, library, hstart, hcheck⟩ := exists_start_inside hrefs "1"
  exact evaluate_of_left hstaging hdeps hstart hcheck (isSuccess_leaving content l) rfl
    TempLibrary.removes_numbered finds_inside linking

/-- What is left of an evaluation are the directories on the way. -/
theorem snd_evaluate_emptyDirHost (ev : Evaluator) (dir : Path) (program : Program)
    (linker : Linker V) :
    let out := ev.evaluate ((worksIn dir).toolchain program) linker (.atom .i64) "1" (emptyDirHost 0)
    out.2.workDir = ⟨"/"⟩ ∧ out.2.tree = (emptyDirTree.createDirs ⟨"/"⟩ dir).2 := by
  have hremoves : (emptyDirHost 0).temp.Removes := TempLibrary.removes_numbered
  obtain ⟨hwork, -, -, htree⟩ := evaluate_surroundings ev (worksIn dir) program linker (.atom .i64)
    "1" hremoves
  exact ⟨hwork, htree⟩

/-- An image is staged in the directory that was made for it, and gone when its value is there. -/
theorem evaluate_staging_inside :
    ∃ ev, (withSettings [] [] (worksIn ⟨"/s/w"⟩) (leaving [0x7F]) (some .sample)
        (emptyDirHost 0)).1 = .ok ev ∧
      (emptyDirHost 0).temp.Removes ∧
      (emptyDirHost 0).temp.Finds ((emptyDirHost 0).parentMade (worksIn ⟨"/s/w"⟩).scratchDir).2 ∧
      let out := ev.evaluate ((worksIn ⟨"/s/w"⟩).toolchain (leaving [0x7F])) linking
        (.atom .i64) "1" (emptyDirHost 0)
      out.1 = .ok 1 ∧ (∀ words, out.1 ≠ .error (.load (.cannotStage words))) ∧
      out.2.listing ⟨"/s"⟩ = some [Utf8.bytes "w"] ∧
      out.2.tree.children [Utf8.bytes "s", Utf8.bytes "w"] = [] := by
  obtain ⟨ev, hev, hrefs, hdeps⟩ :=
    exists_withSettings (worksIn ⟨"/s/w"⟩) (leaving [0x7F]) (emptyDirHost 0)
  have hremoves : (emptyDirHost 0).temp.Removes := TempLibrary.removes_numbered
  obtain ⟨hstaged, hstaging, -, -, hleft⟩ :=
    evaluate_staging hev linking (.atom .i64) "1" hremoves finds_inside
  obtain ⟨-, -, -, -, hchildren⟩ := hleft ⟨"/s/w"⟩ rfl
  obtain ⟨hwork, htree⟩ := snd_evaluate_emptyDirHost ev ⟨"/s/w"⟩ (leaving [0x7F]) linking
  rw [createDirs_inside] at htree
  refine ⟨ev, hev, hremoves, finds_inside, fst_evaluate_inside hstaging hdeps hrefs [0x7F], hstaged,
    ?_, ?_⟩
  · rw [Host.listing, hwork, htree]
    rfl
  · have hplace : insideTree.locate ⟨"/"⟩ ⟨"/s/w"⟩ = .ok [Utf8.bytes "s", Utf8.bytes "w"] := rfl
    rw [htree] at hchildren
    obtain ⟨new, hnew, -, hdown⟩ := hchildren _ hplace
    rw [htree, hnew, hdown (by decide), List.append_nil]
    rfl

/-- **A directory that stays in the scratch directory itself:** its path goes by way of a
directory that is not there, so that one is made. -/
theorem evaluate_leaves_new :
    ∃ ev, (withSettings [] [] (worksIn ⟨"/s/new/.."⟩) idle (some .sample) (emptyDirHost 0)).1 =
        .ok ev ∧
      (emptyDirHost 0).temp.Removes ∧
      (emptyDirHost 0).temp.Finds
        ((emptyDirHost 0).parentMade (worksIn ⟨"/s/new/.."⟩).scratchDir).2 ∧
      let out := ev.evaluate ((worksIn ⟨"/s/new/.."⟩).toolchain idle) linking (.atom .i64)
        "1" (emptyDirHost 0)
      (emptyDirHost 0).listing ⟨"/s"⟩ = some [] ∧
      out.2.listing ⟨"/s"⟩ = some [Utf8.bytes "new"] ∧
      out.2.listing ⟨"/s/new/.."⟩ = some [Utf8.bytes "new"] := by
  obtain ⟨ev, hev, -⟩ := exists_withSettings (worksIn ⟨"/s/new/.."⟩) idle (emptyDirHost 0)
  obtain ⟨hwork, htree⟩ := snd_evaluate_emptyDirHost ev ⟨"/s/new/.."⟩ idle linking
  rw [createDirs_outside] at htree
  refine ⟨ev, hev, TempLibrary.removes_numbered, TempLibrary.finds_numbered
    (by decide : (emptyDirTree.withDirs [[Utf8.bytes "s", Utf8.bytes "new"]]).entries.length < _),
    rfl, ?_, ?_⟩
  · rw [Host.listing, hwork, htree]
    rfl
  · rw [Host.listing, hwork, htree]
    rfl

end ExprHost.Evaluator
