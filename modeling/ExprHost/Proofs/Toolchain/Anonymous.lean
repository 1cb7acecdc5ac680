import ExprHost.Proofs.Host.Directories
import ExprHost.Proofs.Toolchain.Start

/-!
# Compilers that do not look at names

Two hosts that have the same files around their scratch directories start the compiler alike,
whatever the directories are called: what it is given differs in nothing but the name of the crate
and the scratch paths. A compiler that does not look at these makes the same of both.

* `Host.anonymousArgs`, `Program.Anonymous`: arguments without names and scratch paths, and a
  program that depends on nothing else.
* `Host.Follows`: what one host has in common with another that it came from.
* `Host.Alike.unmade_iff`: scratch directories can be made on both of two such hosts, or on neither.
* `Host.Crosses`: the program is looked for by way of the scratch directory.
* `Settings.start_congr`: **hosts with the same surroundings start the compiler alike.**
-/

namespace ExprHost

namespace Host

/-- Arguments without the value of an option where it is first given. -/
def withoutValue (option : String) : List String → List String
  | [] => []
  | [o] => [o]
  | o :: v :: rest =>
    if valueOptions.contains o then
      if o = option then o :: rest else o :: v :: withoutValue option rest
    else o :: withoutValue option (v :: rest)

/-- A compiler's arguments without the name of the crate and the two paths in the scratch
directory: the one that output goes to, and the one of the source, which stands last. -/
def anonymousArgs (args : List String) : List String :=
  withoutValue "--crate-name" (withoutValue "--out-dir" args.dropLast)

end Host

/-- **A program that does not look at names:** its reply depends on the source and on the
arguments other than the name of the crate and the scratch paths. -/
def Program.Anonymous (program : Program) : Prop :=
  ∀ l l' : Launch, l.source = l'.source → Host.anonymousArgs l.args = Host.anonymousArgs l'.args →
    program l = program l'

/-- The name and the scratch paths are all that tells commands with the same references
apart. -/
theorem Settings.anonymousArgs_command (s : Settings) {r r' : Request}
    (hrefs : r'.references = r.references) (source source' dir dir' : Path) :
    Host.anonymousArgs (s.command r' source' dir').args =
      Host.anonymousArgs (s.command r source dir).args := by
  unfold Host.anonymousArgs command fixedArgs
  rw [List.dropLast_concat, List.dropLast_concat, hrefs]
  simp [Host.withoutValue, Host.valueOptions]

/-- What holds of some argument of a command does not hinge on the name and the scratch paths, if
it holds of none of them. -/
theorem Settings.any_command (s : Settings) {r r' : Request} (hrefs : r'.references = r.references)
    {f : String → Bool} (hname : f r'.crateName = f r.crateName) {source source' dir dir' : Path}
    (hsource : f source'.text = f source.text) (hdir : f dir'.text = f dir.text) :
    (s.command r' source' dir').args.any f = (s.command r source dir).args.any f := by
  unfold command fixedArgs
  simp only [List.any_append, List.any_cons, hrefs, hname, hsource, hdir]

namespace Host

variable {h h' : Host}

/-! ## Hosts that follow each other -/

/-- What is left of a host after evaluations: the directories that paths are seen from and that
programs are searched for in stay, and the parent of scratch directories can be made if and only if
it could be before. -/
structure Follows (parent : Option Path) (h h' : Host) : Prop where
  workDir : h'.workDir = h.workDir
  tempDir : h'.tempDir = h.tempDir
  searchPath : h'.searchPath = h.searchPath
  made : (h.parentMade parent).1 = .ok () → h'.parentMade parent = h.parentMade parent
  failed : ∀ e, (h.parentMade parent).1 = .error e → ∃ e', (h'.parentMade parent).1 = .error e'

/-- The number of the next request plays no part, and neither do the names that are drawn. -/
theorem follows_nextUnit (parent : Option Path) (h : Host) (number : UInt64) (lib : TempLibrary) :
    Follows parent h { h with nextUnit := number, temp := lib } := by
  have hmade : ({ h with nextUnit := number, temp := lib } : Host).parentMade parent =
      h.parentMade parent := by
    cases parent <;> rfl
  refine ⟨rfl, rfl, rfl, fun _ => hmade, fun e he => ⟨e, ?_⟩⟩
  rw [hmade]
  exact he

/-- **The parent of scratch directories, once made, is found again,** and if it could not be
made it still cannot. -/
theorem Follows.step {parent : Option Path} {h h' h'' : Host} (hf : Follows parent h h')
    (hwork : h''.workDir = h'.workDir) (htemp : h''.tempDir = h'.tempDir)
    (hpath : h''.searchPath = h'.searchPath) (htree : h''.tree = (h'.parentMade parent).2) :
    Follows parent h h'' := by
  refine ⟨hwork.trans hf.workDir, htemp.trans hf.tempDir, hpath.trans hf.searchPath, ?_, ?_⟩
  · intro hok
    have hmade := hf.made hok
    rw [hmade] at htree
    cases parent with
    | none => simp [parentMade, htree]
    | some dir =>
      simp only [parentMade] at hok htree ⊢
      have hpair : h.tree.createDirs h.workDir dir =
          (.ok (), (h.tree.createDirs h.workDir dir).2) := Prod.ext hok rfl
      have hagain := FileTree.createDirs_again hpair
      rw [htree, hwork, hf.workDir, hagain, hpair]
  · intro e he
    obtain ⟨e', he'⟩ := hf.failed e he
    cases parent with
    | none => cases he'
    | some dir =>
      simp only [parentMade] at he' htree ⊢
      have hpair : h'.tree.createDirs h'.workDir dir =
          (.error e', (h'.tree.createDirs h'.workDir dir).2) := Prod.ext he' rfl
      rw [htree, hwork]
      exact FileTree.createDirs_failed hpair

/-! ## Scratch directories on two hosts -/

/-- Two hosts have the same surroundings of scratch directories, where free names are found. -/
structure Alike (parent : Option Path) (h h' : Host) : Prop where
  workDir : h'.workDir = h.workDir
  tempDir : h'.tempDir = h.tempDir
  searchPath : h'.searchPath = h.searchPath
  made : h'.parentMade parent = h.parentMade parent
  finds : h.temp.Finds (h.parentMade parent).2
  finds' : h'.temp.Finds (h.parentMade parent).2

/-- There is a scratch directory on both of two such hosts, or on neither. -/
theorem Alike.exists_makeScratch_iff {parent : Option Path} (ha : Alike parent h h') :
    (∃ found, (h'.makeScratch parent).1 = .ok found) ↔
      ∃ found, (h.makeScratch parent).1 = .ok found := by
  have hiff : ∀ h : Host, (∃ found, (h.makeScratch parent).1 = .ok found) ↔
      (h.parentMade parent).1 = .ok () ∧ ∃ found, (h.parentMade parent).2.tempEntry h.temp
        h.workDir (parent.getD h.tempDir) .scratch = .ok found := by
    intro h
    constructor
    · rintro ⟨⟨dir, loc⟩, hok⟩
      obtain ⟨hparent, hentry, -⟩ := makeScratch_eq_ok_iff.1 (Prod.ext hok rfl)
      exact ⟨hparent, _, hentry⟩
    · rintro ⟨hparent, ⟨dir, loc⟩, hentry⟩
      exact ⟨_, congrArg Prod.fst (makeScratch_eq_ok_iff.2 ⟨hparent, hentry, rfl⟩)⟩
  rw [hiff, hiff, ha.made, ha.workDir, ha.tempDir,
    FileTree.exists_tempEntry_iff (ha.finds _ _ _) (ha.finds' _ _ _)]

/-- **Scratch directories cannot be made on both of such hosts, or on neither.** -/
theorem Alike.unmade_iff {parent : Option Path} (ha : Alike parent h h') :
    (∃ words, (h'.makeScratch parent).1 = .error words) ↔
      ∃ words, (h.makeScratch parent).1 = .error words := by
  have hmade := ha.exists_makeScratch_iff
  cases hleft : (h'.makeScratch parent).1 <;> cases hright : (h.makeScratch parent).1 <;>
    simp [hleft, hright] at hmade ⊢

/-- The scratch directories of such hosts lie in one directory. -/
theorem Alike.exists_makeScratch_eq {parent : Option Path} (ha : Alike parent h h')
    (hmade : ∃ found, (h.makeScratch parent).1 = .ok found) :
    ∃ (base : Path) (drawn drawn' : Drawn) (dir dir' : Location) (h₁ h₁' : Host),
      h.makeScratch parent = (.ok (base.join (TempKind.scratch.name drawn),
        dir ++ [Utf8.bytes (TempKind.scratch.name drawn)]), h₁) ∧
      h'.makeScratch parent = (.ok (base.join (TempKind.scratch.name drawn'),
        dir' ++ [Utf8.bytes (TempKind.scratch.name drawn')]), h₁') ∧
      FileTree.checkPath (base.join (TempKind.scratch.name drawn)) = .ok () := by
  have hmade' := ha.exists_makeScratch_iff.2 hmade
  have hbase : h'.workDir.absolute (parent.getD h'.tempDir) =
      h.workDir.absolute (parent.getD h.tempDir) := by rw [ha.workDir, ha.tempDir]
  rcases hmake : h.makeScratch parent with ⟨made, h₁⟩
  rcases hmake' : h'.makeScratch parent with ⟨made', h₁'⟩
  rw [hmake] at hmade
  rw [hmake'] at hmade'
  obtain ⟨⟨dir, loc⟩, rfl⟩ := hmade
  obtain ⟨⟨dir', loc'⟩, rfl⟩ := hmade'
  obtain ⟨-, hentry, -⟩ := makeScratch_eq_ok_iff.1 hmake
  obtain ⟨-, hentry', -⟩ := makeScratch_eq_ok_iff.1 hmake'
  obtain ⟨at₁, drawn, -, -, rfl, rfl, hdir⟩ := FileTree.tempEntry_eq_ok_iff.1 hentry
  obtain ⟨at₁', drawn', -, -, rfl, rfl, -⟩ := FileTree.tempEntry_eq_ok_iff.1 hentry'
  rw [hbase]
  exact ⟨_, drawn, drawn', at₁, at₁', h₁, h₁', rfl, rfl, hdir⟩

/-! ## Looking for the program -/

/-- The program is looked for by way of the name that the scratch directory has got. -/
def Crosses (h : Host) (s : Settings) : Prop :=
  ∃ dir parent name, (h.makeScratch s.scratchDir).1 = .ok (dir, parent ++ [name]) ∧
    ∃ p ∈ h.lookups s.program, name ∈ FileTree.pieces h.workDir p

/-- It is not if it is looked for by way of no name that begins like a scratch directory's. -/
theorem not_crosses_of_front {s : Settings} (hfront : ∀ p ∈ h.lookups s.program,
    ∀ name ∈ FileTree.pieces h.workDir p, ¬ Utf8.bytes TempKind.scratch.front <+: name) :
    ¬ h.Crosses s := by
  rintro ⟨dir, parent, name, hmake, p, hp, hmem⟩
  obtain ⟨-, hentry, -⟩ := makeScratch_eq_ok_iff.1 (Prod.ext hmake rfl)
  obtain ⟨at', drawn, -, -, -, hloc, -⟩ := FileTree.tempEntry_eq_ok_iff.1 hentry
  obtain ⟨-, hname⟩ := List.append_inj' hloc rfl
  obtain rfl := List.singleton_inj.1 hname
  exact hfront p hp _ hmem (TempKind.scratch.front_prefix_name drawn)

/-- Where it is not, the scratch directory plays no part in whether the program can be started. -/
theorem startable_withSource {s : Settings} (hcross : ¬ h.Crosses s) {dir : Path}
    {parent : Location} {name : FileName} {h₁ : Host}
    (hmake : h.makeScratch s.scratchDir = (.ok (dir, parent ++ [name]), h₁)) (r : Request) :
    (Settings.withSource h₁ (parent ++ [name]) r).startable s.program =
      startable { h with tree := (h.parentMade s.scratchDir).2 } s.program := by
  have hone : (h.makeScratch s.scratchDir).1 = .ok (dir, parent ++ [name]) :=
    congrArg Prod.fst hmake
  obtain ⟨-, -, rfl⟩ := makeScratch_eq_ok_iff.1 hmake
  refine startable_congr rfl fun p hp => executable_congr ?_
  have hfree : name ∉ FileTree.pieces h.workDir p := fun hmem =>
    hcross ⟨dir, parent, name, hone, p, hp, hmem⟩
  have hmem : name ∈ parent ++ [name] := List.mem_append_right _ (List.mem_singleton.2 rfl)
  exact (FileTree.find_insert_of_not_mem (List.mem_append_left _ hmem) hfree _).trans
    (FileTree.find_insert_of_not_mem hmem hfree _)

end Host

namespace Settings

variable {s : Settings} {h h' : Host} {r r' : Request}

/-- The scratch paths can be passed on, whatever is drawn, and so can the names. -/
theorem any_command_name (s : Settings) (hrefs : r'.references = r.references) {f : String → Bool}
    (hpass : ∀ text, Host.Passable text → f text = false) {base : Path} {drawn : Drawn}
    (hdir : FileTree.checkPath (base.join (TempKind.scratch.name drawn)) = .ok ())
    (hsource : FileTree.checkPath ((base.join (TempKind.scratch.name drawn)).join "lib.rs") = .ok ())
    (drawn' : Drawn) :
    let dir := base.join (TempKind.scratch.name drawn)
    let dir' := base.join (TempKind.scratch.name drawn')
    (s.command r' (dir'.join "lib.rs") dir').args.any f =
      (s.command r (dir.join "lib.rs") dir).args.any f := by
  intro dir dir'
  obtain ⟨hdirs, hsources⟩ := FileTree.checkPath_name base .scratch drawn drawn'
  have hfalse : ∀ p, FileTree.checkPath p = .ok () → f p.text = false :=
    fun p hp => hpass _ (Host.passable_of_checkPath hp)
  refine s.any_command hrefs ?_ ?_ ?_
  · rw [hpass _ r.passable_crateName, hpass _ r'.passable_crateName]
  · rw [hfalse _ hsource, hfalse _ ((hsources "lib.rs").trans hsource)]
  · rw [hfalse _ hdir, hfalse _ (hdirs.trans hdir)]

/-- What is told the compiler is told it in its scratch directory. -/
theorem start_of_made {dir : Path} {loc : Location} {h₁ : Host}
    (hmake : h.makeScratch s.scratchDir = (.ok (dir, loc), h₁)) :
    s.start r h = s.startIn r dir loc h₁ := by
  rw [start, hmake]

/-- Where there is no scratch directory, the compiler is not run. -/
theorem start_of_unmade {words : String}
    (hmake : (h.makeScratch s.scratchDir).1 = .error words) :
    s.start r h = .error (.io words) := by
  rcases hpair : h.makeScratch s.scratchDir with ⟨result, h'⟩
  rw [hpair] at hmake
  obtain rfl : result = .error words := hmake
  rw [start, hpair]

/-- Two starts in scratch directories of one place end alike. -/
theorem startIn_congr (hrefs : r'.references = r.references) {base : Path} {drawn : Drawn}
    (hdir : FileTree.checkPath (base.join (TempKind.scratch.name drawn)) = .ok ()) (drawn' : Drawn)
    {loc loc' : Location}
    (hfound : (withSource h' loc' r').startable s.program =
      (withSource h loc r).startable s.program) :
    let dir := base.join (TempKind.scratch.name drawn)
    let dir' := base.join (TempKind.scratch.name drawn')
    (∃ e, s.startIn r dir loc h = .error e ∧ s.startIn r' dir' loc' h' = .error e) ∨
    ∃ l l' p p', s.startIn r dir loc h = .ok (l, p) ∧ s.startIn r' dir' loc' h' = .ok (l', p') ∧
      Host.anonymousArgs l'.args = Host.anonymousArgs l.args := by
  intro dir dir'
  have hsources := (FileTree.checkPath_name base .scratch drawn drawn').2 "lib.rs"
  unfold startIn
  simp only
  cases hsource : FileTree.checkPath (dir.join "lib.rs") with
  | error e =>
    rw [hsources.trans hsource]
    exact Or.inl ⟨_, rfl, rfl⟩
  | ok u =>
    rw [hsources.trans hsource]
    have hnul := s.any_command_name hrefs (f := (·.toList.contains '\x00'))
      (fun text hp => by simp [hp.1]) hdir hsource drawn'
    have hlen := s.any_command_name hrefs
      (f := fun arg => Host.argumentLimit < (Utf8.bytes arg).length)
      (fun text hp => by simp [hp.2]) hdir hsource drawn'
    have hprogram : (s.command r' (dir'.join "lib.rs") dir').program =
        (s.command r (dir.join "lib.rs") dir).program := rfl
    simp only
    rcases Host.launched_congr hprogram hfound hnul hlen with ⟨e, he, he'⟩ | ⟨hl, hl'⟩
    · rw [he, he']
      exact Or.inl ⟨_, rfl, rfl⟩
    · rw [hl, hl']
      refine Or.inr ⟨_, _, _, _, rfl, rfl, ?_⟩
      rw [Host.args_of_launched hl, Host.args_of_launched hl']
      exact s.anonymousArgs_command hrefs _ _ _ _

/-- **Hosts with the same surroundings start the compiler alike:** for requests with the same
source and references there is one reason why it is not run, or what it is given differs in
the name and the scratch paths alone. -/
theorem start_congr (ha : Host.Alike s.scratchDir h h')
    (hmade : ∃ found, (h.makeScratch s.scratchDir).1 = .ok found)
    (hcross : ¬ h.Crosses s) (hcross' : ¬ h'.Crosses s)
    (hsource : r'.source = r.source) (hrefs : r'.references = r.references) :
    (∃ e, s.start r h = .error e ∧ s.start r' h' = .error e) ∨
    ∃ l l' p p', s.start r h = .ok (l, p) ∧ s.start r' h' = .ok (l', p') ∧
      l'.source = l.source ∧ Host.anonymousArgs l'.args = Host.anonymousArgs l.args := by
  obtain ⟨base, drawn, drawn', at₁, at₁', h₁, h₁', hmake, hmake', hdir⟩ :=
    ha.exists_makeScratch_eq hmade
  -- the program is found without the scratch directories, so alike
  have hsame : Host.startable { h' with tree := (h'.parentMade s.scratchDir).2 } s.program =
      Host.startable { h with tree := (h.parentMade s.scratchDir).2 } s.program := by
    refine Host.startable_congr ha.searchPath fun p _ => Host.executable_congr ?_
    simp only [ha.made, ha.workDir]
  have hfound := ((Host.startable_withSource hcross' hmake' r').trans hsame).trans
    (Host.startable_withSource hcross hmake r).symm
  have hstart := start_of_made hmake (r := r)
  have hstart' := start_of_made hmake' (r := r')
  rcases startIn_congr hrefs hdir drawn' hfound with ⟨e, he, he'⟩ | ⟨l, l', p, p', hl, hl', hargs⟩
  · exact Or.inl ⟨e, hstart.trans he, hstart'.trans he'⟩
  · refine Or.inr ⟨l, l', p, p', hstart.trans hl, hstart'.trans hl', ?_, hargs⟩
    rw [source_of_start_eq_ok (hstart.trans hl), source_of_start_eq_ok (hstart'.trans hl'), hsource]

end Settings

end ExprHost
