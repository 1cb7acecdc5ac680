import ExprHost.Proofs.Evaluation.Classified
import ExprHost.Proofs.Reference.Complete
import ExprHost.Proofs.Toolchain.CommandLine

/-!
# Empty directories on the command line

A library given by a bare path, such as the name of a file in the working directory, lies in the
empty path, and that is passed to the compiler as a directory. A compiler that refuses an empty
directory then refuses every expression.

* `References.mem_explicit_of_resolve`: the crates that a compiler has to be told of.
* `References.empty_mem_libraryDirs_of_resolve`: when a set has an empty directory.
* `Evaluator.empty_dir_fails`: **when there is one, and what it does to evaluations.**
* `References.resolve_bareFile_empty_dir`: a bare path that leads to one.
-/

namespace ExprHost

/-- A compiler that has no success with an empty directory among its arguments. -/
def Program.RefusesEmptyDir (program : Program) : Prop :=
  ∀ l : Launch, Settings.dirArgs ⟨""⟩ <:+: l.args → (program l).status.isSuccess = false

namespace References

variable {libdir : Path} {before now : Listing} {f : Foundation} {types : List TypeDesc}
  {r : References}

/-- The crates that a compiler has to be told of are the leaders in library files. -/
theorem mem_explicit_of_resolve (hf : Foundation.inDirectory libdir before = .ok f)
    (hr : resolve types f now = .ok r) {e : LinkedCrate} : e ∈ r.explicit ↔
      ∃ name path, .inFile name path ∈ leaders types ∧ e = .ofFile (.inFile name path) path := by
  obtain ⟨-, rfl⟩ := (resolve_eq_ok_iff hf).1 hr
  rw [explicit, List.mem_filter, ofLinked, List.mem_mergeSort, List.mem_filterMap,
    decide_eq_true_iff]
  constructor
  · rintro ⟨⟨⟨name, origin⟩, hc, he⟩, hlink⟩
    cases origin with
    | unlocated => cases he
    | sysroot => exact absurd (Foundation.name_of_find? hf he).2 hlink
    | file path => exact ⟨name, path, hc, (Option.some.inj he).symm⟩
  · rintro ⟨name, path, hc, rfl⟩
    exact ⟨⟨_, hc, rfl⟩, LinkedCrate.ofFile_linkage_ne _ path⟩

/-- **When a set has an empty directory:** exactly when a leader is given by a bare path. -/
theorem empty_mem_libraryDirs_of_resolve (hf : Foundation.inDirectory libdir before = .ok f)
    (hr : resolve types f now = .ok r) : ⟨""⟩ ∈ r.libraryDirs ↔
      ∃ name path, .inFile name path ∈ leaders types ∧ path.IsBare := by
  rw [empty_mem_libraryDirs_iff]
  constructor
  · rintro ⟨e, he, hbare⟩
    obtain ⟨name, path, hc, rfl⟩ := (mem_explicit_of_resolve hf hr).1 he
    exact ⟨name, path, hc, hbare⟩
  · rintro ⟨name, path, hc, hbare⟩
    exact ⟨_, (mem_explicit_of_resolve hf hr).2 ⟨name, path, hc, rfl⟩, hbare⟩

/-- With identities apart the leaders in library files are those that the types mention. -/
theorem inFile_mem_leaders_iff (hid : IdsApart types) {name : String} {path : Path} :
    .inFile name path ∈ leaders types ↔ Mentioned types (.inFile name path) := by
  rw [mem_leaders_iff hid, Involved]
  refine ⟨?_, fun h => .inr (.inr h)⟩
  rintro (h | h | h)
  · cases h
  · cases h
  · exact h

end References

namespace Evaluator

variable {V : Type}

/-- A compiler that refuses empty directories fails on each expression if there is one. -/
theorem evaluate_of_refusesEmptyDir {ev : Evaluator} (hdir : ⟨""⟩ ∈ ev.references.libraryDirs)
    {program : Program} (hrefuses : program.RefusesEmptyDir) (s : Settings) (linker : Linker V)
    (t : HostType) (expression : String) (h : Host) :
    ∃ e, (ev.evaluate (s.toolchain program) linker t expression h).1 = .error e := by
  rw [evaluate_eq]
  rcases s.start_cases (ev.request t expression h).1 (ev.request t expression h).2 with
    ⟨e, hstart, -⟩ | ⟨l, dir, hstart, hargs, -⟩
  · rw [start, hstart]
    exact ⟨_, rfl⟩
  · have hinfix : Settings.dirArgs ⟨""⟩ <:+: l.args := by
      rw [hargs]
      exact s.dirArgs_infix_command (r := (ev.request t expression h).1) hdir _ _
    rw [start, hstart]
    exact ⟨_, congrArg Prod.fst (verdict_failure (hrefuses l hinfix) ev linker _ _)⟩

/-- **When there is an empty directory, and what it does to evaluations.** A set has one exactly
when a leader is given by a bare path; where different crates have different identities, exactly
when any mentioned crate is. Then it stands in every command for the set, and no expression has a
value under a compiler that refuses empty directories. -/
theorem empty_dir_fails {libdir : Path} {before now : Listing} {f : Foundation}
    {types : List TypeDesc} {r : References}
    (hf : Foundation.inDirectory libdir before = .ok f)
    (hr : References.resolve types f now = .ok r) :
    (⟨""⟩ ∈ r.libraryDirs ↔
      ∃ name path, .inFile name path ∈ References.leaders types ∧ path.IsBare) ∧
    (References.IdsApart types → (⟨""⟩ ∈ r.libraryDirs ↔
      ∃ name path, References.Mentioned types (.inFile name path) ∧ path.IsBare)) ∧
    (⟨""⟩ ∈ r.libraryDirs → ∀ (ev : Evaluator) (s : Settings), ev.references = r →
      (∀ (q : Request) (source outDir : Path), q.references = r →
        ["-L", "dependency="] <:+: (s.command q source outDir).args) ∧
      ∀ (program : Program) (linker : Linker V) (t : HostType) (expression : String) (h : Host),
        program.RefusesEmptyDir →
        ∃ e, (ev.evaluate (s.toolchain program) linker t expression h).1 = .error e) := by
  have hiff := References.empty_mem_libraryDirs_of_resolve hf hr
  refine ⟨hiff, ?_, ?_⟩
  · intro hid
    rw [hiff]
    simp only [References.inFile_mem_leaders_iff hid]
  · rintro hdir ev s rfl
    constructor
    · intro q source outDir hq
      exact s.dirArgs_infix_command (hq ▸ hdir) source outDir
    · intro program linker t expression h hrefuses
      exact evaluate_of_refusesEmptyDir hdir hrefuses s linker t expression h

end Evaluator

/-! ## A library in the working directory -/

namespace References

/-- A type in a library that is given by the bare name of its file. -/
def inBareFile : TypeDesc := .plain (.ofPath "x::A") (.inFile "x" ⟨"libx.rlib"⟩)

theorem isBare_libx : (⟨"libx.rlib"⟩ : Path).IsBare := ⟨.named "libx.rlib", by decide, by decide⟩

theorem mentioned_libx : Mentioned [inBareFile] (.inFile "x" ⟨"libx.rlib"⟩) :=
  ⟨inBareFile, by simp, inBareFile, .self _, rfl⟩

theorem idsApart_inBareFile : IdsApart [inBareFile] := by
  have hall : wanted [inBareFile] = [Crate.core, .std, .core, .core, .std, .std, .std, .std,
      .inFile "x" ⟨"libx.rlib"⟩] := rfl
  refine idsApart_of_nodup (l := [Crate.core, .std, .inFile "x" ⟨"libx.rlib"⟩]) ?_
    (by decide +kernel)
  rw [hall]
  intro c hc
  simp only [List.mem_cons] at hc ⊢
  tauto

theorem resolve_inBareFile : resolve [inBareFile] .sample none =
    .ok (ofLinked ((leaders [inBareFile]).filterMap (Foundation.sample.linked? none))) :=
  (resolve_eq_ok_iff Foundation.inDirectory_sample).2 ⟨by decide +kernel, rfl⟩

/-- A bare path that leads to an empty directory. -/
theorem resolve_bareFile_empty_dir :
    Foundation.inDirectory ⟨"sysroot"⟩ Foundation.sampleListing = .ok .sample ∧
    ∃ r, resolve [inBareFile] .sample none = .ok r ∧ ⟨""⟩ ∈ r.libraryDirs := by
  refine ⟨Foundation.inDirectory_sample, _, resolve_inBareFile, ?_⟩
  rw [empty_mem_libraryDirs_of_resolve Foundation.inDirectory_sample resolve_inBareFile]
  exact ⟨"x", _, (inFile_mem_leaders_iff idsApart_inBareFile).2 mentioned_libx, isBare_libx⟩

end References

namespace Evaluator

/-- A compiler that fails on an empty directory and succeeds with all else. -/
def strict : Program := fun l =>
  ⟨[], [], .ofCode (if "dependency=" ∈ l.args then 1 else 0), none⟩

theorem strict_refusesEmptyDir : Program.RefusesEmptyDir strict := by
  intro l hinfix
  have hmem : "dependency=" ∈ l.args := hinfix.subset (by decide)
  rw [strict, if_pos hmem]
  decide

theorem empty_dir_fails_libx :
    ∃ r, References.resolve [References.inBareFile] .sample none = .ok r ∧ ⟨""⟩ ∈ r.libraryDirs ∧
      ["-L", "dependency="] <:+:
        (stock.command ⟨⟨0, 0⟩, "", r⟩ ⟨"lib.rs"⟩ ⟨"out"⟩).args ∧
      ∃ e, ((⟨r, .ofUsings [], none⟩ : Evaluator).evaluate
        (stock.toolchain strict) (fun _ => .error "" : Linker Unit)
        (.atom .i64) "1" (deepHost 1 0 [])).1 = .error e := by
  obtain ⟨-, hiff, hfails⟩ := empty_dir_fails (V := Unit) Foundation.inDirectory_sample
    References.resolve_inBareFile
  have hdir := (hiff References.idsApart_inBareFile).2
    ⟨"x", _, References.mentioned_libx, References.isBare_libx⟩
  obtain ⟨hcommand, hevaluate⟩ := hfails hdir ⟨_, .ofUsings [], none⟩ stock rfl
  exact ⟨_, References.resolve_inBareFile, hdir, hcommand ⟨⟨0, 0⟩, "", _⟩ _ _ rfl,
    hevaluate _ _ _ _ _ strict_refusesEmptyDir⟩

end Evaluator

end ExprHost
