import ExprHost.Proofs.Reference.LibraryDirs
import ExprHost.Toolchain.Settings

/-!
# The command line

What a compiler is told: the fixed options, each crate that it does not find itself, the
directories of their libraries, the extra arguments and last the source.

* `Settings.dirArgs_infix_command`: each directory is one of the arguments, behind its option.
* `Settings.command_args`: **the arguments in full, and which directories are among them.**
-/

namespace ExprHost.Settings

/-- Each directory of the references is an argument, behind its option. -/
theorem dirArgs_infix_command (s : Settings) {r : Request} {dir : Path}
    (h : dir ∈ r.references.libraryDirs) (source outDir : Path) :
    dirArgs dir <:+: (s.command r source outDir).args := by
  have hdirs : dirArgs dir <:+: r.references.libraryDirs.flatMap dirArgs :=
    List.infix_of_mem_flatten (List.mem_map.2 ⟨dir, h, rfl⟩)
  refine hdirs.trans ⟨s.fixedArgs r outDir ++ r.references.explicit.flatMap crateArgs,
    s.extraArgs ++ [source.text], ?_⟩
  simp only [command, List.append_assoc]

/-- **The arguments in full:** the fixed options, each crate that is not of the sysroot in the
order of the set, the directories, the extra arguments, the source. The directories are strictly
sorted, so no two are the same path. Each is the parent of a crate that the compiler is told of,
and the parent of each such crate is one of them, once, in some spelling. -/
theorem command_args (s : Settings) (r : Request) (source outDir : Path) :
    let told := r.references.crates.filter (·.linkage ≠ .sysroot)
    let dirs := r.references.libraryDirs
    (s.command r source outDir).args =
      ["--crate-type", "cdylib", "--crate-name", r.crateName, "--edition", s.edition,
        "--error-format=json", "-C", "opt-level=" ++ toString s.optLevel.number,
        "-C", "prefer-dynamic=no", "--out-dir", outDir.text] ++
      told.flatMap (fun e => ["--extern", e.name ++ "=" ++ e.path.text]) ++
      dirs.flatMap (fun dir => ["-L", "dependency=" ++ dir.text]) ++ s.extraArgs ++ [source.text] ∧
    dirs.Pairwise (fun p q => compare p q = .lt ∧ (p == q) = false) ∧
    (∀ dir ∈ dirs, ∃ e ∈ told, e.path.parent? = some dir) ∧
    ∀ e ∈ told, ∀ dir, e.path.parent? = some dir → dirs.countP (· == dir) = 1 := by
  intro told dirs
  refine ⟨rfl, ?_, ?_, ?_⟩
  · refine (References.pairwise_libraryDirs r.references).imp ?_
    intro p q hlt
    exact ⟨hlt, Bool.eq_false_iff.2 (Path.not_beq_of_lt hlt)⟩
  · intro dir hdir
    exact References.exists_of_mem_libraryDirs hdir
  · intro e he dir hparent
    exact References.countP_libraryDirs he hparent

/-- Two libraries in one directory, which their paths spell differently, and one elsewhere. -/
def neighbours : References :=
  ⟨[.ofFile (.inFile "a" ⟨"lib//x/a.rlib"⟩) ⟨"lib//x/a.rlib"⟩,
    .ofFile (.inFile "b" ⟨"lib/b.so"⟩) ⟨"lib/b.so"⟩,
    .ofSysroot "core" ⟨"sysroot/libcore-1a.rlib"⟩,
    .ofFile (.inFile "d" ⟨"lib/x/d.rlib"⟩) ⟨"lib/x/d.rlib"⟩]⟩

theorem command_args_neighbours :
    let r : Request := ⟨⟨0, 0⟩, "", neighbours⟩
    (⟨"lib/x/d.rlib"⟩ : Path).parent? = some ⟨"lib/x"⟩ ∧
      (r.references.libraryDirs.countP fun dir => dir == ⟨"lib/x"⟩) = 1 ∧
      ∃ dir ∈ r.references.libraryDirs, (dir == ⟨"lib/x"⟩) = true ∧
        ∃ e ∈ r.references.explicit, e.path.parent? = some dir := by
  intro r
  obtain ⟨-, -, hparents, hcount⟩ := command_args (.forProgram ⟨"rustc"⟩) r ⟨"lib.rs"⟩ ⟨"out"⟩
  have hparent : (⟨"lib/x/d.rlib"⟩ : Path).parent? = some ⟨"lib/x"⟩ := rfl
  have hone := hcount (.ofFile (.inFile "d" ⟨"lib/x/d.rlib"⟩) ⟨"lib/x/d.rlib"⟩)
    (List.mem_filter.2 ⟨by simp [r, neighbours], by decide⟩) _ hparent
  obtain ⟨dir, hdir, hsame⟩ := List.countP_pos_iff.1 (hone ▸ Nat.one_pos)
  exact ⟨hparent, hone, dir, hdir, hsame, hparents dir hdir⟩

end ExprHost.Settings
