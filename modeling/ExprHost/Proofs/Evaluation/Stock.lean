import ExprHost.Host.Numbered
import ExprHost.Proofs.Evaluation.Pipeline

/-!
# The default compiler

Where the environment names no compiler, the default one is looked for in the directories that
programs are searched for in. It runs if it is found there, in a scratch directory with room for
the source. On a host whose temporary directory has a long path it depends on the digits of the
number of a request whether there is room for the library as well.

* `Evaluator.stock`, `Evaluator.PassesOn`: the default settings, and references that can be passed
  on.
* `Evaluator.exists_start_of_found`: **the compiler runs where it is found.**
* `Evaluator.deepHost`, `Evaluator.exists_start_deepHost`: **a host where it does.**
* `Evaluator.length_deepLibrary`: how long the path of a library is there.
* `Evaluator.idle`, `Evaluator.leaving`, `Evaluator.linking`: compilers and a linker to run there.
-/

namespace ExprHost

namespace Evaluator

/-- The settings of an environment that names no compiler. -/
def stock : Settings := .ofEnvironment fun _ => none

/-- What the compiler is to be told of the references of an evaluator can be passed on to it. -/
def PassesOn (ev : Evaluator) : Prop :=
  ∀ arg ∈ ev.references.explicit.flatMap Settings.crateArgs ++
    ev.references.libraryDirs.flatMap Settings.dirArgs, Host.Passable arg

/-- What the compiler is given can be passed on, if what tells it of the references can be. -/
theorem passable_args {r : Request}
    (hrefs : ∀ arg ∈ r.references.explicit.flatMap Settings.crateArgs ++
      r.references.libraryDirs.flatMap Settings.dirArgs, Host.Passable arg) {source dir : Path}
    (hsource : FileTree.checkPath source = .ok ()) (hdir : FileTree.checkPath dir = .ok ()) :
    ∀ arg ∈ (stock.command r source dir).args, Host.Passable arg := by
  have hargs : (stock.command r source dir).args =
      ["--crate-type", "cdylib", "--crate-name", r.crateName, "--edition", "2021",
        "--error-format=json", "-C", "opt-level=0", "-C", "prefer-dynamic=no",
        "--out-dir", dir.text] ++ ((r.references.explicit.flatMap Settings.crateArgs ++
          r.references.libraryDirs.flatMap Settings.dirArgs) ++ [source.text]) := by
    simp only [stock, Settings.ofEnvironment, Settings.command, Settings.forProgram,
      List.append_nil, List.append_assoc]
    rfl
  rw [hargs, List.forall_mem_append, List.forall_mem_append]
  simp only [List.forall_mem_cons]
  exact ⟨⟨by decide +kernel, by decide +kernel, by decide +kernel, r.passable_crateName,
    by decide +kernel, by decide +kernel, by decide +kernel, by decide +kernel, by decide +kernel,
    by decide +kernel, by decide +kernel, by decide +kernel, Host.passable_of_checkPath hdir,
    fun _ h => by cases h⟩, hrefs, Host.passable_of_checkPath hsource, fun _ h => by cases h⟩

/-! ## Finding the compiler -/

/-- The compiler is found in the second directory, if there is nothing in the first. -/
theorem startable_rustc {h : Host} (hpath : h.searchPath = [⟨"/opt"⟩, ⟨"/bin"⟩])
    (hopt : h.tree.find h.workDir ⟨"/opt/rustc"⟩ = .error .notFound) {loc : Location}
    {content : Bytes} (hbin : h.tree.find h.workDir ⟨"/bin/rustc"⟩ = .ok (loc, .file content true)) :
    h.startable ⟨"rustc"⟩ = .ok () := by
  refine Host.startable_eq_ok_iff.2 ⟨fun _ => by decide +kernel, [⟨"/opt/rustc"⟩], ⟨"/bin/rustc"⟩,
    [], ?_, Host.executable_of_find hbin, ?_⟩
  · rw [Host.lookups, hpath]
    rfl
  · intro q hq
    obtain rfl := List.mem_singleton.1 hq
    refine ⟨.notFound, ?_, rfl⟩
    rw [Host.executable, hopt]

/-- What is made under a temporary name does not hide it. -/
theorem startable_withSource_rustc (h : Host) (tree : FileTree) (loc : Location) {at' : Location}
    {content : Bytes} {name : FileName} (hpath : h.searchPath = [⟨"/opt"⟩, ⟨"/bin"⟩])
    (hopt : tree.find h.workDir ⟨"/opt/rustc"⟩ = .error .notFound)
    (hbin : tree.find h.workDir ⟨"/bin/rustc"⟩ = .ok (at', .file content true))
    (hmem : name ∈ loc) (hpieces : name ∉ FileTree.pieces h.workDir ⟨"/opt/rustc"⟩) (r : Request) :
    (Settings.withSource { h with tree := tree.insert loc .directory } loc r).startable
      ⟨"rustc"⟩ = .ok () :=
  startable_rustc hpath
    ((FileTree.find_insert_of_not_mem (List.mem_append_left _ hmem) hpieces _).trans
      ((FileTree.find_insert_of_not_mem hmem hpieces _).trans hopt))
    (FileTree.find_insert (FileTree.find_insert hbin _ _) _ _)

/-- **The compiler runs** in a scratch directory with room for the source, if it is found. -/
theorem exists_start_of_found {ev : Evaluator} (parent : Option Path) (t : HostType)
    (expression : String) (h : Host) {h' : Host} {dir : Path} {loc : Location}
    (hmake : (ev.request t expression h).2.makeScratch parent = (.ok (dir, loc), h'))
    (hsource : FileTree.checkPath (dir.join "lib.rs") = .ok ())
    (hfound : ∀ r, (Settings.withSource h' loc r).startable ⟨"rustc"⟩ = .ok ())
    (hrefs : PassesOn ev) : ∃ l, ev.start { stock with scratchDir := parent } t expression h =
      .ok (l, dir.join (Host.libraryName (ev.request t expression h).1.crateName)) := by
  obtain ⟨-, hentry, -⟩ := Host.makeScratch_eq_ok_iff.1 hmake
  obtain ⟨-, -, -, -, -, -, hdir⟩ := FileTree.tempEntry_eq_ok_iff.1 hentry
  have hargs := passable_args (r := (ev.request t expression h).1) hrefs hsource hdir
  have hl := (Host.launched_eq_ok_iff (c := stock.command _ (dir.join "lib.rs") dir)).2
    ⟨⟨hfound (ev.request t expression h).1, (by decide : '\x00' ∉ (⟨"rustc"⟩ : Path).text.toList),
      hargs⟩, rfl⟩
  exact ⟨_, Settings.start_eq_ok_iff.2 ⟨dir, loc, h', hmake, hsource, hl, rfl⟩⟩

/-- An evaluator that links nothing. -/
def bare : Evaluator := ⟨.empty, ⟨[]⟩, none⟩

theorem passesOn_bare : PassesOn bare := by
  have hdirs : References.empty.libraryDirs = [] := by
    simp [References.libraryDirs, References.explicit, References.empty, References.dropRepeats]
  intro arg harg
  rw [show bare.references = .empty from rfl, hdirs] at harg
  cases harg

end Evaluator

/-! ## A temporary directory with a long path -/

namespace FileTree

/-- A path of separators only. -/
def separators (k : Nat) : Path := ⟨String.ofList (List.replicate k '/')⟩

theorem toList_separators (k : Nat) : (separators k).text.toList = List.replicate k '/' :=
  String.toList_ofList

theorem length_separators (k : Nat) : (Utf8.bytes (separators k).text).length = k := by
  rw [Utf8.bytes, toList_separators]
  induction k with
  | zero => rfl
  | succ k ih =>
    rw [List.replicate_succ, Utf8.encode, List.flatMap_cons, List.length_append]
    rw [Utf8.encode] at ih
    rw [ih]
    exact Nat.add_comm 1 k

theorem absolute_separators (workDir : Path) {k : Nat} (hpos : 0 < k) :
    workDir.absolute (separators k) = separators k := by
  rw [Path.absolute_eq, if_pos]
  obtain ⟨n, rfl⟩ : ∃ n, k = n + 1 := ⟨k - 1, by omega⟩
  rw [toList_separators, List.replicate_succ]
  rfl

theorem text_separators_ne_empty {k : Nat} (hpos : 0 < k) : (separators k).text ≠ "" := by
  intro h
  have hlen := length_separators k
  rw [h] at hlen
  have hzero : (Utf8.bytes "").length = 0 := rfl
  omega

/-- Separators lead nowhere but to the root. -/
theorem locate_separators (t : FileTree) (workDir : Path) {k : Nat} (hpos : 0 < k)
    (hle : k ≤ pathLimit) : t.locate workDir (separators k) = .ok [] := by
  have hsplit : ∀ n, Text.splitChar '/' (List.replicate n '/') = List.replicate (n + 1) [] := by
    intro n
    induction n with
    | zero => rfl
    | succ n ih => rw [List.replicate_succ, Text.splitChar, if_pos rfl, ih]; rfl
  have hwalk : ∀ n, t.walk [] (List.replicate n []) = .ok [] := by
    intro n
    induction n with
    | zero => rfl
    | succ n ih => exact walk_cons_eq_ok_iff.2 ⟨rfl, Or.inl ⟨rfl, ih⟩⟩
  refine locate_eq_ok_iff.2 ⟨checkPath_eq_ok_iff.2
    ⟨?_, text_separators_ne_empty hpos, ?_⟩, ?_⟩
  · rw [toList_separators, List.mem_replicate]
    rintro ⟨-, h⟩
    exact absurd h (by decide)
  · rwa [length_separators]
  · rw [pieces_eq_names, absolute_separators workDir hpos, names, toList_separators, hsplit,
      List.map_replicate]
    exact hwalk (k + 1)

end FileTree

namespace Evaluator

/-- The files of a host that has a compiler and nothing else. -/
def bareTree : FileTree :=
  ⟨[([Utf8.bytes "bin"], .directory), ([Utf8.bytes "bin", Utf8.bytes "rustc"], .file [] true)]⟩

/-- A host with a compiler in the second directory that programs are searched for in. Temporary
entries go to the root, spelled at length. What it has run so far plays no part. -/
def deepHost (k : Nat) (n : UInt64) (launches : List Launch) : Host :=
  ⟨bareTree, ⟨"/"⟩, FileTree.separators k, [⟨"/opt"⟩, ⟨"/bin"⟩], fun _ => none, .numbered, n, 0,
    launches⟩

theorem find_rustc : bareTree.find ⟨"/"⟩ ⟨"/bin/rustc"⟩ =
    .ok ([Utf8.bytes "bin", Utf8.bytes "rustc"], .file [] true) := by
  have hcheck : FileTree.checkPath ⟨"/bin/rustc"⟩ = .ok () :=
    FileTree.checkPath_eq_ok_iff.2 (by decide +kernel)
  refine FileTree.find_eq_ok_iff.2 ⟨FileTree.locate_eq_ok_iff.2 ⟨hcheck, rfl⟩, by decide +kernel⟩

theorem find_opt : bareTree.find ⟨"/"⟩ ⟨"/opt/rustc"⟩ = .error .notFound := rfl

/-- The digits that are drawn first. -/
def zeros : Drawn :=
  ⟨List.replicate 6 '0', rfl, fun _ h => by rw [List.eq_of_mem_replicate h]; rfl⟩

/-- The scratch directory's path in such a host. -/
def deepDir (k : Nat) : Path := (FileTree.separators k).join (TempKind.scratch.name zeros)

/-- The scratch directory's location there. -/
def deepLoc : Location := [Utf8.bytes (TempKind.scratch.name zeros)]

theorem length_deepDir {k : Nat} (hpos : 0 < k) :
    k + 14 ≤ (Utf8.bytes (deepDir k).text).length ∧
      (Utf8.bytes (deepDir k).text).length ≤ k + 15 := by
  have hlen := Path.length_join (FileTree.text_separators_ne_empty hpos) (TempKind.scratch.name zeros)
  rw [FileTree.length_separators, TempKind.length_scratch] at hlen
  exact hlen

theorem checkPath_deepDir {k : Nat} (hpos : 0 < k) (hle : k + 15 ≤ FileTree.pathLimit) :
    FileTree.checkPath (deepDir k) = .ok () := by
  have hlocate := FileTree.locate_separators ⟨[]⟩ ⟨"/"⟩ hpos (by omega)
  obtain ⟨-, hhigh⟩ := length_deepDir hpos
  rw [deepDir, FileTree.checkPath_join (FileTree.locate_eq_ok_iff.1 hlocate).1 (by decide), if_neg]
  rw [deepDir] at hhigh
  omega

theorem makeScratch_deepHost {k : Nat} (n : UInt64) (launches : List Launch) (hpos : 0 < k)
    (hle : k + 15 ≤ FileTree.pathLimit) :
    (deepHost k n launches).makeScratch none = (.ok (deepDir k, deepLoc),
      { deepHost k n launches with tree := bareTree.insert deepLoc .directory }) := by
  have habs : (⟨"/"⟩ : Path).absolute (FileTree.separators k) = FileTree.separators k :=
    FileTree.absolute_separators _ hpos
  have hfind : bareTree.find ⟨"/"⟩ ((⟨"/"⟩ : Path).absolute (FileTree.separators k)) =
      .ok ([], .directory) := by
    rw [habs]
    exact FileTree.find_eq_ok_iff.2 ⟨FileTree.locate_separators _ _ hpos (by omega), rfl⟩
  have hdraw : TempLibrary.numbered.draw bareTree ⟨"/"⟩ (FileTree.separators k) .scratch =
      some zeros := by
    have htaken : bareTree.takenIn ⟨"/"⟩ (FileTree.separators k) =
        [Utf8.bytes "bin", Utf8.bytes "bin"] := by
      rw [FileTree.takenIn, hfind]
      rfl
    rw [TempLibrary.draw_numbered, FileTree.freeIn, htaken]
    decide +kernel
  refine Host.makeScratch_eq_ok_iff.2 ⟨rfl, FileTree.tempEntry_eq_ok_iff.2
    ⟨[], zeros, hfind, hdraw, ?_, rfl, checkPath_deepDir hpos hle⟩, rfl⟩
  rw [deepDir, ← habs]
  rfl

/-- Names for temporary entries are found there. -/
theorem finds_deepHost (k : Nat) (n : UInt64) (launches : List Launch) :
    TempLibrary.numbered.Finds ((deepHost k n launches).parentMade stock.scratchDir).2 :=
  TempLibrary.finds_numbered (by decide : bareTree.entries.length < 1000000)

/-- Where the library for an expression is to be left in such a host. -/
def deepLibrary (k : Nat) (n : UInt64) (ev : Evaluator) (expression : String) : Path :=
  (deepDir k).join (Host.libraryName
    (Request.numbered n (ev.unitFor (.atom .i64) expression) ev.references).crateName)

/-- **In such a host the compiler runs,** if the path of the source is not too long. -/
theorem exists_start_deepHost {k : Nat} (n : UInt64) (launches : List Launch) (hpos : 0 < k)
    (hle : k + 22 ≤ FileTree.pathLimit) {ev : Evaluator} (hrefs : PassesOn ev)
    (expression : String) : ∃ l, ev.start stock (.atom .i64) expression (deepHost k n launches) =
      .ok (l, deepLibrary k n ev expression) := by
  have hdir := checkPath_deepDir hpos (by omega)
  have hsource : FileTree.checkPath ((deepDir k).join "lib.rs") = .ok () := by
    obtain ⟨-, hne, -⟩ := FileTree.checkPath_eq_ok_iff.1 hdir
    have hlen := (Path.length_join hne "lib.rs").2
    have hhigh := (length_deepDir hpos).2
    have hbytes : (Utf8.bytes "lib.rs").length = 6 := by decide +kernel
    rw [FileTree.checkPath_join hdir (by decide), if_neg]
    omega
  have hpieces : Utf8.bytes (TempKind.scratch.name zeros) ∉
      FileTree.pieces ⟨"/"⟩ ⟨"/opt/rustc"⟩ := by decide +kernel
  have hstart := startable_withSource_rustc (deepHost k (n + 1) launches) bareTree deepLoc rfl
    find_opt find_rustc (List.mem_singleton.2 rfl) hpieces
  have hmake := makeScratch_deepHost (n + 1) launches hpos (by omega : k + 15 ≤ FileTree.pathLimit)
  exact exists_start_of_found none _ expression _ hmake hsource hstart hrefs

/-- The path of a library in such a directory grows with the digits of its number. -/
theorem length_deepLibrary {k : Nat} (n : UInt64) (hpos : 0 < k) (hle : k + 15 ≤ FileTree.pathLimit)
    (ev : Evaluator) (expression : String) :
    k + 45 + (Nat.toDigits 10 n.toNat).length ≤
        (Utf8.bytes (deepLibrary k n ev expression).text).length ∧
      (Utf8.bytes (deepLibrary k n ev expression).text).length ≤
        k + 47 + (Nat.toDigits 10 n.toNat).length := by
  obtain ⟨hlow, hhigh⟩ := length_deepDir hpos
  obtain ⟨-, hne, -⟩ := FileTree.checkPath_eq_ok_iff.1 (checkPath_deepDir hpos hle)
  have hjoin := Path.length_join hne
    (Host.libraryName
      (Request.numbered n (ev.unitFor (.atom .i64) expression) ev.references).crateName)
  rw [Request.length_libraryName] at hjoin
  rw [show (Request.numbered n _ _).name.number = n from rfl] at hjoin
  unfold deepLibrary
  omega

/-- A library that is left there is read, if its path is not too long. -/
theorem libraryLeft_deepLibrary {k : Nat} (n : UInt64) (hpos : 0 < k)
    (hle : k + 47 + (Nat.toDigits 10 n.toNat).length ≤ FileTree.pathLimit) {ev : Evaluator}
    (hrefs : PassesOn ev) (expression : String) (content : Bytes) (executable : Bool) :
    Host.libraryLeft (deepLibrary k n ev expression) (some (.file content executable)) =
      .ok content := by
  obtain ⟨l, hstart⟩ := exists_start_deepHost n [] hpos (by omega) hrefs expression
  have hcheck := (Settings.library_of_start_eq_ok hstart).2
  have hlen := (length_deepLibrary n hpos (by omega) ev expression).2
  unfold Host.libraryLeft
  rw [hcheck, if_neg (by omega)]

/-! ## Compilers and linkers -/

/-- A compiler that succeeds and leaves nothing. -/
def idle : Program := fun _ => ⟨[], [], .ofCode 0, none⟩

theorem isSuccess_idle (l : Launch) : (idle l).status.isSuccess = true :=
  (ExitStatus.isSuccess_ofCode 0).2 rfl

/-- A compiler that succeeds and leaves a library. -/
def leaving (content : Bytes) : Program := fun _ => ⟨[], [], .ofCode 0, some (.file content false)⟩

theorem isSuccess_leaving (content : Bytes) (l : Launch) :
    (leaving content l).status.isSuccess = true :=
  (ExitStatus.isSuccess_ofCode 0).2 rfl

/-- A linker that finds one value in all libraries. -/
def linking : Linker Nat := fun _ => .ok ⟨some Container.version, some (.ok 1), .ok ()⟩

end Evaluator

end ExprHost
