import ExprHost.Proofs.Host.Running
import ExprHost.Proofs.Host.TempNames

/-!
# Scratch directories

A scratch directory is a new place in a tree. What a program leaves there under a plain
name is what is read under that name, and is gone once the directory is erased.

* `Host.parentMade`, `Host.makeScratch_cases`: how a scratch directory comes about.
* `Host.Scratch`: what is known of one.
* `Host.read_withArtifact`, `Host.exists_withArtifact_eq`: **what a program leaves there.**
-/

namespace ExprHost

namespace FileTree

theorem erase_insert_below {t : FileTree} {loc x : Location} (h : loc.isPrefixOf x = true)
    (e : Entry) : (t.insert x e).erase loc = t.erase loc := by
  simp [insert, erase, h]

theorem isPrefixOf_append (loc more : Location) : loc.isPrefixOf (loc ++ more) = true :=
  List.isPrefixOf_iff_prefix.2 (List.prefix_append loc more)

/-- No entry stands below one that is made beside it. -/
theorem not_isPrefixOf_sibling {loc : Location} {name other : FileName} (h : name ≠ other) :
    (loc ++ [name]).isPrefixOf (loc ++ [other]) = false := by
  rw [Bool.eq_false_iff, ne_eq, List.isPrefixOf_iff_prefix, List.prefix_append_right_inj]
  intro hpre
  exact h (List.cons_prefix_cons.1 hpre).1

theorem not_isPrefixOf_parent (loc : Location) (name : FileName) :
    (loc ++ [name]).isPrefixOf loc = false := by
  rw [Bool.eq_false_iff, ne_eq, List.isPrefixOf_iff_prefix]
  intro hpre
  have hlen := hpre.length_le
  rw [List.length_append, List.length_singleton] at hlen
  omega

end FileTree

namespace Host

/-! ## Making a scratch directory -/

/-- The tree once the parent of a scratch directory is there, and whether it is. -/
def parentMade (h : Host) : Option Path → Except OsError Unit × FileTree
  | none => (.ok (), h.tree)
  | some dir => h.tree.createDirs h.workDir dir

/-- A path leads to a new location of a tree, where a directory is made. -/
structure Scratch (t : FileTree) (workDir dir : Path) (loc : Location) : Prop where
  vacant : t.Vacant loc
  below : loc ≠ []
  leads : (t.insert loc .directory).locate workDir dir = .ok loc

variable {h : Host}

/-- A scratch directory is made in its parent, once that is there. -/
theorem makeScratch_eq (h : Host) (parent : Option Path) :
    h.makeScratch parent = match h.parentMade parent with
      | (.error e, tree) => (.error e.text, { h with tree })
      | (.ok (), tree) => { h with tree }.scratchIn (parent.getD h.tempDir) := by
  cases parent with
  | none => rfl
  | some dir => rfl

/-- **When there is a scratch directory:** once its parent is made there is a place for it. -/
theorem makeScratch_eq_ok_iff {parent : Option Path} {dir : Path} {loc : Location} {h' : Host} :
    h.makeScratch parent = (.ok (dir, loc), h') ↔ (h.parentMade parent).1 = .ok () ∧
      (h.parentMade parent).2.tempEntry h.temp h.workDir (parent.getD h.tempDir) .scratch =
        .ok (dir, loc) ∧
      h' = { h with tree := (h.parentMade parent).2.insert loc .directory } := by
  rw [makeScratch_eq]
  obtain ⟨result, tree⟩ := h.parentMade parent
  cases result with
  | error e => simp
  | ok u =>
    simp only [scratchIn, true_and]
    cases tree.tempEntry h.temp h.workDir (parent.getD h.tempDir) .scratch with
    | error words => simp
    | ok found =>
      obtain ⟨path, at'⟩ := found
      simp only [Prod.mk.injEq, Except.ok.injEq]
      constructor
      · rintro ⟨⟨rfl, rfl⟩, rfl⟩
        exact ⟨⟨rfl, rfl⟩, rfl⟩
      · rintro ⟨⟨rfl, rfl⟩, rfl⟩
        exact ⟨⟨rfl, rfl⟩, rfl⟩

/-- A new entry is a scratch directory. -/
theorem scratch_of_tempEntry {t : FileTree} {lib : TempLibrary} {workDir parent dir : Path}
    {loc : Location} (hentry : t.tempEntry lib workDir parent .scratch = .ok (dir, loc)) :
    Scratch t workDir dir loc := by
  have hvacant := FileTree.vacant_of_tempEntry hentry
  obtain ⟨at', drawn, hfind, -, rfl, rfl, hcheck⟩ := FileTree.tempEntry_eq_ok_iff.1 hentry
  obtain ⟨hlocate, hdir⟩ := FileTree.find_eq_ok_iff.1 hfind
  have hleads := FileTree.locate_join hlocate hdir (TempKind.scratch.plain_name drawn)
  rw [hcheck] at hleads
  exact ⟨hvacant, List.append_ne_nil_of_right_ne_nil _ (by simp),
    FileTree.locate_mono (FileTree.dirsIn_insert _ _ _) hleads⟩

/-- **How a scratch directory comes about:** its parent is made first, and stays whatever
becomes of it. -/
theorem makeScratch_cases (h : Host) (parent : Option Path) :
    (∃ words, h.makeScratch parent = (.error words, { h with tree := (h.parentMade parent).2 })) ∨
    ∃ dir loc, h.makeScratch parent =
        (.ok (dir, loc), { h with tree := (h.parentMade parent).2.insert loc .directory }) ∧
      Scratch (h.parentMade parent).2 h.workDir dir loc := by
  rw [makeScratch_eq]
  obtain ⟨result, tree⟩ := h.parentMade parent
  cases result with
  | error e => exact Or.inl ⟨_, rfl⟩
  | ok u =>
    simp only [scratchIn]
    cases hentry : tree.tempEntry h.temp h.workDir (parent.getD h.tempDir) .scratch with
    | error words => exact Or.inl ⟨_, rfl⟩
    | ok found =>
      obtain ⟨dir, loc⟩ := found
      exact Or.inr ⟨dir, loc, rfl, scratch_of_tempEntry hentry⟩

/-! ## What is left in a scratch directory -/

/-- What is read under a path where a program was to leave its library. -/
def libraryLeft (p : Path) (artifact : Option Entry) : Except OsError Bytes :=
  match FileTree.checkPath p with
  | .error e => .error e
  | .ok () =>
    match artifact with
    | none => .error .notFound
    | some .directory => .error .isDirectory
    | some (.file content _) => .ok content

/-- A directory where a library is about to be left: nothing stands under its name. -/
structure Awaits (h : Host) (dir : Path) (loc : Location) (name : String) : Prop where
  leads : h.tree.locate h.workDir dir = .ok loc
  isDir : h.tree.entry? loc = some .directory
  free : h.tree.Vacant (loc ++ [Utf8.bytes name])
  plain : FileTree.Plain name

variable {t : FileTree} {dir : Path} {loc : Location} {name : String} {args : List String}

/-- A scratch directory that holds one entry awaits a library under any other name. -/
theorem Scratch.awaits (hs : Scratch t h.workDir dir loc) {other : FileName} {e : Entry}
    (htree : h.tree = (t.insert loc .directory).insert (loc ++ [other]) e)
    (hplain : FileTree.Plain name) (hne : Utf8.bytes name ≠ other) : Awaits h dir loc name := by
  have hempty := hs.vacant.entry? hs.below
  have hdir := FileTree.entry?_insert_self (e := Entry.directory) hs.below hempty
  have hfree := (hs.vacant.append [Utf8.bytes name]).insert
    (FileTree.not_isPrefixOf_parent loc _) .directory
  refine ⟨?_, ?_, ?_, hplain⟩
  · rw [htree]
    exact FileTree.locate_mono (FileTree.dirsIn_insert _ _ _) hs.leads
  · rw [htree]
    exact FileTree.entry?_insert_of_some hdir _ e
  · rw [htree]
    exact hfree.insert (FileTree.not_isPrefixOf_sibling hne) e

/-- A scratch directory is removed with what it holds. -/
theorem Scratch.erase (hs : Scratch t h.workDir dir loc) (other : FileName) (e : Entry) :
    ((t.insert loc .directory).insert (loc ++ [other]) e).erase loc = t := by
  rw [FileTree.erase_insert_below (FileTree.isPrefixOf_append loc _),
    FileTree.erase_insert _ hs.vacant]

/-- The host after a program has left its library: an entry, if there is a path for it. -/
theorem withArtifact_eq (hw : Awaits h dir loc name)
    (hargs : artifactPath? args = some (dir.join name)) (artifact : Option Entry) :
    h.withArtifact args artifact =
      match artifact, FileTree.checkPath (dir.join name) with
      | some e, .ok () => { h with tree := h.tree.insert (loc ++ [Utf8.bytes name]) e }
      | _, _ => h := by
  cases artifact with
  | none => rfl
  | some e =>
    rw [withArtifact, hargs, Option.map_some, FileTree.locate_join hw.leads hw.isDir hw.plain]
    cases FileTree.checkPath (dir.join name) with
    | error os => rfl
    | ok u =>
      simp only [Except.map]
      rw [hw.free.put_eq]

theorem artifact_loc_ne_nil (loc : Location) (name : FileName) : loc ++ [name] ≠ [] :=
  List.append_ne_nil_of_right_ne_nil _ (List.cons_ne_nil name [])

theorem workDir_withArtifact (h : Host) (args : List String) (artifact : Option Entry) :
    (h.withArtifact args artifact).workDir = h.workDir := by
  cases artifact with
  | none => rfl
  | some e =>
    rw [withArtifact]
    split <;> rfl

/-- **What a program leaves is what is read,** under a path that the system takes. -/
theorem read_withArtifact (hw : Awaits h dir loc name)
    (hargs : artifactPath? args = some (dir.join name)) (artifact : Option Entry) :
    (h.withArtifact args artifact).tree.read (h.withArtifact args artifact).workDir
      (dir.join name) = libraryLeft (dir.join name) artifact := by
  have hleads := FileTree.locate_join hw.leads hw.isDir hw.plain
  rw [workDir_withArtifact, withArtifact_eq hw hargs]
  unfold libraryLeft
  cases hcheck : FileTree.checkPath (dir.join name) with
  | error e =>
    -- nothing could be left under the path, and nothing is found there
    rw [hcheck] at hleads
    cases artifact <;> exact FileTree.read_of_locate_error hleads
  | ok u =>
    rw [hcheck] at hleads
    have hfree := hw.free.entry? (artifact_loc_ne_nil loc _)
    cases artifact with
    | none => rw [FileTree.read_of_locate hleads, hfree]
    | some e =>
      have hstays := FileTree.locate_mono
        (FileTree.dirsIn_insert h.tree (loc ++ [Utf8.bytes name]) e) hleads
      have hentry := FileTree.entry?_insert_self (e := e) (artifact_loc_ne_nil loc _) hfree
      cases e <;> rw [FileTree.read_of_locate hstays, hentry]

/-- **What a program leaves is gone** once the directory is erased, and is all that it does. -/
theorem exists_withArtifact_eq (hw : Awaits h dir loc name)
    (hargs : artifactPath? args = some (dir.join name)) (artifact : Option Entry) :
    ∃ tree, h.withArtifact args artifact = { h with tree } ∧ tree.erase loc = h.tree.erase loc := by
  rw [withArtifact_eq hw hargs]
  cases artifact with
  | none => exact ⟨h.tree, rfl, rfl⟩
  | some e =>
    cases FileTree.checkPath (dir.join name) with
    | error os => exact ⟨h.tree, rfl, rfl⟩
    | ok u =>
      exact ⟨_, rfl, FileTree.erase_insert_below (FileTree.isPrefixOf_append loc _) e⟩

end Host

end ExprHost
