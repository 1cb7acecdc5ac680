import ExprHost.Host.FileTree

/-!
# Temporary entries

Entries made under names of their own, to be given up again. They come from a library of their
own: what it draws for a name, how it words a failure, and what is left of an entry that is given
up, is its business. Only that a name it draws is free is built in.

* `TempKind.name`: what a temporary entry is called.
* `TempLibrary`: the library.
* `TempLibrary.Removes`, `TempLibrary.Finds`: it works, where nothing gets in its way.
* `FileTree.tempEntry`: the path and the location of a new entry.
* `FileTree.Vacant`: nothing stands at a location or below it.
* `erase_insert_of_tempEntry`: what is made there and erased again leaves no trace.
-/

namespace ExprHost

/-! ## Names -/

/-- What a temporary entry is for. -/
inductive TempKind
  | scratch
  | image
deriving DecidableEq, Inhabited

/-- What a name begins with. -/
def TempKind.front : TempKind → String
  | scratch => "exprbox-"
  | image => "exprbox-image-"

/-- What a name ends in. -/
def TempKind.back : TempKind → String
  | scratch => ""
  | image => ".so"

/-- What is drawn for a name: six letters and digits. -/
structure Drawn where
  chars : List Char
  length_chars : chars.length = 6
  isAlphanum_chars : ∀ c ∈ chars, c.isAlphanum = true
deriving DecidableEq

/-- **What a temporary entry is called.** -/
def TempKind.name (kind : TempKind) (drawn : Drawn) : String :=
  kind.front ++ String.ofList drawn.chars ++ kind.back

theorem TempKind.toList_name (kind : TempKind) (drawn : Drawn) :
    (kind.name drawn).toList = kind.front.toList ++ drawn.chars ++ kind.back.toList := by
  rw [name, String.toList_append, String.toList_append, String.toList_ofList]

/-! ## The library -/

/-- The names that follow a directory in the locations of all entries below it. -/
def FileTree.namesBelow (t : FileTree) (dir : Location) : List FileName :=
  t.entries.filterMap fun p => if dir.isPrefixOf p.1 then p.1[dir.length]? else none

/-- **The library that temporary entries come from.** -/
structure TempLibrary where
  /-- What is drawn for the name of a new entry in a directory, which may be seen from the working
  directory; nothing if the attempts are used up before a name is free. -/
  draw : (t : FileTree) → (workDir dir : Path) → TempKind → Option Drawn
  /-- The words for a failure, which can name the path that was tried. -/
  words : OsError → Path → String
  /-- The files once an entry has been given up. -/
  remove : FileTree → Location → FileTree
  /-- A name that is drawn is free. -/
  fresh : ∀ {t : FileTree} {workDir dir : Path} {loc : Location} {kind : TempKind} {drawn : Drawn},
    t.find workDir (workDir.absolute dir) = .ok (loc, .directory) →
    draw t workDir dir kind = some drawn → Utf8.bytes (kind.name drawn) ∉ t.namesBelow loc

namespace TempLibrary

instance : Inhabited TempLibrary :=
  ⟨⟨fun _ _ _ _ => none, fun e _ => e.text, fun t _ => t, fun _ h => by cases h⟩⟩

/-- What is given up is removed, with all that lies below it. -/
def Removes (lib : TempLibrary) : Prop := ∀ t loc, lib.remove t loc = t.erase loc

/-- Among given files a free name is found for every new entry. -/
def Finds (lib : TempLibrary) (t : FileTree) : Prop :=
  ∀ workDir dir kind, (lib.draw t workDir dir kind).isSome = true

end TempLibrary

/-! ## Entries -/

namespace FileTree

/-- **Where a new temporary entry goes:** its path, seen from the root, and its location.
It lies in a directory that has to be there; the empty path stands for the working
directory. -/
def tempEntry (t : FileTree) (lib : TempLibrary) (workDir dir : Path) (kind : TempKind) :
    Except String (Path × Location) :=
  let base := workDir.absolute dir
  match lib.draw t workDir dir kind with
  | none => .error (lib.words .alreadyExists base)
  | some drawn =>
    let path := base.join (kind.name drawn)
    match checkPath path with
    | .error e => .error (lib.words e path)
    | .ok () =>
      match t.find workDir base with
      | .error e => .error (lib.words e path)
      | .ok (_, .file ..) => .error (lib.words .notDirectory path)
      | .ok (loc, .directory) => .ok (path, loc ++ [Utf8.bytes (kind.name drawn)])

/-- Nothing stands at a location or below it. -/
def Vacant (t : FileTree) (loc : Location) : Prop :=
  ∀ p ∈ t.entries, loc.isPrefixOf p.1 = false

theorem vacant_of_not_mem {t : FileTree} {dir : Location} {name : FileName}
    (h : name ∉ t.namesBelow dir) : t.Vacant (dir ++ [name]) := by
  intro l hl
  refine Bool.eq_false_iff.2 fun hpre => h ?_
  obtain ⟨tail, htail⟩ := List.isPrefixOf_iff_prefix.1 hpre
  refine List.mem_filterMap.2 ⟨l, hl, ?_⟩
  have hdir : dir.isPrefixOf l.1 = true :=
    List.isPrefixOf_iff_prefix.2 ⟨_, by rw [← List.append_assoc]; exact htail⟩
  rw [if_pos hdir, ← htail]
  simp

theorem erase_eq_self {t : FileTree} {loc : Location} (h : t.Vacant loc) : t.erase loc = t := by
  have hall : t.entries.filter (fun p => !loc.isPrefixOf p.1) = t.entries :=
    List.filter_eq_self.2 fun l hl => by simp [h l hl]
  rw [erase, hall]

/-- What is made where nothing stands is all that is erased there. -/
theorem erase_insert {t : FileTree} {loc : Location} (e : Entry) (h : t.Vacant loc) :
    (t.insert loc e).erase loc = t := by
  have hself : loc.isPrefixOf loc = true := List.isPrefixOf_iff_prefix.2 (List.prefix_refl loc)
  have hall := congrArg entries (erase_eq_self h)
  simp only [erase] at hall
  simp only [insert, erase, List.filter_append, List.filter_cons, List.filter_nil, hself, hall]
  simp

/-- **Where a new temporary entry goes:** below a directory that is there, under the name drawn,
whose path the system takes. -/
theorem tempEntry_eq_ok_iff {t : FileTree} {lib : TempLibrary} {workDir dir path : Path}
    {kind : TempKind} {loc : Location} : t.tempEntry lib workDir dir kind = .ok (path, loc) ↔
      ∃ parent drawn, t.find workDir (workDir.absolute dir) = .ok (parent, .directory) ∧
        lib.draw t workDir dir kind = some drawn ∧
        path = (workDir.absolute dir).join (kind.name drawn) ∧
        loc = parent ++ [Utf8.bytes (kind.name drawn)] ∧ checkPath path = .ok () := by
  unfold tempEntry
  constructor
  · intro h
    split at h
    · cases h
    · rename_i drawn hdraw
      simp only at h
      split at h
      · cases h
      · rename_i hcheck
        split at h
        · cases h
        · cases h
        · rename_i parent hfind
          cases h
          exact ⟨parent, drawn, hfind, hdraw, rfl, rfl, hcheck⟩
  · rintro ⟨parent, drawn, hfind, hdraw, rfl, rfl, hcheck⟩
    simp only [hdraw, hcheck, hfind]

theorem vacant_of_tempEntry {t : FileTree} {lib : TempLibrary} {workDir dir path : Path}
    {kind : TempKind} {loc : Location} (h : t.tempEntry lib workDir dir kind = .ok (path, loc)) :
    t.Vacant loc := by
  obtain ⟨parent, drawn, hfind, hdraw, -, rfl, -⟩ := tempEntry_eq_ok_iff.1 h
  exact vacant_of_not_mem (lib.fresh hfind hdraw)

/-- **What is made under a fresh name and erased again leaves no trace.** -/
theorem erase_insert_of_tempEntry {t : FileTree} {lib : TempLibrary} {workDir dir path : Path}
    {kind : TempKind} {loc : Location} (h : t.tempEntry lib workDir dir kind = .ok (path, loc))
    (e : Entry) : (t.insert loc e).erase loc = t :=
  erase_insert e (vacant_of_tempEntry h)

end FileTree

end ExprHost
