import ExprHost.Proofs.Host.Places
import ExprHost.Scope.Load

/-!
# Loading and unloading

A load either fails and gives up what it has staged, or stages the image at a new location
and counts a live scope. The end of a scope takes both back.

* `Host.Restored`: a host that is as it was, if temporary entries are removed.
* `LoadError.OfLoad`: the errors of loads, which do not close anything.
* `Scope.load_cases`: **the two ways a load can end.**
* `Scope.staged_of_load`: where an image that is loaded is staged.
* `Scope.restored_unload`: an unloaded scope leaves the host as it was before the load.
-/

namespace ExprHost

/-- A host that differs from an earlier one in its files at most, and not even there if temporary
entries are removed. -/
def Host.Restored (h h' : Host) : Prop :=
  ∃ tree, h' = { h with tree } ∧ (h.temp.Removes → tree = h.tree)

theorem Host.Restored.refl (h : Host) : h.Restored h := ⟨h.tree, rfl, fun _ => rfl⟩

theorem Host.Restored.eq {h h' : Host} (hr : h.Restored h') (hremoves : h.temp.Removes) :
    h' = h := by
  obtain ⟨tree, rfl, htree⟩ := hr
  rw [htree hremoves]

/-- A temporary entry that was made and is given up again. -/
theorem Host.restored_remove {h : Host} {loc : Location} {e : Entry}
    (herase : (h.tree.insert loc e).erase loc = h.tree) :
    h.Restored (Host.remove { h with tree := h.tree.insert loc e } loc) :=
  ⟨_, rfl, fun hremoves => (hremoves _ _).trans herase⟩

/-- The errors of loads: nothing is closed there. -/
def LoadError.OfLoad : LoadError → Prop
  | .cannotClose _ => False
  | _ => True

namespace Scope

variable {V : Type}

/-- The host with an image staged at a location, where a scope has loaded it. -/
def loadedAt (h : Host) (loc : Location) (content : Bytes) : Host :=
  { h with tree := h.tree.insert loc (.file content false), live := h.live + 1 }

theorem ofLoad_of_openDependencies {linker : Linker V} {loader : DependencyLoader} {h : Host}
    {names : List String} {e : LoadError}
    (he : openDependencies linker loader h names = .error e) : e.OfLoad := by
  induction names with
  | nil => cases he
  | cons name rest ih =>
    rw [openDependencies] at he
    split at he
    · cases he
      trivial
    · split at he
      · cases he
        trivial
      · exact ih he

/-- An image is staged as a new entry, if there is a place for it. -/
theorem stage_eq_ok_iff {h staged : Host} {dir : Option Path} {content : Bytes} {loc : Location} :
    h.stage dir content = .ok (loc, staged) ↔
      (∃ path, h.tree.tempEntry h.temp h.workDir (dir.getD h.tempDir) .image = .ok (path, loc)) ∧
        staged = { h with tree := h.tree.insert loc (.file content false) } := by
  unfold Host.stage
  cases h.tree.tempEntry h.temp h.workDir (dir.getD h.tempDir) .image with
  | error e => simp [bind, Except.bind]
  | ok found =>
    obtain ⟨path, at'⟩ := found
    simp only [bind, Except.bind, pure, Except.pure, Except.ok.injEq, Prod.mk.injEq]
    constructor
    · rintro ⟨rfl, rfl⟩
      exact ⟨⟨path, rfl, rfl⟩, rfl⟩
    · rintro ⟨⟨path', -, rfl⟩, rfl⟩
      exact ⟨rfl, rfl⟩

/-- What is staged can be erased without a trace. -/
theorem stage_eq_ok {h staged : Host} {dir : Option Path} {content : Bytes} {loc : Location}
    (hstage : h.stage dir content = .ok (loc, staged)) :
    staged = { h with tree := h.tree.insert loc (.file content false) } ∧
      (h.tree.insert loc (.file content false)).erase loc = h.tree := by
  obtain ⟨⟨path, hmake⟩, hstaged⟩ := stage_eq_ok_iff.1 hstage
  exact ⟨hstaged, FileTree.erase_insert_of_tempEntry hmake _⟩

/-- **The two ways a load can end:** it fails and restores the host, or the image is staged and
loaded from there. -/
theorem load_cases (linker : Linker V) (loader : DependencyLoader) (dir : Option Path)
    (image : Image) (h : Host) :
    (∃ e h', load linker loader dir image h = (.error e, h') ∧ e.OfLoad ∧ h.Restored h') ∨
    ∃ library loc, linker image.bytes = .ok library ∧
      load linker loader dir image h = (.ok ⟨some library, loc⟩, loadedAt h loc image.bytes) ∧
      (h.tree.insert loc (.file image.bytes false)).erase loc = h.tree := by
  unfold load
  cases hdeps : openDependencies linker loader h image.dependencies with
  | error e => exact Or.inl ⟨e, h, rfl, ofLoad_of_openDependencies hdeps, .refl h⟩
  | ok u =>
    cases hstage : h.stage dir image.bytes with
    | error words => exact Or.inl ⟨_, h, rfl, trivial, .refl h⟩
    | ok found =>
      obtain ⟨loc, staged⟩ := found
      obtain ⟨rfl, herase⟩ := stage_eq_ok hstage
      cases hlink : linker image.bytes with
      | error os => exact Or.inl ⟨_, _, rfl, trivial, Host.restored_remove herase⟩
      | ok library => exact Or.inr ⟨library, loc, rfl, rfl, herase⟩

/-- An image that is loaded is staged in a directory that is there. -/
theorem staged_of_load {linker : Linker V} {loader : DependencyLoader} {dir : Option Path}
    {image : Image} {h h' : Host} {scope : Scope V}
    (hload : load linker loader dir image h = (.ok scope, h')) :
    ∃ parent name, h.tree.find h.workDir (h.workDir.absolute (dir.getD h.tempDir)) =
        .ok (parent, .directory) ∧ scope.staged = parent ++ [name] := by
  unfold load at hload
  split at hload
  · cases hload
  · split at hload
    · cases hload
    · rename_i loc staged hstage
      obtain ⟨⟨path, hentry⟩, -⟩ := stage_eq_ok_iff.1 hstage
      obtain ⟨parent, drawn, hfind, -, -, rfl, -⟩ := FileTree.tempEntry_eq_ok_iff.1 hentry
      split at hload
      · cases hload
      · cases hload
        exact ⟨parent, _, hfind, rfl⟩

/-- An unloaded scope leaves the host as it was before the load. -/
theorem restored_unload {h : Host} {loc : Location} {content : Bytes} (library : Library V)
    (herase : (h.tree.insert loc (.file content false)).erase loc = h.tree) :
    h.Restored (Scope.unload ⟨some library, loc⟩ (loadedAt h loc content)).2 := by
  obtain ⟨tree, hremoved, htree⟩ := Host.restored_remove herase
  refine ⟨tree, ?_, htree⟩
  have hlive : h.live + 1 - 1 = h.live := Int.add_sub_cancel h.live 1
  simp only [Host.remove, Host.mk.injEq] at hremoved
  simp only [unload, release, drop, loadedAt, Host.remove, hlive, hremoved.1]

end Scope

end ExprHost
