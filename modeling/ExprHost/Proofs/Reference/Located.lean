import ExprHost.Reference.Resolve

/-!
# Located foundations

What a foundation that was located in a directory holds, and how the crates it is
asked for are found: the foundational ones as they were when it was located, all
other sysroot crates in the directory as it is now.

* `findLibrary?_isSome_iff`: when a directory has a library for a crate.
* `Foundation.inDirectory_eq_ok_iff`: what a located foundation is made of.
* `Foundation.find?_eq`: **where a sysroot crate is found.**
* `Foundation.linked?`: the library of any crate, with `Foundation.linked?_id`.
-/

namespace ExprHost

theorem leastName?_eq_none_iff {names : List String} : leastName? names = none ↔ names = [] := by
  cases names with
  | nil => exact iff_of_true rfl rfl
  | cons name rest =>
    refine iff_of_false ?_ (List.cons_ne_nil name rest)
    rw [leastName?]
    cases leastName? rest with
    | none => simp
    | some least =>
      by_cases h : least < name
      · simp [h]
      · simp [h]

/-- A directory has a library for a crate if one of its names, read as text, is a
library's. -/
def HasLibrary (listing : Listing) (crate : String) : Prop :=
  ∃ names ∈ listing, ∃ name ∈ names, ∃ text,
    Utf8.strict? name = some text ∧ isLibraryOf crate (String.ofList text) = true

/-- **When a directory has a library for a crate.** -/
theorem findLibrary?_isSome_iff {libdir : Path} {listing : Listing} {crate : String} :
    (findLibrary? libdir listing crate).isSome = true ↔ HasLibrary listing crate := by
  cases listing with
  | none => simp [findLibrary?, HasLibrary]
  | some names =>
    have hfound : (findLibrary? libdir (some names) crate).isSome = true ↔
        (names.filterMap fun name => (Utf8.strict? name).map String.ofList).filter
          (isLibraryOf crate) ≠ [] := by
      rw [ne_eq, ← leastName?_eq_none_iff, ← ne_eq, Option.ne_none_iff_isSome]
      simp [findLibrary?, Option.isSome_bind]
    rw [hfound, List.ne_nil_iff_exists_cons]
    constructor
    · rintro ⟨text, rest, h⟩
      have hmem := List.mem_filter.1 (h ▸ List.mem_cons_self : text ∈ _)
      obtain ⟨name, hname, htext⟩ := List.mem_filterMap.1 hmem.1
      obtain ⟨cs, hcs, rfl⟩ := Option.map_eq_some_iff.1 htext
      exact ⟨names, rfl, name, hname, cs, hcs, hmem.2⟩
    · rintro ⟨names', hnames, name, hname, cs, hcs, hlib⟩
      obtain rfl := Option.mem_some_iff.1 hnames
      have hmem : String.ofList cs ∈ (names.filterMap fun name =>
          (Utf8.strict? name).map String.ofList).filter (isLibraryOf crate) :=
        List.mem_filter.2 ⟨List.mem_filterMap.2 ⟨name, hname, by rw [hcs]; rfl⟩, hlib⟩
      exact List.exists_cons_of_ne_nil (List.ne_nil_of_mem hmem)

theorem Crate.core_id_ne_std_id : Crate.core.id ≠ Crate.std.id := by decide +kernel

namespace Foundation

variable {libdir : Path} {before : Listing} {f : Foundation}

/-- **What a located foundation is made of.** -/
theorem inDirectory_eq_ok_iff :
    inDirectory libdir before = .ok f ↔ ∃ p q, findLibrary? libdir before "core" = some p ∧
      findLibrary? libdir before "std" = some q ∧
      f = ⟨libdir, [.ofSysroot "core" p, .ofSysroot "std" q]⟩ := by
  simp only [inDirectory, Crate.foundationalNames, cratesIn, crateIn]
  cases hcore : findLibrary? libdir before "core" with
  | none => simp
  | some p =>
    cases hstd : findLibrary? libdir before "std" with
    | none => simp
    | some q => simp [eq_comm]

/-- The names in a small library directory. -/
def sampleListing : Listing := some [Utf8.bytes "libstd-2b.rlib", Utf8.bytes "libcore-1a.rlib"]

/-- The foundation in a small library directory. -/
def sample : Foundation :=
  ⟨⟨"sysroot"⟩, [.ofSysroot "core" ⟨"sysroot/libcore-1a.rlib"⟩,
    .ofSysroot "std" ⟨"sysroot/libstd-2b.rlib"⟩]⟩

theorem inDirectory_sample : inDirectory ⟨"sysroot"⟩ sampleListing = .ok sample := by
  have htext : ∀ {x : Option Path} {s : String}, x.map Path.text = some s → x = some ⟨s⟩ := by
    intro x s h
    obtain ⟨p, rfl, rfl⟩ := Option.map_eq_some_iff.1 h
    rfl
  exact inDirectory_eq_ok_iff.2 ⟨_, _, htext (by decide +kernel), htext (by decide +kernel), rfl⟩

/-- **Where a sysroot crate is found:** a foundational one where it was when the
foundation was located, any other one where it is now. -/
theorem find?_eq (hf : inDirectory libdir before = .ok f) (now : Listing) (crate : String) :
    f.find? now crate =
      (findLibrary? libdir (if crate ∈ Crate.foundationalNames then before else now) crate).map
        (LinkedCrate.ofSysroot crate) := by
  obtain ⟨p, q, hp, hq, rfl⟩ := inDirectory_eq_ok_iff.1 hf
  by_cases hcore : crate = "core"
  · subst hcore
    simp [find?, LinkedCrate.ofSysroot, Crate.foundationalNames, hp]
  · by_cases hstd : crate = "std"
    · subst hstd
      simp [find?, LinkedCrate.ofSysroot, Crate.foundationalNames, hq]
    · have hnot : crate ∉ Crate.foundationalNames := by
        simp [Crate.foundationalNames, hcore, hstd]
      have hnone : List.find? (fun c : LinkedCrate => decide (c.name = crate))
          [.ofSysroot "core" p, .ofSysroot "std" q] = none := by
        simp [LinkedCrate.ofSysroot, Ne.symm hcore, Ne.symm hstd]
      rw [find?, hnone, if_neg hnot]

/-- The library of a crate, if it has one. -/
def linked? (f : Foundation) (now : Listing) (c : Crate) : Option LinkedCrate :=
  match c.origin with
  | .file path => some (.ofFile c path)
  | .sysroot => f.find? now c.name
  | .unlocated => none

theorem linked?_sysroot (f : Foundation) (now : Listing) (crate : String) :
    f.linked? now (.sysroot crate) = f.find? now crate := rfl

/-- A linked crate has the identity of the crate it is linked for. -/
theorem linked?_id (hf : inDirectory libdir before = .ok f) {now : Listing} {c : Crate}
    {e : LinkedCrate} (h : f.linked? now c = some e) : e.id = c.id := by
  obtain ⟨name, origin⟩ := c
  cases origin with
  | sysroot =>
    rw [linked?, find?_eq hf] at h
    obtain ⟨p, -, rfl⟩ := Option.map_eq_some_iff.1 h
    rfl
  | file path =>
    rw [linked?] at h
    obtain rfl := Option.some.inj h
    rfl
  | unlocated => cases h

/-- The crates of a located foundation are linked as they stand in it. -/
theorem crates_eq (hf : inDirectory libdir before = .ok f) (now : Listing) :
    ∃ core std, f.linked? now .core = some core ∧ f.linked? now .std = some std ∧
      f.crates = [core, std] := by
  obtain ⟨p, q, hp, hq, hcrates⟩ := inDirectory_eq_ok_iff.1 hf
  refine ⟨.ofSysroot "core" p, .ofSysroot "std" q, ?_, ?_, by rw [hcrates]⟩
  · rw [Crate.core, linked?_sysroot, find?_eq hf, if_pos (by decide), hp, Option.map_some]
  · rw [Crate.std, linked?_sysroot, find?_eq hf, if_pos (by decide), hq, Option.map_some]

end Foundation

end ExprHost
