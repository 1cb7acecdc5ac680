import ExprHost.Proofs.Reference.HostTypes
import ExprHost.Proofs.Reference.LibraryFiles
import ExprHost.Proofs.Reference.Spellings

/-!
# The library directory after the foundation was located

Of what the library directory holds when types are resolved, only the least files of some crates
are seen: the sysroot crates that the types mention and that are none of the foundation's. Files
added to the directory or removed from it change nothing else.

* `AsksFor`: the crates that are looked up in the directory.
* `Foundation.linked?_congr`: what is seen of the directory for one crate.
* `linkAll_congr`, `resolve_congr`: **listings with the same least files lead to the same result.**
* `findLibrary?_eq_of_resolve`: what a reference set tells of the directory.
* `resolve_seesLeast`: **what a result can depend on.**
-/

namespace ExprHost

variable {libdir : Path} {before now now' : Listing} {f : Foundation} {types : List TypeDesc}

/-- Where listings have the same file for a crate that is looked up in them, it is linked alike. -/
theorem Foundation.linked?_congr (hf : inDirectory libdir before = .ok f) {c : Crate}
    (h : ∀ name, c = .sysroot name → name ∉ Crate.foundationalNames →
      findLibrary? libdir now name = findLibrary? libdir now' name) :
    f.linked? now c = f.linked? now' c := by
  obtain ⟨name, origin⟩ := c
  cases origin with
  | file path => rfl
  | unlocated => rfl
  | sysroot =>
    rw [linked?, linked?, find?_eq hf, find?_eq hf]
    by_cases hname : name ∈ Crate.foundationalNames
    · rw [if_pos hname, if_pos hname]
    · rw [if_neg hname, if_neg hname, h name rfl hname]

namespace References

/-- A given type mentions, at any depth, this sysroot crate, and it is none of the foundation's. -/
structure AsksFor (types : List TypeDesc) (name : String) : Prop where
  not_foundational : name ∉ Crate.foundationalNames
  held : ∃ t ∈ types, ∃ u, t.Holds u ∧ u.crate = .sysroot name

/-- The baseline asks for no crate. -/
theorem asksFor_of_mentioned {name : String} (h : Mentioned types (.sysroot name))
    (hname : name ∉ Crate.foundationalNames) : AsksFor types name := by
  refine ⟨hname, ?_⟩
  obtain ⟨t, ht, u, hu, hcrate⟩ := h
  rcases List.mem_append.1 ht with hbaseline | htypes
  · have hmem : u.crate ∈ t.crates := TypeDesc.crate_mem_of_holds hu
    have hfoundational : u.crate.name ∈ Crate.foundationalNames := by
      rcases crates_of_baseline hbaseline with hcrates | hcrates
      · rw [hcrates, List.mem_singleton] at hmem
        rw [hmem]
        decide
      · rw [hcrates, List.mem_singleton] at hmem
        rw [hmem]
        decide
    rw [hcrate] at hfoundational
    exact absurd hfoundational hname
  · exact ⟨t, htypes, u, hu, hcrate⟩

theorem AsksFor.involved {name : String} (h : AsksFor types name) :
    Involved types (.sysroot name) := by
  obtain ⟨t, ht, hheld⟩ := h.held
  exact .inr (.inr ⟨t, List.mem_append_right _ ht, hheld⟩)

/-! ## Two listings -/

/-- Linking sees of a listing only what is linked for the mentioned crates. -/
theorem linkAll_congr {ms : List Mention}
    (h : ∀ m ∈ ms, f.linked? now m.crate = f.linked? now' m.crate) :
    ∀ linked : List LinkedCrate, linkAll f now linked ms = linkAll f now' linked ms := by
  induction ms with
  | nil => exact fun _ => rfl
  | cons m rest ih =>
    obtain ⟨hm, hrest⟩ := List.forall_mem_cons.1 h
    intro linked
    have hlink : link f now m = link f now' m := by
      rw [link_eq, link_eq, hm]
    rw [linkAll, linkAll, hlink, ih hrest linked]
    split
    · rfl
    · cases link f now' m with
      | error e => rfl
      | ok c => exact ih hrest (linked ++ [c])

/-- **Listings with the same least files lead to the same result.** -/
theorem resolve_congr (hf : Foundation.inDirectory libdir before = .ok f)
    (h : ∀ name, AsksFor types name → ∀ file, now.Least name file ↔ now'.Least name file) :
    resolve types f now = resolve types f now' := by
  rw [resolve, resolve, linkAll_congr]
  intro m hm
  refine Foundation.linked?_congr hf fun name hcrate hname => ?_
  have hmentioned : Mentioned types (.sysroot name) := hcrate ▸ holds_of_mem_mentions hm
  exact findLibrary?_eq_iff.2 (h name (asksFor_of_mentioned hmentioned hname))

/-- The entry of a crate that is looked up in the directory has the file found there. -/
theorem exists_entry_of_asksFor (hf : Foundation.inDirectory libdir before = .ok f)
    (hid : IdsApart types) {r : References} (hr : resolve types f now = .ok r) {name : String}
    (hname : AsksFor types name) :
    ∃ e ∈ r.crates, e.id = (Crate.sysroot name).id ∧
      findLibrary? libdir now name = some e.path := by
  obtain ⟨d, hd, hdid, e, he, hfor⟩ := exists_entry_of_involved hf hr hname.involved
  obtain rfl := hid d _ hd hname.involved hdid
  have hnot : ¬(Crate.sysroot name).isFoundational = true := fun h =>
    hname.not_foundational (isFoundational_sysroot.1 h)
  have hlib := hfor.library.1
  rw [if_neg hnot] at hlib
  exact ⟨e, he, hfor.id, hlib⟩

/-- A reference set tells which files there are of the crates that were looked up. -/
theorem findLibrary?_eq_of_resolve (hf : Foundation.inDirectory libdir before = .ok f)
    (hid : IdsApart types) {r : References} (hr : resolve types f now = .ok r)
    (hr' : resolve types f now' = .ok r) {name : String} (hname : AsksFor types name) :
    findLibrary? libdir now name = findLibrary? libdir now' name := by
  obtain ⟨e, he, heid, hfound⟩ := exists_entry_of_asksFor hf hid hr hname
  obtain ⟨e', he', heid', hfound'⟩ := exists_entry_of_asksFor hf hid hr' hname
  have hsame : e = e' :=
    List.inj_on_of_nodup_map (nodup_ids_of_resolve hf hr) he he' (heid.trans heid'.symm)
  rw [hfound, hfound', hsame]

/-- **What a result can depend on.** If the types ask for no sysroot crate but the foundation's, the
result is the same whatever the directory holds by then. If two listings lead to different results,
they have different least files for some crate that is asked for. Where identities are apart, two
sets are the same only if the least files of all those crates are. -/
theorem resolve_seesLeast (hf : Foundation.inDirectory libdir before = .ok f) :
    ((∀ name, ¬AsksFor types name) → ∀ now now', resolve types f now = resolve types f now') ∧
    (∀ now now', resolve types f now ≠ resolve types f now' →
      ∃ name, AsksFor types name ∧ ¬∀ file, now.Least name file ↔ now'.Least name file) ∧
    (IdsApart types → ∀ now now' r r', resolve types f now = .ok r →
      resolve types f now' = .ok r' →
      (r = r' ↔ ∀ name, AsksFor types name →
        ∀ file, now.Least name file ↔ now'.Least name file)) := by
  refine ⟨fun hnone now now' => resolve_congr hf fun name hname => absurd hname (hnone name),
    fun now now' hne => ?_, fun hid now now' r r' hr hr' => ⟨?_, ?_⟩⟩
  · by_contra hsame
    push Not at hsame
    exact hne (resolve_congr hf hsame)
  · rintro rfl name hname
    exact findLibrary?_eq_iff.1 (findLibrary?_eq_of_resolve hf hid hr hr' hname)
  · intro hsame
    rw [resolve_congr hf hsame, hr'] at hr
    exact (Except.ok.inj hr).symm

/-! ## A crate of the library directory that is looked up -/

/-- A type that is declared in a sysroot crate. -/
def inAlloc : TypeDesc := .plain (.ofPath "alloc::rc::Rc") (.sysroot "alloc")

theorem not_asksFor_vecOfShared (name : String) : ¬AsksFor [vecOfShared] name := by
  intro h
  have hmem := wanted_vecOfShared (mem_wanted_iff.2 h.involved)
  simp only [List.mem_cons, List.not_mem_nil, or_false] at hmem
  have hfoundational : name = "core" ∨ name = "std" := by
    simpa [Crate.sysroot, Crate.core, Crate.std, Crate.inFile] using hmem
  exact h.not_foundational (List.mem_pair.2 hfoundational)

theorem wanted_inAlloc : wanted [inAlloc] ⊆ [Crate.core, .std, .sysroot "alloc"] := by
  have hall : wanted [inAlloc] =
      [Crate.core, .std, .core, .core, .std, .std, .std, .std, .sysroot "alloc"] := rfl
  rw [hall]
  intro c hc
  simp only [List.mem_cons] at hc ⊢
  tauto

/-- The directory has the crate's library in one listing and not in the other, so one leads to a
reference set and the other to an error. -/
theorem resolve_inAlloc_ne :
    resolve [inAlloc] .sample (some [Utf8.bytes "liballoc-1.rlib"]) ≠
      resolve [inAlloc] .sample (some []) := by
  have hid : IdsApart [inAlloc] := idsApart_of_nodup wanted_inAlloc (by decide +kernel)
  have hfile : HasLibrary (some [Utf8.bytes "liballoc-1.rlib"]) "alloc" :=
    hasLibrary_iff.2 ⟨"liballoc-1.rlib", ⟨_, rfl, List.mem_cons_self⟩, "1", rfl⟩
  have hnofile : ¬HasLibrary (some []) "alloc" := by
    rintro ⟨names, hnames, name, hname, -⟩
    obtain rfl := Option.mem_some_iff.1 hnames
    exact List.not_mem_nil hname
  have halloc : Mentioned [inAlloc] (.sysroot "alloc") :=
    ⟨inAlloc, List.mem_append_right _ List.mem_cons_self, inAlloc, .self _, rfl⟩
  obtain ⟨r, hr⟩ := (exists_resolve_iff Foundation.inDirectory_sample hid).2 fun c hc => by
    have hmem := wanted_inAlloc (mem_wanted_iff.2 (.inr (.inr hc)))
    simp only [List.mem_cons, List.not_mem_nil, or_false] at hmem
    rcases hmem with rfl | rfl | rfl
    · exact .inl (by decide)
    · exact .inl (by decide)
    · exact .inr hfile
  intro heq
  rcases (exists_resolve_iff Foundation.inDirectory_sample hid).1 ⟨r, heq ▸ hr⟩ _ halloc with h | h
  · exact absurd h (by decide)
  · exact hnofile h

theorem resolve_seesLeast_inAlloc :
    Foundation.inDirectory ⟨"sysroot"⟩ Foundation.sampleListing = .ok .sample ∧
    (∀ now now', resolve [vecOfShared] .sample now = resolve [vecOfShared] .sample now') ∧
    ∃ name, AsksFor [inAlloc] name ∧ ¬∀ file,
      Listing.Least (some [Utf8.bytes "liballoc-1.rlib"]) name file ↔
        Listing.Least (some []) name file := by
  refine ⟨Foundation.inDirectory_sample,
    (resolve_seesLeast Foundation.inDirectory_sample).1 not_asksFor_vecOfShared, ?_⟩
  exact (resolve_seesLeast Foundation.inDirectory_sample).2.1 _ _ resolve_inAlloc_ne

end References

end ExprHost
