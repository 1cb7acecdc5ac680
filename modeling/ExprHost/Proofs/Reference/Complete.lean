import ExprHost.Proofs.Reference.Leaders
import ExprHost.Proofs.Reference.Views
import ExprHost.Proofs.StableSort

/-!
# What a reference set holds

Where different crates have different identities, a reference set has one entry for
each crate involved, with the library that belongs to it, and no other. There is one
exactly when every mentioned crate has a library.

* `Available`: a crate has a library.
* `LinkedFor`: an entry is the right one for a crate.
* `mem_leaders_iff`: with identities apart, all crates involved are leaders.
* `resolve_entries`: **when there is a reference set, and what is in it.**
-/

namespace ExprHost.References

/-- A crate has a library: it is given as a file, or it is one of the foundation, or the
library directory has one now. -/
def Available (now : Listing) (c : Crate) : Prop :=
  match c.origin with
  | .file _ => True
  | .sysroot => c.isFoundational = true ∨ HasLibrary now c.name
  | .unlocated => False

/-- An entry is the right one for a crate. The libraries of foundational crates are those
found at first, those of other sysroot crates the ones there are now. -/
structure LinkedFor (libdir : Path) (before now : Listing) (c : Crate) (e : LinkedCrate) : Prop where
  name : e.name = c.name
  id : e.id = c.id
  library : match c.origin with
    | .file path =>
      e.path = path ∧ e.linkage = if path.extension? = some "so" then .dynamic else .static
    | .sysroot =>
      findLibrary? libdir (if c.isFoundational then before else now) c.name = some e.path ∧
        e.linkage = .sysroot
    | .unlocated => False

variable {libdir : Path} {before now : Listing} {f : Foundation} {types : List TypeDesc}

theorem isFoundational_sysroot {name : String} :
    (⟨name, .sysroot⟩ : Crate).isFoundational = true ↔ name ∈ Crate.foundationalNames :=
  List.contains_iff_mem

/-- A crate is linked with the entry that is right for it. -/
theorem linked?_eq_some_iff (hf : Foundation.inDirectory libdir before = .ok f) {c : Crate}
    {e : LinkedCrate} : f.linked? now c = some e ↔ LinkedFor libdir before now c e := by
  constructor
  · intro h
    have hid := Foundation.linked?_id hf h
    obtain ⟨name, origin⟩ := c
    cases origin with
    | unlocated => cases h
    | file path =>
      obtain rfl := Option.some.inj h
      exact ⟨rfl, hid, rfl, rfl⟩
    | sysroot =>
      rw [Foundation.linked?, Foundation.find?_eq hf] at h
      obtain ⟨p, hp, rfl⟩ := Option.map_eq_some_iff.1 h
      refine ⟨rfl, hid, ?_, rfl⟩
      simp only [isFoundational_sysroot]
      exact hp
  · rintro ⟨hname, hid, hlib⟩
    obtain ⟨ename, epath, elinkage, eid⟩ := e
    obtain ⟨name, origin⟩ := c
    obtain rfl : ename = name := hname
    obtain rfl : eid = Crate.id _ := hid
    cases origin with
    | unlocated => exact hlib.elim
    | file path =>
      obtain ⟨hpath, hlink⟩ := hlib
      obtain rfl : epath = path := hpath
      obtain rfl : elinkage = _ := hlink
      rfl
    | sysroot =>
      obtain ⟨hfound, hlink⟩ := hlib
      obtain rfl : elinkage = .sysroot := hlink
      simp only [isFoundational_sysroot] at hfound
      rw [Foundation.linked?, Foundation.find?_eq hf, hfound]
      rfl

/-- A crate is linked exactly when it has a library. -/
theorem linked?_isSome_iff (hf : Foundation.inDirectory libdir before = .ok f) {c : Crate} :
    (f.linked? now c).isSome = true ↔ Available now c := by
  obtain ⟨name, origin⟩ := c
  cases origin with
  | unlocated => exact iff_of_false (by simp [Foundation.linked?]) id
  | file path => exact iff_of_true rfl trivial
  | sysroot =>
    obtain ⟨p, q, hp, hq, -⟩ := Foundation.inDirectory_eq_ok_iff.1 hf
    have hbefore : name ∈ Crate.foundationalNames →
        (findLibrary? libdir before name).isSome = true := by
      intro h
      rcases List.mem_pair.1 h with rfl | rfl
      · rw [hp, Option.isSome_some]
      · rw [hq, Option.isSome_some]
    rw [Available, isFoundational_sysroot, Foundation.linked?, Foundation.find?_eq hf,
      Option.isSome_map]
    by_cases h : name ∈ Crate.foundationalNames
    · rw [if_pos h]
      exact iff_of_true (hbefore h) (Or.inl h)
    · rw [if_neg h, findLibrary?_isSome_iff]
      exact (or_iff_right h).symm

/-- With identities apart, all crates involved are leaders. -/
theorem mem_leaders_iff (hid : IdsApart types) {c : Crate} :
    c ∈ leaders types ↔ Involved types c := by
  constructor
  · intro h
    exact mem_wanted_iff.1 (mem_wanted_of_mem_leaders h)
  · intro h
    obtain ⟨d, hd, hdc⟩ := exists_mem_leaders (mem_wanted_iff.2 h)
    have := hid d c (mem_wanted_iff.1 (mem_wanted_of_mem_leaders hd)) h hdc
    rwa [← this]

/-- The foundational crates always have a library. -/
theorem available_of_involved (h : ∀ c, Mentioned types c → Available now c) {c : Crate}
    (hc : Involved types c) : Available now c := by
  rcases hc with rfl | rfl | hc
  · exact Or.inl (by decide)
  · exact Or.inl (by decide)
  · exact h c hc

/-- There is a reference set exactly when every mentioned crate has a library. -/
theorem exists_resolve_iff (hf : Foundation.inDirectory libdir before = .ok f)
    (hid : IdsApart types) :
    (∃ r, resolve types f now = .ok r) ↔ ∀ c, Mentioned types c → Available now c := by
  constructor
  · rintro ⟨r, hr⟩ c hc
    have hlead : c ∈ leaders types := (mem_leaders_iff hid).2 (Or.inr (Or.inr hc))
    exact (linked?_isSome_iff hf).1 (((resolve_eq_ok_iff hf).1 hr).1 c hlead)
  · intro h
    refine ⟨_, (resolve_eq_ok_iff hf).2 ⟨?_, rfl⟩⟩
    intro c hc
    exact (linked?_isSome_iff hf).2 (available_of_involved h ((mem_leaders_iff hid).1 hc))

/-- The entries of a reference set are those that are right for the crates involved. -/
theorem mem_crates_of_resolve (hf : Foundation.inDirectory libdir before = .ok f)
    (hid : IdsApart types) {r : References} (hr : resolve types f now = .ok r) {e : LinkedCrate} :
    e ∈ r.crates ↔ ∃ c, Involved types c ∧ LinkedFor libdir before now c e := by
  obtain ⟨-, rfl⟩ := (resolve_eq_ok_iff hf).1 hr
  rw [ofLinked, List.mem_mergeSort, List.mem_filterMap]
  simp only [mem_leaders_iff hid, linked?_eq_some_iff hf]

/-- No identity stands twice in a reference set. -/
theorem nodup_ids_of_resolve (hf : Foundation.inDirectory libdir before = .ok f)
    {r : References} (hr : resolve types f now = .ok r) : (r.crates.map (·.id)).Nodup := by
  obtain ⟨-, rfl⟩ := (resolve_eq_ok_iff hf).1 hr
  have hperm := List.mergeSort_perm ((leaders types).filterMap (f.linked? now))
    fun a b => (LinkedCrate.keyOrder a b).isLE
  refine (hperm.map (·.id)).nodup_iff.2 (List.pairwise_map.2 ?_)
  refine List.pairwise_filterMap.2 ?_
  refine (List.pairwise_map.1 (nodup_map_id_firsts [] (wanted types))).imp ?_
  intro c d hne e he e' he'
  rwa [Foundation.linked?_id hf he, Foundation.linked?_id hf he']

/-- Linked crates are put in canonical order. -/
theorem sorted_ofLinked (linked : List LinkedCrate) :
    (ofLinked linked).crates.Pairwise fun a b => (LinkedCrate.keyOrder a b).isLE = true :=
  StableSort.pairwise_mergeSort_isLE LinkedCrate.keyOrder linked

/-- A reference set stands in canonical order. -/
theorem sorted_of_resolve {r : References} (hr : resolve types f now = .ok r) :
    r.crates.Pairwise fun a b => (LinkedCrate.keyOrder a b).isLE = true := by
  obtain ⟨linked, -, rfl⟩ := resolve_eq_ok_iff_linkAll.1 hr
  exact sorted_ofLinked linked

/-- **When there is a reference set, and what is in it:** one entry for each crate involved,
the one that is right for it, and nothing else, in canonical order. -/
theorem resolve_entries (hf : Foundation.inDirectory libdir before = .ok f)
    (hid : IdsApart types) :
    ((∃ r, resolve types f now = .ok r) ↔ ∀ c, Mentioned types c → Available now c) ∧
    ∀ r, resolve types f now = .ok r →
      (∀ c, Involved types c → ∃! e, e ∈ r.crates ∧ LinkedFor libdir before now c e) ∧
      (∀ e ∈ r.crates, ∃! c, Involved types c ∧ LinkedFor libdir before now c e) ∧
      (r.crates.map (·.id)).Nodup ∧
      r.crates.Pairwise fun a b => (LinkedCrate.keyOrder a b).isLE = true := by
  refine ⟨exists_resolve_iff hf hid, ?_⟩
  intro r hr
  have hmem : ∀ {e}, e ∈ r.crates ↔ ∃ c, Involved types c ∧ LinkedFor libdir before now c e :=
    mem_crates_of_resolve hf hid hr
  refine ⟨?_, ?_, nodup_ids_of_resolve hf hr, sorted_of_resolve hr⟩
  · intro c hc
    have hsome := ((resolve_eq_ok_iff hf).1 hr).1 c ((mem_leaders_iff hid).2 hc)
    obtain ⟨e, he⟩ := Option.isSome_iff_exists.1 hsome
    have hfor := (linked?_eq_some_iff hf).1 he
    refine ⟨e, ⟨hmem.2 ⟨c, hc, hfor⟩, hfor⟩, ?_⟩
    rintro e' ⟨-, hfor'⟩
    have he' := (linked?_eq_some_iff hf).2 hfor'
    exact Option.some.inj (he'.symm.trans he)
  · intro e he
    obtain ⟨c, hc, hfor⟩ := hmem.1 he
    refine ⟨c, ⟨hc, hfor⟩, ?_⟩
    rintro d ⟨hd, hfor'⟩
    exact hid d c hd hc (hfor'.id.symm.trans hfor.id)

/-- A vector of elements that are declared in a library file. -/
def vecOfShared : TypeDesc :=
  HostType.Unary.vec.desc.applied [.plain (.ofPath "x::A") (.inFile "x" ⟨"lib/libx.so"⟩)]

theorem wanted_vecOfShared :
    wanted [vecOfShared] ⊆ [Crate.core, .std, .inFile "x" ⟨"lib/libx.so"⟩] := by
  have hall : wanted [vecOfShared] = [Crate.core, .std, .core, .core, .std, .std, .std, .std,
      .std, .inFile "x" ⟨"lib/libx.so"⟩] := rfl
  rw [hall]
  intro c hc
  simp only [List.mem_cons] at hc ⊢
  tauto

theorem idsApart_vecOfShared : IdsApart [vecOfShared] :=
  idsApart_of_nodup wanted_vecOfShared (by decide +kernel)

theorem available_vecOfShared {c : Crate} (hc : Mentioned [vecOfShared] c) : Available none c := by
  have hmem := wanted_vecOfShared (mem_wanted_iff.2 (Or.inr (Or.inr hc)))
  simp only [List.mem_cons, List.not_mem_nil, or_false] at hmem
  rcases hmem with rfl | rfl | rfl
  · exact Or.inl (by decide)
  · exact Or.inl (by decide)
  · trivial

theorem resolve_entries_vecOfShared :
    Foundation.inDirectory ⟨"sysroot"⟩ Foundation.sampleListing = .ok .sample ∧
    IdsApart [vecOfShared] ∧
    ∃ r, resolve [vecOfShared] .sample none = .ok r ∧ ∀ c, Involved [vecOfShared] c →
      ∃! e, e ∈ r.crates ∧ LinkedFor ⟨"sysroot"⟩ Foundation.sampleListing none c e := by
  obtain ⟨hiff, hall⟩ : ((∃ r, resolve [vecOfShared] .sample none = .ok r) ↔ _) ∧ _ :=
    resolve_entries Foundation.inDirectory_sample idsApart_vecOfShared
  obtain ⟨r, hr⟩ := hiff.2 fun c hc => available_vecOfShared hc
  exact ⟨Foundation.inDirectory_sample, idsApart_vecOfShared, r, hr, (hall r hr).1⟩

end ExprHost.References
