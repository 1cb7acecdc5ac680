import ExprHost.Proofs.Reference.Leaders
import ExprHost.Proofs.Reference.Views
import ExprHost.Proofs.StableSort

/-!
# How far a reference set is canonical

The crates of a reference set are sorted by name and path, but not by all that tells
them apart. Types given in another order lead to the same set exactly when every
identity has the same leader in both orders, and leaders alike in name and path are
met in the same order.

* `SameLeaders`, `SameTies`: what has to be the same in both orders.
* `resolve_perm_beq_iff`: **when two orders of the same types give the same set.**
* `resolve_spellings_swapped`: a library file spelled in two ways gives sets that differ.
-/

namespace ExprHost.References

/-- What the equality of reference sets sees of the leaders, in the order met. -/
def views (f : Foundation) (now : Listing) (types : List TypeDesc) : List LinkedCrate.View :=
  (leaders types).filterMap fun c => (f.linked? now c).map LinkedCrate.view

/-- Where an identity is first met. -/
def place (types : List TypeDesc) (i : CrateId) : Nat := ((wanted types).map Crate.id).idxOf i

/-- Two orders of types lead to the same crate under every identity. -/
def SameLeaders (types types' : List TypeDesc) : Prop :=
  ∀ c ∈ leaders types, ∀ c' ∈ leaders types', c.id = c'.id → (c == c') = true

/-- Two crates whose libraries are alike in name and path. -/
def Tied (f : Foundation) (now : Listing) (c d : Crate) : Prop :=
  ∃ e e', f.linked? now c = some e ∧ f.linked? now d = some e' ∧
    e.name = e'.name ∧ (e.path == e'.path) = true

/-- Two orders of types meet leaders that are alike in name and path in the same order. -/
def SameTies (f : Foundation) (now : Listing) (types types' : List TypeDesc) : Prop :=
  ∀ c ∈ leaders types, ∀ d ∈ leaders types, Tied f now c d →
    (place types c.id < place types d.id ↔ place types' c.id < place types' d.id)

variable {libdir : Path} {before now : Listing} {f : Foundation} {types types' : List TypeDesc}

/-- The crates of a reference set, seen as its equality sees them. -/
theorem map_view_of_resolve (hf : Foundation.inDirectory libdir before = .ok f) {r : References}
    (hr : resolve types f now = .ok r) :
    r.crates.map LinkedCrate.view = (views f now types).mergeSort LinkedCrate.View.notAfter := by
  obtain ⟨-, rfl⟩ := (resolve_eq_ok_iff hf).1 hr
  have hviews : views f now types =
      ((leaders types).filterMap (f.linked? now)).map LinkedCrate.view := by
    rw [views, List.map_filterMap]
  rw [hviews]
  exact List.map_mergeSort fun a _ b _ => by
    rw [LinkedCrate.keyOrder_eq_view, LinkedCrate.View.notAfter]

theorem mem_views_iff {a : LinkedCrate.View} :
    a ∈ views f now types ↔ ∃ c ∈ leaders types, ∃ e, f.linked? now c = some e ∧ e.view = a := by
  simp only [views, List.mem_filterMap, Option.map_eq_some_iff]

/-- Views of leaders keep the identities of their crates. -/
theorem id_of_view (hf : Foundation.inDirectory libdir before = .ok f) {c : Crate}
    {e : LinkedCrate} (he : f.linked? now c = some e) : e.view.id = c.id :=
  Foundation.linked?_id hf he

theorem nodup_views (hf : Foundation.inDirectory libdir before = .ok f) :
    (views f now types).Nodup := by
  have hids := List.pairwise_map.1 (nodup_map_id_firsts [] (wanted types))
  refine List.pairwise_filterMap.2 (hids.imp ?_)
  intro c d hne a ha b hb hab
  obtain ⟨e, he, rfl⟩ := Option.map_eq_some_iff.1 ha
  obtain ⟨e', he', rfl⟩ := Option.map_eq_some_iff.1 hb
  apply hne
  rw [← id_of_view hf he, ← id_of_view hf he', hab]

/-- Leaders with different identities stand in the order in which those are met. -/
theorem pair_leaders_iff {c d : Crate} (hc : c ∈ leaders types) (hd : d ∈ leaders types)
    (hne : c.id ≠ d.id) : [c, d].Sublist (leaders types) ↔ place types c.id < place types d.id := by
  constructor
  · exact idxOf_lt_of_pair
  · intro hlt
    rcases StableSort.pair_or_pair hc hd (fun h => hne (congrArg Crate.id h)) with h | h
    · exact h
    · -- in the other order the places would be the other way round
      have hgt : place types d.id < place types c.id := idxOf_lt_of_pair h
      omega

/-- Views of leaders stand in the order in which the leaders are met. -/
theorem pair_views_iff (hf : Foundation.inDirectory libdir before = .ok f) {c d : Crate}
    {e e' : LinkedCrate} (hc : c ∈ leaders types) (hd : d ∈ leaders types) (hne : c.id ≠ d.id)
    (he : f.linked? now c = some e) (he' : f.linked? now d = some e') :
    [e.view, e'.view].Sublist (views f now types) ↔ place types c.id < place types d.id := by
  have hview : ∀ {a b : Crate} {x y : LinkedCrate}, f.linked? now a = some x →
      f.linked? now b = some y → [a, b].Sublist (leaders types) →
      [x.view, y.view].Sublist (views f now types) := by
    intro a b x y hx hy h
    have := h.filterMap fun c => (f.linked? now c).map LinkedCrate.view
    rwa [List.filterMap_cons_some (by rw [hx, Option.map_some]),
      List.filterMap_cons_some (by rw [hy, Option.map_some])] at this
  constructor
  · intro h
    rcases StableSort.pair_or_pair hc hd (fun h => hne (congrArg Crate.id h)) with hcd | hdc
    · exact (pair_leaders_iff hc hd hne).1 hcd
    · exact absurd (hview he' he hdc) (StableSort.not_pair_swap (nodup_views hf) h)
  · intro h
    exact hview he he' ((pair_leaders_iff hc hd hne).2 h)

theorem SameLeaders.symm (h : SameLeaders types types') : SameLeaders types' types := by
  intro c hc c' hc' hid
  exact Crate.beq_symm (h c' hc' c hc hid.symm)

theorem mem_views_of_sameLeaders (hf : Foundation.inDirectory libdir before = .ok f)
    (hperm : types.Perm types') (hsome' : ∀ c ∈ leaders types', (f.linked? now c).isSome = true)
    (h : SameLeaders types types') {a : LinkedCrate.View} (ha : a ∈ views f now types) :
    a ∈ views f now types' := by
  obtain ⟨c, hc, e, he, rfl⟩ := mem_views_iff.1 ha
  obtain ⟨c', hc', hid⟩ := exists_mem_leaders
    ((wanted_perm hperm).mem_iff.1 (mem_wanted_of_mem_leaders hc))
  obtain ⟨e', he'⟩ := Option.isSome_iff_exists.1 (hsome' c' hc')
  have hview := (Foundation.view_eq_iff_beq hf he he' hid.symm).2 (h c hc c' hc' hid.symm)
  exact mem_views_iff.2 ⟨c', hc', e', he', hview.symm⟩

/-- The views are the same, up to their order, when the leaders are. -/
theorem views_perm_iff (hf : Foundation.inDirectory libdir before = .ok f)
    (hperm : types.Perm types') (hsome : ∀ c ∈ leaders types, (f.linked? now c).isSome = true)
    (hsome' : ∀ c ∈ leaders types', (f.linked? now c).isSome = true) :
    (views f now types).Perm (views f now types') ↔ SameLeaders types types' := by
  constructor
  · intro h c hc c' hc' hid
    obtain ⟨e, he⟩ := Option.isSome_iff_exists.1 (hsome c hc)
    obtain ⟨e', he'⟩ := Option.isSome_iff_exists.1 (hsome' c' hc')
    have hmem : e.view ∈ views f now types' := h.mem_iff.1 (mem_views_iff.2 ⟨c, hc, e, he, rfl⟩)
    -- the crate that has this view in the other order is the leader there
    obtain ⟨d, hd, x, hx, hview⟩ := mem_views_iff.1 hmem
    have hdc : d.id = c'.id := by rw [← id_of_view hf hx, hview, id_of_view hf he, hid]
    obtain rfl := eq_of_mem_leaders hd hc' hdc
    exact (Foundation.view_eq_iff_beq hf he hx hid).1 hview.symm
  · intro h
    rw [List.perm_ext_iff_of_nodup (nodup_views hf) (nodup_views hf)]
    intro a
    exact ⟨mem_views_of_sameLeaders hf hperm hsome' h,
      mem_views_of_sameLeaders hf hperm.symm hsome h.symm⟩

/-- Crates are tied when their views are alike in the canonical order. -/
theorem tied_iff {c d : Crate} {e e' : LinkedCrate} (he : f.linked? now c = some e)
    (he' : f.linked? now d = some e') :
    Tied f now c d ↔ e.view.notAfter e'.view = true ∧ e'.view.notAfter e.view = true := by
  have hkey : Tied f now c d ↔ LinkedCrate.keyOrder e e' = .eq := by
    rw [LinkedCrate.keyOrder_eq_eq_iff]
    constructor
    · rintro ⟨x, x', hx, hx', h⟩
      obtain rfl := Option.some.inj (he.symm.trans hx)
      obtain rfl := Option.some.inj (he'.symm.trans hx')
      exact h
    · intro h
      exact ⟨e, e', he, he', h⟩
  rw [hkey, LinkedCrate.keyOrder_eq_view]
  constructor
  · intro h
    have hswap : e'.view.keyOrder e.view = .eq := Std.OrientedCmp.eq_symm h
    rw [LinkedCrate.View.notAfter, LinkedCrate.View.notAfter, h, hswap]
    exact ⟨rfl, rfl⟩
  · rintro ⟨h, h'⟩
    exact LinkedCrate.View.keyOrder_eq_eq_of_notAfter h h'

/-- Where the leaders are the same, each has a counterpart with its identity and its view. -/
theorem exists_counterpart (hf : Foundation.inDirectory libdir before = .ok f)
    (hperm : types.Perm types') (hsome' : ∀ c ∈ leaders types', (f.linked? now c).isSome = true)
    (hsame : SameLeaders types types') {c : Crate} (hc : c ∈ leaders types) {e : LinkedCrate}
    (he : f.linked? now c = some e) :
    ∃ c' ∈ leaders types', ∃ e', f.linked? now c' = some e' ∧ c'.id = c.id ∧ e'.view = e.view := by
  have hmem : e.view ∈ views f now types := mem_views_iff.2 ⟨c, hc, e, he, rfl⟩
  obtain ⟨c', hc', e', he', hview⟩ := mem_views_iff.1
    (mem_views_of_sameLeaders hf hperm hsome' hsame hmem)
  have hid : c'.id = c.id := by rw [← id_of_view hf he', hview, id_of_view hf he]
  exact ⟨c', hc', e', he', hid, hview⟩

/-- Where the leaders are the same, two views are in the same order when the identities of
their leaders are. -/
theorem pair_views_congr_iff (hf : Foundation.inDirectory libdir before = .ok f)
    (hperm : types.Perm types') (hsome' : ∀ c ∈ leaders types', (f.linked? now c).isSome = true)
    (hsame : SameLeaders types types') {c d : Crate} (hc : c ∈ leaders types)
    (hd : d ∈ leaders types) (hne : c.id ≠ d.id) {e e' : LinkedCrate}
    (he : f.linked? now c = some e) (he' : f.linked? now d = some e') :
    ([e.view, e'.view].Sublist (views f now types) ↔
        [e.view, e'.view].Sublist (views f now types')) ↔
      (place types c.id < place types d.id ↔ place types' c.id < place types' d.id) := by
  obtain ⟨c', hc', x, hx, hcid, hxe⟩ := exists_counterpart hf hperm hsome' hsame hc he
  obtain ⟨d', hd', x', hx', hdid, hxe'⟩ := exists_counterpart hf hperm hsome' hsame hd he'
  have hne' : c'.id ≠ d'.id := by rwa [hcid, hdid]
  rw [pair_views_iff hf hc hd hne he he', ← hxe, ← hxe', pair_views_iff hf hc' hd' hne' hx hx',
    hcid, hdid]

/-- Where the leaders are the same, views that are alike stand in the same order when
tied leaders are met in the same order. -/
theorem views_ties_iff (hf : Foundation.inDirectory libdir before = .ok f)
    (hperm : types.Perm types') (hsome : ∀ c ∈ leaders types, (f.linked? now c).isSome = true)
    (hsome' : ∀ c ∈ leaders types', (f.linked? now c).isSome = true)
    (hsame : SameLeaders types types') :
    (∀ a ∈ views f now types, ∀ b ∈ views f now types, a ≠ b → a.notAfter b → b.notAfter a →
      ([a, b].Sublist (views f now types) ↔ [a, b].Sublist (views f now types'))) ↔
      SameTies f now types types' := by
  constructor
  · intro h c hc d hd htied
    by_cases hid : c.id = d.id
    · rw [hid]
      exact iff_of_false (Nat.lt_irrefl _) (Nat.lt_irrefl _)
    · obtain ⟨e, he⟩ := Option.isSome_iff_exists.1 (hsome c hc)
      obtain ⟨e', he'⟩ := Option.isSome_iff_exists.1 (hsome d hd)
      have hne : e.view ≠ e'.view := by
        intro hview
        apply hid
        rw [← id_of_view hf he, hview, id_of_view hf he']
      obtain ⟨hle, hge⟩ := (tied_iff he he').1 htied
      apply (pair_views_congr_iff hf hperm hsome' hsame hc hd hid he he').1
      exact h _ (mem_views_iff.2 ⟨c, hc, e, he, rfl⟩) _ (mem_views_iff.2 ⟨d, hd, e', he', rfl⟩)
        hne hle hge
  · intro h a ha b hb hne hle hge
    obtain ⟨c, hc, e, he, rfl⟩ := mem_views_iff.1 ha
    obtain ⟨d, hd, e', he', rfl⟩ := mem_views_iff.1 hb
    -- one identity has one leader, and that has one view
    have hid : c.id ≠ d.id := by
      intro hid
      obtain rfl := eq_of_mem_leaders hc hd hid
      apply hne
      rw [Option.some.inj (he.symm.trans he')]
    apply (pair_views_congr_iff hf hperm hsome' hsame hc hd hid he he').2
    exact h c hc d hd ((tied_iff he he').2 ⟨hle, hge⟩)

/-- Identities that are not shared lead to the same crates in any order. -/
theorem sameLeaders_of_apart (hperm : types.Perm types') (hid : IdsApart types) :
    SameLeaders types types' := by
  intro c hc c' hc' hcc'
  have hc := mem_wanted_of_mem_leaders hc
  have hc' := (wanted_perm hperm).mem_iff.2 (mem_wanted_of_mem_leaders hc')
  obtain rfl := hid c c' (mem_wanted_iff.1 hc) (mem_wanted_iff.1 hc') hcc'
  exact Crate.beq_refl c

/-- **When two orders of the same types give the same set:** exactly when they lead to the
same crate under every identity, and meet crates alike in name and path in the same order.
Where different crates have different identities, the ties alone decide. -/
theorem resolve_perm_beq_iff (hf : Foundation.inDirectory libdir before = .ok f)
    (hperm : types.Perm types') {r r' : References} (hr : resolve types f now = .ok r)
    (hr' : resolve types' f now = .ok r') :
    ((r == r') = true ↔ SameLeaders types types' ∧ SameTies f now types types') ∧
      (IdsApart types → ((r == r') = true ↔ SameTies f now types types')) := by
  have hsome := ((resolve_eq_ok_iff hf).1 hr).1
  have hsome' := ((resolve_eq_ok_iff hf).1 hr').1
  have hiff : (r == r') = true ↔ SameLeaders types types' ∧ SameTies f now types types' := by
    rw [References.beq_iff, map_view_of_resolve hf hr, map_view_of_resolve hf hr',
      StableSort.mergeSort_eq_iff LinkedCrate.View.notAfter_trans LinkedCrate.View.notAfter_total
        (nodup_views hf), views_perm_iff hf hperm hsome hsome']
    exact and_congr_right (views_ties_iff hf hperm hsome hsome')
  refine ⟨hiff, ?_⟩
  intro hid
  rw [hiff]
  exact and_iff_right (sameLeaders_of_apart hperm hid)

/-! ## One library file, spelled in two ways -/

/-- A type in a library file. -/
def onePath : TypeDesc := .plain (.ofPath "x::A") (.inFile "x" ⟨"lib/a//b.rlib"⟩)

/-- A type in the same file, whose path is spelled with one separator less. -/
def otherPath : TypeDesc := .plain (.ofPath "x::B") (.inFile "x" ⟨"lib/a/b.rlib"⟩)

theorem resolve_onePath_otherPath : resolve [onePath, otherPath] .sample none =
    .ok (ofLinked ((leaders [onePath, otherPath]).filterMap (Foundation.sample.linked? none))) :=
  (resolve_eq_ok_iff Foundation.inDirectory_sample).2 ⟨by decide +kernel, rfl⟩

theorem resolve_otherPath_onePath : resolve [otherPath, onePath] .sample none =
    .ok (ofLinked ((leaders [otherPath, onePath]).filterMap (Foundation.sample.linked? none))) :=
  (resolve_eq_ok_iff Foundation.inDirectory_sample).2 ⟨by decide +kernel, rfl⟩

/-- Two types in one file lead to different sets in their two orders if they spell its path
differently, although no digests collide. -/
theorem resolve_spellings_swapped :
    (["core", "std", "x", "lib/a//b.rlib", "lib/a/b.rlib"].map Xxh64.digestText).Nodup ∧
    Foundation.inDirectory ⟨"sysroot"⟩ Foundation.sampleListing = .ok .sample ∧
    ∃ r r', [onePath, otherPath].Perm [otherPath, onePath] ∧
      resolve [onePath, otherPath] .sample none = .ok r ∧
      resolve [otherPath, onePath] .sample none = .ok r' ∧ (r == r') = false := by
  refine ⟨by decide +kernel, Foundation.inDirectory_sample, _, _, .swap _ _ _,
    resolve_onePath_otherPath, resolve_otherPath_onePath, Bool.eq_false_iff.2 ?_⟩
  intro h
  have hf := Foundation.inDirectory_sample
  rw [References.beq_iff, map_view_of_resolve hf resolve_onePath_otherPath,
    map_view_of_resolve hf resolve_otherPath_onePath, List.mergeSort_of_pairwise (by decide +kernel),
    List.mergeSort_of_pairwise (by decide +kernel)] at h
  exact absurd h (by decide +kernel)

theorem idsApart_spellings : IdsApart [onePath, otherPath] := by
  have hall : wanted [onePath, otherPath] = [Crate.core, .std, .core, .core, .std, .std, .std,
      .std, .inFile "x" ⟨"lib/a//b.rlib"⟩, .inFile "x" ⟨"lib/a/b.rlib"⟩] := rfl
  refine idsApart_of_nodup (l := [Crate.core, .std, .inFile "x" ⟨"lib/a//b.rlib"⟩,
    .inFile "x" ⟨"lib/a/b.rlib"⟩]) ?_ (by decide +kernel)
  rw [hall]
  intro c hc
  simp only [List.mem_cons] at hc ⊢
  tauto

theorem resolve_perm_beq_iff_swapped :
    Foundation.inDirectory ⟨"sysroot"⟩ Foundation.sampleListing = .ok .sample ∧
    [onePath, otherPath].Perm [otherPath, onePath] ∧ IdsApart [onePath, otherPath] ∧
    ∃ r r', resolve [onePath, otherPath] .sample none = .ok r ∧
      resolve [otherPath, onePath] .sample none = .ok r' ∧
      ((r == r') = true ↔ SameLeaders [onePath, otherPath] [otherPath, onePath] ∧
        SameTies .sample none [onePath, otherPath] [otherPath, onePath]) ∧
      ((r == r') = true ↔ SameTies .sample none [onePath, otherPath] [otherPath, onePath]) := by
  obtain ⟨hiff, hapart⟩ := resolve_perm_beq_iff Foundation.inDirectory_sample (.swap _ _ _)
    resolve_onePath_otherPath resolve_otherPath_onePath
  exact ⟨Foundation.inDirectory_sample, .swap _ _ _, idsApart_spellings, _, _,
    resolve_onePath_otherPath, resolve_otherPath_onePath, hiff, hapart idsApart_spellings⟩

end ExprHost.References
