import ExprHost.Proofs.Reference.HostTypes

/-!
# Crates without a library

When references cannot be resolved, the error has a crate and a type in it. The crate is the
first one met that has no library. The type is the given one in whose tree it was met, which
need not be the descriptor that lies in the crate.

* `linkAll_eq_error_iff`: where linking stops.
* `FirstMissing`: the crate and the given type that an error is about.
* `resolve_eq_error_iff`: **which error there is, and when.**
* `Declared`: a held descriptor of some name lies in a crate without a library.
* `resolve_names_root`: **what an error says, and when its type is one that the crate declares.**
-/

namespace ExprHost.References

/-- The first crate met that has no library, and the first of the given types in whose tree a
crate with its identity stands. -/
structure FirstMissing (f : Foundation) (now : Listing) (types : List TypeDesc) (c : Crate)
    (t : TypeDesc) : Prop where
  crate : (leaders types).find? (fun d => (f.linked? now d).isNone) = some c
  root : types.find? (fun t => t.crates.any (·.id = c.id)) = some t

/-- Some given type holds a descriptor that has this name and lies itself in a crate that has
this name and no library. -/
def Declared (f : Foundation) (now : Listing) (types : List TypeDesc) (crate typeName : String) :
    Prop :=
  ∃ t ∈ types, ∃ u, t.Holds u ∧ u.name.text = typeName ∧ u.crate.name = crate ∧
    f.linked? now u.crate = none

/-- Descriptors of one name lie in one crate, wherever the given types hold them. -/
def NamesApart (types : List TypeDesc) : Prop :=
  ∀ t ∈ types, ∀ t' ∈ types, ∀ u u', t.Holds u → t'.Holds u' → u.name.text = u'.name.text →
    u.crate = u'.crate

variable {libdir : Path} {before now : Listing} {f : Foundation} {types : List TypeDesc}

/-- **Where linking stops:** at the first of the crates met first that has no library, with the
mention in which its identity is met. -/
theorem linkAll_eq_error_iff (hf : Foundation.inDirectory libdir before = .ok f) (now : Listing)
    (ms : List Mention) : ∀ (linked : List LinkedCrate) (e : ResolveError),
    linkAll f now linked ms = .error e ↔ ∃ m,
      (firsts (linked.map (·.id)) (ms.map (·.crate))).find? (fun d => (f.linked? now d).isNone) =
        some m.crate ∧
      ms.find? (·.crate.id = m.crate.id) = some m ∧ e = .unlocated m.crate.name m.typeName := by
  induction ms with
  | nil =>
    intro linked e
    simp [linkAll, firsts]
  | cons m rest ih =>
    intro linked e
    -- a crate that is first after the mention has another identity
    have hskip : ∀ {met : List CrateId} {m' : Mention}, m.crate.id ∈ met →
        (firsts met (rest.map (·.crate))).find? (fun d => (f.linked? now d).isNone) =
          some m'.crate →
        (m :: rest).find? (·.crate.id = m'.crate.id) = rest.find? (·.crate.id = m'.crate.id) := by
      intro met m' hmet hfind
      have hnew := (mem_firsts_iff.1 (List.mem_of_find?_eq_some hfind)).1
      have hne : m.crate.id ≠ m'.crate.id := fun h => hnew (h ▸ hmet)
      rw [List.find?_cons_of_neg (by simpa using hne)]
    rw [linkAll, List.map_cons]
    by_cases hmet : m.crate.id ∈ linked.map (·.id)
    · rw [if_pos (any_id_iff.2 hmet), firsts_cons_of_mem hmet, ih]
      refine exists_congr fun m' => and_congr_right fun hfind => ?_
      rw [hskip hmet hfind]
    · rw [if_neg (fun h => hmet (any_id_iff.1 h)), firsts_cons_of_not_mem hmet, link_eq]
      cases he : f.linked? now m.crate with
      | none =>
        rw [List.find?_cons_of_pos (by simp [he])]
        constructor
        · intro h
          exact ⟨m, rfl, List.find?_cons_of_pos (by simp), (Except.error.inj h).symm⟩
        · rintro ⟨m', hcrate, hfind, rfl⟩
          rw [List.find?_cons_of_pos (by simp [Option.some.inj hcrate])] at hfind
          obtain rfl := Option.some.inj hfind
          rfl
      | some linkedCrate =>
        have hids : (linked ++ [linkedCrate]).map (·.id) = linked.map (·.id) ++ [m.crate.id] := by
          rw [List.map_append, List.map_singleton, Foundation.linked?_id hf he]
        have hmem : m.crate.id ∈ linked.map (·.id) ++ [m.crate.id] :=
          List.mem_append_right _ List.mem_cons_self
        simp only [ih, hids]
        rw [List.find?_cons_of_neg (by simp [he])]
        refine exists_congr fun m' => and_congr_right fun hfind => ?_
        rw [hskip hmem hfind]

/-- A crate that has no library does not share its identity with one of the foundation. -/
theorem ne_foundational_of_missing (hf : Foundation.inDirectory libdir before = .ok f) {c : Crate}
    (hc : (leaders types).find? (fun d => (f.linked? now d).isNone) = some c) :
    c.id ≠ Crate.core.id ∧ c.id ≠ Crate.std.id := by
  obtain ⟨core, std, hcore, hstd, -⟩ := Foundation.crates_eq hf now
  have hmem := List.mem_of_find?_eq_some hc
  have hnone := List.find?_some hc
  constructor
  · intro h
    rw [eq_of_mem_leaders hmem (by simp [leaders_eq]) h] at hnone
    simp [hcore] at hnone
  · intro h
    rw [eq_of_mem_leaders hmem (by simp [leaders_eq]) h] at hnone
    simp [hstd] at hnone

theorem find?_leaders (hf : Foundation.inDirectory libdir before = .ok f) :
    (leaders types).find? (fun d => (f.linked? now d).isNone) =
      (firsts [Crate.core.id, Crate.std.id] ((allMentions types).map (·.crate))).find?
        (fun d => (f.linked? now d).isNone) := by
  obtain ⟨core, std, hcore, hstd, -⟩ := Foundation.crates_eq hf now
  rw [leaders_eq, List.find?_cons_of_neg (by simp [hcore]), List.find?_cons_of_neg (by simp [hstd])]

/-- The first mention of an identity is made by the first type in whose tree it is met. -/
theorem find?_mentions {id : CrateId} {m : Mention} (ts : List TypeDesc) :
    (ts.flatMap TypeDesc.mentions).find? (·.crate.id = id) = some m ↔
      ∃ t, ts.find? (fun t => t.crates.any (·.id = id)) = some t ∧
        t.crates.find? (·.id = id) = some m.crate ∧ m.typeName = t.name.text := by
  induction ts with
  | nil => simp
  | cons t ts ih =>
    have hhead : t.mentions.find? (·.crate.id = id) =
        (t.crates.find? (·.id = id)).map (⟨·, t.name.text⟩) := by
      rw [TypeDesc.mentions, List.find?_map]
      rfl
    rw [List.flatMap_cons, List.find?_append, hhead]
    cases hfind : t.crates.find? (·.id = id) with
    | none =>
      have hany : t.crates.any (·.id = id) = false := by
        simpa using hfind
      rw [List.find?_cons_of_neg (by simp [hany]), Option.map_none, Option.none_or, ih]
    | some c =>
      have hid := List.find?_some hfind
      have hany : t.crates.any (·.id = id) = true :=
        List.any_eq_true.2 ⟨c, List.mem_of_find?_eq_some hfind, hid⟩
      rw [List.find?_cons_of_pos (by exact hany), Option.map_some, Option.some_or]
      constructor
      · rintro h
        obtain rfl := Option.some.inj h
        exact ⟨t, rfl, hfind, rfl⟩
      · rintro ⟨t', ht', hcrate, hname⟩
        obtain rfl := Option.some.inj ht'
        obtain rfl := Option.some.inj (hfind.symm.trans hcrate)
        rw [← hname]

/-- The baseline does not mention an identity that is none of the foundation's. -/
theorem find?_baseline {id : CrateId} (hcore : id ≠ Crate.core.id) (hstd : id ≠ Crate.std.id) :
    (HostType.baseline ++ types).find? (fun t => t.crates.any (·.id = id)) =
      types.find? (fun t => t.crates.any (·.id = id)) := by
  have hnone : HostType.baseline.find? (fun t => t.crates.any (·.id = id)) = none := by
    rw [List.find?_eq_none]
    intro t ht
    rcases crates_of_baseline ht with h | h
    · simp [h, hcore.symm]
    · simp [h, hstd.symm]
  rw [List.find?_append, hnone, Option.none_or]

/-- What is found missing has been mentioned, and nothing with its identity before it. -/
theorem exists_mention (hf : Foundation.inDirectory libdir before = .ok f) {c : Crate}
    (hc : (leaders types).find? (fun d => (f.linked? now d).isNone) = some c) :
    ∃ m, (allMentions types).find? (·.crate.id = c.id) = some m ∧ m.crate = c := by
  rw [find?_leaders hf] at hc
  have hfirst := (mem_firsts_iff.1 (List.mem_of_find?_eq_some hc)).2
  rw [List.find?_map] at hfirst
  obtain ⟨m, hm, rfl⟩ := Option.map_eq_some_iff.1 hfirst
  exact ⟨m, hm, rfl⟩

/-- **Which error there is, and when:** the first crate met that has no library, with the given
type in whose tree it is met. -/
theorem resolve_eq_error_iff (hf : Foundation.inDirectory libdir before = .ok f)
    {e : ResolveError} : resolve types f now = .error e ↔
      ∃ c t, FirstMissing f now types c t ∧ e = .unlocated c.name t.name.text := by
  have hlink := linkAll_eq_error_iff hf now (allMentions types) f.crates e
  rw [map_id_crates hf, ← find?_leaders hf] at hlink
  rw [resolve_eq_error_iff_linkAll, foldl_addLinked_crates hf, hlink]
  constructor
  · rintro ⟨m, hcrate, hmention, rfl⟩
    obtain ⟨hne₁, hne₂⟩ := ne_foundational_of_missing hf hcrate
    obtain ⟨t, hroot, -, hname⟩ := (find?_mentions _).1 hmention
    rw [find?_baseline hne₁ hne₂] at hroot
    exact ⟨m.crate, t, ⟨hcrate, hroot⟩, by rw [hname]⟩
  · rintro ⟨c, t, ⟨hcrate, hroot⟩, rfl⟩
    obtain ⟨hne₁, hne₂⟩ := ne_foundational_of_missing hf hcrate
    rw [← find?_baseline hne₁ hne₂] at hroot
    obtain ⟨m, hmention, rfl⟩ := exists_mention hf hcrate
    obtain ⟨t', hroot', -, hname⟩ := (find?_mentions _).1 hmention
    obtain rfl := Option.some.inj (hroot.symm.trans hroot')
    exact ⟨m, hcrate, hmention, by rw [hname]⟩

theorem FirstMissing.held (hf : Foundation.inDirectory libdir before = .ok f) {c : Crate}
    {t : TypeDesc} (h : FirstMissing f now types c t) :
    t ∈ types ∧ (∃ u, t.Holds u ∧ u.crate = c) ∧ f.linked? now c = none := by
  obtain ⟨hne₁, hne₂⟩ := ne_foundational_of_missing hf h.crate
  obtain ⟨m, hmention, hcrate⟩ := exists_mention hf h.crate
  obtain ⟨t', hroot, hfind, -⟩ := (find?_mentions _).1 hmention
  rw [find?_baseline hne₁ hne₂] at hroot
  obtain rfl := Option.some.inj (h.root.symm.trans hroot)
  rw [hcrate] at hfind
  refine ⟨List.mem_of_find?_eq_some h.root, ?_, ?_⟩
  · exact TypeDesc.mem_crates_iff.1 (List.mem_of_find?_eq_some hfind)
  · simpa using List.find?_some h.crate

/-- **What an error says, and when its type is one that the crate declares.** It says the first
crate met that has no library, and the given type in whose tree it was met. That type's name
belongs to a declaration in the crate if the type itself lies there, and where types are told
apart by their names only then. -/
theorem resolve_names_root (hf : Foundation.inDirectory libdir before = .ok f) :
    (∀ e, resolve types f now = .error e ↔
      ∃ c t, FirstMissing f now types c t ∧ e = .unlocated c.name t.name.text) ∧
    ∀ c t, FirstMissing f now types c t →
      t ∈ types ∧ (∃ u, t.Holds u ∧ u.crate = c) ∧ f.linked? now c = none ∧
      (t.crate.name = c.name ∧ f.linked? now t.crate = none →
        Declared f now types c.name t.name.text) ∧
      (NamesApart types → (Declared f now types c.name t.name.text ↔
        t.crate.name = c.name ∧ f.linked? now t.crate = none)) := by
  refine ⟨fun e => resolve_eq_error_iff hf, ?_⟩
  intro c t h
  obtain ⟨ht, hheld, hnone⟩ := h.held hf
  have hdeclared : t.crate.name = c.name ∧ f.linked? now t.crate = none →
      Declared f now types c.name t.name.text := by
    rintro ⟨hname, hmissing⟩
    exact ⟨t, ht, t, .self t, rfl, hname, hmissing⟩
  refine ⟨ht, hheld, hnone, hdeclared, fun hnames => ⟨?_, hdeclared⟩⟩
  rintro ⟨t', ht', u, hu, hname, hcrate, hmissing⟩
  -- the held descriptor has the name of the given type, and so lies in its crate
  have hsame : u.crate = t.crate := hnames t' ht' t ht u t hu (.self t) hname
  rw [hsame] at hcrate hmissing
  exact ⟨hcrate, hmissing⟩

/-! ## A vector of things that are declared nowhere -/

/-- A crate that has no library. -/
def ghost : Crate := .unlocated "ghost"

/-- A type in that crate. -/
def thing : TypeDesc := .plain (.ofPath "ghost::Thing") ghost

/-- A vector of such things. -/
def vecOfThing : TypeDesc := HostType.Unary.vec.desc.applied [thing]

theorem text_vecOfThing : vecOfThing.name.text = "std::vec::Vec\x601" := by decide

theorem leaders_vecOfThing : leaders [vecOfThing] = [.core, .std, ghost] := by
  have hmentioned : (allMentions [vecOfThing]).map (·.crate) =
      [.core, .core, .std, .std, .std, .std, .std, ghost] := rfl
  have hnew : ghost.id ∉ [Crate.core.id, Crate.std.id] := by decide +kernel
  rw [leaders_eq, hmentioned]
  simp only [firsts, List.mem_cons, true_or, or_true, if_true]
  rw [if_neg (by simpa using hnew)]

theorem firstMissing_vecOfThing :
    FirstMissing .sample Foundation.sampleListing [vecOfThing] ghost vecOfThing where
  crate := by
    rw [leaders_vecOfThing, List.find?_cons_of_neg (by decide +kernel),
      List.find?_cons_of_neg (by decide +kernel), List.find?_cons_of_pos (by decide +kernel)]
  root := List.find?_cons_of_pos (by decide +kernel)

theorem eq_of_holds_vecOfThing {u : TypeDesc} (h : vecOfThing.Holds u) :
    u = vecOfThing ∨ u = thing := by
  cases h with
  | self => exact Or.inl rfl
  | around hout => cases hout
  | argument harg hu =>
    obtain rfl := List.mem_singleton.1 harg
    cases hu with
    | self => exact Or.inr rfl
    | around hout => cases hout
    | argument harg => cases harg

theorem not_declared_vecOfThing :
    ¬ Declared .sample Foundation.sampleListing [vecOfThing] "ghost" "std::vec::Vec\x601" := by
  rintro ⟨t, ht, u, hu, hname, hcrate, -⟩
  obtain rfl := List.mem_singleton.1 ht
  rcases eq_of_holds_vecOfThing hu with rfl | rfl
  · exact absurd hcrate (by decide)
  · exact absurd hname (by decide)

/-- The error for a vector of things says that the vector is declared where the things are. -/
theorem resolve_vecOfThing :
    Foundation.inDirectory ⟨"sysroot"⟩ Foundation.sampleListing = .ok .sample ∧
    resolve [vecOfThing] .sample Foundation.sampleListing =
      .error (.unlocated "ghost" "std::vec::Vec\x601") ∧
    ¬ Declared .sample Foundation.sampleListing [vecOfThing] "ghost" "std::vec::Vec\x601" := by
  have herror := (resolve_eq_error_iff Foundation.inDirectory_sample).2
    ⟨ghost, vecOfThing, firstMissing_vecOfThing, rfl⟩
  rw [text_vecOfThing] at herror
  exact ⟨Foundation.inDirectory_sample, herror, not_declared_vecOfThing⟩

theorem namesApart_vecOfThing : NamesApart [vecOfThing] := by
  intro t ht t' ht' u u' hu hu' hname
  obtain rfl := List.mem_singleton.1 ht
  obtain rfl := List.mem_singleton.1 ht'
  have hne : vecOfThing.name.text ≠ thing.name.text := by decide
  rcases eq_of_holds_vecOfThing hu with rfl | rfl <;>
    rcases eq_of_holds_vecOfThing hu' with rfl | rfl
  · rfl
  · exact absurd hname hne
  · exact absurd hname.symm hne
  · rfl

theorem resolve_names_root_vecOfThing :
    Foundation.inDirectory ⟨"sysroot"⟩ Foundation.sampleListing = .ok .sample ∧
    NamesApart [vecOfThing] ∧
    resolve [vecOfThing] .sample Foundation.sampleListing =
      .error (.unlocated ghost.name vecOfThing.name.text) ∧
    (∃ u, vecOfThing.Holds u ∧ u.crate = ghost) ∧
    (Declared .sample Foundation.sampleListing [vecOfThing] ghost.name vecOfThing.name.text ↔
      vecOfThing.crate.name = ghost.name ∧
        Foundation.sample.linked? Foundation.sampleListing vecOfThing.crate = none) := by
  obtain ⟨herror, hroot⟩ :
      (∀ e, resolve [vecOfThing] .sample Foundation.sampleListing = .error e ↔ _) ∧ _ :=
    resolve_names_root Foundation.inDirectory_sample
  obtain ⟨-, hheld, -, -, hiff⟩ := hroot ghost vecOfThing firstMissing_vecOfThing
  exact ⟨Foundation.inDirectory_sample, namesApart_vecOfThing,
    (herror _).2 ⟨ghost, vecOfThing, firstMissing_vecOfThing, rfl⟩, hheld,
    hiff namesApart_vecOfThing⟩

end ExprHost.References
