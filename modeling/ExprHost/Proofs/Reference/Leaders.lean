import ExprHost.Proofs.Reference.Located
import ExprHost.Proofs.Reference.Mentions
import Mathlib.Data.List.Nodup

/-!
# Leaders

A reference set has one entry for each identity: that of the crate first met with
it, its leader. Linking one mention after another links exactly the leaders.

* `firsts`: the crates of a list that are met first, past some identities.
* `mem_firsts_iff`, `exists_mem_firsts`, `nodup_map_id_firsts`: who they are.
* `idxOf_lt_of_pair`: they stand in the order in which their identities are met.
* `linkAll_eq_ok_iff`: **what linking all mentions comes to.**
* `resolve_eq_ok_iff`: **a reference set is the sorted libraries of the leaders.**
-/

namespace ExprHost.References

/-- The crates of a list whose identity has not been met, in order. -/
def firsts : List CrateId → List Crate → List Crate
  | _, [] => []
  | met, c :: rest =>
    if c.id ∈ met then firsts met rest else c :: firsts (met ++ [c.id]) rest

/-- The crates that a reference set has entries for, in the order in which they are met. -/
def leaders (types : List TypeDesc) : List Crate := firsts [] (wanted types)

theorem firsts_cons_of_mem {met : List CrateId} {c : Crate} (h : c.id ∈ met) (rest : List Crate) :
    firsts met (c :: rest) = firsts met rest := by
  rw [firsts, if_pos h]

theorem firsts_cons_of_not_mem {met : List CrateId} {c : Crate} (h : c.id ∉ met)
    (rest : List Crate) : firsts met (c :: rest) = c :: firsts (met ++ [c.id]) rest := by
  rw [firsts, if_neg h]

/-- **A crate is a first one if no other crate before it has its identity.** -/
theorem mem_firsts_iff {met : List CrateId} {cs : List Crate} {c : Crate} :
    c ∈ firsts met cs ↔ c.id ∉ met ∧ cs.find? (·.id = c.id) = some c := by
  induction cs generalizing met with
  | nil => simp [firsts]
  | cons d rest ih =>
    by_cases hmet : d.id ∈ met
    · rw [firsts_cons_of_mem hmet, ih]
      refine and_congr_right fun hc => ?_
      have hne : d.id ≠ c.id := fun h => hc (h ▸ hmet)
      rw [List.find?_cons_of_neg (by simpa using hne)]
    · rw [firsts_cons_of_not_mem hmet, List.mem_cons, ih]
      -- the head is a first one itself, so no other crate with its identity is
      by_cases heq : d.id = c.id
      · rw [List.find?_cons_of_pos (by simpa using heq)]
        constructor
        · rintro (rfl | ⟨hc, -⟩)
          · exact ⟨hmet, rfl⟩
          · exact absurd (List.mem_append_right met (by simp [heq])) hc
        · rintro ⟨-, h⟩
          exact Or.inl (Option.some.inj h).symm
      · rw [List.find?_cons_of_neg (by simpa using heq)]
        have hnot : c.id ∉ met ++ [d.id] ↔ c.id ∉ met := by
          simp [Ne.symm heq]
        rw [hnot]
        refine or_iff_right ?_
        rintro rfl
        exact heq rfl

theorem exists_mem_firsts {met : List CrateId} {cs : List Crate} {c : Crate} (hc : c ∈ cs)
    (hmet : c.id ∉ met) : ∃ d ∈ firsts met cs, d.id = c.id := by
  have hsome : (cs.find? (·.id = c.id)).isSome = true :=
    List.find?_isSome.2 ⟨c, hc, decide_eq_true rfl⟩
  obtain ⟨d, hd⟩ := Option.isSome_iff_exists.1 hsome
  have hfound := List.find?_some hd
  have hid : d.id = c.id := of_decide_eq_true hfound
  refine ⟨d, mem_firsts_iff.2 ?_, hid⟩
  rw [hid]
  exact ⟨hmet, hd⟩

theorem nodup_map_id_firsts (met : List CrateId) (cs : List Crate) :
    ((firsts met cs).map Crate.id).Nodup := by
  induction cs generalizing met with
  | nil => exact List.nodup_nil
  | cons c rest ih =>
    by_cases hmet : c.id ∈ met
    · rw [firsts_cons_of_mem hmet]
      exact ih met
    · rw [firsts_cons_of_not_mem hmet, List.map_cons, List.nodup_cons]
      refine ⟨?_, ih _⟩
      intro h
      obtain ⟨d, hd, hid⟩ := List.mem_map.1 h
      exact (mem_firsts_iff.1 hd).1 (List.mem_append_right met (by simp [hid]))

/-- Of two first crates the one that stands before the other has its identity met before. -/
theorem idxOf_lt_of_pair {met : List CrateId} {cs : List Crate} {c d : Crate}
    (h : [c, d].Sublist (firsts met cs)) :
    (cs.map Crate.id).idxOf c.id < (cs.map Crate.id).idxOf d.id := by
  induction cs generalizing met with
  | nil => simp [firsts] at h
  | cons b rest ih =>
    rw [List.map_cons]
    by_cases hmet : b.id ∈ met
    · rw [firsts_cons_of_mem hmet] at h
      have hne : ∀ a ∈ [c, d], b.id ≠ a.id := fun a ha heq =>
        (mem_firsts_iff.1 (h.subset ha)).1 (heq ▸ hmet)
      rw [List.idxOf_cons_ne _ (hne c (by simp)), List.idxOf_cons_ne _ (hne d (by simp))]
      exact Nat.succ_lt_succ (ih h)
    · rw [firsts_cons_of_not_mem hmet] at h
      have hne : ∀ a ∈ firsts (met ++ [b.id]) rest, b.id ≠ a.id := fun a ha heq =>
        (mem_firsts_iff.1 ha).1 (List.mem_append_right met (by simp [heq]))
      rcases List.sublist_cons_iff.1 h with htail | ⟨r, hr, htail⟩
      · rw [List.idxOf_cons_ne _ (hne c (htail.subset (by simp))),
          List.idxOf_cons_ne _ (hne d (htail.subset (by simp)))]
        exact Nat.succ_lt_succ (ih htail)
      · obtain ⟨rfl, rfl⟩ := List.cons.inj hr
        rw [List.idxOf_cons_self, List.idxOf_cons_ne _ (hne d (htail.subset (by simp)))]
        exact Nat.succ_pos _

variable {types : List TypeDesc}

theorem eq_of_mem_leaders {c d : Crate} (hc : c ∈ leaders types) (hd : d ∈ leaders types)
    (hid : c.id = d.id) : c = d :=
  List.inj_on_of_nodup_map (nodup_map_id_firsts [] (wanted types)) hc hd hid

theorem mem_wanted_of_mem_leaders {c : Crate} (hc : c ∈ leaders types) : c ∈ wanted types :=
  List.mem_of_find?_eq_some (mem_firsts_iff.1 hc).2

theorem exists_mem_leaders {c : Crate} (hc : c ∈ wanted types) :
    ∃ d ∈ leaders types, d.id = c.id :=
  exists_mem_firsts hc List.not_mem_nil

/-! ## Linking -/

theorem link_eq (f : Foundation) (now : Listing) (m : Mention) :
    link f now m = match f.linked? now m.crate with
      | some e => .ok e
      | none => .error (.unlocated m.crate.name m.typeName) := by
  obtain ⟨⟨name, origin⟩, typeName⟩ := m
  cases origin with
  | sysroot =>
    unfold link Foundation.linked?
    cases f.find? now name <;> rfl
  | file path => rfl
  | unlocated => rfl

theorem any_id_iff {linked : List LinkedCrate} {id : CrateId} :
    linked.any (·.id = id) = true ↔ id ∈ linked.map (·.id) := by
  simp [List.any_eq_true]

variable {libdir : Path} {before : Listing} {f : Foundation}

/-- **What linking all mentions comes to:** after what was there, the libraries of the
crates met first. -/
theorem linkAll_eq_ok_iff (hf : Foundation.inDirectory libdir before = .ok f) (now : Listing)
    (ms : List Mention) : ∀ linked out, linkAll f now linked ms = .ok out ↔
      (∀ c ∈ firsts (linked.map (·.id)) (ms.map (·.crate)), (f.linked? now c).isSome = true) ∧
      out = linked ++ (firsts (linked.map (·.id)) (ms.map (·.crate))).filterMap (f.linked? now) := by
  induction ms with
  | nil =>
    intro linked out
    rw [linkAll, Except.ok.injEq, eq_comm]
    simp [firsts]
  | cons m rest ih =>
    intro linked out
    rw [linkAll, List.map_cons]
    by_cases hmet : m.crate.id ∈ linked.map (·.id)
    · rw [if_pos (any_id_iff.2 hmet), firsts_cons_of_mem hmet]
      exact ih linked out
    · -- a new identity: what is linked for it has the same, and is met from here on
      rw [if_neg (fun h => hmet (any_id_iff.1 h)), firsts_cons_of_not_mem hmet, link_eq]
      cases he : f.linked? now m.crate with
      | none => simp [he]
      | some e =>
        have hids : (linked ++ [e]).map (·.id) = linked.map (·.id) ++ [m.crate.id] := by
          rw [List.map_append, List.map_singleton, Foundation.linked?_id hf he]
        have hstep := ih (linked ++ [e]) out
        rw [hids] at hstep
        simp only [hstep, List.forall_mem_cons, he, Option.isSome_some, true_and,
          List.filterMap_cons_some he, List.append_assoc, List.singleton_append]

theorem leaders_eq (types : List TypeDesc) :
    leaders types = .core :: .std ::
      firsts [Crate.core.id, Crate.std.id] ((allMentions types).map (·.crate)) := by
  have hstd : Crate.std.id ∉ [Crate.core.id] := by
    simpa using Crate.core_id_ne_std_id.symm
  rw [leaders, wanted, firsts_cons_of_not_mem List.not_mem_nil, List.nil_append,
    firsts_cons_of_not_mem hstd, map_crate_allMentions]
  rfl

theorem map_id_crates (hf : Foundation.inDirectory libdir before = .ok f) :
    f.crates.map (·.id) = [Crate.core.id, Crate.std.id] := by
  obtain ⟨core, std, hcore, hstd, hcrates⟩ := Foundation.crates_eq hf before
  rw [hcrates, List.map_cons, List.map_singleton, Foundation.linked?_id hf hcore,
    Foundation.linked?_id hf hstd]

/-- The walk starts from the foundation, as if both of its crates had been mentioned first. -/
theorem foldl_addLinked_crates (hf : Foundation.inDirectory libdir before = .ok f) :
    f.crates.foldl addLinked [] = f.crates := by
  obtain ⟨core, std, hcore, hstd, hcrates⟩ := Foundation.crates_eq hf before
  have hne : core.id ≠ std.id := by
    rw [Foundation.linked?_id hf hcore, Foundation.linked?_id hf hstd]
    exact Crate.core_id_ne_std_id
  simp [hcrates, addLinked, hne]

theorem resolve_eq_ok_iff_linkAll {f : Foundation} {now : Listing} {r : References} :
    resolve types f now = .ok r ↔ ∃ linked,
      linkAll f now (f.crates.foldl addLinked []) (allMentions types) = .ok linked ∧
        r = ofLinked linked := by
  rw [resolve]
  cases linkAll f now (f.crates.foldl addLinked []) (allMentions types) <;> simp [eq_comm]

theorem resolve_eq_error_iff_linkAll {f : Foundation} {now : Listing} {e : ResolveError} :
    resolve types f now = .error e ↔
      linkAll f now (f.crates.foldl addLinked []) (allMentions types) = .error e := by
  rw [resolve]
  cases linkAll f now (f.crates.foldl addLinked []) (allMentions types) <;> simp

/-- **A reference set is the sorted libraries of the leaders,** and there is one exactly
when every leader has a library. -/
theorem resolve_eq_ok_iff (hf : Foundation.inDirectory libdir before = .ok f) {now : Listing}
    {types : List TypeDesc} {r : References} :
    resolve types f now = .ok r ↔
      (∀ c ∈ leaders types, (f.linked? now c).isSome = true) ∧
      r = ofLinked ((leaders types).filterMap (f.linked? now)) := by
  obtain ⟨core, std, hcore, hstd, hcrates⟩ := Foundation.crates_eq hf now
  have hlink := linkAll_eq_ok_iff hf now (allMentions types) f.crates
  rw [map_id_crates hf, hcrates] at hlink
  rw [resolve_eq_ok_iff_linkAll, foldl_addLinked_crates hf, hcrates, leaders_eq,
    List.filterMap_cons_some hcore, List.filterMap_cons_some hstd, List.forall_mem_cons,
    List.forall_mem_cons, hcore, hstd]
  simp only [hlink, Option.isSome_some, true_and]
  constructor
  · rintro ⟨linked, ⟨hsome, rfl⟩, hr⟩
    exact ⟨hsome, hr⟩
  · rintro ⟨hsome, hr⟩
    exact ⟨_, ⟨hsome, rfl⟩, hr⟩

end ExprHost.References
