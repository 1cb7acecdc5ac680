import ExprHost.Reference.Resolve
import Mathlib.Data.List.Nodup

/-!
# Mentioned crates

Which crates a list of types leads to. The list of crates that a descriptor gives is
a walk through its tree; here it is compared with the tree itself.

* `TypeDesc.Holds`: a descriptor and what it is built of, to any depth.
* `TypeDesc.mem_crates_iff`: **the walk meets exactly the crates of what is held.**
* `References.Involved`: the foundational crates and the mentioned ones.
* `References.wanted`: the same in the order met, by `References.mem_wanted_iff`.
* `References.IdsApart`: different ones have different identities.
-/

namespace ExprHost

namespace TypeDesc

/-- A descriptor holds itself, and all that the types around it and its arguments hold. -/
inductive Holds : TypeDesc → TypeDesc → Prop
  | self (t : TypeDesc) : Holds t t
  | around {t outer u : TypeDesc} : t.declaring = some outer → Holds outer u → Holds t u
  | argument {t arg u : TypeDesc} : arg ∈ t.args → Holds arg u → Holds t u

theorem crates_eq (t : TypeDesc) :
    t.crates = t.crate :: (cratesAbove t.declaring ++ cratesOfAll t.args) := by
  cases t
  rw [crates]

theorem cratesOfAll_eq_flatMap (ts : List TypeDesc) : cratesOfAll ts = ts.flatMap crates := by
  induction ts with
  | nil => rfl
  | cons t ts ih => rw [cratesOfAll, ih, List.flatMap_cons]

mutual

theorem holds_of_mem_crates : ∀ {t : TypeDesc} {c : Crate}, c ∈ t.crates →
    ∃ u, t.Holds u ∧ u.crate = c
  | ⟨name, crate, params, args, declaring⟩, c, h => by
    rw [crates, List.mem_cons, List.mem_append] at h
    rcases h with h | h | h
    · exact ⟨_, .self _, h.symm⟩
    · obtain ⟨outer, u, hout, hu, hc⟩ := holds_of_mem_cratesAbove h
      exact ⟨u, .around hout hu, hc⟩
    · obtain ⟨arg, harg, u, hu, hc⟩ := holds_of_mem_cratesOfAll h
      exact ⟨u, .argument harg hu, hc⟩

theorem holds_of_mem_cratesAbove : ∀ {above : Option TypeDesc} {c : Crate},
    c ∈ cratesAbove above → ∃ outer u, above = some outer ∧ outer.Holds u ∧ u.crate = c
  | none, _, h => by simp [cratesAbove] at h
  | some outer, c, h => by
    rw [cratesAbove] at h
    obtain ⟨u, hu, hc⟩ := holds_of_mem_crates h
    exact ⟨outer, u, rfl, hu, hc⟩

theorem holds_of_mem_cratesOfAll : ∀ {ts : List TypeDesc} {c : Crate}, c ∈ cratesOfAll ts →
    ∃ t ∈ ts, ∃ u, t.Holds u ∧ u.crate = c
  | [], _, h => by simp [cratesOfAll] at h
  | t :: ts, c, h => by
    rw [cratesOfAll, List.mem_append] at h
    rcases h with h | h
    · exact ⟨t, List.mem_cons_self, holds_of_mem_crates h⟩
    · obtain ⟨t', ht', hu⟩ := holds_of_mem_cratesOfAll h
      exact ⟨t', List.mem_cons_of_mem t ht', hu⟩

end

theorem crate_mem_of_holds {t u : TypeDesc} (h : t.Holds u) : u.crate ∈ t.crates := by
  induction h with
  | self t =>
    rw [crates_eq]
    exact List.mem_cons_self
  | @around t outer u hout _ ih =>
    rw [crates_eq, hout, cratesAbove]
    exact List.mem_cons_of_mem _ (List.mem_append_left _ ih)
  | @argument t arg u harg _ ih =>
    rw [crates_eq, cratesOfAll_eq_flatMap]
    exact List.mem_cons_of_mem _ (List.mem_append_right _ (List.mem_flatMap.2 ⟨arg, harg, ih⟩))

/-- **The crates of a type are those of the descriptors it holds.** -/
theorem mem_crates_iff {t : TypeDesc} {c : Crate} :
    c ∈ t.crates ↔ ∃ u, t.Holds u ∧ u.crate = c := by
  constructor
  · exact holds_of_mem_crates
  · rintro ⟨u, hu, rfl⟩
    exact crate_mem_of_holds hu

end TypeDesc

namespace References

/-- A crate is mentioned if a descriptor that a baseline or a given type holds lies in it. -/
def Mentioned (types : List TypeDesc) (c : Crate) : Prop :=
  ∃ t ∈ HostType.baseline ++ types, ∃ u, t.Holds u ∧ u.crate = c

theorem holds_of_mem_mentions {types : List TypeDesc} {m : Mention}
    (hm : m ∈ types.flatMap TypeDesc.mentions) : ∃ t ∈ types, ∃ u, t.Holds u ∧ u.crate = m.crate := by
  obtain ⟨t, ht, hmt⟩ := List.mem_flatMap.1 hm
  obtain ⟨c, hc, rfl⟩ := List.mem_map.1 hmt
  exact ⟨t, ht, TypeDesc.mem_crates_iff.1 hc⟩

/-- The crates that a reference set is made for. -/
def Involved (types : List TypeDesc) (c : Crate) : Prop :=
  c = .core ∨ c = .std ∨ Mentioned types c

/-- No two crates that differ in their texts share an identity. -/
def IdsApart (types : List TypeDesc) : Prop :=
  ∀ c d, Involved types c → Involved types d → c.id = d.id → c = d

/-- The involved crates in the order in which they are met, with repetitions. -/
def wanted (types : List TypeDesc) : List Crate :=
  .core :: .std :: (HostType.baseline ++ types).flatMap TypeDesc.crates

theorem map_crate_allMentions (types : List TypeDesc) :
    (allMentions types).map (·.crate) = (HostType.baseline ++ types).flatMap TypeDesc.crates := by
  rw [allMentions, List.map_flatMap]
  congr 1
  funext t
  rw [TypeDesc.mentions, List.map_map]
  exact List.map_id t.crates

theorem mem_wanted_iff {types : List TypeDesc} {c : Crate} :
    c ∈ wanted types ↔ Involved types c := by
  simp only [wanted, Involved, Mentioned, List.mem_cons, List.mem_flatMap, TypeDesc.mem_crates_iff]

/-- Identities are apart if those of a list are that has all the crates involved. -/
theorem idsApart_of_nodup {types : List TypeDesc} {l : List Crate} (hsub : wanted types ⊆ l)
    (hids : (l.map Crate.id).Nodup) : IdsApart types := by
  intro c d hc hd hcd
  exact List.inj_on_of_nodup_map hids (hsub (mem_wanted_iff.2 hc)) (hsub (mem_wanted_iff.2 hd)) hcd

theorem wanted_perm {types types' : List TypeDesc} (h : types.Perm types') :
    (wanted types).Perm (wanted types') := by
  have hall : (HostType.baseline ++ types).Perm (HostType.baseline ++ types') :=
    h.append_left HostType.baseline
  exact ((hall.flatMap_right TypeDesc.crates).cons Crate.std).cons Crate.core

end References

end ExprHost
