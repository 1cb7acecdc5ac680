import ExprHost.Proofs.Reference.Leaders

/-!
# Host types need only the foundation

A host type's descriptor has no part that lies outside the foundational crates, so its
mentions are all met before the first of them is looked at, and the library directory is
never read. Whatever it holds by then, the reference set is the foundation.

* `TypeDesc.SelfContained`: a descriptor that needs nothing but its arguments.
* `HostType.selfContained_of_holds`: **every part of a host type is one.**
* `References.resolve_of_foundational`: what is resolved where no other crate is mentioned.
* `References.resolve_hostTypes`: **host types resolve to the foundation.**
-/

namespace ExprHost

/-- A descriptor that has all its arguments, stands in no other type and lies in a
foundational crate. -/
structure TypeDesc.SelfContained (t : TypeDesc) : Prop where
  saturated : t.args.length = t.params
  outermost : t.declaring = none
  foundational : t.crate = .core ∨ t.crate = .std

namespace HostType

theorem Atom.selfContained_desc (a : Atom) : a.desc.SelfContained := by
  cases a
  case string => exact ⟨rfl, rfl, Or.inr rfl⟩
  all_goals exact ⟨rfl, rfl, Or.inl rfl⟩

theorem Atom.args_desc (a : Atom) : a.desc.args = [] := by
  cases a <;> rfl

theorem selfContained_desc (t : HostType) : t.desc.SelfContained := by
  cases t with
  | atom a => exact a.selfContained_desc
  | unary c arg => exact ⟨rfl, rfl, Or.inr rfl⟩
  | binary c first second => exact ⟨rfl, rfl, Or.inr rfl⟩

/-- What a host type holds is the type itself or is held by one of its arguments. -/
theorem holds_desc_cases {t : HostType} {u : TypeDesc} (h : t.desc.Holds u) :
    u = t.desc ∨ ∃ arg ∈ t.desc.args, arg.Holds u := by
  cases h with
  | self => exact Or.inl rfl
  | around hout _ =>
    rw [t.selfContained_desc.outermost] at hout
    cases hout
  | argument harg hu => exact Or.inr ⟨_, harg, hu⟩

/-- **Every part of a host type's descriptor is self-contained,** to any depth. -/
theorem selfContained_of_holds (t : HostType) : ∀ {u : TypeDesc}, t.desc.Holds u →
    u.SelfContained := by
  induction t with
  | atom a =>
    intro u h
    rcases holds_desc_cases h with rfl | ⟨arg, harg, -⟩
    · exact selfContained_desc _
    · rw [desc, a.args_desc] at harg
      cases harg
  | unary c arg ih =>
    intro u h
    rcases holds_desc_cases h with rfl | ⟨d, hd, hu⟩
    · exact selfContained_desc _
    · obtain rfl : d = arg.desc := List.mem_singleton.1 hd
      exact ih hu
  | binary c first second ihFirst ihSecond =>
    intro u h
    rcases holds_desc_cases h with rfl | ⟨d, hd, hu⟩
    · exact selfContained_desc _
    · rcases List.mem_pair.1 hd with rfl | rfl
      · exact ihFirst hu
      · exact ihSecond hu

end HostType

namespace References

/-- Crates whose identities have all been met are no first ones. -/
theorem firsts_eq_nil {met : List CrateId} {cs : List Crate} (h : ∀ c ∈ cs, c.id ∈ met) :
    firsts met cs = [] := by
  apply List.eq_nil_iff_forall_not_mem.2
  intro c hc
  obtain ⟨hmet, hfirst⟩ := mem_firsts_iff.1 hc
  exact hmet (h c (List.mem_of_find?_eq_some hfirst))

/-- The crates that a list of types mentions are all foundational. -/
def OnlyFoundational (types : List TypeDesc) : Prop :=
  ∀ c, Mentioned types c → c = .core ∨ c = .std

theorem leaders_of_onlyFoundational {types : List TypeDesc} (h : OnlyFoundational types) :
    leaders types = [.core, .std] := by
  have hmet : ∀ c ∈ (allMentions types).map (·.crate),
      c.id ∈ [Crate.core.id, Crate.std.id] := by
    intro c hc
    rw [map_crate_allMentions] at hc
    have hwanted : c ∈ wanted types := List.mem_cons_of_mem _ (List.mem_cons_of_mem _ hc)
    rcases mem_wanted_iff.1 hwanted with rfl | rfl | hmentioned
    · simp
    · simp
    · rcases h c hmentioned with rfl | rfl <;> simp
  rw [leaders_eq, firsts_eq_nil hmet]

variable {libdir : Path} {before : Listing} {f : Foundation}

/-- The foundational crates stand in canonical order. -/
theorem ofLinked_foundational (p q : Path) :
    ofLinked [.ofSysroot "core" p, .ofSysroot "std" q] =
      ⟨[.ofSysroot "core" p, .ofSysroot "std" q]⟩ := by
  have horder : LinkedCrate.keyOrder (.ofSysroot "core" p) (.ofSysroot "std" q) = .lt := by
    have hname : compare "core" "std" = .lt := by decide
    unfold LinkedCrate.keyOrder compareLex compareOn
    rw [show compare (LinkedCrate.ofSysroot "core" p).name (LinkedCrate.ofSysroot "std" q).name =
      .lt from hname]
    rfl
  unfold ofLinked
  rw [List.mergeSort_of_pairwise]
  simp [horder]

/-- **Where no other crate is mentioned, the foundation is all that is resolved,** whatever
the library directory holds now. -/
theorem resolve_of_foundational (hf : Foundation.inDirectory libdir before = .ok f)
    {types : List TypeDesc} (h : OnlyFoundational types) (now : Listing) :
    resolve types f now = .ok ⟨f.crates⟩ := by
  obtain ⟨p, q, -, -, hcrates⟩ := Foundation.inDirectory_eq_ok_iff.1 hf
  obtain ⟨core, std, hcore, hstd, hboth⟩ := Foundation.crates_eq hf now
  refine (resolve_eq_ok_iff hf).2 ⟨?_, ?_⟩
  · rw [leaders_of_onlyFoundational h]
    intro c hc
    rcases List.mem_pair.1 hc with rfl | rfl
    · rw [hcore, Option.isSome_some]
    · rw [hstd, Option.isSome_some]
  · rw [leaders_of_onlyFoundational h, List.filterMap_cons_some hcore,
      List.filterMap_cons_some hstd, List.filterMap_nil, ← hboth, hcrates, ofLinked_foundational]

/-- The baseline names constructors without their arguments, and each lies in one crate. -/
theorem crates_of_baseline {t : TypeDesc} (ht : t ∈ HostType.baseline) :
    t.crates = [.core] ∨ t.crates = [.std] := by
  simp only [HostType.baseline, List.mem_cons, List.not_mem_nil, or_false] at ht
  rcases ht with rfl | rfl | rfl | rfl | rfl | rfl
  · exact Or.inl rfl
  · exact Or.inl rfl
  all_goals exact Or.inr rfl

theorem onlyFoundational_hostTypes (ts : List HostType) :
    OnlyFoundational (ts.map HostType.desc) := by
  rintro c ⟨t, ht, u, hu, rfl⟩
  rcases List.mem_append.1 ht with ht | ht
  · have hmem : u.crate ∈ t.crates := TypeDesc.crate_mem_of_holds hu
    rcases crates_of_baseline ht with h | h
    · rw [h] at hmem
      exact Or.inl (List.mem_singleton.1 hmem)
    · rw [h] at hmem
      exact Or.inr (List.mem_singleton.1 hmem)
  · obtain ⟨host, -, rfl⟩ := List.mem_map.1 ht
    exact (host.selfContained_of_holds hu).foundational

/-- The foundation by itself asks for nothing. -/
theorem foundational_asks_nothing (p q : Path) :
    let r : References := ⟨[.ofSysroot "core" p, .ofSysroot "std" q]⟩
    r.explicit = [] ∧ r.libraryDirs = [] ∧ r.dynamicNames = [] := by
  intro r
  have hexplicit : r.explicit = [] := rfl
  refine ⟨hexplicit, ?_, rfl⟩
  rw [libraryDirs, hexplicit, List.filterMap_nil, List.mergeSort_nil]
  rfl

/-- **Host types resolve to the foundation** that was located, as no types at all do, whatever
the library directory holds by then: there is nothing that the compiler has to be told of.
The reason is that no part of a host type's descriptor lies anywhere else. -/
theorem resolve_hostTypes (hf : Foundation.inDirectory libdir before = .ok f)
    (ts : List HostType) :
    (∀ (t : HostType) (u : TypeDesc), t.desc.Holds u → u.SelfContained) ∧
    ∃ p q, findLibrary? libdir before "core" = some p ∧
      findLibrary? libdir before "std" = some q ∧
      ∃ r : References, r.crates = [.ofSysroot "core" p, .ofSysroot "std" q] ∧
        (∀ now, resolve (ts.map HostType.desc) f now = .ok r ∧ resolve [] f now = .ok r) ∧
        r.explicit = [] ∧ r.libraryDirs = [] ∧ r.dynamicNames = [] := by
  refine ⟨fun t u hu => t.selfContained_of_holds hu, ?_⟩
  obtain ⟨p, q, hp, hq, hcrates⟩ := Foundation.inDirectory_eq_ok_iff.1 hf
  have hfcrates : f.crates = [.ofSysroot "core" p, .ofSysroot "std" q] := by rw [hcrates]
  refine ⟨p, q, hp, hq, ⟨f.crates⟩, hfcrates, ?_, ?_⟩
  · intro now
    exact ⟨resolve_of_foundational hf (onlyFoundational_hostTypes ts) now,
      resolve_of_foundational hf (onlyFoundational_hostTypes []) now⟩
  · rw [hfcrates]
    exact foundational_asks_nothing p q

/-- A deeply nested type, in a library directory that has been emptied. -/
theorem resolve_hostTypes_emptied :
    Foundation.inDirectory ⟨"sysroot"⟩ Foundation.sampleListing = .ok .sample ∧
    ∃ r : References, r.size = 2 ∧
      resolve [(HostType.binary .hashMap (.atom .string)
        (.unary .vec (.unary .option (.atom .i32)))).desc] .sample (some []) = .ok r ∧
      resolve [] .sample (some []) = .ok r ∧ r.explicit = [] := by
  obtain ⟨-, p, q, -, -, r, hcrates, hresolve, hexplicit, -⟩ :=
    resolve_hostTypes Foundation.inDirectory_sample
      [.binary .hashMap (.atom .string) (.unary .vec (.unary .option (.atom .i32)))]
  obtain ⟨htypes, hnone⟩ := hresolve (some [])
  refine ⟨Foundation.inDirectory_sample, r, ?_, htypes, hnone, hexplicit⟩
  rw [size, hcrates]
  rfl

end References

end ExprHost
