import ExprHost.Proofs.Reference.Spellings
import ExprHost.Proofs.Reference.Unlocated

/-!
# Growing reference sets

More types after some types change nothing of what was found for the first ones. A crate that
cannot be linked is reported whatever comes after it. Types all of whose crates have been met leave
the set as it is, and any others add to it.

* `linkAll_append`: linking goes on where it stopped.
* `exists_append_of_linkAll`, `linkAll_of_met`: **what has been linked stays, and only new
  identities are linked.**
* `resolve_append_of_error`, `resolve_append_of_contains`, `sublist_of_resolve_append`: the same
  of reference sets.
* `resolve_append`: **what more types do.**
-/

namespace ExprHost.References

variable {f : Foundation} {now : Listing} {types types' : List TypeDesc}
  {linked out : List LinkedCrate} {ms : List Mention}

/-! ## Linking more mentions -/

/-- Linking goes on where it stopped. -/
theorem linkAll_append (f : Foundation) (now : Listing) (ms more : List Mention) :
    ∀ linked : List LinkedCrate, linkAll f now linked (ms ++ more) =
      linkAll f now linked ms >>= fun out => linkAll f now out more := by
  induction ms with
  | nil => exact fun _ => rfl
  | cons m rest ih =>
    intro linked
    rw [List.cons_append, linkAll, linkAll]
    split
    · exact ih linked
    · cases link f now m with
      | error e => rfl
      | ok c => exact ih (linked ++ [c])

/-- What has been linked stays, in front of what is linked after it. -/
theorem exists_append_of_linkAll (h : linkAll f now linked ms = .ok out) :
    ∃ more, out = linked ++ more := by
  induction ms generalizing linked with
  | nil =>
    obtain rfl := Except.ok.inj h
    exact ⟨[], (List.append_nil linked).symm⟩
  | cons m rest ih =>
    rw [linkAll] at h
    split at h
    · exact ih h
    · split at h
      · cases h
      · next c _ =>
        obtain ⟨more, rfl⟩ := ih h
        exact ⟨c :: more, List.append_assoc linked [c] more⟩

/-- Nothing is linked for mentions whose identities are there. -/
theorem linkAll_of_met (h : ∀ m ∈ ms, m.crate.id ∈ linked.map (·.id)) :
    linkAll f now linked ms = .ok linked := by
  induction ms with
  | nil => rfl
  | cons m rest ih =>
    obtain ⟨hm, hrest⟩ := List.forall_mem_cons.1 h
    rw [linkAll, if_pos (any_id_iff.2 hm), ih hrest]

/-! ## Resolving more types -/

theorem allMentions_append (types types' : List TypeDesc) :
    allMentions (types ++ types') = allMentions types ++ types'.flatMap TypeDesc.mentions := by
  rw [allMentions, ← List.append_assoc, List.flatMap_append, allMentions]

theorem contains_ofLinked_iff {id : CrateId} :
    (ofLinked linked).contains id = true ↔ id ∈ linked.map (·.id) := by
  rw [contains, any_id_iff, ofLinked]
  exact ((List.mergeSort_perm _ _).map _).mem_iff

/-- **A crate that cannot be linked is reported whatever comes after it.** -/
theorem resolve_append_of_error {e : ResolveError} (h : resolve types f now = .error e) :
    resolve (types ++ types') f now = .error e := by
  rw [resolve_eq_error_iff_linkAll] at h ⊢
  rw [allMentions_append, linkAll_append, h]
  rfl

/-- **Types all of whose crates are there add nothing.** -/
theorem resolve_append_of_contains {r : References} (h : resolve types f now = .ok r)
    (hmet : ∀ t ∈ types', ∀ u, t.Holds u → r.contains u.crate.id = true) :
    resolve (types ++ types') f now = .ok r := by
  obtain ⟨linked, hlinked, rfl⟩ := resolve_eq_ok_iff_linkAll.1 h
  refine resolve_eq_ok_iff_linkAll.2 ⟨linked, ?_, rfl⟩
  rw [allMentions_append, linkAll_append, hlinked]
  refine linkAll_of_met fun m hm => ?_
  obtain ⟨t, ht, u, hu, hcrate⟩ := holds_of_mem_mentions hm
  rw [← hcrate]
  exact contains_ofLinked_iff.1 (hmet t ht u hu)

/-- What was linked for some types is linked, in front, for more of them. -/
theorem exists_linked_of_resolve_append {r r' : References} (h : resolve types f now = .ok r)
    (h' : resolve (types ++ types') f now = .ok r') :
    ∃ linked more, r = ofLinked linked ∧ r' = ofLinked (linked ++ more) := by
  obtain ⟨linked, hlinked, rfl⟩ := resolve_eq_ok_iff_linkAll.1 h
  obtain ⟨out, hout, rfl⟩ := resolve_eq_ok_iff_linkAll.1 h'
  rw [allMentions_append, linkAll_append, hlinked] at hout
  obtain ⟨more, rfl⟩ := exists_append_of_linkAll hout
  exact ⟨linked, more, rfl, rfl⟩

/-- No entry is lost. -/
theorem mem_crates_of_resolve_append {r r' : References} (h : resolve types f now = .ok r)
    (h' : resolve (types ++ types') f now = .ok r') {e : LinkedCrate} (he : e ∈ r.crates) :
    e ∈ r'.crates := by
  obtain ⟨linked, more, rfl, rfl⟩ := exists_linked_of_resolve_append h h'
  rw [ofLinked, List.mem_mergeSort] at he ⊢
  exact List.mem_append_left more he

variable {libdir : Path} {before : Listing}

/-- **The entries keep their order.** -/
theorem sublist_of_resolve_append (hf : Foundation.inDirectory libdir before = .ok f)
    {r r' : References} (h : resolve types f now = .ok r)
    (h' : resolve (types ++ types') f now = .ok r') : r.crates.Sublist r'.crates := by
  have hnodup := (nodup_ids_of_resolve hf h').of_map
  obtain ⟨linked, more, rfl, rfl⟩ := exists_linked_of_resolve_append h h'
  rw [ofLinked, (List.mergeSort_perm _ _).nodup_iff] at hnodup
  refine StableSort.sublist_mergeSort ?_ ?_ hnodup (List.sublist_append_left linked more)
  · intro a b c hab hbc
    exact Std.TransCmp.isLE_trans hab hbc
  · intro a b
    exact LinkedCrate.View.notAfter_total a.view b.view

/-- Types that can be resolved with others have their crates in the set. -/
theorem contains_of_resolve (hf : Foundation.inDirectory libdir before = .ok f) {r : References}
    (h : resolve types f now = .ok r) {t u : TypeDesc} (ht : t ∈ types) (hu : t.Holds u) :
    r.contains u.crate.id = true := by
  rw [contains, any_id_iff]
  exact id_mem_of_involved hf h (.inr (.inr ⟨t, List.mem_append_right _ ht, u, hu, rfl⟩))

/-- **What more types do** to a reference set. An error stays the same error. A set stays the same
set if the identities of all their crates are in it, and keeps all its entries in any case. In a
located foundation it stays the same only then, the same types given twice add nothing, and the
entries that were there stay in their order. -/
theorem resolve_append (f : Foundation) (now : Listing) (types types' : List TypeDesc) :
    (∀ e, resolve types f now = .error e → resolve (types ++ types') f now = .error e) ∧
    ∀ r, resolve types f now = .ok r →
      ((∀ t ∈ types', ∀ u, t.Holds u → r.contains u.crate.id = true) →
        resolve (types ++ types') f now = .ok r) ∧
      (∀ r', resolve (types ++ types') f now = .ok r' → ∀ e ∈ r.crates, e ∈ r'.crates) ∧
      ∀ libdir before, Foundation.inDirectory libdir before = .ok f →
        resolve (types ++ types) f now = .ok r ∧
        (resolve (types ++ types') f now = .ok r →
          ∀ t ∈ types', ∀ u, t.Holds u → r.contains u.crate.id = true) ∧
        ∀ r', resolve (types ++ types') f now = .ok r' → r.crates.Sublist r'.crates := by
  refine ⟨fun e => resolve_append_of_error, fun r hr => ⟨resolve_append_of_contains hr,
    fun r' hr' e => mem_crates_of_resolve_append hr hr', fun libdir before hf => ⟨?_, ?_, ?_⟩⟩⟩
  · exact resolve_append_of_contains hr fun t ht u => contains_of_resolve hf hr ht
  · exact fun h t ht u => contains_of_resolve hf h (List.mem_append_right types ht)
  · exact fun r' => sublist_of_resolve_append hf hr

/-- Another type that is declared in the library file of a vector's elements. -/
def alsoShared : TypeDesc := .plain (.ofPath "x::B") (.inFile "x" ⟨"lib/libx.so"⟩)

theorem contains_alsoShared {r : References} (h : resolve [vecOfShared] .sample none = .ok r)
    {u : TypeDesc} (hu : alsoShared.Holds u) : r.contains u.crate.id = true := by
  cases hu with
  | self =>
    exact contains_of_resolve (u := .plain (.ofPath "x::A") alsoShared.crate)
      Foundation.inDirectory_sample h List.mem_cons_self (.argument List.mem_cons_self (.self _))
  | around hout => cases hout
  | argument harg => cases harg

theorem resolve_append_vecOfShared :
    resolve ([vecOfThing] ++ [vecOfShared]) .sample Foundation.sampleListing =
      .error (.unlocated ghost.name vecOfThing.name.text) ∧
    ∃ r, resolve [vecOfShared] .sample none = .ok r ∧
      resolve ([vecOfShared] ++ [alsoShared]) .sample none = .ok r ∧
      resolve ([vecOfShared] ++ [vecOfShared]) .sample none = .ok r := by
  have herror := (resolve_eq_error_iff Foundation.inDirectory_sample).2
    ⟨ghost, vecOfThing, firstMissing_vecOfThing, rfl⟩
  obtain ⟨r, hr⟩ := (exists_resolve_iff Foundation.inDirectory_sample idsApart_vecOfShared).2
    fun c => available_vecOfShared
  obtain ⟨hsame, -, hlocated⟩ :=
    (resolve_append .sample none [vecOfShared] [alsoShared]).2 r hr
  refine ⟨(resolve_append _ _ _ _).1 _ herror, r, hr, hsame ?_,
    (hlocated _ _ Foundation.inDirectory_sample).1⟩
  intro t ht u hu
  obtain rfl := List.mem_singleton.1 ht
  exact contains_alsoShared hr hu

end ExprHost.References
