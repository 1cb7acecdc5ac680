import ExprHost.Proofs.Reference.Canonical
import ExprHost.Proofs.Reference.Complete

/-!
# Spellings of a library's path

Crates in library files are the same when their paths have the same components, but their
identities are made of the paths as they are spelled. So one library can have several
identities, and then a reference set has an entry for each.

* `Crate.id_eq_iff_digest_eq`: when the same crate has the same identity.
* `References.exists_entry_of_involved`, `References.length_entries`: an entry for each identity.
* `References.same_crate_entries`: **how many identities and entries the same crate has.**
* `Crate.id_ne_of_spellings`: spellings of one path that have different identities.
-/

namespace ExprHost

/-- The same crate has the same identity when the digests of its path agree, as it is spelled
in both. -/
theorem Crate.id_eq_iff_digest_eq {a b : Crate} (h : (a == b) = true) : a.id = b.id ↔
    Xxh64.digestText a.origin.pathKey.text = Xxh64.digestText b.origin.pathKey.text := by
  obtain ⟨name, origin⟩ := a
  obtain ⟨name', origin'⟩ := b
  obtain ⟨rfl, horigin⟩ := Crate.beq_iff.1 h
  rcases Origin.beq_cases horigin with rfl | ⟨p, q, rfl, rfl, -⟩
  · exact iff_of_true rfl rfl
  · -- the digest of the name goes into both alike, so those of the paths decide
    simp only [Crate.id, CrateId.ofCrate, CrateId.ofDigests, CrateId.mk.injEq, UInt64.add_right_inj]

namespace References

variable {libdir : Path} {before now : Listing} {f : Foundation} {types : List TypeDesc}

/-- The entry under the identity of an involved crate is the right one for some involved crate
with that identity. -/
theorem exists_entry_of_involved (hf : Foundation.inDirectory libdir before = .ok f)
    {r : References} (hr : resolve types f now = .ok r) {c : Crate} (hc : Involved types c) :
    ∃ d, Involved types d ∧ d.id = c.id ∧ ∃ e ∈ r.crates, LinkedFor libdir before now d e := by
  obtain ⟨hsome, rfl⟩ := (resolve_eq_ok_iff hf).1 hr
  obtain ⟨d, hd, hid⟩ := exists_mem_leaders (mem_wanted_iff.2 hc)
  obtain ⟨e, he⟩ := Option.isSome_iff_exists.1 (hsome d hd)
  refine ⟨d, mem_wanted_iff.1 (mem_wanted_of_mem_leaders hd), hid, e, ?_,
    (linked?_eq_some_iff hf).1 he⟩
  rw [ofLinked, List.mem_mergeSort]
  exact List.mem_filterMap.2 ⟨d, hd, he⟩

/-- An identity of an involved crate stands in the reference set. -/
theorem id_mem_of_involved (hf : Foundation.inDirectory libdir before = .ok f) {r : References}
    (hr : resolve types f now = .ok r) {c : Crate} (hc : Involved types c) :
    c.id ∈ r.crates.map (·.id) := by
  obtain ⟨d, -, hid, e, he, hfor⟩ := exists_entry_of_involved hf hr hc
  exact List.mem_map.2 ⟨e, he, hfor.id.trans hid⟩

/-- Two identities of involved crates have an entry each, one if they are the same. -/
theorem length_entries (hf : Foundation.inDirectory libdir before = .ok f) {r : References}
    (hr : resolve types f now = .ok r) {a b : Crate} (ha : Involved types a)
    (hb : Involved types b) :
    (r.crates.filter fun e => e.id = a.id ∨ e.id = b.id).length = if a.id = b.id then 1 else 2 := by
  have hmem : ∀ i, i ∈ (r.crates.map (·.id)).filter (fun i => i = a.id ∨ i = b.id) ↔
      i = a.id ∨ i = b.id := by
    intro i
    rw [List.mem_filter, decide_eq_true_iff]
    refine and_iff_right_of_imp ?_
    rintro (rfl | rfl)
    · exact id_mem_of_involved hf hr ha
    · exact id_mem_of_involved hf hr hb
  have hnodup := (nodup_ids_of_resolve hf hr).filter fun i => i = a.id ∨ i = b.id
  have hids : ((r.crates.map (·.id)).filter fun i => i = a.id ∨ i = b.id).Perm
      (if a.id = b.id then [a.id] else [a.id, b.id]) := by
    by_cases hid : a.id = b.id
    · rw [if_pos hid]
      refine (List.perm_ext_iff_of_nodup hnodup (List.nodup_singleton _)).2 fun i => ?_
      rw [hmem, ← hid, or_self, List.mem_singleton]
    · rw [if_neg hid]
      refine (List.perm_ext_iff_of_nodup hnodup (List.nodup_cons.2 ⟨?_, List.nodup_singleton _⟩)).2
        fun i => ?_
      · rwa [List.mem_singleton]
      · rw [hmem, List.mem_pair]
  have hlen := hids.length_eq
  rw [List.filter_map, List.length_map] at hlen
  refine hlen.trans ?_
  split <;> rfl

/-- **How many identities and entries the same crate has:** one if the digests of its path agree,
as it is spelled in both, else two. -/
theorem same_crate_entries {a b : Crate} (h : (a == b) = true) :
    (a.id = b.id ↔
      Xxh64.digestText a.origin.pathKey.text = Xxh64.digestText b.origin.pathKey.text) ∧
    ∀ (libdir : Path) (before now : Listing) (f : Foundation) (types : List TypeDesc)
      (r : References), Foundation.inDirectory libdir before = .ok f →
      resolve types f now = .ok r → Involved types a → Involved types b →
      (r.crates.filter fun e => e.id = a.id ∨ e.id = b.id).length =
        if Xxh64.digestText a.origin.pathKey.text = Xxh64.digestText b.origin.pathKey.text
        then 1 else 2 := by
  refine ⟨Crate.id_eq_iff_digest_eq h, fun libdir before now f types r hf hr ha hb => ?_⟩
  rw [length_entries hf hr ha hb]
  simp only [Crate.id_eq_iff_digest_eq h]

theorem same_crate_entries_onePath :
    (Crate.inFile "x" ⟨"lib/a//b.rlib"⟩ == Crate.inFile "x" ⟨"lib/a/b.rlib"⟩) = true ∧
    ∃ r, resolve [onePath, otherPath] .sample none = .ok r ∧
      (r.crates.filter fun e => e.id = (Crate.inFile "x" ⟨"lib/a//b.rlib"⟩).id ∨
        e.id = (Crate.inFile "x" ⟨"lib/a/b.rlib"⟩).id).length = 2 := by
  have hsame : (Crate.inFile "x" ⟨"lib/a//b.rlib"⟩ == Crate.inFile "x" ⟨"lib/a/b.rlib"⟩) = true := by
    decide +kernel
  have hone : Involved [onePath, otherPath] (.inFile "x" ⟨"lib/a//b.rlib"⟩) :=
    .inr (.inr ⟨onePath, by simp, onePath, .self _, rfl⟩)
  have hother : Involved [onePath, otherPath] (.inFile "x" ⟨"lib/a/b.rlib"⟩) :=
    .inr (.inr ⟨otherPath, by simp, otherPath, .self _, rfl⟩)
  have hcount := (same_crate_entries hsame).2 _ _ _ _ _ _ Foundation.inDirectory_sample
    resolve_onePath_otherPath hone hother
  rw [if_neg (by decide +kernel)] at hcount
  exact ⟨hsame, _, resolve_onePath_otherPath, hcount⟩

end References

/-! ## One library, several identities -/

/-- **Spellings of one path that have different identities:** with a separator repeated, with one
at the end, and with a step to where one is. -/
theorem Crate.id_ne_of_spellings :
    let a := Crate.inFile "x" ⟨"lib/a/b.rlib"⟩
    let repeated := Crate.inFile "x" ⟨"lib/a//b.rlib"⟩
    let trailing := Crate.inFile "x" ⟨"lib/a/b.rlib/"⟩
    let inner := Crate.inFile "x" ⟨"lib/a/./b.rlib"⟩
    ((a == repeated) = true ∧ a.id ≠ repeated.id) ∧ ((a == trailing) = true ∧ a.id ≠ trailing.id) ∧
      ((a == inner) = true ∧ a.id ≠ inner.id) := by
  decide +kernel

end ExprHost
