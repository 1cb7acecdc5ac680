import ExprHost.Proofs.Reference.HostTypes
import ExprHost.Proofs.Reference.Spellings

/-!
# What identities tell apart

An identity is one word, mixed from the digest of a crate's name and, for a library file, the
digest of its path. Among crates of one kind of origin the mixing loses nothing: two of them share
an identity only if digests collide. It does not keep the kinds apart. The digest of a path is
added to the word for the name, and so there is one digest with which a path leads to the identity
of the sysroot crate of that name, and one with which it leads to that of the unlocated crate.

* `CrateId.mul_spread_inj`: spreading the name of a library's crate can be undone.
* `Crate.inFile_id_eq_iff`: which paths lead to an identity.
* `Crate.ids_collide_iff`: **within a kind of origin only digests collide.**
* `References.one_name_entries`: **when crates of one name are taken for each other.**
* `References.one_name_merged`: library files that are taken for other crates of their names.
-/

namespace ExprHost

namespace CrateId

/-- What undoes `spread`. It exists because `spread` is odd. -/
def unspread : UInt64 := 0xd3f20f0a40208825

theorem spread_mul_unspread : spread * unspread = 1 := by decide

theorem mul_spread_inj {a b : UInt64} : a * spread = b * spread ↔ a = b := by
  constructor
  · intro h
    calc a = a * spread * unspread := by
          rw [UInt64.mul_assoc, spread_mul_unspread, UInt64.mul_one]
      _ = b * spread * unspread := by rw [h]
      _ = b := by rw [UInt64.mul_assoc, spread_mul_unspread, UInt64.mul_one]
  · intro h
    rw [h]

/-- The digest that the path of a crate's library file has where the crate has an identity. -/
def pathDigest (name : String) (i : CrateId) : UInt64 :=
  i.word - (fileMark ^^^ Xxh64.digestText name) * spread

end CrateId

namespace Crate

theorem id_sysroot (name : String) :
    (sysroot name).id = ⟨CrateId.sysrootMark ^^^ Xxh64.digestText name⟩ := rfl

theorem id_unlocated (name : String) :
    (unlocated name).id = ⟨CrateId.unlocatedMark ^^^ Xxh64.digestText name⟩ := rfl

theorem id_inFile (name : String) (path : Path) : (inFile name path).id =
    ⟨(CrateId.fileMark ^^^ Xxh64.digestText name) * CrateId.spread +
      Xxh64.digestText path.text⟩ := rfl

/-- **Which paths lead to an identity:** those with one digest, which the name settles. -/
theorem inFile_id_eq_iff {name : String} {path : Path} {i : CrateId} :
    (inFile name path).id = i ↔ Xxh64.digestText path.text = CrateId.pathDigest name i := by
  obtain ⟨word⟩ := i
  rw [id_inFile, CrateId.mk.injEq, CrateId.pathDigest, UInt64.eq_sub_iff_add_eq, UInt64.add_comm]

/-- The sysroot crate and the unlocated crate of a name are always told apart. -/
theorem sysroot_id_ne_unlocated_id (name : String) : (sysroot name).id ≠ (unlocated name).id := by
  rw [id_sysroot, id_unlocated, ne_eq, CrateId.mk.injEq, UInt64.xor_left_inj]
  decide

/-- **Within a kind of origin only digests collide.** Of two files of one crate the digests of the
paths decide whether they share an identity, of files under one path those of the names, and of
crates without a file those of the names as well. -/
theorem ids_collide_iff (n m : String) (p q : Path) :
    ((inFile n p).id = (inFile n q).id ↔ Xxh64.digestText p.text = Xxh64.digestText q.text) ∧
    ((inFile n p).id = (inFile m p).id ↔ Xxh64.digestText n = Xxh64.digestText m) ∧
    ((sysroot n).id = (sysroot m).id ↔ Xxh64.digestText n = Xxh64.digestText m) ∧
    ((unlocated n).id = (unlocated m).id ↔ Xxh64.digestText n = Xxh64.digestText m) := by
  refine ⟨?_, ?_, ?_, ?_⟩
  · rw [id_inFile, id_inFile, CrateId.mk.injEq, UInt64.add_right_inj]
  · rw [id_inFile, id_inFile, CrateId.mk.injEq, UInt64.add_left_inj, CrateId.mul_spread_inj,
      UInt64.xor_right_inj]
  · rw [id_sysroot, id_sysroot, CrateId.mk.injEq, UInt64.xor_right_inj]
  · rw [id_unlocated, id_unlocated, CrateId.mk.injEq, UInt64.xor_right_inj]

end Crate

namespace References

/-- **When crates of one name are taken for each other.** The sysroot crate and the unlocated one
never are. A library file is taken for either of them exactly when its path has the one digest
that leads to the other's identity. Then a set in which it is involved together with the sysroot
crate has one entry for both, else two. And there is a set in spite of an unlocated crate only if
the library of another crate with its identity stands in it. -/
theorem one_name_entries (name : String) (path : Path) :
    (Crate.sysroot name).id ≠ (Crate.unlocated name).id ∧
    ((Crate.inFile name path).id = (Crate.sysroot name).id ↔
      Xxh64.digestText path.text = CrateId.pathDigest name (Crate.sysroot name).id) ∧
    ((Crate.inFile name path).id = (Crate.unlocated name).id ↔
      Xxh64.digestText path.text = CrateId.pathDigest name (Crate.unlocated name).id) ∧
    ∀ (libdir : Path) (before now : Listing) (f : Foundation) (types : List TypeDesc)
      (r : References), Foundation.inDirectory libdir before = .ok f →
      resolve types f now = .ok r →
      (Involved types (.inFile name path) → Involved types (.sysroot name) →
        (r.crates.filter fun e => e.id = (Crate.inFile name path).id ∨
          e.id = (Crate.sysroot name).id).length =
            if Xxh64.digestText path.text = CrateId.pathDigest name (Crate.sysroot name).id
            then 1 else 2) ∧
      (Involved types (.unlocated name) →
        ∃ d, Involved types d ∧ d.id = (Crate.unlocated name).id ∧ d ≠ .unlocated name ∧
          ∃ e ∈ r.crates, LinkedFor libdir before now d e) := by
  refine ⟨Crate.sysroot_id_ne_unlocated_id name, Crate.inFile_id_eq_iff, Crate.inFile_id_eq_iff,
    fun libdir before now f types r hf hr => ⟨fun hfile hsys => ?_, fun hgone => ?_⟩⟩
  · rw [length_entries hf hr hfile hsys]
    simp only [Crate.inFile_id_eq_iff]
  · obtain ⟨d, hd, hid, e, he, hfor⟩ := exists_entry_of_involved hf hr hgone
    refine ⟨d, hd, hid, ?_, e, he, hfor⟩
    -- no entry is the right one for a crate without a location
    rintro rfl
    exact hfor.library

/-! ## Library files that are taken for other crates -/

/-- A path with the digest that leads to the identity of the sysroot crate `std`. -/
def stdPath : Path := ⟨"target/debug/deps/libstd-6ae372a95e47a258.rlib"⟩

/-- A path with the digest that leads to the identity of the unlocated crate `preds`. -/
def predsPath : Path := ⟨"target/debug/deps/libpreds-6e78da61779ba87a.rlib"⟩

theorem digest_stdPath : Xxh64.digestText stdPath.text =
    CrateId.pathDigest "std" (Crate.sysroot "std").id := by
  decide +kernel

theorem digest_predsPath : Xxh64.digestText predsPath.text =
    CrateId.pathDigest "preds" (Crate.unlocated "preds").id := by
  decide +kernel

/-- A type in a library file of the name of a sysroot crate. -/
def inStdFile : TypeDesc := .plain (.ofPath "std::A") (.inFile "std" stdPath)

/-- A type in a library file. -/
def inPredsFile : TypeDesc := .plain (.ofPath "preds::A") (.inFile "preds" predsPath)

/-- A type in a crate of the same name, which has no location. -/
def inPredsNowhere : TypeDesc := .plain (.ofPath "preds::B") (.unlocated "preds")

theorem leaders_inStdFile : leaders [inStdFile] = [.core, .std] := by
  have hfile : (Crate.inFile "std" stdPath).id = Crate.std.id :=
    Crate.inFile_id_eq_iff.2 digest_stdPath
  have hmentioned : (allMentions [inStdFile]).map (·.crate) =
      [.core, .core, .std, .std, .std, .std, .inFile "std" stdPath] := rfl
  have hmet : ∀ c ∈ (allMentions [inStdFile]).map (·.crate),
      c.id ∈ [Crate.core.id, Crate.std.id] := by
    rw [hmentioned]
    simp [hfile]
  rw [leaders_eq, firsts_eq_nil hmet]

theorem resolve_inStdFile : resolve [inStdFile] .sample none = .ok ⟨Foundation.sample.crates⟩ := by
  refine (resolve_eq_ok_iff Foundation.inDirectory_sample).2 ?_
  rw [leaders_inStdFile]
  exact ⟨by decide, (ofLinked_foundational _ _).symm⟩

theorem resolve_predsFile_predsNowhere : resolve [inPredsFile, inPredsNowhere] .sample none =
    .ok (ofLinked ((leaders [inPredsFile, inPredsNowhere]).filterMap
      (Foundation.sample.linked? none))) :=
  (resolve_eq_ok_iff Foundation.inDirectory_sample).2 ⟨by decide +kernel, rfl⟩

/-- **Library files that are taken for other crates of their names.** One is left out for the
sysroot crate `std`, and one hides that a crate `preds` has no location. -/
theorem one_name_merged :
    (Crate.inFile "std" stdPath).id = (Crate.sysroot "std").id ∧
    (Crate.inFile "preds" predsPath).id = (Crate.unlocated "preds").id ∧
    Foundation.inDirectory ⟨"sysroot"⟩ Foundation.sampleListing = .ok .sample ∧
    (∃ r, resolve [inStdFile] .sample none = .ok r ∧ ∀ e ∈ r.crates, e.linkage = .sysroot) ∧
    ∃ r, resolve [inPredsFile, inPredsNowhere] .sample none = .ok r :=
  ⟨Crate.inFile_id_eq_iff.2 digest_stdPath, Crate.inFile_id_eq_iff.2 digest_predsPath,
    Foundation.inDirectory_sample, ⟨_, resolve_inStdFile, by decide⟩, _,
    resolve_predsFile_predsNowhere⟩

theorem one_name_entries_merged :
    (∃ r, resolve [inStdFile] .sample none = .ok r ∧
      (r.crates.filter fun e => e.id = (Crate.inFile "std" stdPath).id ∨
        e.id = (Crate.sysroot "std").id).length = 1) ∧
    ∃ r, resolve [inPredsFile, inPredsNowhere] .sample none = .ok r ∧
      ∃ d, d.id = (Crate.unlocated "preds").id ∧ d ≠ .unlocated "preds" ∧
        ∃ e ∈ r.crates, LinkedFor ⟨"sysroot"⟩ Foundation.sampleListing none d e := by
  have hfile : Involved [inStdFile] (.inFile "std" stdPath) :=
    .inr (.inr ⟨inStdFile, by simp, inStdFile, .self _, rfl⟩)
  have hgone : Involved [inPredsFile, inPredsNowhere] (.unlocated "preds") :=
    .inr (.inr ⟨inPredsNowhere, by simp, inPredsNowhere, .self _, rfl⟩)
  have hcount := ((one_name_entries "std" stdPath).2.2.2 _ _ _ _ _ _
    Foundation.inDirectory_sample resolve_inStdFile).1 hfile (.inr (.inl rfl))
  rw [if_pos digest_stdPath] at hcount
  obtain ⟨d, -, hid, hne, hentry⟩ := ((one_name_entries "preds" predsPath).2.2.2 _ _ _ _ _ _
    Foundation.inDirectory_sample resolve_predsFile_predsNowhere).2 hgone
  exact ⟨⟨_, resolve_inStdFile, hcount⟩, _, resolve_predsFile_predsNowhere, d, hid, hne, hentry⟩

end References

end ExprHost
