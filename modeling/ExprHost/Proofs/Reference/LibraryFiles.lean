import ExprHost.Proofs.Path.Entries
import ExprHost.Proofs.Reference.Located
import ExprHost.Proofs.Text.Encoding

/-!
# Library files

The library of a sysroot crate is the entry of the library directory that has the least name of
those made for the crate, in the order of bytes and in that of paths. The order in which the entries
are listed plays no part. What stands before the first dash of a name tells which crate it is made
for, so crates without a dash in their names never share a library.

* `isLibraryOf_iff`: which names are a crate's; their two ends cannot overlap.
* `leastName?_eq_some_iff`: the least name is found.
* `findLibrary?_eq_some_iff`: **what is found in a directory.**
* `crate_of_isLibraryName`: which crate a name is made for.
* `Foundation.cratesIn_eq_error_iff`: **the first crate that is missing is reported.**
* `findLibrary?_least`: **which library is found, and when the foundation is.**
-/

namespace ExprHost

/-- A name of the form `lib<crate>-<rest>.rlib`. -/
def IsLibraryName (crate name : String) : Prop :=
  ∃ rest : String, name = "lib" ++ crate ++ "-" ++ rest ++ ".rlib"

namespace Listing

/-- A directory that can be read has an entry with this name. -/
def Has (listing : Listing) (name : String) : Prop :=
  ∃ names ∈ listing, Utf8.bytes name ∈ names

/-- A directory has a library for a crate. -/
def HasFor (listing : Listing) (crate : String) : Prop :=
  ∃ name, Has listing name ∧ IsLibraryName crate name

/-- The entries of a directory have no separators in their names. -/
def Flat (listing : Listing) : Prop :=
  ∀ names ∈ listing, ∀ name ∈ names, 0x2F ∉ name

/-- A name is the least, by its bytes, of those that a directory has for a crate. -/
structure Least (listing : Listing) (crate name : String) : Prop where
  has : Has listing name
  isLibraryName : IsLibraryName crate name
  le : ∀ other, Has listing other → IsLibraryName crate other → Utf8.bytes name ≤ Utf8.bytes other

end Listing

variable {libdir : Path} {listing : Listing} {crate name : String}

/-! ## Names of libraries -/

/-- **Which names are a crate's.** The beginning of such a name ends in a dash and its end has none,
so the two do not overlap. -/
theorem isLibraryOf_iff : isLibraryOf crate name = true ↔ IsLibraryName crate name := by
  have hbegin : ("lib" ++ crate ++ "-").toList = ("lib" ++ crate).toList ++ ['-'] :=
    String.toList_append
  rw [isLibraryOf, Bool.and_eq_true, List.isPrefixOf_iff_prefix, List.isSuffixOf_iff_suffix]
  constructor
  · rintro ⟨⟨after, hafter⟩, ⟨before, hbefore⟩⟩
    rcases List.append_eq_append_iff.1 (hafter.trans hbefore.symm) with
      ⟨rest, rfl, rfl⟩ | ⟨both, hstart, hend⟩
    · refine ⟨String.ofList rest, String.toList_inj.1 ?_⟩
      rw [← hafter]
      simp
    · by_cases hboth : both = []
      · obtain rfl : ".rlib".toList = after := by rw [hend, hboth, List.nil_append]
        refine ⟨"", String.toList_inj.1 ?_⟩
        rw [← hafter]
        simp
      · -- the last character that both ends have is the dash
        have hlast := congrArg List.getLast? (hbegin.symm.trans hstart)
        rw [List.getLast?_concat, List.getLast?_append,
          Option.or_of_isSome (List.getLast?_isSome.2 hboth)] at hlast
        have hdash : '-' ∈ ".rlib".toList := by
          rw [hend]
          exact List.mem_append_left _ (List.mem_of_getLast? hlast.symm)
        exact absurd hdash (by decide)
  · rintro ⟨rest, rfl⟩
    constructor
    · exact ⟨rest.toList ++ ".rlib".toList, by simp⟩
    · exact ⟨("lib" ++ crate ++ "-" ++ rest).toList, by simp⟩

/-- What stands before the first dash of a name tells which crate it is made for. -/
theorem crate_of_isLibraryName (h : IsLibraryName crate name) (hdash : '-' ∉ crate.toList) :
    (name.toList.drop 3).takeWhile (· ≠ '-') = crate.toList := by
  obtain ⟨rest, rfl⟩ := h
  have htext : ("lib" ++ crate ++ "-" ++ rest ++ ".rlib").toList =
      "lib".toList ++ (crate.toList ++ '-' :: (rest.toList ++ ".rlib".toList)) := by
    simp
  have hdrop : ∀ cs : List Char, ("lib".toList ++ cs).drop 3 = cs := fun _ => rfl
  have hcrate : ∀ c ∈ crate.toList, decide (c ≠ '-') = true := by
    intro c hc
    rw [decide_eq_true_iff]
    rintro rfl
    exact hdash hc
  rw [htext, hdrop, List.takeWhile_append_of_pos hcrate,
    List.takeWhile_cons_of_neg (by decide), List.append_nil]

theorem crate_eq_of_isLibraryName {other : String} (h : IsLibraryName crate name)
    (h' : IsLibraryName other name) (hdash : '-' ∉ crate.toList) (hdash' : '-' ∉ other.toList) :
    crate = other := by
  rw [← String.toList_inj, ← crate_of_isLibraryName h hdash, crate_of_isLibraryName h' hdash']

/-- In a directory of entries the name of a library is a step of its own. -/
theorem IsLibraryName.isEntryName (h : IsLibraryName crate name) (hhas : listing.Has name)
    (hflat : listing.Flat) : Path.IsEntryName name where
  noSeparator := by
    obtain ⟨names, hnames, hname⟩ := hhas
    intro hslash
    refine hflat names hnames _ hname ?_
    exact List.mem_flatMap.2 ⟨'/', hslash, by decide⟩
  named := by
    obtain ⟨rest, rfl⟩ := h
    obtain ⟨cs, hcs⟩ : ∃ cs, ("lib" ++ crate ++ "-" ++ rest ++ ".rlib").toList =
        'l' :: 'i' :: 'b' :: cs :=
      ⟨crate.toList ++ '-' :: (rest.toList ++ ".rlib".toList), by simp⟩
    rw [← String.ofList_toList (s := "lib" ++ crate ++ "-" ++ rest ++ ".rlib"), hcs,
      String.toList_ofList]
    rfl

/-! ## The least of several -/

theorem leastName?_eq_some {names : List String} {s : String} (h : leastName? names = some s) :
    s ∈ names ∧ ∀ t ∈ names, s ≤ t := by
  induction names generalizing s with
  | nil => cases h
  | cons name rest ih =>
    rw [leastName?] at h
    cases hrest : leastName? rest with
    | none =>
      obtain rfl := leastName?_eq_none_iff.1 hrest
      rw [hrest] at h
      obtain rfl := Option.some.inj h
      simp
    | some least =>
      obtain ⟨hmem, hle⟩ := ih hrest
      rw [hrest] at h
      dsimp only at h
      split at h
      · next hlt =>
        obtain rfl := Option.some.inj h
        refine ⟨List.mem_cons_of_mem _ hmem, List.forall_mem_cons.2 ⟨?_, hle⟩⟩
        exact String.not_lt.1 (String.lt_asymm hlt)
      · next hlt =>
        obtain rfl := Option.some.inj h
        refine ⟨List.mem_cons_self, List.forall_mem_cons.2 ⟨String.le_refl _, fun t ht => ?_⟩⟩
        exact String.le_trans (String.not_lt.1 hlt) (hle t ht)

/-- **The least name is found.** -/
theorem leastName?_eq_some_iff {names : List String} {s : String} :
    leastName? names = some s ↔ s ∈ names ∧ ∀ t ∈ names, s ≤ t := by
  refine ⟨leastName?_eq_some, ?_⟩
  rintro ⟨hmem, hle⟩
  cases h : leastName? names with
  | none => exact absurd (leastName?_eq_none_iff.1 h) (List.ne_nil_of_mem hmem)
  | some least =>
    obtain ⟨hmem', hle'⟩ := leastName?_eq_some h
    rw [String.le_antisymm (hle' s hmem) (hle least hmem')]

/-- The names that are read as texts are those whose bytes are listed. -/
theorem mem_texts_iff {names : List Bytes} :
    name ∈ names.filterMap (fun b => (Utf8.strict? b).map String.ofList) ↔
      Utf8.bytes name ∈ names := by
  rw [List.mem_filterMap]
  constructor
  · rintro ⟨b, hb, hname⟩
    obtain ⟨cs, hcs, rfl⟩ := Option.map_eq_some_iff.1 hname
    rwa [Utf8.bytes, String.toList_ofList, ← Utf8.strict?_eq_some_iff.1 hcs]
  · intro h
    exact ⟨_, h, by rw [Utf8.bytes, Utf8.strict?_encode, Option.map_some, String.ofList_toList]⟩

/-! ## What is found in a directory -/

/-- **What is found in a directory:** the entry that has the least name of those for the crate. -/
theorem findLibrary?_eq_some_iff {p : Path} : findLibrary? libdir listing crate = some p ↔
    ∃ name, listing.Least crate name ∧ p = libdir.join name := by
  cases listing with
  | none =>
    refine iff_of_false (by simp [findLibrary?]) ?_
    rintro ⟨name, ⟨⟨names, hnames, -⟩, -, -⟩, -⟩
    cases hnames
  | some names =>
    have hhas : ∀ {name}, Listing.Has (some names) name ↔ Utf8.bytes name ∈ names := by
      simp [Listing.Has]
    have hfound : findLibrary? libdir (some names) crate =
        (leastName? ((names.filterMap fun b => (Utf8.strict? b).map String.ofList).filter
          (isLibraryOf crate))).map libdir.join := by
      rw [findLibrary?]
      exact (Option.map_eq_bind ..).symm
    rw [hfound, Option.map_eq_some_iff]
    simp only [leastName?_eq_some_iff, List.mem_filter, mem_texts_iff, isLibraryOf_iff]
    refine exists_congr fun name => and_congr ?_ eq_comm
    constructor
    · rintro ⟨⟨hmem, hlib⟩, hle⟩
      exact ⟨hhas.2 hmem, hlib, fun other hother hlib' =>
        Utf8.bytes_le_iff.2 (hle other ⟨hhas.1 hother, hlib'⟩)⟩
    · rintro ⟨hmem, hlib, hle⟩
      exact ⟨⟨hhas.1 hmem, hlib⟩, fun other hother =>
        Utf8.bytes_le_iff.1 (hle other (hhas.2 hother.1) hother.2)⟩

theorem hasLibrary_iff : HasLibrary listing crate ↔ listing.HasFor crate := by
  constructor
  · rintro ⟨names, hnames, b, hb, cs, hcs, hlib⟩
    exact ⟨_, ⟨names, hnames, mem_texts_iff.1 (List.mem_filterMap.2 ⟨b, hb, by rw [hcs]; rfl⟩)⟩,
      isLibraryOf_iff.1 hlib⟩
  · rintro ⟨name, ⟨names, hnames, hmem⟩, hlib⟩
    refine ⟨names, hnames, _, hmem, name.toList, Utf8.strict?_encode _, ?_⟩
    rw [String.ofList_toList]
    exact isLibraryOf_iff.2 hlib

theorem findLibrary?_isSome_iff_hasFor :
    (findLibrary? libdir listing crate).isSome = true ↔ listing.HasFor crate :=
  findLibrary?_isSome_iff.trans hasLibrary_iff

theorem findLibrary?_eq_none_iff :
    findLibrary? libdir listing crate = none ↔ ¬listing.HasFor crate := by
  rw [← not_congr findLibrary?_isSome_iff_hasFor, Option.not_isSome_iff_eq_none]

/-- **The least name decides what is found,** and what is found tells the least name. -/
theorem findLibrary?_eq_iff {listing' : Listing} :
    findLibrary? libdir listing crate = findLibrary? libdir listing' crate ↔
      ∀ name, listing.Least crate name ↔ listing'.Least crate name := by
  have hfound : ∀ {listing : Listing} {name}, listing.Least crate name ↔
      findLibrary? libdir listing crate = some (libdir.join name) := by
    intro listing name
    rw [findLibrary?_eq_some_iff]
    constructor
    · exact fun h => ⟨name, h, rfl⟩
    · rintro ⟨other, h, heq⟩
      rwa [libdir.join_injective heq]
  constructor
  · intro h name
    rw [hfound, hfound, h]
  · intro h
    refine Option.ext fun p => ?_
    simp only [findLibrary?_eq_some_iff, h]

/-- The order in which a directory is listed plays no part. -/
theorem findLibrary?_perm {names names' : List Bytes} (h : names.Perm names') :
    findLibrary? libdir (some names) crate = findLibrary? libdir (some names') crate := by
  have hhas : ∀ name, Listing.Has (some names) name ↔ Listing.Has (some names') name := by
    intro name
    simp [Listing.Has, h.mem_iff]
  refine findLibrary?_eq_iff.2 fun name => ?_
  constructor
  · rintro ⟨hmem, hlib, hle⟩
    exact ⟨(hhas name).1 hmem, hlib, fun other hother => hle other ((hhas other).2 hother)⟩
  · rintro ⟨hmem, hlib, hle⟩
    exact ⟨(hhas name).2 hmem, hlib, fun other hother => hle other ((hhas other).1 hother)⟩

/-- The library that is found comes first in the order of paths, too. -/
theorem compare_findLibrary? {p : Path} (hflat : listing.Flat)
    (h : findLibrary? libdir listing crate = some p) (hhas : listing.Has name)
    (hlib : IsLibraryName crate name) : (compare p (libdir.join name)).isLE = true := by
  obtain ⟨least, hleast, rfl⟩ := findLibrary?_eq_some_iff.1 h
  rw [Path.compare_join libdir (hleast.isLibraryName.isEntryName hleast.has hflat)
    (hlib.isEntryName hhas hflat)]
  refine (isLE_compareOfLessAndEq String.le_antisymm String.not_le String.le_total).2 ?_
  exact Utf8.bytes_le_iff.1 (hleast.le name hhas hlib)

/-- Crates without a dash in their names have different libraries. -/
theorem findLibrary?_ne {other : String} {p q : Path} (hne : crate ≠ other)
    (hdash : '-' ∉ crate.toList) (hdash' : '-' ∉ other.toList)
    (hp : findLibrary? libdir listing crate = some p)
    (hq : findLibrary? libdir listing other = some q) :
    p ≠ q ∧ (listing.Flat → (p == q) = false) := by
  obtain ⟨a, ha, rfl⟩ := findLibrary?_eq_some_iff.1 hp
  obtain ⟨b, hb, rfl⟩ := findLibrary?_eq_some_iff.1 hq
  have hnames : a ≠ b := by
    rintro rfl
    exact hne (crate_eq_of_isLibraryName ha.isLibraryName hb.isLibraryName hdash hdash')
  constructor
  · exact fun heq => hnames (libdir.join_injective heq)
  · intro hflat
    rw [Bool.eq_false_iff]
    intro heq
    exact hnames ((Path.join_beq_iff libdir (ha.isLibraryName.isEntryName ha.has hflat)
      (hb.isLibraryName.isEntryName hb.has hflat)).1 heq)

/-! ## The foundation -/

namespace Foundation

theorem crateIn_eq_ok (h : listing.HasFor crate) : ∃ c, crateIn libdir listing crate = .ok c := by
  rw [crateIn]
  cases hfound : findLibrary? libdir listing crate with
  | none => exact absurd h (findLibrary?_eq_none_iff.1 hfound)
  | some p => exact ⟨_, rfl⟩

theorem crateIn_eq_error (h : ¬listing.HasFor crate) : crateIn libdir listing crate =
    .error (.foundational crate ("no lib" ++ crate ++ "-*.rlib in " ++ libdir.text)) := by
  rw [crateIn, findLibrary?_eq_none_iff.2 h]

/-- **The first crate that is missing is reported.** -/
theorem cratesIn_eq_error_iff {crates : List String} {e : ResolveError} :
    cratesIn libdir listing crates = .error e ↔
      ∃ before crate after, crates = before ++ crate :: after ∧
        (∀ c ∈ before, listing.HasFor c) ∧ ¬listing.HasFor crate ∧
        e = .foundational crate ("no lib" ++ crate ++ "-*.rlib in " ++ libdir.text) := by
  induction crates with
  | nil => simp [cratesIn]
  | cons first rest ih =>
    by_cases hfirst : listing.HasFor first
    · -- the first crate is there, so the missing one is among the others
      obtain ⟨c, hc⟩ : ∃ c, crateIn libdir listing first = .ok c := crateIn_eq_ok hfirst
      have hrest : cratesIn libdir listing (first :: rest) = .error e ↔
          cratesIn libdir listing rest = .error e := by
        rw [cratesIn, hc]
        cases cratesIn libdir listing rest <;> simp
      rw [hrest, ih]
      constructor
      · rintro ⟨before, crate, after, rfl, hbefore, hcrate⟩
        exact ⟨first :: before, crate, after, rfl, List.forall_mem_cons.2 ⟨hfirst, hbefore⟩, hcrate⟩
      · rintro ⟨before, crate, after, hsplit, hbefore, hcrate⟩
        cases before with
        | nil =>
          obtain ⟨rfl, -⟩ := List.cons.inj hsplit
          exact absurd hfirst hcrate.1
        | cons head before =>
          exact ⟨before, crate, after, (List.cons.inj hsplit).2,
            fun c hc => hbefore c (List.mem_cons_of_mem _ hc), hcrate⟩
    · rw [cratesIn, crateIn_eq_error hfirst]
      constructor
      · intro h
        exact ⟨[], first, rest, rfl, fun c hc => absurd hc List.not_mem_nil, hfirst,
          (Except.error.inj h).symm⟩
      · rintro ⟨before, crate, after, hsplit, hbefore, -, rfl⟩
        cases before with
        | nil =>
          obtain ⟨rfl, -⟩ := List.cons.inj hsplit
          rfl
        | cons head before =>
          obtain ⟨rfl, -⟩ := List.cons.inj hsplit
          exact absurd (hbefore first List.mem_cons_self) hfirst

theorem inDirectory_eq_error_iff {e : ResolveError} : inDirectory libdir listing = .error e ↔
    cratesIn libdir listing Crate.foundationalNames = .error e := by
  rw [inDirectory]
  cases cratesIn libdir listing Crate.foundationalNames <;> simp

theorem exists_inDirectory_iff : (∃ f, inDirectory libdir listing = .ok f) ↔
    ∀ crate ∈ Crate.foundationalNames, listing.HasFor crate := by
  have hfound : ∀ crate, listing.HasFor crate ↔ ∃ p, findLibrary? libdir listing crate = some p :=
    fun crate => findLibrary?_isSome_iff_hasFor.symm.trans Option.isSome_iff_exists
  simp only [inDirectory_eq_ok_iff, hfound, Crate.foundationalNames, List.forall_mem_cons,
    List.not_mem_nil]
  constructor
  · rintro ⟨f, p, q, hp, hq, -⟩
    exact ⟨⟨p, hp⟩, ⟨q, hq⟩, fun _ h => h.elim⟩
  · rintro ⟨⟨p, hp⟩, ⟨q, hq⟩, -⟩
    exact ⟨_, p, q, hp, hq, rfl⟩

end Foundation

/-! ## Which library is found -/

/-- **Which library is found, and when the foundation is.** Of the names in a directory that are
the crate's, the one whose bytes are least, which is also the least path. The order of the listing
plays no part, and crates without a dash in their names have different libraries. There is a
foundation if each of its crates has a library; else the first that has none is reported. -/
theorem findLibrary?_least (libdir : Path) (listing : Listing) :
    (∀ crate,
      (findLibrary? libdir listing crate = none ↔ listing = none ∨
        ¬∃ name, listing.Has name ∧ IsLibraryName crate name) ∧
      (∀ p, findLibrary? libdir listing crate = some p ↔
        ∃ name, listing.Least crate name ∧ p = libdir.join name) ∧
      (∀ names names' : List Bytes, names.Perm names' →
        findLibrary? libdir (some names) crate = findLibrary? libdir (some names') crate) ∧
      (listing.Flat → ∀ p, findLibrary? libdir listing crate = some p →
        ∀ name, listing.Has name → IsLibraryName crate name →
          (compare p (libdir.join name)).isLE = true) ∧
      ∀ other, crate ≠ other → '-' ∉ crate.toList → '-' ∉ other.toList →
        ∀ p q, findLibrary? libdir listing crate = some p →
          findLibrary? libdir listing other = some q →
          p ≠ q ∧ (listing.Flat → (p == q) = false)) ∧
    ((∃ f, Foundation.inDirectory libdir listing = .ok f) ↔
      ∀ crate ∈ Crate.foundationalNames, listing.HasFor crate) ∧
    ∀ e, Foundation.inDirectory libdir listing = .error e ↔
      ∃ before crate after, Crate.foundationalNames = before ++ crate :: after ∧
        (∀ c ∈ before, listing.HasFor c) ∧ ¬listing.HasFor crate ∧
        e = .foundational crate ("no lib" ++ crate ++ "-*.rlib in " ++ libdir.text) := by
  refine ⟨fun crate => ⟨?_, fun p => findLibrary?_eq_some_iff, fun _ _ => findLibrary?_perm,
    fun hflat p hp name => compare_findLibrary? hflat hp,
    fun other hne hdash hdash' p q => findLibrary?_ne hne hdash hdash'⟩,
    Foundation.exists_inDirectory_iff,
    fun e => Foundation.inDirectory_eq_error_iff.trans Foundation.cratesIn_eq_error_iff⟩
  rw [findLibrary?_eq_none_iff]
  refine ⟨Or.inr, ?_⟩
  rintro (rfl | hnone)
  · rintro ⟨name, ⟨names, hnames, -⟩, -⟩
    cases hnames
  · exact hnone

/-- A directory with libraries of two crates, of which one has a name that begins like the other's. -/
def coreTwice : Listing :=
  some (["libcore_x-1.rlib", "libcore-2.rlib", "libcore-10.rlib"].map Utf8.bytes)

theorem has_coreTwice_iff : coreTwice.Has name ↔
    name ∈ ["libcore_x-1.rlib", "libcore-2.rlib", "libcore-10.rlib"] := by
  have hbytes : Function.Injective Utf8.bytes := fun s t h =>
    String.toList_inj.1 (Utf8.encode_injective h)
  rw [← List.mem_map_of_injective hbytes]
  simp [Listing.Has, coreTwice]

theorem least_coreTwice : coreTwice.Least "core" "libcore-10.rlib" where
  has := has_coreTwice_iff.2 (by decide)
  isLibraryName := ⟨"10", rfl⟩
  le := by
    intro other hother hlib
    have hall : ∀ other ∈ ["libcore_x-1.rlib", "libcore-2.rlib", "libcore-10.rlib"],
        isLibraryOf "core" other = true → Utf8.bytes "libcore-10.rlib" ≤ Utf8.bytes other := by
      decide +kernel
    exact hall other (has_coreTwice_iff.1 hother) (isLibraryOf_iff.2 hlib)

theorem not_hasFor_std_coreTwice : ¬coreTwice.HasFor "std" := by
  rintro ⟨name, hname, hlib⟩
  have hnone : ∀ name ∈ ["libcore_x-1.rlib", "libcore-2.rlib", "libcore-10.rlib"],
      isLibraryOf "std" name = false := by
    decide +kernel
  rw [← isLibraryOf_iff, hnone name (has_coreTwice_iff.1 hname)] at hlib
  cases hlib

theorem flat_coreTwice : coreTwice.Flat := by
  intro names hnames
  obtain rfl := Option.mem_some_iff.1 hnames
  decide +kernel

theorem findLibrary?_least_coreTwice :
    findLibrary? ⟨"sysroot"⟩ coreTwice "core" = some ⟨"sysroot/libcore-10.rlib"⟩ ∧
    (∀ q, findLibrary? ⟨"sysroot"⟩ coreTwice "core_x" = some q →
      (⟨"sysroot/libcore-10.rlib"⟩ == q) = false) ∧
    findLibrary? ⟨"sysroot"⟩ coreTwice "std" = none ∧
    Foundation.inDirectory ⟨"sysroot"⟩ coreTwice =
      .error (.foundational "std" "no libstd-*.rlib in sysroot") := by
  obtain ⟨hcrate, -, herror⟩ :
      (∀ crate, (findLibrary? ⟨"sysroot"⟩ coreTwice crate = none ↔ _) ∧ _) ∧ _ :=
    findLibrary?_least ⟨"sysroot"⟩ coreTwice
  obtain ⟨-, hfound, -, -, hapart⟩ := hcrate "core"
  have hcore := (hfound _).2 ⟨_, least_coreTwice, rfl⟩
  refine ⟨hcore, fun q hq =>
    (hapart "core_x" (by decide) (by decide) (by decide) _ q hcore hq).2 flat_coreTwice,
    (hcrate "std").1.2 (.inr not_hasFor_std_coreTwice), (herror _).2 ⟨["core"], "std", [], rfl, ?_,
      not_hasFor_std_coreTwice, rfl⟩⟩
  intro c hc
  obtain rfl := List.mem_singleton.1 hc
  exact ⟨_, least_coreTwice.has, least_coreTwice.isLibraryName⟩

end ExprHost
