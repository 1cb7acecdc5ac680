import ExprHost.Proofs.Reference.Located
import ExprHost.Proofs.StableSort

/-!
# Views of linked crates

The equality and the order of linked crates look at a library's path by its
components only. A view keeps just what they look at, so that crates are the same
when their views are equal.

* `LinkedCrate.beq_iff`, `References.beq_iff`: sameness is equality of views.
* `LinkedCrate.keyOrder_eq_view`: the canonical order is one of views.
* `Foundation.view_eq_iff_beq`: **crates of one identity are linked alike exactly
  when they are the same crate.**
-/

namespace ExprHost

/-- What the equality of linked crates looks at. -/
structure LinkedCrate.View where
  name : String
  steps : List Component
  linkage : Linkage
  id : CrateId
deriving DecidableEq

namespace LinkedCrate

/-- What the equality of linked crates sees of one. -/
def view (e : LinkedCrate) : View := ⟨e.name, e.path.components, e.linkage, e.id⟩

theorem beq_iff {a b : LinkedCrate} : (a == b) = true ↔ a.view = b.view := by
  have hfields : (a == b) =
      (a.name == b.name && (a.path == b.path && (a.linkage == b.linkage && a.id == b.id))) := rfl
  rw [hfields]
  simp only [Bool.and_eq_true, beq_iff_eq, Path.beq_iff, view, View.mk.injEq]

/-- The order of components, for lists of them. -/
instance : Ord Component := ⟨Component.order⟩

instance : Std.TransOrd Component := inferInstanceAs (Std.TransCmp Component.order)

/-- Views by name, then by path. -/
def View.keyOrder : View → View → Ordering := compareLex (compareOn name) (compareOn steps)

instance : Std.TransCmp View.keyOrder := by
  unfold View.keyOrder
  infer_instance

theorem keyOrder_eq_view (a b : LinkedCrate) : keyOrder a b = a.view.keyOrder b.view := rfl

instance : Std.TransCmp keyOrder := by
  unfold keyOrder
  infer_instance

theorem keyOrder_eq_eq_iff {a b : LinkedCrate} :
    keyOrder a b = .eq ↔ a.name = b.name ∧ (a.path == b.path) = true := by
  have hlex : keyOrder a b = (compare a.name b.name).then (compare a.path b.path) := rfl
  rw [hlex, Ordering.then_eq_eq, Path.compare_eq_iff, Std.LawfulEqOrd.compare_eq_iff_eq]

end LinkedCrate

namespace LinkedCrate.View

/-- Whether a view comes before another, or is alike to it. -/
def notAfter (a b : View) : Bool := (keyOrder a b).isLE

theorem notAfter_trans (a b c : View) (hab : notAfter a b) (hbc : notAfter b c) : notAfter a c :=
  Std.TransCmp.isLE_trans hab hbc

theorem notAfter_total (a b : View) : notAfter a b || notAfter b a :=
  StableSort.isLE_total keyOrder a b

theorem keyOrder_eq_eq_of_notAfter {a b : View} (hab : notAfter a b) (hba : notAfter b a) :
    keyOrder a b = .eq :=
  Std.OrientedCmp.isLE_antisymm hab hba

end LinkedCrate.View

theorem LinkedCrate.beq_list_iff {as bs : List LinkedCrate} :
    (as == bs) = true ↔ as.map view = bs.map view := by
  induction as generalizing bs with
  | nil => cases bs <;> simp
  | cons a as ih =>
    cases bs with
    | nil => simp
    | cons b bs =>
      rw [List.cons_beq_cons, Bool.and_eq_true, beq_iff, ih]
      simp

/-- Reference sets are the same when the views of their crates are equal. -/
theorem References.beq_iff {r r' : References} :
    (r == r') = true ↔ r.crates.map LinkedCrate.view = r'.crates.map LinkedCrate.view := by
  have hfield : (r == r') = (r.crates == r'.crates) := rfl
  rw [hfield, LinkedCrate.beq_list_iff]

/-! ## Crates and their views -/

theorem Crate.beq_iff {c d : Crate} :
    (c == d) = true ↔ c.name = d.name ∧ (c.origin == d.origin) = true := by
  have hfields : (c == d) = (c.name == d.name && c.origin == d.origin) := rfl
  rw [hfields, Bool.and_eq_true, beq_iff_eq]

/-- Origins that are the same are equal, or files whose paths have the same components. -/
theorem Crate.Origin.beq_cases {o o' : Origin} (h : (o == o') = true) :
    o = o' ∨ ∃ p q : Path, o = .file p ∧ o' = .file q ∧ p.components = q.components := by
  cases o with
  | sysroot =>
    cases o' with
    | sysroot => exact .inl rfl
    | file q => cases h
    | unlocated => cases h
  | unlocated =>
    cases o' with
    | sysroot => cases h
    | file q => cases h
    | unlocated => exact .inl rfl
  | file p =>
    cases o' with
    | sysroot => cases h
    | unlocated => cases h
    | file q => exact .inr ⟨p, q, rfl, rfl, Path.beq_iff.1 h⟩

theorem Crate.beq_refl (c : Crate) : (c == c) = true := by
  rw [beq_iff]
  refine ⟨rfl, ?_⟩
  cases c.origin with
  | file path => exact Path.beq_iff.2 rfl
  | sysroot => rfl
  | unlocated => rfl

theorem Crate.beq_symm {c d : Crate} (h : (c == d) = true) : (d == c) = true := by
  obtain ⟨name, origin⟩ := c
  obtain ⟨name', origin'⟩ := d
  obtain ⟨rfl, horigin⟩ := beq_iff.1 h
  rcases Origin.beq_cases horigin with rfl | ⟨p, q, rfl, rfl, hsteps⟩
  · exact beq_refl _
  · exact beq_iff.2 ⟨rfl, Path.beq_iff.2 hsteps.symm⟩

/-- The extension of a path is one of its components'. -/
theorem Path.extension?_congr {p q : Path} (h : p.components = q.components) :
    p.extension? = q.extension? := by
  simp only [extension?, fileName?, h]

theorem LinkedCrate.ofFile_linkage_ne (c : Crate) (path : Path) :
    (ofFile c path).linkage ≠ .sysroot := by
  rw [ofFile]
  by_cases h : path.extension? = some "so"
  · simp [h]
  · simp [h]

/-- Files of one identity are linked alike exactly when their crates and paths are the same. -/
theorem LinkedCrate.view_ofFile_iff {c d : Crate} (hid : c.id = d.id) {p q : Path} :
    (ofFile c p).view = (ofFile d q).view ↔ c.name = d.name ∧ p.components = q.components := by
  constructor
  · intro h
    exact ⟨congrArg View.name h, congrArg View.steps h⟩
  · rintro ⟨hname, hsteps⟩
    -- the extension, and with it the linkage, is seen in the components
    have hext := Path.extension?_congr hsteps
    simp only [view, ofFile, View.mk.injEq]
    exact ⟨hname, hsteps, by rw [hext], hid⟩

namespace Foundation

variable {libdir : Path} {before : Listing} {f : Foundation}

theorem name_of_find? (hf : inDirectory libdir before = .ok f) {now : Listing} {crate : String}
    {e : LinkedCrate} (h : f.find? now crate = some e) : e.name = crate ∧ e.linkage = .sysroot := by
  rw [find?_eq hf] at h
  obtain ⟨p, -, rfl⟩ := Option.map_eq_some_iff.1 h
  exact ⟨rfl, rfl⟩

/-- A library file is never linked as one of the sysroot. -/
theorem view_ne_of_file (hf : inDirectory libdir before = .ok f) {now : Listing} {crate : String}
    {e : LinkedCrate} (h : f.find? now crate = some e) (c : Crate) (path : Path) :
    e.view ≠ (LinkedCrate.ofFile c path).view := by
  intro hview
  have hlinks : e.linkage = (LinkedCrate.ofFile c path).linkage :=
    congrArg LinkedCrate.View.linkage hview
  obtain ⟨-, hlink⟩ := name_of_find? hf h
  exact LinkedCrate.ofFile_linkage_ne c path (hlinks.symm.trans hlink)

/-- **Crates of one identity are linked alike exactly when they are the same crate.** -/
theorem view_eq_iff_beq (hf : inDirectory libdir before = .ok f) {now : Listing} {c d : Crate}
    {e e' : LinkedCrate} (he : f.linked? now c = some e) (he' : f.linked? now d = some e')
    (hid : c.id = d.id) : e.view = e'.view ↔ (c == d) = true := by
  obtain ⟨name, origin⟩ := c
  obtain ⟨name', origin'⟩ := d
  rw [Crate.beq_iff]
  cases origin with
  | unlocated => cases he
  | sysroot =>
    cases origin' with
    | unlocated => cases he'
    | sysroot =>
      obtain ⟨hname, -⟩ := name_of_find? hf he
      obtain ⟨hname', -⟩ := name_of_find? hf he'
      constructor
      · intro h
        have hnames : e.name = e'.name := congrArg LinkedCrate.View.name h
        rw [hname, hname'] at hnames
        exact ⟨hnames, rfl⟩
      · rintro ⟨rfl, -⟩
        rw [he] at he'
        rw [Option.some.inj he']
    | file path' =>
      obtain rfl := Option.some.inj he'
      exact iff_of_false (view_ne_of_file hf he _ path') (fun h => by cases h.2)
  | file path =>
    obtain rfl := Option.some.inj he
    cases origin' with
    | unlocated => cases he'
    | sysroot => exact iff_of_false (view_ne_of_file hf he' _ path).symm (fun h => by cases h.2)
    | file path' =>
      obtain rfl := Option.some.inj he'
      have hpath : ((Crate.Origin.file path == Crate.Origin.file path') = true) ↔
          path.components = path'.components := Path.beq_iff
      rw [hpath]
      exact LinkedCrate.view_ofFile_iff hid

end Foundation

end ExprHost
