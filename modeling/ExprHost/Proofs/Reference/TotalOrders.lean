import ExprHost.Order
import ExprHost.Proofs.Reference.Views
import ExprHost.Proofs.StableSort
import ExprHost.Proofs.Text.Encoding

/-!
# Total orders

Origins, crates and linked crates are compared part by part, and their paths component by
component. Sets are sorted and repetitions dropped by these orders, which is right only if they
tell apart what sameness tells apart, however the paths are spelled.

* `Order.Agrees`: a total order that agrees with sameness.
* `Path.compare_eq_lt_iff`: which of two paths comes first.
* `LinkedCrate.isLE_keyOrder`: the full order refines the canonical one.
* `LinkedCrate.orders_agree`: **the orders of references are total orders that agree with
  sameness,** and sorting by the full order sorts by the canonical one.
-/

namespace ExprHost

/-- **A total order that agrees with sameness:** comparing the other way round gives the reverse,
each outcome carries over from one pair to the next, and what compares as equal is the same. -/
structure Order.Agrees (α : Type) [Ord α] [BEq α] : Prop where
  swap : ∀ a b : α, compare a b = (compare b a).swap
  trans : ∀ (o : Ordering) (a b c : α), compare a b = o → compare b c = o → compare a c = o
  same : ∀ a b : α, compare a b = .eq ↔ (a == b) = true

theorem Order.agrees_of_same {α : Type} [Ord α] [BEq α] [Std.TransOrd α]
    (h : ∀ a b : α, compare a b = .eq ↔ (a == b) = true) : Order.Agrees α where
  swap _ _ := Std.OrientedCmp.eq_swap
  trans o a b c hab hbc := by
    cases o with
    | lt => exact Std.TransCmp.lt_trans hab hbc
    | eq => exact Std.TransCmp.eq_trans hab hbc
    | gt => exact Std.TransCmp.gt_trans hab hbc
  same := h

/-! ## Paths -/

/-- **The order of components:** the root, `.`, `..`, then names by their bytes. -/
inductive Component.Before : Component → Component → Prop
  | rootHere : Before .root .here
  | rootUp : Before .root .up
  | rootNamed (name : String) : Before .root (.named name)
  | hereUp : Before .here .up
  | hereNamed (name : String) : Before .here (.named name)
  | upNamed (name : String) : Before .up (.named name)
  | named {a b : String} (h : Utf8.bytes a < Utf8.bytes b) : Before (.named a) (.named b)

theorem Component.order_eq_lt_of_before {c d : Component} (h : c.Before d) : order c d = .lt := by
  cases h with
  | rootHere => rfl
  | rootUp => rfl
  | rootNamed name => rfl
  | hereUp => rfl
  | hereNamed name => rfl
  | upNamed name => rfl
  | named h => exact compareOfLessAndEq_eq_lt.2 (Utf8.bytes_lt_iff.1 h)

/-- Of two components that are not equal one comes before the other. -/
theorem Component.before_or_before {c d : Component} (hne : c ≠ d) : c.Before d ∨ d.Before c := by
  cases c <;> cases d
  case root.root | here.here | up.up => exact absurd rfl hne
  case root.here => exact .inl .rootHere
  case root.up => exact .inl .rootUp
  case root.named name => exact .inl (.rootNamed name)
  case here.root => exact .inr .rootHere
  case here.up => exact .inl .hereUp
  case here.named name => exact .inl (.hereNamed name)
  case up.root => exact .inr .rootUp
  case up.here => exact .inr .hereUp
  case up.named name => exact .inl (.upNamed name)
  case named.root name => exact .inr (.rootNamed name)
  case named.here name => exact .inr (.hereNamed name)
  case named.up name => exact .inr (.upNamed name)
  case named.named a b =>
    have hab : a ≠ b := by
      rintro rfl
      exact hne rfl
    by_cases hlt : a < b
    · exact .inl (.named (Utf8.bytes_lt_iff.2 hlt))
    · have hnot : ¬a ≤ b := fun hle => hab (String.le_antisymm hle (String.not_lt.1 hlt))
      exact .inr (.named (Utf8.bytes_lt_iff.2 (String.not_le.1 hnot)))

theorem Component.order_eq_lt_iff {c d : Component} : order c d = .lt ↔ c.Before d := by
  refine ⟨?_, order_eq_lt_of_before⟩
  intro h
  have hne : c ≠ d := by
    rintro rfl
    have hself : order c c = .eq := Std.ReflCmp.compare_self
    rw [hself] at h
    cases h
  rcases before_or_before hne with hbefore | hafter
  · exact hbefore
  · have hswap : order c d = (order d c).swap := Std.OrientedCmp.eq_swap
    rw [hswap, order_eq_lt_of_before hafter] at h
    cases h

theorem Component.compareLex_eq_lt_iff {cs ds : List Component} :
    List.compareLex order cs ds = .lt ↔ List.Lex Before cs ds := by
  induction cs generalizing ds with
  | nil =>
    cases ds with
    | nil => exact iff_of_false (by decide) (fun h => by cases h)
    | cons d ds => exact iff_of_true rfl .nil
  | cons c cs ih =>
    cases ds with
    | nil => exact iff_of_false (fun h => by cases h) (fun h => by cases h)
    | cons d ds =>
      rw [List.compareLex_cons_cons, Ordering.then_eq_lt, order_eq_lt_iff, ih]
      constructor
      · rintro (hbefore | ⟨heq, hlex⟩)
        · exact .rel hbefore
        · obtain rfl := Std.LawfulEqCmp.eq_of_compare heq
          exact .cons hlex
      · intro h
        cases h with
        | rel hbefore => exact .inl hbefore
        | cons hlex => exact .inr ⟨Std.ReflCmp.compare_self, hlex⟩

/-- **A path comes before another** if its components are the beginning of the other's, or the
first one that differs comes before the other's. -/
theorem Path.compare_eq_lt_iff {p q : Path} :
    compare p q = .lt ↔ List.Lex Component.Before p.components q.components :=
  Component.compareLex_eq_lt_iff

/-! ## Crates -/

instance : Std.TransOrd Crate.Origin :=
  inferInstanceAs (Std.TransCmp
    (compareLex (compareOn Crate.Origin.rank) (compareOn Crate.Origin.pathKey)))

instance : Std.TransOrd Crate :=
  inferInstanceAs (Std.TransCmp (compareLex (compareOn Crate.name) (compareOn Crate.origin)))

instance : Std.TransOrd CrateId := inferInstanceAs (Std.TransCmp (compareOn CrateId.word))

instance : Std.TransOrd LinkedCrate :=
  inferInstanceAs (Std.TransCmp (compareLex LinkedCrate.keyOrder
    (compareLex (compareOn (·.linkage.rank)) (compareOn LinkedCrate.id))))

/-- Origins compare as equal when they are of one kind and have the same path, if any. -/
theorem Crate.Origin.compare_eq_iff {o o' : Origin} :
    compare o o' = .eq ↔ (o == o') = true := by
  have hlex : compare o o' =
      (compare o.rank o'.rank).then (compare o.pathKey o'.pathKey) := rfl
  rw [hlex, Ordering.then_eq_eq, Path.compare_eq_iff, Std.LawfulEqOrd.compare_eq_iff_eq]
  constructor
  · rintro ⟨hrank, hpath⟩
    cases o <;> cases o'
    case sysroot.sysroot | unlocated.unlocated => rfl
    case file.file p q => exact hpath
    all_goals cases hrank
  · intro h
    rcases beq_cases h with rfl | ⟨p, q, rfl, rfl, hsteps⟩
    · exact ⟨rfl, Path.beq_iff.2 rfl⟩
    · exact ⟨rfl, Path.beq_iff.2 hsteps⟩

theorem Crate.compare_eq_iff {c d : Crate} : compare c d = .eq ↔ (c == d) = true := by
  have hlex : compare c d = (compare c.name d.name).then (compare c.origin d.origin) := rfl
  rw [hlex, Ordering.then_eq_eq, Origin.compare_eq_iff, Std.LawfulEqOrd.compare_eq_iff_eq, beq_iff]

theorem CrateId.word_injective {i j : CrateId} (h : i.word = j.word) : i = j := by
  cases i
  cases j
  exact congrArg CrateId.mk h

theorem Linkage.rank_injective {l l' : Linkage} (h : l.rank = l'.rank) : l = l' := by
  cases l <;> cases l' <;> first | rfl | cases h

namespace LinkedCrate

/-- Linkage and identity count only between crates that the canonical order does not tell
apart. -/
theorem compare_eq_then (a b : LinkedCrate) : compare a b = (keyOrder a b).then
    ((compare a.linkage.rank b.linkage.rank).then (compare a.id.word b.id.word)) := rfl

theorem compare_eq_iff {a b : LinkedCrate} : compare a b = .eq ↔ (a == b) = true := by
  have hview : a.view = b.view ↔ (a.name = b.name ∧ a.path.components = b.path.components) ∧
      a.linkage = b.linkage ∧ a.id = b.id := by
    simp only [view, View.mk.injEq, and_assoc]
  have hlinkage : a.linkage.rank = b.linkage.rank ↔ a.linkage = b.linkage :=
    ⟨Linkage.rank_injective, congrArg Linkage.rank⟩
  have hid : a.id.word = b.id.word ↔ a.id = b.id :=
    ⟨CrateId.word_injective, congrArg CrateId.word⟩
  rw [compare_eq_then, Ordering.then_eq_eq, Ordering.then_eq_eq, keyOrder_eq_eq_iff, Path.beq_iff,
    Std.LawfulEqOrd.compare_eq_iff_eq, Std.LawfulEqOrd.compare_eq_iff_eq, hlinkage, hid, beq_iff,
    hview]

/-- **The full order refines the canonical one.** -/
theorem isLE_keyOrder {a b : LinkedCrate} (h : (compare a b).isLE = true) :
    (keyOrder a b).isLE = true := by
  rw [compare_eq_then] at h
  cases hkey : keyOrder a b with
  | lt => rfl
  | eq => rfl
  | gt =>
    rw [hkey] at h
    cases h

/-- Sorting by the full order sorts by the canonical one. -/
theorem sort_sorted (xs : List LinkedCrate) : (Order.sort xs).Perm xs ∧
    (Order.sort xs).Pairwise (fun a b => (compare a b).isLE = true) ∧
    (Order.sort xs).Pairwise (fun a b => (keyOrder a b).isLE = true) := by
  have hsorted : (Order.sort xs).Pairwise fun a b => (compare a b).isLE = true :=
    StableSort.pairwise_mergeSort_isLE compare xs
  exact ⟨List.mergeSort_perm xs _, hsorted, hsorted.imp isLE_keyOrder⟩

/-- **The orders of references are total orders that agree with sameness,** for all spellings of
the paths in them; paths come in the order of their components; and linked crates that are
sorted by their full order are sorted by name and path. -/
theorem orders_agree :
    Order.Agrees Crate.Origin ∧ Order.Agrees Crate ∧ Order.Agrees LinkedCrate ∧
      Order.Agrees Path ∧
      (∀ p q : Path, compare p q = .lt ↔ List.Lex Component.Before p.components q.components) ∧
      ∀ xs : List LinkedCrate, (Order.sort xs).Perm xs ∧
        (Order.sort xs).Pairwise (fun a b => (compare a b).isLE = true) ∧
        (Order.sort xs).Pairwise (fun a b => (keyOrder a b).isLE = true) := by
  refine ⟨?_, ?_, ?_, ?_, ?_, sort_sorted⟩
  · exact Order.agrees_of_same fun _ _ => Crate.Origin.compare_eq_iff
  · exact Order.agrees_of_same fun _ _ => Crate.compare_eq_iff
  · exact Order.agrees_of_same fun _ _ => compare_eq_iff
  · exact Order.agrees_of_same fun _ _ => Path.compare_eq_iff
  · exact fun _ _ => Path.compare_eq_lt_iff

end LinkedCrate

end ExprHost
