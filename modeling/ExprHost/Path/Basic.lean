import ExprHost.Text.Lines

/-!
# Paths

A path keeps the text it was given; two paths are the same when their components
are. Repeated and trailing separators and inner `.` are no components.

* `Path.components`: what a path means.
* `Path.compare_eq_iff`: the order and the equality of paths agree.
-/

namespace ExprHost

/-- One step of a path. -/
inductive Component
  | root
  | here
  | up
  | named (name : String)
deriving DecidableEq, Inhabited

/-- The rank of a component's kind, and its name: root, `.`, `..`, then names. -/
def Component.key : Component → Nat × String
  | .root => (0, "")
  | .here => (1, "")
  | .up => (2, "")
  | .named name => (3, name)

/-- Components by kind, names by their bytes. -/
def Component.order : Component → Component → Ordering :=
  compareLex (compareOn fun c => c.key.1) (compareOn fun c => c.key.2)

/-- A location in a file system, as it was spelled. -/
structure Path where
  text : String
deriving Inhabited

namespace Path

/-- The component that a piece of the text after the first stands for. -/
def component? : List Char → Option Component
  | [] => none
  | ['.'] => none
  | ['.', '.'] => some .up
  | name => some (.named (String.ofList name))

/-- The steps of a path. A `.` counts only where the path begins with it. -/
def components (p : Path) : List Component :=
  match p.text.toList with
  | '/' :: rest => .root :: (Text.splitChar '/' rest).filterMap component?
  | text =>
    match Text.splitChar '/' text with
    | ['.'] :: rest => .here :: rest.filterMap component?
    | pieces => pieces.filterMap component?

/-- Paths step by step; a path comes before its continuations. -/
def order (p q : Path) : Ordering := List.compareLex Component.order p.components q.components

instance : Ord Path := ⟨order⟩

/-- Paths are the same when their components are. -/
instance : BEq Path := ⟨fun p q => p.components == q.components⟩

theorem beq_iff {p q : Path} : (p == q) = true ↔ p.components = q.components := by
  change (p.components == q.components) = true ↔ _
  exact beq_iff_eq

end Path

theorem Component.key_injective {c d : Component} (h : c.key = d.key) : c = d := by
  cases c <;> cases d <;> simp_all [Component.key]

instance : Std.TransCmp Component.order := by
  unfold Component.order
  infer_instance

instance : Std.LawfulEqCmp Component.order where
  compare_self := Std.ReflCmp.compare_self
  eq_of_compare {c d} h := by
    have hlex : (compareOn (fun c : Component => c.key.1) c d).then
        (compareOn (fun c : Component => c.key.2) c d) = .eq := h
    obtain ⟨h1, h2⟩ := Ordering.then_eq_eq.1 hlex
    have hkind : compare c.key.1 d.key.1 = .eq := h1
    have hname : compare c.key.2 d.key.2 = .eq := h2
    exact Component.key_injective
      (Prod.ext (Std.LawfulEqCmp.eq_of_compare hkind) (Std.LawfulEqCmp.eq_of_compare hname))

namespace Path

theorem order_swap (p q : Path) : order p q = (order q p).swap :=
  @Std.OrientedCmp.eq_swap _ (List.compareLex Component.order) _ _ _

theorem order_trans {p q r : Path} (h1 : (order p q).isLE) (h2 : (order q r).isLE) :
    (order p r).isLE :=
  @Std.TransCmp.isLE_trans _ (List.compareLex Component.order) _ _ _ _ h1 h2

instance : Std.TransOrd Path where
  eq_swap := order_swap _ _
  isLE_trans := order_trans

/-- **The order and the equality of paths agree.** -/
theorem compare_eq_iff {p q : Path} : compare p q = .eq ↔ (p == q) = true := by
  rw [beq_iff]
  exact @Std.LawfulEqCmp.compare_eq_iff_eq _ (List.compareLex Component.order) _ _ _

end Path

end ExprHost
