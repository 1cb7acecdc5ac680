/-!
# Sorting by an order

The positions of a list's elements, in the order of the elements. Elements that the
order does not tell apart stay as they stood.
-/

namespace ExprHost.Order

variable {α : Type} [Ord α]

/-- The positions of the elements of a list, least element first. -/
def positions (xs : List α) : List Nat :=
  (xs.zipIdx.mergeSort fun a b => (compare a.1 b.1).isLE).map (·.2)

/-- The elements of a list, least first. -/
def sort (xs : List α) : List α := xs.mergeSort fun a b => (compare a b).isLE

end ExprHost.Order
