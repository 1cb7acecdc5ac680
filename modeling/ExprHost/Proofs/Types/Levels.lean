import ExprHost.Types.Render
import Mathlib.Algebra.Ring.Nat

/-!
# The levels of a spelling

A type is spelled level by level from one pool of arguments. Which arguments a level gets
can be said without a pool: they are the ones between the number of parameters above the
level and the number of parameters down to it.

* `TypeDesc.share`: the arguments of one level, by counting the parameters above it.
* `TypeDesc.fill_eq`: what the pool gives each level, and what it is left with.
* `TypeDesc.Dealt`: arguments go to the outermost level that has room, each of them once.
* `TypeDesc.render_eq_join`: **a type is spelled from the shares of its levels.**
-/

namespace ExprHost.TypeDesc

variable {α β : Type}

/-- How many arguments some levels can take together. -/
def slots (levels : List TypeDesc) : Nat := (levels.map (·.params)).sum

/-- The arguments of the level at a position: the ones after those that the levels above it
have room for, as many as it has room for itself and as there are. -/
def share (levels : List TypeDesc) (args : List α) (i : Nat) : List α :=
  args.extract (min (slots (levels.take i)) args.length)
    (min (slots (levels.take (i + 1))) args.length)

/-- **Arguments go to the outermost level that has room,** each of them once and in their
order, until they run out or no level is left. -/
structure Dealt (levels : List TypeDesc) (args : List α) (shares : Nat → List α) : Prop where
  /-- What the levels get, one after the other, are the first arguments. -/
  eq_take : ((List.range levels.length).map shares).flatten = args.take (slots levels)
  /-- No level gets more than it has room for. -/
  length_le : ∀ i t, levels[i]? = some t → (shares i).length ≤ t.params
  /-- No level gets anything while one above it has room. -/
  eq_nil : ∀ i t, levels[i]? = some t → (shares i).length < t.params → ∀ j > i, shares j = []

/-! ## Shares -/

theorem slots_append (above below : List TypeDesc) :
    slots (above ++ below) = slots above + slots below := by
  simp [slots]

theorem slots_take_succ {levels : List TypeDesc} {i : Nat} {t : TypeDesc}
    (ht : levels[i]? = some t) :
    slots (levels.take (i + 1)) = slots (levels.take i) + t.params := by
  rw [List.take_add_one, ht, slots_append]
  simp [slots]

theorem slots_take_le (levels : List TypeDesc) {i j : Nat} (h : i ≤ j) :
    slots (levels.take i) ≤ slots (levels.take j) := by
  obtain ⟨k, rfl⟩ := Nat.exists_eq_add_of_le h
  rw [List.take_add, slots_append]
  exact Nat.le_add_right _ _

theorem length_share (levels : List TypeDesc) (args : List α) (i : Nat) :
    (share levels args i).length =
      min (slots (levels.take (i + 1))) args.length - min (slots (levels.take i)) args.length := by
  have hle := slots_take_le levels (Nat.le_add_right i 1)
  simp only [share, List.extract_eq_take_drop, List.length_take, List.length_drop]
  omega

/-- What is done to each argument is done to each share. -/
theorem share_map (f : α → β) (levels : List TypeDesc) (args : List α) (i : Nat) :
    share levels (args.map f) i = (share levels args i).map f := by
  simp only [share, List.extract_eq_take_drop, List.length_map, List.map_take, List.map_drop]

/-- The share of a level does not depend on the levels below it. -/
theorem share_append_left (above below : List TypeDesc) (args : List α) {i : Nat}
    (hi : i < above.length) : share (above ++ below) args i = share above args i := by
  unfold share
  rw [List.take_append_of_le_length (Nat.le_of_lt hi), List.take_append_of_le_length hi]

/-- The innermost level takes from what the levels above it have left. -/
theorem share_concat (above : List TypeDesc) (t : TypeDesc) (args : List α) :
    share (above ++ [t]) args above.length = (args.drop (slots above)).take t.params := by
  have hall : (above ++ [t]).take (above.length + 1) = above ++ [t] :=
    List.take_of_length_le (by simp)
  have hslots : slots [t] = t.params := by simp [slots]
  rw [share, List.take_left, hall, slots_append, hslots, List.extract_eq_take_drop]
  rcases Nat.le_total (slots above) args.length with hle | hle
  · rw [Nat.min_eq_left hle, List.take_eq_take_iff, List.length_drop]
    omega
  · rw [Nat.min_eq_right hle, List.drop_of_length_le hle, List.drop_length, List.take_nil,
      List.take_nil]

/-- The shares of the first levels are the first arguments. -/
theorem flatten_shares (levels : List TypeDesc) (args : List α) (n : Nat) :
    ((List.range n).map (share levels args)).flatten = args.take (slots (levels.take n)) := by
  induction n with
  | zero => simp [slots]
  | succ n ih =>
    have hle := slots_take_le levels (Nat.le_add_right n 1)
    rw [List.range_succ, List.map_append, List.flatten_append, ih, List.map_singleton,
      List.flatten_singleton, share, List.extract_eq_take_drop]
    -- two neighbouring segments make one
    calc args.take (slots (levels.take n)) ++
          (args.drop (min (slots (levels.take n)) args.length)).take _
        = args.take (min (slots (levels.take n)) args.length) ++
          (args.drop (min (slots (levels.take n)) args.length)).take
            (min (slots (levels.take (n + 1))) args.length -
              min (slots (levels.take n)) args.length) := by
          rw [List.take_eq_take_min]
      _ = args.take (min (slots (levels.take (n + 1))) args.length) := by
          rw [← List.take_add]
          congr 1
          omega
      _ = args.take (slots (levels.take (n + 1))) := (List.take_eq_take_min ..).symm

theorem dealt_share (levels : List TypeDesc) (args : List α) :
    Dealt levels args (share levels args) where
  eq_take := by
    rw [flatten_shares, List.take_length]
  length_le := by
    intro i t ht
    have hroom := slots_take_succ ht
    rw [length_share]
    omega
  eq_nil := by
    intro i t ht hshort j hj
    -- a level with room left has seen the last argument
    have hroom := slots_take_succ ht
    rw [length_share] at hshort
    have hspent : args.length ≤ slots (levels.take (i + 1)) := by omega
    have hj₁ : slots (levels.take (i + 1)) ≤ slots (levels.take j) := slots_take_le levels hj
    have hj₂ := slots_take_le levels (Nat.le_add_right j 1)
    apply List.eq_nil_of_length_eq_zero
    rw [length_share]
    omega

/-! ## The pool -/

/-- Each level of some nesting, with its share of some spelled arguments. -/
def spelledLevels (levels : List TypeDesc) (pool : List String) : List String :=
  levels.mapIdx fun i t => level t.name.simple (share levels pool i)

theorem spelledLevels_concat (above : List TypeDesc) (t : TypeDesc) (pool : List String) :
    spelledLevels (above ++ [t]) pool = spelledLevels above pool ++
      [level t.name.simple ((pool.drop (slots above)).take t.params)] := by
  unfold spelledLevels
  rw [List.mapIdx_append, List.mapIdx_singleton, Nat.zero_add, share_concat]
  congr 1
  apply List.mapIdx_eq_mapIdx_iff.2
  intro i hi
  rw [share_append_left _ _ _ hi]

theorem spelledLevels_chain_ne_nil (t : TypeDesc) (pool : List String) :
    spelledLevels t.chain pool ≠ [] := by
  obtain ⟨name, crate, params, args, declaring⟩ := t
  rw [chain, spelledLevels_concat]
  exact List.concat_ne_nil _ _

/-- A text after others that it is joined to. -/
theorem join_concat (sep s : String) {texts : List String} (hne : texts ≠ []) :
    Text.join sep (texts ++ [s]) = Text.join sep texts ++ sep ++ s := by
  induction texts with
  | nil => exact absurd rfl hne
  | cons first rest ih =>
    cases rest with
    | nil => simp [Text.join]
    | cons second rest =>
      have hrest := ih (List.cons_ne_nil second rest)
      simp only [List.cons_append, Text.join] at hrest ⊢
      rw [hrest]
      simp only [String.append_assoc]

mutual

/-- **The pool gives each level its share,** and is left with what no level takes. -/
theorem fill_eq : ∀ (t : TypeDesc) (pool : List String),
    fill t pool = (Text.join "::" (spelledLevels t.chain pool), pool.drop (slots t.chain))
  | ⟨name, crate, params, args, declaring⟩, pool => by
    obtain ⟨htext, hleft⟩ := fillAbove_eq declaring pool
    rw [chain, spelledLevels_concat, ← htext, slots_append, ← List.drop_drop, ← hleft, fill]
    simp [slots]

/-- The levels around a type get their shares before it gets its own. -/
theorem fillAbove_eq : ∀ (declaring : Option TypeDesc) (pool : List String),
    (∀ s, (fillAbove declaring pool).1 ++ s =
        Text.join "::" (spelledLevels (chainAbove declaring) pool ++ [s])) ∧
      (fillAbove declaring pool).2 = pool.drop (slots (chainAbove declaring))
  | none, pool => by
    constructor
    · intro s
      simp [fillAbove, chainAbove, spelledLevels, Text.join]
    · simp [fillAbove, chainAbove, slots]
  | some outer, pool => by
    rw [fillAbove, fill_eq outer pool, chainAbove]
    constructor
    · intro s
      rw [join_concat _ _ (spelledLevels_chain_ne_nil outer pool)]
    · rfl

end

/-- **A type is spelled from the shares of its levels:** each level is its name without the
arity and, in angle brackets, the spellings of the arguments that it gets of the ones that the
type itself holds. -/
theorem render_eq_join (d : TypeDesc) :
    d.render = Text.join "::" (d.chain.mapIdx fun i t =>
        level t.name.simple ((share d.chain d.args i).map render)) ∧
      Dealt d.chain d.args (share d.chain d.args) := by
  refine ⟨?_, dealt_share d.chain d.args⟩
  obtain ⟨name, crate, params, args, declaring⟩ := d
  rw [render, fill_eq, renderAll_eq_map]
  simp only [spelledLevels, share_map]

/-- A pool that runs out leaves the inner level with less than it has room for. -/
example :
    (((parametric (.ofPath "lib::Inner") .std 2).inside
      (parametric (.ofPath "lib::Outer") .std 1)).applied
        [plain (.global "u8") .core, plain (.global "i8") .core]).render =
      "Outer<u8>::Inner<i8>" := by
  decide

end ExprHost.TypeDesc
