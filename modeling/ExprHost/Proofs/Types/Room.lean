import ExprHost.Proofs.Types.Levels
import ExprHost.Types.HostType

/-!
# Room for arguments

A level asks for the room of all arguments that it declares before it looks how many there
are. The number that it declares is bounded by nothing but the size of a word, so the room can
be more than there is, and then the type has no spelling, however short the pool.

* `TypeDesc.Visits`: the levels that the spelling of a type comes to.
* `TypeDesc.fill?_eq`: levels that can be filled are filled as if room did not matter.
* `TypeDesc.render?_eq_some_iff`: **a type has its spelling exactly if every level that is
  visited asks for no more room than there can be.**
* `TypeDesc.render?_huge`: a level without any argument that asks for too much.
* `HostType.render?_desc`: **host types always have their spelling.**
-/

namespace ExprHost

namespace TypeDesc

/-- **The levels that the spelling of a type comes to:** its own nesting levels, and the ones of
the arguments that they take. Arguments that no level has a place for are not visited, and
neither are arguments that the levels around the type hold. -/
inductive Visits : TypeDesc → TypeDesc → Prop
  | level {t l : TypeDesc} (hl : l ∈ t.chain) : Visits t l
  | argument {t a l : TypeDesc} (ha : a ∈ t.args.take (slots t.chain)) (hl : Visits a l) :
      Visits t l

/-- Every level that is visited can have the room that it asks for. -/
def Roomy (t : TypeDesc) : Prop := ∀ l, t.Visits l → l.reservedBytes ≤ reservationLimit

theorem hasRoom_iff {t : TypeDesc} : t.hasRoom = true ↔ t.reservedBytes ≤ reservationLimit :=
  decide_eq_true_iff

/-- The most parameters that a level can declare and have room for. -/
theorem reservedBytes_le_iff {t : TypeDesc} :
    t.reservedBytes ≤ reservationLimit ↔ t.params ≤ 384307168202282325 := by
  have hlimit : reservationLimit = 9223372036854775807 := by decide
  rw [hlimit, reservedBytes]
  omega

/-- A type is roomy when its levels have room and the arguments that they take are roomy. -/
theorem roomy_iff {t : TypeDesc} :
    t.Roomy ↔ (∀ l ∈ t.chain, l.hasRoom = true) ∧
      ∀ a ∈ t.args.take (slots t.chain), a.Roomy := by
  constructor
  · intro h
    refine ⟨fun l hl => hasRoom_iff.2 (h l (.level hl)), ?_⟩
    intro a ha l hl
    exact h l (.argument ha hl)
  · rintro ⟨hchain, hargs⟩ l hl
    cases hl with
    | level hl => exact hasRoom_iff.1 (hchain l hl)
    | argument ha hl => exact hargs _ ha l hl

/-! ## The pool -/

/-- Whether levels can be filled from a pool: each has room, and no argument that they take
lacks its spelling. -/
def fillable (levels : List TypeDesc) (pool : List (Option String)) : Bool :=
  levels.all hasRoom && (pool.take (slots levels)).all Option.isSome

/-- The spellings in a pool, with nothing in the place of those that lack. -/
def spellings (pool : List (Option String)) : List String := pool.map (·.getD "")

theorem fillable_iff {levels : List TypeDesc} {pool : List (Option String)} :
    fillable levels pool = true ↔ (∀ l ∈ levels, l.hasRoom = true) ∧
      ∀ o ∈ pool.take (slots levels), o.isSome = true := by
  rw [fillable, Bool.and_eq_true, List.all_eq_true, List.all_eq_true]

/-- The innermost level is filled from what the levels above it leave. -/
theorem fillable_concat (above : List TypeDesc) (t : TypeDesc) (pool : List (Option String)) :
    fillable (above ++ [t]) pool = (fillable above pool &&
      (t.hasRoom && ((pool.drop (slots above)).take t.params).all Option.isSome)) := by
  have hslots : slots (above ++ [t]) = slots above + t.params := by simp [slots]
  rw [fillable, fillable, hslots, List.take_add, List.all_append, List.all_append]
  simp only [List.all_cons, List.all_nil, Bool.and_true]
  ac_rfl

/-- A pool that lacks nothing is the list of its spellings. -/
theorem mapM_id_eq (pool : List (Option String)) :
    pool.mapM id = if pool.all Option.isSome then some (spellings pool) else none := by
  induction pool with
  | nil => rfl
  | cons o pool ih =>
    rw [List.mapM_cons, ih]
    cases o with
    | none => rfl
    | some s =>
      rw [List.all_cons, Option.isSome_some, Bool.true_and]
      by_cases hall : pool.all Option.isSome = true
      · rw [if_pos hall, if_pos hall]
        rfl
      · rw [if_neg hall, if_neg hall]
        rfl

/-- The text of a type's levels ends in its own level, with what the levels above it leave. -/
theorem fst_fill (name : TypeName) (crate : Crate) (params : Nat) (args : List TypeDesc)
    (declaring : Option TypeDesc) (pool : List String) :
    (fill ⟨name, crate, params, args, declaring⟩ pool).1 = (fillAbove declaring pool).1 ++
      level name.simple ((pool.drop (slots (chainAbove declaring))).take params) := by
  rw [fill, (fillAbove_eq declaring pool).2.symm]

mutual

/-- **Levels that can be filled are filled as if room did not matter,** and others not at all. -/
theorem fill?_eq : ∀ (t : TypeDesc) (pool : List (Option String)),
    fill? t pool = if fillable t.chain pool then
      some ((fill t (spellings pool)).1, pool.drop (slots t.chain)) else none
  | ⟨name, crate, params, args, declaring⟩, pool => by
    have hslots : slots (chainAbove declaring ++ [⟨name, crate, params, args, declaring⟩]) =
        slots (chainAbove declaring) + params := by
      simp [slots]
    rw [fill?, fillAbove?_eq declaring pool, chain, fillable_concat, hslots, fst_fill]
    cases fillable (chainAbove declaring) pool with
    | false => rfl
    | true =>
      simp only [if_true, Bool.true_and, mapM_id_eq]
      cases hasRoom ⟨name, crate, params, args, declaring⟩ with
      | false => rfl
      | true =>
        simp only [if_true, Bool.true_and]
        split
        · simp only [Option.map_some, spellings, List.map_take, List.map_drop, List.drop_drop]
        · rfl

/-- The levels around a type are filled likewise. -/
theorem fillAbove?_eq : ∀ (declaring : Option TypeDesc) (pool : List (Option String)),
    fillAbove? declaring pool = if fillable (chainAbove declaring) pool then
      some ((fillAbove declaring (spellings pool)).1, pool.drop (slots (chainAbove declaring)))
      else none
  | none, pool => by
    simp [fillAbove?, fillAbove, chainAbove, fillable, slots]
  | some outer, pool => by
    rw [fillAbove?, fill?_eq outer pool, chainAbove, fillAbove]
    split
    · rfl
    · rfl

end

mutual

/-- The text of a type's levels depends only on the arguments that they take. -/
theorem fst_fill_congr : ∀ (t : TypeDesc) {pool pool' : List String},
    pool.take (slots t.chain) = pool'.take (slots t.chain) → (fill t pool).1 = (fill t pool').1
  | ⟨name, crate, params, args, declaring⟩, pool, pool', h => by
    have hslots : slots (chain ⟨name, crate, params, args, declaring⟩) =
        slots (chainAbove declaring) + params := by
      simp [chain, slots]
    rw [hslots, List.take_add, List.take_add] at h
    -- what the levels above take is in both the same, and then what is left for this one
    have habove : pool.take (slots (chainAbove declaring)) =
        pool'.take (slots (chainAbove declaring)) := by
      have hfirst := congrArg (List.take (slots (chainAbove declaring))) h
      rwa [← List.take_add, ← List.take_add, List.take_take, List.take_take,
        Nat.min_eq_left (Nat.le_add_right _ _)] at hfirst
    have hown := List.append_inj_right h (congrArg List.length habove)
    rw [fst_fill, fst_fill, fst_fillAbove_congr declaring habove, hown]

/-- The text of the levels around a type depends only on the arguments that they take. -/
theorem fst_fillAbove_congr : ∀ (declaring : Option TypeDesc) {pool pool' : List String},
    pool.take (slots (chainAbove declaring)) = pool'.take (slots (chainAbove declaring)) →
      (fillAbove declaring pool).1 = (fillAbove declaring pool').1
  | none, _, _, _ => rfl
  | some outer, _, _, h => congrArg (· ++ "::") (fst_fill_congr outer h)

end

/-! ## The type -/

theorem render?_eq (t : TypeDesc) : t.render? = (fill? t (t.args.map render?)).map (·.1) := by
  obtain ⟨name, crate, params, args, declaring⟩ := t
  rw [render?, renderAll?_eq_map]

theorem render_eq (t : TypeDesc) : t.render = (fill t (t.args.map render)).1 := by
  obtain ⟨name, crate, params, args, declaring⟩ := t
  rw [render, renderAll_eq_map]

section Arguments

variable {t : TypeDesc} (hargs : ∀ a ∈ t.args, ∀ s, a.render? = some s ↔ a.Roomy ∧ s = a.render)
include hargs

/-- The levels of a type can be filled from its arguments when the type is roomy. -/
theorem fillable_args_iff : fillable t.chain (t.args.map render?) = true ↔ t.Roomy := by
  have hsome : ∀ a ∈ t.args, a.render?.isSome = true ↔ a.Roomy := by
    intro a ha
    constructor
    · intro h
      obtain ⟨s, hs⟩ := Option.isSome_iff_exists.1 h
      exact ((hargs a ha s).1 hs).1
    · intro h
      rw [(hargs a ha a.render).2 ⟨h, rfl⟩]
      rfl
  rw [fillable_iff, roomy_iff, ← List.map_take, List.forall_mem_map]
  refine and_congr_right fun _ => forall₂_congr fun a ha => ?_
  exact hsome a (List.mem_of_mem_take ha)

/-- The arguments that a roomy type takes have their spellings, whatever the others have. -/
theorem take_spellings (h : t.Roomy) : (spellings (t.args.map render?)).take (slots t.chain) =
    (t.args.map render).take (slots t.chain) := by
  rw [spellings, List.map_map, ← List.map_take, ← List.map_take]
  apply List.map_congr_left
  intro a ha
  have hspelled := (hargs a (List.mem_of_mem_take ha) _).2 ⟨(roomy_iff.1 h).2 a ha, rfl⟩
  rw [Function.comp_apply, hspelled, Option.getD_some]

/-- A type has its spelling when it is roomy, if its arguments do so. -/
theorem render?_of_args {s : String} : t.render? = some s ↔ t.Roomy ∧ s = t.render := by
  by_cases h : t.Roomy
  · rw [render?_eq, fill?_eq, if_pos ((fillable_args_iff hargs).2 h),
      fst_fill_congr t (take_spellings hargs h), ← render_eq, Option.map_some, Option.some.injEq,
      eq_comm, and_iff_right h]
  · rw [render?_eq, fill?_eq, if_neg (mt (fillable_args_iff hargs).1 h)]
    exact iff_of_false (by simp) (fun hs => h hs.1)

end Arguments

mutual

theorem render?_iff : ∀ (t : TypeDesc) (s : String),
    t.render? = some s ↔ t.Roomy ∧ s = t.render
  | ⟨_, _, _, args, _⟩, _ => render?_of_args (render?_iff_of_mem args)

/-- So do the arguments of a type, to any depth. -/
theorem render?_iff_of_mem : ∀ (args : List TypeDesc), ∀ a ∈ args, ∀ s,
    a.render? = some s ↔ a.Roomy ∧ s = a.render
  | [], _, ha => by cases ha
  | t :: args, a, ha => by
    rcases List.mem_cons.1 ha with h | ha
    · rw [h]
      exact render?_iff t
    · exact render?_iff_of_mem args a ha

end

/-- **A type has its spelling exactly if every level that is visited asks for no more room than
there can be,** whatever arguments there are. -/
theorem render?_eq_some_iff (t : TypeDesc) (s : String) :
    t.render? = some s ↔ (∀ l, t.Visits l → l.reservedBytes ≤ reservationLimit) ∧ s = t.render :=
  render?_iff t s

/-- **A level can ask for too much.** With the largest number of parameters that a word holds
there is no spelling, where an empty pool should only leave all places free. -/
theorem render?_huge :
    let t := parametric (.ofPath "Huge") .std (Nat.pow 2 64 - 1)
    t.Visits t ∧ ¬t.reservedBytes ≤ reservationLimit ∧ t.render? = none ∧ t.render = "Huge" := by
  refine ⟨.level ?_, ?_⟩
  · exact List.mem_singleton_self _
  · decide

/-- A type that is declared in no other visits itself and what its arguments visit. -/
theorem roomy_of_args {t : TypeDesc} (houter : t.declaring = none)
    (hparams : t.params ≤ 384307168202282325) (hargs : ∀ a ∈ t.args, a.Roomy) : t.Roomy := by
  have hchain : t.chain = [t] := by
    obtain ⟨name, crate, params, args, declaring⟩ := t
    obtain rfl : declaring = none := houter
    rfl
  refine roomy_iff.2 ⟨?_, fun a ha => hargs a (List.mem_of_mem_take ha)⟩
  intro l hl
  rw [hchain, List.mem_singleton] at hl
  rw [hl]
  exact hasRoom_iff.2 (reservedBytes_le_iff.2 hparams)

end TypeDesc

namespace HostType

theorem Atom.roomy_desc (a : Atom) : a.desc.Roomy := by
  have hplain : ∃ name crate, a.desc = .plain name crate := by
    cases a <;> exact ⟨_, _, rfl⟩
  obtain ⟨name, crate, hdesc⟩ := hplain
  rw [hdesc]
  refine TypeDesc.roomy_of_args rfl (Nat.zero_le _) ?_
  intro b hb
  cases hb

theorem roomy_desc (t : HostType) : t.desc.Roomy := by
  induction t with
  | atom a => exact a.roomy_desc
  | unary c arg ih =>
    have hone : (unary c arg).desc.params = 1 := rfl
    refine TypeDesc.roomy_of_args rfl (by omega) ?_
    intro a ha
    rw [List.mem_singleton.1 ha]
    exact ih
  | binary c first second ihFirst ihSecond =>
    have htwo : (binary c first second).desc.params = 2 := rfl
    refine TypeDesc.roomy_of_args rfl (by omega) ?_
    intro a ha
    rcases List.mem_cons.1 ha with h | h
    · rw [h]
      exact ihFirst
    · rw [List.mem_singleton.1 h]
      exact ihSecond

/-- **Host types always have their spelling,** so no evaluation fails for want of room. -/
theorem render?_desc (t : HostType) : t.desc.render? = some t.desc.render :=
  (TypeDesc.render?_iff t.desc _).2 ⟨t.roomy_desc, rfl⟩

end HostType

end ExprHost
