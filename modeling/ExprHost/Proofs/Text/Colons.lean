import ExprHost.Text.Lines
import Mathlib.Data.List.Infix

/-!
# Pieces between double colons

Cuts are leftmost and do not overlap. So an odd run of colons leaves its last colon at the front
of the piece after it, and a piece that ends in a colon has no other piece after it. Pieces of this
kind are found again in what they are joined to, also where some of them have been left out.

* `Whole`: no `::` stands in a text.
* `Cut`: what can be said of the pieces of any text, by `cut_splitColons`.
* `splitColons_join`: **pieces of this kind are found again when they are joined.**
* `forall_splitColons_eq_nil_iff`: which texts have empty pieces only.
-/

namespace ExprHost.Text

/-- No separator stands in a text. -/
def Whole (cs : List Char) : Prop := ¬[':', ':'] <:+: cs

/-- Pieces that can be told apart when they are joined: in none of them a separator stands, and one
that has another piece behind it does not end in a colon. -/
structure Cut (pieces : List (List Char)) : Prop where
  whole : ∀ p ∈ pieces, Whole p
  closed : pieces.Pairwise fun p _ => Whole (p ++ [':'])

theorem whole_nil : Whole [] := by
  simp [Whole]

theorem whole_cons_iff {c : Char} {cs : List Char} :
    Whole (c :: cs) ↔ ¬(c = ':' ∧ cs.head? = some ':') ∧ Whole cs := by
  have hstart : [':', ':'] <+: c :: cs ↔ c = ':' ∧ cs.head? = some ':' := by
    rw [List.cons_prefix_cons, eq_comm]
    cases cs <;> simp [List.cons_prefix_cons, eq_comm]
  rw [Whole, List.infix_cons_iff, hstart, not_or, Whole]

theorem splitColons_ne_nil (cs : List Char) : splitColons cs ≠ [] := by
  unfold splitColons
  split
  · exact List.cons_ne_nil _ _
  · exact List.cons_ne_nil _ _
  · next c rest _ => cases splitColons rest <;> exact List.cons_ne_nil _ _

/-- A character with which no separator begins belongs to the first piece. -/
theorem splitColons_cons {c : Char} {cs : List Char} (h : ¬(c = ':' ∧ cs.head? = some ':')) :
    splitColons (c :: cs) = onFirst c (splitColons cs) := by
  rw [splitColons]
  rintro rest rfl rfl
  exact h ⟨rfl, rfl⟩

/-- A text begins with its first piece. If there is another piece, a colon follows. -/
theorem exists_eq_append_of_splitColons {cs p : List Char} {rest : List (List Char)}
    (h : splitColons cs = p :: rest) :
    ∃ more, cs = p ++ more ∧ (rest ≠ [] → more.head? = some ':') := by
  fun_induction splitColons cs generalizing p rest with
  | case1 =>
    obtain ⟨rfl, rfl⟩ := List.cons.inj h
    exact ⟨[], rfl, fun hne => absurd rfl hne⟩
  | case2 cs _ =>
    obtain ⟨rfl, -⟩ := List.cons.inj h
    exact ⟨':' :: ':' :: cs, rfl, fun _ => rfl⟩
  | case3 c cs _ ih =>
    cases hsplit : splitColons cs with
    | nil => exact absurd hsplit (splitColons_ne_nil cs)
    | cons q qs =>
      rw [hsplit, onFirst] at h
      obtain ⟨rfl, rfl⟩ := List.cons.inj h
      obtain ⟨more, rfl, hmore⟩ := ih hsplit
      exact ⟨more, rfl, hmore⟩

/-- **The pieces of a text are cut.** -/
theorem cut_splitColons (cs : List Char) : Cut (splitColons cs) := by
  fun_induction splitColons cs with
  | case1 => exact ⟨by simp [whole_nil], by simp⟩
  | case2 cs ih =>
    refine ⟨List.forall_mem_cons.2 ⟨whole_nil, ih.whole⟩, List.pairwise_cons.2 ⟨?_, ih.closed⟩⟩
    intro _ _
    simp [whole_cons_iff, whole_nil]
  | case3 c cs hstart ih =>
    cases hsplit : splitColons cs with
    | nil => exact absurd hsplit (splitColons_ne_nil cs)
    | cons p ps =>
      rw [hsplit] at ih
      obtain ⟨more, rfl, hmore⟩ := exists_eq_append_of_splitColons hsplit
      -- what follows the character begins with a colon if the first piece does, or its end
      have hnone : ¬(c = ':' ∧ (p ++ more).head? = some ':') := by
        rintro ⟨rfl, hhead⟩
        obtain ⟨tail, htail⟩ := List.head?_eq_some_iff.1 hhead
        exact hstart tail rfl htail
      obtain ⟨hp, hps⟩ := List.forall_mem_cons.1 ih.whole
      obtain ⟨hclosed, hpairs⟩ := List.pairwise_cons.1 ih.closed
      refine ⟨List.forall_mem_cons.2 ⟨whole_cons_iff.2 ⟨?_, hp⟩, hps⟩,
        List.pairwise_cons.2 ⟨?_, hpairs⟩⟩
      · rintro ⟨rfl, hhead⟩
        exact hnone ⟨rfl, by simp [hhead]⟩
      · intro q hq
        refine whole_cons_iff.2 ⟨?_, hclosed q hq⟩
        rintro ⟨rfl, hhead⟩
        have hcolon := hmore (List.ne_nil_of_mem hq)
        refine hnone ⟨rfl, ?_⟩
        cases p with
        | nil => simpa using hcolon
        | cons d p => simpa using hhead

theorem splitColons_of_whole {cs : List Char} (h : Whole cs) : splitColons cs = [cs] := by
  induction cs with
  | nil => rfl
  | cons c cs ih =>
    obtain ⟨hstart, hcs⟩ := whole_cons_iff.1 h
    rw [splitColons_cons hstart, ih hcs, onFirst]

/-- A separator cuts off what stands before it. -/
theorem splitColons_append {p : List Char} (h : Whole (p ++ [':'])) (cs : List Char) :
    splitColons (p ++ ':' :: ':' :: cs) = p :: splitColons cs := by
  induction p with
  | nil => rw [List.nil_append, splitColons]
  | cons c p ih =>
    obtain ⟨hstart, hp⟩ := whole_cons_iff.1 h
    have hhead : (p ++ ':' :: ':' :: cs).head? = (p ++ [':']).head? := by
      cases p <;> rfl
    rw [List.cons_append, splitColons_cons (by rwa [hhead]), ih hp, onFirst]

/-- **Cut pieces are found again when they are joined.** -/
theorem splitColons_join {pieces : List (List Char)} (hne : pieces ≠ []) (h : Cut pieces) :
    splitColons (join "::" (pieces.map String.ofList)).toList = pieces := by
  induction pieces with
  | nil => exact absurd rfl hne
  | cons p rest ih =>
    cases rest with
    | nil =>
      have hwhole := h.whole p List.mem_cons_self
      simpa [join] using splitColons_of_whole hwhole
    | cons q rest =>
      obtain ⟨hclosed, hpairs⟩ := List.pairwise_cons.1 h.closed
      have hrest := ih (List.cons_ne_nil q rest) ⟨(List.forall_mem_cons.1 h.whole).2, hpairs⟩
      have htext : (join "::" ((p :: q :: rest).map String.ofList)).toList =
          p ++ ':' :: ':' :: (join "::" ((q :: rest).map String.ofList)).toList := by
        simp [join]
      rw [htext, splitColons_append (hclosed q List.mem_cons_self), hrest]

/-- Pieces that are left of cut ones are cut. -/
theorem Cut.sublist {pieces pieces' : List (List Char)} (h : Cut pieces)
    (hsub : pieces'.Sublist pieces) : Cut pieces' :=
  ⟨fun p hp => h.whole p (hsub.subset hp), h.closed.sublist hsub⟩

/-- **Which texts have empty pieces only:** those that repeat the separator. -/
theorem forall_splitColons_eq_nil_iff {cs : List Char} :
    (∀ p ∈ splitColons cs, p = []) ↔ ∃ n, cs = (List.replicate n [':', ':']).flatten := by
  constructor
  · intro h
    fun_induction splitColons cs with
    | case1 => exact ⟨0, rfl⟩
    | case2 cs ih =>
      obtain ⟨n, rfl⟩ := ih (List.forall_mem_cons.1 h).2
      exact ⟨n + 1, by simp [List.replicate_succ]⟩
    | case3 c cs _ ih =>
      -- the character stands in the first piece
      cases hsplit : splitColons cs with
      | nil => exact absurd hsplit (splitColons_ne_nil cs)
      | cons p ps =>
        rw [hsplit, onFirst] at h
        exact absurd (h (c :: p) List.mem_cons_self) (List.cons_ne_nil c p)
  · rintro ⟨n, rfl⟩
    induction n with
    | zero => simp [splitColons]
    | succ n ih => simpa [List.replicate_succ, splitColons] using ih

end ExprHost.Text
