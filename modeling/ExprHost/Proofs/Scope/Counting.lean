import ExprHost.Proofs.Evaluation.Pipeline
import ExprHost.Proofs.Scope.Steps
import Mathlib.Algebra.Ring.Int.Defs

/-!
# What a step counts

The count of live scopes moves up with the last step of a load and down with the last step of a
release. No other step moves it, so where a machine stands says what it has counted.

* `Loading.entries`, `Ending.entries`, `Evaluating.entries`: the changes made so far.
* `Loading.next_cases`, `Releasing.next_cases`, `Ending.next_cases`: when a step counts.
* `Loading.next_entries`, `Ending.next_entries`, `Evaluating.next_entries`: **the change that a
  step makes is the next entry.**
-/

namespace ExprHost

variable {V : Type}

/-- A toolchain does not count scopes. One that loads scopes itself does so by calls of their
own. -/
def Toolchain.Neutral (toolchain : Toolchain) : Prop :=
  ∀ r h, (toolchain.compile r h).2.live = h.live

/-- The external compiler does not count scopes. -/
theorem Settings.neutral_toolchain (s : Settings) (program : Program) :
    (s.toolchain program).Neutral := by
  intro r h
  obtain ⟨tree, hcompile, -⟩ := s.compile_eq program r h
  unfold Settings.toolchain
  simp only
  rw [hcompile]
  unfold Settings.recorded
  split <;> rfl

/-! ## What has been counted -/

/-- Whether a scope has been loaded. -/
def Loading.isLive : Loading V → Bool
  | .loaded _ _ => true
  | _ => false

/-- Whether a scope is still there to be released, or its release not done. -/
def Releasing.isLive : Releasing V → Bool
  | .begun s => s.isLive
  | .released _ _ => false
  | _ => true

def Ending.isLive : Ending V → Bool
  | .unloading r => r.isLive
  | .dropping _ r => r.isLive
  | .finished _ => false

/-- The changes that a load has made to the count. -/
def Loading.entries (l : Loading V) : List Int := if l.isLive then [1] else []

/-- The changes that a scope has made to the count, since it was loaded. -/
def Ending.entries (e : Ending V) : List Int := if e.isLive then [1] else [1, -1]

def Evaluating.isLive : Evaluating V → Bool
  | .loading _ l => l.isLive
  | .ending _ e => e.isLive
  | _ => false

def Evaluating.entries : Evaluating V → List Int
  | .loading _ l => l.entries
  | .ending _ e => e.entries
  | .returned _ => [1, -1]
  | _ => []

/-- The change of the count from one host to another, if there is one. -/
def Host.counted (h h' : Host) : List Int := if h'.live = h.live then [] else [h'.live - h.live]

theorem Host.counted_of_eq {h h' : Host} (heq : h'.live = h.live) : h.counted h' = [] := if_pos heq

theorem Host.sum_counted (h h' : Host) : (h.counted h').sum = h'.live - h.live := by
  unfold counted
  split
  · rename_i heq
    rw [heq, Int.sub_self]
    rfl
  · rw [List.sum_singleton]

theorem Host.counted_of_ne {h h' : Host} {change : Int} (hne : change ≠ 0)
    (heq : h'.live = h.live + change) : h.counted h' = [change] := by
  unfold counted
  rw [if_neg (by omega), heq, Int.add_comm, Int.add_sub_cancel]

/-! ## What a step counts -/

/-- **A load counts its scope with its last step,** and one that fails counts nothing. -/
theorem Loading.next_cases {linker : Linker V} {loader : DependencyLoader} {dir : Option Path}
    {image : Image} {l l' : Loading V} {h h' : Host}
    (hl : l.next linker loader dir image h = some (l', h')) :
    l.isLive = false ∧
      (l'.isLive = false ∧ h'.live = h.live ∨ l'.isLive = true ∧ h'.live = h.live + 1) := by
  cases l with
  | opening names =>
    refine ⟨rfl, Or.inl ?_⟩
    cases names with
    | nil =>
      simp only [next] at hl
      cases hstage : h.stage dir image.bytes with
      | error e =>
        rw [hstage] at hl
        cases hl
        exact ⟨rfl, rfl⟩
      | ok found =>
        -- staging changes the files, and nothing else of the host
        obtain ⟨loc, staged⟩ := found
        obtain ⟨rfl, -⟩ := Scope.stage_eq_ok hstage
        rw [hstage] at hl
        cases hl
        exact ⟨rfl, rfl⟩
    | cons name rest =>
      simp only [next] at hl
      split at hl
      · cases hl
        exact ⟨rfl, rfl⟩
      · split at hl <;> cases hl <;> exact ⟨rfl, rfl⟩
  | staged loc =>
    refine ⟨rfl, Or.inl ?_⟩
    simp only [next] at hl
    split at hl <;> cases hl <;> exact ⟨rfl, rfl⟩
  | opened library loc =>
    cases hl
    exact ⟨rfl, Or.inr ⟨rfl, rfl⟩⟩
  | failed e => cases hl
  | loaded library loc => cases hl

/-- **A release ends the count of its scope in one step,** and one of a scope that has been
released before counts nothing. -/
theorem Releasing.next_cases {r r' : Releasing V} {h h' : Host} (hr : r.next h = some (r', h')) :
    r'.isLive = r.isLive ∧ h'.live = h.live ∨
      r.isLive = true ∧ r'.isLive = false ∧ h'.live = h.live + -1 := by
  cases r with
  | begun s =>
    obtain ⟨library, loc⟩ := s
    cases library <;> cases hr <;> exact Or.inl ⟨rfl, rfl⟩
  | closing library loc =>
    cases hr
    exact Or.inl ⟨rfl, rfl⟩
  | removing result loc =>
    cases hr
    exact Or.inl ⟨rfl, rfl⟩
  | counted result loc =>
    cases hr
    exact Or.inr ⟨rfl, rfl, rfl⟩
  | released result loc => cases hr

theorem Ending.next_cases {e e' : Ending V} {h h' : Host} (he : e.next h = some (e', h')) :
    e'.isLive = e.isLive ∧ h'.live = h.live ∨
      e.isLive = true ∧ e'.isLive = false ∧ h'.live = h.live + -1 := by
  cases e with
  | unloading r =>
    cases hr : r.next h with
    | none =>
      -- what an unloading has left holds no library
      obtain ⟨result, loc, rfl⟩ := Releasing.next_eq_none_iff.1 hr
      cases he
      exact Or.inl ⟨rfl, rfl⟩
    | some found =>
      rw [next_unloading hr] at he
      cases he
      exact Releasing.next_cases hr
  | dropping told r =>
    cases hr : r.next h with
    | none =>
      obtain ⟨result, loc, rfl⟩ := Releasing.next_eq_none_iff.1 hr
      cases he
      exact Or.inl ⟨rfl, rfl⟩
    | some found =>
      rw [next_dropping told hr] at he
      cases he
      exact Releasing.next_cases hr
  | finished told => cases he

theorem Loading.next_entries {linker : Linker V} {loader : DependencyLoader} {dir : Option Path}
    {image : Image} {l l' : Loading V} {h h' : Host}
    (hl : l.next linker loader dir image h = some (l', h')) :
    l'.entries = l.entries ++ h.counted h' := by
  obtain ⟨hbefore, ⟨hafter, heq⟩ | ⟨hafter, heq⟩⟩ := next_cases hl
  · simp [entries, hbefore, hafter, Host.counted_of_eq heq]
  · simp [entries, hbefore, hafter, Host.counted_of_ne Int.one_ne_zero heq]

theorem Ending.next_entries {e e' : Ending V} {h h' : Host} (he : e.next h = some (e', h')) :
    e'.entries = e.entries ++ h.counted h' := by
  rcases next_cases he with ⟨hsame, heq⟩ | ⟨hbefore, hafter, heq⟩
  · simp [entries, hsame, Host.counted_of_eq heq]
  · simp [entries, hbefore, hafter, Host.counted_of_ne (by omega) heq]

theorem Evaluating.next_entries {ev : Evaluator} {toolchain : Toolchain} {linker : Linker V}
    (neutral : toolchain.Neutral) {s s' : Evaluating V} {h h' : Host}
    (hs : s.next ev toolchain linker h = some (s', h')) :
    s'.entries = s.entries ++ h.counted h' := by
  cases s with
  | compiling r =>
    have hlive := neutral r h
    simp only [next] at hs
    split at hs
    · rename_i e after hcompile
      rw [hcompile] at hlive
      cases hs
      simp [entries, Host.counted_of_eq hlive]
    · rename_i compilation after hcompile
      rw [hcompile] at hlive
      split at hs
      · cases hs
        simp [entries, Host.counted_of_eq hlive]
      · cases hs
        simp [entries, Loading.entries, Loading.isLive, Host.counted_of_eq hlive]
  | loading image l =>
    cases hl : l.next linker unresolvable ev.stagingDir image h with
    | none =>
      -- the load has returned, and what it has counted is its scope's
      have hresult := Loading.next_eq_none_iff.1 hl
      cases l with
      | failed e =>
        cases hs
        simp [entries, Loading.entries, Loading.isLive, Host.counted_of_eq]
      | loaded library loc =>
        cases hs
        simp [entries, Loading.entries, Loading.isLive, Ending.entries, Ending.isLive,
          Releasing.isLive, Scope.isLive, Host.counted_of_eq]
      | opening | staged | opened => cases hresult
    | some found =>
      rw [next_loading ev toolchain linker image hl] at hs
      cases hs
      exact Loading.next_entries hl
  | ending value e =>
    cases he : e.next h with
    | none =>
      obtain ⟨told, rfl⟩ := Ending.next_eq_none_iff.1 he
      cases hs
      simp [entries, Ending.entries, Ending.isLive, Host.counted_of_eq]
    | some found =>
      rw [next_ending ev toolchain linker value he] at hs
      cases hs
      exact Ending.next_entries he
  | failed e => cases hs
  | returned value => cases hs

end ExprHost
