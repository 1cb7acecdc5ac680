import ExprHost.Proofs.Reference.Located
import ExprHost.Reference.Cache

/-!
# The first foundation stored

Callers that look for the foundation at the same time can all find the cache empty, ask
toolchains of their own and locate foundations that differ. They still end with one: who
stores first decides, and whoever comes later takes what is there.

* `Lookups.Step`, `Lookups.Run`: the steps of any number of callers, in any order.
* `Lookup.step_cases`: what a step does to the cache, and when it succeeds.
* `Lookups.FirstStored`: one foundation for all callers, and it stays.
* `Lookups.Run.firstStored`: **all runs of lookups come to the first foundation stored.**
* `Lookups.run_obtain`: a lookup that nobody interrupts is such a run.
-/

namespace ExprHost

/-- The cache of a process, and the lookups begun in it, in the order of their beginnings. -/
structure Lookups where
  cache : FoundationCache
  calls : List Lookup

namespace Lookups

/-- Nobody has looked for the foundation yet. -/
def initial : Lookups := ⟨none, []⟩

/-- The call at a position has returned. -/
def Returned (s : Lookups) (i : Nat) (r : Except ResolveError Foundation) : Prop :=
  s.calls[i]? = some (.finished r)

/-- **A step of some caller,** by the position of the call. What the toolchain answers and
what is in the directories can be different in every step. -/
inductive Step : Nat → Lookups → Lookups → Prop
  | begin (s : Lookups) : Step s.calls.length s ⟨s.cache, s.calls ++ [.check]⟩
  | advance (answer : Except ToolchainError Path) (listing : Path → Listing) {s : Lookups}
      {i : Nat} {l : Lookup} (call : s.calls[i]? = some l) :
      Step i s ⟨(l.step answer listing s.cache).1, s.calls.set i (l.step answer listing s.cache).2⟩

/-- **Steps of any callers in any order.** -/
inductive Run : Lookups → Lookups → Prop
  | start (s : Lookups) : Run s s
  | step {s s' s'' : Lookups} {i : Nat} (run : Run s s') (last : Step i s' s'') : Run s s''

/-- **One foundation for all callers,** the first that is stored. -/
structure FirstStored (s : Lookups) : Prop where
  /-- A call that succeeds returns what is stored. -/
  success : ∀ i f, s.Returned i (.ok f) → s.cache = some f
  /-- What is stored was stored where there was nothing, by a call that had located it. -/
  first : ∀ f, s.cache = some f → ∃ i before after, Run initial before ∧
    before.cache = none ∧ before.calls[i]? = some (.store f) ∧ Step i before after ∧
    after.cache = some f ∧ after.Returned i (.ok f) ∧ Run after s
  /-- What is stored stays, and all later successes return it. -/
  stays : ∀ f s', s.cache = some f → Run s s' →
    s'.cache = some f ∧ ∀ i g, s'.Returned i (.ok g) → g = f
  /-- A call that fails in the end leaves the cache as it was, with each of its steps. -/
  failure : ∀ i e s' s'', Step i s s' → Run s' s'' → s''.Returned i (.error e) →
    s'.cache = s.cache
  /-- A call that begins when a foundation is stored never comes to ask its toolchain: with
  its first step it returns what is stored. -/
  late : ∀ f s', s.cache = some f → Run ⟨s.cache, s.calls ++ [.check]⟩ s' →
    (s'.calls[s.calls.length]? = some .check ∨ s'.Returned s.calls.length (.ok f)) ∧
    ∀ s'', Step s.calls.length s' s'' → s''.Returned s.calls.length (.ok f)

end Lookups

/-! ## Steps -/

/-- **The two ways of a step of a lookup:** it stores what it had located where there was
nothing, or it leaves the cache as it was and succeeds only with what is stored. -/
theorem Lookup.step_cases (answer : Except ToolchainError Path) (listing : Path → Listing)
    (cache : FoundationCache) (l : Lookup) :
    (∃ f, cache = none ∧ l = .store f ∧
      l.step answer listing cache = (some f, .finished (.ok f))) ∨
    (l.step answer listing cache).1 = cache ∧
      ∀ f, (l.step answer listing cache).2 = .finished (.ok f) →
        l = .finished (.ok f) ∨ cache = some f := by
  -- a step that does not finish succeeds with nothing
  have hopen : ∀ {l' : Lookup}, (∀ r, l' ≠ .finished r) → ∀ f, l' = .finished (.ok f) →
      l = .finished (.ok f) ∨ cache = some f := fun hne f h => absurd h (hne _)
  have hstored : ∀ g, cache = some g → ∀ f, Lookup.finished (.ok g) = .finished (.ok f) →
      l = .finished (.ok f) ∨ cache = some f := by
    intro g hg f h
    obtain rfl := Except.ok.inj (Lookup.finished.inj h)
    exact Or.inr hg
  cases l with
  | check =>
    right
    cases cache with
    | none => exact ⟨rfl, hopen (by intro r h; cases h)⟩
    | some g => exact ⟨rfl, hstored g rfl⟩
  | ask =>
    right
    simp only [step]
    cases found answer listing with
    | error e =>
      refine ⟨rfl, ?_⟩
      intro f h
      cases h
    | ok g => exact ⟨rfl, hopen (by intro r h; cases h)⟩
  | store g =>
    cases cache with
    | none => exact Or.inl ⟨g, rfl, rfl, rfl⟩
    | some k => exact Or.inr ⟨rfl, hstored k rfl⟩
  | finished r =>
    refine Or.inr ⟨?_, fun f h => Or.inl ?_⟩
    · simp only [step]
    · simpa only [step] using h

namespace Lookups

variable {s s' s'' : Lookups} {i j : Nat} {f g : Foundation} {r : Except ResolveError Foundation}

theorem getElem?_concat_of_some {calls : List Lookup} {l : Lookup} (h : calls[j]? = some l)
    (l' : Lookup) : (calls ++ [l'])[j]? = some l := by
  rw [List.getElem?_append_left (List.getElem?_eq_some_iff.1 h).1, h]

theorem getElem?_set_of_some {calls : List Lookup} {l : Lookup} (h : calls[i]? = some l)
    (l' : Lookup) : (calls.set i l')[i]? = some l' := by
  rw [List.getElem?_set_self (List.getElem?_eq_some_iff.1 h).1]

/-- **The two ways of a step:** the cache stays as it is, or the call that takes the step
stores the first foundation and returns it. -/
theorem Step.cases (step : Step i s s') :
    s'.cache = s.cache ∨ ∃ f, s.cache = none ∧ s.calls[i]? = some (.store f) ∧
      s'.cache = some f ∧ s'.Returned i (.ok f) := by
  cases step with
  | begin => exact Or.inl rfl
  | @advance answer listing _ _ l call =>
    rcases l.step_cases answer listing s.cache with ⟨f, hnone, rfl, hstep⟩ | ⟨hkept, -⟩
    · rw [hstep]
      exact Or.inr ⟨f, hnone, call, rfl, getElem?_set_of_some call _⟩
    · exact Or.inl hkept

/-- Once a foundation is stored, it stays. -/
theorem Step.cache_of_some (step : Step i s s') (h : s.cache = some f) : s'.cache = some f := by
  rcases step.cases with hkept | ⟨g, hnone, -⟩
  · exact hkept.trans h
  · rw [h] at hnone
    cases hnone

/-- A call that has returned does nothing more, whoever takes a step. -/
theorem Step.returned (step : Step i s s') (h : s.Returned j r) : s'.Returned j r := by
  cases step with
  | begin => exact getElem?_concat_of_some h _
  | @advance answer listing _ _ l call =>
    by_cases hij : i = j
    · subst hij
      obtain rfl := Option.some.inj (call.symm.trans h)
      have hstep : (Lookup.finished r).step answer listing s.cache = (s.cache, .finished r) := by
        simp only [Lookup.step]
      rw [hstep]
      exact getElem?_set_of_some h _
    · exact (List.getElem?_set_ne hij).trans h

/-- **A call that succeeds returns what is stored,** also when it had located another
foundation. -/
theorem Step.success (step : Step i s s') (hs : ∀ f, s.Returned j (.ok f) → s.cache = some f)
    (h : s'.Returned j (.ok f)) : s'.cache = some f := by
  have hstays : s.Returned j (.ok f) → s'.cache = some f := fun hj => step.cache_of_some (hs f hj)
  cases step with
  | begin =>
    -- a call that has just begun has not returned
    have hcall : (s.calls ++ [Lookup.check])[j]? = some (.finished (.ok f)) := h
    rw [List.getElem?_append] at hcall
    split at hcall
    · exact hstays hcall
    · rw [List.getElem?_singleton] at hcall
      split at hcall <;> cases hcall
  | @advance answer listing _ _ l call =>
    by_cases hij : i = j
    · subst hij
      have hresult := Option.some.inj ((getElem?_set_of_some call _).symm.trans h)
      rcases l.step_cases answer listing s.cache with ⟨g, -, -, hstep⟩ | ⟨hkept, hok⟩
      · rw [hstep] at hresult ⊢
        obtain rfl := Except.ok.inj (Lookup.finished.inj hresult)
        rfl
      · rcases hok f hresult with rfl | hcache
        · exact hstays call
        · exact hkept.trans hcache
    · exact hstays ((List.getElem?_set_ne hij).symm.trans h)

/-- A call that finds a foundation stored returns it with its next step. -/
theorem Step.late (step : Step i s s') (hcache : s.cache = some f)
    (h : s.calls[j]? = some .check ∨ s.Returned j (.ok f)) :
    s'.calls[j]? = some .check ∧ j ≠ i ∨ s'.Returned j (.ok f) := by
  rcases h with h | h
  · have hlt := (List.getElem?_eq_some_iff.1 h).1
    cases step with
    | begin => exact Or.inl ⟨getElem?_concat_of_some h _, Nat.ne_of_lt hlt⟩
    | @advance answer listing _ _ l call =>
      by_cases hij : i = j
      · subst hij
        obtain rfl := Option.some.inj (call.symm.trans h)
        right
        rw [hcache]
        exact getElem?_set_of_some h _
      · exact Or.inl ⟨(List.getElem?_set_ne hij).trans h, Ne.symm hij⟩
  · exact Or.inr (step.returned h)

/-! ## Runs -/

theorem Run.trans (run : Run s s') (more : Run s' s'') : Run s s'' := by
  induction more with
  | start => exact run
  | step more last ih => exact ih.step last

theorem Run.cache_of_some (run : Run s s') (h : s.cache = some f) : s'.cache = some f := by
  induction run with
  | start => exact h
  | step run last ih => exact last.cache_of_some ih

theorem Run.returned (run : Run s s') (h : s.Returned j r) : s'.Returned j r := by
  induction run with
  | start => exact h
  | step run last ih => exact last.returned ih

theorem Run.success (run : Run initial s) : ∀ f, s.Returned j (.ok f) → s.cache = some f := by
  induction run with
  | start =>
    intro f h
    cases h
  | step run last ih => exact fun f h => last.success ih h

theorem Run.late (run : Run s s') (hcache : s.cache = some f)
    (h : s.calls[j]? = some .check ∨ s.Returned j (.ok f)) :
    s'.calls[j]? = some .check ∨ s'.Returned j (.ok f) := by
  induction run with
  | start => exact h
  | step run last ih => exact (last.late (run.cache_of_some hcache) ih).imp_left And.left

/-- **What is stored in the end was stored by the one step that found the cache empty.** -/
theorem Run.exists_store (run : Run s s') (hnone : s.cache = none) (hsome : s'.cache = some f) :
    ∃ i before after, Run s before ∧ before.cache = none ∧ before.calls[i]? = some (.store f) ∧
      Step i before after ∧ after.cache = some f ∧ after.Returned i (.ok f) ∧ Run after s' := by
  induction run with
  | start =>
    rw [hnone] at hsome
    cases hsome
  | @step before after i run last ih =>
    rcases last.cases with hkept | ⟨g, hempty, hcall, hstored, hreturned⟩
    · obtain ⟨k, s₁, s₂, hbefore, hempty, hcall, hstep, hstored, hreturned, hafter⟩ :=
        ih (hkept.symm.trans hsome)
      exact ⟨k, s₁, s₂, hbefore, hempty, hcall, hstep, hstored, hreturned, hafter.step last⟩
    · obtain rfl := Option.some.inj (hstored.symm.trans hsome)
      exact ⟨i, before, after, run, hempty, hcall, last, hstored, hreturned, .start after⟩

/-- **All runs of lookups come to the first foundation stored.** -/
theorem Run.firstStored (run : Run initial s) : FirstStored s where
  success i f h := run.success f h
  first f h := run.exists_store rfl h
  stays f s' h more := by
    have hcache := more.cache_of_some h
    refine ⟨hcache, fun i g hg => ?_⟩
    have hstored := (run.trans more).success g hg
    exact Option.some.inj (hstored.symm.trans hcache)
  failure i e s' s'' step more h := by
    rcases step.cases with hkept | ⟨f, -, -, -, hreturned⟩
    · exact hkept
    · -- a call that has stored a foundation has returned it, and does not fail any more
      cases (more.returned hreturned).symm.trans h
  late f s' h more := by
    have hcheck : (s.calls ++ [Lookup.check])[s.calls.length]? = some .check :=
      List.getElem?_concat_length
    have hlate := more.late h (Or.inl hcheck)
    refine ⟨hlate, fun s'' step => ?_⟩
    rcases step.late (more.cache_of_some h) hlate with ⟨-, hne⟩ | hreturned
    · exact absurd rfl hne
    · exact hreturned

/-- The foundation in a small library directory, wherever that is. -/
def sampleIn (libdir : Path) : Foundation :=
  ⟨libdir, [.ofSysroot "core" (libdir.join "libcore-1a.rlib"),
    .ofSysroot "std" (libdir.join "libstd-2b.rlib")]⟩

theorem inDirectory_sampleIn (libdir : Path) :
    Foundation.inDirectory libdir Foundation.sampleListing = .ok (sampleIn libdir) := by
  have hcore : findLibrary? libdir Foundation.sampleListing "core" =
      some (libdir.join "libcore-1a.rlib") := by
    have hleast : leastName? (([Utf8.bytes "libstd-2b.rlib", Utf8.bytes "libcore-1a.rlib"].filterMap
        fun name => (Utf8.strict? name).map String.ofList).filter (isLibraryOf "core")) =
          some "libcore-1a.rlib" := by decide +kernel
    simp only [findLibrary?, Foundation.sampleListing, Option.bind_eq_bind, Option.bind_some,
      Option.pure_def, hleast]
  have hstd : findLibrary? libdir Foundation.sampleListing "std" =
      some (libdir.join "libstd-2b.rlib") := by
    have hleast : leastName? (([Utf8.bytes "libstd-2b.rlib", Utf8.bytes "libcore-1a.rlib"].filterMap
        fun name => (Utf8.strict? name).map String.ofList).filter (isLibraryOf "std")) =
          some "libstd-2b.rlib" := by decide +kernel
    simp only [findLibrary?, Foundation.sampleListing, Option.bind_eq_bind, Option.bind_some,
      Option.pure_def, hleast]
  exact Foundation.inDirectory_eq_ok_iff.2 ⟨_, _, hcore, hstd, rfl⟩

theorem Step.of_eq (answer : Except ToolchainError Path) (listing : Path → Listing)
    {l l' : Lookup} {cache : FoundationCache} (call : s.calls[i]? = some l)
    (h : l.step answer listing s.cache = (cache, l')) : Step i s ⟨cache, s.calls.set i l'⟩ := by
  have hstep := Step.advance answer listing call
  rwa [h] at hstep

/-- Three callers find the cache empty. The second overtakes the first, which has located
another foundation, and the third has no toolchain. The fourth comes when all is done. -/
def overtaken : Lookups :=
  ⟨some (sampleIn ⟨"second"⟩),
    [.finished (.ok (sampleIn ⟨"second"⟩)), .finished (.ok (sampleIn ⟨"second"⟩)),
      .finished (Lookup.found (.error (.spawn "rustc" "absent")) fun _ => none),
      .finished (.ok (sampleIn ⟨"second"⟩))]⟩

theorem run_overtaken : Run initial overtaken := by
  let listing : Path → Listing := fun _ => Foundation.sampleListing
  let first : Except ToolchainError Path := .ok ⟨"first"⟩
  let second : Except ToolchainError Path := .ok ⟨"second"⟩
  let third : Except ToolchainError Path := .error (.spawn "rustc" "absent")
  have hask : ∀ libdir, Lookup.ask.step (.ok libdir) listing none =
      (none, .store (sampleIn libdir)) := by
    intro libdir
    have hfound : Lookup.found (.ok libdir) listing = .ok (sampleIn libdir) :=
      inDirectory_sampleIn libdir
    simp only [Lookup.step, hfound]
  let stored : FoundationCache := some (sampleIn ⟨"second"⟩)
  have hbegun : Run initial ⟨none, [.check, .check, .check]⟩ :=
    (((Run.start _).step (.begin _)).step (.begin _)).step (.begin _)
  have hchecked : Run initial ⟨none, [.ask, .ask, .ask]⟩ :=
    ((hbegun.step (.of_eq first listing (i := 0) (l := .check) rfl rfl)).step
      (.of_eq second listing (i := 1) (l := .check) rfl rfl)).step
      (.of_eq third listing (i := 2) (l := .check) rfl rfl)
  have hlocated : Run initial
      ⟨none, [.store (sampleIn ⟨"first"⟩), .store (sampleIn ⟨"second"⟩), .ask]⟩ :=
    (hchecked.step (.of_eq second listing (i := 1) rfl (hask _))).step
      (.of_eq first listing (i := 0) rfl (hask _))
  have hreturned : Run initial ⟨stored, [.finished (.ok (sampleIn ⟨"second"⟩)),
      .finished (.ok (sampleIn ⟨"second"⟩)), .finished (Lookup.found third listing)]⟩ :=
    ((hlocated.step (.of_eq second listing (i := 1) (l := .store _) rfl rfl)).step
      (.of_eq first listing (i := 0) (l := .store _) rfl rfl)).step
      (.of_eq third listing (i := 2) (l := .ask) rfl rfl)
  exact (hreturned.step (.begin _)).step (.of_eq first listing (i := 3) (l := .check) rfl rfl)

theorem firstStored_overtaken : Run initial overtaken ∧ overtaken.FirstStored :=
  ⟨run_overtaken, run_overtaken.firstStored⟩

/-- A step of the call that was begun last. -/
theorem step_last (answer : Except ToolchainError Path) (listing : Path → Listing)
    (cache : FoundationCache) (calls : List Lookup) (l : Lookup) :
    Step calls.length ⟨cache, calls ++ [l]⟩
      ⟨(l.step answer listing cache).1, calls ++ [(l.step answer listing cache).2]⟩ := by
  have hlast : (calls ++ [l])[calls.length]? = some l := List.getElem?_concat_length
  have hstep := Step.advance answer listing (s := ⟨cache, calls ++ [l]⟩) hlast
  rwa [List.set_append_right _ _ (Nat.le_refl _), Nat.sub_self] at hstep

theorem run_steps (answer : Except ToolchainError Path) (listing : Path → Listing)
    (calls : List Lookup) (n : Nat) : ∀ (cache : FoundationCache) (l : Lookup),
    Run ⟨cache, calls ++ [l]⟩ ⟨(Lookup.steps answer listing n (cache, l)).1,
      calls ++ [(Lookup.steps answer listing n (cache, l)).2]⟩ := by
  induction n with
  | zero => exact fun cache l => .start _
  | succ n ih =>
    intro cache l
    have hfirst := (Run.start _).step (step_last answer listing cache calls l)
    exact hfirst.trans (ih _ _)

/-- **A lookup that nobody interrupts** is a beginning and three steps. -/
theorem run_obtain (s : Lookups) (answer : Except ToolchainError Path) (listing : Path → Listing) :
    Run s ⟨(s.cache.obtain answer listing).cache,
      s.calls ++ [.finished (s.cache.obtain answer listing).result]⟩ := by
  have hsteps := run_steps answer listing s.calls 3 s.cache .check
  rw [Lookup.steps_check] at hsteps
  exact ((Run.start s).step (.begin s)).trans hsteps

end Lookups

end ExprHost
