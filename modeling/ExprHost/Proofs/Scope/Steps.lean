import ExprHost.Evaluator
import ExprHost.Proofs.Scope.Loading
import Mathlib.Logic.Relation

/-!
# Scopes step by step

Loading a scope, ending it and evaluating an expression take several steps, and other calls can
act between them. Here each is a machine that says what its next step is, if it has not returned;
taken without a break, the steps come to what the functions give.

* `Loading.next`: a dependency opened, the image staged, opened, counted.
* `Releasing.next`: the library taken and closed, its file removed, the scope not counted any more.
* `Ending.next`: an unloading with the drop that follows it, or a drop.
* `Evaluating.next`: a compilation, a load, and the unloading that follows the value.
* `Loading.leads_load`, `Ending.leads_unload`, `Ending.leads_drop`, `Evaluating.leads_evaluate`:
  **steps without a break are the functions.**
-/

namespace ExprHost

variable {V : Type}

/-- What the steps of a machine lead to if nobody acts between them. -/
def Leads {S : Type} (next : S → Host → Option (S × Host)) : S × Host → S × Host → Prop :=
  Relation.ReflTransGen fun a b => next a.1 a.2 = some b

/-- Where a load stands. -/
inductive Loading (V : Type)
  /-- Some dependencies have to be opened before the image is staged. -/
  | opening (names : List String)
  /-- The image is in a file, from which it has to be opened. -/
  | staged (loc : Location)
  /-- The image is open, and the scope has to be counted. -/
  | opened (library : Library V) (loc : Location)
  | failed (e : LoadError)
  | loaded (library : Library V) (loc : Location)

/-- Where a release stands. -/
inductive Releasing (V : Type)
  | begun (s : Scope V)
  /-- The library has been taken out of the scope, and has to be closed. -/
  | closing (library : Library V) (loc : Location)
  /-- The library is closed, however that went, and its file has to be removed. -/
  | removing (result : Except LoadError Unit) (loc : Location)
  /-- The scope still counts. -/
  | counted (result : Except LoadError Unit) (loc : Location)
  | released (result : Except LoadError Unit) (loc : Location)

/-- Where the end of a scope stands. -/
inductive Ending (V : Type)
  /-- The holder wishes to learn how it goes. -/
  | unloading (r : Releasing V)
  /-- Nobody holds the scope any more. If it was unloaded before, its holder has been told how
  that went. -/
  | dropping (told : Option (Except LoadError Unit)) (r : Releasing V)
  | finished (told : Option (Except LoadError Unit))

/-- Where an evaluation stands. -/
inductive Evaluating (V : Type)
  | compiling (r : Request)
  | loading (image : Image) (l : Loading V)
  /-- What the expression came to is known, and its scope has to be unloaded. -/
  | ending (value : Except EvalError V) (e : Ending V)
  /-- There was no scope to take a value from. -/
  | failed (e : EvalError)
  | returned (value : Except EvalError V)

/-! ## The machines -/

/-- What staging the image comes to. -/
def Loading.ofStage (h : Host) : Except String (Location × Host) → Loading V × Host
  | .error words => (.failed (.cannotStage words), h)
  | .ok (loc, after) => (.staged loc, after)

/-- **The next step of a load.** -/
def Loading.next (linker : Linker V) (loader : DependencyLoader) (dir : Option Path)
    (image : Image) : Loading V → Host → Option (Loading V × Host)
  | .opening (name :: rest), h =>
    match loader name with
    | none => some (.failed (.unresolvedDependency name), h)
    | some path =>
      match Scope.openDependency linker h path with
      | .error os => some (.failed (.cannotOpen os), h)
      | .ok () => some (.opening rest, h)
  | .opening [], h => some (ofStage h (h.stage dir image.bytes))
  | .staged loc, h =>
    match linker image.bytes with
    | .error os => some (.failed (.cannotOpen os), h.remove loc)
    | .ok library => some (.opened library loc, h)
  | .opened library loc, h => some (.loaded library loc, { h with live := h.live + 1 })
  | .failed _, _ => none
  | .loaded _ _, _ => none

/-- What a load has returned. -/
def Loading.result? : Loading V → Option (Except LoadError (Scope V))
  | .failed e => some (.error e)
  | .loaded library loc => some (.ok ⟨some library, loc⟩)
  | _ => none

/-- **The next step of a release.** What has been taken out of a scope is not taken again. -/
def Releasing.next : Releasing V → Host → Option (Releasing V × Host)
  | .begun ⟨none, loc⟩, h => some (.released (.ok ()) loc, h)
  | .begun ⟨some library, loc⟩, h => some (.closing library loc, h)
  | .closing library loc, h =>
    let result := match library.closing with
      | .ok () => .ok ()
      | .error os => .error (.cannotClose os)
    some (.removing result loc, h)
  | .removing result loc, h => some (.counted result loc, h.remove loc)
  | .counted result loc, h => some (.released result loc, { h with live := h.live - 1 })
  | .released _ _, _ => none

/-- **The next step of the end of a scope.** What an unloading has left is dropped. -/
def Ending.next : Ending V → Host → Option (Ending V × Host)
  | .unloading (.released result loc), h =>
    some (.dropping (some result) (.begun ⟨none, loc⟩), h)
  | .unloading r, h => (r.next h).map fun (r, h) => (.unloading r, h)
  | .dropping told (.released _ _), h => some (.finished told, h)
  | .dropping told r, h => (r.next h).map fun (r, h) => (.dropping told r, h)
  | .finished _, _ => none

/-- **The next step of an evaluation.** -/
def Evaluating.next (ev : Evaluator) (toolchain : Toolchain) (linker : Linker V) :
    Evaluating V → Host → Option (Evaluating V × Host)
  | .compiling r, h =>
    match toolchain.compile r h with
    | (.error e, h) => some (.failed (.toolchain e), h)
    | (.ok compilation, h) =>
      match compilation.outcome with
      | .error e => some (.failed e, h)
      | .ok image => some (.loading image (.opening image.dependencies), h)
  | .loading _ (.failed e), h => some (.failed (.load e), h)
  | .loading _ (.loaded library loc), h =>
    some (.ending library.extract (.unloading (.begun ⟨some library, loc⟩)), h)
  | .loading image l, h =>
    (l.next linker unresolvable ev.stagingDir image h).map fun (l, h) => (.loading image l, h)
  | .ending value (.finished _), h => some (.returned value, h)
  | .ending value e, h => (e.next h).map fun (e, h) => (.ending value e, h)
  | .failed _, _ => none
  | .returned _, _ => none

/-- What an evaluation has returned. -/
def Evaluating.result? : Evaluating V → Option (Except EvalError V)
  | .failed e => some (.error e)
  | .returned value => some value
  | _ => none

/-! ## No machine gets stuck -/

/-- A load has a next step until it has returned. -/
theorem Loading.next_eq_none_iff {linker : Linker V} {loader : DependencyLoader}
    {dir : Option Path} {image : Image} {l : Loading V} {h : Host} :
    l.next linker loader dir image h = none ↔ l.result?.isSome = true := by
  cases l with
  | opening names =>
    refine iff_of_false ?_ Bool.false_ne_true
    cases names with
    | nil => exact Option.some_ne_none _
    | cons name rest =>
      simp only [next]
      split
      · simp
      · split <;> simp
  | staged loc =>
    refine iff_of_false ?_ Bool.false_ne_true
    simp only [next]
    split <;> simp
  | opened library loc => exact iff_of_false (Option.some_ne_none _) Bool.false_ne_true
  | failed e => exact iff_of_true rfl rfl
  | loaded library loc => exact iff_of_true rfl rfl

/-- A release has a next step until the scope is released. -/
theorem Releasing.next_eq_none_iff {r : Releasing V} {h : Host} :
    r.next h = none ↔ ∃ result loc, r = .released result loc := by
  cases r with
  | begun s =>
    obtain ⟨library, loc⟩ := s
    cases library <;> simp [next]
  | _ => simp [next]

/-- The end of a scope has a next step until it is finished. -/
theorem Ending.next_eq_none_iff {e : Ending V} {h : Host} :
    e.next h = none ↔ ∃ told, e = .finished told := by
  have hstuck : ∀ {r : Releasing V}, (∀ result loc, r ≠ .released result loc) →
      r.next h ≠ none := by
    intro r hr hnone
    obtain ⟨result, loc, rfl⟩ := Releasing.next_eq_none_iff.1 hnone
    exact hr result loc rfl
  cases e with
  | unloading r =>
    cases r with
    | released => simp [next]
    | _ => simp [next, hstuck]
  | dropping told r =>
    cases r with
    | released => simp [next]
    | _ => simp [next, hstuck]
  | finished told => simp [next]

/-- An evaluation has a next step until it has returned. -/
theorem Evaluating.next_eq_none_iff {ev : Evaluator} {toolchain : Toolchain} {linker : Linker V}
    {s : Evaluating V} {h : Host} :
    s.next ev toolchain linker h = none ↔ s.result?.isSome = true := by
  cases s with
  | compiling r =>
    refine iff_of_false ?_ Bool.false_ne_true
    simp only [next]
    split
    · simp
    · split <;> simp
  | loading image l =>
    refine iff_of_false ?_ Bool.false_ne_true
    cases l with
    | failed e => simp [next]
    | loaded library loc => simp [next]
    | _ => simp [next, Loading.next_eq_none_iff, Loading.result?]
  | ending value e =>
    refine iff_of_false ?_ Bool.false_ne_true
    cases e with
    | finished told => simp [next]
    | _ => simp [next, Ending.next_eq_none_iff]
  | failed e => exact iff_of_true rfl rfl
  | returned value => exact iff_of_true rfl rfl

/-! ## Steps without a break -/

namespace Leads

variable {S T : Type} {next : S → Host → Option (S × Host)} {next' : T → Host → Option (T × Host)}

theorem refl (a : S × Host) : Leads next a a := Relation.ReflTransGen.refl

theorem head {a b c : S × Host} (h : next a.1 a.2 = some b) (hbc : Leads next b c) :
    Leads next a c := Relation.ReflTransGen.head h hbc

theorem trans {a b c : S × Host} (hab : Leads next a b) (hbc : Leads next b c) : Leads next a c :=
  Relation.ReflTransGen.trans hab hbc

/-- The steps of a machine inside another one. -/
theorem map (f : S → T) {a b : S × Host} (h : Leads next a b)
    (hf : ∀ s h s' h', next s h = some (s', h') → next' (f s) h = some (f s', h')) :
    Leads next' (f a.1, a.2) (f b.1, b.2) := by
  induction h with
  | refl => exact .refl _
  | tail _ hstep ih => exact Relation.ReflTransGen.tail ih (hf _ _ _ _ hstep)

end Leads

namespace Loading

variable (linker : Linker V) (loader : DependencyLoader) (dir : Option Path) (image : Image)

theorem leads_openDependencies (h : Host) (names : List String) :
    Leads (next linker loader dir image) (.opening names, h)
      (match Scope.openDependencies linker loader h names with
        | .error e => .failed e
        | .ok () => .opening [], h) := by
  induction names with
  | nil => exact .refl _
  | cons name rest ih =>
    rw [Scope.openDependencies]
    cases hloader : loader name with
    | none => exact .head (by simp only [next, hloader]) (.refl _)
    | some path =>
      simp only
      cases hopen : Scope.openDependency linker h path with
      | error os => exact .head (by simp only [next, hloader, hopen]) (.refl _)
      | ok u => exact .head (by simp only [next, hloader, hopen]) ih

/-- **The steps of a load without a break.** -/
theorem leads_load (h : Host) : ∃ l : Loading V,
    Leads (next linker loader dir image) (.opening image.dependencies, h)
      (l, (Scope.load linker loader dir image h).2) ∧
    l.result? = some (Scope.load linker loader dir image h).1 := by
  have hdeps := leads_openDependencies linker loader dir image h image.dependencies
  unfold Scope.load
  cases hopen : Scope.openDependencies linker loader h image.dependencies with
  | error e =>
    rw [hopen] at hdeps
    exact ⟨.failed e, hdeps, rfl⟩
  | ok u =>
    rw [hopen] at hdeps
    cases hstage : h.stage dir image.bytes with
    | error words =>
      exact ⟨.failed (.cannotStage words),
        hdeps.trans (.head (by simp only [next, hstage, ofStage]) (.refl _)), rfl⟩
    | ok found =>
      obtain ⟨loc, staged⟩ := found
      have hstaged : Leads (next linker loader dir image) (.opening image.dependencies, h)
          (.staged loc, staged) :=
        hdeps.trans (.head (by simp only [next, hstage, ofStage]) (.refl _))
      cases hlink : linker image.bytes with
      | error os =>
        exact ⟨.failed (.cannotOpen os),
          hstaged.trans (.head (by simp only [next, hlink]) (.refl _)), rfl⟩
      | ok library =>
        have hopened : next linker loader dir image (.staged loc) staged =
            some (.opened library loc, staged) := by
          simp only [next, hlink]
        exact ⟨.loaded library loc, hstaged.trans (.head hopened (.head rfl (.refl _))), rfl⟩

end Loading

/-- **The steps of a release without a break.** -/
theorem Releasing.leads_release (s : Scope V) (h : Host) :
    Leads next (.begun s, h) (.released (s.release h).1 s.staged, (s.release h).2.2) := by
  obtain ⟨library, loc⟩ := s
  cases library with
  | none => exact .head rfl (.refl _)
  | some library => exact .head rfl (.head rfl (.head rfl (.head rfl (.refl _))))

namespace Ending

theorem next_unloading {r r' : Releasing V} {h h' : Host} (hr : r.next h = some (r', h')) :
    (unloading r).next h = some (.unloading r', h') := by
  cases r with
  | released => cases hr
  | _ => simp only [next, hr, Option.map_some]

theorem next_dropping (told : Option (Except LoadError Unit)) {r r' : Releasing V} {h h' : Host}
    (hr : r.next h = some (r', h')) : (dropping told r).next h = some (.dropping told r', h') := by
  cases r with
  | released => cases hr
  | _ => simp only [next, hr, Option.map_some]

/-- **The steps of a drop without a break.** -/
theorem leads_drop (told : Option (Except LoadError Unit)) (s : Scope V) (h : Host) :
    Leads next (.dropping told (.begun s), h) (.finished told, s.drop h) := by
  have hrelease := (Releasing.leads_release s h).map (dropping told)
    fun _ _ _ _ hr => next_dropping told hr
  exact hrelease.trans (.head rfl (.refl _))

/-- **The steps of an unloading without a break.** -/
theorem leads_unload (s : Scope V) (h : Host) :
    Leads next (.unloading (.begun s), h) (.finished (some (s.unload h).1), (s.unload h).2) := by
  have hrelease := (Releasing.leads_release s h).map unloading fun _ _ _ _ hr => next_unloading hr
  have hleft : (s.release h).2.1 = ⟨none, s.staged⟩ := by
    obtain ⟨library, loc⟩ := s
    cases library <;> rfl
  have hdrop := leads_drop (some (s.release h).1) (s.release h).2.1 (s.release h).2.2
  refine hrelease.trans (.head ?_ hdrop)
  rw [hleft]
  rfl

end Ending

namespace Evaluating

variable (ev : Evaluator) (toolchain : Toolchain) (linker : Linker V)

theorem next_loading (image : Image) {l l' : Loading V} {h h' : Host}
    (hl : l.next linker unresolvable ev.stagingDir image h = some (l', h')) :
    (loading image l).next ev toolchain linker h = some (.loading image l', h') := by
  cases l with
  | failed => cases hl
  | loaded => cases hl
  | _ => simp only [next, hl, Option.map_some]

theorem next_ending (value : Except EvalError V) {e e' : Ending V} {h h' : Host}
    (he : e.next h = some (e', h')) :
    (ending value e).next ev toolchain linker h = some (.ending value e', h') := by
  cases e with
  | finished => cases he
  | _ => simp only [next, he, Option.map_some]

/-- The steps that follow a compilation, without a break. -/
theorem leads_valueOf (image : Image) (h : Host) : ∃ s : Evaluating V,
    Leads (next ev toolchain linker) (.loading image (.opening image.dependencies), h)
      (s, (ev.valueOf linker image h).2) ∧
    s.result? = some (ev.valueOf linker image h).1 := by
  obtain ⟨l, hl, hresult⟩ := Loading.leads_load linker unresolvable ev.stagingDir image h
  unfold Evaluator.valueOf
  rcases hfound : Scope.load linker unresolvable ev.stagingDir image h with ⟨r, h'⟩
  rw [hfound] at hl hresult
  have hload := hl.map (loading image) fun _ _ _ _ h => next_loading ev toolchain linker image h
  cases l with
  | opening | staged | opened => cases hresult
  | failed e =>
    obtain rfl := Option.some.inj hresult
    exact ⟨.failed (.load e), hload.trans (.head rfl (.refl _)), rfl⟩
  | loaded library loc =>
    obtain rfl := Option.some.inj hresult
    have hunload := (Ending.leads_unload ⟨some library, loc⟩ h').map (ending library.extract)
      fun _ _ _ _ he => next_ending ev toolchain linker _ he
    exact ⟨.returned library.extract,
      hload.trans (.head rfl (hunload.trans (.head rfl (.refl _)))), rfl⟩

/-- **The steps of an evaluation without a break.** -/
theorem leads_evaluate (t : HostType) (expression : String) (h : Host) : ∃ s : Evaluating V,
    Leads (next ev toolchain linker)
      (.compiling (ev.request t expression h).1, (ev.request t expression h).2)
      (s, (ev.evaluate toolchain linker t expression h).2) ∧
    s.result? = some (ev.evaluate toolchain linker t expression h).1 := by
  unfold Evaluator.evaluate
  simp only
  cases hcompile : toolchain.compile (ev.request t expression h).1
      (ev.request t expression h).2 with
  | mk result after =>
    cases result with
    | error e =>
      exact ⟨.failed (.toolchain e), .head (by simp only [next, hcompile]) (.refl _), rfl⟩
    | ok compilation =>
      simp only
      cases houtcome : compilation.outcome with
      | error e =>
        exact ⟨.failed e, .head (by simp only [next, hcompile, houtcome]) (.refl _), rfl⟩
      | ok image =>
        obtain ⟨s, hleads, hresult⟩ := leads_valueOf ev toolchain linker image after
        exact ⟨s, .head (by simp only [next, hcompile, houtcome]) hleads, hresult⟩

end Evaluating

end ExprHost
