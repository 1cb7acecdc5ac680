import ExprHost.Host.Numbered
import ExprHost.Proofs.Scope.Counting

/-!
# Live scopes

All calls of a process that load or end scopes share one count, and act in any order. The count is
the number of scopes that have been loaded and not yet released, whoever acts when.

* `Scopes.Step`, `Scopes.Run`: the steps of any number of calls, with the changes of the count
  that they make.
* `Scopes.Call.next_entries`: what a step of a call does to the count is what becomes of its scope.
* `Scopes.Balanced`: the count, and what each call has done to it.
* `Scopes.Sequential`: calls that are made without a break.
* `Scopes.Run.balanced`: **every run is balanced.**
-/

namespace ExprHost

variable {V : Type}

/-- What calls find around them when they go on. -/
structure Surroundings (V : Type) where
  toolchain : Toolchain
  linker : Linker V
  loader : DependencyLoader
  neutral : toolchain.Neutral

/-! ## The calls of a process -/

/-- A call that was made in a process: a load, which becomes the end of its scope when the holder
gives that up, or an evaluation. -/
inductive Scopes.Call (V : Type)
  | loading (dir : Option Path) (image : Image) (l : Loading V)
  | ending (e : Ending V)
  | evaluating (ev : Evaluator) (s : Evaluating V)

namespace Scopes.Call

/-- **The next step of a call.** -/
def next (around : Surroundings V) : Call V → Host → Option (Call V × Host)
  | .loading dir image l, h =>
    (l.next around.linker around.loader dir image h).map fun (l, h) => (.loading dir image l, h)
  | .ending e, h => (e.next h).map fun (e, h) => (.ending e, h)
  | .evaluating ev s, h =>
    (s.next ev around.toolchain around.linker h).map fun (s, h) => (.evaluating ev s, h)

/-- Whether a call has loaded a scope that is not yet released. -/
def isLive : Call V → Bool
  | .loading _ _ l => l.isLive
  | .ending e => e.isLive
  | .evaluating _ s => s.isLive

/-- The changes that a call has made to the count. -/
def entries : Call V → List Int
  | .loading _ _ l => l.entries
  | .ending e => e.entries
  | .evaluating _ s => s.entries

/-- **What a step does to the count is what becomes of its scope.** -/
theorem next_entries {around : Surroundings V} {c c' : Call V} {h h' : Host}
    (hc : c.next around h = some (c', h')) :
    c'.entries = c.entries ++ h.counted h' := by
  cases c with
  | loading dir image l =>
    obtain ⟨⟨l', after⟩, hl, heq⟩ := Option.map_eq_some_iff.1 hc
    cases heq
    exact Loading.next_entries hl
  | ending e =>
    obtain ⟨⟨e', after⟩, he, heq⟩ := Option.map_eq_some_iff.1 hc
    cases heq
    exact Ending.next_entries he
  | evaluating ev s =>
    obtain ⟨⟨s', after⟩, hs, heq⟩ := Option.map_eq_some_iff.1 hc
    cases heq
    exact Evaluating.next_entries around.neutral hs

/-- What a call has counted in all is whether its scope is live. -/
theorem sum_entries (c : Call V) : c.entries.sum = if c.isLive then 1 else 0 := by
  have hend : ∀ e : Ending V, e.entries.sum = if e.isLive then 1 else 0 := by
    intro e
    unfold Ending.entries
    cases e.isLive <;> rfl
  have hload : ∀ l : Loading V, l.entries.sum = if l.isLive then 1 else 0 := by
    intro l
    unfold Loading.entries
    cases l.isLive <;> rfl
  cases c with
  | loading dir image l => exact hload l
  | ending e => exact hend e
  | evaluating ev s =>
    cases s with
    | loading image l => exact hload l
    | ending value e => exact hend e
    | compiling | failed | returned => rfl

end Scopes.Call

/-- A process with all the calls that were made in it, in the order of their beginnings. -/
structure Scopes (V : Type) where
  host : Host
  calls : List (Scopes.Call V)

/-- The changes of the count, each with the position of the call that made it. -/
abbrev Ledger := List (Nat × Int)

/-- The changes that one call has made. -/
def Ledger.of (ledger : Ledger) (i : Nat) : List Int := (ledger.filter (·.1 = i)).map (·.2)

theorem Ledger.of_append (ledger more : Ledger) (i : Nat) :
    Ledger.of (ledger ++ more) i = ledger.of i ++ more.of i := by
  simp [of]

theorem Ledger.of_map_self (changes : List Int) (i : Nat) :
    Ledger.of (changes.map (i, ·)) i = changes := by
  simp [of, List.filter_map, Function.comp_def]

theorem Ledger.of_map_of_ne (changes : List Int) {i j : Nat} (h : i ≠ j) :
    Ledger.of (changes.map (i, ·)) j = [] := by
  simp [of, List.filter_map, Function.comp_def, h]

namespace Scopes

/-- A process that has loaded nothing yet. -/
def initial (h : Host) : Scopes V := ⟨{ h with live := 0 }, []⟩

/-- **A step of a process,** with the changes of the count. What calls find around them, and all of
the host but its count, can be different each time. -/
inductive Step : Ledger → Scopes V → Scopes V → Prop
  | load (dir : Option Path) (image : Image) {p : Scopes V} :
      Step [] p ⟨p.host, p.calls ++ [.loading dir image (.opening image.dependencies)]⟩
  | evaluate (ev : Evaluator) (t : HostType) (expression : String) {p : Scopes V} :
      Step [] p ⟨(ev.request t expression p.host).2,
        p.calls ++ [.evaluating ev (.compiling (ev.request t expression p.host).1)]⟩
  /-- The holder of a loaded scope gives it up. -/
  | unload {p : Scopes V} {i : Nat} {dir : Option Path} {image : Image} {library : Library V}
      {loc : Location} (held : p.calls[i]? = some (.loading dir image (.loaded library loc))) :
      Step [] p ⟨p.host, p.calls.set i (.ending (.unloading (.begun ⟨some library, loc⟩)))⟩
  | drop {p : Scopes V} {i : Nat} {dir : Option Path} {image : Image} {library : Library V}
      {loc : Location} (held : p.calls[i]? = some (.loading dir image (.loaded library loc))) :
      Step [] p ⟨p.host, p.calls.set i (.ending (.dropping none (.begun ⟨some library, loc⟩)))⟩
  /-- A call goes on. -/
  | advance (around : Surroundings V) {p : Scopes V} {i : Nat} {c c' : Call V} {h : Host}
      (call : p.calls[i]? = some c) (next : c.next around p.host = some (c', h)) :
      Step ((p.host.counted h).map (i, ·)) p ⟨h, p.calls.set i c'⟩
  /-- Something else happens in the process. -/
  | elsewhere {p : Scopes V} {h : Host} (same : h.live = p.host.live) : Step [] p ⟨h, p.calls⟩

/-- **Steps of any calls in any order,** with the changes of the count in their order. -/
inductive Run : Ledger → Scopes V → Scopes V → Prop
  | start (p : Scopes V) : Run [] p p
  | step {ledger more : Ledger} {p p' p'' : Scopes V} (run : Run ledger p p')
      (last : Step more p' p'') : Run (ledger ++ more) p p''

/-- The count is the number of live scopes, and each call has changed it as is due. -/
structure Counted (ledger : Ledger) (p : Scopes V) : Prop where
  live : p.host.live = p.calls.countP (·.isLive)
  entries : ∀ i c, p.calls[i]? = some c → ledger.of i = c.entries
  unknown : ∀ i, p.calls.length ≤ i → ledger.of i = []

variable {ledger more : Ledger} {p p' p'' : Scopes V}

/-- A call that has changed nothing comes in. -/
theorem Counted.append (hp : Counted ledger p) {c : Call V} {h : Host}
    (hlive : h.live = p.host.live) (hnew : c.entries = []) :
    Counted ledger ⟨h, p.calls ++ [c]⟩ where
  live := by
    have hdead : c.isLive = false := by
      have hsum := c.sum_entries
      rw [hnew] at hsum
      cases hc : c.isLive with
      | false => rfl
      | true =>
        rw [hc] at hsum
        cases hsum
    rw [hlive, hp.live, List.countP_append, List.countP_singleton]
    simp [hdead]
  entries := by
    intro i d hd
    have hcall : (p.calls ++ [c])[i]? = some d := hd
    rw [List.getElem?_append] at hcall
    split at hcall
    · exact hp.entries i d hcall
    · -- the call at a position that was not taken is the new one
      rename_i hi
      rw [List.getElem?_singleton] at hcall
      split at hcall
      · obtain rfl := Option.some.inj hcall
        rw [hp.unknown i (Nat.le_of_not_lt hi), hnew]
      · cases hcall
  unknown := by
    intro i hi
    rw [List.length_append] at hi
    exact hp.unknown i (Nat.le_of_add_right_le hi)

theorem countP_isLive_set {calls : List (Call V)} {i : Nat} {c : Call V}
    (call : calls[i]? = some c) (c' : Call V) :
    (calls.set i c').countP (·.isLive) + (if c.isLive then 1 else 0) =
      calls.countP (·.isLive) + (if c'.isLive then 1 else 0) := by
  obtain ⟨hi, rfl⟩ := List.getElem?_eq_some_iff.1 call
  have hcounted : (if calls[i].isLive then 1 else 0) ≤ calls.countP (·.isLive) := by
    split
    · exact List.countP_pos_iff.2 ⟨_, List.getElem_mem hi, ‹_›⟩
    · exact Nat.zero_le _
  rw [List.countP_set hi]
  omega

/-- A call goes on, and the count with it. -/
theorem Counted.set (hp : Counted ledger p) {i : Nat} {c c' : Call V} {h : Host}
    (call : p.calls[i]? = some c) (hc : c'.entries = c.entries ++ p.host.counted h) :
    Counted (ledger ++ (p.host.counted h).map (i, ·)) ⟨h, p.calls.set i c'⟩ where
  live := by
    -- the sums of the changes say how the live scopes differ
    have hsum := congrArg List.sum hc
    rw [List.sum_append, Host.sum_counted, c.sum_entries, c'.sum_entries] at hsum
    have hcount := countP_isLive_set call c'
    have hlive := hp.live
    cases hold : c.isLive <;> cases hnew : c'.isLive <;>
      simp only [hold, hnew, Bool.false_eq_true, if_true, if_false] at hsum hcount ⊢ <;> omega
  entries := by
    intro j d hd
    rw [Ledger.of_append]
    by_cases hij : i = j
    · subst hij
      have hset := List.getElem?_set_self (List.getElem?_eq_some_iff.1 call).1 (a := c')
      obtain rfl := Option.some.inj (hset.symm.trans hd)
      rw [hp.entries i c call, Ledger.of_map_self, hc]
    · rw [Ledger.of_map_of_ne _ hij, List.append_nil]
      exact hp.entries j d ((List.getElem?_set_ne hij).symm.trans hd)
  unknown := by
    intro j hj
    rw [List.length_set] at hj
    have hij : i ≠ j := Nat.ne_of_lt (Nat.lt_of_lt_of_le (List.getElem?_eq_some_iff.1 call).1 hj)
    rw [Ledger.of_append, Ledger.of_map_of_ne _ hij, hp.unknown j hj]
    rfl

/-- A call turns into another one, and the count stays. -/
theorem Counted.turn (hp : Counted ledger p) {i : Nat} {c c' : Call V}
    (call : p.calls[i]? = some c) (hc : c'.entries = c.entries) :
    Counted ledger ⟨p.host, p.calls.set i c'⟩ := by
  have hnone : p.host.counted p.host = [] := Host.counted_of_eq rfl
  have hset := hp.set call (h := p.host) (hc.trans (by rw [hnone, List.append_nil]))
  rwa [hnone, List.map_nil, List.append_nil] at hset

/-- **Every step keeps the account.** -/
theorem Step.counted (step : Step more p p') (hp : Counted ledger p) :
    Counted (ledger ++ more) p' := by
  cases step with
  | load dir image =>
    rw [List.append_nil]
    exact hp.append rfl rfl
  | evaluate ev t expression =>
    rw [List.append_nil]
    exact hp.append rfl rfl
  | unload held =>
    rw [List.append_nil]
    exact hp.turn held rfl
  | drop held =>
    rw [List.append_nil]
    exact hp.turn held rfl
  | advance around call next => exact hp.set call (Call.next_entries next)
  | elsewhere same =>
    rw [List.append_nil]
    exact ⟨same.trans hp.live, hp.entries, hp.unknown⟩

/-- **Every run keeps the account.** -/
theorem Run.counted (run : Run more p p') {before : Ledger} (hp : Counted before p) :
    Counted (before ++ more) p' := by
  induction run with
  | start =>
    rw [List.append_nil]
    exact hp
  | step run last ih =>
    rw [← List.append_assoc]
    exact last.counted (ih hp)

theorem counted_initial (h : Host) : Counted [] (initial h : Scopes V) where
  live := rfl
  entries := by
    intro i c hc
    cases hc
  unknown := fun _ _ => rfl

/-! ## Calls without a break -/

theorem Run.trans (run : Run ledger p p') (last : Run more p' p'') :
    Run (ledger ++ more) p p'' := by
  induction last with
  | start =>
    rw [List.append_nil]
    exact run
  | step last step ih =>
    rw [← List.append_assoc]
    exact (ih run).step step

/-- A call that goes on alone. -/
theorem exists_run_set {around : Surroundings V} {a b : Call V × Host}
    (hleads : Leads (Call.next around) a b) (calls : List (Call V)) {i : Nat}
    (hi : i < calls.length) :
    ∃ ledger, Run ledger ⟨a.2, calls.set i a.1⟩ ⟨b.2, calls.set i b.1⟩ := by
  induction hleads with
  | refl => exact ⟨[], .start _⟩
  | @tail b c _ next ih =>
    obtain ⟨ledger, run⟩ := ih
    have hlast : (calls.set i b.1)[i]? = some b.1 := List.getElem?_set_self hi
    have hstep := Step.advance around (p := ⟨b.2, calls.set i b.1⟩) hlast next
    rw [List.set_set] at hstep
    exact ⟨_, run.step hstep⟩

/-- A call that has begun goes on alone. -/
theorem exists_run_concat {around : Surroundings V} {a b : Call V × Host}
    (begun : Step [] p ⟨a.2, p.calls ++ [a.1]⟩) (hleads : Leads (Call.next around) a b) :
    ∃ ledger, Run ledger p ⟨b.2, p.calls ++ [b.1]⟩ := by
  have hlast : ∀ c d : Call V, (p.calls ++ [c]).set p.calls.length d = p.calls ++ [d] := by
    intro c d
    rw [List.set_append_right _ _ (Nat.le_refl _), Nat.sub_self, List.set_cons_zero]
  have hlt : p.calls.length < (p.calls ++ [a.1]).length := by
    rw [List.length_append, List.length_singleton]
    exact Nat.lt_succ_self _
  obtain ⟨ledger, run⟩ := exists_run_set hleads (p.calls ++ [a.1]) hlt
  rw [hlast, hlast] at run
  exact ⟨_, ((Run.start p).step begun).trans run⟩

/-- A process in which nothing can be compiled. -/
def noCompiler (linker : Linker V) (loader : DependencyLoader) : Surroundings V :=
  ⟨⟨fun _ h => (.error (.io ""), h), fun h => (.error (.io ""), h)⟩, linker, loader, fun _ _ => rfl⟩

/-- Calls that are made without a break are runs of the process. -/
structure Sequential (p : Scopes V) : Prop where
  load : ∀ (linker : Linker V) (loader : DependencyLoader) (dir : Option Path) (image : Image),
    ∃ ledger l, l.result? = some (Scope.load linker loader dir image p.host).1 ∧
      Run ledger p ⟨(Scope.load linker loader dir image p.host).2,
        p.calls ++ [.loading dir image l]⟩
  unload : ∀ i dir image library loc,
    p.calls[i]? = some (.loading dir image (.loaded library loc)) →
    ∃ ledger, Run ledger p ⟨(Scope.unload ⟨some library, loc⟩ p.host).2,
      p.calls.set i (.ending (.finished (some (Scope.unload ⟨some library, loc⟩ p.host).1)))⟩
  drop : ∀ i dir image library loc,
    p.calls[i]? = some (.loading dir image (.loaded library loc)) →
    ∃ ledger, Run ledger p ⟨Scope.drop ⟨some library, loc⟩ p.host,
      p.calls.set i (.ending (.finished none))⟩
  evaluate : ∀ (ev : Evaluator) (around : Surroundings V) (t : HostType) (expression : String),
    ∃ ledger s,
      s.result? = some (ev.evaluate around.toolchain around.linker t expression p.host).1 ∧
      Run ledger p ⟨(ev.evaluate around.toolchain around.linker t expression p.host).2,
        p.calls ++ [.evaluating ev s]⟩

theorem Call.leads_loading (around : Surroundings V) {dir : Option Path} {image : Image}
    {l l' : Loading V} {h h' : Host}
    (hl : Leads (Loading.next around.linker around.loader dir image) (l, h) (l', h')) :
    Leads (next around) (.loading dir image l, h) (.loading dir image l', h') :=
  hl.map (Call.loading dir image) fun _ _ _ _ hl => by simp only [next, hl, Option.map_some]

theorem Call.leads_ending (around : Surroundings V) {e e' : Ending V} {h h' : Host}
    (he : Leads Ending.next (e, h) (e', h')) :
    Leads (next around) (.ending e, h) (.ending e', h') :=
  he.map Call.ending fun _ _ _ _ he => by simp only [next, he, Option.map_some]

theorem Call.leads_evaluating (around : Surroundings V) {ev : Evaluator} {s s' : Evaluating V}
    {h h' : Host} (hs : Leads (Evaluating.next ev around.toolchain around.linker) (s, h) (s', h')) :
    Leads (next around) (.evaluating ev s, h) (.evaluating ev s', h') :=
  hs.map (Call.evaluating ev) fun _ _ _ _ hs => by simp only [next, hs, Option.map_some]

theorem sequential (p : Scopes V) : Sequential p where
  load linker loader dir image := by
    obtain ⟨l, hl, hresult⟩ := Loading.leads_load linker loader dir image p.host
    obtain ⟨ledger, run⟩ := exists_run_concat (.load dir image)
      (Call.leads_loading (noCompiler linker loader) hl)
    exact ⟨ledger, l, hresult, run⟩
  unload i dir image library loc held := by
    obtain ⟨ledger, run⟩ := exists_run_set
      (Call.leads_ending (noCompiler (fun _ => .error "") unresolvable)
        (Ending.leads_unload ⟨some library, loc⟩ p.host)) p.calls
      (List.getElem?_eq_some_iff.1 held).1
    exact ⟨_, ((Run.start p).step (.unload held)).trans run⟩
  drop i dir image library loc held := by
    obtain ⟨ledger, run⟩ := exists_run_set
      (Call.leads_ending (noCompiler (fun _ => .error "") unresolvable)
        (Ending.leads_drop none ⟨some library, loc⟩ p.host)) p.calls
      (List.getElem?_eq_some_iff.1 held).1
    exact ⟨_, ((Run.start p).step (.drop held)).trans run⟩
  evaluate ev around t expression := by
    obtain ⟨s, hs, hresult⟩ :=
      Evaluating.leads_evaluate ev around.toolchain around.linker t expression p.host
    obtain ⟨ledger, run⟩ := exists_run_concat (.evaluate ev t expression)
      (Call.leads_evaluating around hs)
    exact ⟨ledger, s, hresult, run⟩

/-- The count is the number of scopes that were loaded and are not yet released, and what each
call has done to it is what it is said to do. -/
structure Balanced (ledger : Ledger) (p : Scopes V) : Prop where
  live : p.host.live = p.calls.countP (·.isLive)
  nonneg : 0 ≤ p.host.live
  /-- A load that fails leaves the count as it is. -/
  failed : ∀ i dir image l e, p.calls[i]? = some (.loading dir image l) →
    l.result? = some (.error e) → ledger.of i = []
  loaded : ∀ i dir image l s, p.calls[i]? = some (.loading dir image l) →
    l.result? = some (.ok s) → ledger.of i = [1]
  /-- A scope is taken from the count once, whatever closing it comes to. -/
  ended : ∀ i told, p.calls[i]? = some (.ending (.finished told)) → ledger.of i = [1, -1]
  /-- Until then it counts, and is never taken from the count again. -/
  ending : ∀ i e, p.calls[i]? = some (.ending e) →
    ledger.of i = if e.isLive then [1] else [1, -1]
  /-- An evaluation that has returned has taken back what it has counted. -/
  evaluated : ∀ i ev s value, p.calls[i]? = some (.evaluating ev s) → s.result? = some value →
    ledger.of i = [] ∨ ledger.of i = [1, -1]

theorem Balanced.of_counted (hp : Counted ledger p) : Balanced ledger p where
  live := hp.live
  nonneg := by
    rw [hp.live]
    exact Int.natCast_nonneg _
  failed i dir image l e hi hresult := by
    rw [hp.entries i _ hi]
    cases l with
    | failed => rfl
    | opening | staged | opened | loaded => cases hresult
  loaded i dir image l s hi hresult := by
    rw [hp.entries i _ hi]
    cases l with
    | loaded => rfl
    | opening | staged | opened | failed => cases hresult
  ended i told hi := hp.entries i _ hi
  ending i e hi := hp.entries i _ hi
  evaluated i ev s value hi hresult := by
    rw [hp.entries i _ hi]
    cases s with
    | failed => exact Or.inl rfl
    | returned => exact Or.inr rfl
    | compiling | loading | ending => cases hresult

/-- **Every run is balanced:** the count is the number of live scopes, whoever acts when. Calls
that are made without a break are runs, and the external compiler is a toolchain they can find. -/
theorem Run.balanced {h : Host} (run : Run ledger (initial h) p) :
    Balanced ledger p ∧ Sequential p ∧
      ∀ (s : Settings) (program : Program), (s.toolchain program).Neutral :=
  ⟨.of_counted (run.counted (counted_initial h)), sequential p, Settings.neutral_toolchain⟩

theorem Step.of_eq (around : Surroundings V) {i : Nat} {c c' : Call V} {h : Host}
    (call : p.calls[i]? = some c) (next : c.next around p.host = some (c', h))
    (hmore : (p.host.counted h).map (i, ·) = more) : Step more p ⟨h, p.calls.set i c'⟩ :=
  hmore ▸ .advance around call next

/-- A library that cannot be closed. -/
def stuck : Library Unit := ⟨some Container.version, some (.ok ()), .error "busy"⟩

/-- A host whose temporary entries go to the root. -/
def rootHost : Host :=
  { (default : Host) with workDir := ⟨"/"⟩, tempDir := ⟨"/"⟩, temp := .numbered }

/-- The calls of a process when all have returned: a scope that could not be closed, a load whose
dependency was refused, and an evaluation without a compiler. -/
def returned : List (Call Unit) :=
  [.ending (.finished (some (.error (.cannotClose "busy")))),
    .loading none ⟨[], ["libdep.so"]⟩ (.failed (.unresolvedDependency "libdep.so")),
    .evaluating default (.failed (.toolchain (.io "")))]

theorem exists_stage_rootHost : ∃ loc staged, rootHost.stage none [] = .ok (loc, staged) :=
  ⟨_, _, rfl⟩

theorem run_returned : ∃ h, Run [(0, 1), (0, -1)] (initial rootHost) ⟨h, returned⟩ := by
  let around : Surroundings Unit := noCompiler (fun _ => .ok stuck) unresolvable
  let dependent : Image := ⟨[], ["libdep.so"]⟩
  let refused : Call Unit := .loading none dependent (.failed (.unresolvedDependency "libdep.so"))
  obtain ⟨loc, staged, hstage⟩ := exists_stage_rootHost
  obtain ⟨rfl, -⟩ := Scope.stage_eq_ok hstage
  let staged : Host := { rootHost with tree := rootHost.tree.insert loc (.file [] false) }
  let asked : Request × Host := (default : Evaluator).request default "" staged
  let uncompiled : Call Unit := .evaluating default (.failed (.toolchain (.io "")))
  have hnext : Call.next around (.loading none ⟨[], []⟩ (.opening [])) rootHost =
      some (.loading none ⟨[], []⟩ (.staged loc), staged) := by
    simp only [Call.next, Loading.next, Loading.ofStage, hstage, Option.map_some, staged]
  have hstaged : Run [] (initial rootHost) ⟨staged, [.loading none ⟨[], []⟩ (.staged loc),
      .loading none dependent (.opening ["libdep.so"])]⟩ :=
    (((Run.start _).step (.load none ⟨[], []⟩)).step (.load none dependent)).step
      (.of_eq around (i := 0) rfl hnext rfl)
  have hfailed : Run [] (initial rootHost)
      ⟨asked.2, [.loading none ⟨[], []⟩ (.staged loc), refused, uncompiled]⟩ :=
    ((hstaged.step (.evaluate default default "")).step
      (.of_eq around (i := 1) rfl rfl rfl)).step (.of_eq around (i := 2) rfl rfl rfl)
  have hloaded : Run [(0, 1)] (initial rootHost)
      ⟨{ asked.2 with live := 1 },
        [.loading none ⟨[], []⟩ (.loaded stuck loc), refused, uncompiled]⟩ :=
    (hfailed.step (.of_eq around (i := 0) rfl rfl rfl)).step (.of_eq around (i := 0) rfl rfl rfl)
  have hclosed : Run [(0, 1)] (initial rootHost) ⟨{ asked.2 with live := 1 },
      [.ending (.unloading (.removing (.error (.cannotClose "busy")) loc)), refused, uncompiled]⟩ :=
    ((hloaded.step (.unload (i := 0) rfl)).step (.of_eq around (i := 0) rfl rfl rfl)).step
      (.of_eq around (i := 0) rfl rfl rfl)
  have hreleased : Run [(0, 1), (0, -1)] (initial rootHost)
      ⟨asked.2.remove loc, [.ending (.unloading (.released (.error (.cannotClose "busy")) loc)),
        refused, uncompiled]⟩ :=
    (hclosed.step (.of_eq around (i := 0) rfl rfl rfl)).step (.of_eq around (i := 0) rfl rfl rfl)
  -- the scope that is dropped after its unloading counts no more
  exact ⟨_, ((hreleased.step (.of_eq around (i := 0) rfl rfl rfl)).step
    (.of_eq around (i := 0) rfl rfl rfl)).step (.of_eq around (i := 0) rfl rfl rfl)⟩

theorem balanced_returned : ∃ h, Run [(0, 1), (0, -1)] (initial rootHost) ⟨h, returned⟩ ∧
    Balanced [(0, 1), (0, -1)] ⟨h, returned⟩ ∧ Sequential ⟨h, returned⟩ := by
  obtain ⟨h, run⟩ := run_returned
  obtain ⟨hbalanced, hsequential, -⟩ := run.balanced
  exact ⟨h, run, hbalanced, hsequential⟩

end Scopes

end ExprHost
