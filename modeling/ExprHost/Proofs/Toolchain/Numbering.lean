import ExprHost.Proofs.Evaluation.Pipeline
import ExprHost.Proofs.Toolchain.UnitNames
import Mathlib.Algebra.Group.Nat.Defs
import Mathlib.Data.List.Nodup

/-!
# Numbers of requests

All callers of a process share one counter. A call for a request takes its number in one
step and makes the name in a later one, and between the two the other callers go on.

* `Numbering`: the counter, the calls in flight and the requests made.
* `Numbering.Step`, `Numbering.Run`: what the callers do, one step after another.
* `Numbering.Run.numbers_perm`: **each number is taken once,** in every interleaving.
* `Numbering.Run.names_distinct`: **the names of all requests differ.**
-/

namespace ExprHost

/-- A call for a request that has taken its number and has yet to make the name. -/
structure Numbering.Call where
  number : UInt64
  source : String
  references : References

/-- What is left to do of a call: the digest of the source goes into the name. -/
def Numbering.Call.request (c : Call) : Request := .numbered c.number c.source c.references

@[simp] theorem Numbering.Call.number_request (c : Call) : c.request.name.number = c.number := rfl

/-- The requests of a process while they are made. -/
structure Numbering where
  /-- The number that the next call takes. -/
  next : UInt64
  /-- One for each caller that is between its two steps. -/
  inFlight : List Numbering.Call
  /-- In the order in which they were completed. -/
  made : List Request

namespace Numbering

/-- Nothing has been called for yet. The counter can stand anywhere. -/
def initial (first : UInt64) : Numbering := ⟨first, [], []⟩

/-- **A step of some caller,** and how many numbers are taken in it. Reading the counter and
counting on is one step; any call in flight can be the next one to be completed. -/
inductive Step : Nat → Numbering → Numbering → Prop
  | take (source : String) (references : References) {next : UInt64} {calls : List Call}
      {made : List Request} :
      Step 1 ⟨next, calls, made⟩ ⟨next + 1, calls ++ [⟨next, source, references⟩], made⟩
  | complete (before : List Call) (c : Call) (after : List Call) {next : UInt64}
      {made : List Request} :
      Step 0 ⟨next, before ++ c :: after, made⟩ ⟨next, before ++ after, made ++ [c.request]⟩

/-- **Steps of any callers in any order,** and how many numbers are taken in all. -/
inductive Run : Nat → Numbering → Numbering → Prop
  | none (s : Numbering) : Run 0 s s
  | step {taken more : Nat} {s s' s'' : Numbering} (run : Run taken s s')
      (last : Step more s' s'') : Run (taken + more) s s''

/-- The numbers that follow each other from a given one on. -/
def tickets (first : UInt64) (count : Nat) : List UInt64 :=
  (List.range count).map fun k => first + UInt64.ofNat k

/-- The numbers that requests or calls in flight have. -/
def numbers (s : Numbering) : List UInt64 :=
  s.made.map (·.name.number) ++ s.inFlight.map (·.number)

/-- Each request has the digest of its own source in its name. -/
def Digested (s : Numbering) : Prop :=
  ∀ r ∈ s.made, r.name.digest = Xxh64.digestText r.source

/-! ## Tickets -/

theorem tickets_add (first : UInt64) (m n : Nat) :
    tickets first (m + n) = tickets first m ++ tickets (first + UInt64.ofNat m) n := by
  unfold tickets
  rw [List.range_add, List.map_append, List.map_map]
  congr 1
  apply List.map_congr_left
  intro k _
  simp only [Function.comp_apply, UInt64.ofNat_add]
  exact (UInt64.add_assoc _ _ _).symm

/-- The counter comes back to a number only after all others. -/
theorem nodup_tickets (first : UInt64) {count : Nat} (hcount : count ≤ 2 ^ 64) :
    (tickets first count).Nodup := by
  unfold tickets
  refine List.Nodup.map_on ?_ List.nodup_range
  intro a ha b hb hab
  have hlow : a < 2 ^ 64 := Nat.lt_of_lt_of_le (List.mem_range.1 ha) hcount
  have hhigh : b < 2 ^ 64 := Nat.lt_of_lt_of_le (List.mem_range.1 hb) hcount
  have hof : UInt64.ofNat a = UInt64.ofNat b := (UInt64.add_right_inj first).1 hab
  have hnat := congrArg UInt64.toNat hof
  rwa [UInt64.toNat_ofNat', UInt64.toNat_ofNat', Nat.mod_eq_of_lt hlow,
    Nat.mod_eq_of_lt hhigh] at hnat

/-! ## Steps and runs -/

/-- **A step moves a number on or takes the next one.** -/
theorem Step.numbers_perm {taken : Nat} {s s' : Numbering} (step : Step taken s s') :
    s'.numbers.Perm (s.numbers ++ tickets s.next taken) ∧
      s'.next = s.next + UInt64.ofNat taken := by
  cases step with
  | take source references =>
    refine ⟨List.Perm.of_eq ?_, rfl⟩
    simp [numbers, tickets]
  | complete before c after =>
    refine ⟨?_, (UInt64.add_zero _).symm⟩
    -- the number of the completed call moves from the middle of the calls to the requests
    have hmove : ((before ++ c :: after).map (·.number)).Perm
        (c.number :: (before ++ after).map (·.number)) := by
      simpa only [List.map_append, List.map_cons] using List.perm_middle
    simp only [numbers, tickets, List.range_zero, List.map_nil, List.append_nil, List.map_append,
      List.map_cons, List.append_assoc, List.singleton_append, Call.number_request]
    apply List.Perm.append_left
    simpa only [List.map_append, List.map_cons] using hmove.symm

theorem Step.digested {taken : Nat} {s s' : Numbering} (step : Step taken s s')
    (h : s.Digested) : s'.Digested := by
  cases step with
  | take source references => exact h
  | complete before c after =>
    intro r hr
    rcases List.mem_append.1 hr with hr | hr
    · exact h r hr
    · obtain rfl := List.mem_singleton.1 hr
      rfl

/-- **Each number is taken once,** by one call, and all calls together have those that follow
the first. -/
theorem Run.numbers_perm {taken : Nat} {s s' : Numbering} (run : Run taken s s') :
    s'.numbers.Perm (s.numbers ++ tickets s.next taken) ∧
      s'.next = s.next + UInt64.ofNat taken := by
  induction run with
  | none s => exact ⟨List.Perm.of_eq (List.append_nil _).symm, (UInt64.add_zero _).symm⟩
  | step run last ih =>
    obtain ⟨hnumbers, hnext⟩ := last.numbers_perm
    obtain ⟨ihnumbers, ihnext⟩ := ih
    rw [ihnext] at hnumbers hnext
    constructor
    · rw [tickets_add, ← List.append_assoc]
      exact hnumbers.trans (ihnumbers.append_right _)
    · rw [hnext, UInt64.ofNat_add, UInt64.add_assoc]

theorem Run.digested {taken : Nat} {s s' : Numbering} (run : Run taken s s') (h : s.Digested) :
    s'.Digested := by
  induction run with
  | none s => exact h
  | step run last ih => exact last.digested (ih h)

/-- The requests of a run have numbers of their own, of those taken in it. -/
theorem Run.made_numbers {taken : Nat} {first : UInt64} {s : Numbering}
    (run : Run taken (initial first) s) (htaken : taken ≤ 2 ^ 64) :
    (s.made.map (·.name.number)).Nodup ∧ ∀ r ∈ s.made, r.name.number ∈ tickets first taken := by
  obtain ⟨hperm, -⟩ := run.numbers_perm
  have hstart : (initial first).numbers = [] := rfl
  rw [hstart, List.nil_append] at hperm
  have hnodup : s.numbers.Nodup := hperm.nodup_iff.2 (nodup_tickets first htaken)
  refine ⟨hnodup.of_append_left, fun r hr => hperm.subset ?_⟩
  exact List.mem_append_left _ (List.mem_map_of_mem hr)

end Numbering

/-! ## Names -/

/-- Requests of one name are numbered alike. -/
theorem Request.name_eq_of_crateName {r r' : Request} (h : r.crateName = r'.crateName) :
    r.name = r'.name := by
  have hread := UnitName.read?_text r.name
  rw [← Request.crateName, h, Request.crateName, UnitName.read?_text] at hread
  exact (Option.some.inj hread).symm

/-- A name begins with the stem of all names. -/
theorem Request.stem_prefix_crateName (r : Request) :
    "exprbox_".toList <+: r.crateName.toList := by
  have hstem : "exprbox_".toList = UnitName.stem.toList ++ ['_'] := by decide
  rw [Request.crateName, UnitName.toList_text, hstem, List.prefix_append_right_inj]
  exact ⟨_, List.singleton_append⟩

theorem Host.libraryName_injective {c c' : String} (h : libraryName c = libraryName c') :
    c = c' := by
  have hlist := congrArg String.toList h
  simp only [libraryName, String.toList_append] at hlist
  exact String.toList_inj.1 (List.append_cancel_left (List.append_cancel_right hlist))

namespace Evaluator

variable {V : Type}

/-- A request of an evaluator is a call that no other comes between. -/
theorem run_request (ev : Evaluator) (t : HostType) (expression : String) (h : Host) :
    Numbering.Run 1 (.initial h.nextUnit)
      ⟨(ev.request t expression h).2.nextUnit, [], [(ev.request t expression h).1]⟩ := by
  have htake := Numbering.Run.step (.none (.initial h.nextUnit))
    (.take (ev.unitFor t expression) ev.references)
  exact htake.step (.complete [] ⟨h.nextUnit, ev.unitFor t expression, ev.references⟩ [])

/-- An evaluation takes one number, whatever comes of it: the external compiler takes none. -/
theorem nextUnit_evaluate (ev : Evaluator) (s : Settings) (program : Program) (linker : Linker V)
    (t : HostType) (expression : String) (h : Host) :
    (ev.evaluate (s.toolchain program) linker t expression h).2.nextUnit = h.nextUnit + 1 := by
  obtain ⟨tree, hafter, -⟩ := ev.snd_evaluate_eq s program linker t expression h
  rw [hafter]
  cases ev.start s t expression h with
  | error e => rfl
  | ok started => rfl

end Evaluator

namespace Numbering

/-- Requests that are numbered apart are named apart, and so are their libraries. -/
theorem nodup_names {made : List Request} (h : (made.map (·.name.number)).Nodup) :
    (made.map Request.crateName).Nodup ∧
      (made.map fun r => Host.libraryName r.crateName).Nodup := by
  unfold List.Nodup at h ⊢
  rw [List.pairwise_map] at h ⊢
  rw [List.pairwise_map]
  constructor
  · apply h.imp
    intro r r' hne heq
    exact hne (congrArg UnitName.number (Request.name_eq_of_crateName heq))
  · apply h.imp
    intro r r' hne heq
    have hname := Request.name_eq_of_crateName (Host.libraryName_injective heq)
    exact hne (congrArg UnitName.number hname)

/-- **The names of all requests differ** in every interleaving of at most 2⁶⁴ calls, and tell
what they were made of. An evaluation is one such call, whatever comes of it. -/
theorem Run.names_distinct {taken : Nat} {first : UInt64} {s : Numbering}
    (run : Run taken (initial first) s) (htaken : taken ≤ 2 ^ 64) :
    (s.made.map Request.crateName).Nodup ∧
    (s.made.map fun r => Host.libraryName r.crateName).Nodup ∧
    (∀ r ∈ s.made,
      (∀ c ∈ r.crateName.toList, c.isAlphanum = true ∨ c = '_') ∧
      "exprbox_".toList <+: r.crateName.toList ∧
      UnitName.read? r.crateName = some ⟨Xxh64.digestText r.source, r.name.number⟩ ∧
      r.name.number ∈ tickets first taken) ∧
    ∀ (V : Type) (ev : Evaluator) (linker : Linker V) (t : HostType) (expression : String)
      (h : Host),
      Run 1 (initial h.nextUnit)
        ⟨(ev.request t expression h).2.nextUnit, [], [(ev.request t expression h).1]⟩ ∧
      (∀ toolchain : Toolchain, (ev.evaluate toolchain linker t expression h).2.nextUnit =
        (toolchain.compile (ev.request t expression h).1
          (ev.request t expression h).2).2.nextUnit) ∧
      ∀ (settings : Settings) (program : Program),
        (ev.evaluate (settings.toolchain program) linker t expression h).2.nextUnit =
          h.nextUnit + 1 := by
  obtain ⟨hnodup, hmem⟩ := run.made_numbers htaken
  obtain ⟨hcrates, hlibraries⟩ := nodup_names hnodup
  have hdigested : s.Digested := run.digested fun r hr => by cases hr
  refine ⟨hcrates, hlibraries, ?_, ?_⟩
  · intro r hr
    have hread := UnitName.read?_text r.name
    rw [← Request.crateName] at hread
    refine ⟨fun c hc => UnitName.mem_text hc, r.stem_prefix_crateName, ?_, hmem r hr⟩
    rw [hread, ← hdigested r hr]
  · intro V ev linker t expression h
    refine ⟨ev.run_request t expression h, fun toolchain => ?_, fun settings program => ?_⟩
    · obtain ⟨tree, hafter, -⟩ := ev.restored_evaluate toolchain linker t expression h
      rw [hafter]
    · exact ev.nextUnit_evaluate settings program linker t expression h

/-- Two callers with one source, the counter about to start over: the second to take a number
is the first to be done. -/
theorem Run.names_distinct_overtaken :
    let last : UInt64 := 18446744073709551615
    let s : Numbering := ⟨1, [], [.numbered 0 "1" .empty, .numbered last "1" .empty]⟩
    Run 2 (initial last) s ∧ 2 ≤ 2 ^ 64 ∧ (s.made.map Request.crateName).Nodup := by
  intro last s
  have htake : Run 1 (initial last) ⟨last + 1, [⟨last, "1", .empty⟩], []⟩ :=
    (Run.none (initial last)).step (.take "1" .empty)
  have hwrap : last + 1 = 0 := by decide
  rw [hwrap] at htake
  have hboth : Run 2 (initial last) ⟨1, [⟨last, "1", .empty⟩, ⟨0, "1", .empty⟩], []⟩ :=
    htake.step (.take "1" .empty)
  have hovertaken := hboth.step (.complete [⟨last, "1", .empty⟩] ⟨0, "1", .empty⟩ [])
  have hrun : Run 2 (initial last) s := hovertaken.step (.complete [] ⟨last, "1", .empty⟩ [])
  have htwo : 2 ≤ 2 ^ 64 := by decide
  exact ⟨hrun, htwo, (hrun.names_distinct htwo).1⟩

end Numbering

end ExprHost
