import ExprHost.Proofs.Evaluation.Classified
import ExprHost.Proofs.Reference.Complete

/-!
# Dynamic libraries among the references

An image needs the dynamic libraries that its expression was compiled against, and the loader
of an evaluation refuses them all. So where there is such a library nothing is ever loaded,
whatever the compiler has left, and the first of them is named.

* `Evaluator.valueOf_eq_unresolved_iff`: an image fails at its first dependency.
* `Evaluator.verdict_eq_unresolved_iff`: **when the verdict on a reply is such a failure.**
* `Evaluator.evaluate_dynamic`: **what dynamic libraries do to an evaluation.**
-/

namespace ExprHost

/-- The first name that an image depends on is that of the first dynamic library. -/
theorem References.head?_dynamicNames (r : References) : r.dynamicNames.head? =
    (r.crates.find? (·.linkage = .dynamic)).map (·.name) := by
  rw [dynamicNames, List.head?_map, List.head?_filter]

namespace Evaluator

variable {V : Type} {ev : Evaluator} {linker : Linker V} {h : Host} {name : String}

/-! ## Images and replies -/

theorem valueOf_eq_unresolved_iff {image : Image} :
    (ev.valueOf linker image h).1 = .error (.load (.unresolvedDependency name)) ↔
      image.dependencies.head? = some name := by
  rw [fst_valueOf]
  cases image.dependencies with
  | cons first rest => simp
  | nil =>
    -- nothing is refused: the image fails for another reason, or the library has the word
    refine iff_of_false ?_ (by simp)
    simp only
    split
    · simp
    · split
      · simp
      · exact extract_ne_load _ _

/-- **When the verdict on a reply is that a dependency is not resolved:** there was an image, and
the first dynamic library among the references has that name. -/
theorem verdict_eq_unresolved_iff {library : Path} {reply : Reply} :
    (ev.verdict linker library reply h).1 = .error (.load (.unresolvedDependency name)) ↔
      reply.status.isSuccess = true ∧
        (∃ bytes, Host.libraryLeft library reply.artifact = .ok bytes) ∧
        ∃ e, ev.references.crates.find? (·.linkage = .dynamic) = some e ∧ e.name = name := by
  cases hstatus : reply.status.isSuccess with
  | false =>
    rw [verdict_failure hstatus]
    cases reply.failure.firstError? <;> simp
  | true =>
    rw [verdict_success hstatus]
    cases Host.libraryLeft library reply.artifact with
    | ok bytes =>
      simp only [valueOf_eq_unresolved_iff, References.head?_dynamicNames, Option.map_eq_some_iff]
      simp
    | error e => cases e <;> simp

/-! ## Evaluations -/

/-- An evaluation ends so exactly when the compiler has run and left an image that needs other
libraries, of which the first has that name. -/
theorem evaluate_eq_unresolved_iff (s : Settings) (program : Program) (t : HostType)
    (expression : String) :
    (ev.evaluate (s.toolchain program) linker t expression h).1 =
        .error (.load (.unresolvedDependency name)) ↔
      ∃ l library, h.RanOn (ev.evaluate (s.toolchain program) linker t expression h).2 l ∧
        (program l).status.isSuccess = true ∧ Host.artifactPath? l.args = some library ∧
        (∃ bytes, Host.libraryLeft library (program l).artifact = .ok bytes) ∧
        ∃ e, ev.references.crates.find? (·.linkage = .dynamic) = some e ∧ e.name = name := by
  rcases evaluate_cases ev s t expression h with
    ⟨e, -, hall⟩ | ⟨l, library, -, hpath, -, hall⟩
  · -- a compiler that has not run has left nothing
    obtain ⟨hnot, hout⟩ := hall program linker
    refine iff_of_false ?_ (fun ⟨l, _, hl, _⟩ => hnot l hl)
    rw [hout]
    simp
  · obtain ⟨hran, hout⟩ := hall program linker
    have hverdict : (ev.evaluate (s.toolchain program) linker t expression h).1 = _ :=
      congrArg Prod.fst hout
    rw [hverdict, verdict_eq_unresolved_iff]
    constructor
    · rintro ⟨hok, hleft, hfirst⟩
      exact ⟨l, library, (hran l).2 rfl, hok, hpath, hleft, hfirst⟩
    · rintro ⟨l', library', hl', hok, hpath', hleft, hfirst⟩
      obtain rfl := (hran l').1 hl'
      obtain rfl := Option.some.inj (hpath.symm.trans hpath')
      exact ⟨hok, hleft, hfirst⟩

/-- The references of an evaluator stand in canonical order. -/
theorem sorted_of_create {types : List TypeDesc} {usings : List String} {stagingDir : Option Path}
    {foundation : Except ResolveError Foundation} {listing : Path → Listing}
    (hev : create types usings stagingDir foundation listing = .ok ev) :
    ev.references.crates.Pairwise fun a b => (LinkedCrate.keyOrder a b).isLE = true := by
  unfold create at hev
  split at hev
  · cases hev
  · split at hev
    · cases hev
    · next hr =>
      cases hev
      exact References.sorted_of_resolve hr

/-- **What dynamic libraries do to an evaluation.** The references stand in canonical order. If
one of them is dynamic, an image that the compiler leaves is refused with the name of the first
such, whatever is in it; if none is, no evaluation fails for a dependency. -/
theorem evaluate_dynamic {types : List TypeDesc} {usings : List String} {stagingDir : Option Path}
    {foundation : Except ResolveError Foundation} {listing : Path → Listing}
    (hev : create types usings stagingDir foundation listing = .ok ev) (s : Settings)
    (program : Program) (linker : Linker V) (t : HostType) (expression : String) (h : Host) :
    let out := ev.evaluate (s.toolchain program) linker t expression h
    let firstDynamic := ev.references.crates.find? (·.linkage = .dynamic)
    ev.references.crates.Pairwise (fun a b => (LinkedCrate.keyOrder a b).isLE = true) ∧
    ((∃ e ∈ ev.references.crates, e.linkage = .dynamic) → ∃ e, firstDynamic = some e ∧
      ∀ l library bytes, h.RanOn out.2 l → (program l).status.isSuccess = true →
        Host.artifactPath? l.args = some library →
        Host.libraryLeft library (program l).artifact = .ok bytes →
        out.1 = .error (.load (.unresolvedDependency e.name))) ∧
    ((∀ e ∈ ev.references.crates, e.linkage ≠ .dynamic) →
      ∀ name, out.1 ≠ .error (.load (.unresolvedDependency name))) := by
  intro out firstDynamic
  refine ⟨sorted_of_create hev, ?_, ?_⟩
  · rintro ⟨d, hd, hdynamic⟩
    have hsome : firstDynamic.isSome = true :=
      List.find?_isSome.2 ⟨d, hd, decide_eq_true hdynamic⟩
    obtain ⟨e, he⟩ := Option.isSome_iff_exists.1 hsome
    refine ⟨e, he, fun l library bytes hran hok hpath hleft => ?_⟩
    exact (evaluate_eq_unresolved_iff s program t expression).2
      ⟨l, library, hran, hok, hpath, ⟨bytes, hleft⟩, e, he, rfl⟩
  · intro hnone name hout
    obtain ⟨l, library, -, -, -, -, e, he, -⟩ :=
      (evaluate_eq_unresolved_iff s program t expression).1 hout
    exact hnone e (List.mem_of_find?_eq_some he) (by simpa using List.find?_some he)

end Evaluator

/-! ## A library that needs another -/

namespace References

/-- The entries for a vector of shared elements. -/
def sharedCrates : List LinkedCrate :=
  [.ofSysroot "core" ⟨"sysroot/libcore-1a.rlib"⟩, .ofSysroot "std" ⟨"sysroot/libstd-2b.rlib"⟩,
    .ofFile (.inFile "x" ⟨"lib/libx.so"⟩) ⟨"lib/libx.so"⟩]

theorem resolve_vecOfShared : resolve [vecOfShared] .sample none = .ok ⟨sharedCrates⟩ := by
  have hlinked : (leaders [vecOfShared]).filterMap (Foundation.sample.linked? none) =
      sharedCrates := rfl
  refine (resolve_eq_ok_iff Foundation.inDirectory_sample).2 ⟨by decide +kernel, ?_⟩
  rw [hlinked, ofLinked, List.mergeSort_of_pairwise (by decide +kernel)]

end References

namespace Evaluator

/-- What is left by it where the compiler runs. -/
theorem exists_ranOn_leaving {ev : Evaluator} (hrefs : PassesOn ev) (content : Bytes)
    (linker : Linker V) : ∃ l library,
      (deepHost 1 0 []).RanOn (ev.evaluate (stock.toolchain (leaving content)) linker (.atom .i64) "1"
        (deepHost 1 0 [])).2 l ∧ (leaving content l).status.isSuccess = true ∧
      Host.artifactPath? l.args = some library ∧
      Host.libraryLeft library (leaving content l).artifact = .ok content := by
  obtain ⟨l, hstart⟩ := exists_start_deepHost 0 [] (by decide) (by decide : 1 + 22 ≤ _) hrefs "1"
  exact ⟨l, _, (ranOn_iff_of_start hstart (leaving content) linker l).2 rfl,
    isSuccess_leaving content l, (Settings.library_of_start_eq_ok hstart).1,
    libraryLeft_deepLibrary 0 (by decide) (by decide : 1 + 47 + _ ≤ _) hrefs "1" content false⟩

/-- An evaluator for a vector of shared elements. -/
theorem exists_create_shared : ∃ ev,
    create [References.vecOfShared] [] none (.ok .sample) (fun _ => none) = .ok ev ∧ PassesOn ev ∧
      ev.references = ⟨References.sharedCrates⟩ := by
  refine ⟨⟨⟨References.sharedCrates⟩, .ofUsings [], none⟩, ?_, ?_, rfl⟩
  · simp only [create, References.resolve_vecOfShared]
  · have hexplicit : (⟨References.sharedCrates⟩ : References).explicit =
        [.ofFile (.inFile "x" ⟨"lib/libx.so"⟩) ⟨"lib/libx.so"⟩] := rfl
    have hparents : (⟨References.sharedCrates⟩ : References).explicit.filterMap (·.path.parent?) =
        [⟨"lib"⟩] := rfl
    have hdirs : (⟨References.sharedCrates⟩ : References).libraryDirs = [⟨"lib"⟩] := by
      rw [References.libraryDirs, hparents, List.mergeSort_singleton]
      rfl
    rw [PassesOn, hexplicit, hdirs]
    decide +kernel

theorem evaluate_dynamic_vecOfShared :
    ∃ ev, create [References.vecOfShared] [] none (.ok .sample) (fun _ => none) = .ok ev ∧
      let out := ev.evaluate (stock.toolchain (leaving [0x7F])) (fun _ => .error "" : Linker Unit)
        (.atom .i64) "1" (deepHost 1 0 [])
      (∃ l, (deepHost 1 0 []).RanOn out.2 l) ∧
        out.1 = .error (.load (.unresolvedDependency "x")) := by
  obtain ⟨ev, hev, hrefs, hcrates⟩ := exists_create_shared
  obtain ⟨l, library, hran, hok, hpath, hleft⟩ :=
    exists_ranOn_leaving hrefs [0x7F] (fun _ => .error "" : Linker Unit)
  obtain ⟨-, hdynamic, -⟩ := evaluate_dynamic hev stock (leaving [0x7F])
    (fun _ => .error "" : Linker Unit) (.atom .i64) "1" (deepHost 1 0 [])
  obtain ⟨e, he, hrefused⟩ := hdynamic
    ⟨.ofFile (.inFile "x" ⟨"lib/libx.so"⟩) ⟨"lib/libx.so"⟩,
      by simp [hcrates, References.sharedCrates], by decide⟩
  have hx : (References.sharedCrates.find? (·.linkage = .dynamic)).map (·.name) = some "x" := by
    decide +kernel
  rw [hcrates] at he
  rw [he, Option.map_some] at hx
  refine ⟨ev, hev, ⟨l, hran⟩, ?_⟩
  rw [← Option.some.inj hx]
  exact hrefused l library [0x7F] hran hok hpath hleft

end Evaluator

end ExprHost
