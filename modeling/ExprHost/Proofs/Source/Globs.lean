import ExprHost.Proofs.Diagnostic.Lines
import ExprHost.Source.Preamble
import Mathlib.Logic.Function.Iterate

/-!
# Globs at the end of namespaces

Every namespace is imported whole, so of a `::*` that a caller writes after one nothing should be
left. One of them is dropped when a preamble is made, and no more: a namespace that ends in
several keeps all but one, and loses another when a preamble is made of what was kept.

* `Preamble.Globbed`: namespaces that end in some globs.
* `Preamble.globbed_dropGlob_iff`: what is dropped is one glob.
* `Preamble.mem_lines_text`: each namespace without line breaks has a line of the text.
* `Preamble.ofUsings_globs`: **when a preamble is normal.**
* `Preamble.ofUsings_globs_kept`: two globs, of which one is kept.
-/

namespace ExprHost

namespace Text

/-- A piece between line feeds is a line, unless it is empty or ends in a carriage return. -/
theorem LinesOf.mem {lines pieces : List (List Char)} (h : LinesOf lines pieces)
    {piece : List Char} (hmem : piece ∈ pieces) (hne : piece ≠ [])
    (hreturn : piece.getLast? ≠ some '\r') : piece ∈ lines := by
  induction h with
  | ended => exact absurd (List.mem_singleton.1 hmem) hne
  | last line => exact hmem
  | feed hs ih =>
    rcases List.mem_cons.1 hmem with rfl | hmem
    · exact List.mem_cons_self
    · exact List.mem_cons_of_mem _ (ih hmem)
  | carriage hs ih =>
    rcases List.mem_cons.1 hmem with rfl | hmem
    · exact absurd List.getLast?_concat hreturn
    · exact List.mem_cons_of_mem _ (ih hmem)

end Text

namespace Preamble

/-! ## Dropping a glob -/

/-- A namespace that ends in some number of globs, at least. -/
def Globbed (n : Nat) (ns : String) : Prop := (List.replicate n "::*".toList).flatten <:+ ns.toList

theorem dropGlob_append (ns : String) : dropGlob (ns ++ "::*") = ns := by
  rw [dropGlob, String.toList_append, Text.dropEnd?_append]
  exact String.ofList_toList

/-- One glob is there exactly if it can be taken off. -/
theorem globbed_one_iff {ns : String} : Globbed 1 ns ↔ ns = dropGlob ns ++ "::*" := by
  constructor
  · rintro ⟨front, hfront⟩
    have hns : ns = String.ofList front ++ "::*" := by
      rw [← String.toList_inj, String.toList_append, String.toList_ofList, ← hfront]
      simp
    rw [hns, dropGlob_append]
  · intro h
    rw [h]
    exact ⟨(dropGlob ns).toList, by simp⟩

theorem dropGlob_of_not_globbed {ns : String} (h : ¬ Globbed 1 ns) : dropGlob ns = ns := by
  unfold dropGlob
  split
  · rename_i front hfront
    refine absurd ⟨front, ?_⟩ h
    rw [Text.eq_append_of_dropEnd? hfront]
    simp
  · rfl

/-- A namespace stays as it is exactly if it has no glob to lose. -/
theorem dropGlob_eq_self_iff {ns : String} : dropGlob ns = ns ↔ ¬ Globbed 1 ns := by
  refine ⟨fun hself h => ?_, dropGlob_of_not_globbed⟩
  have hlen := congrArg String.length (globbed_one_iff.1 h)
  rw [hself, String.length_append] at hlen
  have hglob : "::*".length = 3 := by decide
  omega

theorem globbed_append_iff {n : Nat} {ns : String} :
    Globbed (n + 1) (ns ++ "::*") ↔ Globbed n ns := by
  have hsplit : (List.replicate (n + 1) "::*".toList).flatten =
      (List.replicate n "::*".toList).flatten ++ "::*".toList := by
    rw [List.replicate_succ', List.flatten_append, List.flatten_singleton]
  rw [Globbed, Globbed, hsplit, String.toList_append, List.suffix_append_inj_of_length_eq rfl]
  exact and_iff_left rfl

/-- **What is dropped is one glob:** of those at the end the others stay. -/
theorem globbed_dropGlob_iff {n : Nat} {ns : String} :
    Globbed (n + 1) (dropGlob ns) ↔ Globbed (n + 2) ns := by
  by_cases h : Globbed 1 ns
  · conv_rhs => rw [globbed_one_iff.1 h]
    exact globbed_append_iff.symm
  · -- without a glob nothing is dropped, and there are no two of them
    have hmore : ∀ k, ¬ Globbed (k + 1) ns := by
      intro k hk
      rw [Globbed, List.replicate_succ', List.flatten_append] at hk
      exact h ((List.suffix_append _ _).trans hk)
    rw [dropGlob_of_not_globbed h]
    exact iff_of_false (hmore n) (hmore (n + 1))

/-! ## Preambles made again -/

/-- The namespaces of a preamble that are the caller's. -/
def ofCaller (p : Preamble) : List String := p.namespaces.drop baseline.length

/-- The preamble made again, of the caller's namespaces as they stand in it. -/
def again (p : Preamble) : Preamble := ofUsings p.ofCaller

theorem ofCaller_ofUsings (usings : List String) :
    (ofUsings usings).ofCaller = usings.map dropGlob :=
  List.drop_left' rfl

theorem again_iterate (usings : List String) (k : Nat) :
    again^[k] (ofUsings usings) = ofUsings ((List.map dropGlob)^[k] usings) := by
  induction k with
  | zero => rfl
  | succ k ih =>
    rw [Function.iterate_succ_apply', ih, Function.iterate_succ_apply', again, ofCaller_ofUsings]

theorem ofUsings_inj {us vs : List String} :
    ofUsings us = ofUsings vs ↔ us.map dropGlob = vs.map dropGlob := by
  simp [ofUsings]

/-- Namespaces stay as they are when a preamble is made of them exactly if none has a glob. -/
theorem again_eq_self_iff {usings : List String} :
    (ofUsings usings).again = ofUsings usings ↔ ∀ u ∈ usings, ¬ Globbed 2 u := by
  rw [again, ofCaller_ofUsings, ofUsings_inj, List.map_map, List.map_inj_left]
  simp only [Function.comp_apply, dropGlob_eq_self_iff, globbed_dropGlob_iff]

theorem forall_mem_iterate_iff {usings : List String} {k n : Nat} :
    (∀ u ∈ (List.map dropGlob)^[k] usings, ¬ Globbed (n + 1) u) ↔
      ∀ u ∈ usings, ¬ Globbed (k + n + 1) u := by
  induction k generalizing n with
  | zero => rw [Function.iterate_zero_apply, Nat.zero_add]
  | succ k ih =>
    rw [Function.iterate_succ_apply', List.forall_mem_map]
    simp only [globbed_dropGlob_iff]
    rw [ih, show k + (n + 1) + 1 = k + 1 + n + 1 by omega]

/-! ## Lines of the text -/

/-- The line that imports a namespace, without its end. -/
def useText (ns : String) : List Char := "use ".toList ++ ns.toList ++ "::*;".toList

/-- The first line of the text, without its end. -/
def headText : List Char := "#![allow(unused_imports)]".toList

theorem toList_useLine (ns : String) : (useLine ns).toList = useText ns ++ ['\n'] := by
  simp [useLine, useText]

theorem toList_join_useLine (l : List String) :
    (Text.join "" (l.map useLine)).toList = l.flatMap fun ns => useText ns ++ ['\n'] := by
  induction l with
  | nil => rfl
  | cons ns rest ih =>
    rw [List.flatMap_cons, ← ih, ← toList_useLine]
    cases rest with
    | nil => simp [Text.join]
    | cons next more =>
      rw [List.map_cons, List.map_cons, Text.join, String.append_empty, String.toList_append]

theorem toList_text (p : Preamble) :
    p.text.toList = headText ++ '\n' :: p.namespaces.flatMap fun ns => useText ns ++ ['\n'] := by
  have htext : p.text = "#![allow(unused_imports)]" ++ "\n" ++
      Text.join "" (p.namespaces.map useLine) := rfl
  rw [htext, String.toList_append, String.toList_append, toList_join_useLine, List.append_assoc]
  rfl

theorem getLast?_useText (ns : String) : (useText ns).getLast? = some ';' := by
  rw [useText, List.getLast?_append]
  rfl

/-- **Each namespace without line breaks has a line of the text.** -/
theorem mem_lines_text {p : Preamble} {ns : String} (hmem : ns ∈ p.namespaces)
    (hfeed : '\n' ∉ ns.toList) : useText ns ∈ Text.lines p.text.toList := by
  obtain ⟨front, back, hsplit⟩ := List.append_of_mem hmem
  have hbefore : ∃ before, p.text.toList = before ++ '\n' :: (useText ns ++
      '\n' :: back.flatMap fun ns => useText ns ++ ['\n']) := by
    rw [toList_text, hsplit, List.flatMap_append, List.flatMap_cons]
    -- a line feed stands before the line, after the head of the text or after another line
    rcases List.eq_nil_or_concat' front with rfl | ⟨init, last, rfl⟩
    · exact ⟨headText, by simp only [List.flatMap_nil, List.nil_append, List.append_assoc]; rfl⟩
    · refine ⟨headText ++ '\n' ::
        ((init.flatMap fun ns => useText ns ++ ['\n']) ++ useText last), ?_⟩
      simp [List.append_assoc]
  obtain ⟨before, htext⟩ := hbefore
  have hfree : '\n' ∉ useText ns := by
    simp [useText, hfeed]
  have hpiece : useText ns ∈ Text.splitChar '\n' p.text.toList := by
    rw [htext, Text.splitChar_append, Text.splitChar_append, Text.splitChar_of_not_mem hfree]
    simp
  have hlast := getLast?_useText ns
  refine (Text.linesOf_splitChar _).mem hpiece ?_ ?_
  · rintro hnil
    rw [hnil] at hlast
    cases hlast
  · rw [hlast]
    decide

/-- The line of a namespace ends in a doubled glob exactly if the namespace ends in a glob. -/
theorem doubled_suffix_useText_iff {ns : String} :
    "::*::*;".toList <:+ useText ns ↔ Globbed 1 ns := by
  have hdoubled : "::*::*;".toList = "::*".toList ++ "::*;".toList := by decide
  have hone : (List.replicate 1 "::*".toList).flatten = "::*".toList := by decide
  rw [useText, hdoubled, List.suffix_append_inj_of_length_eq rfl, Globbed, hone,
    and_iff_left rfl]
  refine ⟨?_, fun h => h.trans (List.suffix_append _ _)⟩
  rintro ⟨front, hfront⟩
  rcases List.append_eq_append_iff.1 hfront with ⟨mid, huse, hglob⟩ | ⟨mid, -, hns⟩
  · -- the blank before the namespace is no part of a glob
    rcases List.eq_nil_or_concat' mid with rfl | ⟨init, last, rfl⟩
    · rw [hglob]
      exact List.suffix_refl _
    · have hblank : "use ".toList = "use".toList ++ [' '] := by decide
      rw [hblank, ← List.append_assoc] at huse
      obtain ⟨-, hlast⟩ := List.append_inj' huse rfl
      obtain rfl := List.singleton_inj.1 hlast
      have hmem : ' ' ∈ "::*".toList := by
        rw [hglob]
        simp
      exact absurd hmem (by decide)
  · rw [hns]
    exact List.suffix_append _ _

/-- **When a preamble is normal.** Made again of its own namespaces some number of times it is
what it stays exactly if none of the caller's namespaces ends in two globs more than that. So it
is normal at once, and no line of it ends in a doubled glob, exactly if none ends in two; and one
more glob after a namespace makes no difference exactly if there was none. -/
theorem ofUsings_globs (usings : List String) :
    (∀ k, again^[k + 1] (ofUsings usings) = again^[k] (ofUsings usings) ↔
      ∀ u ∈ usings, ¬ Globbed (k + 2) u) ∧
    (∀ front u back, usings = front ++ u :: back →
      (ofUsings (front ++ (u ++ "::*") :: back) = ofUsings usings ↔ ¬ Globbed 1 u)) ∧
    (∀ u ∈ usings, '\n' ∉ u.toList → ∃ line ∈ Text.lines (ofUsings usings).text.toList,
      line = useText (dropGlob u) ∧ ("::*::*;".toList <:+ line ↔ Globbed 2 u)) := by
  refine ⟨?_, ?_, ?_⟩
  · intro k
    rw [Function.iterate_succ_apply', again_iterate, again_eq_self_iff]
    exact forall_mem_iterate_iff
  · rintro front u back rfl
    rw [ofUsings_inj, List.map_append, List.map_append, List.append_cancel_left_eq, List.map_cons,
      List.map_cons, dropGlob_append, List.cons_eq_cons, and_iff_left rfl, eq_comm,
      dropGlob_eq_self_iff]
  · intro u hu hfeed
    have hmem : dropGlob u ∈ (ofUsings usings).namespaces :=
      List.mem_append_right _ (List.mem_map_of_mem hu)
    refine ⟨_, mem_lines_text hmem ?_, rfl, ?_⟩
    · by_cases h : Globbed 1 u
      · rw [globbed_one_iff.1 h, String.toList_append] at hfeed
        exact fun hin => hfeed (List.mem_append_left _ hin)
      · rwa [dropGlob_of_not_globbed h]
    · rw [doubled_suffix_useText_iff]
      exact globbed_dropGlob_iff

/-- **Of two globs one is kept,** so the preamble is not normal, the second one made a
difference, and the line that imports the namespace ends in both. -/
theorem ofUsings_globs_kept :
    (ofUsings ["geo::*::*"]).again ≠ ofUsings ["geo::*::*"] ∧
    ofUsings ["geo::*" ++ "::*"] ≠ ofUsings ["geo::*"] ∧
    "use geo::*::*;".toList ∈ Text.lines (ofUsings ["geo::*::*"]).text.toList := by
  decide

end Preamble

end ExprHost
