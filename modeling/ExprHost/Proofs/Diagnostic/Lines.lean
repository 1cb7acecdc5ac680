import ExprHost.Diagnostic.Stream
import ExprHost.Proofs.Json.Nesting

/-!
# Lines of a diagnostic stream

Each line of a stream speaks for itself. A carriage return at the end of a line is a space to
the reader, so it makes no difference whether it belongs to the line or to its ending, and a
line feed cuts the stream in two, whatever stands on either side.

* `Diagnostic.ofLine?_append_return`: a carriage return at the end of a line does not matter.
* `Diagnostic.ofText_eq_splitChar`: **the diagnostics of a text are those between line feeds.**
* `Diagnostic.ofBytes_lines`: **the diagnostics of a stream are those of its two parts.**
-/

namespace ExprHost

namespace Text

/-- The lines of a text and its pieces between line feeds: a piece may have the carriage return
of an ending more than its line, and there may be an empty piece after the last line. -/
inductive LinesOf : List (List Char) → List (List Char) → Prop
  | ended : LinesOf [] [[]]
  | last (line : List Char) : LinesOf [line] [line]
  | feed {line : List Char} {lines pieces : List (List Char)} (hs : LinesOf lines pieces) :
      LinesOf (line :: lines) (line :: pieces)
  | carriage {line : List Char} {lines pieces : List (List Char)} (hs : LinesOf lines pieces) :
      LinesOf (line :: lines) ((line ++ ['\r']) :: pieces)

theorem LinesOf.onFirst {lines pieces : List (List Char)} (h : LinesOf lines pieces) (c : Char) :
    LinesOf (onFirst c lines) (onFirst c pieces) := by
  cases h with
  | ended => exact .last [c]
  | last line => exact .last (c :: line)
  | feed hs => exact .feed hs
  | carriage hs => exact .carriage hs

theorem linesOf_splitChar (text : List Char) : LinesOf (lines text) (splitChar '\n' text) := by
  fun_induction lines text with
  | case1 => exact .ended
  | case2 rest ih =>
    rw [splitChar, if_pos rfl]
    exact .feed ih
  | case3 rest ih =>
    -- the carriage return belongs to the line's ending, and here to its piece
    have hreturn : LinesOf ([] :: lines rest) (([] ++ ['\r']) :: splitChar '\n' rest) :=
      .carriage ih
    rw [splitChar, if_neg (by decide), splitChar, if_pos rfl]
    exact hreturn
  | case4 c rest hfeed hreturn ih =>
    rw [splitChar, if_neg hfeed]
    exact ih.onFirst c

end Text

namespace Diagnostic

theorem ofLine?_eq_none {line : List Char} (h : line.head? ≠ some '\x7b') : ofLine? line = none := by
  unfold ofLine?
  split
  · exact absurd rfl h
  · rfl

theorem ofLine?_append_return (line : List Char) : ofLine? (line ++ ['\r']) = ofLine? line := by
  by_cases hopen : line.head? = some '\x7b'
  · obtain ⟨rest, rfl⟩ := List.head?_eq_some_iff.1 hopen
    rw [List.cons_append, ofLine?, ofLine?, ← List.cons_append, Json.parse?_append_return]
  · rw [ofLine?_eq_none hopen, ofLine?_eq_none]
    cases line with
    | nil => decide
    | cons c rest => exact hopen

theorem filterMap_ofLine?_of_linesOf {lines pieces : List (List Char)}
    (h : Text.LinesOf lines pieces) : lines.filterMap ofLine? = pieces.filterMap ofLine? := by
  induction h with
  | ended => rfl
  | last line => rfl
  | feed hs ih => rw [List.filterMap_cons, List.filterMap_cons, ih]
  | carriage hs ih => rw [List.filterMap_cons, List.filterMap_cons, ofLine?_append_return, ih]

/-- **The diagnostics of a text are those between line feeds.** -/
theorem ofText_eq_splitChar (text : List Char) :
    ofText text = (Text.splitChar '\n' text).filterMap ofLine? :=
  filterMap_ofLine?_of_linesOf (Text.linesOf_splitChar text)

/-- A text without line feeds is one line. -/
theorem ofText_of_not_mem {text : List Char} (h : '\n' ∉ text) :
    ofText text = (ofLine? text).toList := by
  rw [ofText_eq_splitChar, Text.splitChar_of_not_mem h, List.filterMap_cons]
  cases ofLine? text <;> rfl

theorem ofText_newline (a b : List Char) : ofText (a ++ '\n' :: b) = ofText a ++ ofText b := by
  simp only [ofText_eq_splitChar, Text.splitChar_append, List.filterMap_append]

theorem ofBytes_newline (a b : Bytes) : ofBytes (a ++ 0x0A :: b) = ofBytes a ++ ofBytes b := by
  rw [ofBytes, Utf8.lossy_newline, ofText_newline]
  rfl

/-- **The diagnostics of a stream are those of its two parts** at any line feed, and those of its
lines in their order, whatever bytes the lines are made of. -/
theorem ofBytes_lines (a b : Bytes) :
    ofBytes (a ++ 0x0A :: b) = ofBytes a ++ ofBytes b ∧
      ∀ lines : List Bytes, ofBytes ([0x0A].intercalate lines) = lines.flatMap ofBytes := by
  refine ⟨ofBytes_newline a b, fun lines => ?_⟩
  induction lines with
  | nil => rfl
  | cons line lines ih =>
    cases lines with
    | nil => simp
    | cons next lines =>
      rw [List.intercalate_cons_cons, List.append_assoc, List.singleton_append, ofBytes_newline, ih]
      exact List.flatMap_cons.symm

end Diagnostic

end ExprHost
