/-!
# Lines, pieces and joins

Text cut at separators, and put together again. All cuts are leftmost and do not
overlap.
-/

namespace ExprHost.Text

/-- Puts a character in front of the first of some pieces. -/
def onFirst (c : Char) : List (List Char) → List (List Char)
  | [] => [[c]]
  | piece :: rest => (c :: piece) :: rest

/-- The lines of a text. A line ends with a line feed or at the end of the text, and
a carriage return right before the line feed belongs to the ending. -/
def lines : List Char → List (List Char)
  | [] => []
  | '\n' :: rest => [] :: lines rest
  | '\r' :: '\n' :: rest => [] :: lines rest
  | c :: rest => onFirst c (lines rest)

/-- The pieces of a text between occurrences of one character. -/
def splitChar (sep : Char) : List Char → List (List Char)
  | [] => [[]]
  | c :: rest => if c = sep then [] :: splitChar sep rest else onFirst c (splitChar sep rest)

/-- The pieces of a text between occurrences of `::`. -/
def splitColons : List Char → List (List Char)
  | [] => [[]]
  | ':' :: ':' :: rest => [] :: splitColons rest
  | c :: rest => onFirst c (splitColons rest)

/-- The texts one after another with a separator between neighbours. -/
def join (sep : String) : List String → String
  | [] => ""
  | [s] => s
  | s :: next :: rest => s ++ sep ++ join sep (next :: rest)

/-- The text after a given beginning, if it begins so. -/
def dropStart? : List Char → List Char → Option (List Char)
  | [], cs => some cs
  | _ :: _, [] => none
  | p :: ps, c :: cs => if p = c then dropStart? ps cs else none

/-- The text before a given ending, if it ends so. -/
def dropEnd? (ending cs : List Char) : Option (List Char) :=
  (dropStart? ending.reverse cs.reverse).map List.reverse

/-- The text before the NUL that ends it. One at the very end of the given text is taken
for that NUL; elsewhere there can be none. -/
def terminated? (s : String) : Option String :=
  let cs := (dropEnd? ['\x00'] s.toList).getD s.toList
  if cs.contains '\x00' then none else some (String.ofList cs)

theorem splitChar_ne_nil (sep : Char) (cs : List Char) : splitChar sep cs ≠ [] := by
  cases cs with
  | nil => exact List.cons_ne_nil _ _
  | cons c rest =>
    rw [splitChar]
    split
    · exact List.cons_ne_nil _ _
    · cases splitChar sep rest <;> exact List.cons_ne_nil _ _

/-- A separator cuts a text in two. -/
theorem splitChar_append (sep : Char) (a b : List Char) :
    splitChar sep (a ++ sep :: b) = splitChar sep a ++ splitChar sep b := by
  induction a with
  | nil => simp [splitChar]
  | cons c a ih =>
    rw [List.cons_append, splitChar, splitChar, ih]
    by_cases h : c = sep
    · rw [if_pos h, if_pos h, List.cons_append]
    · rw [if_neg h, if_neg h]
      cases ha : splitChar sep a with
      | nil => exact absurd ha (splitChar_ne_nil sep a)
      | cons piece rest => rfl

theorem splitChar_of_not_mem {sep : Char} {cs : List Char} (h : sep ∉ cs) :
    splitChar sep cs = [cs] := by
  induction cs with
  | nil => rfl
  | cons c rest ih =>
    have hne : c ≠ sep := by
      rintro rfl
      exact h List.mem_cons_self
    rw [splitChar, if_neg hne, ih (fun hmem => h (List.mem_cons_of_mem c hmem))]
    rfl

theorem dropStart?_append (p cs : List Char) : dropStart? p (p ++ cs) = some cs := by
  induction p with
  | nil => cases cs <;> rfl
  | cons c p ih => simp [dropStart?, ih]

/-- A character at the end of a text that the beginning does not hold changes nothing. -/
theorem dropStart?_append_of_not_mem {p : List Char} {c : Char} (hc : c ∉ p) (cs : List Char) :
    dropStart? p (cs ++ [c]) = (dropStart? p cs).map (· ++ [c]) := by
  induction p generalizing cs with
  | nil => cases cs <;> rfl
  | cons d p ih =>
    rw [List.mem_cons, not_or] at hc
    cases cs with
    | nil => simp [dropStart?, Ne.symm hc.1]
    | cons e cs =>
      simp only [List.cons_append, dropStart?, ih hc.2]
      split <;> rfl

theorem eq_append_of_dropStart? {p cs rest : List Char} (h : dropStart? p cs = some rest) :
    cs = p ++ rest := by
  induction p generalizing cs with
  | nil => cases cs <;> simp_all [dropStart?]
  | cons c p ih =>
    cases cs with
    | nil => simp [dropStart?] at h
    | cons d cs =>
      simp only [dropStart?] at h
      split at h
      · next hcd => rw [hcd, ih h, List.cons_append]
      · cases h

theorem dropEnd?_append (e cs : List Char) : dropEnd? e (cs ++ e) = some cs := by
  simp [dropEnd?, dropStart?_append]

theorem eq_append_of_dropEnd? {e cs front : List Char} (h : dropEnd? e cs = some front) :
    cs = front ++ e := by
  obtain ⟨r, hr, rfl⟩ := Option.map_eq_some_iff.1 h
  have := congrArg List.reverse (eq_append_of_dropStart? hr)
  simpa using this

end ExprHost.Text
