import ExprHost.Proofs.Json.Number
import ExprHost.Text.Lines
import Mathlib.Data.List.Chain

/-!
# Reading tokens

Each token is read off the front of a text in any of its spellings, so tokens laid out with
spaces are read back. Only two numbers in a row could run into each other. A carriage
return at the end of a text is a space wherever the text stops, even within a token.

* `Token.stringBody_of_written`: a string is read in any of its spellings.
* `Token.first?_of_written`: so is every token.
* `Token.Apart`, `Token.scan_of_laid`: **tokens apart are read back.**
* `Token.scan_append_return`: **a carriage return at the end does not matter.**
-/

namespace ExprHost.Json

theorem value?_of_hexDigit {c : Char} {n : Nat} (h : HexDigit c n) : Hex.value? c = some n := by
  have hall : ∀ digits ∈ hexDigits, ∀ n < 16, (digits[n]?).bind Hex.value? = some n := by
    decide
  have hlt := h.lt
  obtain ⟨digits, hmem, hget⟩ := h
  have hvalue := hall digits hmem n hlt
  rwa [hget, Option.bind_some] at hvalue

namespace Token

/-! ## Strings -/

/-- An escape other than of a unit. -/
theorem stringBody_escape {e : Char} (he : e ≠ 'u') (rest : List Char) :
    stringBody ('\\' :: e :: rest) =
      (escaped? e).bind fun c => onPieces (.char c) (stringBody rest) := by
  rw [stringBody]
  · cases escaped? e <;> rfl
  · intro a b c d rest' hu
    exact absurd hu he

/-- A character that stands for itself, or may not stand in a string. -/
theorem stringBody_plain {c : Char} (hquote : c ≠ '"') (hback : c ≠ '\\') (rest : List Char) :
    stringBody (c :: rest) =
      if c.toNat < 0x20 then none else onPieces (.char c) (stringBody rest) := by
  rw [stringBody]
  · simp only [hback, or_false]
  · exact hquote
  · intro a b c' d rest' h
    exact absurd h hback
  · intro e rest' h
    exact absurd h hback

theorem stringBody_piece {p : Piece} {text : List Char} (h : Piece.Written p text)
    (rest : List Char) : stringBody (text ++ rest) = onPieces p (stringBody rest) := by
  cases h with
  | plain hcontrol hquote hback =>
    rw [List.singleton_append, stringBody_plain hquote hback, if_neg (Nat.not_lt.2 hcontrol)]
  | @escape letter c h =>
    have hall : ∀ e ∈ escapes, e.1 ≠ 'u' ∧ escaped? e.1 = some e.2 := by decide
    obtain ⟨hu, hc⟩ := hall _ h
    rw [List.cons_append, List.singleton_append, stringBody_escape hu, hc, Option.bind_some]
  | @unit a b c d k l m n ha hb hc hd =>
    have hnumber : Hex.number? 0 [a, b, c, d] = some (((k * 16 + l) * 16 + m) * 16 + n) := by
      simp [Hex.number?, value?_of_hexDigit ha, value?_of_hexDigit hb, value?_of_hexDigit hc,
        value?_of_hexDigit hd]
    simp only [List.cons_append, List.nil_append, stringBody, hnumber]

/-- **A string is read in any of its spellings.** -/
theorem stringBody_of_written {ps : List Piece} {body : List Char}
    (h : Piece.WrittenAll ps body) (rest : List Char) :
    stringBody (body ++ '"' :: rest) = some (ps, rest) := by
  induction h with
  | nil => rfl
  | cons h hs ih =>
    rw [List.append_assoc, stringBody_piece h, ih]
    rfl

/-! ## First tokens -/

theorem first?_mark {c : Char} {t : Token} (h : (c, t) ∈ marks) (rest : List Char) :
    first? (c :: rest) = some (t, rest) := by
  simp only [marks, List.mem_cons, Prod.mk.injEq, List.not_mem_nil, or_false] at h
  rcases h with ⟨rfl, rfl⟩ | ⟨rfl, rfl⟩ | ⟨rfl, rfl⟩ | ⟨rfl, rfl⟩ | ⟨rfl, rfl⟩ | ⟨rfl, rfl⟩ <;> rfl

/-- The characters that begin a token other than a word or a number. -/
def openers : List Char := '"' :: marks.map (·.1)

/-- What begins like no other token is a number, or no token at all. -/
theorem first?_number {cs : List Char} (hopen : ∀ c ∈ cs.head?, c ∉ openers)
    (hword : ∀ k ∈ keywords, ¬ (k.1 :: k.2.1) <+: cs) :
    first? cs = (number? cs).map fun (text, rest) => (.number text, rest) := by
  unfold first?
  split
  case h_8 rest => exact absurd ⟨rest, rfl⟩ (hword ('n', ['u', 'l', 'l'], .null) (by decide))
  case h_9 rest => exact absurd ⟨rest, rfl⟩ (hword ('t', ['r', 'u', 'e'], .bool true) (by decide))
  case h_10 rest =>
    exact absurd ⟨rest, rfl⟩ (hword ('f', ['a', 'l', 's', 'e'], .bool false) (by decide))
  case h_11 => rfl
  all_goals exact absurd (hopen _ rfl) (by decide)

theorem first?_keyword {c : Char} {word : List Char} {t : Token} (h : (c, word, t) ∈ keywords)
    (rest : List Char) :
    first? (c :: rest) = (Text.dropStart? word rest).map fun left => (t, left) := by
  cases hdrop : Text.dropStart? word rest with
  | some left =>
    rw [Text.eq_append_of_dropStart? hdrop]
    simp only [keywords, List.mem_cons, Prod.mk.injEq, List.not_mem_nil, or_false] at h
    rcases h with ⟨rfl, rfl, rfl⟩ | ⟨rfl, rfl, rfl⟩ | ⟨rfl, rfl, rfl⟩ <;> rfl
  | none =>
    -- the text does not go on with the word, and so it is read as a number, which it is not
    have hletters : ∀ k ∈ keywords, k.1 ∉ openers ∧ k.1.isDigit = false ∧ k.1 ≠ '-' := by decide
    have hsame : ∀ k ∈ keywords, ∀ k' ∈ keywords, k.1 = k'.1 → k = k' := by decide
    obtain ⟨hopen, hdigit, hminus⟩ := hletters _ h
    rw [first?_number, number?_eq_none hdigit hminus]
    · rfl
    · intro d hd
      obtain rfl := Option.some.inj hd
      exact hopen
    · intro k hk hpre
      obtain ⟨hc, left, rfl⟩ := List.cons_prefix_cons.1 hpre
      obtain rfl := hsame k hk _ h hc
      rw [Text.dropStart?_append] at hdrop
      cases hdrop

/-- What begins with none of the characters that other tokens begin with is a number, or no
token at all. -/
theorem first?_of_head {c : Char} (hopen : c ∉ openers) (hletter : ∀ k ∈ keywords, k.1 ≠ c)
    (rest : List Char) : first? (c :: rest) =
      (number? (c :: rest)).map fun (text, rest) => (.number text, rest) := by
  refine first?_number ?_ ?_
  · intro d hd
    obtain rfl := Option.some.inj hd
    exact hopen
  · intro k hk hpre
    exact hletter k hk (List.cons_prefix_cons.1 hpre).1

/-- Whether a token is a number. -/
def isNumber : Token → Bool
  | .number _ => true
  | _ => false

/-- **A token is read in any of its spellings,** a number if nothing goes on with it. -/
theorem first?_of_written {t : Token} {text : List Char} (h : Written t text) {rest : List Char}
    (hrest : t.isNumber = true → EndsNumber rest) : first? (text ++ rest) = some (t, rest) := by
  cases h with
  | mark h => exact first?_mark h rest
  | keyword h => rw [List.cons_append, first?_keyword h, Text.dropStart?_append, Option.map_some]
  | string h =>
    have hbody := stringBody_of_written h rest
    rw [List.cons_append, List.append_assoc, List.singleton_append, first?, hbody]
    rfl
  | number h =>
    obtain ⟨c, hc, hfront⟩ := head?_of_isNumber h
    obtain ⟨body, rfl⟩ := List.head?_eq_some_iff.1 hc
    have hopen : c ∉ openers := by
      have hall : ∀ d ∈ openers, ¬ (d.isDigit = true ∨ d = '-') := by simp [openers, marks]
      exact fun hmem => hall c hmem hfront
    have hletter : ∀ k ∈ keywords, k.1 ≠ c := by
      have hall : ∀ k ∈ keywords, ¬ (k.1.isDigit = true ∨ k.1 = '-') := by decide
      rintro k hk rfl
      exact hall k hk hfront
    rw [List.cons_append, first?_of_head hopen hletter, ← List.cons_append,
      number?_append (hrest rfl), number?_of_isNumber h]
    rfl

/-! ## All tokens -/

theorem scan_space {c : Char} (hc : isSpace c = true) (cs : List Char) :
    scan (c :: cs) = scan cs := by
  rw [scan, if_pos hc]

theorem scan_cons {c : Char} (hc : isSpace c = false) (cs : List Char) :
    scan (c :: cs) = (first? (c :: cs)).bind fun r => (scan r.2).map (r.1 :: ·) := by
  rw [scan, if_neg (by simp [hc])]
  split <;> rename_i h <;> rw [h] <;> rfl

/-- The text of a token begins with a character that is no space, and with one that cannot go
on with a number unless it is a number itself. -/
theorem head?_of_written {t : Token} {text : List Char} (h : Written t text) :
    ∃ c rest, text = c :: rest ∧ isSpace c = false ∧
      (t.isNumber = false → c.isDigit = false ∧ c ∉ ['.', 'e', 'E', '+', '-']) := by
  cases h with
  | @mark c t h =>
    have hall : ∀ m ∈ marks, isSpace m.1 = false ∧
        m.1.isDigit = false ∧ m.1 ∉ ['.', 'e', 'E', '+', '-'] := by decide
    exact ⟨c, [], rfl, (hall _ h).1, fun _ => (hall _ h).2⟩
  | @keyword c word t h =>
    have hall : ∀ k ∈ keywords, isSpace k.1 = false ∧
        k.1.isDigit = false ∧ k.1 ∉ ['.', 'e', 'E', '+', '-'] := by decide
    exact ⟨c, word, rfl, (hall _ h).1, fun _ => (hall _ h).2⟩
  | string h => exact ⟨'"', _, rfl, by decide, fun _ => by decide⟩
  | number h =>
    obtain ⟨c, hc, hfront⟩ := head?_of_isNumber h
    obtain ⟨rest, rfl⟩ := List.head?_eq_some_iff.1 hc
    refine ⟨c, rest, rfl, ?_, fun hnot => by cases hnot⟩
    have hspace : ∀ d, isSpace d = true → d.isDigit = false ∧ d ≠ '-' := by
      intro d hd
      simp only [isSpace, Bool.or_eq_true, decide_eq_true_eq] at hd
      rcases hd with ((rfl | rfl) | rfl) | rfl <;> decide
    cases hc : isSpace c with
    | false => rfl
    | true =>
      obtain ⟨hdigit, hminus⟩ := hspace c hc
      rcases hfront with h | h
      · exact absurd (hdigit.symm.trans h) Bool.false_ne_true
      · exact absurd h hminus

/-- Tokens that cannot run into each other: no number follows a number. -/
def Apart (t u : Token) : Prop := t.isNumber = true → u.isNumber = false

/-- Tokens of which the first is no number begin like nothing that goes on with a number. -/
theorem endsNumber_of_laid {ts : List Token} {cs : List Char} (h : Laid ts cs)
    (hfirst : ∀ t ∈ ts.head?, t.isNumber = false) : EndsNumber cs := by
  cases h with
  | nil =>
    intro c hc
    cases hc
  | space hspace hs =>
    intro c hc
    obtain rfl := Option.some.inj hc
    have hall : ∀ d ∈ [' ', '\t', '\r', '\n'],
        d.isDigit = false ∧ d ∉ ['.', 'e', 'E', '+', '-'] := by simp
    exact hall _ hspace
  | token ht hs =>
    obtain ⟨d, rest, rfl, -, hd⟩ := head?_of_written ht
    intro c hc
    obtain rfl := Option.some.inj hc
    exact hd (hfirst _ rfl)

/-- **Tokens apart are read back,** however they are laid out. -/
theorem scan_of_laid {ts : List Token} {cs : List Char} (h : Laid ts cs)
    (hapart : ts.IsChain Apart) : scan cs = some ts := by
  induction h with
  | nil => rw [scan]
  | @space c ts cs hc hs ih =>
    have hspace : isSpace c = true := by
      have hall : ∀ d ∈ [' ', '\t', '\r', '\n'], isSpace d = true := by simp [isSpace]
      exact hall c hc
    rw [scan_space hspace, ih hapart]
  | @token t ts text cs ht hs ih =>
    have hends : t.isNumber = true → EndsNumber cs := fun hnumber =>
      endsNumber_of_laid hs fun u hu => (List.isChain_cons.1 hapart).1 u hu hnumber
    have hfirst := first?_of_written ht hends
    obtain ⟨c, rest, rfl, hc, -⟩ := head?_of_written ht
    rw [List.cons_append] at hfirst ⊢
    rw [scan_cons hc, hfirst, Option.bind_some, ih (List.isChain_cons.1 hapart).2]
    rfl

/-! ## A carriage return at the end -/

theorem onPieces_followedBy (p : Piece) (more : List Char)
    (r : Option (List Piece × List Char)) :
    onPieces p (followedBy more r) = followedBy more (onPieces p r) := by
  cases r <;> rfl

theorem hexNumber?_append_return (acc : Nat) (cs : List Char) :
    Hex.number? acc (cs ++ ['\r']) = none := by
  rw [Hex.number?_append]
  cases Hex.number? acc cs <;> rfl

theorem stringBody_append_return (cs : List Char) :
    stringBody (cs ++ ['\r']) = followedBy ['\r'] (stringBody cs) := by
  fun_induction stringBody cs with
  | case1 => rfl
  | case2 rest => rfl
  | case3 a b c d rest h =>
    simp only [List.cons_append, stringBody, h]
    rfl
  | case4 a b c d rest n h ih =>
    simp only [List.cons_append, stringBody, h, ih, onPieces_followedBy]
  | case5 e rest hlong h =>
    by_cases hu : e = 'u'
    · -- too few digits for a unit, and a carriage return is none
      subst hu
      match rest with
      | [] => rfl
      | [a] => rfl
      | [a, b] => rfl
      | [a, b, c] =>
        have hnone : Hex.number? 0 [a, b, c, '\r'] = none := hexNumber?_append_return 0 [a, b, c]
        simp only [List.cons_append, List.nil_append, stringBody, hnone]
        rfl
      | a :: b :: c :: d :: rest' => exact (hlong a b c d rest' rfl rfl).elim
    · rw [List.cons_append, List.cons_append, stringBody_escape hu, h]
      rfl
  | case6 e rest hlong c h ih =>
    have hu : e ≠ 'u' := by
      rintro rfl
      cases h
    rw [List.cons_append, List.cons_append, stringBody_escape hu, h, Option.bind_some, ih,
      onPieces_followedBy]
  | case7 c rest hquote _ he hc =>
    by_cases hback : c = '\\'
    · -- nothing follows the backslash but the carriage return, which is no escape
      cases rest with
      | nil =>
        subst hback
        rfl
      | cons e rest => exact (he e rest hback rfl).elim
    · rw [List.cons_append, stringBody_plain hquote hback, if_pos (hc.resolve_right hback)]
      rfl
  | case8 c rest hquote _ _ hc ih =>
    obtain ⟨hcontrol, hback⟩ := not_or.1 hc
    rw [List.cons_append, stringBody_plain hquote hback, if_neg hcontrol, ih,
      onPieces_followedBy]

theorem first?_append_return (cs : List Char) :
    first? (cs ++ ['\r']) = followedBy ['\r'] (first? cs) := by
  cases cs with
  | nil => rfl
  | cons c rest =>
    rw [List.cons_append]
    by_cases hopen : c ∈ openers
    · rcases List.mem_cons.1 hopen with rfl | hmark
      · rw [first?, first?, stringBody_append_return]
        cases stringBody rest <;> rfl
      · obtain ⟨⟨c, t⟩, ht, rfl⟩ := List.mem_map.1 hmark
        rw [first?_mark ht, first?_mark ht]
        rfl
    · by_cases hword : ∃ k ∈ keywords, k.1 = c
      · obtain ⟨⟨c, word, t⟩, hk, rfl⟩ := hword
        have hreturn : '\r' ∉ word := by
          have hall : ∀ k ∈ keywords, '\r' ∉ k.2.1 := by decide
          exact hall _ hk
        rw [first?_keyword hk, first?_keyword hk, Text.dropStart?_append_of_not_mem hreturn]
        cases Text.dropStart? word rest <;> rfl
      · have hends : EndsNumber ['\r'] := by
          intro d hd
          obtain rfl := Option.some.inj hd
          decide
        have hletter : ∀ k ∈ keywords, k.1 ≠ c := fun k hk hc => hword ⟨k, hk, hc⟩
        rw [first?_of_head hopen hletter, first?_of_head hopen hletter, ← List.cons_append,
          number?_append hends]
        cases number? (c :: rest) <;> rfl

/-- **A carriage return at the end does not matter,** whatever the text is. -/
theorem scan_append_return (cs : List Char) : scan (cs ++ ['\r']) = scan cs := by
  fun_induction scan cs with
  | case1 =>
    rw [List.nil_append, scan_space (by decide), scan]
  | case2 c rest hc ih =>
    rw [List.cons_append, scan_space hc, ih]
  | case3 c rest hc h =>
    rw [List.cons_append, scan_cons (by simpa using hc), ← List.cons_append,
      first?_append_return, h]
    rfl
  | case4 c rest hc t left h ih =>
    rw [List.cons_append, scan_cons (by simpa using hc), ← List.cons_append,
      first?_append_return, h]
    simp only [followedBy, Option.map_some, Option.bind_some, ih]

end Token

end ExprHost.Json
