import ExprHost.Proofs.Json.Meaning
import Mathlib.Data.List.Forall2

/-!
# Writing values

There is a way to write any text as a string, and to write any object of such strings on a line
of its own.

* `Piece.exists_written`: every text can be written.
* `exists_writable`: **every text is that of a string that can be written on one line.**
* `exists_written_object`: **so can objects of such strings.**
* `Token.written_plain`: strings that need no escapes.
-/

namespace ExprHost.Json

namespace Piece

variable {ps : List Piece}

/-- No line ends within a string. -/
theorem newline_not_mem_of_writtenAll {body : List Char} (h : WrittenAll ps body) :
    '\n' ∉ body := by
  have hescapes : ∀ e ∈ escapes, e.1 ≠ '\n' := by decide
  have hdigits : ∀ digits ∈ hexDigits, '\n' ∉ digits := by decide
  have hdigit {c : Char} {n : Nat} (hc : HexDigit c n) : c ≠ '\n' := by
    obtain ⟨digits, hmem, hget⟩ := hc
    exact fun heq => hdigits digits hmem (heq ▸ List.mem_of_getElem? hget)
  induction h with
  | nil => exact List.not_mem_nil
  | cons h hs ih =>
    refine fun hmem => (List.mem_append.1 hmem).elim ?_ ih
    cases h with
    | plain hcontrol hquote hback =>
      intro hc
      rw [← List.mem_singleton.1 hc] at hcontrol
      exact absurd hcontrol (by decide)
    | escape h => simpa using Ne.symm (hescapes _ h)
    | unit ha hb hc hd =>
      simpa using ⟨(hdigit ha).symm, (hdigit hb).symm, (hdigit hc).symm, (hdigit hd).symm⟩

theorem exists_hexDigit {n : Nat} (h : n < 16) : ∃ c, HexDigit c n :=
  ⟨_, "0123456789abcdef".toList, List.mem_cons_self, List.getElem?_eq_getElem h⟩

theorem exists_written_unit {n : Nat} (h : n < 0x10000) : ∃ text, Written (.unit n) text := by
  obtain ⟨a, ha⟩ := exists_hexDigit (n := n / 0x1000) (by omega)
  obtain ⟨b, hb⟩ := exists_hexDigit (n := n / 0x100 % 16) (by omega)
  obtain ⟨c, hc⟩ := exists_hexDigit (n := n / 0x10 % 16) (by omega)
  obtain ⟨d, hd⟩ := exists_hexDigit (n := n % 16) (by omega)
  have hwritten := Written.unit ha hb hc hd
  have hvalue : ((n / 0x1000 * 16 + n / 0x100 % 16) * 16 + n / 0x10 % 16) * 16 + n % 16 = n := by
    omega
  rw [hvalue] at hwritten
  exact ⟨_, hwritten⟩

/-- Every text can be written, with an escape for each unit. -/
theorem exists_written (cs : List Char) : ∃ ps body, Means ps cs ∧ WrittenAll ps body := by
  induction cs with
  | nil => exact ⟨[], [], .nil, .nil⟩
  | cons c cs ih =>
    obtain ⟨ps, body, hmeans, hbody⟩ := ih
    have hrange := toNat_range c
    by_cases hc : c.toNat < 0x10000
    · obtain ⟨text, htext⟩ := exists_written_unit hc
      exact ⟨_, _, .unit hc hmeans, .cons htext hbody⟩
    · -- beyond the first 2¹⁶ a character takes two units
      obtain ⟨high, hhigh⟩ := exists_written_unit
        (n := 0xD800 + (c.toNat - 0x10000) / 0x400) (by omega)
      obtain ⟨low, hlow⟩ := exists_written_unit
        (n := 0xDC00 + (c.toNat - 0x10000) % 0x400) (by omega)
      exact ⟨_, _, .pair (Nat.not_lt.1 hc) hmeans, .cons hhigh (.cons hlow hbody)⟩

end Piece

/-! ## Writing on one line -/

/-- The token can be written on one line. -/
def Token.Writable (t : Token) : Prop := ∃ text, Token.Written t text ∧ '\n' ∉ text

theorem Token.writable_mark {c : Char} {t : Token} (h : (c, t) ∈ Token.marks) : t.Writable := by
  have hmarks : ∀ m ∈ Token.marks, '\n' ∉ [m.1] := by decide
  exact ⟨[c], .mark h, hmarks _ h⟩

/-- **Every text is that of a string that can be written on one line.** -/
theorem exists_writable (cs : List Char) :
    ∃ ps, Piece.Means ps cs ∧ (Token.string ps).Writable := by
  obtain ⟨ps, body, hmeans, hbody⟩ := Piece.exists_written cs
  refine ⟨ps, hmeans, _, .string hbody, ?_⟩
  simpa using Piece.newline_not_mem_of_writtenAll hbody

theorem exists_laid {ts : List Token} (h : ∀ t ∈ ts, t.Writable) :
    ∃ cs, Token.Laid ts cs ∧ '\n' ∉ cs := by
  induction ts with
  | nil => exact ⟨[], .nil, List.not_mem_nil⟩
  | cons t ts ih =>
    obtain ⟨text, htext, hline⟩ := h t List.mem_cons_self
    obtain ⟨cs, hlaid, hrest⟩ := ih fun u hu => h u (List.mem_cons_of_mem t hu)
    exact ⟨text ++ cs, .token htext hlaid, fun hmem => (List.mem_append.1 hmem).elim hline hrest⟩

theorem writable_moreMembers {members : List (List Piece × Json)}
    (h : ∀ m ∈ members, (Token.string m.1).Writable ∧ ∀ t ∈ m.2.tokens, t.Writable) :
    ∀ t ∈ moreMembers members, t.Writable := by
  induction members with
  | nil => simpa [moreMembers] using Token.writable_mark (c := '\x7d') (by decide)
  | cons m members ih =>
    obtain ⟨key, v⟩ := m
    obtain ⟨hkey, hvalue⟩ := h _ List.mem_cons_self
    have hrest := ih fun m hm => h m (List.mem_cons_of_mem _ hm)
    intro t ht
    simp only [moreMembers, List.mem_cons, List.mem_append] at ht
    rcases ht with rfl | rfl | rfl | ht | ht
    · exact Token.writable_mark (c := ',') (by decide)
    · exact hkey
    · exact Token.writable_mark (c := ':') (by decide)
    · exact hvalue t ht
    · exact hrest t ht

/-- **An object can be written on one line** if its keys and values can. -/
theorem exists_written_object {members : List (List Piece × Json)}
    (h : ∀ m ∈ members, (Token.string m.1).Writable ∧ ∀ t ∈ m.2.tokens, t.Writable) :
    ∃ cs, Written (.object members) ('\x7b' :: cs) ∧ '\n' ∉ '\x7b' :: cs := by
  have hmore := writable_moreMembers h
  obtain ⟨rest, htokens, hrest⟩ :
      ∃ rest, (Json.object members).tokens = .openObject :: rest ∧ ∀ t ∈ rest, t.Writable := by
    cases members with
    | nil => exact ⟨[.closeObject], by rw [tokens], by simpa [moreMembers] using hmore⟩
    | cons m members =>
      -- the first member is written like the others but for the comma before it
      obtain ⟨key, v⟩ := m
      rw [moreMembers] at hmore
      exact ⟨_, by rw [tokens], fun t ht => hmore t (List.mem_cons_of_mem _ ht)⟩
  obtain ⟨cs, hlaid, hline⟩ := exists_laid hrest
  refine ⟨cs, ?_, by simpa using hline⟩
  rw [Written, htokens]
  exact .token (.mark (by decide)) hlaid

/-! ## Writing without escapes -/

/-- The pieces of a text whose characters stand for themselves. -/
def Piece.plain (s : String) : List Piece := s.toList.map .char

theorem Piece.means_plain (s : String) : Piece.Means (plain s) s.toList := by
  unfold plain
  induction s.toList with
  | nil => exact .nil
  | cons c cs ih => exact .char ih

/-- The character stands for itself in a string. -/
def isPlain (c : Char) : Bool := 0x20 ≤ c.toNat && c ≠ '"' && c ≠ '\\'

theorem Token.written_plain (s : String) (h : s.toList.all isPlain = true) :
    Written (.string (Piece.plain s)) ('"' :: (s.toList ++ ['"'])) := by
  refine .string ?_
  unfold Piece.plain
  generalize s.toList = cs at h
  induction cs with
  | nil => exact .nil
  | cons c cs ih =>
    rw [List.all_cons, Bool.and_eq_true] at h
    obtain ⟨⟨hcontrol, hquote⟩, hback⟩ :
        (0x20 ≤ c.toNat ∧ c ≠ '"') ∧ c ≠ '\\' := by simpa [isPlain] using h.1
    exact .cons (.plain hcontrol hquote hback) (ih h.2)

/-- The texts of tokens one right after another. -/
theorem Token.laid_flatten {ts : List Token} {texts : List (List Char)}
    (h : List.Forall₂ Written ts texts) : Laid ts texts.flatten := by
  induction h with
  | nil => exact .nil
  | cons h hs ih => exact .token h ih

end ExprHost.Json
