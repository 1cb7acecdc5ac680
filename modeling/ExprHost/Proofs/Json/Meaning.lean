import ExprHost.Proofs.Json.Grammar

/-!
# The text of a string

Reading the pieces of a string undoes the pairing of surrogates: the text it gives is the one
the pieces stand for, as long as their units have 16 bits, which those of a written string do.

* `Piece.text?_of_means`, `Piece.means_of_text?`: **what is read is what was meant,** and back.
* `units_of_written`: the units of the keys and strings of a written object have 16 bits.
-/

namespace ExprHost.Json

namespace Piece

variable {ps : List Piece} {cs : List Char}

theorem toNat_range (c : Char) : c.toNat < 0xD800 ∨ 0xDFFF < c.toNat ∧ c.toNat < 0x110000 := c.valid

/-- **The text that pieces stand for is read off them.** -/
theorem text?_of_means (h : Means ps cs) : text? ps = some cs := by
  induction h with
  | nil => rfl
  | char hs ih => rw [text?, ih, Option.map_some]
  | @unit c ps cs hc hs ih =>
    have hrange := toNat_range c
    unfold text?
    rw [if_neg (by omega), if_neg (by omega), ih, Option.map_some, Char.ofNat_toNat]
  | @pair c ps cs hc hs ih =>
    have hrange := toNat_range c
    have hvalue : 0x10000 + (0xD800 + (c.toNat - 0x10000) / 0x400 - 0xD800) * 0x400 +
        (0xDC00 + (c.toNat - 0x10000) % 0x400 - 0xDC00) = c.toNat := by omega
    rw [text?, if_pos (by omega), if_pos (by omega), ih, Option.map_some, hvalue, Char.ofNat_toNat]

/-- The units of pieces have 16 bits. -/
def Units (ps : List Piece) : Prop := ∀ n, .unit n ∈ ps → n < 0x10000

theorem Units.tail {p : Piece} (h : Units (p :: ps)) : Units ps := fun n hn =>
  h n (List.mem_cons_of_mem p hn)

theorem toNat_ofNat {n : Nat} (h : n < 0xD800 ∨ 0xDFFF < n ∧ n < 0x110000) :
    (Char.ofNat n).toNat = n := by
  rw [Char.ofNat, dif_pos h]
  rfl

/-- **Pieces stand for the text that is read off them.** -/
theorem means_of_text? (hunits : Units ps) (h : text? ps = some cs) : Means ps cs := by
  fun_induction text? ps generalizing cs with
  | case1 =>
    cases h
    exact .nil
  | case2 c rest ih =>
    obtain ⟨cs', hrest, rfl⟩ := Option.map_eq_some_iff.1 h
    exact .char (ih hunits.tail hrest)
  | case3 n hhigh m rest hlow ih =>
    obtain ⟨cs', hrest, rfl⟩ := Option.map_eq_some_iff.1 h
    -- both units are computed back from the character that they make up
    have hvalue := toNat_ofNat (n := 0x10000 + (n - 0xD800) * 0x400 + (m - 0xDC00)) (by omega)
    have hn : n = 0xD800 + (0x10000 + (n - 0xD800) * 0x400 + (m - 0xDC00) - 0x10000) / 0x400 := by
      omega
    have hm : m = 0xDC00 + (0x10000 + (n - 0xD800) * 0x400 + (m - 0xDC00) - 0x10000) % 0x400 := by
      omega
    have hpair := Means.pair (c := Char.ofNat (0x10000 + (n - 0xD800) * 0x400 + (m - 0xDC00)))
      (by omega) (ih hunits.tail.tail hrest)
    rw [hvalue, ← hn, ← hm] at hpair
    exact hpair
  | case4 | case5 | case6 => cases h
  | case7 n rest hhigh hlow ih =>
    obtain ⟨cs', hrest, rfl⟩ := Option.map_eq_some_iff.1 h
    have hn := hunits n List.mem_cons_self
    have hvalue := toNat_ofNat (n := n) (by omega)
    have hunit := Means.unit (c := Char.ofNat n) (by omega) (ih hunits.tail hrest)
    rw [hvalue] at hunit
    exact hunit

theorem units_of_writtenAll {body : List Char} (h : WrittenAll ps body) : Units ps := by
  induction h with
  | nil => exact fun n hn => by cases hn
  | cons h hs ih =>
    intro n hn
    rcases List.mem_cons.1 hn with rfl | hn
    · cases h with
      | unit ha hb hc hd =>
        have := ha.lt
        have := hb.lt
        have := hc.lt
        have := hd.lt
        omega
    · exact ih n hn

end Piece

/-! ## Strings in objects -/

theorem units_of_laid {ts : List Token} {cs : List Char} (h : Token.Laid ts cs) {ps : List Piece}
    (hmem : .string ps ∈ ts) : Piece.Units ps := by
  induction h with
  | nil => cases hmem
  | space hc hs ih => exact ih hmem
  | token h hs ih =>
    rcases List.mem_cons.1 hmem with rfl | hmem
    · cases h with
      | string hbody => exact Piece.units_of_writtenAll hbody
      | mark h => exact absurd h (by simp [Token.marks])
      | keyword h => exact absurd h (by simp [Token.keywords])
    · exact ih hmem

theorem string_mem_moreMembers {key ps : List Piece} {v : Json}
    {members : List (List Piece × Json)} (hmem : (key, v) ∈ members)
    (h : ps = key ∨ v = .string ps) : .string ps ∈ moreMembers members := by
  induction members with
  | nil => cases hmem
  | cons m members ih =>
    obtain ⟨key', v'⟩ := m
    rw [moreMembers]
    rcases List.mem_cons.1 hmem with heq | hmem
    · cases heq
      rcases h with rfl | rfl
      · simp
      · simp [tokens]
    · simp [ih hmem]

/-- **The units of the keys and strings of a written object have 16 bits.** -/
theorem units_of_written {members : List (List Piece × Json)} {cs : List Char}
    (hwritten : Written (.object members) cs) {key ps : List Piece} {v : Json}
    (hmem : (key, v) ∈ members) (h : ps = key ∨ v = .string ps) : Piece.Units ps := by
  refine units_of_laid hwritten ?_
  cases members with
  | nil => cases hmem
  | cons m members =>
    have hmore := string_mem_moreMembers hmem h
    obtain ⟨key', v'⟩ := m
    rw [moreMembers] at hmore
    rw [tokens]
    refine List.mem_cons_of_mem _ ((List.mem_cons.1 hmore).resolve_left ?_)
    exact Token.noConfusion

end ExprHost.Json
