import ExprHost.Text.Utf8
import Mathlib.Data.List.Basic

/-!
# Texts and their bytes

The byte strings without malformed parts are exactly the bytes of texts, and each is read as the
text whose bytes it has. Texts are ordered by their characters as their bytes are.

* `State.run_utf8EncodeChar`: the bytes of a character are read as that character.
* `State.exists_char`: **where nothing is malformed, the bytes begin with those of a character.**
* `strict?_eq_some_iff`: **what is read as a text are its bytes, and nothing else.**
* `encode_lt_iff`: **the order of texts is the order of their bytes.**
-/

namespace ExprHost.Utf8

namespace State

theorem toNat_ofNat_byte {n : Nat} (h : n < 256) : (UInt8.ofNat n).toNat = n := by
  rw [UInt8.toNat_ofNat']
  omega

/-- The first byte of a character, by its number. -/
theorem run_lead {n : Nat} (h : n < 256) (rest : Bytes) : start.run (UInt8.ofNat n :: rest) =
    if n < 0x80 then some (Char.ofNat n) :: start.run rest
    else if n < 0xC2 then none :: start.run rest
    else if n < 0xE0 then (within 0x80 0xBF 0 (n % 32)).run rest
    else if n < 0xF0 then
      (within (if n = 0xE0 then 0xA0 else 0x80) (if n = 0xED then 0x9F else 0xBF) 1 (n % 16)).run
        rest
    else if n < 0xF5 then
      (within (if n = 0xF0 then 0x90 else 0x80) (if n = 0xF4 then 0x8F else 0xBF) 2 (n % 8)).run
        rest
    else none :: start.run rest := by
  rw [run, step, lead]
  simp only [UInt8.lt_iff_toNat_lt, ← UInt8.toNat_inj, toNat_ofNat_byte h, UInt8.reduceToNat]
  repeat' split
  all_goals rfl

section

variable {low high : UInt8} {more value n : Nat} (hn : n < 256) (hlow : low.toNat ≤ n)
  (hhigh : n ≤ high.toNat)
include hn hlow hhigh

theorem in_range : low ≤ UInt8.ofNat n ∧ UInt8.ofNat n ≤ high := by
  simp only [UInt8.le_iff_toNat_le, toNat_ofNat_byte hn]
  exact ⟨hlow, hhigh⟩

/-- The last byte of a character completes it. -/
theorem run_last (rest : Bytes) : (within low high 0 value).run (UInt8.ofNat n :: rest) =
    some (Char.ofNat (value * 64 + n % 64)) :: start.run rest := by
  rw [run, step, if_pos (in_range hn hlow hhigh), toNat_ofNat_byte hn]
  rfl

/-- A byte before the last adds to the value of a character. -/
theorem run_more (rest : Bytes) : (within low high (more + 1) value).run (UInt8.ofNat n :: rest) =
    (within 0x80 0xBF more (value * 64 + n % 64)).run rest := by
  rw [run, step, if_pos (in_range hn hlow hhigh), toNat_ofNat_byte hn]
  rfl

end

/-- **The bytes of a character are read as that character.** -/
theorem run_utf8EncodeChar (c : Char) (rest : Bytes) :
    start.run (String.utf8EncodeChar c ++ rest) = some c :: start.run rest := by
  have hvalid : c.val.toNat < 55296 ∨ 57343 < c.val.toNat ∧ c.val.toNat < 1114112 := c.valid
  have hchar : Char.ofNat c.val.toNat = c := Char.ofNat_toNat c
  unfold String.utf8EncodeChar
  generalize c.val.toNat = v at *
  dsimp only
  -- one case for each number of bytes; what is read in them adds up to the value
  split
  · rw [List.singleton_append, run_lead (by omega), if_pos (by omega), hchar]
  split
  · have hvalue : (v / 64 % 32 + 192) % 32 * 64 + (v % 64 + 128) % 64 = v := by omega
    rw [List.cons_append, List.singleton_append, run_lead (by omega), if_neg (by omega),
      if_neg (by omega), if_pos (by omega), run_last (by omega) (by simp) (by simp; omega), hvalue,
      hchar]
  split
  · have hvalue : ((v / 4096 % 16 + 224) % 16 * 64 + (v / 64 % 64 + 128) % 64) * 64 +
        (v % 64 + 128) % 64 = v := by omega
    rw [List.cons_append, List.cons_append, List.singleton_append, run_lead (by omega),
      if_neg (by omega), if_neg (by omega), if_neg (by omega), if_pos (by omega),
      run_more (by omega) (by split <;> simp; omega) (by split <;> simp <;> omega),
      run_last (by omega) (by simp) (by simp; omega), hvalue, hchar]
  · have hvalue : (((v / 262144 % 8 + 240) % 8 * 64 + (v / 4096 % 64 + 128) % 64) * 64 +
        (v / 64 % 64 + 128) % 64) * 64 + (v % 64 + 128) % 64 = v := by omega
    rw [List.cons_append, List.cons_append, List.cons_append, List.singleton_append,
      run_lead (by omega), if_neg (by omega), if_neg (by omega), if_neg (by omega),
      if_neg (by omega), if_pos (by omega),
      run_more (by omega) (by split <;> simp; omega) (by split <;> simp <;> omega),
      run_more (by omega) (by simp) (by simp; omega),
      run_last (by omega) (by simp) (by simp; omega), hvalue, hchar]

/-- Within a character that is not malformed there is a byte in the range. -/
theorem exists_of_run_within {low high : UInt8} {more value : Nat} {b : Bytes}
    (h : none ∉ (within low high more value).run b) :
    ∃ n rest, n < 256 ∧ b = UInt8.ofNat n :: rest ∧ low.toNat ≤ n ∧ n ≤ high.toNat := by
  cases b with
  | nil => simp [run, finish] at h
  | cons x rest =>
    refine ⟨x.toNat, rest, x.toNat_lt, by rw [UInt8.ofNat_toNat], ?_⟩
    by_contra hrange
    rw [← UInt8.le_iff_toNat_le, ← UInt8.le_iff_toNat_le] at hrange
    simp [run, step, hrange] at h

theorem utf8EncodeChar_ofNat {v : Nat} (h : v.isValidChar) : String.utf8EncodeChar (Char.ofNat v) =
    if v ≤ 127 then [UInt8.ofNat v]
    else if v ≤ 2047 then [UInt8.ofNat (v / 64 % 32 + 192), UInt8.ofNat (v % 64 + 128)]
    else if v ≤ 65535 then
      [UInt8.ofNat (v / 4096 % 16 + 224), UInt8.ofNat (v / 64 % 64 + 128),
        UInt8.ofNat (v % 64 + 128)]
    else
      [UInt8.ofNat (v / 262144 % 8 + 240), UInt8.ofNat (v / 4096 % 64 + 128),
        UInt8.ofNat (v / 64 % 64 + 128), UInt8.ofNat (v % 64 + 128)] := by
  have hv : (Char.ofNat v).val.toNat = v := by
    rw [Char.ofNat, dif_pos h]
    rfl
  unfold String.utf8EncodeChar
  rw [hv]

/-- Two bytes in the right ranges are those of a character. -/
theorem exists_char_two {n m : Nat} (hn : 0xC2 ≤ n ∧ n < 0xE0) (hm : 0x80 ≤ m ∧ m ≤ 0xBF) :
    ∃ c, String.utf8EncodeChar c = [UInt8.ofNat n, UInt8.ofNat m] := by
  refine ⟨Char.ofNat (n % 32 * 64 + m % 64), ?_⟩
  rw [utf8EncodeChar_ofNat (.inl (by omega)), if_neg (by omega), if_pos (by omega)]
  congr <;> omega

/-- Three bytes in the right ranges are those of a character. -/
theorem exists_char_three {n m l : Nat} (hn : 0xE0 ≤ n ∧ n < 0xF0) (hm : 0x80 ≤ m ∧ m ≤ 0xBF)
    (hshort : n = 0xE0 → 0xA0 ≤ m) (hsurrogate : n = 0xED → m ≤ 0x9F) (hl : 0x80 ≤ l ∧ l ≤ 0xBF) :
    ∃ c, String.utf8EncodeChar c = [UInt8.ofNat n, UInt8.ofNat m, UInt8.ofNat l] := by
  have hvalid : Nat.isValidChar ((n % 16 * 64 + m % 64) * 64 + l % 64) := by
    unfold Nat.isValidChar
    omega
  refine ⟨Char.ofNat ((n % 16 * 64 + m % 64) * 64 + l % 64), ?_⟩
  rw [utf8EncodeChar_ofNat hvalid, if_neg (by omega), if_neg (by omega), if_pos (by omega)]
  congr <;> omega

/-- Four bytes in the right ranges are those of a character. -/
theorem exists_char_four {n m l k : Nat} (hn : 0xF0 ≤ n ∧ n < 0xF5) (hm : 0x80 ≤ m ∧ m ≤ 0xBF)
    (hshort : n = 0xF0 → 0x90 ≤ m) (hlarge : n = 0xF4 → m ≤ 0x8F) (hl : 0x80 ≤ l ∧ l ≤ 0xBF)
    (hk : 0x80 ≤ k ∧ k ≤ 0xBF) :
    ∃ c, String.utf8EncodeChar c =
      [UInt8.ofNat n, UInt8.ofNat m, UInt8.ofNat l, UInt8.ofNat k] := by
  have hvalid : Nat.isValidChar (((n % 8 * 64 + m % 64) * 64 + l % 64) * 64 + k % 64) := by
    unfold Nat.isValidChar
    omega
  refine ⟨Char.ofNat (((n % 8 * 64 + m % 64) * 64 + l % 64) * 64 + k % 64), ?_⟩
  rw [utf8EncodeChar_ofNat hvalid, if_neg (by omega), if_neg (by omega), if_neg (by omega)]
  congr <;> omega

/-- The range of a second byte is the common one, but for one first byte at either end. -/
theorem range_of_ite {n a b m : Nat} {low high : UInt8}
    (hlow : (if n = a then low else 0x80).toNat ≤ m)
    (hhigh : m ≤ (if n = b then high else 0xBF).toNat)
    (h : 0x80 ≤ low.toNat ∧ high.toNat ≤ 0xBF) :
    (0x80 ≤ m ∧ m ≤ 0xBF) ∧ (n = a → low.toNat ≤ m) ∧ (n = b → m ≤ high.toNat) := by
  simp only [apply_ite UInt8.toNat, UInt8.reduceToNat] at hlow hhigh
  split at hlow <;> split at hhigh <;> omega

/-- **Where nothing is malformed, the bytes begin with those of a character.** -/
theorem exists_char {x : UInt8} {b : Bytes} (h : none ∉ start.run (x :: b)) :
    ∃ c rest, x :: b = String.utf8EncodeChar c ++ rest ∧ none ∉ start.run rest := by
  obtain ⟨n, hn, rfl⟩ : ∃ n < 256, x = UInt8.ofNat n :=
    ⟨x.toNat, x.toNat_lt, UInt8.ofNat_toNat.symm⟩
  rw [run_lead hn] at h
  split at h
  · have hc : String.utf8EncodeChar (Char.ofNat n) = [UInt8.ofNat n] := by
      rw [utf8EncodeChar_ofNat (.inl (by omega)), if_pos (by omega)]
    exact ⟨_, b, by rw [hc, List.singleton_append], fun hmem => h (List.mem_cons_of_mem _ hmem)⟩
  split at h
  · exact absurd List.mem_cons_self h
  split at h
  · obtain ⟨m, b, hm, rfl, hlow, hhigh⟩ := exists_of_run_within h
    rw [run_last hm hlow hhigh] at h
    obtain ⟨c, hc⟩ := exists_char_two (n := n) ⟨by omega, by omega⟩ ⟨hlow, hhigh⟩
    exact ⟨c, b, by rw [hc]; rfl, fun hmem => h (List.mem_cons_of_mem _ hmem)⟩
  split at h
  · obtain ⟨m, b, hm, rfl, hlow, hhigh⟩ := exists_of_run_within h
    rw [run_more hm hlow hhigh] at h
    obtain ⟨l, b, hl, rfl, hl₁, hl₂⟩ := exists_of_run_within h
    rw [run_last hl hl₁ hl₂] at h
    obtain ⟨hrange, hshort, hsurrogate⟩ := range_of_ite hlow hhigh (by decide)
    obtain ⟨c, hc⟩ := exists_char_three ⟨by omega, by omega⟩ hrange hshort hsurrogate ⟨hl₁, hl₂⟩
    exact ⟨c, b, by rw [hc]; rfl, fun hmem => h (List.mem_cons_of_mem _ hmem)⟩
  split at h
  · obtain ⟨m, b, hm, rfl, hlow, hhigh⟩ := exists_of_run_within h
    rw [run_more hm hlow hhigh] at h
    obtain ⟨l, b, hl, rfl, hl₁, hl₂⟩ := exists_of_run_within h
    rw [run_more hl hl₁ hl₂] at h
    obtain ⟨k, b, hk, rfl, hk₁, hk₂⟩ := exists_of_run_within h
    rw [run_last hk hk₁ hk₂] at h
    obtain ⟨hrange, hshort, hlarge⟩ := range_of_ite hlow hhigh (by decide)
    obtain ⟨c, hc⟩ := exists_char_four ⟨by omega, by omega⟩ hrange hshort hlarge ⟨hl₁, hl₂⟩
      ⟨hk₁, hk₂⟩
    exact ⟨c, b, by rw [hc]; rfl, fun hmem => h (List.mem_cons_of_mem _ hmem)⟩
  · exact absurd List.mem_cons_self h

end State

/-! ## Reading what was written -/

theorem decode_encode (cs : List Char) : decode (encode cs) = cs.map some := by
  induction cs with
  | nil => rfl
  | cons c cs ih =>
    rw [encode, List.flatMap_cons, decode, State.run_utf8EncodeChar, List.map_cons]
    exact congrArg _ ih

/-- Bytes without malformed parts are those of a text. The induction is on their number, as a
character takes several of them. -/
theorem exists_eq_encode (b : Bytes) (h : none ∉ decode b) : ∃ cs, b = encode cs := by
  induction hn : b.length using Nat.strongRecOn generalizing b with
  | ind n ih =>
    cases b with
    | nil => exact ⟨[], rfl⟩
    | cons x b =>
      obtain ⟨c, rest, hsplit, hrest⟩ := State.exists_char h
      have hlt : rest.length < n := by
        have hc := c.utf8Size_pos
        rw [← hn, hsplit, List.length_append, String.length_utf8EncodeChar]
        omega
      obtain ⟨cs, rfl⟩ := ih rest.length hlt rest hrest rfl
      exact ⟨c :: cs, hsplit⟩

/-- Nothing is missing when all are there. -/
theorem mapM_id_eq_some_iff {l : List (Option Char)} {cs : List Char} :
    l.mapM id = some cs ↔ l = cs.map some := by
  induction l generalizing cs with
  | nil => cases cs <;> simp
  | cons o l ih =>
    rw [List.mapM_cons]
    cases cs with
    | nil => cases o <;> simp [Option.bind_eq_some_iff]
    | cons c cs => cases o <;> simp [Option.bind_eq_some_iff, ih, and_comm]

theorem strict?_encode (cs : List Char) : strict? (encode cs) = some cs := by
  rw [strict?, decode_encode, mapM_id_eq_some_iff]

/-- **What is read as a text are its bytes,** and nothing else. -/
theorem strict?_eq_some_iff {b : Bytes} {cs : List Char} : strict? b = some cs ↔ b = encode cs := by
  constructor
  · intro h
    have hdecode : decode b = cs.map some := mapM_id_eq_some_iff.1 h
    obtain ⟨cs', rfl⟩ := exists_eq_encode b (by simp [hdecode])
    rw [strict?_encode] at h
    rw [Option.some.inj h]
  · rintro rfl
    exact strict?_encode cs

/-! ## The order of bytes -/

theorem cons_lt_of_lt {n m : Nat} (hm : m < 256) (h : n < m) (x y : Bytes) :
    UInt8.ofNat n :: x < UInt8.ofNat m :: y := by
  refine List.cons_lt_cons_iff.2 (.inl ?_)
  rwa [UInt8.lt_iff_toNat_lt, State.toNat_ofNat_byte hm, State.toNat_ofNat_byte (by omega)]

theorem cons_lt_of_le {n m : Nat} (hm : m < 256) (h : n ≤ m) {x y : Bytes} (hrest : n = m → x < y) :
    UInt8.ofNat n :: x < UInt8.ofNat m :: y := by
  rcases Nat.lt_or_eq_of_le h with hlt | rfl
  · exact cons_lt_of_lt hm hlt x y
  · exact List.cons_lt_cons_iff.2 (.inr ⟨rfl, hrest rfl⟩)

/-- The bytes of the lesser of two characters come first, whatever follows them. -/
theorem utf8EncodeChar_append_lt {c d : Char} (h : c < d) (x y : Bytes) :
    String.utf8EncodeChar c ++ x < String.utf8EncodeChar d ++ y := by
  have hlt : c.val.toNat < d.val.toNat := h
  have hvalid : d.val.toNat < 55296 ∨ 57343 < d.val.toNat ∧ d.val.toNat < 1114112 := d.valid
  unfold String.utf8EncodeChar
  generalize c.val.toNat = v at *
  generalize d.val.toNat = w at *
  dsimp only
  -- a character with more bytes has a greater first byte, and of those with as many bytes
  -- the first byte in which they differ decides
  split
  · split
    · exact cons_lt_of_lt (by omega) hlt _ _
    repeat' split
    all_goals exact cons_lt_of_lt (by omega) (by omega) _ _
  rw [if_neg (show ¬w ≤ 127 by omega)]
  split
  · split
    · exact cons_lt_of_le (by omega) (by omega) fun _ => cons_lt_of_lt (by omega) (by omega) _ _
    repeat' split
    all_goals exact cons_lt_of_lt (by omega) (by omega) _ _
  rw [if_neg (show ¬w ≤ 2047 by omega)]
  split
  · split
    · exact cons_lt_of_le (by omega) (by omega) fun _ => cons_lt_of_le (by omega) (by omega)
        fun _ => cons_lt_of_lt (by omega) (by omega) _ _
    · exact cons_lt_of_lt (by omega) (by omega) _ _
  rw [if_neg (show ¬w ≤ 65535 by omega)]
  exact cons_lt_of_le (by omega) (by omega) fun _ => cons_lt_of_le (by omega) (by omega) fun _ =>
    cons_lt_of_le (by omega) (by omega) fun _ => cons_lt_of_lt (by omega) (by omega) _ _

theorem encode_lt_of_lt {a b : List Char} (h : a < b) : encode a < encode b := by
  induction a generalizing b with
  | nil =>
    cases b with
    | nil => exact absurd h (List.not_lt_nil [])
    | cons d b =>
      -- a character has at least one byte
      obtain ⟨x, more, hd⟩ := List.exists_cons_of_ne_nil
        (List.length_pos_iff.1 (String.length_utf8EncodeChar d ▸ d.utf8Size_pos))
      rw [encode, encode, List.flatMap_cons, hd]
      exact List.nil_lt_cons _ _
  | cons c a ih =>
    cases b with
    | nil => exact absurd h (List.not_lt_nil _)
    | cons d b =>
      rw [encode, encode, List.flatMap_cons, List.flatMap_cons]
      rcases List.cons_lt_cons_iff.1 h with hlt | ⟨rfl, hlt⟩
      · exact utf8EncodeChar_append_lt hlt _ _
      · exact List.append_left_lt (ih hlt)

/-- **The order of texts is the order of their bytes.** -/
theorem encode_lt_iff {a b : List Char} : encode a < encode b ↔ a < b := by
  refine ⟨?_, encode_lt_of_lt⟩
  intro h
  by_contra hle
  rcases List.le_iff_lt_or_eq.1 (List.not_lt.1 hle) with hlt | rfl
  · exact List.lt_asymm h (encode_lt_of_lt hlt)
  · exact List.lt_irrefl _ h

theorem bytes_lt_iff {s t : String} : bytes s < bytes t ↔ s < t := by
  rw [bytes, bytes, encode_lt_iff, String.lt_iff]

theorem bytes_le_iff {s t : String} : bytes s ≤ bytes t ↔ s ≤ t := by
  have hnot : bytes s ≤ bytes t ↔ ¬bytes t < bytes s := Iff.rfl
  rw [hnot, bytes_lt_iff, String.not_lt]

end ExprHost.Utf8
