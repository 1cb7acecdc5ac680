/-!
# Bytes and text

UTF-8 in both directions. Decoding is a machine that steps over the bytes: each
malformed part, as long as it could still have become a character, counts once.

* `decode`: the characters of a byte string, `none` for each malformed part.
* `lossy`, `strict?`: malformed parts replaced, or refused.
* `run_newline`: a line feed cuts decoding in two, whatever stands before it.
-/

namespace ExprHost

/-- A byte string. -/
abbrev Bytes := List UInt8

namespace Utf8

/-- The bytes of a text. -/
def encode (cs : List Char) : Bytes := cs.flatMap String.utf8EncodeChar

/-- The bytes of a string. -/
def bytes (s : String) : Bytes := encode s.toList

/-- Texts are told apart by their bytes. -/
theorem encode_injective {a b : List Char} (h : encode a = encode b) : a = b := by
  have hbytes : a.utf8Encode = b.utf8Encode := congrArg List.toByteArray h
  have hread := congrArg ByteArray.utf8Decode? hbytes
  rw [List.utf8Decode?_utf8Encode, List.utf8Decode?_utf8Encode] at hread
  simpa using hread

theorem bytes_append (a b : String) : bytes (a ++ b) = bytes a ++ bytes b := by
  rw [bytes, String.toList_append, encode, List.flatMap_append]
  rfl

/-- A text of ASCII characters has a byte for each. -/
theorem length_encode_of_ascii {cs : List Char} (h : ∀ c ∈ cs, c.val ≤ 127) :
    (encode cs).length = cs.length := by
  induction cs with
  | nil => rfl
  | cons c rest ih =>
    have hsize : c.utf8Size = 1 := Char.utf8Size_eq_one_iff.2 (h c List.mem_cons_self)
    have hrest := ih fun d hd => h d (List.mem_cons_of_mem c hd)
    rw [encode] at hrest ⊢
    rw [List.flatMap_cons, List.length_append, String.length_utf8EncodeChar, hsize, hrest,
      List.length_cons, Nat.add_comm]

/-- Letters and digits are ASCII characters. -/
theorem ascii_of_isAlphanum {c : Char} (h : c.isAlphanum = true) : c.val ≤ 127 := by
  unfold Char.isAlphanum Char.isAlpha Char.isUpper Char.isLower Char.isDigit at h
  simp only [Bool.or_eq_true, Bool.and_eq_true, decide_eq_true_eq, ge_iff_le] at h
  rcases h with (⟨-, h⟩ | ⟨-, h⟩) | ⟨-, h⟩
  · exact UInt32.le_trans h (by decide)
  · exact UInt32.le_trans h (by decide)
  · exact UInt32.le_trans h (by decide)

/-- Where decoding stands: between characters, or within one whose next byte must
lie between `low` and `high`, with `more` bytes after that and `value` read so far. -/
inductive State
  | start
  | within (low high : UInt8) (more value : Nat)

namespace State

/-- A byte that has to begin a character. The narrower second ranges keep out
overlong forms, surrogates and values past the last code point. -/
def lead (b : UInt8) : List (Option Char) × State :=
  if b < 0x80 then ([some (Char.ofNat b.toNat)], start)
  else if b < 0xC2 then ([none], start)
  else if b < 0xE0 then ([], within 0x80 0xBF 0 (b.toNat % 32))
  else if b < 0xF0 then
    ([], within (if b = 0xE0 then 0xA0 else 0x80) (if b = 0xED then 0x9F else 0xBF) 1 (b.toNat % 16))
  else if b < 0xF5 then
    ([], within (if b = 0xF0 then 0x90 else 0x80) (if b = 0xF4 then 0x8F else 0xBF) 2 (b.toNat % 8))
  else ([none], start)

/-- One byte: what it completes, and where decoding stands after it. A byte that
does not continue a character ends a malformed part and begins anew. -/
def step : State → UInt8 → List (Option Char) × State
  | start, b => lead b
  | within low high more value, b =>
    if low ≤ b ∧ b ≤ high then
      match more with
      | 0 => ([some (Char.ofNat (value * 64 + b.toNat % 64))], start)
      | more + 1 => ([], within 0x80 0xBF more (value * 64 + b.toNat % 64))
    else (none :: (lead b).1, (lead b).2)

/-- The end of the bytes: a character that is still open is a malformed part. -/
def finish : State → List (Option Char)
  | start => []
  | within .. => [none]

/-- All bytes, from a given state. -/
def run : State → Bytes → List (Option Char)
  | s, [] => s.finish
  | s, b :: rest => (s.step b).1 ++ run (s.step b).2 rest

/-- The low end of a continuation range never lies below the bytes that continue. -/
def Continuing : State → Prop
  | start => True
  | within low _ _ _ => 0x80 ≤ low

theorem continuing_lead (b : UInt8) : (lead b).2.Continuing := by
  unfold lead
  repeat' split
  all_goals simp [Continuing]

theorem continuing_step {s : State} (_ : s.Continuing) (b : UInt8) : (s.step b).2.Continuing := by
  cases s with
  | start => exact continuing_lead b
  | within low high more value =>
    simp only [step]
    split
    · cases more <;> simp [Continuing]
    · exact continuing_lead b

theorem lead_newline : lead 0x0A = ([some '\n'], start) := rfl

/-- A line feed ends whatever was open and is itself a character. -/
theorem step_newline {s : State} (h : s.Continuing) :
    s.step 0x0A = (s.finish ++ [some '\n'], start) := by
  cases s with
  | start => rfl
  | within low high more value =>
    have hlow : ¬ (low ≤ 0x0A ∧ (0x0A : UInt8) ≤ high) := by
      intro hc
      have h1 : (0x80 : UInt8) ≤ 0x0A := UInt8.le_trans h hc.1
      exact absurd h1 (by decide)
    simp only [step, if_neg hlow, lead_newline, finish, List.singleton_append]

/-- **A line feed cuts decoding in two.** -/
theorem run_newline {s : State} (h : s.Continuing) (a b : Bytes) :
    s.run (a ++ 0x0A :: b) = s.run a ++ some '\n' :: start.run b := by
  induction a generalizing s with
  | nil => simp [run, step_newline h]
  | cons x a ih => simp [run, ih (continuing_step h x)]

end State

/-- The characters of a byte string, `none` for each malformed part. -/
def decode (b : Bytes) : List (Option Char) := State.start.run b

/-- The text of a byte string, each malformed part replaced by U+FFFD. -/
def lossy (b : Bytes) : List Char := (decode b).map (·.getD '\ufffd')

/-- The text of a byte string that has no malformed part. -/
def strict? (b : Bytes) : Option (List Char) := (decode b).mapM id

theorem lossy_newline (a b : Bytes) : lossy (a ++ 0x0A :: b) = lossy a ++ '\n' :: lossy b := by
  simp [lossy, decode, State.run_newline (s := .start) trivial]

end Utf8

end ExprHost
