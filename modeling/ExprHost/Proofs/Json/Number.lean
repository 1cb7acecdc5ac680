import ExprHost.Proofs.Json.Grammar

/-!
# Reading numbers

A number is read off the front of a text up to the first character that cannot go on with it.
Each part of a number, and so the number, is read alike whatever comes after that point.

* `EndsNumber`: what cannot go on with a number.
* `Token.number?_append`: **what comes after a number does not matter.**
* `Token.number?_of_isNumber`: **the texts of numbers are read.**
-/

namespace ExprHost.Json

/-- What a reader gives when there is more text after what it was given. -/
def followedBy {α : Type} (more : List Char) (r : Option (α × List Char)) : Option (α × List Char) :=
  r.map fun (x, rest) => (x, rest ++ more)

/-- A text does not begin with a digit. -/
def NoDigit (more : List Char) : Prop := ∀ c ∈ more.head?, c.isDigit = false

/-- A text does not begin with anything that numbers have. -/
def EndsNumber (more : List Char) : Prop :=
  ∀ c ∈ more.head?, c.isDigit = false ∧ c ∉ ['.', 'e', 'E', '+', '-']

variable {more cs : List Char}

theorem EndsNumber.noDigit (h : EndsNumber more) : NoDigit more := fun c hc => (h c hc).1

theorem NoDigit.head?_ne (h : NoDigit more) {c : Char} (hc : c.isDigit = true) :
    more.head? ≠ some c := by
  intro hhead
  exact Bool.false_ne_true ((h c hhead).symm.trans hc)

theorem EndsNumber.head?_ne (h : EndsNumber more) {c : Char}
    (hc : c ∈ ['.', 'e', 'E', '+', '-']) : more.head? ≠ some c :=
  fun hhead => (h c hhead).2 hc

theorem IsDigits.head?_ne (h : IsDigits cs) {c : Char} (hc : c.isDigit = false) :
    cs.head? ≠ some c := by
  intro hhead
  exact Bool.false_ne_true (hc.symm.trans (h.2 c (List.mem_of_head? hhead)))

namespace Token

/-! ## Parts that are not there -/

theorem whole?_of_head (h : cs.head? ≠ some '0') : whole? cs = digits? cs := by
  unfold whole?
  split
  · exact absurd rfl h
  · rfl

theorem fraction?_of_head (h : cs.head? ≠ some '.') : fraction? cs = some ([], cs) := by
  unfold fraction?
  split
  · exact absurd rfl h
  · rfl

theorem sign_of_head (hplus : cs.head? ≠ some '+') (hminus : cs.head? ≠ some '-') :
    sign cs = ([], cs) := by
  unfold sign
  split
  · exact absurd rfl hplus
  · exact absurd rfl hminus
  · rfl

theorem exponent?_of_head (hlower : cs.head? ≠ some 'e') (hupper : cs.head? ≠ some 'E') :
    exponent? cs = some ([], cs) := by
  cases cs with
  | nil => rfl
  | cons c rest =>
    have hne : ¬ (c = 'e' ∨ c = 'E') := by simpa using And.intro hlower hupper
    rw [exponent?, if_neg hne]

theorem number?_of_head (h : cs.head? ≠ some '-') : number? cs = unsigned? cs := by
  unfold number?
  split
  · exact absurd rfl h
  · rfl

/-! ## Parts with text after them -/

theorem takeWhile_append_noDigit (hmore : NoDigit more) (cs : List Char) :
    (cs ++ more).takeWhile Char.isDigit = cs.takeWhile Char.isDigit ∧
      (cs ++ more).dropWhile Char.isDigit = cs.dropWhile Char.isDigit ++ more := by
  induction cs with
  | nil =>
    cases more with
    | nil => exact ⟨rfl, rfl⟩
    | cons c rest =>
      have hc : c.isDigit = false := hmore c rfl
      simp [hc]
  | cons c cs ih =>
    cases hc : c.isDigit with
    | true => simp [hc, ih]
    | false => simp [hc]

theorem digits?_append (hmore : NoDigit more) (cs : List Char) :
    digits? (cs ++ more) = followedBy more (digits? cs) := by
  obtain ⟨htake, hdrop⟩ := takeWhile_append_noDigit hmore cs
  rw [digits?, digits?, htake, hdrop]
  cases cs.takeWhile Char.isDigit <;> rfl

theorem whole?_append (hmore : NoDigit more) (cs : List Char) :
    whole? (cs ++ more) = followedBy more (whole? cs) := by
  cases cs with
  | nil =>
    rw [List.nil_append, whole?_of_head (hmore.head?_ne (by decide))]
    exact digits?_append hmore []
  | cons c cs =>
    by_cases hc : c = '0'
    · subst hc
      rfl
    · have hne : (c :: cs).head? ≠ some '0' := by simpa using hc
      rw [whole?_of_head hne, ← digits?_append hmore, whole?_of_head]
      exact hne

theorem fraction?_append (hmore : NoDigit more) (hdot : more.head? ≠ some '.') (cs : List Char) :
    fraction? (cs ++ more) = followedBy more (fraction? cs) := by
  cases cs with
  | nil => exact fraction?_of_head hdot
  | cons c cs =>
    by_cases hc : c = '.'
    · subst hc
      rw [List.cons_append, fraction?, fraction?, digits?_append hmore]
      cases digits? cs <;> rfl
    · have hne : (c :: cs).head? ≠ some '.' := by simpa using hc
      rw [fraction?_of_head hne, fraction?_of_head]
      · rfl
      · exact hne

theorem sign_append (hmore : EndsNumber more) (cs : List Char) :
    sign (cs ++ more) = ((sign cs).1, (sign cs).2 ++ more) := by
  cases cs with
  | nil => exact sign_of_head (hmore.head?_ne (by decide)) (hmore.head?_ne (by decide))
  | cons c cs =>
    by_cases hplus : c = '+'
    · subst hplus
      rfl
    · by_cases hminus : c = '-'
      · subst hminus
        rfl
      · have hne : (c :: cs).head? ≠ some '+' ∧ (c :: cs).head? ≠ some '-' := by
          simp [hplus, hminus]
        rw [sign_of_head hne.1 hne.2]
        exact sign_of_head hne.1 hne.2

theorem exponent?_append (hmore : EndsNumber more) (cs : List Char) :
    exponent? (cs ++ more) = followedBy more (exponent? cs) := by
  cases cs with
  | nil => exact exponent?_of_head (hmore.head?_ne (by decide)) (hmore.head?_ne (by decide))
  | cons c cs =>
    rw [List.cons_append, exponent?, exponent?, sign_append hmore, digits?_append hmore.noDigit]
    by_cases hc : c = 'e' ∨ c = 'E'
    · rw [if_pos hc, if_pos hc]
      cases digits? (sign cs).2 <;> rfl
    · rw [if_neg hc, if_neg hc]
      rfl

theorem unsigned?_append (hmore : EndsNumber more) (cs : List Char) :
    unsigned? (cs ++ more) = followedBy more (unsigned? cs) := by
  rw [unsigned?, unsigned?, whole?_append hmore.noDigit]
  cases whole? cs with
  | none => rfl
  | some w =>
    simp only [followedBy, Option.map_some, Option.bind_eq_bind, Option.bind_some,
      fraction?_append hmore.noDigit (hmore.head?_ne (by decide))]
    cases fraction? w.2 with
    | none => rfl
    | some f =>
      simp only [followedBy, Option.map_some, Option.bind_some, exponent?_append hmore]
      cases exponent? f.2 <;> rfl

/-- **What comes after a number does not matter,** if it cannot go on with it. -/
theorem number?_append (hmore : EndsNumber more) (cs : List Char) :
    number? (cs ++ more) = followedBy more (number? cs) := by
  cases cs with
  | nil =>
    rw [List.nil_append, number?_of_head (hmore.head?_ne (by decide))]
    exact unsigned?_append hmore []
  | cons c cs =>
    by_cases hc : c = '-'
    · subst hc
      rw [List.cons_append, number?, number?, unsigned?_append hmore]
      cases unsigned? cs <;> rfl
    · have hne : (c :: cs).head? ≠ some '-' := by simpa using hc
      rw [number?_of_head hne, ← unsigned?_append hmore, number?_of_head]
      exact hne

/-- A text that begins with neither a digit nor a sign is no number. -/
theorem number?_eq_none {c : Char} (hdigit : c.isDigit = false) (hminus : c ≠ '-')
    (rest : List Char) : number? (c :: rest) = none := by
  have hzero : (c :: rest).head? ≠ some '0' := by
    intro h
    obtain rfl := Option.some.inj h
    cases hdigit
  have hdigits : digits? (c :: rest) = none := by
    rw [digits?, List.takeWhile_cons_of_neg (by simp [hdigit])]
  rw [number?_of_head (by simpa using hminus), unsigned?, whole?_of_head hzero, hdigits]
  rfl

/-! ## The texts of numbers -/

theorem digits?_of_isDigits (h : IsDigits cs) : digits? cs = some (cs, []) := by
  obtain ⟨hne, hall⟩ := h
  have htake : (cs ++ []).takeWhile Char.isDigit = _ := List.takeWhile_append_of_pos hall
  have hdrop : (cs ++ []).dropWhile Char.isDigit = _ := List.dropWhile_append_of_pos hall
  rw [List.append_nil, List.takeWhile_nil, List.append_nil] at htake
  rw [List.append_nil, List.dropWhile_nil] at hdrop
  rw [digits?, htake, hdrop]
  cases cs with
  | nil => exact absurd rfl hne
  | cons c rest => rfl

theorem whole?_of_isWhole (h : IsWhole cs) : whole? cs = some (cs, []) := by
  rcases h with rfl | ⟨hdigits, hzero⟩
  · rfl
  · rw [whole?_of_head hzero, digits?_of_isDigits hdigits]

theorem fraction?_of_isFraction (h : IsFraction cs) : fraction? cs = some (cs, []) := by
  rcases h with rfl | ⟨ds, hds, rfl⟩
  · rfl
  · rw [fraction?, digits?_of_isDigits hds]
    rfl

theorem exponent?_of_isExponent (h : IsExponent cs) : exponent? cs = some (cs, []) := by
  rcases h with rfl | ⟨mark, hmark, s, hs, ds, hds, rfl⟩
  · rfl
  · have hsign : sign (s ++ ds) = (s, ds) := by
      simp only [List.mem_cons, List.not_mem_nil, or_false] at hs
      rcases hs with rfl | rfl | rfl
      · exact sign_of_head (hds.head?_ne (by decide)) (hds.head?_ne (by decide))
      · rfl
      · rfl
    have hexp : mark = 'e' ∨ mark = 'E' := by simpa using hmark
    rw [exponent?, if_pos hexp, hsign, digits?_of_isDigits hds]
    rfl

theorem unsigned?_of_parts {whole fraction exponent : List Char} (hwhole : IsWhole whole)
    (hfraction : IsFraction fraction) (hexponent : IsExponent exponent) :
    unsigned? (whole ++ (fraction ++ exponent)) =
      some (whole ++ (fraction ++ exponent), []) := by
  -- no part goes on with the one before it
  have hmark : ∀ c ∈ exponent.head?, c = 'e' ∨ c = 'E' := by
    rcases hexponent with rfl | ⟨mark, hmark, s, hs, ds, hds, rfl⟩
    · intro c hc
      cases hc
    · intro c hc
      obtain rfl := Option.some.inj hc
      simpa using hmark
  have hexp : NoDigit exponent ∧ exponent.head? ≠ some '.' := by
    constructor
    · intro c hc
      rcases hmark c hc with rfl | rfl <;> decide
    · intro h
      rcases hmark '.' h with h | h <;> exact absurd h (by decide)
  have hfrac : NoDigit (fraction ++ exponent) := by
    rcases hfraction with rfl | ⟨ds, hds, rfl⟩
    · exact hexp.1
    · intro c hc
      obtain rfl := Option.some.inj hc
      decide
  rw [unsigned?, whole?_append hfrac, whole?_of_isWhole hwhole]
  simp only [followedBy, Option.map_some, Option.bind_eq_bind, Option.bind_some, List.nil_append,
    fraction?_append hexp.1 hexp.2, fraction?_of_isFraction hfraction,
    exponent?_of_isExponent hexponent, List.append_assoc]
  rfl

theorem head?_of_parts {whole : List Char} (hwhole : IsWhole whole) (rest : List Char) :
    ∃ c, (whole ++ rest).head? = some c ∧ c.isDigit = true := by
  rcases hwhole with rfl | ⟨⟨hne, hall⟩, -⟩
  · exact ⟨'0', rfl, by decide⟩
  · cases whole with
    | nil => exact absurd rfl hne
    | cons c whole => exact ⟨c, rfl, hall c List.mem_cons_self⟩

/-- A number begins with a digit or a sign. -/
theorem head?_of_isNumber (h : IsNumber cs) :
    ∃ c, cs.head? = some c ∧ (c.isDigit = true ∨ c = '-') := by
  obtain ⟨s, hs, whole, fraction, exponent, hwhole, -, -, rfl⟩ := h
  simp only [List.mem_cons, List.not_mem_nil, or_false] at hs
  rcases hs with rfl | rfl
  · obtain ⟨c, hc, hdigit⟩ := head?_of_parts hwhole (fraction ++ exponent)
    exact ⟨c, hc, Or.inl hdigit⟩
  · exact ⟨'-', rfl, Or.inr rfl⟩

/-- **The texts of numbers are read.** -/
theorem number?_of_isNumber (h : IsNumber cs) : number? cs = some (cs, []) := by
  obtain ⟨s, hs, whole, fraction, exponent, hwhole, hfraction, hexponent, rfl⟩ := h
  have hparts := unsigned?_of_parts hwhole hfraction hexponent
  simp only [List.mem_cons, List.not_mem_nil, or_false] at hs
  rcases hs with rfl | rfl
  · obtain ⟨c, hc, hdigit⟩ := head?_of_parts hwhole (fraction ++ exponent)
    rw [List.nil_append, number?_of_head]
    · exact hparts
    · rw [hc]
      rintro h
      obtain rfl := Option.some.inj h
      cases hdigit
  · rw [List.cons_append, List.nil_append, number?, hparts]
    rfl

end Token

end ExprHost.Json
