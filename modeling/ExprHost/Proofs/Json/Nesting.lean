import ExprHost.Proofs.Json.Scanning

/-!
# Reading values

The reader takes the tokens of a value one by one and ends up where the value belongs, however
deep the value is nested, so a value is read back from any of its texts.

* `Reader.run?_tokens`: **the tokens of a value complete it.**
* `isChain_tokens`: the tokens of a value are apart.
* `parse?_of_written`: **a value is read back from its texts.**
-/

namespace ExprHost.Json

namespace Reader

/-- A value that begins an array is read like any other. -/
theorem run?_firstItem (outer : List Frame) (v : Json) (ts : List Token) :
    run? (.firstItem outer) (v.tokens ++ ts) =
      run? (.value (.array [] :: outer)) (v.tokens ++ ts) := by
  cases v with
  | null | bool b | number text | string ps => simp only [tokens]; rfl
  | array items => cases items <;> (simp only [tokens]; rfl)
  | object members =>
    cases members with
    | nil => simp only [tokens]; rfl
    | cons m members => simp only [tokens]; rfl

mutual

/-- **The tokens of a value complete it.** -/
theorem run?_tokens : ∀ (v : Json) (outer : List Frame) (ts : List Token),
    run? (.value outer) (v.tokens ++ ts) = run? (complete v outer) ts
  | .null, outer, ts => by rw [tokens]; rfl
  | .bool b, outer, ts => by rw [tokens]; rfl
  | .number text, outer, ts => by rw [tokens]; rfl
  | .string ps, outer, ts => by rw [tokens]; rfl
  | .array [], outer, ts => by rw [tokens]; rfl
  | .array (v :: items), outer, ts => by
    have hopen : run? (.value outer) ((Json.array (v :: items)).tokens ++ ts) =
        run? (.firstItem outer) (v.tokens ++ (moreItems items ++ ts)) := by
      rw [tokens, List.cons_append, List.append_assoc]
      rfl
    rw [hopen, run?_firstItem, run?_tokens v]
    exact run?_moreItems items [v] outer ts
  | .object [], outer, ts => by rw [tokens]; rfl
  | .object ((key, v) :: members), outer, ts => by
    have hopen : run? (.value outer) ((Json.object ((key, v) :: members)).tokens ++ ts) =
        run? (.value (.object [] key :: outer)) (v.tokens ++ (moreMembers members ++ ts)) := by
      rw [tokens]
      simp only [List.cons_append, List.append_assoc]
      rfl
    rw [hopen, run?_tokens v]
    exact run?_moreMembers members [(key, v)] outer ts

theorem run?_moreItems : ∀ (items before : List Json) (outer : List Frame) (ts : List Token),
    run? (.afterItem before outer) (moreItems items ++ ts) =
      run? (complete (.array (before.reverse ++ items)) outer) ts
  | [], before, outer, ts => by
    rw [moreItems, List.append_nil]
    rfl
  | v :: items, before, outer, ts => by
    have hcomma : run? (.afterItem before outer) (moreItems (v :: items) ++ ts) =
        run? (.value (.array before :: outer)) (v.tokens ++ (moreItems items ++ ts)) := by
      rw [moreItems, List.cons_append, List.append_assoc]
      rfl
    have hrest := run?_moreItems items (v :: before) outer ts
    rw [List.reverse_cons, List.append_assoc, List.singleton_append] at hrest
    rw [hcomma, run?_tokens v]
    exact hrest

theorem run?_moreMembers : ∀ (members before : List (List Piece × Json)) (outer : List Frame)
    (ts : List Token), run? (.afterMember before outer) (moreMembers members ++ ts) =
      run? (complete (.object (before.reverse ++ members)) outer) ts
  | [], before, outer, ts => by
    rw [moreMembers, List.append_nil]
    rfl
  | (key, v) :: members, before, outer, ts => by
    have hcomma : run? (.afterMember before outer) (moreMembers ((key, v) :: members) ++ ts) =
        run? (.value (.object before key :: outer)) (v.tokens ++ (moreMembers members ++ ts)) := by
      rw [moreMembers]
      simp only [List.cons_append, List.append_assoc]
      rfl
    have hrest := run?_moreMembers members ((key, v) :: before) outer ts
    rw [List.reverse_cons, List.append_assoc, List.singleton_append] at hrest
    rw [hcomma, run?_tokens v]
    exact hrest

end

end Reader

theorem ofTokens?_tokens (v : Json) : ofTokens? v.tokens = some v := by
  have hrun := Reader.run?_tokens v [] []
  rw [List.append_nil] at hrun
  rw [ofTokens?, hrun]
  rfl

/-! ## Numbers in values -/

/-- A token that is no number does not run into the next one. -/
theorem isChain_cons {t : Token} (ht : t.isNumber = false) {ts : List Token}
    (hts : ts.IsChain Token.Apart) : (t :: ts).IsChain Token.Apart := by
  refine List.isChain_cons.2 ⟨fun u _ hnumber => ?_, hts⟩
  exact absurd (ht.symm.trans hnumber) Bool.false_ne_true

theorem head?_moreItems (items : List Json) (ts : List Token) :
    ∀ t ∈ (moreItems items ++ ts).head?, t.isNumber = false := by
  intro t ht
  cases items with
  | nil =>
    rw [moreItems] at ht
    obtain rfl := Option.some.inj ht
    rfl
  | cons v items =>
    rw [moreItems] at ht
    obtain rfl := Option.some.inj ht
    rfl

theorem head?_moreMembers (members : List (List Piece × Json)) (ts : List Token) :
    ∀ t ∈ (moreMembers members ++ ts).head?, t.isNumber = false := by
  intro t ht
  cases members with
  | nil =>
    rw [moreMembers] at ht
    obtain rfl := Option.some.inj ht
    rfl
  | cons m members =>
    rw [moreMembers] at ht
    obtain rfl := Option.some.inj ht
    rfl

mutual

/-- **The tokens of a value are apart,** also from what follows if that begins with no number. -/
theorem isChain_tokens : ∀ (v : Json) {ts : List Token},
    (∀ t ∈ ts.head?, t.isNumber = false) → ts.IsChain Token.Apart →
      (v.tokens ++ ts).IsChain Token.Apart
  | .null, ts, _, hts => by
    rw [tokens]
    exact isChain_cons rfl hts
  | .bool b, ts, _, hts => by
    rw [tokens]
    exact isChain_cons rfl hts
  | .string ps, ts, _, hts => by
    rw [tokens]
    exact isChain_cons rfl hts
  | .number text, ts, hfirst, hts => by
    rw [tokens]
    exact List.isChain_cons.2 ⟨fun u hu _ => hfirst u hu, hts⟩
  | .array [], ts, _, hts => by
    rw [tokens]
    exact isChain_cons rfl (isChain_cons rfl hts)
  | .array (v :: items), ts, _, hts => by
    rw [tokens, List.cons_append, List.append_assoc]
    exact isChain_cons rfl (isChain_tokens v (head?_moreItems items ts) (isChain_moreItems items hts))
  | .object [], ts, _, hts => by
    rw [tokens]
    exact isChain_cons rfl (isChain_cons rfl hts)
  | .object ((key, v) :: members), ts, _, hts => by
    have hrest := isChain_tokens v (head?_moreMembers members ts) (isChain_moreMembers members hts)
    rw [tokens, List.cons_append, List.cons_append, List.cons_append, List.append_assoc]
    exact isChain_cons rfl (isChain_cons rfl (isChain_cons rfl hrest))

theorem isChain_moreItems : ∀ (items : List Json) {ts : List Token}, ts.IsChain Token.Apart →
    (moreItems items ++ ts).IsChain Token.Apart
  | [], ts, hts => by
    rw [moreItems]
    exact isChain_cons rfl hts
  | v :: items, ts, hts => by
    rw [moreItems, List.cons_append, List.append_assoc]
    exact isChain_cons rfl (isChain_tokens v (head?_moreItems items ts) (isChain_moreItems items hts))

theorem isChain_moreMembers : ∀ (members : List (List Piece × Json)) {ts : List Token},
    ts.IsChain Token.Apart → (moreMembers members ++ ts).IsChain Token.Apart
  | [], ts, hts => by
    rw [moreMembers]
    exact isChain_cons rfl hts
  | (key, v) :: members, ts, hts => by
    have hrest := isChain_tokens v (head?_moreMembers members ts) (isChain_moreMembers members hts)
    rw [moreMembers, List.cons_append, List.cons_append, List.cons_append, List.append_assoc]
    exact isChain_cons rfl (isChain_cons rfl (isChain_cons rfl hrest))

end

/-- **A value is read back from its texts.** -/
theorem parse?_of_written {v : Json} {cs : List Char} (h : Written v cs) : parse? cs = some v := by
  have hapart : v.tokens.IsChain Token.Apart := by
    have happend : (v.tokens ++ []).IsChain Token.Apart :=
      isChain_tokens v (fun t ht => by cases ht) List.IsChain.nil
    rwa [List.append_nil] at happend
  rw [parse?, Token.scan_of_laid h hapart, Option.bind_some, ofTokens?_tokens]

/-- A carriage return at the end of a text is a space. -/
theorem parse?_append_return (cs : List Char) : parse? (cs ++ ['\r']) = parse? cs := by
  rw [parse?, parse?, Token.scan_append_return]

end ExprHost.Json
