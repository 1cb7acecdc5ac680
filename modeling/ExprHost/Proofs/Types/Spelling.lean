import ExprHost.Types.HostType

/-!
# Spellings of host types

A host type's descriptor renders as the spelling of the type, and the spelling reads
back as the type, so different types never look alike in a generated source.

* `TypeDesc.stripMark_of_not_mem`: a name without a marker stays as it is.
* `HostType.render_desc`: **a host type renders as its spelling.**
* `HostType.Reads`: a type stands at the front of a text.
* `HostType.reads_spelling`: **a spelling reads back, whatever follows its end.**
* `HostType.eq_append_of_reads`: **what is read off a text is spelled there.**
-/

namespace ExprHost

namespace TypeDesc

/-- A name without a marker stays as it is. -/
theorem stripMark_of_not_mem {name : List Char} (h : arityMarker ∉ name) :
    stripMark name = name := by
  cases hback : name.reverse.dropWhile Char.isDigit with
  | nil => simp only [stripMark, hback]
  | cons c front =>
    -- what stands before the digits is a character of the name, and so no marker
    have hc : c ∈ name.reverse.dropWhile Char.isDigit := by
      rw [hback]
      exact List.mem_cons_self
    have hmem : c ∈ name := List.mem_reverse.1 ((List.dropWhile_sublist _).subset hc)
    have hne : c ≠ arityMarker := by
      intro heq
      exact h (heq ▸ hmem)
    simp only [stripMark, hback, hne, false_and, if_false]

theorem render_plain (name : TypeName) (crate : Crate) :
    (plain name crate).render = stripArity name.simple := by
  rw [plain, render, fill, fillAbove, renderAll]
  simp [level]

/-- A generic type with all its arguments renders as its name and the arguments. -/
theorem render_applied (name : TypeName) (crate : Crate) {args : List TypeDesc} (hne : args ≠ []) :
    ((parametric name crate args.length).applied args).render =
      name.simple ++ "<" ++ Text.join ", " (args.map render) ++ ">" := by
  have hlen : args.length ≠ 0 := by
    intro h
    exact hne (List.eq_nil_of_length_eq_zero h)
  have htake : (args.map render).take args.length = args.map render :=
    List.take_of_length_le (Nat.le_of_eq (List.length_map _))
  have hstrip : stripArity (name.simple ++ markText args.length) = name.simple := by
    rw [stripArity, String.toList_append, stripMark_append_mark, String.ofList_toList]
  have hempty : (args.map render).isEmpty = false := by
    rw [List.isEmpty_map, List.isEmpty_eq_false_iff]
    exact hne
  rw [parametric, if_neg hlen, applied, render, fill, fillAbove, renderAll_eq_map]
  simp only [TypeName.addSuffix, htake, level, hempty, hstrip]
  simp

end TypeDesc

namespace HostType

theorem Atom.render_desc (a : Atom) : a.desc.render = a.text := by
  have hstrip : TypeDesc.stripArity a.text = a.text := by
    have hmark : TypeDesc.arityMarker ∉ a.text.toList := by cases a <;> decide
    rw [TypeDesc.stripArity, TypeDesc.stripMark_of_not_mem hmark, String.ofList_toList]
  have hname : ∃ name crate, a.desc = .plain name crate ∧ name.simple = a.text := by
    cases a
    case string => exact ⟨_, _, rfl, by decide⟩
    all_goals exact ⟨_, _, rfl, rfl⟩
  obtain ⟨name, crate, hdesc, hsimple⟩ := hname
  rw [hdesc, TypeDesc.render_plain, hsimple, hstrip]

theorem Unary.simple_ofPath (c : Unary) :
    (TypeName.ofPath (c.home ++ "::" ++ c.text)).simple = c.text := by
  cases c <;> decide

theorem Binary.simple_ofPath (c : Binary) :
    (TypeName.ofPath (c.home ++ "::" ++ c.text)).simple = c.text := by
  cases c <;> decide

/-- **A host type renders as its spelling.** -/
theorem render_desc (t : HostType) : t.desc.render = t.spelling := by
  induction t with
  | atom a => exact a.render_desc
  | unary c arg ih =>
    have hrender := TypeDesc.render_applied (.ofPath (c.home ++ "::" ++ c.text)) .std
      (List.cons_ne_nil arg.desc [])
    rw [c.simple_ofPath, List.length_singleton] at hrender
    rw [desc, Unary.desc, spelling, ← ih, hrender, List.map_singleton, Text.join]
  | binary c first second ihFirst ihSecond =>
    have hrender := TypeDesc.render_applied (.ofPath (c.home ++ "::" ++ c.text)) .std
      (List.cons_ne_nil first.desc [second.desc])
    rw [c.simple_ofPath, List.length_cons, List.length_singleton] at hrender
    rw [desc, Binary.desc, spelling, ← ihFirst, ← ihSecond, hrender]
    simp only [List.map_cons, List.map_nil, Text.join, String.append_assoc]

/-! ## Reading back -/

/-- A type is read off the front of a text, and leaves the rest of it. -/
def Reads (t : HostType) (cs rest : List Char) : Prop :=
  ∃ h, read? cs = some (t, ⟨rest, h⟩)

/-- A text at whose front a type can end. -/
def Closed (rest : List Char) : Prop := ∀ c ∈ rest.head?, c = '>' ∨ c = ','

theorem after?_append (p rest : List Char) :
    ∃ h, after? p (p ++ rest) = some ⟨rest, h⟩ := by
  have hdrop := Text.dropStart?_append p rest
  have hle : rest.length ≤ (p ++ rest).length := by
    rw [List.length_append]
    omega
  refine ⟨hle, ?_⟩
  unfold after?
  split
  · rename_i hnone
    rw [hdrop] at hnone
    cases hnone
  · rename_i r hsome
    obtain rfl := Option.some.inj (hdrop.symm.trans hsome)
    rfl

/-- A name in front of a text that ends it. -/
theorem takeWhile_name {name : List Char} (rest : List Char)
    (hname : name.all (!endsName ·) = true) (hrest : ∀ c ∈ rest.head?, endsName c = true) :
    (name ++ rest).takeWhile (!endsName ·) = name ∧
      (name ++ rest).dropWhile (!endsName ·) = rest := by
  have hpos := List.all_eq_true.1 hname
  rw [List.takeWhile_append_of_pos hpos, List.dropWhile_append_of_pos hpos]
  cases rest with
  | nil => simp
  | cons c more =>
    have hc : (!endsName c) = false := by
      rw [hrest c rfl]
      rfl
    rw [List.takeWhile_cons_of_neg (by simp [hc]), List.dropWhile_cons_of_neg (by simp [hc])]
    simp

theorem Atom.all_text (a : Atom) : a.text.toList.all (!endsName ·) = true := by
  cases a <;> decide

theorem Unary.all_text (k : Unary) : k.text.toList.all (!endsName ·) = true := by
  cases k <;> decide

theorem Binary.all_text (k : Binary) : k.text.toList.all (!endsName ·) = true := by
  cases k <;> decide

theorem Atom.find?_text (a : Atom) : Atom.all.find? (·.text = a.text) = some a := by
  cases a <;> decide

theorem Unary.find?_text (k : Unary) : Unary.all.find? (·.text = k.text) = some k := by
  cases k <;> decide

theorem Binary.find?_text (k : Binary) :
    Unary.all.find? (·.text = k.text) = none ∧ Binary.all.find? (·.text = k.text) = some k := by
  cases k <;> decide

theorem reads_atom (a : Atom) {rest : List Char} (hrest : Closed rest) :
    Reads (.atom a) (a.text.toList ++ rest) rest := by
  have hends : ∀ c ∈ rest.head?, endsName c = true := by
    intro c hc
    rcases hrest c hc with rfl | rfl <;> rfl
  obtain ⟨htake, hdrop⟩ := takeWhile_name rest a.all_text hends
  have hle : rest.length ≤ (a.text.toList ++ rest).length := by
    rw [List.length_append]
    omega
  refine ⟨hle, ?_⟩
  rw [read?]
  simp only [htake, String.ofList_toList]
  split
  · -- what follows does not open a list of arguments
    rename_i inner hinner
    rw [hdrop] at hinner
    have hlt := hrest '<' (by rw [hinner]; rfl)
    exact absurd hlt (by decide)
  · rw [a.find?_text]
    simp only [hdrop, Option.bind_eq_bind, Option.bind_some, Option.pure_def]

theorem reads_unary (k : Unary) {arg : HostType} {inner rest : List Char}
    (hinner : Reads arg inner ('>' :: rest)) :
    Reads (.unary k arg) (k.text.toList ++ '<' :: inner) rest := by
  obtain ⟨harg, hread⟩ := hinner
  obtain ⟨hclose, hafter⟩ := after?_append ['>'] rest
  obtain ⟨htake, hdrop⟩ := takeWhile_name ('<' :: inner) k.all_text
    (by intro c hc; obtain rfl := Option.some.inj hc; rfl)
  have hle : rest.length ≤ (k.text.toList ++ '<' :: inner).length := by
    rw [List.length_append, List.length_cons]
    rw [List.length_cons] at harg
    omega
  refine ⟨hle, ?_⟩
  rw [read?]
  simp only [htake, String.ofList_toList]
  split
  · rename_i inner' hinner'
    obtain rfl := (List.cons.inj (hdrop.symm.trans hinner')).2
    simp only [List.singleton_append] at hafter
    simp only [k.find?_text, hread, hafter, Option.bind_eq_bind, Option.bind_some, Option.pure_def]
  · rename_i hne
    exact absurd hdrop (hne inner)

theorem reads_binary (k : Binary) {first second : HostType} {inner middle rest : List Char}
    (hfirst : Reads first inner (',' :: ' ' :: middle)) (hsecond : Reads second middle ('>' :: rest)) :
    Reads (.binary k first second) (k.text.toList ++ '<' :: inner) rest := by
  obtain ⟨hle₁, hread₁⟩ := hfirst
  obtain ⟨hle₂, hread₂⟩ := hsecond
  obtain ⟨hcomma, hafter₁⟩ := after?_append [',', ' '] middle
  obtain ⟨hclose, hafter₂⟩ := after?_append ['>'] rest
  obtain ⟨htake, hdrop⟩ := takeWhile_name ('<' :: inner) k.all_text
    (by intro c hc; obtain rfl := Option.some.inj hc; rfl)
  have hle : rest.length ≤ (k.text.toList ++ '<' :: inner).length := by
    rw [List.length_append, List.length_cons]
    simp only [List.length_cons] at hle₁ hle₂
    omega
  refine ⟨hle, ?_⟩
  rw [read?]
  simp only [htake, String.ofList_toList]
  split
  · rename_i inner' hinner'
    obtain rfl := (List.cons.inj (hdrop.symm.trans hinner')).2
    obtain ⟨hnone, hsome⟩ := k.find?_text
    simp only [List.cons_append, List.nil_append] at hafter₁ hafter₂
    simp only [hnone, hsome, hread₁, hafter₁, hread₂, hafter₂, Option.bind_eq_bind,
      Option.bind_some, Option.pure_def]
  · rename_i hne
    exact absurd hdrop (hne inner)

/-- **A spelling reads back, whatever follows its end.** -/
theorem reads_spelling (t : HostType) : ∀ {rest : List Char}, Closed rest →
    Reads t (t.spelling.toList ++ rest) rest := by
  have hclose : ∀ rest, Closed ('>' :: rest) := by
    intro rest c hc
    exact Or.inl (Option.some.inj hc).symm
  have hcomma : ∀ rest, Closed (',' :: rest) := by
    intro rest c hc
    exact Or.inr (Option.some.inj hc).symm
  induction t with
  | atom a =>
    intro rest hrest
    exact reads_atom a hrest
  | unary k arg ih =>
    intro rest _
    have htext : (unary k arg).spelling.toList ++ rest =
        k.text.toList ++ '<' :: (arg.spelling.toList ++ '>' :: rest) := by
      simp [spelling]
    rw [htext]
    exact reads_unary k (ih (hclose rest))
  | binary k first second ihFirst ihSecond =>
    intro rest _
    have htext : (binary k first second).spelling.toList ++ rest =
        k.text.toList ++ '<' :: (first.spelling.toList ++ ',' :: ' ' ::
          (second.spelling.toList ++ '>' :: rest)) := by
      simp [spelling]
    rw [htext]
    exact reads_binary k (ihFirst (hcomma _)) (ihSecond (hclose rest))

theorem eq_append_of_after? {p cs : List Char} {rest : { rest : List Char // rest.length ≤ cs.length }}
    (h : after? p cs = some rest) : cs = p ++ rest.val := by
  unfold after? at h
  split at h
  · cases h
  · rename_i r hr
    obtain rfl := Option.some.inj h
    exact Text.eq_append_of_dropStart? hr

/-- A name that is found stands before the rest of its text. -/
theorem eq_text_append {α : Type} {text : α → String} {all : List α} {a : α} {cs rest : List Char}
    (hfind : all.find? (fun a => text a = String.ofList (cs.takeWhile (!endsName ·))) = some a)
    (hrest : cs.dropWhile (!endsName ·) = rest) : cs = (text a).toList ++ rest := by
  have hname : text a = String.ofList (cs.takeWhile (!endsName ·)) := by
    simpa using List.find?_some hfind
  rw [hname, String.toList_ofList, ← hrest, List.takeWhile_append_dropWhile]

/-- **The three ways a type is read off a text,** by the kind of its constructor. -/
theorem reads_cases {t : HostType} {cs rest : List Char} (h : Reads t cs rest) :
    (∃ a, t = .atom a ∧ cs = a.text.toList ++ rest) ∨
    (∃ k arg inner, t = .unary k arg ∧ cs = k.text.toList ++ '<' :: inner ∧
      Reads arg inner ('>' :: rest)) ∨
    ∃ k first second inner middle, t = .binary k first second ∧
      cs = k.text.toList ++ '<' :: inner ∧ Reads first inner (',' :: ' ' :: middle) ∧
      Reads second middle ('>' :: rest) := by
  obtain ⟨hle, hread⟩ := h
  rw [read?] at hread
  simp only at hread
  split at hread
  · rename_i inner hinner
    split at hread
    · rename_i k hk
      simp only [Option.bind_eq_bind, Option.bind_eq_some_iff, Option.pure_def,
        Option.some.injEq] at hread
      obtain ⟨⟨arg, r, hr⟩, harg, ⟨rest', hrest'⟩, hafter, heq⟩ := hread
      obtain ⟨rfl, hsub⟩ := Prod.mk.inj heq
      obtain rfl : rest' = rest := Subtype.mk.inj hsub
      obtain rfl : r = '>' :: rest' := eq_append_of_after? hafter
      exact Or.inr (Or.inl ⟨k, arg, inner, rfl, eq_text_append hk hinner, hr, harg⟩)
    · rename_i k _ hk
      simp only [Option.bind_eq_bind, Option.bind_eq_some_iff, Option.pure_def,
        Option.some.injEq] at hread
      obtain ⟨⟨first, r, hr⟩, hfirst, ⟨middle, hmiddle⟩, hcomma, ⟨second, u, hu⟩, hsecond,
        ⟨rest', hrest'⟩, hclose, heq⟩ := hread
      obtain ⟨rfl, hsub⟩ := Prod.mk.inj heq
      obtain rfl : rest' = rest := Subtype.mk.inj hsub
      obtain rfl : r = ',' :: ' ' :: middle := eq_append_of_after? hcomma
      obtain rfl : u = '>' :: rest' := eq_append_of_after? hclose
      exact Or.inr (Or.inr ⟨k, first, second, inner, middle, rfl, eq_text_append hk hinner,
        ⟨hr, hfirst⟩, hu, hsecond⟩)
    · cases hread
  · simp only [Option.bind_eq_bind, Option.bind_eq_some_iff, Option.pure_def,
      Option.some.injEq] at hread
    obtain ⟨a, ha, heq⟩ := hread
    obtain ⟨rfl, hsub⟩ := Prod.mk.inj heq
    exact Or.inl ⟨a, rfl, eq_text_append ha (Subtype.mk.inj hsub)⟩

/-- **What is read off a text is spelled there.** -/
theorem eq_append_of_reads (t : HostType) : ∀ {cs rest : List Char}, Reads t cs rest →
    cs = t.spelling.toList ++ rest := by
  induction t with
  | atom a =>
    intro cs rest h
    rcases reads_cases h with ⟨a', ht, hcs⟩ | ⟨k, arg, inner, ht, -⟩ | ⟨k, u, v, inner, r, ht, -⟩
    · obtain rfl := HostType.atom.inj ht
      exact hcs
    · cases ht
    · cases ht
  | unary k arg ih =>
    intro cs rest h
    rcases reads_cases h with ⟨a, ht, -⟩ | ⟨k', arg', inner, ht, hcs, harg⟩ | ⟨k', u, v, inner, r, ht, -⟩
    · cases ht
    · obtain ⟨rfl, rfl⟩ := HostType.unary.inj ht
      have hinner := ih harg
      rw [hcs, hinner]
      simp [spelling]
    · cases ht
  | binary k first second ihFirst ihSecond =>
    intro cs rest h
    rcases reads_cases h with ⟨a, ht, -⟩ | ⟨k', arg, inner, ht, -⟩ |
      ⟨k', first', second', inner, middle, ht, hcs, hfirst, hsecond⟩
    · cases ht
    · cases ht
    · obtain ⟨rfl, rfl, rfl⟩ := HostType.binary.inj ht
      have hinner := ihFirst hfirst
      have hmiddle := ihSecond hsecond
      rw [hcs, hinner, hmiddle]
      simp [spelling]

theorem ofSpelling?_spelling (t : HostType) : ofSpelling? t.spelling = some t := by
  have hclosed : Closed [] := by
    intro c hc
    cases hc
  have hreads := reads_spelling t hclosed
  rw [List.append_nil] at hreads
  obtain ⟨hle, hread⟩ := hreads
  rw [ofSpelling?, hread]

/-- **A host type renders as its spelling, and can be told from it.** -/
theorem render_desc_determines (t : HostType) :
    t.desc.render = t.spelling ∧ ofSpelling? t.desc.render = some t ∧
      ∀ u : HostType, u.desc.render = t.desc.render → u = t := by
  have hread : ∀ u : HostType, ofSpelling? u.desc.render = some u := by
    intro u
    rw [render_desc, ofSpelling?_spelling]
  refine ⟨t.render_desc, hread t, ?_⟩
  intro u h
  have hu := hread u
  rw [h, hread t] at hu
  exact (Option.some.inj hu).symm

end HostType

end ExprHost
