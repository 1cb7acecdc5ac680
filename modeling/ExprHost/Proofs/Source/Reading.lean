import ExprHost.Evaluator
import ExprHost.Proofs.Types.Spelling

/-!
# Source units read back

The return type and the expression stand in a source unit without any escaping, and yet a
reader that knows the preamble finds both: a return type ends where its brackets close, and
of what follows only the fixed text at the very end is not the expression. So an expression
may imitate the unit around it, and is told from all others all the same.

* `SourceUnit.read?_eq_some_iff`: **a unit is read as its type and its expression.**
* `Evaluator.unitFor_determines`: **the unit of an evaluation tells them apart from all others.**
-/

namespace ExprHost

namespace SourceUnit

/-- A unit as the reader goes through it. -/
theorem toList_text (preamble : Preamble) (returnType expression : String) :
    (text preamble returnType expression).toList = (preamble.text ++ opening).toList ++
      (returnType.toList ++ ((between ++ returnType ++ before).toList ++
        (expression.toList ++ closing.toList))) := by
  unfold text
  simp only [String.toList_append, List.append_assoc]

/-- What follows a return type ends its spelling, whatever stands behind that. -/
theorem closed_between (returnType : String) (cs : List Char) :
    HostType.Closed ((between ++ returnType ++ before).toList ++ cs) := by
  have hhead : between.toList.head? = some ',' := by decide
  intro c hc
  obtain ⟨rest, hrest⟩ := List.head?_eq_some_iff.1 hhead
  rw [String.toList_append, String.toList_append, hrest] at hc
  exact Or.inr (Option.some.inj hc).symm

variable {preamble : Preamble} {source expression : String} {t : HostType}

theorem read?_text (preamble : Preamble) (t : HostType) (expression : String) :
    read? preamble (text preamble t.spelling expression) = some (t, expression) := by
  obtain ⟨hle, hread⟩ := HostType.reads_spelling t
    (closed_between t.spelling (expression.toList ++ closing.toList))
  have hopening := Text.dropStart?_append (preamble.text ++ opening).toList
    (t.spelling.toList ++ ((between ++ t.spelling ++ before).toList ++
      (expression.toList ++ closing.toList)))
  have hbetween := Text.dropStart?_append (between ++ t.spelling ++ before).toList
    (expression.toList ++ closing.toList)
  have hclosing := Text.dropEnd?_append closing.toList expression.toList
  rw [← toList_text] at hopening
  unfold read?
  simp only [Option.bind_eq_bind, Option.bind_eq_some_iff, Option.pure_def, Option.some.injEq,
    Prod.mk.injEq]
  exact ⟨_, hopening, ⟨t, _, hle⟩, hread, _, hbetween, _, hclosing, rfl, String.ofList_toList⟩

theorem eq_text_of_read? (h : read? preamble source = some (t, expression)) :
    source = text preamble t.spelling expression := by
  unfold read? at h
  simp only [Option.bind_eq_bind, Option.bind_eq_some_iff, Option.pure_def, Option.some.injEq,
    Prod.mk.injEq] at h
  obtain ⟨cs, hopening, ⟨t', rest, hle⟩, hread, body, hbetween, e, hclosing, rfl, rfl⟩ := h
  have hsource : source.toList = (preamble.text ++ opening).toList ++ cs :=
    Text.eq_append_of_dropStart? hopening
  have htype : cs = t'.spelling.toList ++ rest := t'.eq_append_of_reads ⟨hle, hread⟩
  have hrest : rest = (between ++ t'.spelling ++ before).toList ++ body :=
    Text.eq_append_of_dropStart? hbetween
  have hbody : body = e ++ closing.toList := Text.eq_append_of_dropEnd? hclosing
  apply String.toList_inj.1
  calc source.toList
      = (preamble.text ++ opening).toList ++ (t'.spelling.toList ++ rest) := by
        rw [hsource, htype]
    _ = (preamble.text ++ opening).toList ++ (t'.spelling.toList ++
          ((between ++ t'.spelling ++ before).toList ++ (e ++ closing.toList))) := by
        rw [hrest, hbody]
    _ = (text preamble t'.spelling (String.ofList e)).toList := by
        rw [toList_text, String.toList_ofList]

/-- **A unit is read as its type and its expression, and nothing else is read so.** -/
theorem read?_eq_some_iff :
    read? preamble source = some (t, expression) ↔
      source = text preamble t.spelling expression := by
  constructor
  · exact eq_text_of_read?
  · rintro rfl
    exact read?_text preamble t expression

end SourceUnit

/-- **The unit for an expression holds the type and the expression, and can be told from every
other by them,** whatever text the expression is. -/
theorem Evaluator.unitFor_determines (ev : Evaluator) (t u : HostType) (e f : String) :
    (ev.unitFor t e = ev.unitFor u f ↔ t = u ∧ e = f) ∧
    ((SourceUnit.read? ev.preamble (ev.unitFor t e)).map fun (v, x) => (v.spelling, x)) =
      some (t.desc.render, e) ∧
    ∀ source, SourceUnit.read? ev.preamble source = some (t, e) ↔ source = ev.unitFor t e := by
  have hunit : ∀ (t : HostType) (e : String),
      ev.unitFor t e = SourceUnit.text ev.preamble t.spelling e := by
    intro t e
    rw [unitFor, HostType.render_desc]
  have hread : ∀ (t : HostType) (e : String),
      SourceUnit.read? ev.preamble (ev.unitFor t e) = some (t, e) := by
    intro t e
    rw [hunit, SourceUnit.read?_text]
  refine ⟨⟨?_, ?_⟩, ?_, ?_⟩
  · intro h
    have hboth := hread t e
    rw [h, hread u f] at hboth
    obtain ⟨rfl, rfl⟩ := Prod.mk.inj (Option.some.inj hboth)
    exact ⟨rfl, rfl⟩
  · rintro ⟨rfl, rfl⟩
    rfl
  · rw [hread, HostType.render_desc]
    rfl
  · intro source
    rw [hunit]
    exact SourceUnit.read?_eq_some_iff

end ExprHost
