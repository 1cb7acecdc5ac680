import ExprHost.Proofs.Host.Places
import ExprHost.Proofs.Path.Bare

/-!
# Entries of a directory

A directory's path continued by the name of an entry has one step more, whatever separators the
directory's spelling ends in. So the paths of entries are told apart, and ordered, by their names.

* `components_append`: what a separator and a text add to the components of a path.
* `components_join`: **an entry lies one step below its directory.**
* `compare_join`: **entries of a directory are ordered by their names.**
-/

namespace ExprHost.Path

/-- A name that is a step of its own. -/
structure IsEntryName (name : String) : Prop where
  noSeparator : '/' ∉ name.toList
  named : component? name.toList = some (.named name)

theorem join_injective (dir : Path) : Function.Injective dir.join := by
  obtain ⟨front, hfront⟩ := dir.exists_join_eq
  intro a b h
  rw [hfront, hfront] at h
  exact (String.append_right_inj front).1 (congrArg text h)

/-- A separator and a text after a path add the components of the text. -/
theorem components_append {p q : Path} {rest : List Char} (hne : p.text ≠ "")
    (hq : q.text.toList = p.text.toList ++ '/' :: rest) :
    q.components = p.components ++ (Text.splitChar '/' rest).filterMap component? := by
  cases htext : p.text.toList with
  | nil => exact absurd (String.toList_eq_nil_iff.1 htext) hne
  | cons c cs =>
    rw [htext, List.cons_append] at hq
    by_cases hc : c = '/'
    · subst hc
      rw [components_root htext, components_root hq, Text.splitChar_append, List.filterMap_append,
        List.cons_append]
    · obtain ⟨first, more, -, hsplit⟩ := splitChar_cons_of_ne hc cs
      have hsplit' : Text.splitChar '/' (c :: (cs ++ '/' :: rest)) =
          first :: (more ++ Text.splitChar '/' rest) := by
        rw [← List.cons_append, Text.splitChar_append, hsplit, List.cons_append]
      rw [components_of_split hc htext hsplit, components_of_split hc hq hsplit']
      split
      · rw [List.filterMap_append, List.cons_append]
      · rw [← List.cons_append, List.filterMap_append]

/-- An entry name is the only component of the path that it is. -/
theorem components_of_entryName {name : String} (h : IsEntryName name) :
    (⟨name⟩ : Path).components = [.named name] := by
  have hsplit := Text.splitChar_of_not_mem h.noSeparator
  have hnamed := h.named
  cases htext : name.toList with
  | nil =>
    rw [htext] at hnamed
    cases hnamed
  | cons c cs =>
    have hc : c ≠ '/' := by
      rintro rfl
      exact h.noSeparator (htext ▸ List.mem_cons_self)
    rw [htext] at hsplit hnamed
    rw [components_of_split hc htext hsplit, if_neg, List.filterMap_cons_some hnamed,
      List.filterMap_nil]
    intro hdot
    rw [hdot] at hnamed
    cases hnamed

/-- **An entry lies one step below its directory.** -/
theorem components_join (dir : Path) {name : String} (h : IsEntryName name) :
    (dir.join name).components = dir.components ++ [.named name] := by
  have hstep : (Text.splitChar '/' name.toList).filterMap component? = [.named name] := by
    rw [Text.splitChar_of_not_mem h.noSeparator, List.filterMap_cons_some h.named, List.filterMap_nil]
  by_cases hdir : dir.text = ""
  · obtain rfl : dir = ⟨""⟩ := eq_empty_of_toList (String.toList_eq_nil_iff.2 hdir)
    have hjoin : (⟨""⟩ : Path).join name = ⟨name⟩ := rfl
    rw [hjoin, components_of_entryName h, components_eq_nil_iff.2 rfl, List.nil_append]
  · obtain ⟨front, hfront, hjoin⟩ := toList_join hdir name
    by_cases hroot : front = []
    · -- the directory is the root
      subst hroot
      rcases hfront with htext | htext
      · exact absurd (String.toList_eq_nil_iff.1 htext) hdir
      · rw [components_root hjoin, components_root htext, hstep]
        rfl
    · -- both continue what stands before the directory's last separator
      obtain ⟨base, hbase⟩ : ∃ base : Path, base.text.toList = front :=
        ⟨⟨String.ofList front⟩, String.toList_ofList⟩
      have hne : base.text ≠ "" := by
        rwa [ne_eq, ← String.toList_eq_nil_iff, hbase]
      have hsame : dir.components = base.components := by
        rcases hfront with htext | htext
        · have htexts : dir.text = base.text := String.toList_inj.1 (htext.trans hbase.symm)
          exact congrArg (fun text => components ⟨text⟩) htexts
        · rw [components_append hne (by rw [hbase, htext]),
            Text.splitChar_of_not_mem List.not_mem_nil]
          exact List.append_nil _
      rw [components_append hne (by rw [hbase, hjoin]), hstep, hsame]

/-- The order of paths passes over what they have in common. -/
theorem compareLex_append_append (steps more more' : List Component) :
    List.compareLex Component.order (steps ++ more) (steps ++ more') =
      List.compareLex Component.order more more' := by
  induction steps with
  | nil => rfl
  | cons step steps ih =>
    have hself : Component.order step step = .eq := Std.ReflCmp.compare_self
    rw [List.cons_append, List.cons_append, List.compareLex_cons_cons, ih, hself, Ordering.eq_then]

/-- **Entries of a directory are ordered by their names.** -/
theorem compare_join (dir : Path) {a b : String} (ha : IsEntryName a) (hb : IsEntryName b) :
    compare (dir.join a) (dir.join b) = compare a b := by
  have horder : compare (dir.join a) (dir.join b) =
      List.compareLex Component.order (dir.join a).components (dir.join b).components := rfl
  rw [horder, components_join dir ha, components_join dir hb, compareLex_append_append,
    List.compareLex_cons_cons, List.compareLex_nil_nil, Ordering.then_eq]
  rfl

theorem join_beq_iff (dir : Path) {a b : String} (ha : IsEntryName a) (hb : IsEntryName b) :
    (dir.join a == dir.join b) = true ↔ a = b := by
  rw [← compare_eq_iff, compare_join dir ha hb, Std.LawfulEqOrd.compare_eq_iff_eq]

end ExprHost.Path
