import ExprHost.Proofs.Host.Places
import Mathlib.Data.List.Chain

/-!
# Parents of paths

The parent of a path is the text in front of its last piece that counts, so the path goes on
from where its parent leads.

* `Path.splitChar_unsplit`, `Path.toList_unsplit_splitChar`: texts and their pieces.
* `Path.toList_of_parent?`, `Path.pieces_parent?`: **a path goes on from its parent.**
* `Path.isChain_lineage`, `Path.text_of_mem_lineage`: in a lineage each directory is followed by the
  one it lies in, and the path goes on from all of them.
-/

namespace ExprHost

namespace Text

/-! ## Pieces put together -/

/-- What is dropped at the end of a list is what follows the last element that stays. -/
theorem eq_append_of_dropWhile_reverse {α : Type} {p : α → Bool} {l before : List α} {x : α}
    (h : l.reverse.dropWhile p = x :: before) :
    ∃ back, l = before.reverse ++ x :: back ∧ (∀ a ∈ back, p a = true) ∧ p x = false := by
  have hsplit : l.reverse = l.reverse.takeWhile p ++ x :: before := by
    rw [← h, List.takeWhile_append_dropWhile]
  have hx : p x = false := by
    have hhead := List.head?_dropWhile_not p l.reverse
    rw [h] at hhead
    simpa using hhead
  refine ⟨(l.reverse.takeWhile p).reverse, ?_, ?_, hx⟩
  · have hl := congrArg List.reverse hsplit
    simpa using hl
  · intro a ha
    have hall := List.all_takeWhile (p := p) (l := l.reverse)
    exact List.all_eq_true.1 hall a (List.mem_reverse.1 ha)

theorem dropWhile_reverse_append {α : Type} {p : α → Bool} {x : α} {back : List α}
    (before : List α) (hback : ∀ a ∈ back, p a = true) (hx : p x = false) :
    (before ++ x :: back).reverse.dropWhile p = x :: before.reverse := by
  rw [List.reverse_append, List.reverse_cons, List.append_assoc, List.dropWhile_append_of_pos
    fun a ha => hback a (List.mem_reverse.1 ha)]
  simp [hx]

theorem not_mem_of_mem_splitChar {sep : Char} {cs piece : List Char}
    (h : piece ∈ splitChar sep cs) : sep ∉ piece := by
  induction cs generalizing piece with
  | nil =>
    obtain rfl := List.mem_singleton.1 h
    exact List.not_mem_nil
  | cons c rest ih =>
    rw [splitChar] at h
    split at h
    · rcases List.mem_cons.1 h with rfl | h
      · exact List.not_mem_nil
      · exact ih h
    · rename_i hne
      cases hrest : splitChar sep rest with
      | nil => exact absurd hrest (splitChar_ne_nil sep rest)
      | cons first others =>
        rw [hrest] at h ih
        rcases List.mem_cons.1 h with rfl | h
        · intro hmem
          rcases List.mem_cons.1 hmem with heq | hmem
          · exact hne heq.symm
          · exact ih List.mem_cons_self hmem
        · exact ih (List.mem_cons_of_mem first h)

end Text

namespace Path

theorem toList_unsplit_cons (piece : List Char) {rest : List (List Char)} (h : rest ≠ []) :
    (unsplit (piece :: rest)).toList = piece ++ '/' :: (unsplit rest).toList := by
  obtain ⟨next, more, rfl⟩ := List.exists_cons_of_ne_nil h
  simp [unsplit, Text.join, List.append_assoc]

theorem toList_unsplit_append {front back : List (List Char)} (hfront : front ≠ [])
    (hback : back ≠ []) : (unsplit (front ++ back)).toList =
      (unsplit front).toList ++ '/' :: (unsplit back).toList := by
  induction front with
  | nil => exact absurd rfl hfront
  | cons piece rest ih =>
    rw [List.cons_append, toList_unsplit_cons piece (List.append_ne_nil_of_right_ne_nil rest hback)]
    by_cases hrest : rest = []
    · subst hrest
      simp [unsplit, Text.join]
    · rw [ih hrest, toList_unsplit_cons piece hrest, List.append_assoc, List.cons_append]

/-- Pieces without separators are found again. -/
theorem splitChar_unsplit {pieces : List (List Char)} (hne : pieces ≠ [])
    (h : ∀ piece ∈ pieces, '/' ∉ piece) : Text.splitChar '/' (unsplit pieces).toList = pieces := by
  induction pieces with
  | nil => exact absurd rfl hne
  | cons piece rest ih =>
    have hpiece := h piece List.mem_cons_self
    by_cases hrest : rest = []
    · subst hrest
      simpa [unsplit, Text.join] using Text.splitChar_of_not_mem hpiece
    · rw [toList_unsplit_cons piece hrest, Text.splitChar_append,
        Text.splitChar_of_not_mem hpiece, ih hrest fun q hq => h q (List.mem_cons_of_mem piece hq)]
      rfl

/-- A text is its pieces with separators between them. -/
theorem toList_unsplit_splitChar (cs : List Char) :
    (unsplit (Text.splitChar '/' cs)).toList = cs := by
  induction cs with
  | nil => simp [Text.splitChar, unsplit, Text.join]
  | cons c rest ih =>
    have hne := Text.splitChar_ne_nil '/' rest
    rw [Text.splitChar]
    split
    · rename_i hc
      rw [toList_unsplit_cons [] hne, ih, hc]
      rfl
    · cases hrest : Text.splitChar '/' rest with
      | nil => exact absurd hrest hne
      | cons first others =>
        rw [hrest] at ih
        by_cases hothers : others = []
        · subst hothers
          simpa [unsplit, Text.join, Text.onFirst] using ih
        · rw [toList_unsplit_cons first hothers] at ih
          rw [Text.onFirst, toList_unsplit_cons _ hothers, List.cons_append, ih]

/-- A text whose pieces come in two parts has a separator between their texts. -/
theorem text_of_split {cs : List Char} {front more : List (List Char)} (hfront : front ≠ [])
    (hsplit : Text.splitChar '/' cs = front ++ more) (hmore : more ≠ []) :
    cs = (unsplit front).toList ++ '/' :: (unsplit more).toList ∧
      Text.splitChar '/' (unsplit more).toList = more := by
  have hfree : ∀ piece ∈ more, '/' ∉ piece := by
    intro piece hpiece
    have hmem : piece ∈ Text.splitChar '/' cs := by
      rw [hsplit]
      exact List.mem_append_right front hpiece
    exact Text.not_mem_of_mem_splitChar hmem
  refine ⟨?_, splitChar_unsplit hmore hfree⟩
  rw [← toList_unsplit_append hfront hmore, ← hsplit, toList_unsplit_splitChar]

/-! ## Parents -/

/-- What follows a parent in a path: one piece that counts, between others that do not. -/
def Continues (p : List (List Char)) : Prop :=
  ∃ idles piece back, p = idles ++ piece :: back ∧ (∀ a ∈ idles, isIdle a = true) ∧
    isIdle piece = false ∧ ∀ a ∈ back, isIdle a = true

theorem beforeLast?_eq_some {pieces front : List (List Char)}
    (h : beforeLast? pieces = some front) :
    ∃ more, pieces = front ++ more ∧ Continues more := by
  unfold beforeLast? at h
  cases hlast : pieces.reverse.dropWhile isIdle with
  | nil => simp [hlast] at h
  | cons piece before =>
    simp only [hlast, Option.some.injEq] at h
    obtain ⟨back, hpieces, hback, hpiece⟩ := Text.eq_append_of_dropWhile_reverse hlast
    -- the idle pieces before the last one that counts are left out as well
    have hbefore : before.reverse = front ++ (before.takeWhile isIdle).reverse := by
      rw [← h, ← List.reverse_append, List.takeWhile_append_dropWhile]
    refine ⟨(before.takeWhile isIdle).reverse ++ piece :: back, ?_, _, piece, back, rfl, ?_,
      hpiece, hback⟩
    · rw [hpieces, hbefore, List.append_assoc]
    · intro a ha
      have hall := List.all_takeWhile (p := isIdle) (l := before)
      exact List.all_eq_true.1 hall a (List.mem_reverse.1 ha)

theorem Continues.ne_nil {more : List (List Char)} (h : Continues more) : more ≠ [] := by
  obtain ⟨idles, piece, back, rfl, -⟩ := h
  exact List.append_ne_nil_of_right_ne_nil _ (List.cons_ne_nil piece back)

/-- **A path goes on from the text of its parent,** if that is neither the root nor empty. -/
theorem toList_of_parent? {p q : Path} (hparent : p.parent? = some q)
    (hq : q.parent?.isSome = true) :
    ∃ more, p.text.toList = q.text.toList ++ '/' :: more ∧
      Continues (Text.splitChar '/' more) := by
  have hroot : (⟨"/"⟩ : Path).parent? = none := by decide
  have hempty : (⟨""⟩ : Path).parent? = none := by decide
  unfold parent? at hparent
  split at hparent
  · cases hparent
  · rename_i rest htext
    obtain ⟨front, hfront, rfl⟩ := Option.map_eq_some_iff.1 hparent
    obtain ⟨more, hsplit, hmore⟩ := beforeLast?_eq_some hfront
    have hne : front ≠ [] := by
      rintro rfl
      rw [show (⟨"/" ++ unsplit []⟩ : Path) = ⟨"/"⟩ from rfl, hroot] at hq
      cases hq
    obtain ⟨hcs, hback⟩ := text_of_split hne hsplit hmore.ne_nil
    refine ⟨(unsplit more).toList, ?_, by rwa [hback]⟩
    rw [htext, String.toList_append, hcs]
    rfl
  · rename_i text hne hnot
    cases hsplit : Text.splitChar '/' p.text.toList with
    | nil => exact absurd hsplit (Text.splitChar_ne_nil '/' _)
    | cons first rest =>
      simp only [hsplit] at hparent
      cases hfront : beforeLast? rest with
      | none =>
        simp only [hfront, Option.some.injEq] at hparent
        rw [← hparent, hempty] at hq
        cases hq
      | some front =>
        simp only [hfront, Option.some.injEq] at hparent
        subst hparent
        obtain ⟨more, hrest, hmore⟩ := beforeLast?_eq_some hfront
        rw [hrest, ← List.cons_append] at hsplit
        obtain ⟨hcs, hback⟩ := text_of_split (List.cons_ne_nil first front) hsplit
          hmore.ne_nil
        exact ⟨(unsplit more).toList, hcs, by rwa [hback]⟩

/-- The empty path lies in no directory. -/
theorem text_ne_empty_of_parent? {p : Path} (h : p.parent?.isSome = true) : p.text ≠ "" := by
  obtain ⟨text⟩ := p
  rintro rfl
  cases h

/-- A path is checked by its text, and its parent's is shorter. -/
theorem checkPath_parent? {p q : Path} (hparent : p.parent? = some q)
    (hq : q.parent?.isSome = true) (h : FileTree.checkPath p = .ok ()) :
    FileTree.checkPath q = .ok () := by
  obtain ⟨more, htext, -⟩ := toList_of_parent? hparent hq
  obtain ⟨hnul, -, hlen⟩ := FileTree.checkPath_eq_ok_iff.1 h
  have hbytes : (Utf8.bytes p.text).length =
      (Utf8.bytes q.text).length + (Utf8.encode ('/' :: more)).length := by
    simp only [Utf8.bytes, Utf8.encode, htext, List.flatMap_append, List.length_append]
  refine FileTree.checkPath_eq_ok_iff.2 ⟨?_, text_ne_empty_of_parent? hq, by omega⟩
  intro hmem
  apply hnul
  rw [htext]
  exact List.mem_append_left _ hmem

theorem stays_encode {piece : List Char} :
    FileTree.stays (Utf8.encode piece) = isIdle piece := by
  have hempty : Utf8.encode piece = [] ↔ piece = [] :=
    ⟨fun h => Utf8.encode_injective (b := []) h, fun h => by rw [h]; rfl⟩
  have hdot : Utf8.encode piece = Utf8.bytes "." ↔ piece = ['.'] :=
    ⟨fun h => Utf8.encode_injective (b := ['.']) h, fun h => by rw [h]; rfl⟩
  rw [Bool.eq_iff_iff, FileTree.stays, Bool.or_eq_true, decide_eq_true_eq, decide_eq_true_eq,
    hempty, hdot, isIdle]
  unfold component?
  split <;> simp_all

/-- A path whose text goes on from that of another goes on from where the other leads. -/
theorem pieces_of_text {p q : Path} {more : List Char}
    (htext : p.text.toList = q.text.toList ++ '/' :: more) (hq : q.text ≠ "") (workDir : Path) :
    FileTree.pieces workDir p =
      FileTree.pieces workDir q ++ (Text.splitChar '/' more).map Utf8.encode := by
  have habs : (workDir.absolute p).text.toList =
      (workDir.absolute q).text.toList ++ '/' :: more := by
    -- both begin alike, so both are seen from the root or both from the directory
    have hhead : p.text.toList.head? = q.text.toList.head? := by
      rw [htext]
      cases hcs : q.text.toList with
      | cons c cs => rfl
      | nil => exact absurd (String.toList_inj.1 hcs) hq
    obtain ⟨front, hfront⟩ := workDir.exists_join_eq
    rw [absolute_eq, absolute_eq, hhead]
    split
    · exact htext
    · rw [hfront, hfront, String.toList_append, String.toList_append, htext, List.append_assoc]
  rw [FileTree.pieces, FileTree.pieces, habs, Text.splitChar_append, List.map_append]

/-- **A path goes on from where its parent leads:** with one piece that leads elsewhere. -/
theorem pieces_parent? {p q : Path} (hparent : p.parent? = some q)
    (hq : q.parent?.isSome = true) (workDir : Path) :
    ∃ idles piece back, FileTree.pieces workDir p =
        FileTree.pieces workDir q ++ (idles ++ piece :: back) ∧
      (∀ a ∈ idles, FileTree.stays a = true) ∧ FileTree.stays piece = false ∧
      ∀ a ∈ back, FileTree.stays a = true := by
  obtain ⟨more, htext, idles, piece, back, hmore, hidles, hpiece, hback⟩ :=
    toList_of_parent? hparent hq
  have hstay : ∀ {l : List (List Char)}, (∀ a ∈ l, isIdle a = true) →
      ∀ a ∈ l.map Utf8.encode, FileTree.stays a = true := by
    intro l hl a ha
    obtain ⟨b, hb, rfl⟩ := List.mem_map.1 ha
    rw [stays_encode]
    exact hl b hb
  refine ⟨idles.map Utf8.encode, Utf8.encode piece, back.map Utf8.encode, ?_, hstay hidles, ?_,
    hstay hback⟩
  · rw [pieces_of_text htext (text_ne_empty_of_parent? hq), hmore]
    simp only [List.map_append, List.map_cons]
  · rw [stays_encode]
    exact hpiece

/-! ## Lineages -/

/-- A lineage is empty or begins with the path itself. -/
theorem lineage_cases (p : Path) : p.lineage = [] ∨ ∃ outer, p.lineage = p :: outer := by
  unfold lineage
  cases p.text.length with
  | zero => exact Or.inl rfl
  | succ steps =>
    rw [lineageWithin]
    cases p.parent? with
    | none => exact Or.inl rfl
    | some dir => exact Or.inr ⟨_, rfl⟩

/-- **A path goes on from the text of each path in its lineage.** -/
theorem text_of_mem_lineage {p q : Path} (h : q ∈ p.lineage) :
    q.text ≠ "" ∧ (q = p ∨ ∃ more, p.text.toList = q.text.toList ++ '/' :: more) := by
  have hwithin : ∀ (steps : Nat) (p : Path), q ∈ lineageWithin steps p →
      p.parent?.isSome = true ∧ q.text ≠ "" ∧
        (q = p ∨ ∃ more, p.text.toList = q.text.toList ++ '/' :: more) := by
    intro steps
    induction steps with
    | zero => exact fun p hq => by cases hq
    | succ steps ih =>
      intro p hq
      rw [lineageWithin] at hq
      cases hparent : p.parent? with
      | none => simp [hparent] at hq
      | some dir =>
        have hp : p.parent?.isSome = true := by rw [hparent]; rfl
        rw [hparent] at hq
        refine ⟨rfl, ?_⟩
        rcases List.mem_cons.1 hq with rfl | hq
        · exact ⟨text_ne_empty_of_parent? hp, Or.inl rfl⟩
        · obtain ⟨hdir, hne, hrest⟩ := ih dir hq
          obtain ⟨more, htext, -⟩ := toList_of_parent? hparent hdir
          refine ⟨hne, Or.inr ?_⟩
          rcases hrest with rfl | ⟨between, hbetween⟩
          · exact ⟨more, htext⟩
          · refine ⟨between ++ '/' :: more, ?_⟩
            rw [htext, hbetween, List.append_assoc, List.cons_append]
  exact (hwithin _ p h).2

/-- In a lineage each directory is followed by the one it lies in. -/
theorem isChain_lineage (p : Path) :
    p.lineage.IsChain fun p q => p.parent? = some q ∧ q.parent?.isSome = true := by
  have hwithin : ∀ (steps : Nat) (p : Path), (lineageWithin steps p).IsChain
      fun p q => p.parent? = some q ∧ q.parent?.isSome = true := by
    intro steps
    induction steps with
    | zero => exact fun p => List.IsChain.nil
    | succ steps ih =>
      intro p
      rw [lineageWithin]
      cases hparent : p.parent? with
      | none => exact List.IsChain.nil
      | some dir =>
        simp only
        have hrest := ih dir
        cases steps with
        | zero => exact List.IsChain.singleton p
        | succ steps =>
          rw [lineageWithin] at hrest ⊢
          cases hdir : dir.parent? with
          | none => exact List.IsChain.singleton p
          | some next =>
            rw [hdir] at hrest
            exact List.IsChain.cons_cons ⟨hparent, by rw [hdir]; rfl⟩ hrest
  exact hwithin _ p

end Path

end ExprHost
