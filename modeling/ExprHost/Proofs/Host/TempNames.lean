import ExprHost.Host.TempEntry
import ExprHost.Proofs.Host.Places

/-!
# The names of temporary entries

All names of a kind are plain and of one length. So whether an entry can be made does not hang on
what is drawn for it, and where the system takes the path of a library in a scratch directory, it
takes that of an image beside it.

* `TempKind.plain_name`, `TempKind.length_name`: what the names have in common.
* `FileTree.checkPath_name`: the system takes the paths of all of them, or of none.
* `FileTree.exists_tempEntry_iff`: **whether an entry can be made does not hang on its name.**
* `FileTree.exists_tempEntry_image`: **where a library can be left, its image can be staged.**
-/

namespace ExprHost

namespace TempKind

theorem not_mem_name (kind : TempKind) (drawn : Drawn) {c : Char} (hword : c.isAlphanum = false)
    (hother : c ≠ '-' ∧ c ≠ '.') : c ∉ (kind.name drawn).toList := by
  have hparts : (kind.front.toList ++ kind.back.toList).all
      (fun d => d.isAlphanum || d = '-' || d = '.') = true := by
    cases kind <;> decide
  have hnot : c ∉ kind.front.toList ++ kind.back.toList := fun hmem => by
    have hc := List.all_eq_true.1 hparts c hmem
    simp [hword, hother.1, hother.2] at hc
  rw [List.mem_append] at hnot
  rw [toList_name, List.mem_append, List.mem_append]
  rintro ((h | h) | h)
  · exact hnot (Or.inl h)
  · exact absurd ((drawn.isAlphanum_chars c h).symm.trans hword) (by decide)
  · exact hnot (Or.inr h)

theorem front_prefix_name (kind : TempKind) (drawn : Drawn) :
    Utf8.bytes kind.front <+: Utf8.bytes (kind.name drawn) := by
  rw [name, Utf8.bytes_append, Utf8.bytes_append, List.append_assoc]
  exact List.prefix_append _ _

theorem length_name (kind : TempKind) (drawn : Drawn) : (Utf8.bytes (kind.name drawn)).length =
    (Utf8.bytes kind.front).length + 6 + (Utf8.bytes kind.back).length := by
  have hchars : (Utf8.bytes (String.ofList drawn.chars)).length = 6 := by
    rw [Utf8.bytes, String.toList_ofList, Utf8.length_encode_of_ascii fun c hc =>
      Utf8.ascii_of_isAlphanum (drawn.isAlphanum_chars c hc), drawn.length_chars]
  rw [name, Utf8.bytes_append, Utf8.bytes_append, List.length_append, List.length_append, hchars]

theorem length_scratch (drawn : Drawn) : (Utf8.bytes (scratch.name drawn)).length = 14 := by
  rw [length_name]
  decide +kernel

theorem length_image (drawn : Drawn) : (Utf8.bytes (image.name drawn)).length = 23 := by
  rw [length_name]
  decide +kernel

/-- **A temporary name leads to an entry of its own.** -/
theorem plain_name (kind : TempKind) (drawn : Drawn) : FileTree.Plain (kind.name drawn) := by
  refine FileTree.plain_of_length (kind.not_mem_name drawn (by decide) (by decide)) ?_ ?_
  · rw [toList_name, List.length_append, List.length_append, drawn.length_chars]
    omega
  · cases kind
    · rw [length_scratch]
      decide
    · rw [length_image]
      decide

theorem name_ne_empty (kind : TempKind) (drawn : Drawn) : kind.name drawn ≠ "" := by
  intro h
  have hlen := kind.length_name drawn
  rw [h] at hlen
  have hzero : (Utf8.bytes "").length = 0 := rfl
  omega

end TempKind

theorem Path.join_of_not_mem {p : Path} (hne : p.text ≠ "") (hsep : '/' ∉ p.text.toList)
    (name : String) : p.join name = ⟨p.text ++ "/" ++ name⟩ := by
  unfold join
  split
  · rename_i hnone
    exact absurd (String.toList_inj.1 (List.getLast?_eq_none_iff.1 hnone)) hne
  · rename_i hlast
    exact absurd (List.mem_of_getLast? hlast) hsep
  · rfl

/-- The paths of temporary entries in one directory, and of what is in them, differ in the name
alone. -/
theorem Path.exists_join_name_eq (dir : Path) : ∃ front : String, ∀ (kind : TempKind) (drawn : Drawn),
    dir.join (kind.name drawn) = ⟨front ++ kind.name drawn⟩ ∧
      ∀ more, (dir.join (kind.name drawn)).join more =
        ⟨front ++ (kind.name drawn ++ "/" ++ more)⟩ := by
  obtain ⟨front, hfront⟩ := dir.exists_join_eq
  refine ⟨front, fun kind drawn => ⟨hfront _, fun more => ?_⟩⟩
  have hne := kind.name_ne_empty drawn
  have hjoin := join_append (p := ⟨kind.name drawn⟩) hne front more
  have hname := join_of_not_mem (p := ⟨kind.name drawn⟩) hne
    (kind.plain_name drawn).noSeparator more
  rw [hfront, hjoin, hname]

namespace FileTree

/-- Paths that begin alike and go on for as long are taken alike. -/
theorem checkPath_append_congr {front a b : String} (ha : a ≠ "") (hb : b ≠ "")
    (hnul : '\x00' ∈ a.toList ↔ '\x00' ∈ b.toList)
    (hlen : (Utf8.bytes a).length = (Utf8.bytes b).length) :
    checkPath ⟨front ++ a⟩ = checkPath ⟨front ++ b⟩ := by
  simp only [checkPath, List.contains_iff_mem, String.toList_append, List.mem_append, hnul,
    String.append_eq_empty_iff, ha, hb, and_false, Utf8.bytes_append, List.length_append, hlen]

/-- **The system takes the paths of all names of a kind, or of none.** -/
theorem checkPath_name (dir : Path) (kind : TempKind) (drawn drawn' : Drawn) :
    checkPath (dir.join (kind.name drawn')) = checkPath (dir.join (kind.name drawn)) ∧
      ∀ more, checkPath ((dir.join (kind.name drawn')).join more) =
        checkPath ((dir.join (kind.name drawn)).join more) := by
  obtain ⟨front, hfront⟩ := dir.exists_join_name_eq
  have hlen : (Utf8.bytes (kind.name drawn')).length = (Utf8.bytes (kind.name drawn)).length := by
    rw [kind.length_name, kind.length_name]
  have hnul : ∀ drawn, '\x00' ∉ (kind.name drawn).toList :=
    fun drawn => kind.not_mem_name drawn (by decide) (by decide)
  have hne := kind.name_ne_empty
  constructor
  · rw [(hfront kind drawn').1, (hfront kind drawn).1]
    exact checkPath_append_congr (hne _) (hne _) (iff_of_false (hnul _) (hnul _)) hlen
  · intro more
    rw [(hfront kind drawn').2, (hfront kind drawn).2]
    refine checkPath_append_congr ?_ ?_ ?_ ?_
    · simp [String.append_eq_empty_iff, hne]
    · simp [String.append_eq_empty_iff, hne]
    · simp only [String.toList_append, List.mem_append, hnul, false_or]
    · simp only [Utf8.bytes_append, List.length_append, hlen]

variable {t : FileTree} {lib lib' : TempLibrary} {workDir dir : Path} {kind : TempKind}

/-- **Whether an entry can be made does not hang on its name.** -/
theorem exists_tempEntry_iff (hdraw : (lib.draw t workDir dir kind).isSome = true)
    (hdraw' : (lib'.draw t workDir dir kind).isSome = true) :
    (∃ found, t.tempEntry lib' workDir dir kind = .ok found) ↔
      ∃ found, t.tempEntry lib workDir dir kind = .ok found := by
  have himp : ∀ {lib lib' : TempLibrary}, (lib'.draw t workDir dir kind).isSome = true →
      (∃ found, t.tempEntry lib workDir dir kind = .ok found) →
      ∃ found, t.tempEntry lib' workDir dir kind = .ok found := by
    intro lib lib' hsome ⟨⟨path, loc⟩, hok⟩
    obtain ⟨parent, drawn, hfind, -, rfl, -, hcheck⟩ := tempEntry_eq_ok_iff.1 hok
    obtain ⟨drawn', hdrawn'⟩ := Option.isSome_iff_exists.1 hsome
    rw [← (checkPath_name (workDir.absolute dir) kind drawn drawn').1] at hcheck
    exact ⟨_, tempEntry_eq_ok_iff.2 ⟨parent, drawn', hfind, hdrawn', rfl, rfl, hcheck⟩⟩
  exact ⟨himp hdraw, himp hdraw'⟩

/-- **Where a library can be left in a scratch directory, its image can be staged,** in the
directory that the scratch directory was made in: the image's path is longer by nine bytes, the
library's by a separator and at least eleven. -/
theorem exists_tempEntry_image {path : Path} {loc : Location} {library : String}
    (hscratch : t.tempEntry lib workDir dir .scratch = .ok (path, loc))
    (hlibrary : checkPath (path.join library) = .ok ())
    (hlong : 11 ≤ (Utf8.bytes library).length) (hfinds : lib.Finds t) :
    ∃ found, t.tempEntry lib workDir dir .image = .ok found := by
  obtain ⟨parent, drawn, hfind, -, rfl, -, -⟩ := tempEntry_eq_ok_iff.1 hscratch
  obtain ⟨drawn', hdrawn'⟩ := Option.isSome_iff_exists.1 (hfinds workDir dir .image)
  obtain ⟨front, hfront⟩ := (workDir.absolute dir).exists_join_name_eq
  refine ⟨_, tempEntry_eq_ok_iff.2 ⟨parent, drawn', hfind, hdrawn', rfl, rfl, ?_⟩⟩
  rw [(hfront .scratch drawn).2, checkPath_eq_ok_iff] at hlibrary
  rw [(hfront .image drawn').1, checkPath_eq_ok_iff]
  obtain ⟨hnul, -, hlimit⟩ := hlibrary
  simp only [String.toList_append, List.mem_append, not_or] at hnul ⊢
  simp only [Utf8.bytes_append, List.length_append, TempKind.length_scratch,
    TempKind.length_image] at hlimit ⊢
  refine ⟨⟨hnul.1, TempKind.image.not_mem_name drawn' (by decide) (by decide)⟩, ?_, by omega⟩
  simp [String.append_eq_empty_iff, TempKind.name_ne_empty]

end FileTree

end ExprHost
