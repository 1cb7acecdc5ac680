import ExprHost.Proofs.Evaluation.Classified
import ExprHost.Proofs.Host.Parents
import ExprHost.Proofs.Text.Encoding
import Mathlib.Data.List.TakeWhile

/-!
# The directory that a compiler names

A compiler names its library directory on a line of its standard output. What is taken for the
directory is that text without the white space at its two ends, so the line feed does not belong
to it, and neither does white space of the name itself.

* `Text.Tight`, `Text.trim_eq_iff`: **what trimming leaves** of a text.
* `Settings.dirOfReply_eq_ok_iff`: the directory that a reply leads to.
* `Settings.libraryDir_named`: **which names are taken as they are.**
* `Settings.libraryDir_blank_end`: a name that ends in a blank is not.
-/

namespace ExprHost

namespace Text

/-! ## Trimming -/

/-- Text that does not begin or end with white space. -/
def Tight (cs : List Char) : Prop :=
  (∀ c, cs.head? = some c → isBlank c = false) ∧ ∀ c, cs.getLast? = some c → isBlank c = false

theorem tight_nil : Tight [] := ⟨nofun, nofun⟩

/-- What is left of a text is tight, and white space is all that went. -/
theorem exists_trim (cs : List Char) : Tight (trim cs) ∧ ∃ front back,
    (∀ c ∈ front, isBlank c = true) ∧ (∀ c ∈ back, isBlank c = true) ∧
      cs = front ++ trim cs ++ back := by
  have hfront : ∀ c ∈ cs.takeWhile isBlank, isBlank c = true :=
    List.all_eq_true.1 List.all_takeWhile
  have hhead : ∀ c, (cs.dropWhile isBlank).head? = some c → isBlank c = false := by
    intro c hc
    have hnot := List.head?_dropWhile_not isBlank cs
    rw [hc] at hnot
    exact hnot
  have hsplit : cs.takeWhile isBlank ++ cs.dropWhile isBlank = cs := List.takeWhile_append_dropWhile
  unfold trim
  cases hlast : (cs.dropWhile isBlank).reverse.dropWhile isBlank with
  | nil =>
    -- there is nothing but white space
    have hall : ∀ c ∈ cs.dropWhile isBlank, isBlank c = true := fun c hc =>
      List.dropWhile_eq_nil_iff.1 hlast c (List.mem_reverse.2 hc)
    exact ⟨tight_nil, _, _, hfront, hall, by simp⟩
  | cons last before =>
    obtain ⟨back, hrest, hback, hlast⟩ := eq_append_of_dropWhile_reverse hlast
    rw [List.reverse_cons]
    refine ⟨⟨?_, ?_⟩, _, back, hfront, hback, ?_⟩
    · intro c hc
      apply hhead
      rw [hrest, ← List.singleton_append, ← List.append_assoc, List.head?_append, hc]
      rfl
    · intro c hc
      rw [List.getLast?_concat] at hc
      obtain rfl := Option.some.inj hc
      exact hlast
    · conv_lhs => rw [← hsplit, hrest]
      simp

/-- **What trimming leaves** is the tight text between white space. -/
theorem trim_eq_iff {cs mid : List Char} : trim cs = mid ↔ Tight mid ∧ ∃ front back,
    (∀ c ∈ front, isBlank c = true) ∧ (∀ c ∈ back, isBlank c = true) ∧
      cs = front ++ mid ++ back := by
  constructor
  · rintro rfl
    exact exists_trim cs
  · rintro ⟨⟨hhead, hlast⟩, front, back, hfront, hback, rfl⟩
    rw [trim, List.append_assoc, List.dropWhile_append_of_pos hfront]
    rcases List.eq_nil_or_concat' mid with rfl | ⟨init, last, rfl⟩
    · rw [List.nil_append, List.dropWhile_eq_nil_iff.2 hback]
      rfl
    · have hstay : (init ++ [last] ++ back).dropWhile isBlank = init ++ [last] ++ back := by
        cases hcs : init ++ [last] with
        | nil => simp at hcs
        | cons c rest =>
          have hc := hhead c (by rw [hcs]; rfl)
          rw [List.cons_append, List.dropWhile_cons_of_neg (by simp [hc])]
      rw [hstay, List.append_assoc, List.singleton_append,
        dropWhile_reverse_append init hback (hlast last List.getLast?_concat)]
      simp

theorem trim_eq_self_iff {cs : List Char} : trim cs = cs ↔ Tight cs := by
  refine ⟨fun h => (trim_eq_iff.1 h).1, fun h => trim_eq_iff.2 ⟨h, [], [], nofun, nofun, ?_⟩⟩
  simp

theorem trim_eq_nil_iff {cs : List Char} : trim cs = [] ↔ ∀ c ∈ cs, isBlank c = true := by
  rw [trim_eq_iff]
  constructor
  · rintro ⟨-, front, back, hfront, hback, rfl⟩ c hc
    rw [List.append_nil, List.mem_append] at hc
    exact hc.elim (hfront c) (hback c)
  · exact fun h => ⟨tight_nil, cs, [], h, nofun, by simp⟩

/-- White space behind a text is trimmed with it. -/
theorem trim_append_of_blank (cs : List Char) {more : List Char}
    (hmore : ∀ c ∈ more, isBlank c = true) : trim (cs ++ more) = trim cs := by
  obtain ⟨htight, front, back, hfront, hback, hcs⟩ := exists_trim cs
  refine trim_eq_iff.2 ⟨htight, front, back ++ more, hfront, ?_, ?_⟩
  · intro c hc
    exact (List.mem_append.1 hc).elim (hback c) (hmore c)
  · rw [← List.append_assoc, ← hcs]

end Text

namespace Settings

/-! ## Replies that name a directory -/

variable {s : Settings} {program : Program} {h h' : Host} {reply : Reply}

/-- The directory that a successful reply leads to is what trimming leaves of its output. -/
theorem dirOfReply_eq_ok_iff (hok : reply.status.isSuccess = true) {p : Path} :
    dirOfReply reply = .ok p ↔
      p.text ≠ "" ∧ Text.trim (Utf8.lossy reply.stdout) = p.text.toList := by
  rw [dirOfReply, if_pos hok]
  cases htrim : Text.trim (Utf8.lossy reply.stdout) with
  | nil =>
    refine iff_of_false (by simp) ?_
    rintro ⟨hne, hnil⟩
    exact hne (String.toList_inj.1 hnil.symm)
  | cons c cs =>
    obtain ⟨text⟩ := p
    simp only [Except.ok.injEq, Path.mk.injEq]
    constructor
    · rintro rfl
      exact ⟨by simp [← String.toList_inj], by simp⟩
    · rintro ⟨-, htext⟩
      rw [htext, String.ofList_toList]

theorem dirOfReply_eq_empty_iff (hok : reply.status.isSuccess = true) :
    dirOfReply reply = .error (.unexpectedOutput "empty target-libdir") ↔
      Text.trim (Utf8.lossy reply.stdout) = [] := by
  rw [dirOfReply, if_pos hok]
  cases Text.trim (Utf8.lossy reply.stdout) with
  | nil => simp
  | cons c cs => simp

/-- The library directory is the one that the compiler's reply leads to. -/
theorem fst_libraryDir (hrun : h.run program s.libraryDirCommand = .ok (reply, h')) :
    (s.libraryDir program h).1 = dirOfReply reply := by
  rw [libraryDir, hrun]

/-- What is read of a name with a line feed behind it. -/
theorem lossy_name (name : String) :
    Utf8.lossy (Utf8.bytes name ++ [0x0A]) = name.toList ++ ['\n'] := by
  have hname : Utf8.lossy (Utf8.bytes name) = name.toList := by
    rw [Utf8.lossy, Utf8.bytes, Utf8.decode_encode, List.map_map]
    exact List.map_id _
  rw [Utf8.lossy_newline, hname]
  rfl

/-- **Which names are taken as they are.** Of a name that a compiler writes on a line of its own
the white space at both ends is left out; so the name itself is the library directory exactly if
there is none, and if there is nothing else there is no directory. A name that is taken as it is
leads to the foundation in that directory. -/
theorem libraryDir_named (hrun : h.run program s.libraryDirCommand = .ok (reply, h'))
    (hok : reply.status.isSuccess = true) {name : String}
    (hout : reply.stdout = Utf8.bytes name ++ [0x0A]) :
    ((s.libraryDir program h).1 = .ok ⟨name⟩ ↔ name ≠ "" ∧ Text.Tight name.toList) ∧
    (∀ dir, (s.libraryDir program h).1 = .ok dir ↔ dir.text ≠ "" ∧ Text.Tight dir.text.toList ∧
      ∃ front back, (∀ c ∈ front, Text.isBlank c = true) ∧ (∀ c ∈ back, Text.isBlank c = true) ∧
        name.toList = front ++ dir.text.toList ++ back) ∧
    ((s.libraryDir program h).1 = .error (.unexpectedOutput "empty target-libdir") ↔
      ∀ c ∈ name.toList, Text.isBlank c = true) ∧
    (name ≠ "" → Text.Tight name.toList → ∀ listing,
      (FoundationCache.obtain none (s.libraryDir program h).1 listing).result =
        Foundation.inDirectory ⟨name⟩ (listing ⟨name⟩)) := by
  have htrim : Text.trim (Utf8.lossy reply.stdout) = Text.trim name.toList := by
    rw [hout, lossy_name, Text.trim_append_of_blank]
    intro c hc
    obtain rfl := List.mem_singleton.1 hc
    rfl
  have hnamed : dirOfReply reply = .ok ⟨name⟩ ↔ name ≠ "" ∧ Text.Tight name.toList := by
    rw [dirOfReply_eq_ok_iff hok, htrim, Text.trim_eq_self_iff]
  rw [fst_libraryDir hrun]
  refine ⟨hnamed, ?_, ?_, ?_⟩
  · intro dir
    rw [dirOfReply_eq_ok_iff hok, htrim, Text.trim_eq_iff]
  · rw [dirOfReply_eq_empty_iff hok, htrim, Text.trim_eq_nil_iff]
  · intro hne htight listing
    rw [hnamed.2 ⟨hne, htight⟩, FoundationCache.obtain, Lookup.found]
    cases Foundation.inDirectory ⟨name⟩ (listing ⟨name⟩) <;> rfl

/-! ## A compiler that names a directory -/

/-- A compiler that names a directory, whatever it is asked. -/
def naming (name : String) : Program := fun _ => ⟨Utf8.bytes name ++ [0x0A], [], .ofCode 0, none⟩

theorem exists_run_naming (name : String) : ∃ h', (Evaluator.deepHost 1 0 []).run (naming name)
    Evaluator.stock.libraryDirCommand = .ok (naming name ⟨[], none⟩, h') := by
  have hstart : (Evaluator.deepHost 1 0 []).startable ⟨"rustc"⟩ = .ok () :=
    Evaluator.startable_rustc rfl Evaluator.find_opt Evaluator.find_rustc
  have hl := (Host.launched_eq_ok_iff (c := Evaluator.stock.libraryDirCommand)).2
    ⟨⟨hstart, by decide, by decide +kernel⟩, rfl⟩
  rw [Host.run_eq, hl]
  exact ⟨_, rfl⟩

theorem libraryDir_named_inner :
    (Evaluator.stock.libraryDir (naming "/opt/my rust/lib") (Evaluator.deepHost 1 0 [])).1 =
      .ok ⟨"/opt/my rust/lib"⟩ := by
  obtain ⟨h', hrun⟩ := exists_run_naming "/opt/my rust/lib"
  refine (libraryDir_named hrun (by decide) rfl).1.2 ⟨by decide, ?_, ?_⟩
  · intro c hc
    cases hc
    decide
  · intro c hc
    cases hc
    decide

/-- **A name that ends in a blank is not taken as it is:** the directory without the blank is
taken instead. -/
theorem libraryDir_blank_end :
    let named := (Evaluator.stock.libraryDir (naming "/opt/rust ") (Evaluator.deepHost 1 0 [])).1
    named = .ok ⟨"/opt/rust"⟩ ∧ named ≠ .ok ⟨"/opt/rust "⟩ := by
  intro named
  obtain ⟨h', hrun⟩ := exists_run_naming "/opt/rust "
  have hdir : named = .ok ⟨"/opt/rust"⟩ := by
    refine (fst_libraryDir hrun).trans ((dirOfReply_eq_ok_iff (by decide)).2 ⟨by decide, ?_⟩)
    decide +kernel
  refine ⟨hdir, ?_⟩
  rw [hdir]
  simp

end Settings

end ExprHost
