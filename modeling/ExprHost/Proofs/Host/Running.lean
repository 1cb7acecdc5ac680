import ExprHost.Host.State
import ExprHost.Proofs.Host.Places

/-!
# Running programs

A run is a launch, which the host settles, and what the program does on it. A program is launched
if one is found on the paths that are tried and the texts can be passed on to it.

* `Host.search_eq_ok_iff`, `Host.startable_eq_ok_iff`: **when a program is found.**
* `Host.startable_congr`: all that counts is what is found under the paths that are tried.
* `Host.launched`, `Host.run_eq`: what a program is given, apart from what it does with it.
* `Host.launched_eq_ok_iff`: **when a program is launched.**
-/

namespace ExprHost.Host

variable {h h' : Host} {program : Path} {c c' : Command}

/-! ## Finding programs -/

/-- **When a search finds a program:** there is one, and all that is tried before it is passed
over. -/
theorem search_eq_ok_iff (failure : OsError) {paths : List Path} :
    h.search failure paths = .ok () ↔ ∃ before p after, paths = before ++ p :: after ∧
      h.executable p = .ok () ∧
      ∀ q ∈ before, ∃ e, h.executable q = .error e ∧ passedOver e = true := by
  induction paths generalizing failure with
  | nil => simp [search]
  | cons p rest ih =>
    rw [search]
    cases hp : h.executable p with
    | ok u => exact iff_of_true rfl ⟨[], p, rest, rfl, hp, fun q hq => by cases hq⟩
    | error e =>
      simp only
      cases he : passedOver e with
      | true =>
        rw [if_pos rfl, ih]
        constructor
        · rintro ⟨before, q, after, rfl, hq, hall⟩
          exact ⟨p :: before, q, after, rfl, hq, List.forall_mem_cons.2 ⟨⟨e, hp, he⟩, hall⟩⟩
        · rintro ⟨before, q, after, hpaths, hq, hall⟩
          cases before with
          | nil =>
            cases hpaths
            cases hp.symm.trans hq
          | cons _ before =>
            cases hpaths
            exact ⟨before, q, after, rfl, hq, (List.forall_mem_cons.1 hall).2⟩
      | false =>
        rw [if_neg Bool.false_ne_true]
        refine iff_of_false (by simp) ?_
        rintro ⟨before, q, after, hpaths, hq, hall⟩
        cases before with
        | nil =>
          cases hpaths
          cases hp.symm.trans hq
        | cons _ before =>
          cases hpaths
          obtain ⟨e', hp', he'⟩ := (List.forall_mem_cons.1 hall).1
          obtain rfl := Except.error.inj (hp.symm.trans hp')
          cases he.symm.trans he'

/-- **When a program can be started:** one is found on the paths that are tried, and if it has to be
searched for it has a name. -/
theorem startable_eq_ok_iff : h.startable program = .ok () ↔
    ('/' ∉ program.text.toList → program.text ≠ "" ∧
      (Utf8.bytes program.text).length ≤ FileTree.nameLimit) ∧
    ∃ before p after, h.lookups program = before ++ p :: after ∧ h.executable p = .ok () ∧
      ∀ q ∈ before, ∃ e, h.executable q = .error e ∧ passedOver e = true := by
  rw [startable, ← search_eq_ok_iff .notFound, ← List.contains_iff_mem]
  cases hsep : program.text.toList.contains '/' with
  | true =>
    have hlookups : h.lookups program = [program] := by rw [lookups, if_pos hsep]
    rw [if_pos rfl, hlookups, search_eq_ok_iff]
    refine ⟨fun hp => ⟨by simp, [], program, [], rfl, hp, fun q hq => by cases hq⟩, ?_⟩
    rintro ⟨-, before, p, after, hpaths, hp, -⟩
    obtain rfl : p = program :=
      List.mem_singleton.1 (hpaths ▸ List.mem_append_right _ List.mem_cons_self)
    exact hp
  | false =>
    rw [if_neg Bool.false_ne_true]
    by_cases hempty : program.text = ""
    · simp [hempty]
    · by_cases hlong : FileTree.nameLimit < (Utf8.bytes program.text).length
      · simp [hempty, hlong, Nat.not_le_of_lt hlong]
      · simp [hempty, hlong, Nat.le_of_not_lt hlong]

theorem search_congr {failure : OsError} {paths : List Path}
    (hall : ∀ p ∈ paths, h'.executable p = h.executable p) :
    h'.search failure paths = h.search failure paths := by
  induction paths generalizing failure with
  | nil => rfl
  | cons p rest ih =>
    obtain ⟨hp, hrest⟩ := List.forall_mem_cons.1 hall
    rw [search, search, hp]
    simp only [ih hrest]

/-- **All that counts is what is found under the paths that are tried.** -/
theorem startable_congr (hpath : h'.searchPath = h.searchPath)
    (hall : ∀ p ∈ h.lookups program, h'.executable p = h.executable p) :
    h'.startable program = h.startable program := by
  have hlookups : h'.lookups program = h.lookups program := by
    rw [lookups, lookups, hpath]
  rw [startable, startable, hlookups, search_congr hall]
  split
  · rename_i hsep
    exact hall program (by rw [lookups, if_pos hsep]; exact List.mem_singleton.2 rfl)
  · rfl

theorem executable_of_find {p : Path} {loc : Location} {content : Bytes}
    (hfind : h.tree.find h.workDir p = .ok (loc, .file content true)) : h.executable p = .ok () := by
  rw [executable, hfind]

theorem executable_congr {p : Path} (hfind : h'.tree.find h'.workDir p = h.tree.find h.workDir p) :
    h'.executable p = h.executable p := by
  rw [executable, executable, hfind]

/-! ## Launches -/

/-- A text that can be passed on to a program. -/
def Passable (text : String) : Prop :=
  '\x00' ∉ text.toList ∧ (Utf8.bytes text).length ≤ argumentLimit

instance (text : String) : Decidable (Passable text) := inferInstanceAs (Decidable (_ ∧ _))

/-- The path of a file that the system takes can be passed on. -/
theorem passable_of_checkPath {p : Path} (hp : FileTree.checkPath p = .ok ()) : Passable p.text := by
  obtain ⟨hnul, -, hlen⟩ := FileTree.checkPath_eq_ok_iff.1 hp
  exact ⟨hnul, Nat.le_trans hlen (by decide)⟩

/-- What a program is given on a command, or why it is not run. -/
def launched (h : Host) (c : Command) : Except OsError Launch :=
  if (c.program.text :: c.args).any (·.toList.contains '\x00') then .error .nulInArgument
  else
    match h.startable c.program with
    | .error e => .error e
    | .ok () =>
      if c.args.any fun arg => argumentLimit < (Utf8.bytes arg).length then .error .argumentTooLong
      else .ok (h.launch c)

/-- A run is a launch, and what the program does on it. -/
theorem run_eq (h : Host) (program : Program) (c : Command) :
    h.run program c = (h.launched c).map fun l =>
      (program l, withArtifact { h with launches := h.launches ++ [l] } c.args (program l).artifact) := by
  unfold run launched
  split
  · rfl
  · cases h.startable c.program with
    | error e => rfl
    | ok u =>
      simp only
      split
      · rfl
      · rfl

/-- **When a program is launched:** it can be started, and the texts can be passed on. -/
theorem launched_eq_ok_iff {l : Launch} : h.launched c = .ok l ↔
    (h.startable c.program = .ok () ∧ '\x00' ∉ c.program.text.toList ∧
      ∀ arg ∈ c.args, Passable arg) ∧ h.launch c = l := by
  unfold launched
  simp only [List.any_cons, Bool.or_eq_true, List.any_eq_true, List.contains_iff_mem,
    decide_eq_true_eq]
  constructor
  · intro hl
    split at hl
    · cases hl
    · rename_i hnul
      split at hl
      · cases hl
      · rename_i hstart
        split at hl
        · cases hl
        · rename_i hlong
          refine ⟨⟨hstart, fun hmem => hnul (Or.inl hmem), fun arg harg => ⟨?_, ?_⟩⟩,
            Except.ok.inj hl⟩
          · exact fun hmem => hnul (Or.inr ⟨arg, harg, hmem⟩)
          · exact Nat.le_of_not_lt fun hlt => hlong ⟨arg, harg, hlt⟩
  · rintro ⟨⟨hstart, hprogram, hargs⟩, rfl⟩
    rw [if_neg, hstart]
    · simp only
      rw [if_neg]
      rintro ⟨arg, harg, hlt⟩
      exact Nat.not_le_of_lt hlt (hargs arg harg).2
    · rintro (hmem | ⟨arg, harg, hmem⟩)
      · exact hprogram hmem
      · exact (hargs arg harg).1 hmem

theorem args_of_launched {l : Launch} (hl : h.launched c = .ok l) : l.args = c.args := by
  rw [← (launched_eq_ok_iff.1 hl).2]
  rfl

/-- A program is launched on both of two commands, or on neither for the same reason, if it can be
started alike and their texts can be passed on alike. -/
theorem launched_congr (hprogram : c'.program = c.program)
    (hstart : h'.startable c.program = h.startable c.program)
    (hnul : (c'.args.any (·.toList.contains '\x00')) = c.args.any (·.toList.contains '\x00'))
    (hlen : (c'.args.any fun arg => argumentLimit < (Utf8.bytes arg).length) =
      c.args.any fun arg => argumentLimit < (Utf8.bytes arg).length) :
    (∃ e, h.launched c = .error e ∧ h'.launched c' = .error e) ∨
      h.launched c = .ok (h.launch c) ∧ h'.launched c' = .ok (h'.launch c') := by
  unfold launched
  rw [List.any_cons, List.any_cons, hnul, hlen, hprogram, hstart]
  split
  · exact Or.inl ⟨_, rfl, rfl⟩
  · cases h.startable c.program with
    | error e => exact Or.inl ⟨e, rfl, rfl⟩
    | ok u =>
      simp only
      split
      · exact Or.inl ⟨_, rfl, rfl⟩
      · exact Or.inr ⟨rfl, rfl⟩

end ExprHost.Host
