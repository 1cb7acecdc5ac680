import ExprHost.Proofs.Host.Parents

/-!
# Directories made

Making a directory makes those it lies in first. What one attempt makes is found by the next:
a directory that is there stays there, and a failure does not turn into a success.

* `FileTree.ensureDir_of_leadsToDir`: a directory that is there is left as it is.
* `FileTree.leadsToDir_parent`: **where a path leads to a directory, its parent does.**
* `FileTree.createDirs_again`, `FileTree.createDirs_failed`: **a second attempt ends as the
  first did.**
-/

namespace ExprHost

namespace FileTree

variable {t t' : FileTree} {workDir p q : Path} {loc : Location}

/-! ## One directory -/

theorem leadsToDir_iff : t.leadsToDir workDir p = true ↔
    ∃ loc, t.locate workDir p = .ok loc ∧ t.entry? loc = some .directory := by
  rw [leadsToDir]
  constructor
  · intro h
    split at h
    · rename_i loc hfind
      exact ⟨loc, find_eq_ok_iff.1 hfind⟩
    · cases h
  · rintro ⟨loc, hfound⟩
    rw [find_eq_ok_iff.2 hfound]

/-- A walk that goes on stands in a directory. -/
theorem isDir_of_walk {more : List FileName} {x : Location} (hmore : more ≠ [])
    (h : t.walk loc more = .ok x) : t.entry? loc = some .directory := by
  obtain ⟨piece, rest, rfl⟩ := List.exists_cons_of_ne_nil hmore
  exact (walk_cons_eq_ok_iff.1 h).1

/-- Where a path can be continued it leads to a directory. -/
theorem leadsToDir_of_walk {more : List FileName} {x : Location} (hcheck : checkPath p = .ok ())
    (hmore : more ≠ []) (h : t.walk [] (pieces workDir p ++ more) = .ok x) :
    t.leadsToDir workDir p = true := by
  obtain ⟨loc, hfront, hend⟩ := walk_append_eq_ok_iff.1 h
  exact leadsToDir_iff.2 ⟨loc, locate_eq_ok_iff.2 ⟨hcheck, hfront⟩, isDir_of_walk hmore hend⟩

/-- Pieces that stay lead nowhere else. -/
theorem walk_stays {back : List FileName} (hback : ∀ a ∈ back, stays a = true)
    (hdir : t.entry? loc = some .directory) : t.walk loc back = .ok loc := by
  induction back with
  | nil => rfl
  | cons a rest ih =>
    refine walk_cons_eq_ok_iff.2 ⟨hdir, Or.inl ⟨hback a List.mem_cons_self, ?_⟩⟩
    exact ih fun b hb => hback b (List.mem_cons_of_mem a hb)

theorem eq_of_walk_stays {back : List FileName} {x : Location}
    (hback : ∀ a ∈ back, stays a = true) (h : t.walk loc back = .ok x) : x = loc := by
  cases back with
  | nil => exact (Except.ok.inj h).symm
  | cons a rest =>
    have hstay := walk_stays hback (isDir_of_walk (List.cons_ne_nil a rest) h)
    exact Except.ok.inj (h.symm.trans hstay)

/-- What it takes to make a directory: the pieces before its name lead to one. -/
theorem makeDir_eq_ok (h : t.makeDir workDir p = .ok t') :
    checkPath p = .ok () ∧ ∃ before name back dir, pieces workDir p = before ++ name :: back ∧
      (∀ a ∈ back, stays a = true) ∧ stays name = false ∧ leaves name = false ∧
      name.length ≤ nameLimit ∧ t.walk [] (before ++ [[]]) = .ok dir ∧
      t.entry? (dir ++ [name]) = none ∧ t' = t.insert (dir ++ [name]) .directory := by
  simp only [makeDir, bind, Except.bind] at h
  cases hcheck : checkPath p with
  | error e => simp [hcheck] at h
  | ok u =>
    simp only [hcheck] at h
    refine ⟨rfl, ?_⟩
    cases hlast : (pieces workDir p).reverse.dropWhile List.isEmpty with
    | nil => simp [hlast] at h
    | cons name before =>
      simp only [hlast] at h
      obtain ⟨back, hpieces, hback, -⟩ := Text.eq_append_of_dropWhile_reverse hlast
      cases hwalk : t.walk [] (before.reverse ++ [[]]) with
      | error e => simp [hwalk] at h
      | ok dir =>
        simp only [hwalk] at h
        split at h
        · cases h
        · rename_i hname
          split at h
          · cases h
          · rename_i hlen
            rw [Bool.or_eq_true, not_or, Bool.not_eq_true, Bool.not_eq_true] at hname
            cases hentry : t.entry? (dir ++ [name]) with
            | some e => simp [hentry] at h
            | none =>
              simp only [hentry, Except.ok.injEq] at h
              refine ⟨before.reverse, name, back, dir, hpieces, ?_, hname.1, hname.2,
                Nat.le_of_not_lt hlen, hwalk, hentry, h.symm⟩
              intro a ha
              rw [List.isEmpty_iff.1 (hback a ha)]
              rfl

/-- The two ways a directory can come to be at a path. -/
theorem ensureDir_eq_ok (h : t.ensureDir workDir p = .ok t') :
    t.makeDir workDir p = .ok t' ∨ t' = t ∧ t.leadsToDir workDir p = true := by
  rw [ensureDir] at h
  split at h
  · rename_i made hmade
    cases h
    exact Or.inl hmade
  · split at h
    · rename_i hthere
      cases h
      exact Or.inr ⟨rfl, hthere.2⟩
    · cases h

/-- A directory that is made is the one thing that is new, and its path leads to it. -/
theorem makeDir_eq_insert (h : t.makeDir workDir p = .ok t') :
    ∃ loc, t' = t.insert loc .directory ∧ t'.locate workDir p = .ok loc ∧
      t'.entry? loc = some .directory := by
  obtain ⟨hcheck, before, name, back, dir, hpieces, hback, hstay, hleave, hlen, hwalk, hfree,
    rfl⟩ := makeDir_eq_ok h
  have hne : dir ++ [name] ≠ [] := List.append_ne_nil_of_right_ne_nil _ (List.cons_ne_nil name [])
  have hmade := entry?_insert_self (e := Entry.directory) hne hfree
  have hdirs := dirsIn_insert t (dir ++ [name]) .directory
  obtain ⟨loc, hbefore, hend⟩ := walk_append_eq_ok_iff.1 hwalk
  have hdir := isDir_of_walk (List.cons_ne_nil [] []) hend
  obtain rfl := eq_of_walk_stays (by simp [stays]) hend
  refine ⟨dir ++ [name], rfl, locate_eq_ok_iff.2 ⟨hcheck, ?_⟩, hmade⟩
  rw [hpieces]
  refine walk_append_eq_ok_iff.2 ⟨dir, walk_mono hdirs hbefore, ?_⟩
  exact walk_cons_eq_ok_iff.2 ⟨hdirs _ hdir,
    Or.inr (Or.inr ⟨hstay, hleave, hlen, walk_stays hback hmade⟩)⟩

/-- A directory that was made is there. -/
theorem leadsToDir_of_ensureDir (h : t.ensureDir workDir p = .ok t') :
    t'.leadsToDir workDir p = true := by
  rcases ensureDir_eq_ok h with hmake | ⟨rfl, hthere⟩
  · obtain ⟨loc, -, hleads, hdir⟩ := makeDir_eq_insert hmake
    exact leadsToDir_iff.2 ⟨loc, hleads, hdir⟩
  · exact hthere

/-- **A directory that is there is left as it is.** -/
theorem ensureDir_of_leadsToDir (h : t.leadsToDir workDir p = true) :
    t.ensureDir workDir p = .ok t := by
  obtain ⟨loc, hlocate, hentry⟩ := leadsToDir_iff.1 h
  obtain ⟨hcheck, hwalk⟩ := locate_eq_ok_iff.1 hlocate
  have hmake : t.makeDir workDir p = .error .alreadyExists := by
    simp only [makeDir, bind, Except.bind, hcheck]
    cases hlast : (pieces workDir p).reverse.dropWhile List.isEmpty with
    | nil => rfl
    | cons name before =>
      obtain ⟨back, hpieces, hback, -⟩ := Text.eq_append_of_dropWhile_reverse hlast
      have hstays : ∀ a ∈ back, stays a = true := by
        intro a ha
        rw [List.isEmpty_iff.1 (hback a ha)]
        rfl
      rw [hpieces] at hwalk
      obtain ⟨dir, hbefore, hname⟩ := walk_append_eq_ok_iff.1 hwalk
      obtain ⟨hdir, hstep⟩ := walk_cons_eq_ok_iff.1 hname
      have hwalked : t.walk [] (before.reverse ++ [[]]) = .ok dir :=
        walk_append_eq_ok_iff.2 ⟨dir, hbefore, walk_stays (by simp [stays]) hdir⟩
      simp only [hwalked]
      rcases hstep with ⟨hs, -⟩ | ⟨hs, hl, -⟩ | ⟨hs, hl, hlen, hw⟩
      · simp [hs]
      · simp [hl]
      · obtain rfl := eq_of_walk_stays hstays hw
        simp [hs, hl, Nat.not_lt.2 hlen, hentry]
  rw [ensureDir, hmake]
  simp [h]

/-- **Where a path leads to a directory, or one can be made, its parent leads to one.** -/
theorem leadsToDir_parent (hparent : p.parent? = some q) (hq : q.parent?.isSome = true)
    (h : t.ensureDir workDir p = .ok t') : t.leadsToDir workDir q = true := by
  obtain ⟨idles, piece, rest, hsplit, hidles, hpiece, hrest⟩ :=
    Path.pieces_parent? hparent hq workDir
  rcases ensureDir_eq_ok h with hmake | ⟨-, hthere⟩
  · obtain ⟨hcheck, before, name, back, dir, hpieces, hback, hstay, -, -, hwalk, -⟩ :=
      makeDir_eq_ok hmake
    -- the name is the last piece that counts, on both accounts
    have hbefore : before = pieces workDir q ++ idles := by
      have hlast := Text.dropWhile_reverse_append before hback hstay
      rw [← hpieces, hsplit, ← List.append_assoc,
        Text.dropWhile_reverse_append _ hrest hpiece] at hlast
      exact (List.reverse_injective (List.cons.inj hlast).2).symm
    rw [hbefore, List.append_assoc] at hwalk
    exact leadsToDir_of_walk (Path.checkPath_parent? hparent hq hcheck) (by simp) hwalk
  · obtain ⟨loc, hlocate, -⟩ := leadsToDir_iff.1 hthere
    obtain ⟨hcheck, hwalk⟩ := locate_eq_ok_iff.1 hlocate
    rw [hsplit] at hwalk
    exact leadsToDir_of_walk (Path.checkPath_parent? hparent hq hcheck) (by simp) hwalk

/-! ## A lineage of directories -/

/-- A directory that could be made at a path, after those it lies in. -/
theorem createLineage_cons (t : FileTree) (workDir p : Path) (outer : List Path) :
    t.createLineage workDir (p :: outer) = match t.ensureDir workDir p with
      | .ok there => (.ok (), there)
      | .error .notFound =>
        match t.createLineage workDir outer with
        | (.error e, t) => (.error e, t)
        | (.ok (), t) =>
          match t.ensureDir workDir p with
          | .ok there => (.ok (), there)
          | .error e => (.error e, t)
      | .error e => (.error e, t) := rfl

theorem createLineage_of_leadsToDir (h : t.leadsToDir workDir p = true) (outer : List Path) :
    t.createLineage workDir (p :: outer) = (.ok (), t) := by
  rw [createLineage_cons, ensureDir_of_leadsToDir h]

/-- **What has been made is found again.** -/
theorem createLineage_again {ps : List Path} (h : t.createLineage workDir ps = (.ok (), t')) :
    t'.createLineage workDir ps = (.ok (), t') := by
  cases ps with
  | nil => rfl
  | cons p outer =>
    apply createLineage_of_leadsToDir
    rw [createLineage_cons] at h
    split at h
    · rename_i there hthere
      cases h
      exact leadsToDir_of_ensureDir hthere
    · split at h
      · cases h
      · split at h
        · rename_i there hthere
          cases h
          exact leadsToDir_of_ensureDir hthere
        · cases h
    · cases h

/-- A directory is not made if it is not even there once those it lies in are. -/
theorem createLineage_cons_error {outer : List Path} {os : OsError}
    (hp : t.ensureDir workDir p = .error os)
    (houter : ∀ made, t.createLineage workDir outer = (.ok (), made) →
      ∃ os', made.ensureDir workDir p = .error os') :
    ∃ e, (t.createLineage workDir (p :: outer)).1 = .error e := by
  rw [createLineage_cons, hp]
  split
  · rename_i h
    cases h
  · split
    · exact ⟨_, rfl⟩
    · rename_i made hmade
      obtain ⟨os', hstill⟩ := houter made hmade
      rw [hstill]
      exact ⟨os', rfl⟩
  · exact ⟨_, rfl⟩

/-- **What could not be made cannot be made later:** the directories that a failure leaves
behind are not enough. -/
theorem createLineage_failed {ps : List Path} (hlineage : ps.IsChain fun p q =>
    p.parent? = some q ∧ q.parent?.isSome = true) {e : OsError}
    (h : t.createLineage workDir ps = (.error e, t')) :
    ∃ e', (t'.createLineage workDir ps).1 = .error e' := by
  induction ps generalizing t e with
  | nil => cases h
  | cons p outer ih =>
    have hall := h
    rw [createLineage_cons] at h
    split at h
    · cases h
    · split at h
      · -- one further out cannot be made, so this one cannot be there
        rename_i e' left hfail
        cases h
        obtain ⟨e'', hagain⟩ := ih hlineage.tail hfail
        cases hp : FileTree.ensureDir t' workDir p with
        | error os =>
          refine createLineage_cons_error hp fun made hmade => ?_
          rw [hmade] at hagain
          cases hagain
        | ok there =>
          cases outer with
          | nil => cases hfail
          | cons q further =>
            obtain ⟨hparent, hq⟩ := (List.isChain_cons_cons.1 hlineage).1
            have hleads := leadsToDir_parent hparent hq hp
            rw [createLineage_of_leadsToDir hleads further] at hagain
            cases hagain
      · -- those further out are there now, and were not enough
        rename_i made hmade
        split at h
        · cases h
        · rename_i os hp
          cases h
          refine createLineage_cons_error hp fun made' hmade' => ⟨e, ?_⟩
          rw [createLineage_again hmade] at hmade'
          cases hmade'
          exact hp
    · -- nothing was made
      cases h
      rw [hall]
      exact ⟨e, rfl⟩

/-- **A second attempt to make a directory finds what the first has made.** -/
theorem createDirs_again (h : t.createDirs workDir p = (.ok (), t')) :
    t'.createDirs workDir p = (.ok (), t') :=
  createLineage_again h

/-- **A second attempt to make a directory fails as the first did.** -/
theorem createDirs_failed {e : OsError} (h : t.createDirs workDir p = (.error e, t')) :
    ∃ e', (t'.createDirs workDir p).1 = .error e' :=
  createLineage_failed p.isChain_lineage h

end FileTree

end ExprHost
