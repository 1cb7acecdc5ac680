import ExprHost.Proofs.Text.Colons
import ExprHost.Proofs.Types.Levels

/-!
# Normal names

Reading a spelling drops its empty segments, so many spellings lead to one name. The name's own
spelling is one of them: it is read as the name that it spells, since a segment that begins with a
colon keeps it behind a separator, and none but the last ends in one.

* `Normal`: the names that spellings lead to.
* `ofPath_text`: **a normal name is read back from its spelling.**
* `normal_ofPath`: reading leads to normal names.
* `ofPath_normalises`: **reading is a normaliser of spellings.**
-/

namespace ExprHost.TypeName

/-- The segments of a spelling that are not empty. -/
def spelledSegments (path : String) : List (List Char) :=
  (Text.splitColons path.toList).filter (· ≠ [])

/-- A name with segments that can be told apart in its spelling, none of them empty, or the empty
name. -/
inductive Normal : TypeName → Prop
  | empty : Normal (global "")
  | spelled {n : TypeName} {pieces : List (List Char)} (cut : Text.Cut pieces)
      (ne_nil : ∀ p ∈ pieces, p ≠ []) (segments : n.segments = pieces.map String.ofList) : Normal n

theorem ofPath_of_eq_nil {path : String} (h : spelledSegments path = []) :
    ofPath path = global "" := by
  unfold ofPath
  rw [show (Text.splitColons path.toList).filter (· ≠ []) = [] from h]
  rfl

/-- The segments of a name are those of its spelling, unless all of them are empty. -/
theorem segments_ofPath {path : String} (h : spelledSegments path ≠ []) :
    (ofPath path).segments = (spelledSegments path).map String.ofList := by
  have hne : (spelledSegments path).map String.ofList ≠ [] := by simpa using h
  change ((spelledSegments path).map String.ofList).dropLast ++
    [((spelledSegments path).map String.ofList).getLast?.getD ""] = _
  rw [List.getLast?_eq_some_getLast hne, Option.getD_some, List.dropLast_concat_getLast]

/-- Reading leads to normal names. -/
theorem normal_ofPath (path : String) : (ofPath path).Normal := by
  by_cases h : spelledSegments path = []
  · rw [ofPath_of_eq_nil h]
    exact .empty
  · refine .spelled ((Text.cut_splitColons path.toList).sublist List.filter_sublist) ?_
      (segments_ofPath h)
    intro p hp
    simpa using (List.mem_filter.1 hp).2

/-- **A normal name is read back from its spelling.** -/
theorem ofPath_text {n : TypeName} (h : n.Normal) : ofPath n.text = n := by
  cases h with
  | empty => decide
  | @spelled _ pieces hcut hne hsegments =>
    have hpieces : pieces ≠ [] := by
      rintro rfl
      simp [segments] at hsegments
    have hspelled : spelledSegments n.text = pieces := by
      rw [spelledSegments, text, hsegments, Text.splitColons_join hpieces hcut]
      exact List.filter_eq_self.2 fun p hp => by simpa using hne p hp
    apply segments_injective
    rw [segments_ofPath (by rwa [hspelled]), hspelled, hsegments]

/-- The spelling of a name that lies in modules is theirs, and then its simple name. -/
theorem text_eq_modulePath_append {n : TypeName} (h : n.isGlobal = false) :
    n.text = n.modulePath ++ "::" ++ n.simple := by
  have hne : n.modules ≠ [] := by simpa [isGlobal] using h
  exact TypeDesc.join_concat "::" n.simple hne

/-- A name with an empty segment is the empty name, and it is read from the spellings that have
no segment. -/
theorem empty_mem_segments_iff {path : String} :
    "" ∈ (ofPath path).segments ↔ spelledSegments path = [] := by
  constructor
  · intro h
    by_contra hne
    rw [segments_ofPath hne] at h
    obtain ⟨p, hp, hempty⟩ := List.mem_map.1 h
    have hnil : p = [] := by simpa using hempty
    simpa [hnil] using (List.mem_filter.1 hp).2
  · intro h
    rw [ofPath_of_eq_nil h]
    exact List.mem_singleton_self ""

theorem spelledSegments_eq_nil_iff {path : String} :
    spelledSegments path = [] ↔ ∃ n, path.toList = (List.replicate n [':', ':']).flatten := by
  rw [← Text.forall_splitColons_eq_nil_iff, spelledSegments, List.filter_eq_nil_iff]
  simp

/-- No separator stands in a segment of a normal name. -/
theorem Normal.whole {n : TypeName} (h : n.Normal) {s : String} (hs : s ∈ n.segments) :
    Text.Whole s.toList := by
  cases h with
  | empty =>
    obtain rfl := List.mem_singleton.1 hs
    exact Text.whole_nil
  | spelled hcut _ hsegments =>
    rw [hsegments] at hs
    obtain ⟨p, hp, rfl⟩ := List.mem_map.1 hs
    simpa using hcut.whole p hp

/-- **Reading is a normaliser of spellings.** A name is read back from its own spelling, so
spellings lead to one name exactly when the names they lead to are spelled alike. Only a repetition
of the separator leads to an empty segment, which is then the whole name; in no segment a separator
stands; and a name in modules is spelled as they are, and then as its simple name. -/
theorem ofPath_normalises (path : String) :
    ofPath (ofPath path).text = ofPath path ∧
    (∀ other, ofPath path = ofPath other ↔ (ofPath path).text = (ofPath other).text) ∧
    ("" ∈ (ofPath path).segments ↔ ∃ n, path.toList = (List.replicate n [':', ':']).flatten) ∧
    ("" ∈ (ofPath path).segments → (ofPath path).segments = [""]) ∧
    (∀ s ∈ (ofPath path).segments, ¬[':', ':'] <:+: s.toList) ∧
    ((ofPath path).isGlobal = false →
      (ofPath path).text = (ofPath path).modulePath ++ "::" ++ (ofPath path).simple) := by
  have hback : ∀ p, ofPath (ofPath p).text = ofPath p := fun p => ofPath_text (normal_ofPath p)
  refine ⟨hback path, ?_, ?_, ?_, fun s hs => (normal_ofPath path).whole hs,
    text_eq_modulePath_append⟩
  · intro other
    constructor
    · intro h
      rw [h]
    · intro h
      rw [← hback path, h, hback other]
  · rw [empty_mem_segments_iff, spelledSegments_eq_nil_iff]
  · intro h
    rw [ofPath_of_eq_nil (empty_mem_segments_iff.1 h)]
    rfl

/-- Runs of two, three and four colons between segments, and one colon at the end. -/
theorem ofPath_normalises_runs :
    ofPath "::a:::b::::c:" = ⟨["a", ":b"], "c:"⟩ ∧
    ofPath "a:::b::c:" = ofPath "::a:::b::::c:" ∧
    (":b" ∈ (ofPath "::a:::b::::c:").segments ∧ ¬[':', ':'] <:+: ":b".toList) ∧
    ((ofPath "::a:::b::::c:").isGlobal = false ∧
      (ofPath "::a:::b::::c:").text = (ofPath "::a:::b::::c:").modulePath ++ "::" ++ "c:") ∧
    ("" ∈ (ofPath "::::").segments ∧ (ofPath "::::").segments = [""]) := by
  have hread : ofPath "::a:::b::::c:" = ⟨["a", ":b"], "c:"⟩ := by decide
  have hmem : ":b" ∈ (ofPath "::a:::b::::c:").segments := by decide
  have hin : (ofPath "::a:::b::::c:").isGlobal = false := by decide
  have hempty : "" ∈ (ofPath "::::").segments := by decide
  obtain ⟨-, hother, -, -, hwhole, htext⟩ := ofPath_normalises "::a:::b::::c:"
  obtain ⟨-, -, -, hall, -, -⟩ := ofPath_normalises "::::"
  refine ⟨hread, ((hother "a:::b::c:").2 (by decide)).symm, ⟨hmem, hwhole _ hmem⟩, ⟨hin, ?_⟩,
    hempty, hall hempty⟩
  rw [htext hin, hread]

end ExprHost.TypeName
