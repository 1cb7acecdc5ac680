import ExprHost.Proofs.Diagnostic.Lines
import ExprHost.Proofs.Json.Writing
import Mathlib.Data.List.Forall2

/-!
# Reports of the compiler

What a compiler writes when it has something to report: for each report an object on a line of
its own, and between them whatever else it says. The members of the object may stand in any
order, among others, and each text may be spelled in any way JSON has for it.

* `Report.Describes`: the members of an object that says a report.
* `Report.Line`, `Noise`, `Report.Stream`: the lines of a report, other lines, and streams.
* `Diagnostic.ofText_of_stream`: **the reports of a stream are read back, in order.**
-/

namespace ExprHost

/-- A member of an object as it is written. -/
abbrev Json.Entry := List Piece × Json

/-- The member stands under the key. -/
def Keyed (key : String) (m : Json.Entry) : Prop := Json.Piece.Means m.1 key.toList

/-- The value is a string of the text. -/
def Json.IsText (v : Json) (s : String) : Prop := ∃ ps, v = .string ps ∧ Piece.Means ps s.toList

/-- Something the compiler reports. -/
structure Report where
  level : String
  message : String
  rendered : Option String

namespace Report

/-- The diagnostic that a report should become. -/
def diagnostic (r : Report) : Diagnostic :=
  { severity := .ofLevel r.level, message := r.message, rendered := r.rendered }

/-- The texts of a report under their keys, with a message type or without. -/
def fields (r : Report) (kind : Option String) : List (String × Option String) :=
  [("message", some r.message), ("level", some r.level), ("rendered", r.rendered),
    ("$message_type", kind)]

/-- The members for one field: one with its text, or where there is no text, none at all or one
that is null. -/
inductive Holds : String × Option String → List Json.Entry → Prop
  | text {key s : String} {m : Json.Entry} (hkey : Keyed key m) (htext : m.2.IsText s) :
      Holds (key, some s) [m]
  | null {key : String} {m : Json.Entry} (hkey : Keyed key m) (hnull : m.2 = .null) :
      Holds (key, none) [m]
  | absent {key : String} : Holds (key, none) []

/-- The members of an object that has the fields, in any order among members under other keys. -/
def Describes (fields : List (String × Option String)) (members : List Json.Entry) : Prop :=
  ∃ parts others, List.Forall₂ Holds fields parts ∧
    (∀ m ∈ others, ∃ key, Keyed key m ∧ key ∉ fields.map (·.1)) ∧
    members.Perm (parts.flatten ++ others)

/-- **The lines that write a report.** -/
def Line (r : Report) (line : List Char) : Prop :=
  line.head? = some '\x7b' ∧ '\n' ∉ line ∧
    ∃ kind ∈ [none, some "diagnostic"], ∃ members, Json.Written (.object members) line ∧
      Describes (r.fields kind) members

end Report

/-- **The lines that report nothing:** those that are no object from their first character on,
objects of another kind, and objects without a message or a level. -/
inductive Noise (line : List Char) : Prop
  | other (h : line.head? ≠ some '\x7b')
  | kind {members : List Json.Entry} (h : Json.Written (.object members) line) {m : Json.Entry}
      (hmem : m ∈ members) (hkey : Keyed "$message_type" m) (hnull : m.2 ≠ .null)
      (hkind : ¬ m.2.IsText "diagnostic")
  | lacking {members : List Json.Entry} (h : Json.Written (.object members) line) {key : String}
      (hkey : key ∈ ["message", "level"]) (hnone : ∀ m ∈ members, ¬ Keyed key m)

/-- The ends that a line can have. -/
def endings : List (List Char) := [['\n'], ['\r', '\n']]

/-- **The streams that write reports,** one after another, with other lines anywhere. -/
inductive Report.Stream : List Report → List Char → Prop
  | done : Stream [] []
  | report {r : Report} {rs : List Report} {line ending text : List Char} (h : r.Line line)
      (hending : ending ∈ endings) (hs : Stream rs text) :
      Stream (r :: rs) (line ++ (ending ++ text))
  | noise {rs : List Report} {line ending text : List Char} (h : Noise line) (hline : '\n' ∉ line)
      (hending : ending ∈ endings) (hs : Stream rs text) : Stream rs (line ++ (ending ++ text))

namespace Diagnostic

/-! ## Values under a key -/

/-- The values under a key, with the keys still as they are written. -/
def valuesUnder (key : String) (members : List Json.Entry) : List Json :=
  members.filterMap fun m => if Json.Piece.text? m.1 = some key.toList then some m.2 else none

theorem valuesUnder_cons_of_keyed {key : String} {m : Json.Entry} (h : Keyed key m)
    (members : List Json.Entry) : valuesUnder key (m :: members) = m.2 :: valuesUnder key members := by
  simp only [valuesUnder, List.filterMap_cons, Json.Piece.text?_of_means h, if_true]

theorem valuesUnder_append (key : String) (a b : List Json.Entry) :
    valuesUnder key (a ++ b) = valuesUnder key a ++ valuesUnder key b :=
  List.filterMap_append

theorem valuesUnder_eq_nil {key : String} {members : List Json.Entry}
    (h : ∀ m ∈ members, ∃ other, Keyed other m ∧ other ≠ key) : valuesUnder key members = [] := by
  refine List.filterMap_eq_nil_iff.2 fun m hm => ?_
  obtain ⟨other, hother, hne⟩ := h m hm
  rw [Json.Piece.text?_of_means hother, if_neg]
  intro heq
  exact hne (String.toList_injective (Option.some.inj heq))

theorem mem_valuesUnder {key : String} {m : Json.Entry} {members : List Json.Entry}
    (hmem : m ∈ members) (h : Keyed key m) : m.2 ∈ valuesUnder key members :=
  List.mem_filterMap.2 ⟨m, hmem, if_pos (Json.Piece.text?_of_means h)⟩

/-- An object that lacks a key holds nothing under it. -/
theorem valuesUnder_of_lacking {key : String} {members : List Json.Entry} {line : List Char}
    (hwritten : Json.Written (.object members) line) (hnone : ∀ m ∈ members, ¬ Keyed key m) :
    valuesUnder key members = [] := by
  refine List.filterMap_eq_nil_iff.2 fun m hm => if_neg fun htext => hnone m hm ?_
  exact Json.Piece.means_of_text? (Json.units_of_written hwritten hm (.inl rfl)) htext

theorem valuesAt_of_decodeKeys? {members : List Json.Entry} {ms : List Member}
    (h : decodeKeys? members = some ms) (key : String) :
    valuesAt key ms = valuesUnder key members := by
  induction members generalizing ms with
  | nil =>
    cases h
    rfl
  | cons m members ih =>
    obtain ⟨name, hname, h⟩ := Option.bind_eq_some_iff.1 h
    obtain ⟨rest, hrest, h⟩ := Option.bind_eq_some_iff.1 h
    cases h
    have hrest := ih hrest
    simp only [valuesAt, valuesUnder] at hrest
    simp only [valuesAt, valuesUnder, List.filterMap_cons, hrest, hname, Option.some.injEq]

theorem exists_decodeKeys? {members : List Json.Entry} (h : ∀ m ∈ members, ∃ key, Keyed key m) :
    ∃ ms, decodeKeys? members = some ms := by
  induction members with
  | nil => exact ⟨[], rfl⟩
  | cons m members ih =>
    obtain ⟨key, hkey⟩ := h m List.mem_cons_self
    obtain ⟨ms, hms⟩ := ih fun m hm => h m (List.mem_cons_of_mem _ hm)
    refine ⟨(key.toList, m.2) :: ms, ?_⟩
    rw [decodeKeys?, Json.Piece.text?_of_means hkey, hms]
    rfl

/-! ## Objects with fields -/

variable {fields : List (String × Option String)} {members : List Json.Entry}
  {parts : List (List Json.Entry)} {ms : List Member}

/-- The members of a field stand under its key. -/
theorem keyed_of_holds {field : String × Option String} {part : List Json.Entry}
    (h : Report.Holds field part) : ∀ m ∈ part, Keyed field.1 m := by
  cases h with
  | text hkey htext => simpa using hkey
  | null hkey hnull => simpa using hkey
  | absent => simp

theorem valuesUnder_of_holds {field : String × Option String} {part : List Json.Entry}
    (h : Report.Holds field part) : valuesUnder field.1 part = part.map (·.2) := by
  cases h with
  | text hkey htext => rw [valuesUnder_cons_of_keyed hkey]; rfl
  | null hkey hnull => rw [valuesUnder_cons_of_keyed hkey]; rfl
  | absent => rfl

theorem exists_keyed_of_parts (h : List.Forall₂ Report.Holds fields parts) :
    ∀ m ∈ parts.flatten, ∃ key ∈ fields.map (·.1), Keyed key m := by
  induction h with
  | nil => simp
  | @cons field part fields parts hholds hs ih =>
    intro m hm
    rw [List.flatten_cons, List.mem_append] at hm
    rw [List.map_cons]
    rcases hm with hm | hm
    · exact ⟨field.1, List.mem_cons_self, keyed_of_holds hholds m hm⟩
    · obtain ⟨key, hkey, hkeyed⟩ := ih m hm
      exact ⟨key, List.mem_cons_of_mem _ hkey, hkeyed⟩

/-- Under the key of a field are the values of its own part. -/
theorem valuesUnder_parts (h : List.Forall₂ Report.Holds fields parts)
    (hnodup : (fields.map (·.1)).Nodup) {field : String × Option String} (hmem : field ∈ fields) :
    ∃ part, Report.Holds field part ∧ valuesUnder field.1 parts.flatten = part.map (·.2) := by
  induction h with
  | nil => cases hmem
  | @cons first part fields parts hholds hs ih =>
    rw [List.map_cons, List.nodup_cons] at hnodup
    rw [List.flatten_cons, valuesUnder_append]
    -- the keys differ, so that only one of the two pieces has anything under the key
    rcases List.mem_cons.1 hmem with rfl | hmem
    · refine ⟨part, hholds, ?_⟩
      rw [valuesUnder_of_holds hholds, valuesUnder_eq_nil, List.append_nil]
      intro m hm
      obtain ⟨key, hkey, hkeyed⟩ := exists_keyed_of_parts hs m hm
      exact ⟨key, hkeyed, fun heq => hnodup.1 (heq ▸ hkey)⟩
    · obtain ⟨own, hown, hvalues⟩ := ih hnodup.2 hmem
      refine ⟨own, hown, ?_⟩
      rw [hvalues, valuesUnder_eq_nil, List.nil_append]
      intro m hm
      refine ⟨first.1, keyed_of_holds hholds m hm, fun heq => hnodup.1 ?_⟩
      rw [heq]
      exact List.mem_map_of_mem hmem

/-- Under the key of a field are its values alone, whatever the order of the members. -/
theorem valuesUnder_of_describes (h : Report.Describes fields members)
    (hnodup : (fields.map (·.1)).Nodup) {field : String × Option String} (hmem : field ∈ fields) :
    ∃ part, Report.Holds field part ∧ valuesUnder field.1 members = part.map (·.2) := by
  obtain ⟨parts, others, hparts, hothers, hperm⟩ := h
  obtain ⟨part, hholds, hvalues⟩ := valuesUnder_parts hparts hnodup hmem
  have hother : valuesUnder field.1 others = [] := by
    refine valuesUnder_eq_nil fun m hm => ?_
    obtain ⟨key, hkeyed, hkey⟩ := hothers m hm
    exact ⟨key, hkeyed, fun heq => hkey (heq ▸ List.mem_map_of_mem hmem)⟩
  have hsame : (valuesUnder field.1 members).Perm (part.map (·.2)) := by
    have hfilter := hperm.filterMap
      fun m => if Json.Piece.text? m.1 = some field.1.toList then some m.2 else none
    rwa [← valuesUnder, ← valuesUnder, valuesUnder_append, hvalues, hother, List.append_nil]
      at hfilter
  refine ⟨part, hholds, ?_⟩
  -- there is at most one value, so that the order cannot matter
  cases hholds with
  | text hkey htext => exact List.perm_singleton.1 hsame
  | null hkey hnull => exact List.perm_singleton.1 hsame
  | absent => exact List.perm_nil.1 hsame

theorem exists_decodeKeys?_of_describes (h : Report.Describes fields members) :
    ∃ ms, decodeKeys? members = some ms := by
  obtain ⟨parts, others, hparts, hothers, hperm⟩ := h
  refine exists_decodeKeys? fun m hm => ?_
  rcases List.mem_append.1 (hperm.mem_iff.1 hm) with hm | hm
  · obtain ⟨key, -, hkeyed⟩ := exists_keyed_of_parts hparts m hm
    exact ⟨key, hkeyed⟩
  · obtain ⟨key, hkeyed, -⟩ := hothers m hm
    exact ⟨key, hkeyed⟩

/-! ## Texts of fields -/

theorem optionalText?_of_holds {key : String} {s : Option String} {part : List Json.Entry}
    (h : Report.Holds (key, s) part) (hvalues : valuesAt key ms = part.map (·.2)) :
    optionalText? key ms = some s := by
  rw [optionalText?, hvalues]
  cases h with
  | text hkey htext =>
    obtain ⟨ps, hps, hmeans⟩ := htext
    simp only [List.map_cons, List.map_nil, hps, Json.Piece.text?_of_means hmeans, Option.map_some,
      String.ofList_toList]
  | null hkey hnull => simp only [List.map_cons, List.map_nil, hnull]
  | absent => rfl

theorem requiredText?_of_holds {key s : String} {part : List Json.Entry}
    (h : Report.Holds (key, some s) part) (hvalues : valuesAt key ms = part.map (·.2)) :
    requiredText? key ms = some s := by
  rw [requiredText?, hvalues]
  cases h with
  | text hkey htext =>
    obtain ⟨ps, hps, hmeans⟩ := htext
    simp only [List.map_cons, List.map_nil, hps, Json.Piece.text?_of_means hmeans, Option.map_some,
      String.ofList_toList]

theorem optionalText?_of_describes (hms : decodeKeys? members = some ms)
    (h : Report.Describes fields members) (hnodup : (fields.map (·.1)).Nodup) {key : String}
    {s : Option String} (hmem : (key, s) ∈ fields) : optionalText? key ms = some s := by
  obtain ⟨part, hholds, hvalues⟩ := valuesUnder_of_describes h hnodup hmem
  exact optionalText?_of_holds hholds ((valuesAt_of_decodeKeys? hms key).trans hvalues)

theorem requiredText?_of_describes (hms : decodeKeys? members = some ms)
    (h : Report.Describes fields members) (hnodup : (fields.map (·.1)).Nodup) {key s : String}
    (hmem : (key, some s) ∈ fields) : requiredText? key ms = some s := by
  obtain ⟨part, hholds, hvalues⟩ := valuesUnder_of_describes h hnodup hmem
  exact requiredText?_of_holds hholds ((valuesAt_of_decodeKeys? hms key).trans hvalues)

/-- What is read from an optional member, from the value that stands there. -/
theorem value_of_optionalText? {key : String} {s : Option String} {v : Json}
    (h : optionalText? key ms = some s) (hmem : v ∈ valuesAt key ms) :
    v = .null ∧ s = none ∨
      ∃ ps text, v = .string ps ∧ Json.Piece.text? ps = some text.toList ∧ s = some text := by
  unfold optionalText? at h
  split at h
  · next hvalues =>
    rw [hvalues] at hmem
    cases hmem
  · next hvalues =>
    rw [hvalues] at hmem
    exact .inl ⟨List.mem_singleton.1 hmem, (Option.some.inj h).symm⟩
  · next ps hvalues =>
    rw [hvalues] at hmem
    obtain ⟨cs, hcs, hs⟩ := Option.map_eq_some_iff.1 h
    refine .inr ⟨ps, String.ofList cs, List.mem_singleton.1 hmem, ?_, hs.symm⟩
    rw [hcs, String.toList_ofList]
  · cases h

/-- **What the members of an object have to say to describe a diagnostic.** -/
theorem ofMembers?_eq_some_iff {d : Diagnostic} : ofMembers? ms = some d ↔
    ∃ (kind : Option String) (r : Report), (kind = none ∨ kind = some "diagnostic") ∧
      optionalText? "$message_type" ms = some kind ∧ requiredText? "message" ms = some r.message ∧
      requiredText? "level" ms = some r.level ∧ optionalText? "rendered" ms = some r.rendered ∧
      d = r.diagnostic := by
  constructor
  · intro h
    obtain ⟨kind, htype, h⟩ := Option.bind_eq_some_iff.1 h
    obtain ⟨message, hmessage, h⟩ := Option.bind_eq_some_iff.1 h
    obtain ⟨level, hlevel, h⟩ := Option.bind_eq_some_iff.1 h
    obtain ⟨rendered, hrendered, h⟩ := Option.bind_eq_some_iff.1 h
    split at h
    · next hkind =>
      exact ⟨kind, ⟨level, message, rendered⟩, hkind, htype, hmessage, hlevel, hrendered,
        (Option.some.inj h).symm⟩
    · cases h
  · rintro ⟨kind, r, hkind, htype, hmessage, hlevel, hrendered, rfl⟩
    simp only [ofMembers?, htype, hmessage, hlevel, hrendered, Option.bind_eq_bind,
      Option.bind_some, if_pos hkind]
    rfl

/-! ## Lines -/

variable {r : Report} {line : List Char}

theorem ofLine?_of_object (hopen : line.head? = some '\x7b')
    (hwritten : Json.Written (.object members) line) :
    ofLine? line = (decodeKeys? members).bind ofMembers? := by
  obtain ⟨rest, rfl⟩ := List.head?_eq_some_iff.1 hopen
  rw [ofLine?, Json.parse?_of_written hwritten]

/-- **A line that writes a report is read back.** -/
theorem ofLine?_of_line (h : r.Line line) : ofLine? line = some r.diagnostic := by
  obtain ⟨hopen, -, kind, hkind, members, hwritten, hdescribes⟩ := h
  obtain ⟨ms, hms⟩ := exists_decodeKeys?_of_describes hdescribes
  have hnodup : ((r.fields kind).map (·.1)).Nodup := by simp [Report.fields]
  rw [ofLine?_of_object hopen hwritten, hms, Option.bind_some]
  refine ofMembers?_eq_some_iff.2 ⟨kind, r, by simpa using hkind, ?_, ?_, ?_, ?_, rfl⟩
  · exact optionalText?_of_describes hms hdescribes hnodup (by simp [Report.fields])
  · exact requiredText?_of_describes hms hdescribes hnodup (by simp [Report.fields])
  · exact requiredText?_of_describes hms hdescribes hnodup (by simp [Report.fields])
  · exact optionalText?_of_describes hms hdescribes hnodup (by simp [Report.fields])

/-- What a line with an object says, its members say. -/
theorem ofMembers?_of_ofLine? {d : Diagnostic} (hwritten : Json.Written (.object members) line)
    (h : ofLine? line = some d) : ∃ ms, decodeKeys? members = some ms ∧ ofMembers? ms = some d := by
  by_cases hopen : line.head? = some '\x7b'
  · rw [ofLine?_of_object hopen hwritten] at h
    exact Option.bind_eq_some_iff.1 h
  · rw [ofLine?_eq_none hopen] at h
    cases h

/-- **A line that reports nothing says nothing.** -/
theorem ofLine?_of_noise (h : Noise line) : ofLine? line = none := by
  refine Option.eq_none_iff_forall_ne_some.2 fun d hd => ?_
  cases h with
  | other hother =>
    rw [ofLine?_eq_none hother] at hd
    cases hd
  | kind hwritten hmem hkey hnull hkind =>
    obtain ⟨ms, hms, hd⟩ := ofMembers?_of_ofLine? hwritten hd
    obtain ⟨kind, r, hdiagnostic, htype, -⟩ := ofMembers?_eq_some_iff.1 hd
    have hvalue := mem_valuesUnder hmem hkey
    rw [← valuesAt_of_decodeKeys? hms] at hvalue
    -- the message type that was read is that of this member, and it is of another kind
    rcases value_of_optionalText? htype hvalue with ⟨hv, -⟩ | ⟨ps, s, hv, htext, rfl⟩
    · exact hnull hv
    · have hunits := Json.units_of_written hwritten hmem (.inr hv)
      obtain rfl : s = "diagnostic" := by simpa using hdiagnostic
      exact hkind ⟨ps, hv, Json.Piece.means_of_text? hunits htext⟩
  | lacking hwritten hkey hnone =>
    obtain ⟨ms, hms, hd⟩ := ofMembers?_of_ofLine? hwritten hd
    obtain ⟨kind, r, -, -, hmessage, hlevel, -⟩ := ofMembers?_eq_some_iff.1 hd
    have hvalues : valuesAt _ ms = [] :=
      (valuesAt_of_decodeKeys? hms _).trans (valuesUnder_of_lacking hwritten hnone)
    rw [requiredText?] at hmessage hlevel
    rcases List.mem_pair.1 hkey with rfl | rfl
    · rw [hvalues] at hmessage
      cases hmessage
    · rw [hvalues] at hlevel
      cases hlevel

/-! ## Streams -/

/-- A line speaks for itself, whichever end it has. -/
theorem ofText_line (hline : '\n' ∉ line) {ending : List Char} (hending : ending ∈ endings)
    (text : List Char) : ofText (line ++ (ending ++ text)) = (ofLine? line).toList ++ ofText text := by
  rcases List.mem_pair.1 hending with rfl | rfl
  · rw [List.singleton_append, ofText_newline, ofText_of_not_mem hline]
  · -- between line feeds the carriage return belongs to the line, where it is a space
    have hcarriage : '\n' ∉ line ++ ['\r'] := by simpa using hline
    rw [List.cons_append, List.singleton_append, List.append_cons, ofText_newline,
      ofText_of_not_mem hcarriage, ofLine?_append_return]

/-- Line after line, a stream of reports gives their diagnostics. -/
theorem ofText_stream {rs : List Report} {text : List Char} (h : Report.Stream rs text) :
    ofText text = rs.map Report.diagnostic := by
  induction h with
  | done => rfl
  | report h hending hs ih =>
    obtain ⟨-, hline, -⟩ := id h
    rw [ofText_line hline hending, ofLine?_of_line h, ih]
    rfl
  | noise h hline hending hs ih =>
    rw [ofText_line hline hending, ofLine?_of_noise h, ih]
    rfl

end Diagnostic

/-! ## Writing reports -/

namespace Report

/-- Any text, or none, can be written under a key on one line. -/
theorem exists_holds (field : String × Option String) : ∃ part, Holds field part ∧
    ∀ m ∈ part, (Json.Token.string m.1).Writable ∧ ∀ t ∈ m.2.tokens, t.Writable := by
  obtain ⟨key, s⟩ := field
  cases s with
  | none => exact ⟨[], .absent, by simp⟩
  | some s =>
    obtain ⟨name, hname, hkey⟩ := Json.exists_writable key.toList
    obtain ⟨ps, hps, hvalue⟩ := Json.exists_writable s.toList
    refine ⟨[(name, .string ps)], .text hname ⟨ps, rfl, hps⟩, ?_⟩
    simpa [Json.tokens] using ⟨hkey, hvalue⟩

theorem exists_parts (fields : List (String × Option String)) :
    ∃ parts, List.Forall₂ Holds fields parts ∧ ∀ m ∈ parts.flatten,
      (Json.Token.string m.1).Writable ∧ ∀ t ∈ m.2.tokens, t.Writable := by
  induction fields with
  | nil => exact ⟨[], .nil, by simp⟩
  | cons field fields ih =>
    obtain ⟨part, hpart, hwritable⟩ := exists_holds field
    obtain ⟨parts, hparts, hrest⟩ := ih
    refine ⟨part :: parts, .cons hpart hparts, fun m hm => ?_⟩
    exact (List.mem_append.1 hm).elim (hwritable m) (hrest m)

/-- **Every report can be written** on a line. -/
theorem exists_line (r : Report) : ∃ line, r.Line line := by
  obtain ⟨parts, hparts, hwritable⟩ := exists_parts (r.fields none)
  -- one object that has the fields and nothing else is enough
  obtain ⟨cs, hwritten, hline⟩ := Json.exists_written_object hwritable
  refine ⟨'\x7b' :: cs, rfl, hline, none, List.mem_cons_self, _, hwritten, parts, [], hparts, ?_, ?_⟩
  · simp
  · rw [List.append_nil]

theorem exists_stream (rs : List Report) : ∃ text, Stream rs text := by
  induction rs with
  | nil => exact ⟨[], .done⟩
  | cons r rs ih =>
    obtain ⟨line, hline⟩ := r.exists_line
    obtain ⟨text, htext⟩ := ih
    exact ⟨_, .report hline List.mem_cons_self htext⟩

end Report

/-- **The reports of a stream are read back,** in order and nothing else with them, and there are
streams of any reports. -/
theorem Diagnostic.ofText_of_stream (rs : List Report) :
    (∃ text, Report.Stream rs text) ∧
      ∀ text, Report.Stream rs text → ofText text = rs.map Report.diagnostic :=
  ⟨Report.exists_stream rs, fun _ h => ofText_stream h⟩

/-! ## A stream -/

section Sample

open Json

/-- The notice of an artifact. -/
def artifactLine : List Char := "\x7b\"$message_type\":\"artifact\"\x7d".toList

theorem noise_artifactLine : Noise artifactLine := by
  have hwritten :
      Json.Written (.object [(Piece.plain "$message_type", .string (Piece.plain "artifact"))]) artifactLine :=
    Token.laid_flatten <| .cons (.mark (by decide)) <|
      .cons (Token.written_plain "$message_type" (by decide)) <| .cons (.mark (by decide)) <|
      .cons (Token.written_plain "artifact" (by decide)) <| .cons (.mark (by decide)) .nil
  refine .kind hwritten List.mem_cons_self (Piece.means_plain _) Json.noConfusion ?_
  rintro ⟨ps, hps, hmeans⟩
  cases hps
  exact absurd (Piece.text?_of_means hmeans) (by decide)

/-- An error whose message is one character, written as two units. -/
def faceLine : List Char :=
  "\x7b\"spans\":[],\"level\":\"error\",\"message\":\"\\uD83D\\ude00\",\"rendered\":null\x7d".toList

theorem line_faceLine : Report.Line ⟨"error", "😀", none⟩ faceLine := by
  have hnull : Token.Written .null "null".toList := .keyword (by decide)
  have hlower {c : Char} {n : Nat} (h : "0123456789abcdef".toList[n]? = some c) : HexDigit c n :=
    ⟨_, .head _, h⟩
  have hupper {c : Char} {n : Nat} (h : "0123456789ABCDEF".toList[n]? = some c) : HexDigit c n :=
    ⟨_, .tail _ (.head _), h⟩
  have hhigh : Piece.Written (.unit 0xD83D) "\\uD83D".toList :=
    .unit (k := 13) (l := 8) (m := 3) (n := 13) (hupper rfl) (hlower rfl) (hlower rfl) (hupper rfl)
  have hlow : Piece.Written (.unit 0xDE00) "\\ude00".toList :=
    .unit (k := 13) (l := 14) (m := 0) (n := 0) (hlower rfl) (hlower rfl) (hlower rfl) (hlower rfl)
  have hface : Token.Written (.string [.unit 0xD83D, .unit 0xDE00]) "\"\\uD83D\\ude00\"".toList :=
    .string (.cons hhigh (.cons hlow .nil))
  have hwritten : Json.Written (.object [(Piece.plain "spans", .array []),
      (Piece.plain "level", .string (Piece.plain "error")),
      (Piece.plain "message", .string [.unit 0xD83D, .unit 0xDE00]), (Piece.plain "rendered", .null)])
      faceLine :=
    Token.laid_flatten <| .cons (.mark (by decide)) <| .cons (Token.written_plain "spans" (by decide)) <|
      .cons (.mark (by decide)) <| .cons (.mark (by decide)) <|
      .cons (.mark (by decide)) <| .cons (.mark (by decide)) <|
      .cons (Token.written_plain "level" (by decide)) <| .cons (.mark (by decide)) <|
      .cons (Token.written_plain "error" (by decide)) <| .cons (.mark (by decide)) <|
      .cons (Token.written_plain "message" (by decide)) <| .cons (.mark (by decide)) <|
      .cons hface <| .cons (.mark (by decide)) <|
      .cons (Token.written_plain "rendered" (by decide)) <| .cons (.mark (by decide)) <|
      .cons hnull <| .cons (.mark (by decide)) .nil
  refine ⟨rfl, by decide, none, by decide, _, hwritten,
    [[(Piece.plain "message", .string [.unit 0xD83D, .unit 0xDE00])],
      [(Piece.plain "level", .string (Piece.plain "error"))], [(Piece.plain "rendered", .null)], []],
    [(Piece.plain "spans", .array [])], ?_, ?_, ?_⟩
  · exact .cons (.text (Piece.means_plain _) ⟨_, rfl, .pair (c := '😀') (by decide) .nil⟩) <|
      .cons (.text (Piece.means_plain _) ⟨_, rfl, Piece.means_plain _⟩) <|
      .cons (.null (Piece.means_plain _) rfl) <| .cons .absent .nil
  · intro m hm
    obtain rfl := List.mem_singleton.1 hm
    exact ⟨"spans", Piece.means_plain _, by decide⟩
  · exact (List.perm_append_singleton _ _).symm.trans (.swap _ _ _)

/-- The error among other lines. -/
def faceStream : List Char :=
  "note: x".toList ++ (['\n'] ++ (faceLine ++ (['\r', '\n'] ++ (artifactLine ++ (['\n'] ++ [])))))

theorem stream_faceStream : Report.Stream [⟨"error", "😀", none⟩] faceStream := by
  have hnote : Noise "note: x".toList := .other (by decide)
  exact .noise hnote (by decide) (.head _) <| .report line_faceLine (.tail _ (.head _)) <|
    .noise noise_artifactLine (by decide) (.head _) .done

theorem Diagnostic.ofText_of_stream_faceStream :
    Report.Stream [⟨"error", "😀", none⟩] faceStream ∧
      Diagnostic.ofText faceStream = [⟨.error, "😀", none⟩] :=
  ⟨stream_faceStream, (Diagnostic.ofText_of_stream _).2 _ stream_faceStream⟩

end Sample

end ExprHost
