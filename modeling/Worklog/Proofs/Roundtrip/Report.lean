import Mathlib.Data.List.Forall2
import Worklog.Logbook
import Worklog.Proofs.Roundtrip.Record

/-!
# Reports on the wire

A report is sent as one record, which holds the text for the reader and, beside it, the parts that the
text was made of. Nothing is lost on the way: whoever reads the object finds each part under its own
key, and two reports that are sent as the same line are the same as far as they are shown.

* `ErrorReport.Forwarded` — what stands under the keys of the object.
* `Forwarded.same` — the object determines what was shown of the report.
* `line_true_eq_iff`, `line_false_eq_iff` — what a line tells of a report.
* `report_line_read_back` — the line that a wire sink sends, and what is read from it.
-/

namespace Worklog

open Json (lookup)

/-! ## What stands in an object -/

/-- A point stands in three members, and without a point none of them is there. -/
structure SourcePoint.Forwarded (point : Option SourcePoint) (members : List (String × Json)) :
    Prop where
  file : lookup "file" members = point.map fun point => .string point.file
  line : lookup "line" members = point.map fun point => .number (.natural point.line.toUInt64)
  column : lookup "column" members = point.map fun point => .number (.natural point.column.toUInt64)

/-- The value is an object without repeated keys, which holds the parts of the frame. -/
def Frame.Forwarded (frame : Frame) (value : Json) : Prop :=
  ∃ members, value = .object members ∧ (members.map Prod.fst).Nodup
    ∧ lookup "raw_msg" members = some (.string frame.hint)
    ∧ SourcePoint.Forwarded frame.point members

/-- The frames that are shown, in the order in which they are shown: the last one added comes first. -/
def ErrorReport.shown (report : ErrorReport) (showTrace : Bool) : List Frame :=
  if showTrace then report.frames.reverse else []

/-- The object holds the report: its text, and beside it the parts of that. -/
structure ErrorReport.Forwarded (report : ErrorReport) (showTrace : Bool)
    (members : List (String × Json)) : Prop where
  once : (members.map Prod.fst).Nodup
  action : lookup "action" members = some (.string "msg")
  level : lookup "level" members = some (.number (.natural (.ofNat report.level.rank)))
  text : lookup "msg" members = some (.string (report.render showTrace))
  raw : lookup "raw_msg" members = some (.string report.message)
  point : SourcePoint.Forwarded report.point members
  /-- The frames that are shown stand in a list, which is there iff there are any. -/
  trace : ∃ values, List.Forall₂ Frame.Forwarded (report.shown showTrace) values
    ∧ lookup "trace" members
      = if showTrace = true ∧ report.frames ≠ [] then some (.list values) else none
  /-- The text shows the same frames in the same order, after everything else. -/
  order : report.render showTrace
    = report.render false ++ String.join ((report.shown showTrace).map ErrorReport.frameLines)

/-! ## What is determined -/

theorem SourcePoint.Forwarded.same {a b : Option SourcePoint} {members : List (String × Json)}
    (ha : Forwarded a members) (hb : Forwarded b members) : a = b := by
  have hfile := ha.file.symm.trans hb.file
  have hline := ha.line.symm.trans hb.line
  have hcolumn := ha.column.symm.trans hb.column
  cases a with
  | none =>
    cases b with
    | none => rfl
    | some b => simp at hfile
  | some a =>
    cases b with
    | none => simp at hfile
    | some b =>
      have hwiden {m n : UInt32} (h : m.toUInt64 = n.toUInt64) : m = n := by
        simpa using congrArg UInt64.toUInt32 h
      simp only [Option.map_some, Option.some.injEq, Json.string.injEq, Json.number.injEq,
        Number.natural.injEq] at hfile hline hcolumn
      have hpoint : a = ⟨b.file, b.line, b.column⟩ := by
        rw [← hfile, ← hwiden hline, ← hwiden hcolumn]
      rw [hpoint]

/-- A frame can be told from the value that was forwarded. -/
theorem Frame.Forwarded.same {a b : Frame} {value : Json} (ha : a.Forwarded value)
    (hb : b.Forwarded value) : a = b := by
  obtain ⟨members, rfl, -, hhint, hpoint⟩ := ha
  obtain ⟨_, ⟨⟩, -, hhint', hpoint'⟩ := hb
  have hsame := hpoint.same hpoint'
  have hhints : a.hint = b.hint := by simpa [hhint] using hhint'
  cases a
  cases b
  simp_all

namespace ErrorReport

theorem frames_same {frames others : List Frame} {values : List Json}
    (h : List.Forall₂ Frame.Forwarded frames values)
    (h' : List.Forall₂ Frame.Forwarded others values) : frames = others := by
  induction h generalizing others with
  | nil =>
    cases h'
    rfl
  | cons hframe _ ih =>
    cases h' with
    | cons hother hothers => rw [hframe.same hother, ih hothers]

/-- A report without frames to show has no list of them. -/
theorem shown_eq_nil {report : ErrorReport} {showTrace : Bool}
    (h : ¬ (showTrace = true ∧ report.frames ≠ [])) : report.shown showTrace = [] := by
  cases showTrace <;> simp_all [shown]

section Same

variable {a b : ErrorReport} {showTrace : Bool} {members : List (String × Json)}

theorem Forwarded.shown_same (ha : a.Forwarded showTrace members)
    (hb : b.Forwarded showTrace members) : a.shown showTrace = b.shown showTrace := by
  obtain ⟨values, hframes, htrace⟩ := ha.trace
  obtain ⟨others, hothers, htrace'⟩ := hb.trace
  rw [htrace] at htrace'
  split at htrace' <;> split at htrace'
  next =>
    obtain rfl : values = others := by simpa using htrace'
    exact frames_same hframes hothers
  next => simp at htrace'
  next => simp at htrace'
  next hnone hnone' => rw [shown_eq_nil hnone, shown_eq_nil hnone']

/-- **An object holds one report**, as far as it was shown. -/
theorem Forwarded.same (ha : a.Forwarded showTrace members) (hb : b.Forwarded showTrace members) :
    a.level = b.level ∧ a.message = b.message ∧ a.point = b.point
      ∧ a.shown showTrace = b.shown showTrace := by
  refine ⟨?_, ?_, ha.point.same hb.point, ha.shown_same hb⟩
  · have hlevel := ha.level.symm.trans hb.level
    have hread := congrArg Wire.asLevel (Option.some.inj hlevel)
    exact Except.ok.inj
      ((Wire.asLevel_natural a.level).symm.trans (hread.trans (Wire.asLevel_natural b.level)))
  · simpa using ha.raw.symm.trans hb.raw

end Same

/-! ## The object of a report -/

/-- The line that a wire sink sends for a report. -/
def line (report : ErrorReport) (showTrace : Bool) : String :=
  ((Call.report report).record showTrace).line

/-- The members of the object on that line. -/
def members (report : ErrorReport) (showTrace : Bool) : List (String × Json) :=
  ("action", .string "msg") :: ((Call.report report).record showTrace).body

theorem forwarded_frameValue (frame : Frame) : frame.Forwarded (Wire.Record.frameValue frame) := by
  refine ⟨_, rfl, ?_, rfl, ?_⟩
  · cases frame.point <;> simp [Wire.Record.pointMembers]
  · cases frame.point <;> constructor <;>
      simp [Wire.Record.pointMembers, lookup, Wire.Record.natural]

/-- The text with a trace is the text without, and the lines of the frames after it. -/
theorem render_eq_append (report : ErrorReport) (showTrace : Bool) :
    report.render showTrace
      = report.render false ++ String.join ((report.shown showTrace).map frameLines) := by
  cases showTrace <;> simp [render, shown, stack]

theorem trace_forwarded (report : ErrorReport) (showTrace : Bool) :
    ∃ values, List.Forall₂ Frame.Forwarded (report.shown showTrace) values
      ∧ (if showTrace = true ∧ report.frames ≠ [] then some report.stack else none).map
          (fun frames => Json.list (frames.map Wire.Record.frameValue))
        = if showTrace = true ∧ report.frames ≠ [] then some (.list values) else none := by
  refine ⟨(report.shown showTrace).map Wire.Record.frameValue, ?_, ?_⟩
  · rw [List.forall₂_map_right_iff, List.forall₂_same]
    exact fun frame _ => forwarded_frameValue frame
  · split
    next h => simp [shown, h.1, stack]
    next => rfl

/-- The members that a report is written with forward it. -/
theorem forwarded_members (report : ErrorReport) (showTrace : Bool) :
    report.Forwarded showTrace (report.members showTrace) := by
  obtain ⟨values, hframes, htrace⟩ := report.trace_forwarded showTrace
  have hmembers : report.members showTrace = ("action", .string "msg") ::
      (Wire.Record.message report.level (report.render showTrace) (some report.message) report.point
        (if showTrace = true ∧ report.frames ≠ [] then some report.stack else none)).body := rfl
  rw [hmembers]
  -- Which members there are depends on the point and the trace only.
  refine ⟨?_, ?_, ?_, ?_, ?_, ⟨?_, ?_, ?_⟩, ⟨values, hframes, .trans ?_ htrace⟩,
    report.render_eq_append showTrace⟩
  all_goals
    generalize (if showTrace = true ∧ report.frames ≠ [] then some report.stack else none) = trace
    cases report.point <;> cases trace <;>
      simp [Wire.Record.body, Wire.Record.levelMember, Wire.Record.optional,
        Wire.Record.pointMembers, Wire.Record.natural, lookup]

/-! ## The line -/

/-- A line is marked, and what follows the marker is read as the object of the report. -/
theorem exists_payload (report : ErrorReport) (showTrace : Bool) :
    ∃ payload, report.line showTrace = Wire.mark payload
      ∧ Json.parse payload = .ok (.object (report.members showTrace)) :=
  ⟨_, rfl, Json.parse_text (Wire.fits_toJson ((Call.report report).record showTrace))⟩

theorem same_of_line {a b : ErrorReport} {showTrace : Bool}
    (h : a.line showTrace = b.line showTrace) :
    a.level = b.level ∧ a.message = b.message ∧ a.point = b.point
      ∧ a.shown showTrace = b.shown showTrace := by
  obtain ⟨payload, hline, hparse⟩ := a.exists_payload showTrace
  obtain ⟨payload', hline', hparse'⟩ := b.exists_payload showTrace
  obtain rfl : payload = payload' := by
    have hpayload := congrArg Wire.payload? (hline.symm.trans (h.trans hline'))
    simpa using hpayload
  have hmembers : a.members showTrace = b.members showTrace := by
    simpa using hparse.symm.trans hparse'
  exact (a.forwarded_members showTrace).same (hmembers ▸ b.forwarded_members showTrace)

/-- With the frames, a line tells everything of a report. -/
theorem line_true_eq_iff {a b : ErrorReport} : a.line true = b.line true ↔ a = b := by
  refine ⟨fun h => ?_, fun h => h ▸ rfl⟩
  obtain ⟨hlevel, hmessage, hpoint, hshown⟩ := same_of_line h
  have hframes : a.frames = b.frames := List.reverse_injective (by simpa [shown] using hshown)
  cases a
  cases b
  simp_all

/-- Without them, it tells all but the frames. -/
theorem line_false_eq_iff {a b : ErrorReport} :
    a.line false = b.line false
      ↔ a.level = b.level ∧ a.message = b.message ∧ a.point = b.point := by
  constructor
  · intro h
    obtain ⟨hlevel, hmessage, hpoint, -⟩ := same_of_line h
    exact ⟨hlevel, hmessage, hpoint⟩
  · rintro ⟨hlevel, hmessage, hpoint⟩
    simp [line, Call.record, render, hlevel, hmessage, hpoint]

/--
**A report is forwarded without loss.**

A wire sink tells the sink behind it one line. The line is marked, and what follows the marker is an
object in which no key comes twice and which holds the report: its level, its message and its point,
the text for the reader, and the frames that the text shows, in the order of the text. So the line
determines the report, up to the frames if these are not shown.
-/
theorem report_line_read_back :
    (∀ (report : ErrorReport) (showTrace : Bool) (issuer : Issuer) (id : Nat) (behind : Sink)
        (book : Logbook),
      Logbook.emit issuer (.wire id showTrace behind) (.report report) book
        = let told := Logbook.emit issuer behind (.log .error (report.line showTrace)) book
          (told.1, told.2.add (.call issuer (.wire id showTrace behind) (.report report) told.1)))
      ∧ (∀ (report : ErrorReport) (showTrace : Bool), ∃ payload members,
        report.line showTrace = Wire.mark payload ∧ Json.parse payload = .ok (.object members)
          ∧ report.Forwarded showTrace members)
      ∧ (∀ a b : ErrorReport, a.line true = b.line true ↔ a = b)
      ∧ ∀ a b : ErrorReport, a.line false = b.line false
        ↔ a.level = b.level ∧ a.message = b.message ∧ a.point = b.point := by
  refine ⟨fun report showTrace issuer id behind book => rfl, fun report showTrace => ?_,
    fun a b => line_true_eq_iff, fun a b => line_false_eq_iff⟩
  obtain ⟨payload, hline, hparse⟩ := report.exists_payload showTrace
  exact ⟨payload, _, hline, hparse, report.forwarded_members showTrace⟩

end ErrorReport

end Worklog
