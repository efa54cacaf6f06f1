import Mathlib.Data.List.Forall2
import Worklog.Proofs.Channel.Showing
import Worklog.Proofs.Plain.Stripped

/-!
# Records carried by plain text

A wire sink can send its lines through a plain sink. No threshold holds them back, and each stays on
a line of its own. On a terminal they arrive as they were sent. Without one they are stripped like any
other message: what stripping takes from them are the control characters above ASCII, for these are
the only ones that a literal does not escape. The line is then that of a record with other texts.

* `strip_line` — a stripped record is the record of the stripped texts.
* `transcript_read_back` — what is read from the lines that calls leave in plain text.
* `transcript_nextLine` — a text that does not arrive as it was sent.
-/

namespace Worklog

open Terminal (cleared isHighControl withoutHigh withoutHigh_append withoutHigh_eq_self
  withoutHigh_cons_of_lt withoutHigh_nil toList_cleared isHighControl_of_lt)

/-! ## Records with other texts -/

def SourcePoint.mapText (f : String → String) (point : SourcePoint) : SourcePoint :=
  { point with file := f point.file }

def Frame.mapText (f : String → String) (frame : Frame) : Frame :=
  ⟨f frame.hint, frame.point.map (SourcePoint.mapText f)⟩

def Frame.texts (frame : Frame) : List String := frame.hint :: (frame.point.map (·.file)).toList

def Field.mapText (f : String → String) : Field → Field
  | natural value => natural value
  | text value => text (f value)

namespace Wire.Record

/-- The record with every text changed in the same way. -/
def mapText (f : String → String) : Record → Record
  | message level text raw point trace =>
    message level (f text) (raw.map f) (point.map (SourcePoint.mapText f))
      (trace.map (List.map (Frame.mapText f)))
  | start id level kind text parent fields =>
    start id level kind (f text) parent (fields.map (Field.mapText f))
  | stop id => stop id
  | update id kind fields => update id kind (fields.map (Field.mapText f))

def texts : Record → List String
  | message _ text raw point trace =>
    text :: (raw.toList ++ (point.map (·.file)).toList ++ (trace.getD []).flatMap Frame.texts)
  | start _ _ _ text _ fields => text :: fields.filterMap Field.text?
  | stop _ => []
  | update _ _ fields => fields.filterMap Field.text?

end Wire.Record

section

variable {f : String → String}

theorem mapText_point_eq_self {point : Option SourcePoint}
    (h : ∀ text ∈ (point.map (·.file)).toList, f text = text) :
    point.map (SourcePoint.mapText f) = point := by
  cases point with
  | none => rfl
  | some point =>
    have hfile : f point.file = point.file := h _ List.mem_cons_self
    rw [Option.map_some, SourcePoint.mapText, hfile]

/-- A frame stays as it is where its texts do. -/
theorem Frame.mapText_eq_self {frame : Frame} (h : ∀ text ∈ frame.texts, f text = text) :
    frame.mapText f = frame := by
  obtain ⟨hhint, hpoint⟩ := List.forall_mem_cons.mp h
  rw [mapText, hhint, mapText_point_eq_self hpoint]

theorem mapText_fields_eq_self {fields : List Field}
    (h : ∀ text ∈ fields.filterMap Field.text?, f text = text) :
    fields.map (Field.mapText f) = fields := by
  have hfield : ∀ field ∈ fields, field.mapText f = id field := by
    intro field hmem
    cases field with
    | natural value => rfl
    | text value => exact congrArg Field.text (h value (List.mem_filterMap.mpr ⟨_, hmem, rfl⟩))
  rw [List.map_congr_left hfield, List.map_id]

/-- A record stays as it is if all of its texts do. -/
theorem Wire.Record.mapText_eq_self {record : Record} (h : ∀ text ∈ record.texts, f text = text) :
    record.mapText f = record := by
  cases record with
  | message level text raw point trace =>
    obtain ⟨htext, h⟩ := List.forall_mem_cons.mp h
    obtain ⟨h, htrace⟩ := List.forall_mem_append.mp h
    obtain ⟨hraw, hpoint⟩ := List.forall_mem_append.mp h
    have hraw' : raw.map f = raw := by
      cases raw with
      | none => rfl
      | some raw => simpa using hraw
    have htrace' : trace.map (List.map (Frame.mapText f)) = trace := by
      cases trace with
      | none => rfl
      | some frames =>
        have hframe : ∀ frame ∈ frames, frame.mapText f = id frame := fun frame hmem =>
          Frame.mapText_eq_self fun text htext =>
            htrace text (List.mem_flatMap.mpr ⟨frame, hmem, htext⟩)
        rw [Option.map_some, List.map_congr_left hframe, List.map_id]
    rw [mapText, htext, hraw', mapText_point_eq_self hpoint, htrace']
  | start id level kind text parent fields =>
    obtain ⟨htext, hfields⟩ := List.forall_mem_cons.mp h
    rw [mapText, htext, mapText_fields_eq_self hfields]
  | stop id => rfl
  | update id kind fields => rw [mapText, mapText_fields_eq_self h]

end

/-! ## Values without high control characters -/

namespace Json

/-- An escape has no characters above ASCII, so none of it is taken. -/
theorem Literal.withoutHigh_escapedChar {c : Char} (h : isHighControl c = false) :
    withoutHigh (escapedChar c) = escapedChar c := by
  have hlow {x : Char} (hx : x.toNat < 0x80) : withoutHigh ['\\', x] = ['\\', x] := by
    rw [withoutHigh_cons_of_lt (by decide), withoutHigh_cons_of_lt hx, withoutHigh_nil]
  have hdigit {n : Nat} (hn : n < 16) : isHighControl (hexDigit n) = false := by
    have hall : ∀ m ∈ List.range 16, isHighControl (hexDigit m) = false := by decide
    exact hall n (List.mem_range.mpr hn)
  unfold Literal.escapedChar
  split
  · exact hlow (by decide)
  split
  · exact hlow (by decide)
  split
  · exact hlow (by decide)
  split
  · exact hlow (by decide)
  split
  · exact hlow (by decide)
  split
  · exact hlow (by decide)
  split
  · exact hlow (by decide)
  split
  · have hhigh : isHighControl (hexDigit (c.toNat / 16)) = false := hdigit (by omega)
    have hrest : isHighControl (hexDigit (c.toNat % 16)) = false := hdigit (by omega)
    have hfixed : withoutHigh ['\\', 'u', '0', '0'] = ['\\', 'u', '0', '0'] := by decide
    have hdigits : withoutHigh [hexDigit (c.toNat / 16), hexDigit (c.toNat % 16)]
        = [hexDigit (c.toNat / 16), hexDigit (c.toNat % 16)] :=
      withoutHigh_eq_self (by simp [hhigh, hrest])
    show withoutHigh (['\\', 'u', '0', '0'] ++ _) = _
    rw [withoutHigh_append, hfixed, hdigits]
    rfl
  · exact withoutHigh_eq_self (by simpa using h)

/-- A high control character stands for itself in a literal. -/
theorem Literal.escapedChar_high {c : Char} (h : isHighControl c = true) :
    Literal.escapedChar c = [c] := by
  simp only [isHighControl, Bool.and_eq_true, decide_eq_true_eq] at h
  have hne {d : Char} (hd : d.toNat < 0x80) : c ≠ d := by
    rintro rfl
    omega
  rw [escapedChar, if_neg (hne (by decide)), if_neg (hne (by decide)), if_neg (hne (by decide)),
    if_neg (hne (by decide)), if_neg (hne (by decide)), if_neg (hne (by decide)),
    if_neg (hne (by decide)), if_neg (by omega)]

/-- A text may be cleared before it is escaped or after. -/
theorem Literal.withoutHigh_escaped (cs : List Char) :
    withoutHigh (escaped cs) = escaped (withoutHigh cs) := by
  induction cs with
  | nil => rfl
  | cons c cs ih =>
    have hcons : escaped (c :: cs) = escapedChar c ++ escaped cs := List.flatMap_cons
    rw [hcons, withoutHigh_append, ih]
    cases hc : isHighControl c with
    | false =>
      have hkept : withoutHigh (c :: cs) = c :: withoutHigh cs :=
        List.filter_cons_of_pos (by simp [hc])
      rw [withoutHigh_escapedChar hc, hkept]
      exact List.flatMap_cons.symm
    | true =>
      have hdropped (rest : List Char) : withoutHigh (c :: rest) = withoutHigh rest :=
        List.filter_cons_of_neg (by simp [hc])
      rw [escapedChar_high hc, hdropped, hdropped]
      rfl

/-- What is written of the second value is what is left of the first one. -/
def Clears (v w : Json) : Prop := withoutHigh v.chars = w.chars

theorem withoutHigh_stringChars (value : String) :
    withoutHigh (stringChars value) = stringChars (cleared value) := by
  simp [stringChars, Literal.withoutHigh_escaped]

/-- A string literal is cleared to the literal of the cleared text. -/
theorem clears_string (value : String) : Clears (.string value) (.string (cleared value)) :=
  withoutHigh_stringChars value

theorem clears_natural (n : UInt64) : Clears (Wire.Record.natural n) (Wire.Record.natural n) := by
  refine withoutHigh_eq_self fun c hc => ?_
  have hdigit : Numeral.isDigit c = true := by
    refine Numeral.isDigit_of_mem_digits (n := n.toNat) ?_
    rwa [← text_natural]
  simp only [Numeral.isDigit, Bool.and_eq_true, decide_eq_true_eq] at hdigit
  exact isHighControl_of_lt (Nat.lt_of_le_of_lt hdigit.2 (by decide))

theorem withoutHigh_itemsAfter {items items' : List Json} (h : List.Forall₂ Clears items items') :
    withoutHigh (itemsAfter items) = itemsAfter items' := by
  induction h with
  | nil => rfl
  | cons hv _ ih =>
    rw [Clears] at hv
    simp [itemsAfter, hv, ih]

/-- A list is cleared element by element. -/
theorem clears_list {items items' : List Json} (h : List.Forall₂ Clears items items') :
    Clears (.list items) (.list items') := by
  cases h with
  | nil => rfl
  | cons hv hitems =>
    rw [Clears] at hv ⊢
    simp [chars, hv, withoutHigh_itemsAfter hitems]

/-- A member of the same name, whose value is what is left. -/
structure ClearsMember (member member' : String × Json) : Prop where
  name : member'.1 = member.1
  low : withoutHigh member.1.toList = member.1.toList
  value : Clears member.2 member'.2

theorem ClearsMember.stringChars {member member' : String × Json}
    (h : ClearsMember member member') :
    withoutHigh (stringChars member.1) = stringChars member'.1 := by
  have hname : cleared member.1 = member.1 := by
    rw [cleared, h.low, String.ofList_toList]
  rw [withoutHigh_stringChars, hname, h.name]

theorem withoutHigh_membersAfter {members members' : List (String × Json)}
    (h : List.Forall₂ ClearsMember members members') :
    withoutHigh (membersAfter members) = membersAfter members' := by
  induction h with
  | nil => rfl
  | cons hmember _ ih =>
    have hvalue := hmember.value
    rw [Clears] at hvalue
    simp [membersAfter, hmember.stringChars, hvalue, ih]

/-- An object is cleared member by member, in the names as well as in the values. -/
theorem clears_object {members members' : List (String × Json)}
    (h : List.Forall₂ ClearsMember members members') :
    Clears (.object members) (.object members') := by
  cases h with
  | nil => rfl
  | cons hmember hmembers =>
    have hvalue := hmember.value
    rw [Clears] at hvalue ⊢
    simp [chars, hmember.stringChars, hvalue, withoutHigh_membersAfter hmembers]

end Json

/-! ## Lines -/

namespace Wire

open Json

theorem clearsMember {name : String} (hname : withoutHigh name.toList = name.toList) {v w : Json}
    (h : Clears v w) : ClearsMember (name, v) (name, w) := ⟨rfl, hname, h⟩

/-- Of a point in the source, only the file can change. -/
theorem clears_pointMembers (point : Option SourcePoint) :
    List.Forall₂ ClearsMember (Record.pointMembers point)
      (Record.pointMembers (point.map (SourcePoint.mapText cleared))) := by
  cases point with
  | none => exact .nil
  | some point =>
    exact .cons (clearsMember (by decide) (clears_natural _))
      (.cons (clearsMember (by decide) (clears_natural _))
        (.cons (clearsMember (by decide) (clears_string _)) .nil))

/-- A frame is cleared in its hint and in its file. -/
theorem clears_frameValue (frame : Frame) :
    Clears (Record.frameValue frame) (Record.frameValue (frame.mapText cleared)) :=
  clears_object (.cons (clearsMember (by decide) (clears_string _)) (clears_pointMembers _))

theorem clears_map {α : Type} {toJson : α → Json} {g : α → α} (items : List α)
    (h : ∀ item, Clears (toJson item) (toJson (g item))) :
    Clears (.list (items.map toJson)) (.list ((items.map g).map toJson)) := by
  refine clears_list ?_
  rw [List.forall₂_map_left_iff, List.forall₂_map_right_iff, List.forall₂_map_right_iff,
    List.forall₂_same]
  exact fun item _ => h item

theorem clears_toJson (field : Field) : Clears field.toJson (field.mapText cleared).toJson := by
  cases field with
  | natural value => exact clears_natural value
  | text value => exact clears_string value

theorem clears_fieldsMember (fields : List Field) :
    List.Forall₂ ClearsMember (Record.fieldsMember fields)
      (Record.fieldsMember (fields.map (Field.mapText cleared))) := by
  cases fields with
  | nil => exact .nil
  | cons field fields =>
    exact .cons (clearsMember (by decide) (clears_map (field :: fields) clears_toJson)) .nil

/-- The members of a record are cleared to those of the record with cleared texts. -/
theorem clears_body (record : Record) :
    List.Forall₂ ClearsMember record.body (record.mapText cleared).body := by
  have hlevel (level : Level) :
      ClearsMember (Record.levelMember level) (Record.levelMember level) :=
    clearsMember (by decide) (clears_natural _)
  have hid (id : UInt64) : ClearsMember ("id", Record.natural id) ("id", Record.natural id) :=
    clearsMember (by decide) (clears_natural id)
  have htype (code : UInt64) :
      ClearsMember ("type", Record.natural code) ("type", Record.natural code) :=
    clearsMember (by decide) (clears_natural code)
  cases record with
  | message level text raw point trace =>
    refine List.rel_append (List.rel_append (List.rel_append ?_ ?_) (clears_pointMembers point)) ?_
    · exact .cons (hlevel level) (.cons (clearsMember (by decide) (clears_string text)) .nil)
    · cases raw with
      | none => exact .nil
      | some raw => exact .cons (clearsMember (by decide) (clears_string raw)) .nil
    · cases trace with
      | none => exact .nil
      | some frames =>
        exact .cons (clearsMember (by decide) (clears_map frames clears_frameValue)) .nil
  | start id level kind text parent fields =>
    refine List.rel_append ?_ (clears_fieldsMember fields)
    exact .cons (hid id) (.cons (hlevel level) (.cons (htype kind.code)
      (.cons (clearsMember (by decide) (clears_string text))
        (.cons (clearsMember (by decide) (clears_natural parent)) .nil))))
  | stop id => exact .cons (hid id) .nil
  | update id kind fields =>
    exact List.rel_append (.cons (hid id) (.cons (htype kind.code) .nil))
      (clears_fieldsMember fields)

/-- The name of an action has nothing that could be taken. -/
theorem cleared_action (record : Record) : cleared record.action = record.action := by
  have hall : (["msg", "start", "stop", "result"].all fun name => cleared name = name) = true := by
    decide
  have hmem : record.action ∈ ["msg", "start", "stop", "result"] := by
    cases record <;> simp [Record.action]
  exact of_decide_eq_true (List.all_eq_true.mp hall _ hmem)

theorem action_mapText (f : String → String) (record : Record) :
    (record.mapText f).action = record.action := by
  cases record <;> rfl

theorem clears_toJson_record (record : Record) :
    Clears record.toJson (record.mapText cleared).toJson := by
  refine clears_object (.cons ?_ (clears_body record))
  rw [action_mapText]
  refine clearsMember (by decide) ?_
  have hclears := clears_string record.action
  rwa [cleared_action] at hclears

/-- **Without a terminal, the line of a record is that of the record with its texts cleared.** -/
theorem strip_line (record : Record) :
    Terminal.strip record.line = (record.mapText cleared).line := by
  rw [Terminal.strip_of_printable (line_printable record)]
  have hmarker : withoutHigh marker.toList = marker.toList := by decide
  have hclears := clears_toJson_record record
  rw [Clears] at hclears
  apply String.toList_injective
  simp [Record.line, mark, Json.text, hmarker, hclears]

/-- The record that is read from a line in plain text. -/
def Record.arriving (tty : Bool) (record : Record) : Record :=
  if tty then record else record.mapText cleared

/-- What a plain sink writes for a line is the line of the record that arrives. -/
theorem body_line (settings : Settings) (record : Record) :
    PlainText.body settings record.line = (record.arriving settings.tty).line := by
  unfold PlainText.body Record.arriving
  split
  · rfl
  · exact strip_line record

end Wire

/-! ## Lines in a text -/

/-- Lines that have an end each are found by splitting at the ends; nothing comes after the last. -/
theorem splitOn_lines {lines : List (List Char)} (h : ∀ line ∈ lines, '\n' ∉ line) :
    (lines.flatMap (· ++ ['\n'])).splitOn '\n' = lines ++ [[]] := by
  have htext : lines.flatMap (· ++ ['\n']) = ['\n'].intercalate (lines ++ [[]]) := by
    induction lines with
    | nil => rfl
    | cons line lines ih =>
      rw [List.cons_append, List.intercalate_cons_of_ne_nil (by simp), List.flatMap_cons,
        ih (List.forall_mem_cons.mp h).2]
  rw [htext, List.splitOn_intercalate]
  · intro line hline
    rcases List.mem_append.mp hline with hline | hline
    · exact h line hline
    · rw [List.mem_singleton.mp hline]
      exact List.not_mem_nil
  · simp

/-- A text holds these records: split at its line breaks, it has one line for each of them, which is
read as that record, and nothing else. -/
def Wire.Holds (text : String) (records : List Wire.Record) : Prop :=
  ∃ lines : List String, text.toList.splitOn '\n' = lines.map String.toList ++ [[]]
    ∧ List.Forall₂ (fun record line => ∃ message,
      Wire.Message.ofLine? line = some (.ok message) ∧ record.RepeatedBy message) records lines

/-- The lines of the records that were sent hold those that their messages repeat. -/
theorem Wire.holds_lines_iff {sent records : List Record} :
    Holds (String.join (sent.map fun record => record.line ++ "\n")) records
      ↔ List.Forall₂ Record.RepeatedBy records (sent.map Record.understood) := by
  have hsplit : (String.join (sent.map fun record => record.line ++ "\n")).toList.splitOn '\n'
      = (sent.map Record.line).map String.toList ++ [[]] := by
    have htext : (String.join (sent.map fun record => record.line ++ "\n")).toList
        = ((sent.map Record.line).map String.toList).flatMap (· ++ ['\n']) := by
      simp [String.toList_join, List.flatMap_map]
    rw [htext]
    refine splitOn_lines fun line hline hbreak => ?_
    rw [List.map_map] at hline
    obtain ⟨record, -, rfl⟩ := List.mem_map.mp hline
    exact absurd (line_printable record _ hbreak) (by decide)
  have hread (record sender : Record) :
      (∃ message, Message.ofLine? sender.line = some (.ok message) ∧ record.RepeatedBy message)
        ↔ record.RepeatedBy sender.understood := by
    simp [ofLine?_line]
  unfold Holds
  rw [hsplit]
  constructor
  · rintro ⟨lines, hlines, hholds⟩
    have hsame : sent.map Record.line = lines :=
      List.map_injective_iff.mpr (fun _ _ => String.toList_injective)
        (List.append_cancel_right hlines)
    rw [← hsame, List.forall₂_map_right_iff] at hholds
    rw [List.forall₂_map_right_iff]
    exact hholds.imp fun record sender => (hread record sender).mp
  · intro hrepeats
    refine ⟨_, rfl, ?_⟩
    rw [List.forall₂_map_right_iff] at hrepeats ⊢
    exact hrepeats.imp fun record sender => (hread record sender).mpr

/-- Lines that are written one after the other hold their records. -/
theorem Wire.holds_lines (records : List Record) :
    Holds (String.join (records.map fun record => record.line ++ "\n")) records := by
  rw [holds_lines_iff, List.forall₂_map_right_iff, List.forall₂_same]
  exact fun record _ => record.repeatedBy_understood

/-! ## Calls -/

namespace Logbook

/-- What a wire sink sends through a plain sink is written as it arrives, under every threshold. -/
theorem textOn_emit_wire (issuer : Issuer) (front id : Nat) (showTrace : Bool) (settings : Settings)
    (hplain : settings.systemd = false) (call : Call) (book : Logbook) :
    (emit issuer (.wire front showTrace (.plain id settings .buffer)) call book).2.textOn
        (.buffer id)
      = book.textOn (.buffer id)
        ++ (((call.record showTrace).arriving settings.tty).line ++ "\n") := by
  have hpasses : Level.error.passes book.threshold = true := by
    cases book.threshold <;> rfl
  have hline : PlainText.written settings book.threshold (.log .error (call.record showTrace).line)
      = some (((call.record showTrace).arriving settings.tty).line ++ "\n") := by
    simp [PlainText.written_eq, PlainText.message, Call.plain, hpasses, PlainText.line,
      PlainText.mark, hplain, Wire.body_line]
  rw [emit, textOn_add_call, textOn_emit_plain, shown, List.filterMap_cons_some hline]
  simp [Target.output?]

/-- Calls told through a plain sink leave one line each, whatever the threshold. -/
theorem textOn_tellAll_wire (issuer : Issuer) (front id : Nat) (showTrace : Bool)
    (settings : Settings) (hplain : settings.systemd = false) (calls : List Call)
    (book : Logbook) :
    (tellAll issuer (.wire front showTrace (.plain id settings .buffer)) calls book).textOn
        (.buffer id)
      = book.textOn (.buffer id) ++ String.join
        ((calls.map fun call => (call.record showTrace).arriving settings.tty).map
          fun record => record.line ++ "\n") := by
  induction calls generalizing book with
  | nil => simp [tellAll]
  | cons call calls ih =>
    show (tellAll issuer _ calls (emit issuer _ call book).2).textOn _ = _
    rw [ih, textOn_emit_wire issuer front id showTrace settings hplain, String.append_assoc,
      List.map_cons, List.map_cons, String.join_cons]

end Logbook

open Logbook

/--
**Plain text carries records line by line.**

Whatever calls are made on a wire sink in front of a plain sink with a buffer, without a supervising
process: what they add to the buffer has one line for each call, in order, whatever the threshold is.
Each line is read as the record of its call. On a terminal that is the record as it was sent. Without
one its texts come without their high control characters; so it is the record as it was sent if they
have none.
-/
theorem transcript_read_back (issuer : Issuer) (front id : Nat)
    (showTrace showFrames printBuildLogs tty : Bool) (calls : List Call) (book : Logbook) :
    (∃ written,
      (tellAll issuer (.wire front showTrace
          (.plain id ⟨showFrames, printBuildLogs, false, tty⟩ .buffer)) calls book).textOn (.buffer id)
        = book.textOn (.buffer id) ++ written
      ∧ Wire.Holds written (calls.map fun call => (call.record showTrace).arriving tty))
    ∧ ∀ call ∈ calls, (tty = true ∨ ∀ text ∈ (call.record showTrace).texts,
        ∀ c ∈ text.toList, isHighControl c = false) →
      (call.record showTrace).arriving tty = call.record showTrace := by
  refine ⟨⟨_, textOn_tellAll_wire issuer front id showTrace _ rfl calls book,
    Wire.holds_lines _⟩, fun call _ hclear => ?_⟩
  unfold Wire.Record.arriving
  split
  · rfl
  next hterminal =>
    rcases hclear with htty | htexts
    · exact absurd htty hterminal
    · exact Wire.Record.mapText_eq_self fun text htext => Terminal.cleared_eq_self (htexts text htext)

/-- A threshold that lets no message pass, and a text with letters above the ASCII ones. -/
theorem transcript_read_back_umlaut :
    let call : Call := .log .vomit "größe\x1b"
    Wire.Holds ((tellAll .user (.wire 2 false (.plain 1 ⟨false, false, false, false⟩ .buffer)) [call]
        { threshold := .error }).textOn (.buffer 1))
      [call.record false] := by
  intro call
  obtain ⟨⟨written, htext, hholds⟩, hsent⟩ := transcript_read_back .user 2 1 false false false false
    [call] { threshold := .error }
  have hclear : ("größe\x1b".toList.all fun c => !isHighControl c) = true := by decide
  have htexts : ∀ text ∈ (call.record false).texts, ∀ c ∈ text.toList, isHighControl c = false := by
    intro text htext c hc
    rw [List.mem_singleton.mp htext] at hc
    simpa using List.all_eq_true.mp hclear c hc
  have hcall : (call.record false).arriving false = call.record false :=
    hsent call List.mem_cons_self (.inr htexts)
  rw [List.map_singleton, hcall] at hholds
  have hempty : ({ threshold := .error } : Logbook).textOn (.buffer 1) = "" := rfl
  rwa [htext, hempty, String.empty_append]

/-- The character for the next line opens no control sequence, and is lost all the same. -/
theorem transcript_nextLine :
    let call : Call := .log .info "a\u0085b"
    ¬ Wire.Holds ((tellAll .user (.wire 2 false (.plain 1 ⟨false, false, false, false⟩ .buffer))
        [call] {}).textOn (.buffer 1))
      [call.record false] := by
  intro call
  have hempty : ({} : Logbook).textOn (.buffer 1) = "" := rfl
  have hsent : (call.record false).arriving false = .message .info "ab" none none none := by decide
  rw [textOn_tellAll_wire .user 2 1 false _ rfl, hempty, String.empty_append, List.map_singleton,
    hsent, Wire.holds_lines_iff, List.map_singleton, List.forall₂_cons]
  rintro ⟨hrepeats, -⟩
  have htext : ("ab" : String) = "a\u0085b" := (Wire.Message.message.inj hrepeats).2.1
  exact absurd htext (by decide)

end Worklog
