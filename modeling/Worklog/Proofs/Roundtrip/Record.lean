import Worklog.Call
import Worklog.Proofs.Reading.Sorted
import Worklog.Proofs.Roundtrip.Value
import Worklog.Wire.Payload

/-!
# Records written and read back

What one program writes as a record, another one reads as the message that says the same. A record
is an object whose values are texts, natural numbers, and lists of these; the frames of an error
report are objects inside a list, and the message passes over them.

The way back has three parts.

* `payload_chars` — the text of an object with an action and other members is read as these.
* `ofBody_body` — the members of a record are understood as its message.
* `ofLine?_line` — both together, behind the marker.
-/

namespace Worklog.Wire

open Json

/-! ## Objects with an action -/

/-- The name of an action is read where it stands. -/
theorem tagReader_string (name : String) : ReadsBack tagReader (.string name) name := by
  intro rest hrest
  have hfits : Fits 0 (.string name) := .string name
  have htoken := token_scalar hfits rfl hrest
  simp only [tagReader, typed, htoken]
  rfl

/-- A value inside a payload is read as what it writes, with the members of its objects sorted. -/
theorem innerValue_chars {v : Json} (h : Fits (maxDepth - 1) v) :
    ReadsBack innerValue v v.normal :=
  (value_chars h).map normal

/-- Members that are not the action are collected behind those that came before. -/
theorem leads_members {pairs : List (String × Json)}
    (hfits : ∀ member ∈ pairs, Fits (maxDepth - 1) member.2)
    (htag : ∀ member ∈ pairs, member.1 ≠ tagKey) (tagged : Tagged) :
    Leads Tagged.member tagged pairs
      { tagged with before := (normalMembers pairs).reverse ++ tagged.before } := by
  induction pairs generalizing tagged with
  | nil => exact Leads.nil tagged
  | cons member pairs ih =>
    obtain ⟨name, v⟩ := member
    have hname : name ≠ tagKey := htag (name, v) List.mem_cons_self
    have hv : Fits (maxDepth - 1) v := hfits (name, v) List.mem_cons_self
    have hrest := ih (fun m hm => hfits m (List.mem_cons_of_mem _ hm))
      (fun m hm => htag m (List.mem_cons_of_mem _ hm))
      { tagged with before := (name, v.normal) :: tagged.before }
    rw [normalMembers, List.reverse_cons, List.append_assoc]
    exact Leads.cons (by rw [Tagged.member, if_neg hname]) ((innerValue_chars hv).map _) hrest

/-- **An object is read as its action and its other members.** -/
theorem payload_chars {action : String} {pairs : List (String × Json)}
    (hfits : ∀ member ∈ pairs, Fits (maxDepth - 1) member.2)
    (htag : ∀ member ∈ pairs, member.1 ≠ tagKey) :
    payload (Json.object ((tagKey, .string action) :: pairs)).chars
      = .ok ((action, .members (normalMembers pairs)), []) := by
  have hleads : Leads Tagged.member {} ((tagKey, .string action) :: pairs)
      ⟨some action, (normalMembers pairs).reverse ++ []⟩ :=
    Leads.cons (by rw [Tagged.member, if_pos rfl]) ((tagReader_string action).map _)
      (leads_members hfits htag ⟨some action, []⟩)
  obtain ⟨text, htext, hread⟩ := members_chars hleads []
  rw [List.append_nil] at hread
  have htoken := token_openObject text
  simp only [payload, htext, htoken, Token.scalar?, reduceCtorEq, if_false, objectPayload, hread,
    List.append_nil, List.reverse_reverse]

/-! ## The members of a record -/

theorem fits_natural {depth : Nat} (n : UInt64) : Fits depth (Record.natural n) :=
  .number trivial

theorem fits_field {depth : Nat} (field : Field) : Fits depth field.toJson := by
  cases field with
  | natural value => exact fits_natural value
  | text value => exact .string value

/-- A position is written as numbers and a string, at any depth. -/
theorem fits_pointMembers {depth : Nat} (point : Option SourcePoint) :
    ∀ member ∈ Record.pointMembers point, Fits depth member.2 := by
  intro member hmember
  cases point with
  | none => simp [Record.pointMembers] at hmember
  | some point =>
    simp only [Record.pointMembers, List.mem_cons, List.not_mem_nil, or_false] at hmember
    rcases hmember with rfl | rfl | rfl
    · exact fits_natural _
    · exact fits_natural _
    · exact .string _

/-- A frame is one object, so it needs one level. -/
theorem fits_frameValue {depth : Nat} (frame : Frame) :
    Fits (depth + 1) (Record.frameValue frame) := by
  refine .object fun member hmember => ?_
  rcases List.mem_cons.mp hmember with rfl | hmember
  · exact .string _
  · exact fits_pointMembers _ member hmember

/-- The fields of an activity are one list of numbers and strings. -/
theorem fits_fieldsMember {depth : Nat} (fields : List Field) :
    ∀ member ∈ Record.fieldsMember fields, Fits (depth + 1) member.2 := by
  intro member hmember
  unfold Record.fieldsMember at hmember
  split at hmember
  · simp at hmember
  · rw [List.mem_singleton.mp hmember]
    refine .list fun v hv => ?_
    obtain ⟨field, -, rfl⟩ := List.mem_map.mp hv
    exact fits_field field

/-- No record is nested more deeply than a reader follows. -/
theorem fits_body (record : Record) : ∀ member ∈ record.body, Fits (maxDepth - 1) member.2 := by
  intro member hmember
  cases record with
  | message level text raw point trace =>
    simp only [Record.body, List.mem_append] at hmember
    rcases hmember with ((hmember | hmember) | hmember) | hmember
    · simp only [List.mem_cons, List.not_mem_nil, or_false] at hmember
      rcases hmember with rfl | rfl
      · exact fits_natural _
      · exact .string _
    · cases raw with
      | none => simp [Record.optional] at hmember
      | some raw =>
        rw [List.mem_singleton.mp hmember]
        exact .string _
    · exact fits_pointMembers point member hmember
    · cases trace with
      | none => simp [Record.optional] at hmember
      | some frames =>
        rw [List.mem_singleton.mp hmember]
        refine .list fun v hv => ?_
        obtain ⟨frame, -, rfl⟩ := List.mem_map.mp hv
        exact fits_frameValue frame
  | start id level kind text parent fields =>
    rcases List.mem_append.mp hmember with hmember | hmember
    · simp only [List.mem_cons, List.not_mem_nil, or_false] at hmember
      rcases hmember with rfl | rfl | rfl | rfl | rfl
      · exact fits_natural _
      · exact fits_natural _
      · exact fits_natural _
      · exact .string _
      · exact fits_natural _
    · exact fits_fieldsMember fields member hmember
  | stop id =>
    rw [List.mem_singleton.mp hmember]
    exact fits_natural _
  | update id kind fields =>
    rcases List.mem_append.mp hmember with hmember | hmember
    · simp only [List.mem_cons, List.not_mem_nil, or_false] at hmember
      rcases hmember with rfl | rfl
      · exact fits_natural _
      · exact fits_natural _
    · exact fits_fieldsMember fields member hmember

/-! ## What the members say -/

/-- The message that a record is understood as. -/
def Record.understood : Record → Message
  | .message level text raw _ _ => .message level text raw
  | .start id level kind text parent fields =>
    .start id level (.ofCode kind.code) text parent
      (if fields.isEmpty then none else some (fields.map Field.toJson))
  | .stop id => .stop id
  | .update id kind fields =>
    .update id (.ofCode kind.code)
      (if fields.isEmpty then none else some (fields.map Field.toJson))

/-- A field holds no object, so it is its own normal form. -/
@[simp] theorem normal_toJson (field : Field) : field.toJson.normal = field.toJson := by
  cases field <;> rfl

@[simp] theorem normalItems_toJson (fields : List Field) :
    normalItems (fields.map Field.toJson) = fields.map Field.toJson := by
  rw [normalItems_eq_map, List.map_map]
  exact List.map_congr_left fun field _ => normal_toJson field

/-- All numbers of 64 bits come back as they are, the greatest one included. -/
@[simp] theorem asWord_natural (n : UInt64) : asWord (Record.natural n).normal = .ok n := by
  have hn : n ≤ 18446744073709551615 := UInt64.le_iff_toNat_le.mpr (Nat.le_of_lt_succ n.toNat_lt)
  simp [asWord, Record.natural, normal, first, Token.asWord, Token.asNatural, hn]

/-- Each level is found again by its rank. -/
@[simp] theorem asLevel_natural (level : Level) :
    asLevel (Record.natural (UInt64.ofNat level.rank)).normal = .ok level := by
  cases level <;> rfl

/-- **The members of a record are understood as its message.** -/
theorem ofBody_body (record : Record) :
    Message.ofBody record.action (.members (normalMembers record.body)) = .ok record.understood := by
  -- With the actions and the keys written out, both sides compute: which members there are is all
  -- that the cases leave open.
  cases record with
  | message level text raw point trace =>
    cases raw <;> cases point <;> cases trace <;>
      simp [Record.action, Record.body, Record.levelMember, Record.optional, Record.pointMembers,
        normalMembers, normal, Message.ofBody, Action.ofName, Action.keys, Key.name, Body.draft,
        Draft.ofMembers, Draft.has, Draft.fill, asText, asOptionalText, first, Token.asString,
        Except.map, Draft.finish, Draft.need] <;> rfl
  | start id level kind text parent fields =>
    cases fields <;>
      simp [Record.action, Record.body, Record.levelMember, Record.fieldsMember, normalMembers,
        normal, normalItems, Message.ofBody, Action.ofName, Action.keys, Key.name, Body.draft,
        Draft.ofMembers, Draft.has, Draft.fill, asText, asList, first, Token.asString, Except.map,
        Draft.finish, Draft.need] <;> rfl
  | stop id =>
    simp [Record.action, Record.body, normalMembers, Message.ofBody, Action.ofName, Action.keys,
      Key.name, Body.draft, Draft.ofMembers, Draft.has, Draft.fill, Except.map, Draft.finish,
      Draft.need]
    rfl
  | update id kind fields =>
    cases fields <;>
      simp [Record.action, Record.body, Record.fieldsMember, normalMembers, normal,
        normalItems, Message.ofBody, Action.ofName, Action.keys, Key.name, Body.draft,
        Draft.ofMembers, Draft.has, Draft.fill, asList, Except.map, Draft.finish, Draft.need] <;> rfl

/-! ## Whole lines -/

/-- Fields come back also when there are none, and the list of them is left out. -/
theorem decode_understood (fields : List Field) :
    Field.decode (if fields.isEmpty then none else some (fields.map Field.toJson)) = .ok fields := by
  cases fields with
  | nil => rfl
  | cons field rest => exact Field.decodeList_map_toJson (field :: rest)

/-- The action is the only member of this name. -/
theorem name_ne_tagKey (record : Record) : ∀ member ∈ record.body, member.1 ≠ tagKey := by
  cases record with
  | message level text raw point trace =>
    cases raw <;> cases point <;> cases trace <;>
      simp [Record.body, Record.levelMember, Record.optional, Record.pointMembers, tagKey]
  | start id level kind text parent fields =>
    cases fields <;> simp [Record.body, Record.levelMember, Record.fieldsMember, tagKey]
  | stop id => simp [Record.body, tagKey]
  | update id kind fields => cases fields <;> simp [Record.body, Record.fieldsMember, tagKey]

/-- The text of a record is read as the message that the record is understood as. -/
theorem ofPayload_text (record : Record) :
    Message.ofPayload record.toJson.text = .ok record.understood := by
  have hread : payloadReader.read record.toJson.text.toList
      = .ok ((record.action, .members (normalMembers record.body)), []) := by
    rw [Json.text, String.toList_ofList]
    exact payload_chars (fits_body record) (name_ne_tagKey record)
  exact Reader.parseAs_eq_ok_iff.mpr ⟨_, [], hread, ofBody_body record, rfl⟩

/-- **The line of a record is read as the message that the record is understood as.** -/
theorem ofLine?_line (record : Record) :
    Message.ofLine? record.line = some (.ok record.understood) := by
  rw [Message.ofLine?, Record.line, payload?_mark, Option.map_some, ofPayload_text]

theorem fits_toJson (record : Record) : Fits maxDepth record.toJson := by
  refine .object fun member hmember => ?_
  rcases List.mem_cons.mp hmember with rfl | hmember
  · exact .string _
  · exact fits_body record member hmember

/-- What a record is written as has no control characters, whatever its texts hold. -/
theorem line_printable (record : Record) : Printable record.line.toList := by
  simp [Record.line, mark, marker, Json.text, chars_printable (fits_toJson record)]

/-! ## The round trip -/

/-- What a message must say to repeat a record. Its raw fields are looked at only through what they
are decoded to. A kind is sent as its number, so the kind of a number comes back as it is. -/
def Record.RepeatedBy (record : Record) (message : Message) : Prop :=
  match record with
  | .message level text raw _ _ => message = .message level text raw
  | .start id level kind text parent fields =>
    ∃ read values, message = .start id level read text parent values
      ∧ read = .ofCode kind.code ∧ (∀ n, kind = .ofCode n → read = .ofCode n)
      ∧ Field.decode values = .ok fields
  | .stop id => message = .stop id
  | .update id kind fields =>
    ∃ read values, message = .update id read values
      ∧ read = .ofCode kind.code ∧ (∀ n, kind = .ofCode n → read = .ofCode n)
      ∧ Field.decode values = .ok fields

theorem Record.repeatedBy_understood (record : Record) : record.RepeatedBy record.understood := by
  cases record with
  | message level text raw point trace => rfl
  | start id level kind text parent fields =>
    refine ⟨_, _, rfl, rfl, fun n hkind => ?_, decode_understood fields⟩
    rw [hkind]
    exact ActivityKind.canonical_ofCode n
  | stop id => rfl
  | update id kind fields =>
    refine ⟨_, _, rfl, rfl, fun n hkind => ?_, decode_understood fields⟩
    rw [hkind]
    exact UpdateKind.canonical_ofCode n

/--
**Decoding undoes encoding.**

Whatever texts, numbers and fields a record holds, it is written without control characters, so on
one physical line, and that line is read as a message that repeats the record: also if its kind is
one that no name is known for.
-/
theorem Record.line_read_back (record : Record) :
    (∀ c ∈ record.line.toList, 0x20 ≤ c.toNat)
      ∧ ∃ message, Message.ofLine? record.line = some (.ok message)
        ∧ record.RepeatedBy message :=
  ⟨line_printable record, record.understood, ofLine?_line record, record.repeatedBy_understood⟩

end Worklog.Wire
