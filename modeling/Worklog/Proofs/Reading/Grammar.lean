import Worklog.Proofs.Reading.Value

/-!
# The grammar of messages

Which message an object says, and whether it says one, is written down here by the values under its
keys alone, without a reader or a draft: one rule for each action. The rules are what is read, both
ways. They look up a few keys, so the order of the members plays no part, and neither do members
under other keys.

* `Says` — the rules.
* `says_iff` — they describe the drafts that can be finished.
* `ofPayload_object_iff` — they describe what is read from the text of an object.
* `Says.congr` — a rule depends on the keys of its action only.
-/

namespace Worklog.Wire

open Json

/-! ## The rules -/

/-- The text that a value gives, if there is a value. Null stands for no text. -/
inductive GivesText : Option Json → Option String → Prop where
  | absent : GivesText none none
  | null : GivesText (some .null) none
  | given (text : String) : GivesText (some (.string text)) (some text)

/-- The parent that a value gives, if there is a value. It is a number, never null. -/
inductive GivesParent : Option Json → UInt64 → Prop where
  | absent : GivesParent none 0
  | given (id : UInt64) : GivesParent (some (.number (.natural id))) id

/-- The raw fields that a value gives, if there is a value: any values, as data. -/
inductive GivesFields : Option Json → Option (List Json) → Prop where
  | absent : GivesFields none none
  | null : GivesFields (some .null) none
  | given (items : List Json) : GivesFields (some (.list items)) (some (items.map normal))

/-- The names of the actions that are understood. -/
def actionNames : List String := ["msg", "start", "stop", "result", "setPhase"]

/-- The message that an object says, where `find` has the value under each of its keys. -/
inductive Says (find : String → Option Json) : Message → Prop where
  | message {level : Level} {text : String} {raw : Option String}
      (action : find "action" = some (.string "msg"))
      (hlevel : find "level" = some (.number (.natural (.ofNat level.rank))))
      (htext : find "msg" = some (.string text))
      (hraw : GivesText (find "raw_msg") raw) :
      Says find (.message level text raw)
  | start {id code parent : UInt64} {level : Level} {text : String} {fields : Option (List Json)}
      (action : find "action" = some (.string "start"))
      (hid : find "id" = some (.number (.natural id)))
      (hlevel : find "level" = some (.number (.natural (.ofNat level.rank))))
      (htype : find "type" = some (.number (.natural code)))
      (htext : find "text" = some (.string text))
      (hparent : GivesParent (find "parent") parent)
      (hfields : GivesFields (find "fields") fields) :
      Says find (.start id level (.ofCode code) text parent fields)
  | stop {id : UInt64}
      (action : find "action" = some (.string "stop"))
      (hid : find "id" = some (.number (.natural id))) :
      Says find (.stop id)
  | update {id code : UInt64} {fields : Option (List Json)}
      (action : find "action" = some (.string "result"))
      (hid : find "id" = some (.number (.natural id)))
      (htype : find "type" = some (.number (.natural code)))
      (hfields : GivesFields (find "fields") fields) :
      Says find (.update id (.ofCode code) fields)
  | phase {name : String}
      (action : find "action" = some (.string "setPhase"))
      (hphase : find "phase" = some (.string name)) :
      Says find (.phase name)
  | unknown {name : String}
      (action : find "action" = some (.string name))
      (hname : name ∉ actionNames) :
      Says find .unknown

/-- The keys that the rule of an action looks up. -/
def keysUnder : String → List String
  | "msg" => ["level", "msg", "raw_msg"]
  | "start" => ["id", "level", "type", "text", "parent", "fields"]
  | "stop" => ["id"]
  | "result" => ["id", "type", "fields"]
  | "setPhase" => ["phase"]
  | _ => []

/-- The keys that decide what an object says. -/
def decisive (find : String → Option Json) : List String :=
  "action" :: match find "action" with
    | some (.string name) => keysUnder name
    | _ => []

theorem decisive_of_action {find : String → Option Json} {name : String}
    (h : find "action" = some (.string name)) : decisive find = "action" :: keysUnder name := by
  rw [decisive, h]

/-- A rule depends on the keys of its action only. -/
theorem Says.congr {find other : String → Option Json} {message : Message}
    (h : Says find message) (hsame : ∀ key ∈ decisive find, other key = find key) :
    Says other message := by
  cases h with
  | message action hlevel htext hraw =>
    simp only [decisive_of_action action, keysUnder, List.forall_mem_cons] at hsame
    obtain ⟨h1, h2, h3, h4, -⟩ := hsame
    exact .message (h1.trans action) (h2.trans hlevel) (h3.trans htext) (h4 ▸ hraw)
  | start action hid hlevel htype htext hparent hfields =>
    simp only [decisive_of_action action, keysUnder, List.forall_mem_cons] at hsame
    obtain ⟨h1, h2, h3, h4, h5, h6, h7, -⟩ := hsame
    exact .start (h1.trans action) (h2.trans hid) (h3.trans hlevel) (h4.trans htype)
      (h5.trans htext) (h6 ▸ hparent) (h7 ▸ hfields)
  | stop action hid =>
    simp only [decisive_of_action action, keysUnder, List.forall_mem_cons] at hsame
    obtain ⟨h1, h2, -⟩ := hsame
    exact .stop (h1.trans action) (h2.trans hid)
  | update action hid htype hfields =>
    simp only [decisive_of_action action, keysUnder, List.forall_mem_cons] at hsame
    obtain ⟨h1, h2, h3, h4, -⟩ := hsame
    exact .update (h1.trans action) (h2.trans hid) (h3.trans htype) (h4 ▸ hfields)
  | phase action hphase =>
    simp only [decisive_of_action action, keysUnder, List.forall_mem_cons] at hsame
    obtain ⟨h1, h2, -⟩ := hsame
    exact .phase (h1.trans action) (h2.trans hphase)
  | unknown action hname =>
    have haction : other "action" = find "action" := hsame _ List.mem_cons_self
    exact .unknown (haction.trans action) hname

/-! ## What the values mean -/

theorem asText_eq_ok_iff {value : Json} {text : String} :
    asText value = .ok text ↔ value = .string text := by
  cases value <;> simp [asText, first, Token.asString]

theorem asWord_eq_ok_iff {value : Json} {n : UInt64} :
    asWord value = .ok n ↔ value = .number (.natural n) := by
  cases value with
  | number number =>
    cases number with
    | natural m =>
      have hm : m ≤ 18446744073709551615 := UInt64.le_iff_toNat_le.mpr (Nat.le_of_lt_succ m.toNat_lt)
      simp [asWord, first, Token.asWord, Token.asNatural, hm]
    | negative magnitude => simp [asWord, first, Token.asWord, Token.asNatural]
    | float bits => simp [asWord, first, Token.asWord, Token.asNatural]
  | _ => simp [asWord, first, Token.asWord, Token.asNatural]

/-- A number has a level as its meaning iff it is the rank of the level. -/
theorem levelOfRank_eq_ok_iff {n : UInt64} {level : Level} :
    levelOfRank n = .ok level ↔ n = .ofNat level.rank := by
  unfold levelOfRank
  constructor
  · intro h
    split at h
    next found hfound =>
      obtain rfl := Except.ok.inj h
      rw [Level.rank_of_ofRank? hfound, UInt64.ofNat_toNat]
    next => simp at h
  · rintro rfl
    have hrank : (UInt64.ofNat level.rank).toNat = level.rank := by cases level <;> rfl
    rw [hrank, Level.ofRank?_rank]

theorem asLevel_eq_ok_iff {value : Json} {level : Level} :
    asLevel value = .ok level ↔ value = .number (.natural (.ofNat level.rank)) := by
  cases value with
  | number number =>
    cases number with
    | natural n =>
      by_cases hn : n ≤ 255
      · simp [asLevel, first, Token.asByte, Token.asNatural, hn, levelOfRank_eq_ok_iff]
      · -- No rank is that large.
        have hne : n ≠ .ofNat level.rank := by
          rintro rfl
          exact hn (by cases level <;> decide)
        simp [asLevel, first, Token.asByte, Token.asNatural, hn, hne]
    | negative magnitude => simp [asLevel, first, Token.asByte, Token.asNatural]
    | float bits => simp [asLevel, first, Token.asByte, Token.asNatural]
  | _ => simp [asLevel, first, Token.asByte, Token.asNatural]

theorem asOptionalText_eq_ok_iff {value : Json} {raw : Option String} :
    asOptionalText value = .ok raw ↔ GivesText (some value) raw := by
  constructor
  · intro h
    cases value with
    | null =>
      obtain rfl := Except.ok.inj h
      exact .null
    | string text =>
      obtain rfl := Except.ok.inj h
      exact .given text
    | _ => simp [asOptionalText, first, Token.optional, Token.asString, Except.map] at h
  · intro h
    cases h <;> rfl

/-- A list, as data, has its items as data. -/
theorem asList_normal_eq_ok_iff {value : Json} {fields : Option (List Json)} :
    asList value.normal = .ok fields ↔ GivesFields (some value) fields := by
  constructor
  · intro h
    cases value with
    | null =>
      obtain rfl := Except.ok.inj h
      exact .null
    | list items =>
      obtain rfl := Except.ok.inj h
      rw [normalItems_eq_map]
      exact .given items
    | _ => simp [asList, normal] at h
  · intro h
    cases h with
    | null => rfl
    | given items => rw [normal, normalItems_eq_map, asList]

theorem normal_eq_string_iff {value : Json} {text : String} :
    value.normal = .string text ↔ value = .string text := by
  cases value <;> simp [normal]

theorem normal_eq_number_iff {value : Json} {number : Number} :
    value.normal = .number number ↔ value = .number number := by
  cases value <;> simp [normal]

/-- As data, no value becomes a text or null that was none. -/
theorem givesText_normal_iff {value : Json} {raw : Option String} :
    GivesText (some value.normal) raw ↔ GivesText (some value) raw := by
  cases value with
  | list items => constructor <;> intro h <;> cases h
  | object members => constructor <;> intro h <;> cases h
  | _ => rw [normal]

/-! ## Drafts -/

/-- The part of a draft that the value of a key gives, if there is a value. -/
def Gives (key : Key) (value : Option Json) (part : Option Part) : Prop :=
  match value with
  | none => part = none
  | some value => ∃ p, key.meaning value.normal = .ok p ∧ part = some p

section

variable {value : Option Json}

theorem gives_level_iff {level : Option Level} :
    Gives .level value (level.map .level)
      ↔ value = level.map fun level => .number (.natural (.ofNat level.rank)) := by
  cases value <;> cases level <;>
    simp [Gives, Key.meaning, map_eq_ok_iff, asLevel_eq_ok_iff, normal_eq_number_iff]

theorem gives_text_iff {key : Key} (hkey : key.meaning = fun value => (asText value).map .text)
    {text : Option String} : Gives key value (text.map .text) ↔ value = text.map .string := by
  cases value <;> cases text <;>
    simp [Gives, hkey, map_eq_ok_iff, asText_eq_ok_iff, normal_eq_string_iff]

theorem gives_word_iff {key : Key} (hkey : key.meaning = fun value => (asWord value).map .word)
    {n : Option UInt64} :
    Gives key value (n.map .word) ↔ value = n.map fun n => .number (.natural n) := by
  cases value <;> cases n <;>
    simp [Gives, hkey, map_eq_ok_iff, asWord_eq_ok_iff, normal_eq_number_iff]

/-- A key that may be left out, and whose value may say that it is. -/
theorem exists_gives_iff {α : Type} {key : Key} {meaning : Json → Except Mismatch (Option α)}
    {part : Option α → Part} (hkey : key.meaning = fun value => (meaning value).map part)
    (hpart : Function.Injective part) {a : Option α} :
    (∃ seen : Option (Option α), Gives key value (seen.map part) ∧ seen.join = a)
      ↔ match value with
        | none => a = none
        | some value => meaning value.normal = .ok a := by
  cases value with
  | none =>
    constructor
    · rintro ⟨seen, h, rfl⟩
      obtain rfl := Option.map_eq_none_iff.mp h
      rfl
    · rintro rfl
      exact ⟨none, rfl, rfl⟩
  | some value =>
    simp only [Gives, hkey]
    constructor
    · rintro ⟨seen, ⟨_, hmeaning, hseen⟩, rfl⟩
      obtain ⟨b, hb, rfl⟩ := map_eq_ok_iff.mp hmeaning
      obtain ⟨_, rfl, heq⟩ := Option.map_eq_some_iff.mp hseen
      obtain rfl := hpart heq
      exact hb
    · intro h
      exact ⟨some a, ⟨_, map_eq_ok_iff.mpr ⟨a, h, rfl⟩, rfl⟩, rfl⟩

theorem givesText_iff_exists {text : Option String} :
    GivesText value text
      ↔ ∃ raw : Option (Option String), Gives .raw value (raw.map .optionalText)
        ∧ raw.join = text := by
  rw [exists_gives_iff rfl fun _ _ => Part.optionalText.inj]
  cases value with
  | none =>
    constructor
    · intro h
      cases h
      rfl
    · rintro rfl
      exact .absent
  | some value => exact givesText_normal_iff.symm.trans asOptionalText_eq_ok_iff.symm

theorem givesFields_iff_exists {fields : Option (List Json)} :
    GivesFields value fields
      ↔ ∃ list : Option (Option (List Json)), Gives .fields value (list.map .list)
        ∧ list.join = fields := by
  rw [exists_gives_iff rfl fun _ _ => Part.list.inj]
  cases value with
  | none =>
    constructor
    · intro h
      cases h
      rfl
    · rintro rfl
      exact .absent
  | some value => exact asList_normal_eq_ok_iff.symm

theorem givesParent_iff_exists {parent : UInt64} :
    GivesParent value parent
      ↔ ∃ id : Option UInt64, Gives .parent value (id.map .word) ∧ id.getD 0 = parent := by
  constructor
  · intro h
    cases h with
    | absent => exact ⟨none, (gives_word_iff rfl).mpr rfl, rfl⟩
    | given => exact ⟨some parent, (gives_word_iff rfl).mpr rfl, rfl⟩
  · rintro ⟨id, h, rfl⟩
    obtain rfl := (gives_word_iff rfl).mp h
    cases id with
    | none => exact .absent
    | some id => exact .given id

end

/-- A draft that has been made of the values of some keys, and of nothing else. -/
structure Draft.MadeOf (draft : Draft) (keys : List Key) (find : String → Option Json) : Prop where
  given : ∀ key ∈ keys, Gives key (find key.name) (draft.part key)
  rest : ∀ key ∉ keys, draft.part key = none

/-! ## Finished drafts -/

theorem ofName_spec (name : String) :
    match Action.ofName name with
    | .message => name = "msg"
    | .start => name = "start"
    | .stop => name = "stop"
    | .update => name = "result"
    | .phase => name = "setPhase"
    | .unknown => name ∉ actionNames := by
  unfold Action.ofName
  split_ifs <;> simp_all [actionNames]

theorem ofName_of_notMem {name : String} (h : name ∉ actionNames) :
    Action.ofName name = .unknown := by
  simp only [actionNames, List.mem_cons, List.not_mem_nil, not_or, or_false] at h
  obtain ⟨h1, h2, h3, h4, h5⟩ := h
  rw [Action.ofName, if_neg h1, if_neg h2, if_neg h3, if_neg h4, if_neg h5]

theorem bind_eq_ok_iff {α β ε : Type} {e : Except ε α} {f : α → Except ε β} {b : β} :
    e >>= f = .ok b ↔ ∃ a, e = .ok a ∧ f a = .ok b := by
  cases e <;> simp [bind, Except.bind]

theorem need_eq_ok_iff {α : Type} {key : Key} {part : Option α} {value : α} :
    Draft.need key part = .ok value ↔ part = some value := by
  cases part <;> simp [Draft.need]

/-- What a draft must hold to be finished, and the message that it is finished as. -/
theorem finish_eq_ok_iff {draft : Draft} {action : Action} {message : Message} :
    draft.finish action = .ok message ↔
      match action with
      | .message => ∃ level, draft.level = some level ∧ ∃ text, draft.message = some text
        ∧ .message level text draft.raw.join = message
      | .start => ∃ id, draft.id = some id ∧ ∃ level, draft.level = some level
        ∧ ∃ code, draft.type = some code ∧ ∃ text, draft.text = some text
        ∧ .start id level (.ofCode code) text (draft.parent.getD 0) draft.fields.join = message
      | .stop => ∃ id, draft.id = some id ∧ .stop id = message
      | .update => ∃ id, draft.id = some id ∧ ∃ code, draft.type = some code
        ∧ .update id (.ofCode code) draft.fields.join = message
      | .phase => ∃ name, draft.phase = some name ∧ .phase name = message
      | .unknown => .unknown = message := by
  cases action <;>
    simp only [Draft.finish, bind_eq_ok_iff, need_eq_ok_iff, pure, Except.pure, Except.ok.injEq]

/-- A draft that can be finished says what the rule of its action says. -/
theorem says_of_madeOf {find : String → Option Json} {name : String} {draft : Draft}
    {message : Message} (action : find "action" = some (.string name))
    (hdraft : draft.MadeOf (Action.ofName name).keys find)
    (hfinish : draft.finish (.ofName name) = .ok message) : Says find message := by
  have hname := ofName_spec name
  have hgiven := hdraft.given
  rw [finish_eq_ok_iff] at hfinish
  cases haction : Action.ofName name with
  | message =>
    simp only [haction, Action.keys, List.forall_mem_cons] at hname hgiven hfinish
    obtain ⟨hlevel, htext, hraw, -⟩ := hgiven
    obtain ⟨level, h1, text, h2, rfl⟩ := hfinish
    have hlevel := gives_level_iff.mp hlevel
    have htext := (gives_text_iff rfl).mp htext
    rw [h1] at hlevel
    rw [h2] at htext
    exact .message (hname ▸ action) hlevel htext (givesText_iff_exists.mpr ⟨_, hraw, rfl⟩)
  | start =>
    simp only [haction, Action.keys, List.forall_mem_cons] at hname hgiven hfinish
    obtain ⟨hid, hlevel, htype, htext, hparent, hfields, -⟩ := hgiven
    obtain ⟨id, h1, level, h2, code, h3, text, h4, rfl⟩ := hfinish
    have hid := (gives_word_iff rfl).mp hid
    have hlevel := gives_level_iff.mp hlevel
    have htype := (gives_word_iff rfl).mp htype
    have htext := (gives_text_iff rfl).mp htext
    rw [h1] at hid
    rw [h2] at hlevel
    rw [h3] at htype
    rw [h4] at htext
    exact .start (hname ▸ action) hid hlevel htype htext
      (givesParent_iff_exists.mpr ⟨_, hparent, rfl⟩) (givesFields_iff_exists.mpr ⟨_, hfields, rfl⟩)
  | stop =>
    simp only [haction, Action.keys, List.forall_mem_cons] at hname hgiven hfinish
    obtain ⟨id, h1, rfl⟩ := hfinish
    have hid := (gives_word_iff rfl).mp hgiven.1
    rw [h1] at hid
    exact .stop (hname ▸ action) hid
  | update =>
    simp only [haction, Action.keys, List.forall_mem_cons] at hname hgiven hfinish
    obtain ⟨hid, htype, hfields, -⟩ := hgiven
    obtain ⟨id, h1, code, h2, rfl⟩ := hfinish
    have hid := (gives_word_iff rfl).mp hid
    have htype := (gives_word_iff rfl).mp htype
    rw [h1] at hid
    rw [h2] at htype
    exact .update (hname ▸ action) hid htype (givesFields_iff_exists.mpr ⟨_, hfields, rfl⟩)
  | phase =>
    simp only [haction, Action.keys, List.forall_mem_cons] at hname hgiven hfinish
    obtain ⟨phase, h1, rfl⟩ := hfinish
    have hphase := (gives_text_iff rfl).mp hgiven.1
    rw [h1] at hphase
    exact .phase (hname ▸ action) hphase
  | unknown =>
    simp only [haction] at hname hfinish
    exact hfinish ▸ .unknown action hname

/-- What the rule of an action says, a draft says that can be finished. -/
theorem exists_madeOf_of_says {find : String → Option Json} {message : Message}
    (h : Says find message) :
    ∃ name draft, find "action" = some (.string name)
      ∧ Draft.MadeOf draft (Action.ofName name).keys find
      ∧ draft.finish (.ofName name) = .ok message := by
  cases h with
  | @message level text raw action hlevel htext hraw =>
    obtain ⟨part, hpart, rfl⟩ := givesText_iff_exists.mp hraw
    have hlevel : Gives .level (find "level") ((some level).map .level) :=
      gives_level_iff.mpr hlevel
    have htext : Gives .message (find "msg") ((some text).map .text) :=
      (gives_text_iff rfl).mpr htext
    -- Parts that the action does not have stay empty, here and in the cases below.
    refine ⟨"msg", { level := some level, message := some text, raw := part }, action, ⟨?_, ?_⟩,
      rfl⟩
    · show ∀ key ∈ Action.message.keys, _
      simp only [Action.keys, List.forall_mem_cons]
      exact ⟨hlevel, htext, hpart, by simp⟩
    · intro key hkey
      cases key <;> first | rfl | exact absurd (by decide) hkey
  | @start id code parent level text fields action hid hlevel htype htext hparent hfields =>
    obtain ⟨origin, horigin, rfl⟩ := givesParent_iff_exists.mp hparent
    obtain ⟨list, hlist, rfl⟩ := givesFields_iff_exists.mp hfields
    have hid : Gives .id (find "id") ((some id).map .word) := (gives_word_iff rfl).mpr hid
    have hlevel : Gives .level (find "level") ((some level).map .level) :=
      gives_level_iff.mpr hlevel
    have htype : Gives .type (find "type") ((some code).map .word) := (gives_word_iff rfl).mpr htype
    have htext : Gives .text (find "text") ((some text).map .text) := (gives_text_iff rfl).mpr htext
    refine ⟨"start",
      { id := some id, level := some level, type := some code, text := some text, parent := origin,
        fields := list }, action, ⟨?_, ?_⟩, rfl⟩
    · show ∀ key ∈ Action.start.keys, _
      simp only [Action.keys, List.forall_mem_cons]
      exact ⟨hid, hlevel, htype, htext, horigin, hlist, by simp⟩
    · intro key hkey
      cases key <;> first | rfl | exact absurd (by decide) hkey
  | @stop id action hid =>
    have hid : Gives .id (find "id") ((some id).map .word) := (gives_word_iff rfl).mpr hid
    refine ⟨"stop", { id := some id }, action, ⟨?_, ?_⟩, rfl⟩
    · show ∀ key ∈ Action.stop.keys, _
      simp only [Action.keys, List.forall_mem_cons]
      exact ⟨hid, by simp⟩
    · intro key hkey
      cases key <;> first | rfl | exact absurd (by decide) hkey
  | @update id code fields action hid htype hfields =>
    obtain ⟨list, hlist, rfl⟩ := givesFields_iff_exists.mp hfields
    have hid : Gives .id (find "id") ((some id).map .word) := (gives_word_iff rfl).mpr hid
    have htype : Gives .type (find "type") ((some code).map .word) := (gives_word_iff rfl).mpr htype
    refine ⟨"result", { id := some id, type := some code, fields := list }, action, ⟨?_, ?_⟩, rfl⟩
    · show ∀ key ∈ Action.update.keys, _
      simp only [Action.keys, List.forall_mem_cons]
      exact ⟨hid, htype, hlist, by simp⟩
    · intro key hkey
      cases key <;> first | rfl | exact absurd (by decide) hkey
  | @phase phase action hphase =>
    have hphase : Gives .phase (find "phase") ((some phase).map .text) :=
      (gives_text_iff rfl).mpr hphase
    refine ⟨"setPhase", { phase := some phase }, action, ⟨?_, ?_⟩, rfl⟩
    · show ∀ key ∈ Action.phase.keys, _
      simp only [Action.keys, List.forall_mem_cons]
      exact ⟨hphase, by simp⟩
    · intro key hkey
      cases key <;> first | rfl | exact absurd (by decide) hkey
  | @unknown name action hname =>
    have hunknown := ofName_of_notMem hname
    refine ⟨name, {}, action, ⟨?_, ?_⟩, by rw [hunknown]; rfl⟩
    · rw [hunknown]
      simp [Action.keys]
    · intro key hkey
      cases key <;> rfl

/-- **The rules describe the drafts that can be finished.** -/
theorem says_iff {find : String → Option Json} {message : Message} :
    Says find message
      ↔ ∃ name draft, find "action" = some (.string name)
        ∧ Draft.MadeOf draft (Action.ofName name).keys find
        ∧ draft.finish (.ofName name) = .ok message := by
  constructor
  · exact exists_madeOf_of_says
  · rintro ⟨name, draft, action, hdraft, hfinish⟩
    exact says_of_madeOf action hdraft hfinish

/-! ## Objects -/

section

variable {members : List (String × Json)} (honce : (members.map Prod.fst).Nodup)

include honce

/-- Of members without repeated keys, those under a key make of its part what its value gives. -/
theorem filled_under_iff {key : Key} {part : Option Part} :
    Filled key none part (normalMembers (under key.name members))
      ↔ Gives key (lookup key.name members) part := by
  have hle := length_under_le_of_nodup honce key.name
  rw [lookup_eq_under]
  rcases hunder : under key.name members with _ | ⟨⟨name, value⟩, _ | ⟨other, more⟩⟩
  · simp [normalMembers, Filled, Gives]
  · simp [normalMembers, Filled, Gives]
  · simp [hunder] at hle

/-- What the members of an object make of an empty draft are the values of the keys. -/
theorem fills_iff_madeOf {keys : List Key} {draft : Draft} :
    Fills keys {} draft (normalMembers (untagged members))
      ↔ draft.MadeOf keys fun key => lookup key members := by
  have hempty (key : Key) : ({} : Draft).part key = none := by cases key <;> rfl
  have hunder (key : Key) : under key.name (normalMembers (untagged members))
      = normalMembers (under key.name members) := by
    have hne : key.name ≠ tagKey := by cases key <;> decide
    rw [under_normalMembers, under_untagged hne]
  constructor
  · intro h
    refine ⟨fun key hkey => ?_, fun key hkey => ?_⟩
    · have hfilled := h key
      rw [if_pos hkey, hempty, hunder] at hfilled
      exact (filled_under_iff honce).mp hfilled
    · have hfilled := h key
      rw [if_neg hkey, hempty] at hfilled
      exact hfilled
  · intro h key
    rw [hempty]
    by_cases hkey : key ∈ keys
    · rw [if_pos hkey, hunder]
      exact (filled_under_iff honce).mpr (h.given key hkey)
    · rw [if_neg hkey]
      exact h.rest key hkey

/-- The tag of an object is the value of its only member of that name. -/
theorem under_tagKey_iff {name : String} :
    under tagKey members = [(tagKey, .string name)]
      ↔ lookup "action" members = some (.string name) := by
  have hle := length_under_le_of_nodup honce tagKey
  have hkeys : ∀ member ∈ under tagKey members, member.1 = tagKey := by
    intro member hmember
    simpa using (List.mem_filter.mp hmember).2
  show _ ↔ lookup tagKey members = _
  rw [lookup_eq_under]
  rcases hunder : under tagKey members with _ | ⟨⟨key, value⟩, _ | ⟨other, more⟩⟩
  · simp
  · obtain rfl : key = tagKey := hkeys (key, value) (by rw [hunder]; exact List.mem_cons_self)
    simp
  · simp [hunder] at hle

/-- **The rules describe what an object says as a value.** -/
theorem ofJson_object_iff {message : Message} :
    Message.ofJson (Json.object members).normal = .ok message
      ↔ Says (fun key => lookup key members) message := by
  rw [says_iff]
  constructor
  · intro h
    obtain ⟨name, htag, hbody⟩ := ofBody_of_ofJson_object honce h
    unfold Message.ofBody at hbody
    split at hbody
    next => simp at hbody
    next draft hdraft =>
      exact ⟨name, draft, (under_tagKey_iff honce).mp htag,
        (fills_iff_madeOf honce).mp (ofMembers_eq_ok_iff.mp hdraft), hbody⟩
  · rintro ⟨name, draft, action, hdraft, hfinish⟩
    refine ofJson_object ((under_tagKey_iff honce).mpr action) ?_
    have hbody : Body.draft (.ofName name) (.members (normalMembers (untagged members)))
        = .ok draft :=
      ofMembers_eq_ok_iff.mpr ((fills_iff_madeOf honce).mpr hdraft)
    rw [Message.ofBody, hbody]
    exact hfinish

/-- **The rules describe what is read from the text of an object.** -/
theorem ofPayload_object_iff {payload : String} (hparse : parse payload = .ok (.object members))
    {message : Message} :
    Message.ofPayload payload = .ok message ↔ Says (fun key => lookup key members) message := by
  rw [← ofJson_object_iff honce]
  constructor
  · intro h
    obtain ⟨v, hdata, hmessage⟩ := ofJson_of_ofPayload h
    rw [parseData, hparse] at hdata
    obtain rfl := Except.ok.inj hdata
    exact hmessage
  · exact ofPayload_of_ofJson hparse (not_not.mpr honce)

end

/-! ## Order and further members -/

/-- Without repeated keys, neither the order of the members matters for the value of a key, nor do
members under other keys. -/
theorem lookup_eq_of_perm {members others more : List (String × Json)}
    (honce : (others.map Prod.fst).Nodup) (hperm : others.Perm (members ++ more)) {key : String}
    (hmore : ∀ member ∈ more, member.1 ≠ key) : lookup key others = lookup key members := by
  have hunder : (under key others).Perm (under key members) := by
    have hfilter := hperm.filter fun member => member.1 = key
    rw [List.filter_append] at hfilter
    have hnone : under key more = [] := under_eq_nil hmore
    rw [under] at hnone
    rw [hnone, List.append_nil] at hfilter
    exact hfilter
  have hle := length_under_le_of_nodup honce key
  rw [lookup_eq_under, lookup_eq_under]
  rcases hothers : under key others with _ | ⟨member, _ | ⟨other, rest⟩⟩
  · rw [hothers] at hunder
    rw [hunder.nil_eq]
  · rw [hothers] at hunder
    rw [hunder.singleton_eq]
  · simp [hothers] at hle

/-- What has been read of a marked payload, a refusal without its reasons. -/
theorem map_toOption_ofLine?_mark (payload : String) :
    (Message.ofLine? (mark payload)).map Except.toOption
      = some (Message.ofPayload payload).toOption := by
  rw [Message.ofLine?, payload?_mark]
  rfl

theorem toOption_eq_some_iff {α ε : Type} {e : Except ε α} {a : α} :
    e.toOption = some a ↔ e = .ok a := by
  cases e <;> simp [Except.toOption]

/--
**Exactly the objects of the grammar are read, as the messages that they say.**

A marked object without repeated keys is read as a message iff the rule of the message's action holds
of its members. Another object that has the same members in any order, and beside them any members
under keys that the rule does not look up, is read as the same message, or refused as well.
-/
theorem object_grammar {payload : String} {members : List (String × Json)}
    (hparse : parse payload = .ok (.object members)) (honce : (members.map Prod.fst).Nodup) :
    (∀ message : Message,
        Message.ofLine? (mark payload) = some (.ok message)
          ↔ Says (fun key => lookup key members) message)
      ∧ ∀ (other : String) (others more : List (String × Json)),
        parse other = .ok (.object others) → (others.map Prod.fst).Nodup →
        others.Perm (members ++ more) →
        (∀ member ∈ more, member.1 ∉ decisive fun key => lookup key members) →
        (Message.ofLine? (mark other)).map Except.toOption
          = (Message.ofLine? (mark payload)).map Except.toOption := by
  constructor
  · intro message
    rw [Message.ofLine?, payload?_mark, Option.map_some, Option.some.injEq]
    exact ofPayload_object_iff honce hparse
  · intro other others more hother honceOther hperm hmore
    rw [map_toOption_ofLine?_mark, map_toOption_ofLine?_mark, Option.some.injEq]
    -- Both objects have the same value under each key that the rule looks up.
    have hsame : ∀ key ∈ decisive fun key => lookup key members,
        lookup key others = lookup key members := by
      intro key hkey
      refine lookup_eq_of_perm honceOther hperm fun member hmember hname => ?_
      exact hmore member hmember (hname ▸ hkey)
    have hdecisive : (decisive fun key => lookup key others)
        = decisive fun key => lookup key members := by
      have haction : lookup "action" others = lookup "action" members :=
        hsame "action" List.mem_cons_self
      rw [decisive, decisive, haction]
    refine Option.ext fun message => ?_
    rw [toOption_eq_some_iff, toOption_eq_some_iff, ofPayload_object_iff honceOther hother,
      ofPayload_object_iff honce hparse]
    constructor
    · intro h
      exact h.congr fun key hkey => (hsame key (hdecisive ▸ hkey)).symm
    · intro h
      exact h.congr hsame

/-- An update about a download is read without fields, and with its action last, after a member that
no rule knows. -/
theorem object_grammar_actionLast :
    Message.ofLine? (mark "\x7b\"action\":\"result\",\"id\":7,\"type\":105\x7d")
        = some (.ok (.update 7 .progress none))
      ∧ (Message.ofLine? (mark
          "\x7b\"new\":null,\"type\":105,\"id\":7,\"action\":\"result\"\x7d")).map Except.toOption
        = some (some (.update 7 .progress none)) := by
  have hfirst : parse "\x7b\"action\":\"result\",\"id\":7,\"type\":105\x7d"
      = .ok (.object [("action", .string "result"), ("id", .number (.natural 7)),
        ("type", .number (.natural 105))]) := by
    with_unfolding_all rfl
  have hlast : parse "\x7b\"new\":null,\"type\":105,\"id\":7,\"action\":\"result\"\x7d"
      = .ok (.object [("new", .null), ("type", .number (.natural 105)),
        ("id", .number (.natural 7)), ("action", .string "result")]) := by
    with_unfolding_all rfl
  have hkind : UpdateKind.ofCode 105 = .progress := by decide
  obtain ⟨hread, hrest⟩ := object_grammar hfirst (by decide)
  have hupdate := (hread (.update 7 (.ofCode 105) none)).mpr (.update rfl rfl rfl .absent)
  have hperm := List.reverse_perm ([("action", Json.string "result"),
    ("id", .number (.natural 7)), ("type", .number (.natural 105))] ++ [("new", .null)])
  rw [hkind] at hupdate
  refine ⟨hupdate, ?_⟩
  rw [hrest _ _ _ hlast (by decide) hperm (by decide), hupdate]
  rfl

end Worklog.Wire
