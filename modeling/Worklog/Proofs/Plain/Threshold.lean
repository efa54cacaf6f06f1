import Worklog.Proofs.Channel.Showing

/-!
# Plain text under two thresholds

A lower threshold takes whole messages out of what a plain sink writes, and leaves the others as they
are. Only calls with a level can be held back; an update has none, so the output of builds is written
under every threshold.

* `written_low` — what a call writes under the lower of two thresholds.
* `textOn_tellAll_plain` — what calls leave on an output, message by message.
* `threshold_filters` — the text under the lower threshold, from that under the higher one.
-/

namespace Worklog

/-! ## Levels -/

theorem Level.le_trans {a b c : Level} (h : a ≤ b) (h' : b ≤ c) : a ≤ c :=
  Nat.le_trans (m := b.rank) h h'

theorem Level.error_le (level : Level) : .error ≤ level := Nat.zero_le level.rank

namespace Call

/-- The level of a call, or of the report that it makes. A stop and an update have none. -/
def level? : Call → Option Level
  | log level _ => some level
  | report error => some error.level
  | start _ level .. => some level
  | stop _ => none
  | update .. => none

/-- The call passes the higher threshold and not the lower one. -/
def Between (low high : Level) (call : Call) : Prop :=
  ∃ level, call.level? = some level ∧ ¬ level ≤ low ∧ level ≤ high

theorem between_iff_any {low high : Level} {call : Call} :
    (call.level?.any fun level => decide (¬ level ≤ low ∧ level ≤ high)) = true
      ↔ call.Between low high := by
  cases h : call.level? <;> simp [Between, h]

instance (low high : Level) (call : Call) : Decidable (call.Between low high) :=
  decidable_of_iff _ between_iff_any

/-- The calls that bring a line of a build or of the hook after it, and what is said then. -/
inductive BringsOutput (line : String) : String → Call → Prop where
  | build (id : UInt64) (more : List Field) :
    BringsOutput line line (.update id .buildLogLine (.text line :: more))
  | postBuild (id : UInt64) (more : List Field) :
    BringsOutput line ("post-build-hook: " ++ line)
      (.update id .postBuildLogLine (.text line :: more))

variable {settings : Settings} {call : Call} {level : Level} {said : String}

/-- A call speaks at its level. Without one it speaks at the level that always passes. -/
theorem level_of_plain (h : call.plain settings = some (level, said)) :
    call.level? = some level ∨ call.level? = none ∧ level = .error := by
  cases call with
  | log _ _ =>
    obtain ⟨rfl, -⟩ := Prod.mk.inj (Option.some.inj h)
    exact .inl rfl
  | report _ =>
    obtain ⟨rfl, -⟩ := Prod.mk.inj (Option.some.inj h)
    exact .inl rfl
  | start _ _ _ text _ _ =>
    rw [plain] at h
    split at h
    · simp at h
    · obtain ⟨rfl, -⟩ := Prod.mk.inj (Option.some.inj h)
      exact .inl rfl
  | stop _ => simp [plain] at h
  | update _ kind fields =>
    rw [plain] at h
    split at h
    · obtain ⟨_, -, hsaid⟩ := Option.map_eq_some_iff.mp h
      exact .inr ⟨rfl, (Prod.mk.inj hsaid).1.symm⟩
    · simp at h

/-- A line of output is said iff that is asked for. -/
theorem BringsOutput.plain_eq {line : String} (h : BringsOutput line said call) :
    call.plain settings = if settings.printBuildLogs then some (.error, said) else none := by
  cases h <;> rfl

end Call

namespace PlainText

variable {settings : Settings} {threshold low high : Level} {call : Call} {level : Level}
  {said : String}

theorem written_of_plain (h : call.plain settings = some (level, said)) (hle : level ≤ threshold) :
    written settings threshold call = some (line settings level said) :=
  written_eq_some_iff.mpr ⟨level, said, h, hle, rfl⟩

theorem written_of_not_le (h : call.plain settings = some (level, said))
    (hle : ¬ level ≤ threshold) : written settings threshold call = none := by
  rw [written_eq, h]
  simp [message, Level.passes, hle]

/-- **Under the lower threshold a call writes nothing if it lies between the two, and otherwise the
same as under the higher one.** -/
theorem written_low (hle : low ≤ high) (settings : Settings) (call : Call) :
    written settings low call
      = if call.Between low high then none else written settings high call := by
  cases hplain : call.plain settings with
  | none => simp [written_eq, hplain]
  | some spoken =>
    obtain ⟨level, said⟩ := spoken
    by_cases hlow : level ≤ low
    · -- What passes the lower threshold passes the higher one, and does not lie between them.
      have hbetween : ¬ call.Between low high := by
        rintro ⟨other, hother, hnot, -⟩
        rcases Call.level_of_plain hplain with hlevel | ⟨hlevel, -⟩
        · obtain rfl : other = level := Option.some.inj (hother.symm.trans hlevel)
          exact hnot hlow
        · simp [hlevel] at hother
      rw [if_neg hbetween, written_of_plain hplain hlow,
        written_of_plain hplain (Level.le_trans hlow hle)]
    · rw [written_of_not_le hplain hlow]
      by_cases hhigh : level ≤ high
      · have hlevel : call.level? = some level :=
          (Call.level_of_plain hplain).resolve_right fun h => hlow (h.2 ▸ Level.error_le low)
        rw [if_pos ⟨level, hlevel, hlow, hhigh⟩]
      · rw [written_of_not_le hplain hhigh, ite_self]

/-- The messages under the lower threshold are those under the higher one, without the messages of
the calls between the two. -/
theorem filterMap_written_low (hle : low ≤ high) (settings : Settings) (calls : List Call) :
    calls.filterMap (written settings low)
      = (calls.filter fun call => ¬ call.Between low high).filterMap (written settings high) := by
  induction calls with
  | nil => rfl
  | cons call calls ih =>
    rw [List.filterMap_cons, written_low hle, ih]
    by_cases hbetween : call.Between low high
    · rw [if_pos hbetween, List.filter_cons_of_neg (by simpa using hbetween)]
    · rw [if_neg hbetween, List.filter_cons_of_pos (by simpa using hbetween), List.filterMap_cons]

/-- A line of output is written under every threshold, or under none. -/
theorem written_output {text : String} (h : Call.BringsOutput text said call)
    (settings : Settings) (threshold : Level) :
    written settings threshold call
      = if settings.printBuildLogs then some (line settings .error said) else none := by
  have hplain : call.plain settings = _ := h.plain_eq
  split
  next hasked =>
    rw [if_pos hasked] at hplain
    exact written_of_plain hplain (Level.error_le threshold)
  next hasked =>
    rw [if_neg hasked] at hplain
    rw [written_eq, hplain]

end PlainText

namespace Logbook

open PlainText (written)

variable {id : Nat} {settings : Settings} {target : Target} {output : Output}

/-- The messages that were written to an output, one for each time that something was written. -/
def messagesTo (output : Output) (book : Logbook) : List String :=
  book.entries.filterMap fun entry => match entry with
    | .text place text => if place = output then some text else none
    | _ => none

/-- A plain sink writes once for a call, or not at all. -/
theorem messagesTo_emit_plain (htarget : target.output? id = some output) (issuer : Issuer)
    (call : Call) (book : Logbook) :
    (emit issuer (.plain id settings target) call book).2.messagesTo output
      = book.messagesTo output ++ (written settings book.threshold call).toList := by
  rw [emit]
  cases target with
  | buffer =>
    obtain rfl := Option.some.inj htarget
    cases written settings book.threshold call <;> simp [messagesTo, write]
  | stderr =>
    obtain rfl := Option.some.inj htarget
    cases written settings book.threshold call <;> simp [messagesTo, write]
  | closed => simp [Target.output?] at htarget

/-- **What calls leave on an output, message by message.** -/
theorem textOn_tellAll_plain (htarget : target.output? id = some output) (issuer : Issuer)
    (calls : List Call) (book : Logbook) :
    (tellAll issuer (.plain id settings target) calls book).textOn output
      = book.textOn output
        ++ String.join (calls.filterMap (written settings book.threshold)) := by
  rw [((tells_tellAll issuer _ calls book).textOn output).2, shown]
  simp only [if_pos htarget, List.map_id']

/--
**A lower threshold takes whole messages out of a text, and changes nothing else.**

The same calls in order are made on a plain sink under two thresholds, after anything that may have
happened before. The text under the higher threshold is put together from what each call writes
under it. The text under the lower one is put together from the same parts, in the same order, but
for those of the calls whose level lies above the lower threshold and not above the higher one. A
call writes at most once, and then one message with the end of its line; it does so if it has
something to say and its level passes. The output of builds does not depend on the threshold: each
line is written if that is asked for, and otherwise none.
-/
theorem threshold_filters {low high : Level} (hle : low ≤ high)
    (htarget : target.output? id = some output) (settings : Settings) (issuer : Issuer)
    (calls : List Call) (book : Logbook) :
    let sink : Sink := .plain id settings target
    let after (threshold : Level) : Logbook := tellAll issuer sink calls { book with threshold }
    let kept := calls.filter fun call => ¬ call.Between low high
    ((after high).textOn output
        = book.textOn output ++ String.join (calls.filterMap (written settings high))
      ∧ (after low).textOn output
        = book.textOn output ++ String.join (kept.filterMap (written settings high)))
    ∧ (∀ (call : Call) (threshold : Level),
        (emit issuer sink call { book with threshold }).2.messagesTo output
            = book.messagesTo output ++ (written settings threshold call).toList
          ∧ ∀ message, written settings threshold call = some message
            ↔ ∃ level said, call.plain settings = some (level, said) ∧ level ≤ threshold
              ∧ message = PlainText.mark settings level ++ PlainText.body settings said ++ "\n")
    ∧ ∀ (line said : String) (call : Call), Call.BringsOutput line said call →
        ∀ threshold, written settings threshold call
          = if settings.printBuildLogs then some (PlainText.line settings .error said) else none := by
  intro sink after kept
  refine ⟨⟨textOn_tellAll_plain htarget issuer calls _, ?_⟩, fun call threshold => ⟨?_, ?_⟩, ?_⟩
  · rw [← PlainText.filterMap_written_low hle]
    exact textOn_tellAll_plain htarget issuer calls _
  · exact messagesTo_emit_plain htarget issuer call _
  · exact fun message => PlainText.written_eq_some_iff
  · intro line said call hbrings threshold
    exact PlainText.written_output hbrings settings threshold

/-- A build that is shown as a whole, or only as far as it is a warning. -/
theorem threshold_filters_build :
    let calls : List Call := [.start 7 .info .build "building" [] 0, .warning "disk almost full",
      .update 7 .buildLogLine [.text "cc: 1 file"], .start 8 .info .realise "" [] 7,
      .report ⟨.debug, "retry", none, []⟩, .update 7 .progress [.natural 1], .stop 7]
    let after (threshold : Level) : Logbook :=
      tellAll .user (.plain 1 ⟨false, true, true, false⟩ .buffer) calls { threshold }
    Level.warn ≤ .vomit ∧ Target.output? 1 .buffer = some (.buffer 1)
      ∧ (after .vomit).textOn (.buffer 1)
        = "<5>building...\n<4>warning: disk almost full\n<3>cc: 1 file\n<7>debug: retry\n"
      ∧ (after .warn).textOn (.buffer 1) = "<4>warning: disk almost full\n<3>cc: 1 file\n" := by
  intro calls after
  have hle : Level.warn ≤ .vomit := by decide
  have htarget : Target.output? 1 .buffer = some (.buffer 1) := rfl
  obtain ⟨⟨hhigh, hlow⟩, -⟩ :=
    threshold_filters hle htarget ⟨false, true, true, false⟩ .user calls {}
  refine ⟨hle, htarget, ?_, ?_⟩
  · refine hhigh.trans ?_
    decide +kernel
  · refine hlow.trans ?_
    decide +kernel

end Logbook

end Worklog
