import Worklog.Call
import Worklog.Terminal.Strip

/-!
# Plain text

How calls are written for a human reader: a call that has something to say becomes one message, if
the threshold lets it pass. Without a terminal, control sequences are removed; with a supervising
process, each message starts with its priority.

* `written_eq` — a level that is looked at twice could as well be looked at once.
* `written_eq_some_iff` — a call writes at most one message, which ends its line.
-/

namespace Worklog.PlainText

/-- The priority of a level, as a supervising process counts. -/
def priority : Level → Char
  | .error => '3'
  | .warn => '4'
  | .notice | .info => '5'
  | .talkative | .chatty => '6'
  | .debug | .vomit => '7'

/-- The priority in front of a message. -/
def mark (settings : Settings) (level : Level) : String :=
  if settings.systemd then String.ofList ['<', priority level, '>'] else ""

/-- A message as the reader sees it. -/
def body (settings : Settings) (text : String) : String :=
  if settings.tty then text else Terminal.strip text

/-- A whole message with the end of its line. -/
def line (settings : Settings) (level : Level) (text : String) : String :=
  mark settings level ++ body settings text ++ "\n"

/-- A message under a threshold. -/
def message (settings : Settings) (threshold level : Level) (text : String) : Option String :=
  if level.passes threshold then some (line settings level text) else none

/-- What a call writes under a threshold. The level of a report or a start is looked at before its
text is put together, and then again with the text, as with every message. -/
def written (settings : Settings) (threshold : Level) (call : Call) : Option String :=
  if call.levelBefore?.all fun level => level.passes threshold then
    match call.plain settings with
    | none => none
    | some (level, text) => message settings threshold level text
  else none

/-- **The threshold decides once.** Both times the level is the same. -/
theorem written_eq (settings : Settings) (threshold : Level) (call : Call) :
    written settings threshold call = match call.plain settings with
      | none => none
      | some (level, text) => message settings threshold level text := by
  unfold written
  cases h : call.plain settings with
  | none => exact ite_self none
  | some said =>
    rcases Call.levelBefore?_of_plain h with hnone | hlevel
    · rw [hnone]
      rfl
    · rw [hlevel, Option.all_some]
      simp only [message]
      split <;> rfl

theorem written_eq_some_iff {settings : Settings} {threshold : Level} {call : Call}
    {text : String} :
    written settings threshold call = some text ↔
      ∃ level said, call.plain settings = some (level, said) ∧ level ≤ threshold
        ∧ text = line settings level said := by
  rw [written_eq]
  cases h : call.plain settings with
  | none => simp
  | some said =>
    obtain ⟨level, said⟩ := said
    simp only [message, Level.passes, decide_eq_true_eq, Option.ite_none_right_eq_some,
      Option.some.injEq, Prod.mk.injEq]
    constructor
    · rintro ⟨hle, rfl⟩
      exact ⟨level, said, ⟨rfl, rfl⟩, hle, rfl⟩
    · rintro ⟨_, _, ⟨rfl, rfl⟩, hle, rfl⟩
      exact ⟨hle, rfl⟩

end Worklog.PlainText
