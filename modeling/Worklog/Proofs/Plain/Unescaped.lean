import Worklog.Proofs.Plain.Stripped
import Worklog.Proofs.Plain.Threshold

/-!
# Messages with and without a terminal

Without a terminal, messages are stripped. A message that holds no escape character and no high
control character has no control sequence to lose. It loses its ASCII control characters all the same,
a tab or a carriage return as well as a bell; only its line breaks are kept.

* `strip_unescaped` — what is left of a text without control sequences.
* `written_without_terminal` — what is written without a terminal, from what is written on one.
* `without_terminal` — the same for the text that a reader finds.
* `without_terminal_tab` — a tab is lost.
-/

namespace Worklog

namespace Terminal

/-- An ASCII control character before the space, other than a line break. -/
def isLowControl (c : Char) : Bool := c.toNat < 0x20 && c ≠ '\n'

/-- A text without its low control characters. -/
def withoutLow (text : String) : String :=
  String.ofList (text.toList.filter fun c => !isLowControl c)

/-- A text that holds no low control characters. -/
def NoLow (text : String) : Prop := ∀ c ∈ text.toList, isLowControl c = false

/-- A text that holds none of the characters that control sequences begin with. -/
structure Unescaped (text : String) : Prop where
  escape : '\x1b' ∉ text.toList
  high : ∀ c ∈ text.toList, isHighControl c = false

instance (text : String) : Decidable (NoLow text) :=
  decidable_of_iff (text.toList.all fun c => !isLowControl c) (by simp [NoLow])

instance (text : String) : Decidable (Unescaped text) :=
  decidable_of_iff (text.toList.all fun c => c ≠ '\x1b' && !isHighControl c) (by
    simp only [List.all_eq_true, Bool.and_eq_true, decide_eq_true_eq, Bool.not_eq_true']
    constructor
    · intro h
      exact ⟨fun hmem => (h _ hmem).1 rfl, fun c hc => (h c hc).2⟩
    · intro h c hc
      exact ⟨fun heq => h.escape (heq ▸ hc), h.high c hc⟩)

theorem withoutLow_append (a b : String) : withoutLow (a ++ b) = withoutLow a ++ withoutLow b := by
  simp [withoutLow]

theorem noLow_append_iff {a b : String} : NoLow (a ++ b) ↔ NoLow a ∧ NoLow b := by
  rw [NoLow, String.toList_append, List.forall_mem_append]
  rfl

theorem withoutLow_eq_self_iff {text : String} : withoutLow text = text ↔ NoLow text := by
  rw [withoutLow, ← String.toList_inj, String.toList_ofList, List.filter_eq_self]
  simp [NoLow]

theorem Unescaped.append {a b : String} (h : Unescaped a) (h' : Unescaped b) :
    Unescaped (a ++ b) := by
  constructor
  · rw [String.toList_append, List.mem_append, not_or]
    exact ⟨h.escape, h'.escape⟩
  · rw [String.toList_append, List.forall_mem_append]
    exact ⟨h.high, h'.high⟩

/-- **A text without control sequences loses its low control characters**, and nothing else. -/
theorem strip_unescaped {text : String} (h : Unescaped text) : strip text = withoutLow text := by
  rw [strip, stripFrom_ground h.escape, withoutLow]
  congr 1
  refine List.filter_congr fun c hc => ?_
  have hhigh := h.high c hc
  rw [isHighControl] at hhigh
  by_cases hbreak : c = '\n'
  · simp [isShown, isLowControl, hbreak]
  · simp [isShown, isLowControl, hbreak, hhigh]

end Terminal

open Terminal (NoLow Unescaped noLow_append_iff strip_unescaped withoutLow withoutLow_append
  withoutLow_eq_self_iff)

namespace Call

/-- The calls that bring a line, as a message or as output of a build. -/
inductive Brings (line : String) : Call → Prop where
  | message (level : Level) : Brings line (.log level line)
  | output {said : String} {call : Call} (h : BringsOutput line said call) : Brings line call

variable {settings : Settings} {call : Call} {level : Level} {line said : String}

theorem plain_withTty (settings : Settings) (tty : Bool) (call : Call) :
    call.plain { settings with tty } = call.plain settings := by
  cases call <;> rfl

/-- What is said then is the line, after a heading without control characters if there is one. -/
theorem Brings.exists_heading (hcall : call.Brings line)
    (hplain : call.plain settings = some (level, said)) :
    ∃ heading, said = heading ++ line ∧ Unescaped heading ∧ NoLow heading := by
  have hnone : Unescaped "" ∧ NoLow "" := ⟨by decide, by decide⟩
  have hhook : Unescaped "post-build-hook: " ∧ NoLow "post-build-hook: " :=
    ⟨by decide, by decide⟩
  cases hcall with
  | message _ =>
    obtain ⟨-, rfl⟩ := Prod.mk.inj (Option.some.inj hplain)
    exact ⟨"", String.empty_append.symm, hnone⟩
  | output hbrings =>
    rw [hbrings.plain_eq] at hplain
    split at hplain
    next =>
      obtain ⟨-, rfl⟩ := Prod.mk.inj (Option.some.inj hplain)
      cases hbrings with
      | build _ _ => exact ⟨"", String.empty_append.symm, hnone⟩
      | postBuild _ _ => exact ⟨"post-build-hook: ", rfl, hhook⟩
    next => simp at hplain

end Call

namespace PlainText

variable {settings : Settings} {threshold : Level} {call : Call} {text line : String}

theorem withoutLow_mark (settings : Settings) (level : Level) :
    withoutLow (mark settings level) = mark settings level := by
  rw [mark]
  split
  · cases level <;> decide
  · decide

/-- Without a terminal a message is written without its low control characters. -/
theorem line_without_terminal (h : Unescaped text) (settings : Settings) (level : Level) :
    PlainText.line { settings with tty := false } level text
      = withoutLow (PlainText.line { settings with tty := true } level text) := by
  have hmark : withoutLow (mark { settings with tty := true } level)
      = mark { settings with tty := false } level := withoutLow_mark settings level
  have hoff : body { settings with tty := false } text = withoutLow text := strip_unescaped h
  have hon : body { settings with tty := true } text = text := rfl
  have hbreak : withoutLow "\n" = "\n" := by decide
  rw [PlainText.line, PlainText.line, withoutLow_append, withoutLow_append, hmark, hoff, hon, hbreak]

theorem written_without_terminal (hcall : call.Brings line) (h : Unescaped line)
    (settings : Settings) (threshold : Level) :
    written { settings with tty := false } threshold call
      = (written { settings with tty := true } threshold call).map withoutLow := by
  have hon : call.plain { settings with tty := true } = call.plain settings :=
    call.plain_withTty settings true
  have hoff : call.plain { settings with tty := false } = call.plain settings :=
    call.plain_withTty settings false
  cases hplain : call.plain settings with
  | none =>
    rw [written_eq, written_eq, hon, hoff, hplain]
    rfl
  | some spoken =>
    obtain ⟨level, said⟩ := spoken
    rw [hplain] at hon hoff
    by_cases hlevel : level ≤ threshold
    · obtain ⟨heading, rfl, hheading, -⟩ := hcall.exists_heading hplain
      rw [written_of_plain hon hlevel, written_of_plain hoff hlevel,
        line_without_terminal (hheading.append h), Option.map_some]
    · rw [written_of_not_le hon hlevel, written_of_not_le hoff hlevel, Option.map_none]

/-- What is written on a terminal has low control characters iff the line has some. -/
theorem noLow_written_iff (hcall : call.Brings line) {message : String}
    (hwritten : written { settings with tty := true } threshold call = some message) :
    NoLow message ↔ NoLow line := by
  obtain ⟨level, said, hplain, -, rfl⟩ := written_eq_some_iff.mp hwritten
  obtain ⟨heading, rfl, -, hheading⟩ := hcall.exists_heading hplain
  have hmark : NoLow (mark { settings with tty := true } level) :=
    withoutLow_eq_self_iff.mp (withoutLow_mark _ level)
  have hbreak : NoLow "\n" := by decide
  have hbody : body { settings with tty := true } (heading ++ line) = heading ++ line := rfl
  rw [PlainText.line, hbody, noLow_append_iff, noLow_append_iff, noLow_append_iff,
    and_iff_left hbreak, and_iff_right hmark, and_iff_right hheading]

end PlainText

namespace Logbook

open PlainText (noLow_written_iff written written_without_terminal)

/-- What a call adds to an output is what it writes, if it writes there. -/
theorem shown_singleton (id : Nat) (settings : Settings) (target : Target) (threshold : Level)
    (output : Output) (call : Call) :
    shown id settings target threshold output [call]
      = if target.output? id = some output then (written settings threshold call).getD "" else "" := by
  rw [shown, List.filterMap_cons]
  cases written settings threshold call <;> simp

/--
**Without a terminal, a line without control sequences loses its low control characters.**

Let a line hold no escape character and no high control character, and let it be brought as a message
or as output of a build, to a plain sink with any settings, after anything that may have happened
before. What is added to an output without a terminal is what is added on one, without the ASCII
control characters other than line breaks. So it is the same iff nothing is added at all or the line
has none of them.
-/
theorem without_terminal {line : String} (h : Unescaped line) {call : Call}
    (hcall : call.Brings line) (issuer : Issuer) (id : Nat) (settings : Settings) (target : Target)
    (output : Output) (book : Logbook) :
    let told (tty : Bool) : Logbook :=
      (emit issuer (.plain id { settings with tty } target) call book).2
    ∃ added, (told true).textOn output = book.textOn output ++ added
      ∧ (told false).textOn output = book.textOn output ++ withoutLow added
      ∧ ((told false).textOn output = (told true).textOn output
        ↔ added = "" ∨ NoLow line) := by
  intro told
  have htold (tty : Bool) : (told tty).textOn output = book.textOn output
      ++ if target.output? id = some output then
          (written { settings with tty } book.threshold call).getD "" else "" := by
    rw [← shown_singleton]
    exact textOn_emit_plain issuer call book output
  have hempty : withoutLow "" = "" := by decide
  rw [htold, htold, written_without_terminal hcall h]
  split
  next =>
    cases hwritten : written { settings with tty := true } book.threshold call with
    | none => exact ⟨"", rfl, by simp [hempty], by simp⟩
    | some message =>
      have hmessage : message ≠ "" := by
        obtain ⟨level, said, -, -, rfl⟩ := PlainText.written_eq_some_iff.mp hwritten
        simp [PlainText.line]
      refine ⟨message, rfl, rfl, ?_⟩
      rw [Option.map_some, Option.getD_some, Option.getD_some, String.append_right_inj,
        withoutLow_eq_self_iff, noLow_written_iff hcall hwritten, or_iff_right hmessage]
  next => exact ⟨"", rfl, by simp [hempty], by simp⟩

/-- A hook that writes its letters above ASCII, but also a tab and a carriage return. -/
theorem without_terminal_hook :
    let line := "größe\tok\r"
    let call : Call := .update 7 .postBuildLogLine [.text line]
    let told (tty : Bool) : Logbook :=
      (emit .channel (.plain 1 ⟨false, true, true, tty⟩ .buffer) call {}).2
    Unescaped line ∧ call.Brings line
      ∧ (told true).textOn (.buffer 1) = "<3>post-build-hook: größe\tok\r\n"
      ∧ (told false).textOn (.buffer 1) = "<3>post-build-hook: größeok\n" := by
  intro line call told
  have hline : Unescaped line := by decide
  have hcall : call.Brings line := .output (.postBuild 7 [])
  obtain ⟨added, hon, hoff, -⟩ :=
    without_terminal hline hcall .channel 1 ⟨false, true, true, false⟩ .buffer (.buffer 1) {}
  have hempty : ({} : Logbook).textOn (.buffer 1) = "" := rfl
  have hwritten : (told true).textOn (.buffer 1) = "<3>post-build-hook: größe\tok\r\n" := by
    decide +kernel
  obtain rfl : added = "<3>post-build-hook: größe\tok\r\n" := by
    rw [← hwritten, hon, hempty, String.empty_append]
  refine ⟨hline, hcall, hwritten, ?_⟩
  rw [hoff, hempty, String.empty_append]
  decide +kernel

/-- A tab opens no control sequence, and is lost all the same. -/
theorem without_terminal_tab :
    let told (tty : Bool) : Logbook :=
      (emit .user (.plain 1 ⟨false, false, false, tty⟩ .buffer) (.log .info "a\tb") {}).2
    Unescaped "a\tb" ∧ (told false).textOn (.buffer 1) ≠ (told true).textOn (.buffer 1) := by
  intro told
  exact ⟨by decide, by decide +kernel⟩

end Logbook

end Worklog
