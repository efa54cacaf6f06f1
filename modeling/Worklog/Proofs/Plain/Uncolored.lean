import Worklog.Proofs.Plain.Carried

/-!
# Reports without colours

A report is put together from the texts that it holds and from texts of our own, and some of the
latter are coloured. Stripping reads it piece by piece: each piece starts and ends outside every
control sequence, so what it shows does not depend on the pieces around it. Where the texts of a
report hold no control characters of their own, it is the colours that go, and nothing else.

* `Terminal.Shows` — what a piece shows by itself.
* `shows_render` — a rendered report shows the report without its colours.
* `report_uncolored` — what a plain sink writes of a report where there is no terminal.
-/

namespace Worklog

namespace Terminal

/-! ## Pieces of text -/

/-- A control character: one of the ASCII ones, or of those that come right after these. -/
def isControl (c : Char) : Bool := c.toNat < 0x20 || (0x7f ≤ c.toNat && c.toNat ≤ 0x9f)

/-- A text that holds no control characters but line breaks. -/
def Legible (text : String) : Prop := ∀ c ∈ text.toList, c = '\n' ∨ isControl c = false

theorem legible_iff_all {text : String} :
    (text.toList.all fun c => c == '\n' || !isControl c) = true ↔ Legible text := by
  simp [Legible, List.all_eq_true]

instance (text : String) : Decidable (Legible text) := decidable_of_iff _ legible_iff_all

/-- What a piece of text shows by itself. It ends every control sequence that it opens. -/
structure Shows (piece shown : String) : Prop where
  stripped : stripFrom .ground piece.toList = shown.toList
  closed : modeAfter .ground piece.toList = .ground

variable {a b x y : String}

/-- What is shown of a text is what stripping leaves. -/
theorem Shows.strip_eq (h : Shows a x) : strip a = x := by
  rw [strip, h.stripped, String.ofList_toList]

/-- Pieces that follow each other show what each of them shows. -/
theorem Shows.append (h : Shows a x) (h' : Shows b y) : Shows (a ++ b) (x ++ y) := by
  constructor
  · rw [String.toList_append, stripFrom_append, h.stripped, h.closed, h'.stripped,
      String.toList_append]
  · rw [String.toList_append, modeAfter, List.foldl_append]
    exact (congrArg (modeAfter · b.toList) h.closed).trans h'.closed

/-- What is shown of parts in a row is shown part by part. -/
theorem shows_join {α : Type} {pieces : List α} {piece shown : α → String}
    (h : ∀ part ∈ pieces, Shows (piece part) (shown part)) :
    Shows (String.join (pieces.map piece)) (String.join (pieces.map shown)) := by
  induction pieces with
  | nil => exact ⟨rfl, rfl⟩
  | cons part pieces ih =>
    obtain ⟨hpart, hpieces⟩ := List.forall_mem_cons.mp h
    rw [List.map_cons, List.map_cons, String.join_cons, String.join_cons]
    exact hpart.append (ih hpieces)

theorem isShown_of_legible {c : Char} (h : c = '\n' ∨ isControl c = false) : isShown c = true := by
  rcases h with rfl | hcontrol
  · rfl
  · simp only [isControl, Bool.or_eq_false_iff, Bool.and_eq_false_iff, decide_eq_false_iff_not]
      at hcontrol
    simp only [isShown, Bool.or_eq_true, Bool.not_eq_true', Bool.or_eq_false_iff,
      Bool.and_eq_false_iff, decide_eq_false_iff_not]
    right
    omega

/-- A text without control characters shows itself. -/
theorem Legible.shows {text : String} (h : Legible text) : Shows text text := by
  have hescape : '\x1b' ∉ text.toList := fun hmem => by
    rcases h _ hmem with hbreak | hcontrol
    · exact absurd hbreak (by decide)
    · exact absurd hcontrol (by decide)
  refine ⟨?_, modeAfter_ground hescape⟩
  rw [stripFrom_ground hescape, List.filter_eq_self]
  exact fun c hc => isShown_of_legible (h c hc)

/-- Legible texts in a row are legible. -/
theorem Legible.append (h : Legible a) (h' : Legible b) : Legible (a ++ b) := by
  intro c hc
  rw [String.toList_append, List.mem_append] at hc
  exact hc.elim (h c) (h' c)

theorem legible_repr (n : Nat) : Legible (Nat.repr n) := by
  intro c hc
  rw [Nat.toList_repr] at hc
  have hdigit := Json.Numeral.isDigit_of_mem_digits hc
  simp only [Json.Numeral.isDigit, Bool.and_eq_true, decide_eq_true_eq] at hdigit
  have hlow : 0x30 ≤ c.toNat := hdigit.1
  have hhigh : c.toNat ≤ 0x39 := hdigit.2
  right
  simp only [isControl, Bool.or_eq_false_iff, Bool.and_eq_false_iff, decide_eq_false_iff_not]
  omega

/-- The codes of a colour show nothing. -/
theorem shows_start (color : Color) : Shows color.start "" := by
  cases color <;> exact ⟨by decide, by decide⟩

theorem shows_reset : Shows Color.reset "" := ⟨by decide, by decide⟩

/-- **A coloured text shows the text.** -/
theorem shows_paint (color : Color) {text : String} (h : Legible text) :
    Shows (color.paint text) text := by
  have hpainted := ((shows_start color).append h.shows).append shows_reset
  rwa [String.empty_append, String.append_empty] at hpainted

end Terminal

open Terminal (Legible Shows shows_paint)

namespace ErrorReport

/-! ## Reports without colours -/

/-- The texts that are not ours: what went wrong, what was being done, and the names of files. -/
def texts (report : ErrorReport) : List String :=
  report.message :: ((report.point.map (·.file)).toList ++ report.frames.flatMap Frame.texts)

def uncoloredPointLine (indent : String) : Option SourcePoint → String
  | none => ""
  | some point => "\n" ++ indent ++ "at " ++ point.display

def uncoloredFrameLines (frame : Frame) : String :=
  "\n       … " ++ frame.hint ++ uncoloredPointLine "         " frame.point

/-- The report for a reader without a terminal. -/
def uncolored (report : ErrorReport) (withTrace : Bool) : String :=
  (heading report.level).2 ++ " " ++ report.message ++ uncoloredPointLine "       " report.point
    ++ (if withTrace then String.join (report.stack.map uncoloredFrameLines) else "")

theorem legible_display {point : SourcePoint} (h : Legible point.file) : Legible point.display := by
  have hcolon : Legible ":" := by decide
  have hline := Terminal.legible_repr point.line.toNat
  exact (((h.append hcolon).append hline).append hcolon).append (Terminal.legible_repr _)

theorem shows_pointLine {indent : String} (hindent : Legible indent) {point : Option SourcePoint}
    (h : ∀ text ∈ (point.map (·.file)).toList, Legible text) :
    Shows (pointLine indent point) (uncoloredPointLine indent point) := by
  cases point with
  | none => exact ⟨rfl, rfl⟩
  | some point =>
    have hfile : Legible point.file := h _ List.mem_cons_self
    have hbreak : Legible ("\n" ++ indent ++ "at ") :=
      ((show Legible "\n" by decide).append hindent).append (by decide)
    exact hbreak.shows.append (shows_paint .blue (legible_display hfile))

/-- A frame shows its hint and its point, without the colours around them. -/
theorem shows_frameLines {frame : Frame} (h : ∀ text ∈ frame.texts, Legible text) :
    Shows (frameLines frame) (uncoloredFrameLines frame) := by
  obtain ⟨hhint, hpoint⟩ := List.forall_mem_cons.mp h
  have hlead : Legible ("\n       … " ++ frame.hint) :=
    (show Legible "\n       … " by decide).append hhint
  exact hlead.shows.append (shows_pointLine (by decide) hpoint)

theorem shows_heading (level : Level) :
    Shows ((heading level).1.paint (heading level).2) (heading level).2 :=
  shows_paint _ (by cases level <;> decide)

/-- **A rendered report shows the report without its colours.** -/
theorem shows_render {report : ErrorReport} (h : ∀ text ∈ report.texts, Legible text)
    (withTrace : Bool) : Shows (report.render withTrace) (report.uncolored withTrace) := by
  obtain ⟨hmessage, hothers⟩ := List.forall_mem_cons.mp h
  obtain ⟨hpoint, hframes⟩ := List.forall_mem_append.mp hothers
  have hspace : Legible " " := by decide
  have htop := (((shows_heading report.level).append hspace.shows).append hmessage.shows).append
    (shows_pointLine (show Legible "       " by decide) hpoint)
  refine htop.append ?_
  cases withTrace with
  | false => exact ⟨rfl, rfl⟩
  | true =>
    refine Terminal.shows_join fun frame hframe => shows_frameLines fun text htext => ?_
    exact hframes text (List.mem_flatMap.mpr ⟨frame, List.mem_reverse.mp hframe, htext⟩)

/--
**Where there is no terminal, a report is written without its colours.**

Let the texts of a report hold no control characters but line breaks, and let its level pass the
threshold. Then stripping takes every code that sets or ends a colour, and nothing else. A plain sink
writes one message and does not fail: the priority if a supervising process asks for it, the word for
the level, the message, the point on a line of its own, and, if frames are shown, each of them on a
line of its own with its point on the next one, the outermost first; and the end of the line.
-/
theorem report_uncolored {report : ErrorReport} (htexts : ∀ text ∈ report.texts, Legible text)
    {settings : Settings} (htty : settings.tty = false) {book : Logbook}
    (hlevel : report.level ≤ book.threshold) (issuer : Issuer) (id : Nat) (target : Target) :
    Terminal.strip (report.render settings.showTrace) = report.uncolored settings.showTrace
      ∧ (Logbook.emit issuer (.plain id settings target) (.report report) book).1 = .ok ()
      ∧ ∀ output,
        (Logbook.emit issuer (.plain id settings target) (.report report) book).2.textOn output
          = book.textOn output ++ if target.output? id = some output then
              PlainText.mark settings report.level ++ report.uncolored settings.showTrace ++ "\n"
            else "" := by
  have hstrip := (shows_render htexts settings.showTrace).strip_eq
  have hwritten : PlainText.written settings book.threshold (.report report)
      = some (PlainText.mark settings report.level ++ report.uncolored settings.showTrace
          ++ "\n") := by
    rw [PlainText.written_eq_some_iff]
    refine ⟨report.level, report.render settings.showTrace, rfl, hlevel, ?_⟩
    rw [PlainText.line, PlainText.body, htty, if_neg Bool.false_ne_true, hstrip]
  refine ⟨hstrip, rfl, fun output => ?_⟩
  rw [Logbook.textOn_emit_plain, Logbook.shown, List.filterMap_cons, hwritten]
  simp

/-- A report with points and frames, for a supervising process. -/
theorem report_uncolored_supervised :
    let report : ErrorReport := ⟨.error, "attribute 'foo' missing", some ⟨"default.nix", 3, 7⟩,
      [⟨"while calling 'bar'", some ⟨"lib.nix", 10, 2⟩⟩, ⟨"while evaluating\nthe shell", none⟩]⟩
    let settings : Settings := ⟨true, true, true, false⟩
    let after := (Logbook.emit .user (.plain 1 settings .buffer) (.report report) {}).2
    (∀ text ∈ report.texts, Legible text) ∧ settings.tty = false
      ∧ report.level ≤ ({} : Logbook).threshold
      ∧ after.textOn (.buffer 1)
        = "<3>error: attribute 'foo' missing\n       at default.nix:3:7"
          ++ "\n       … while evaluating\nthe shell"
          ++ "\n       … while calling 'bar'\n         at lib.nix:10:2\n" := by
  intro report settings after
  have htexts : ∀ text ∈ report.texts, Legible text := by decide +kernel
  have hlevel : report.level ≤ ({} : Logbook).threshold := by decide
  have htty : settings.tty = false := rfl
  obtain ⟨-, -, hwritten⟩ := report_uncolored htexts htty hlevel .user 1 .buffer
  refine ⟨htexts, htty, hlevel, ?_⟩
  rw [hwritten]
  decide +kernel

end ErrorReport

end Worklog
