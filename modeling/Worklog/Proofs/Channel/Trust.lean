import Worklog.Proofs.Channel.Alike
import Worklog.Proofs.Channel.History
import Worklog.Proofs.Roundtrip.Record

/-!
# What an untrusted program can bring about

A program that is not trusted may say what it likes. Through a channel it reaches no more than log
messages, the phases of the parent, and file transfers that it has started itself; and the starts
that it is refused leave no trace.

* `confined_run` — all calls of a run are permitted.
* `alike_thinned` — a run without the refused starts has the same answers and effects.
* `untrusted_run` — both.
-/

namespace Worklog

/-! ## Permitted calls -/

/-- What an untrusted program may bring about after these entries, in a channel under this
parent. -/
def Entry.Permitted (parent : UInt64) (before : List Entry) : Entry → Prop
  | .call _ _ (.start _ _ kind _ _ above) _ => kind = .fileTransfer ∧ above = parent
  | .call _ _ (.update id kind _) _ =>
    id = parent ∧ kind = .setPhase ∨ (id, .fileTransfer) ∈ underway before
  | .call _ _ (.stop id) _ => (id, .fileTransfer) ∈ underway before
  | .call _ _ (.log _ _) _ => True
  | .call _ _ (.report _) _ => False
  | .text .. => True
  | .note _ => True

/-- Each entry was permitted when it was made. -/
def Confined (parent : UInt64) (made : List Entry) : Prop :=
  ∀ before entry after, made = before ++ entry :: after → entry.Permitted parent before

variable {parent : UInt64} {issuer : Issuer} {sink : Sink} {call : Call}
variable {result : Except Failure Unit} {entry : Entry} {added made : List Entry}

/-- What a sink does to pass a call on is nothing that the channel has to answer for. -/
theorem Entry.IsPassedOn.permitted (h : entry.IsPassedOn sink) (before : List Entry) :
    entry.Permitted parent before := by
  cases h <;> trivial

theorem confined_nil : Confined parent [] := by
  intro before entry after h
  simp at h

/-- One more entry has to be permitted after those before it. -/
theorem Confined.snoc (h : Confined parent made) (hentry : entry.Permitted parent made) :
    Confined parent (made ++ [entry]) := by
  intro before last after hsplit
  -- Either the entry is the last one, or it stands among those that were confined before.
  rcases List.eq_nil_or_concat after with rfl | ⟨after, final, rfl⟩
  · obtain ⟨rfl, hlast⟩ := List.append_inj' hsplit rfl
    cases hlast
    exact hentry
  · refine h before last after ?_
    rw [List.concat_eq_append, ← List.cons_append, ← List.append_assoc] at hsplit
    exact (List.append_inj' hsplit rfl).1

theorem Confined.append_passedOn (h : Confined parent made)
    (hadded : ∀ entry ∈ added, entry.IsPassedOn sink) : Confined parent (made ++ added) := by
  induction added generalizing made with
  | nil => rwa [List.append_nil]
  | cons entry added ih =>
    rw [List.append_cons]
    exact ih (h.snoc ((hadded entry List.mem_cons_self).permitted _))
      fun other hother => hadded other (List.mem_cons_of_mem _ hother)

theorem Confined.append_notes (h : Confined parent made) (hadded : ∀ entry ∈ added, entry.isNote) :
    Confined parent (made ++ added) :=
  h.append_passedOn fun entry hentry =>
    entry.isPassedOn_of_isNote (hadded entry hentry) .standard

/-- Of what comes from a call, only the call itself can be forbidden. -/
theorem Confined.told (h : Confined parent made) (htold : Told issuer sink call result added)
    (hcall : ∀ before, underway before = underway made →
      (Entry.call issuer sink call result).Permitted parent before) :
    Confined parent (made ++ added) := by
  obtain ⟨passed, notes, rfl, hpassed, hnotes⟩ := htold
  rw [List.append_cons, ← List.append_assoc, ← List.append_assoc]
  exact ((h.append_passedOn hpassed).snoc
    (hcall _ (underway_append_of_isPassedOn hpassed))).append_notes hnotes

/-! ## Untrusted turns -/

namespace Channel

variable {channel after : Channel} {book : Logbook} {message? : Option Wire.Message}

/-- What holds of a channel that no trusted line has reached. -/
structure Guarded (channel : Channel) (made : List Entry) : Prop where
  kept : channel.Kept made
  /-- Nothing but file transfers is underway. -/
  transfers : ∀ started ∈ underway made, started.2 = .fileTransfer
  confined : Confined channel.parent made

/-- What is registered is a file transfer that is underway. -/
theorem Guarded.mem_underway (h : Guarded channel made) {remote : UInt64} {activity : Activity}
    (hfind : channel.find remote = some activity) :
    (activity.id, .fileTransfer) ∈ underway made := by
  have hid : activity.id ∈ channel.ids := List.mem_map.mpr ⟨_, h.kept.find_iff.mp hfind, rfl⟩
  obtain ⟨⟨id, kind⟩, hstarted, rfl⟩ := List.mem_map.mp (h.kept.same.mem_iff.mp hid)
  obtain rfl : kind = .fileTransfer := h.transfers _ hstarted
  exact hstarted

/-- A call that neither starts nor stops an activity. -/
theorem Guarded.told (h : Guarded channel made) (hkept : channel.Kept (made ++ added))
    (htold : Told issuer sink call result added)
    (htrack : ∀ l, (Entry.call issuer sink call result).track l = l)
    (hcall : ∀ before, underway before = underway made →
      (Entry.call issuer sink call result).Permitted channel.parent before) :
    Guarded channel (made ++ added) := by
  refine ⟨hkept, ?_, h.confined.told htold hcall⟩
  rw [htold.underway, htrack]
  exact h.transfers

/-- **No effect of an untrusted turn breaks the guard.** -/
theorem Effect.guarded (heffect : Effect channel false book message? after added)
    (h : Guarded channel made) : Guarded after (made ++ added) := by
  have hkept := heffect.kept h.kept
  cases heffect with
  | quiet notes rejects absent =>
    refine ⟨hkept, ?_, h.confined.append_notes notes⟩
    rw [underway_append_notes notes]
    exact h.transfers
  | logged plain told => exact h.told hkept told (fun _ => rfl) fun _ _ => trivial
  | phase told => exact h.told hkept told (fun _ => rfl) fun _ _ => .inl ⟨rfl, rfl⟩
  | updated running told =>
    refine h.told hkept told (fun _ => rfl) fun before hbefore => .inr ?_
    rw [hbefore]
    exact h.mem_underway running
  | failed allowed rejects told =>
    refine h.told hkept told (fun _ => rfl) fun _ _ => ⟨?_, rfl⟩
    simpa using allowed
  | @admitted remote level kind text origin values fields _ admits told =>
    obtain rfl : kind = .fileTransfer := by
      cases admits with
      | start allowed absent decoded taken => simpa using allowed
    refine ⟨hkept, ?_, h.confined.told told fun _ _ => ⟨rfl, rfl⟩⟩
    rw [told.underway, Entry.track]
    intro started hstarted
    rcases List.mem_append.mp hstarted with hstarted | hstarted
    · exact h.transfers started hstarted
    · rw [List.mem_singleton.mp hstarted]
  | stopped running told =>
    refine ⟨hkept, ?_, h.confined.told told fun before hbefore => ?_⟩
    · rw [told.underway, Entry.track]
      exact fun started hstarted => h.transfers started (List.mem_of_mem_eraseP hstarted)
    · show _ ∈ underway before
      rw [hbefore]
      exact h.mem_underway running

end Channel

/-! ## Untrusted runs -/

namespace Progress

theorem guarded_fresh (parent : UInt64) (phaseSink : Sink) (target : Option Sink)
    (book : Logbook) (place : UInt64 → Nat) :
    (fresh parent phaseSink target book place).channel.Guarded [] :=
  ⟨kept_fresh parent phaseSink target book place, by simp [underway], confined_nil⟩

/-- In a run of untrusted turns the registry stays guarded by what was made. -/
theorem guarded_run {p : Progress} (h : p.channel.Guarded p.made) {turns : List Turn}
    (huntrusted : ∀ turn ∈ turns, turn.trusted = false) :
    (p.run turns).channel.Guarded (p.run turns).made := by
  induction turns generalizing p with
  | nil => exact h
  | cons turn turns ih =>
    obtain ⟨hturn, hturns⟩ := List.forall_mem_cons.mp huntrusted
    obtain ⟨added, hmade, heffect⟩ := p.effect_step turn
    rw [hturn] at heffect
    exact ih (hmade ▸ heffect.guarded h) hturns

theorem parent_run (p : Progress) (turns : List Turn) :
    (p.run turns).channel.parent = p.channel.parent := by
  induction turns generalizing p with
  | nil => rfl
  | cons turn turns ih =>
    obtain ⟨added, -, heffect⟩ := p.effect_step turn
    rw [run_cons, ih, heffect.parent_eq]

/-- **All that an untrusted program brings about is permitted, to the end of its channel.** -/
theorem confined_run {p : Progress} (h : p.channel.Guarded p.made) {turns : List Turn}
    (huntrusted : ∀ turn ∈ turns, turn.trusted = false) :
    Confined p.channel.parent (p.run turns).close.made := by
  -- The end of the channel is a run of stops, and those are no more trusted than the rest.
  have hguarded := guarded_run h huntrusted
  have hstops : ∀ turn ∈ stopsFor (p.run turns).channel.leaving, turn.trusted = false := by
    intro turn hturn
    obtain ⟨entry, -, rfl⟩ := List.mem_map.mp hturn
    rfl
  rw [close_eq_run hguarded.kept, ← parent_run p turns,
    ← parent_run _ (stopsFor (p.run turns).channel.leaving)]
  exact (guarded_run hguarded hstops).confined

/-! ## Runs without the refused starts -/

/-- A line that starts an activity which an untrusted program may not start. -/
def IsRefused (line : String) : Prop :=
  ∃ remote level kind text parent values,
    Channel.heard? line = some (.start remote level kind text parent values)
      ∧ kind ≠ .fileTransfer

/-- Two runs that cannot be told apart by their effects. -/
structure Alike (p q : Progress) : Prop where
  channel : p.channel = q.channel
  book : p.book.Alike q.book

theorem Alike.close {p q : Progress} (h : p.Alike q) : p.close.book.Alike q.close.book := by
  show (p.channel.close p.book).Alike (q.channel.close q.book)
  rw [h.channel]
  exact Channel.close_congr _ h.book

/-- The same line gives the same result in two runs that are alike, and leaves them alike. -/
theorem alike_step {p q : Progress} (h : p.Alike q) (line source : String) (trusted : Bool) :
    ∃ answer, (p.step (.line line source trusted)).results = p.results ++ [answer]
      ∧ (q.step (.line line source trusted)).results = q.results ++ [answer]
      ∧ (p.step (.line line source trusted)).Alike (q.step (.line line source trusted)) := by
  obtain ⟨hresult, hchannel, hbook⟩ := q.channel.handleLine_congr line source trusted h.book
  rw [← h.channel] at hresult hchannel hbook
  refine ⟨_, rfl, ?_, ?_⟩
  · rw [hresult, h.channel]
    rfl
  · refine ⟨?_, ?_⟩
    · show (p.channel.handleLine line source trusted p.book).channel = _
      rw [hchannel, h.channel]
      rfl
    · show (p.channel.handleLine line source trusted p.book).book.Alike
        (q.channel.handleLine line source trusted q.book).book
      rw [← h.channel]
      exact hbook

/-- A refused start leaves a note. -/
theorem alike_step_refused {p q : Progress} (h : p.Alike q) {line : String}
    (hrefused : IsRefused line) (source : String) :
    (p.step (.line line source false)).results = p.results ++ [.ok true]
      ∧ (p.step (.line line source false)).Alike q := by
  obtain ⟨remote, level, kind, text, parent, values, hheard, hkind⟩ := hrefused
  have hrefuses : Channel.mayStart false kind = false := by simpa using hkind
  have hhandle : p.channel.handleLine line source false p.book
      = ⟨.ok true, p.channel, p.book.addNote (.startRefused remote kind)⟩ := by
    rw [Channel.handleLine_of_heard hheard, Channel.handle, if_pos hrefuses]
  simp only [step, enter, hhandle]
  exact ⟨trivial, h.channel, (Logbook.alike_addNote _ _).trans h.book⟩

/-- **Refused starts can be left out.** The flags say which lines stay. -/
theorem alike_thinned {p q : Progress} (h : p.Alike q) (lines : List (Bool × String × String))
    (hrefused : ∀ line ∈ lines, line.1 = false → IsRefused line.2.1) :
    ∃ answers, (p.run (Turn.ofLines false (lines.map Prod.snd))).results = p.results ++ answers
      ∧ answers.length = lines.length
      ∧ (q.run (Turn.ofLines false ((lines.filter Prod.fst).map Prod.snd))).results
        = q.results ++ ((lines.zip answers).filter fun answer => answer.1.1).map Prod.snd
      ∧ (p.run (Turn.ofLines false (lines.map Prod.snd))).Alike
        (q.run (Turn.ofLines false ((lines.filter Prod.fst).map Prod.snd))) := by
  -- A line that stays is a step of both runs, one that goes is a step of the first run only.
  induction lines generalizing p q with
  | nil => exact ⟨[], by simp [Turn.ofLines], rfl, by simp [Turn.ofLines], h⟩
  | cons line lines ih =>
    obtain ⟨hline, hlines⟩ := List.forall_mem_cons.mp hrefused
    obtain ⟨stays, text, source⟩ := line
    cases stays with
    | true =>
      obtain ⟨answer, hp, hq, hstep⟩ := alike_step h text source false
      obtain ⟨answers, hanswers, hlength, hthinned, hrest⟩ := ih hstep hlines
      refine ⟨answer :: answers, ?_, by simpa using hlength, ?_, hrest⟩
      · rw [List.map_cons, Turn.ofLines_cons, run_cons, hanswers, hp, List.append_assoc,
          List.singleton_append]
      · rw [List.filter_cons_of_pos rfl, List.map_cons, Turn.ofLines_cons, run_cons, hthinned, hq,
          List.append_assoc, List.zip_cons_cons, List.filter_cons_of_pos rfl, List.map_cons,
          List.singleton_append]
    | false =>
      obtain ⟨hp, hstep⟩ := alike_step_refused h (hline rfl) source
      obtain ⟨answers, hanswers, hlength, hthinned, hrest⟩ := ih hstep hlines
      refine ⟨.ok true :: answers, ?_, by simpa using hlength, hthinned, hrest⟩
      rw [List.map_cons, Turn.ofLines_cons, run_cons, hanswers, hp, List.append_assoc,
        List.singleton_append]

/--
**An untrusted program stays within its bounds.**

On a new channel that only untrusted lines and messages reach, whatever else happens to the book,
every call is permitted: also when the channel is let go of, and whichever calls fail. And of any
lines, those that start something else than a file transfer can be left out: this changes neither
the answers to the other lines nor what is registered, and the books differ in notes only, so that
every sink hears the same calls and the next number is the same.
-/
theorem untrusted_run (parent : UInt64) (phaseSink : Sink) (target : Option Sink)
    (book : Logbook) (place : UInt64 → Nat) :
    (∀ turns : List Turn, (∀ turn ∈ turns, turn.trusted = false) →
      Confined parent ((fresh parent phaseSink target book place).run turns).close.made)
    ∧ ∀ lines : List (Bool × String × String),
      (∀ line ∈ lines, line.1 = false → IsRefused line.2.1) →
      let full := (fresh parent phaseSink target book place).run
        (Turn.ofLines false (lines.map Prod.snd))
      let thinned := (fresh parent phaseSink target book place).run
        (Turn.ofLines false ((lines.filter Prod.fst).map Prod.snd))
      full.results.length = lines.length
        ∧ thinned.results = ((lines.zip full.results).filter fun answer => answer.1.1).map Prod.snd
        ∧ full.channel = thinned.channel
        ∧ full.book.Alike thinned.book
        ∧ full.close.book.Alike thinned.close.book := by
  refine ⟨fun turns huntrusted => ?_, fun lines hrefused => ?_⟩
  · exact confined_run (guarded_fresh parent phaseSink target book place) huntrusted
  · obtain ⟨answers, hanswers, hlength, hthinned, halike⟩ :=
      alike_thinned ⟨rfl, Logbook.alike_refl book⟩ lines hrefused
        (p := fresh parent phaseSink target book place)
        (q := fresh parent phaseSink target book place)
    have hfull : ((fresh parent phaseSink target book place).run
        (Turn.ofLines false (lines.map Prod.snd))).results = answers := hanswers
    refine ⟨by rw [hfull, hlength], ?_, halike.channel, halike.book, halike.close⟩
    rw [hfull]
    exact hthinned

/-- The start of a build, and a line that was printed. -/
def spoof : List (Bool × String × String) :=
  [(false, (Wire.Record.start 1 .info .build "spoof" 0 []).line, "peer"), (true, "hello", "peer")]

theorem untrusted_run_spoof :
    let start := fresh 500 .standard none {}
    let transfer := Turn.message (.start 3 .info .fileTransfer "download" 0 none) false
    Confined 500 (start.run [transfer]).close.made
      ∧ (start.run (Turn.ofLines false (spoof.map Prod.snd))).channel
        = (start.run (Turn.ofLines false [("hello", "peer")])).channel := by
  have hrefused : ∀ line ∈ spoof, line.1 = false → IsRefused line.2.1 := by
    intro line hline hstays
    rcases List.mem_cons.mp hline with rfl | hline
    · exact ⟨_, _, _, _, _, _, Channel.heard?_of_ofLine? (Wire.ofLine?_line _), by decide⟩
    · rw [List.mem_singleton.mp hline] at hstays
      simp at hstays
  obtain ⟨hconfined, hthinned⟩ := untrusted_run 500 .standard none {} fun _ => 0
  exact ⟨hconfined _ (by simp [Turn.trusted]), (hthinned spoof hrefused).2.2.1⟩

end Progress

end Worklog
