import Worklog.Logbook

/-!
# What calls add to the book

A call adds its own entry, and before it what the sink writes or passes on to the sinks behind it.

* `keptOn_add` — what a sink keeps of one more entry.
* `emit_entries` — what a call adds.
-/

namespace Worklog

/-! ## Entries -/

/-- The sinks that a sink sends its lines on to. -/
def Sink.behinds : Sink → List Sink
  | .wire _ _ behind => behind :: behind.behinds
  | _ => []

/-- An entry that a call on a sink may bring about before its own: text and notes, and the lines
that go to the sinks behind. -/
inductive Entry.IsPassedOn (sink : Sink) : Entry → Prop where
  | line {issuer : Issuer} {behind : Sink} {text : String} {result : Except Failure Unit}
      (behinds : behind ∈ sink.behinds) :
    IsPassedOn sink (.call issuer behind (.log .error text) result)
  | text (output : Output) (text : String) : IsPassedOn sink (.text output text)
  | note (note : Note) : IsPassedOn sink (.note note)

/-- What is passed on by the sink behind, is passed on. -/
theorem Entry.IsPassedOn.wire {entry : Entry} {behind : Sink} (h : entry.IsPassedOn behind)
    (id : Nat) (showTrace : Bool) : entry.IsPassedOn (.wire id showTrace behind) := by
  cases h with
  | line behinds => exact .line (List.mem_cons_of_mem _ behinds)
  | text output text => exact .text output text
  | note note => exact .note note

def Entry.isNote : Entry → Bool
  | .note _ => true
  | _ => false

/-- Notes come with calls on any sink. -/
theorem Entry.isPassedOn_of_isNote {entry : Entry} (h : entry.isNote) (sink : Sink) :
    entry.IsPassedOn sink := by
  cases entry with
  | note note => exact .note note
  | call issuer sink call result => simp [isNote] at h
  | text output text => simp [isNote] at h

/-- The call that this sink keeps. -/
def Entry.keptOn? (sink : Nat) (entry : Entry) : Option Call :=
  entry.kept?.bind fun kept => if kept.1 = sink then some kept.2 else none

namespace Logbook

/-! ## The entries of a book -/

@[simp] theorem addNote_entries (book : Logbook) (note : Note) :
    (book.addNote note).entries = book.entries ++ [.note note] := rfl

@[simp] theorem add_entries (book : Logbook) (entry : Entry) :
    (book.add entry).entries = book.entries ++ [entry] := rfl

/-- What a sink has kept can be read off entry by entry. -/
theorem keptOn_eq (book : Logbook) (sink : Nat) :
    book.keptOn sink = book.entries.filterMap (Entry.keptOn? sink) := by
  rw [keptOn, List.filterMap_filterMap]
  rfl

/-- One more entry adds one call to what a sink has kept, or none. -/
@[simp] theorem keptOn_add (book : Logbook) (entry : Entry) (sink : Nat) :
    (book.add entry).keptOn sink = book.keptOn sink ++ (entry.keptOn? sink).toList := by
  rw [keptOn_eq, add_entries, List.filterMap_append, ← keptOn_eq, List.filterMap_cons]
  cases entry.keptOn? sink <;> rfl

@[simp] theorem keptOn_addNote (book : Logbook) (note : Note) (sink : Nat) :
    (book.addNote note).keptOn sink = book.keptOn sink := by
  rw [addNote, keptOn_add]
  exact List.append_nil _

@[simp] theorem keptOn_nextId (book : Logbook) (sink : Nat) :
    book.nextId.2.keptOn sink = book.keptOn sink := rfl

/-! ## What a call adds -/

/-- What is written is one entry, a text or the note that it is lost. -/
theorem write_entries (book : Logbook) (id : Nat) (target : Target) (text : String)
    (sink : Sink) :
    ∃ entry, (book.write id target text).entries = book.entries ++ [entry]
      ∧ entry.IsPassedOn sink := by
  cases target with
  | buffer => exact ⟨_, rfl, .text _ _⟩
  | stderr => exact ⟨_, rfl, .text _ _⟩
  | closed => exact ⟨_, rfl, .note _⟩

/-- **A call adds what it passes on, and then itself.** -/
theorem emit_entries (issuer : Issuer) (sink : Sink) (call : Call) (book : Logbook) :
    ∃ passed, (emit issuer sink call book).2.entries
        = book.entries ++ (passed ++ [.call issuer sink call (emit issuer sink call book).1])
      ∧ ∀ entry ∈ passed, entry.IsPassedOn sink := by
  induction sink generalizing call with
  | recorder id refuses => exact ⟨[], rfl, by simp⟩
  | fuse id capacity => exact ⟨[], rfl, by simp⟩
  | plain id settings target =>
    simp only [emit]
    cases PlainText.written settings book.threshold call with
    | none => exact ⟨[], rfl, by simp⟩
    | some text =>
      obtain ⟨entry, hentry, hpassed⟩ :=
        write_entries book id target text (.plain id settings target)
      refine ⟨[entry], ?_, by simpa using hpassed⟩
      rw [add_entries, hentry, List.append_assoc]
  | wire id showTrace behind ih =>
    -- The sink behind is told first, so its entry stands before the one of the wire.
    obtain ⟨passed, hentries, hpassed⟩ := ih (.log .error (call.record showTrace).line)
    refine ⟨passed ++ [.call issuer behind (.log .error (call.record showTrace).line)
      (emit issuer behind (.log .error (call.record showTrace).line) book).1], ?_, ?_⟩
    · rw [emit, add_entries, hentries, List.append_assoc]
    · intro entry hentry
      rcases List.mem_append.mp hentry with hentry | hentry
      · exact (hpassed entry hentry).wire id showTrace
      · rw [List.mem_singleton.mp hentry]
        exact .line List.mem_cons_self
  | foreign id verbose replies => exact ⟨[], rfl, by simp⟩

/-- The entries that were added to an earlier book. -/
def since (before after : Logbook) : List Entry := after.entries.drop before.entries.length

/-- What was added to a book is what has been added since. -/
theorem since_eq {before after : Logbook} {added : List Entry}
    (h : after.entries = before.entries ++ added) : since before after = added := by
  rw [since, h, List.drop_left]

/-- What has been added since the first book is what was added up to the second and from there on.
-/
theorem since_trans {a b c : Logbook} {first second : List Entry}
    (h : b.entries = a.entries ++ first) (h' : c.entries = b.entries ++ second) :
    since a c = since a b ++ since b c := by
  have hall : c.entries = a.entries ++ (first ++ second) := by
    rw [h', h, List.append_assoc]
  rw [since_eq hall, since_eq h, since_eq h']

end Logbook

end Worklog
