import Worklog.Json.Document

/-!
# Options and settings

Options leave open what nobody asked for; settings leave nothing open. Options from several places
are merged, the more important place first, and what is still open then is filled in from what is
known about the surroundings.

Options are written as an object, where each may be left out, or as a list, where none may.

* `Options.merge_assoc` — only the order of the places counts.
* `Options.resolve_merge` — an option that is set wins over all that come after it.
-/

namespace Worklog

structure Options where
  showTrace : Option Bool := none
  printBuildLogs : Option Bool := none
  systemd : Option Bool := none
  tty : Option Bool := none
deriving DecidableEq, Repr, Inhabited

structure Settings where
  /-- Show the frames of error reports. -/
  showTrace : Bool
  /-- Show the output of builds line by line. -/
  printBuildLogs : Bool
  /-- Start each line with its priority, for a supervising process. -/
  systemd : Bool
  /-- Keep control sequences for a terminal. -/
  tty : Bool
deriving DecidableEq, Repr, Inhabited

/-- What can be known about the surroundings of a program. -/
structure Surroundings where
  /-- The variable by which a supervising process announces itself. -/
  supervisor : Option String
  /-- Whether messages go to a terminal. -/
  terminal : Bool
deriving DecidableEq, Repr, Inhabited

/-- A supervising process reads the messages. -/
def Surroundings.supervised (surroundings : Surroundings) : Bool :=
  surroundings.supervisor = some "1"

namespace Options

/-- Fills what the first options leave open from the second ones. -/
def merge (options fallback : Options) : Options where
  showTrace := options.showTrace.or fallback.showTrace
  printBuildLogs := options.printBuildLogs.or fallback.printBuildLogs
  systemd := options.systemd.or fallback.systemd
  tty := options.tty.or fallback.tty

def resolve (options : Options) (surroundings : Surroundings) : Settings where
  showTrace := options.showTrace.getD false
  printBuildLogs := options.printBuildLogs.getD true
  systemd := options.systemd.getD surroundings.supervised
  tty := options.tty.getD surroundings.terminal

theorem merge_assoc (a b c : Options) : (a.merge b).merge c = a.merge (b.merge c) := by
  simp [merge, Option.or_assoc]

theorem resolve_merge (a b : Options) (surroundings : Surroundings) :
    (a.merge b).resolve surroundings =
      { showTrace := a.showTrace.getD (b.resolve surroundings).showTrace
        printBuildLogs := a.printBuildLogs.getD (b.resolve surroundings).printBuildLogs
        systemd := a.systemd.getD (b.resolve surroundings).systemd
        tty := a.tty.getD (b.resolve surroundings).tty } := by
  obtain ⟨t, p, s, y⟩ := a
  cases t <;> cases p <;> cases s <;> cases y <;> rfl

/-! ## Reading -/

inductive Key where
  | showTrace
  | printBuildLogs
  | systemd
  | tty
deriving DecidableEq, Repr

def Key.name : Key → String
  | showTrace => "show-trace"
  | printBuildLogs => "print-build-logs"
  | systemd => "systemd"
  | tty => "tty"

/-- The keys in the order in which a list gives their values. -/
def keys : List Key := [.showTrace, .printBuildLogs, .systemd, .tty]

/-- What has been read so far, the latest first. A key can be given without a value. -/
abbrev Entries := List (Key × Option Bool)

def ofEntries (entries : Entries) : Options where
  showTrace := (entries.lookup .showTrace).join
  printBuildLogs := (entries.lookup .printBuildLogs).join
  systemd := (entries.lookup .systemd).join
  tty := (entries.lookup .tty).join

def expected : String := "struct LoggerOptions"

open Json

/-- The value of one option, added to what has been read. -/
def entry (before : Entries) (key : Key) : Reader Entries :=
  (typed (Token.optional Token.asBool)).map fun value => (key, value) :: before

/-- A member of the object form. Each key may come once, and no other. -/
def member (before : Entries) (name : String) : Except Mismatch (Reader Entries) :=
  match keys.find? fun key => key.name == name with
  | none => .error (.unknownKey name (keys.map Key.name))
  | some key =>
    if (before.lookup key).isSome then .error (.repeated name) else .ok (entry before key)

/-- The values of the list form, one for each key that is still to come. -/
def values : List Key → Entries → List Char → Except Fault (Entries × List Char)
  | [], before, text =>
    match closeList text with
    | .error fault => .error fault
    | .ok rest => .ok (before, rest)
  | key :: keys, before, text =>
    match item before.isEmpty text with
    | .error fault => .error fault
    | .ok (false, rest) =>
      .error ⟨.mismatch (.length before.length (expected ++ " with 4 elements")), bytes rest.tail⟩
    | .ok (true, rest) =>
      match (entry before key).read rest with
      | .error fault => .error fault
      | .ok (entries, rest) => values keys entries rest

theorem closeList_le {text rest : List Char} (h : closeList text = .ok rest) :
    rest.length ≤ text.length := by
  have hblanks := skipBlanks_le text
  unfold closeList at h
  split at h
  next => simp at h
  next htext =>
    rw [htext] at hblanks
    split at h
    next =>
      simp only [Except.ok.injEq] at h
      subst h
      simp at hblanks
      omega
    next =>
      repeat' split at h
      all_goals simp at h

theorem values_le {keys : List Key} {before entries : Entries} {text rest : List Char}
    (h : values keys before text = .ok (entries, rest)) : rest.length ≤ text.length := by
  induction keys generalizing before text with
  | nil =>
    unfold values at h
    split at h
    next => simp at h
    next hclose =>
      simp only [Except.ok.injEq, Prod.mk.injEq] at h
      obtain ⟨-, rfl⟩ := h
      exact closeList_le hclose
  | cons key keys ih =>
    unfold values at h
    split at h
    next => simp at h
    next => simp at h
    next hitem =>
      split at h
      next => simp at h
      next hentry =>
        have := item_le hitem
        have := (entry before key).shrinks hentry
        have := ih h
        omega

/-- Options in either form. -/
def reader : Reader Options where
  read text := match token text with
    | .error fault => .error fault
    | .ok (t, rest) =>
      match t.scalar? with
      | some _ => .error ⟨.mismatch (.type t expected), bytes rest⟩
      | none =>
        match if t = .openList then values keys [] rest else members member [] true rest with
        | .error fault => .error fault
        | .ok (entries, rest) => .ok (ofEntries entries, rest)
  shrinks {text options rest} h := by
    split at h
    next => simp at h
    next t tail ht =>
      have := token_shrinks ht
      split at h
      next => simp at h
      next =>
        split at h
        next => simp at h
        next hbody =>
          simp only [Except.ok.injEq, Prod.mk.injEq] at h
          obtain ⟨-, rfl⟩ := h
          split at hbody
          · have := values_le hbody
            omega
          · have := members_shrinks hbody
            omega

def parse (text : String) : Except Problem Options := reader.parse text

end Options

end Worklog
