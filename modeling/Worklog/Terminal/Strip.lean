/-!
# Text without control sequences

A terminal takes some characters as commands and shows the others. `strip` keeps what is shown, and
the line breaks. It runs the state machine of the terminal: an escape character opens a sequence,
each kind of sequence has characters that belong to it and characters that end it, and all else is
shown.

Inside a sequence the machine sees bytes and not characters. This matters in one place only: the
byte `0x9C` ends a device control string even when it is the middle of a character, and what is
left of that character is then not a character.

* `stripFrom_append` — what follows is stripped from the mode that what came before ends in.
-/

namespace Worklog.Terminal

/-- Where in a control sequence the terminal is. -/
inductive Mode where
  | ground
  | escape
  | escapeIntermediate
  | csiEntry
  | csiParameter
  | csiIntermediate
  | csiIgnore
  | dcsEntry
  | dcsParameter
  | dcsIntermediate
  | dcsPassthrough
  | dcsIgnore
  | operatingSystem
  | privateString
deriving DecidableEq, Repr, Inhabited

namespace Mode

/-- Whether a line break inside the sequence still breaks the line. -/
def keepsLineBreaks : Mode → Bool
  | escape | escapeIntermediate | csiEntry | csiParameter | csiIntermediate | csiIgnore => true
  | ground => true
  | _ => false

/-- The characters between a sequence's opening and its parameters or end. -/
def isIntermediate (n : Nat) : Bool := 0x20 ≤ n && n ≤ 0x2f

/-- The characters of a sequence's parameters. -/
def isParameter (n : Nat) : Bool := 0x30 ≤ n && n ≤ 0x3b

/-- The characters that mark a sequence as private; they may only come first. -/
def isPrivateMark (n : Nat) : Bool := 0x3c ≤ n && n ≤ 0x3f

/-- The characters that end a sequence. -/
def isFinal (n : Nat) : Bool := 0x40 ≤ n && n ≤ 0x7e

/-- The sequence that a character after the escape character opens. -/
def afterEscape (n : Nat) : Mode :=
  if isIntermediate n then escapeIntermediate
  else if n = 0x50 then dcsEntry
  else if n = 0x58 || n = 0x5e || n = 0x5f then privateString
  else if n = 0x5b then csiEntry
  else if n = 0x5d then operatingSystem
  else if 0x30 ≤ n && n ≤ 0x7e then ground
  else escape

/-- Where a character leads inside a sequence, unless it is one that ends or restarts every
sequence. A character that has no place in the sequence is passed over. -/
def next : Mode → Nat → Mode
  | ground, _ => ground
  | escape, n => afterEscape n
  | escapeIntermediate, n => if 0x30 ≤ n && n ≤ 0x7e then ground else escapeIntermediate
  | csiEntry, n =>
    if isIntermediate n then csiIntermediate
    else if isParameter n || isPrivateMark n then csiParameter
    else if isFinal n then ground
    else csiEntry
  | csiParameter, n =>
    if isIntermediate n then csiIntermediate
    else if isPrivateMark n then csiIgnore
    else if isFinal n then ground
    else csiParameter
  | csiIntermediate, n =>
    if isParameter n || isPrivateMark n then csiIgnore
    else if isFinal n then ground
    else csiIntermediate
  | csiIgnore, n => if isFinal n then ground else csiIgnore
  | dcsEntry, n =>
    if isIntermediate n then dcsIntermediate
    else if isParameter n || isPrivateMark n then dcsParameter
    else if isFinal n then dcsPassthrough
    else dcsEntry
  | dcsParameter, n =>
    if isIntermediate n then dcsIntermediate
    else if isPrivateMark n then dcsIgnore
    else if isFinal n then dcsPassthrough
    else dcsParameter
  | dcsIntermediate, n =>
    if isParameter n || isPrivateMark n then dcsIgnore
    else if isFinal n then dcsPassthrough
    else dcsIntermediate
  | dcsPassthrough, _ => dcsPassthrough
  | dcsIgnore, _ => dcsIgnore
  | operatingSystem, n => if n = 0x07 then ground else operatingSystem
  | privateString, _ => privateString

end Mode

/-- Whether a character outside every sequence is shown. A line break counts as shown. -/
def isShown (c : Char) : Bool :=
  c = '\n' || !(c.toNat < 0x20 || (0x80 ≤ c.toNat && c.toNat ≤ 0x9f))

/-- What the bytes show that are left of a character whose middle ended a sequence: nothing for a
byte that is a control character, a replacement character for any other. -/
def strayText (bytes : List UInt8) : List Char :=
  bytes.filterMap fun byte => if byte ≤ 0x9f then none else some '\uFFFD'

/-- The bytes of a character after the first that ends a device control string. -/
def afterTerminator? (c : Char) : Option (List UInt8) :=
  match (String.utf8EncodeChar c).dropWhile (· ≠ 0x9c) with
  | [] => none
  | _ :: rest => some rest

/-- One character: the mode it leads to, and what it shows. -/
def step (mode : Mode) (c : Char) : Mode × List Char :=
  if c = '\x1b' then (.escape, [])
  else match mode with
    | .ground => (.ground, if isShown c then [c] else [])
    | mode =>
      -- These two characters cancel every sequence.
      if c = '\x18' || c = '\x1a' then (.ground, [])
      else if c = '\n' then (mode, if mode.keepsLineBreaks then [c] else [])
      else match mode, afterTerminator? c with
        | .dcsPassthrough, some rest => (.ground, strayText rest)
        | mode, _ => (mode.next c.toNat, [])

def stripFrom : Mode → List Char → List Char
  | _, [] => []
  | mode, c :: rest => (step mode c).2 ++ stripFrom (step mode c).1 rest

/-- The mode after a piece of text. -/
def modeAfter (mode : Mode) (text : List Char) : Mode :=
  text.foldl (fun mode c => (step mode c).1) mode

theorem stripFrom_append (mode : Mode) (a b : List Char) :
    stripFrom mode (a ++ b) = stripFrom mode a ++ stripFrom (modeAfter mode a) b := by
  induction a generalizing mode with
  | nil => rfl
  | cons c a ih => simp [stripFrom, modeAfter, ih]

/-- The text that a terminal shows, with its line breaks. -/
def strip (text : String) : String := String.ofList (stripFrom .ground text.toList)

end Worklog.Terminal
