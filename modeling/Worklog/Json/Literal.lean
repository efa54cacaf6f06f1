import Worklog.Json.Fault

/-!
# String literals

The text between two double quotes. `character` reads one character of it, as itself or as an
escape; `characters` reads all of them up to the closing quote. `escaped` writes them.

Faults are found byte by byte: a fault inside an escape can lie in the middle of a character.

* `character_shrinks`, `characters_shrinks` — reading takes at least one character.
-/

namespace Worklog.Json.Literal

/-! ## Reading -/

def hexDigit? (c : Char) : Option Nat :=
  if '0' ≤ c ∧ c ≤ '9' then some (c.toNat - '0'.toNat)
  else if 'a' ≤ c ∧ c ≤ 'f' then some (c.toNat - 'a'.toNat + 10)
  else if 'A' ≤ c ∧ c ≤ 'F' then some (c.toNat - 'A'.toNat + 10)
  else none

/-- The number that four hexadecimal digits at the front of a text write. -/
def hexWord? : List Char → Option (Nat × List Char)
  | a :: b :: c :: d :: rest => do
    let a ← hexDigit? a
    let b ← hexDigit? b
    let c ← hexDigit? c
    let d ← hexDigit? d
    pure (((a * 16 + b) * 16 + c) * 16 + d, rest)
  | _ => none

def hexWord (text : List Char) : Except Fault (Nat × List Char) :=
  match hexWord? text with
  | some result => .ok result
  | none =>
    -- Four bytes are taken before any of them is looked at.
    if bytes text < 4 then .error (.malformed .endInString 0)
    else .error (.malformed .badEscape (bytes text - 4))

/-- The first word of a pair that stands for one character. -/
def isLeading (n : Nat) : Bool := 0xd800 ≤ n && n ≤ 0xdbff

/-- The second word of a pair that stands for one character. -/
def isTrailing (n : Nat) : Bool := 0xdc00 ≤ n && n ≤ 0xdfff

def pair (leading trailing : Nat) : Char :=
  Char.ofNat (0x10000 + (leading - 0xd800) * 0x400 + (trailing - 0xdc00))

/-- The second word of a pair, which must be an escape of its own. -/
def trailingWord : List Char → Except Fault (Nat × List Char)
  | [] => .error (.malformed .endInString 0)
  | ['\\'] => .error (.malformed .endInString 0)
  | '\\' :: 'u' :: rest =>
    match hexWord rest with
    | .error fault => .error fault
    | .ok (n, rest) =>
      if isTrailing n then .ok (n, rest) else .error (.malformed .loneSurrogate (bytes rest))
  | '\\' :: c :: rest => .error (.malformed .endOfPair (bytes (c :: rest) - 1))
  | c :: rest => .error (.malformed .endOfPair (bytes (c :: rest) - 1))

/-- The character that a hexadecimal escape stands for, after the letter that opens it. -/
def hexEscape (text : List Char) : Except Fault (Char × List Char) :=
  match hexWord text with
  | .error fault => .error fault
  | .ok (n, rest) =>
    if isTrailing n then .error (.malformed .loneSurrogate (bytes rest))
    else if isLeading n then
      match trailingWord rest with
      | .error fault => .error fault
      | .ok (m, rest) => .ok (pair n m, rest)
    else .ok (Char.ofNat n, rest)

/-- The character that a letter after a backslash stands for. -/
def shortEscape? (c : Char) : Option Char :=
  if c = '"' then some '"'
  else if c = '\\' then some '\\'
  else if c = '/' then some '/'
  else if c = 'b' then some '\x08'
  else if c = 'f' then some '\x0c'
  else if c = 'n' then some '\n'
  else if c = 'r' then some '\r'
  else if c = 't' then some '\t'
  else none

/-- The character that an escape stands for, after its backslash. -/
def escape : List Char → Except Fault (Char × List Char)
  | [] => .error (.malformed .endInString 0)
  | c :: rest =>
    if c = 'u' then hexEscape rest
    else match shortEscape? c with
      | some d => .ok (d, rest)
      | none => .error (.malformed .badEscape (bytes (c :: rest) - 1))

/-- One character of a literal, or nothing at the closing quote. -/
def character : List Char → Except Fault (Option Char × List Char)
  | [] => .error (.malformed .endInString 0)
  | c :: rest =>
    if c = '"' then .ok (none, rest)
    else if c = '\\' then
      match escape rest with
      | .error fault => .error fault
      | .ok (d, rest) => .ok (some d, rest)
    else if c.toNat < 0x20 then .error (.malformed .controlCharacter (bytes rest))
    else .ok (some c, rest)

theorem hexWord_shrinks {text rest : List Char} {n : Nat} (h : hexWord text = .ok (n, rest)) :
    rest.length < text.length := by
  unfold hexWord at h
  split at h
  next result hresult =>
    unfold hexWord? at hresult
    split at hresult
    next =>
      simp only [Option.bind_eq_bind, Option.bind_eq_some_iff, Option.pure_def,
        Option.some.injEq] at hresult
      obtain ⟨_, _, _, _, _, _, _, _, hresult⟩ := hresult
      simp only [Except.ok.injEq] at h
      rw [h] at hresult
      obtain ⟨-, rfl⟩ := hresult
      simp
      omega
    next => simp at hresult
  next => split at h <;> simp at h

theorem trailingWord_shrinks {text rest : List Char} {n : Nat}
    (h : trailingWord text = .ok (n, rest)) : rest.length < text.length := by
  unfold trailingWord at h
  split at h
  · simp at h
  · simp at h
  · next tail =>
    split at h
    next => simp at h
    next hword =>
      have := hexWord_shrinks hword
      split at h
      · simp only [Except.ok.injEq, Prod.mk.injEq] at h
        obtain ⟨-, rfl⟩ := h
        simp
        omega
      · simp at h
  · simp at h
  · simp at h

theorem hexEscape_shrinks {text rest : List Char} {c : Char}
    (h : hexEscape text = .ok (c, rest)) : rest.length < text.length := by
  unfold hexEscape at h
  split at h
  next => simp at h
  next hword =>
    have := hexWord_shrinks hword
    split at h
    next => simp at h
    next =>
      split at h
      next =>
        split at h
        next => simp at h
        next htrailing =>
          have := trailingWord_shrinks htrailing
          simp only [Except.ok.injEq, Prod.mk.injEq] at h
          obtain ⟨-, rfl⟩ := h
          omega
      next =>
        simp only [Except.ok.injEq, Prod.mk.injEq] at h
        obtain ⟨-, rfl⟩ := h
        omega

theorem escape_shrinks {text rest : List Char} {c : Char} (h : escape text = .ok (c, rest)) :
    rest.length < text.length := by
  unfold escape at h
  split at h
  next => simp at h
  next =>
    split at h
    next =>
      have := hexEscape_shrinks h
      simp
      omega
    next =>
      split at h
      · simp only [Except.ok.injEq, Prod.mk.injEq] at h
        obtain ⟨-, rfl⟩ := h
        simp
      · simp at h

theorem character_shrinks {text rest : List Char} {c : Option Char}
    (h : character text = .ok (c, rest)) : rest.length < text.length := by
  unfold character at h
  split at h
  next => simp at h
  next =>
    split at h
    next =>
      simp only [Except.ok.injEq, Prod.mk.injEq] at h
      obtain ⟨-, rfl⟩ := h
      simp
    next =>
      split at h
      next =>
        split at h
        next => simp at h
        next hescape =>
          have := escape_shrinks hescape
          simp only [Except.ok.injEq, Prod.mk.injEq] at h
          obtain ⟨-, rfl⟩ := h
          simp
          omega
      next =>
        split at h
        · simp at h
        · simp only [Except.ok.injEq, Prod.mk.injEq] at h
          obtain ⟨-, rfl⟩ := h
          simp

/-- The characters up to the closing quote, and what follows it. -/
def characters (text : List Char) : Except Fault (List Char × List Char) :=
  match _h : character text with
  | .error fault => .error fault
  | .ok (none, rest) => .ok ([], rest)
  | .ok (some c, rest) =>
    match characters rest with
    | .error fault => .error fault
    | .ok (cs, rest) => .ok (c :: cs, rest)
termination_by text.length
decreasing_by exact character_shrinks _h

theorem characters_shrinks {text rest cs : List Char} (h : characters text = .ok (cs, rest)) :
    rest.length < text.length := by
  induction text using characters.induct generalizing cs rest with
  | case1 text fault hc =>
    rw [characters] at h
    split at h <;> simp_all
  | case2 text tail hc =>
    have := character_shrinks hc
    rw [characters] at h
    split at h <;> simp_all
  | case3 text c tail hc fault hrest ih =>
    rw [characters] at h
    split at h <;> simp_all
  | case4 text c tail hc cs' rest' hrest ih =>
    have := character_shrinks hc
    have := ih hrest
    rw [characters] at h
    split at h <;> simp_all
    omega

/-! ## Writing -/

/-- A digit of base sixteen, in lower case. -/
def hexDigit (n : Nat) : Char := Nat.digitChar n

/-- How a character is written in a literal. Only quotes, backslashes and control characters
cannot stand for themselves. -/
def escapedChar (c : Char) : List Char :=
  if c = '"' then ['\\', '"']
  else if c = '\\' then ['\\', '\\']
  else if c = '\x08' then ['\\', 'b']
  else if c = '\t' then ['\\', 't']
  else if c = '\n' then ['\\', 'n']
  else if c = '\x0c' then ['\\', 'f']
  else if c = '\r' then ['\\', 'r']
  else if c.toNat < 0x20 then
    ['\\', 'u', '0', '0', hexDigit (c.toNat / 16), hexDigit (c.toNat % 16)]
  else [c]

def escaped (cs : List Char) : List Char := cs.flatMap escapedChar

end Worklog.Json.Literal
