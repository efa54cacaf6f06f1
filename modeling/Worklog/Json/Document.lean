import Worklog.Json.Elements

/-!
# Whole texts

Any value, and texts that hold one value and nothing else. Nesting is a recursion on the number of
brackets that may still be opened.

* `listBody_eq_ok_iff`, `objectBody_eq_ok_iff` — the bodies of lists and objects.
* `listBody_shrinks`, `objectBody_shrinks` — progress of the parts.
* `Reader.parseAs_eq_ok_iff`, `Reader.parse_eq_ok_iff` — the texts that are read to their end.
-/

namespace Worklog.Json

/-! ## Values -/

/-- The elements of a list of values as a value. -/
def listBody (inner : Reader Json) (text : List Char) : Except Fault (Json × List Char) :=
  match elements inner true text with
  | .error fault => .error fault
  | .ok (items, rest) => .ok (.list items, rest)

/-- The members of an object as a value; they keep their order. -/
def objectBody (inner : Reader Json) (text : List Char) : Except Fault (Json × List Char) :=
  match members (fun before name => .ok (inner.map fun v => (name, v) :: before)) [] true text with
  | .error fault => .error fault
  | .ok (reversed, rest) => .ok (.object reversed.reverse, rest)

theorem listBody_eq_ok_iff {inner : Reader Json} {text rest : List Char} {v : Json} :
    listBody inner text = .ok (v, rest)
      ↔ ∃ items, elements inner true text = .ok (items, rest) ∧ v = .list items := by
  unfold listBody
  split
  next fault h => simp [h]
  next items tail h =>
    simp only [h, Except.ok.injEq, Prod.mk.injEq]
    constructor
    · rintro ⟨rfl, rfl⟩
      exact ⟨items, ⟨rfl, rfl⟩, rfl⟩
    · rintro ⟨_, ⟨rfl, rfl⟩, rfl⟩
      exact ⟨rfl, rfl⟩

theorem objectBody_eq_ok_iff {inner : Reader Json} {text rest : List Char} {v : Json} :
    objectBody inner text = .ok (v, rest)
      ↔ ∃ reversed, members (fun before name => .ok (inner.map fun v => (name, v) :: before))
          [] true text = .ok (reversed, rest) ∧ v = .object reversed.reverse := by
  unfold objectBody
  split
  next fault h => simp [h]
  next reversed tail h =>
    simp only [h, Except.ok.injEq, Prod.mk.injEq]
    constructor
    · rintro ⟨rfl, rfl⟩
      exact ⟨reversed, ⟨rfl, rfl⟩, rfl⟩
    · rintro ⟨_, ⟨rfl, rfl⟩, rfl⟩
      exact ⟨rfl, rfl⟩

theorem listBody_shrinks {inner : Reader Json} {text rest : List Char} {v : Json}
    (h : listBody inner text = .ok (v, rest)) : rest.length < text.length := by
  obtain ⟨items, helements, -⟩ := listBody_eq_ok_iff.mp h
  exact elements_shrinks helements

theorem objectBody_shrinks {inner : Reader Json} {text rest : List Char} {v : Json}
    (h : objectBody inner text = .ok (v, rest)) : rest.length < text.length := by
  obtain ⟨reversed, hmembers, -⟩ := objectBody_eq_ok_iff.mp h
  exact members_shrinks hmembers

/-- A value whose parts, if it has any, are read by `inner`. -/
def node (inner : Option (Reader Json)) : Reader Json where
  read text := match token text with
    | .error fault => .error fault
    | .ok (t, rest) =>
      match t.scalar?, inner with
      | some v, _ => .ok (v, rest)
      | none, none => .error (.malformed .tooDeep (bytes rest))
      | none, some inner =>
        if t = .openList then listBody inner rest else objectBody inner rest
  shrinks {text v rest} h := by
    split at h
    next => simp at h
    next t tail ht =>
      have := token_shrinks ht
      split at h
      next =>
        simp only [Except.ok.injEq, Prod.mk.injEq] at h
        obtain ⟨-, rfl⟩ := h
        exact this
      next => simp at h
      next =>
        split at h
        · have := listBody_shrinks h
          omega
        · have := objectBody_shrinks h
          omega

/-- A value with no more than so many brackets open at once. -/
def value : Nat → Reader Json
  | 0 => node none
  | depth + 1 => node (some (value depth))

/-- How many brackets may be open at once. -/
def maxDepth : Nat := 127

/-! ## Whole texts -/

/-- A result after which the text may hold nothing but blanks. -/
def atEnd {α : Type} (a : α) (rest : List Char) : Except Fault α :=
  match skipBlanks rest with
  | [] => .ok a
  | c :: rest => .error (.malformed .trailingCharacters (bytes (c :: rest) - 1))

/-- Reads a text to its end and gives a meaning to what it holds. What has no meaning is refused
before the end of the text is looked at, and without a place. -/
def Reader.parseAs {α β : Type} (r : Reader α) (meaning : α → Except Mismatch β) (text : String) :
    Except Problem β :=
  match r.read text.toList with
  | .error fault => .error (fault.placed text.toList)
  | .ok (a, rest) =>
    match meaning a with
    | .error cause => .error cause.unplaced
    | .ok b =>
      match atEnd b rest with
      | .error fault => .error (fault.placed text.toList)
      | .ok b => .ok b

/-- Reads a text to its end. -/
def Reader.parse {α : Type} (r : Reader α) (text : String) : Except Problem α := r.parseAs .ok text

theorem atEnd_eq_ok_iff {α : Type} {a b : α} {rest : List Char} :
    atEnd a rest = .ok b ↔ a = b ∧ skipBlanks rest = [] := by
  unfold atEnd
  cases skipBlanks rest <;> simp

theorem Reader.parseAs_eq_ok_iff {α β : Type} {r : Reader α} {meaning : α → Except Mismatch β}
    {text : String} {b : β} :
    r.parseAs meaning text = .ok b
      ↔ ∃ a rest, r.read text.toList = .ok (a, rest) ∧ meaning a = .ok b
        ∧ skipBlanks rest = [] := by
  unfold Reader.parseAs
  constructor
  · intro h
    split at h
    next => simp at h
    next a rest hread =>
      split at h
      next => simp at h
      next c hmeaning =>
        split at h
        next => simp at h
        next d hend =>
          obtain ⟨rfl, hrest⟩ := atEnd_eq_ok_iff.mp hend
          exact ⟨a, rest, hread, Except.ok.inj h ▸ hmeaning, hrest⟩
  · rintro ⟨a, rest, hread, hmeaning, hrest⟩
    have hend : atEnd b rest = .ok b := atEnd_eq_ok_iff.mpr ⟨rfl, hrest⟩
    simp only [hread, hmeaning, hend]

theorem Reader.parse_eq_ok_iff {α : Type} {r : Reader α} {text : String} {a : α} :
    r.parse text = .ok a ↔ ∃ rest, r.read text.toList = .ok (a, rest) ∧ skipBlanks rest = [] := by
  rw [Reader.parse, Reader.parseAs_eq_ok_iff]
  constructor
  · rintro ⟨b, rest, hread, hb, hrest⟩
    exact ⟨rest, Except.ok.inj hb ▸ hread, hrest⟩
  · rintro ⟨rest, hread, hrest⟩
    exact ⟨a, rest, hread, rfl, hrest⟩

/-- The value that a text writes, as it is written. -/
def parse (text : String) : Except Problem Json := (value maxDepth).parse text

end Worklog.Json
