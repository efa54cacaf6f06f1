import Worklog.Json.Reader

/-!
# Lists and objects

The elements of a list and the members of an object are loops over a reader for one of them. They
end because each element shortens the text.

* `elements_shrinks`, `members_shrinks` — also an empty list or object takes its closing bracket.
-/

namespace Worklog.Json

/-! ## The parts of a list -/

/-- Moves to the next element of a list. The answer says whether there is one; if there is none, the
rest starts with the closing bracket. -/
def item (isFirst : Bool) (text : List Char) : Except Fault (Bool × List Char) :=
  match skipBlanks text with
  | [] => .error (.malformed .endInList 0)
  | c :: rest =>
    if c = ']' then .ok (false, c :: rest)
    else if isFirst then .ok (true, c :: rest)
    else if c = ',' then
      match skipBlanks rest with
      | [] => .error (.malformed .endInValue 0)
      | d :: rest' =>
        if d = ']' then .error (.malformed .trailingComma (bytes (d :: rest') - 1))
        else .ok (true, d :: rest')
    else .error (.malformed .noListEnd (bytes (c :: rest) - 1))

theorem item_le {isFirst more : Bool} {text rest : List Char}
    (h : item isFirst text = .ok (more, rest)) : rest.length ≤ text.length := by
  have hblanks := skipBlanks_le text
  unfold item at h
  split at h
  next => simp at h
  next c tail htext =>
    rw [htext] at hblanks
    split at h
    next =>
      simp only [Except.ok.injEq, Prod.mk.injEq] at h
      obtain ⟨-, rfl⟩ := h
      exact hblanks
    next =>
      split at h
      next =>
        simp only [Except.ok.injEq, Prod.mk.injEq] at h
        obtain ⟨-, rfl⟩ := h
        exact hblanks
      next =>
        split at h
        next =>
          have htail := skipBlanks_le tail
          split at h
          next => simp at h
          next hd =>
            rw [hd] at htail
            split at h
            next => simp at h
            next =>
              simp only [Except.ok.injEq, Prod.mk.injEq] at h
              obtain ⟨-, rfl⟩ := h
              simp at hblanks htail ⊢
              omega
        next => simp at h

theorem item_ne_nil {isFirst more : Bool} {text rest : List Char}
    (h : item isFirst text = .ok (more, rest)) : rest ≠ [] := by
  rintro rfl
  unfold item at h
  repeat' split at h
  all_goals simp at h

/-- Ends a list after its last wanted element. -/
def closeList (text : List Char) : Except Fault (List Char) :=
  match skipBlanks text with
  | [] => .error (.malformed .endInList 0)
  | c :: rest =>
    if c = ']' then .ok rest
    else if c = ',' then
      match skipBlanks rest with
      | [] => .error (.malformed .trailingCharacters 0)
      | d :: rest' =>
        if d = ']' then .error (.malformed .trailingComma (bytes (d :: rest') - 1))
        else .error (.malformed .trailingCharacters (bytes (d :: rest') - 1))
    else .error (.malformed .trailingCharacters (bytes (c :: rest) - 1))

/-- The elements of a list, up to and with its closing bracket. -/
def elements {α : Type} (r : Reader α) (isFirst : Bool) (text : List Char) :
    Except Fault (List α × List Char) :=
  match _h : item isFirst text with
  | .error fault => .error fault
  | .ok (false, rest) => .ok ([], rest.tail)
  | .ok (true, rest) =>
    match _h' : r.read rest with
    | .error fault => .error fault
    | .ok (a, rest) =>
      match elements r false rest with
      | .error fault => .error fault
      | .ok (as, rest) => .ok (a :: as, rest)
termination_by text.length
decreasing_by
  have := item_le _h
  have := r.shrinks _h'
  omega

theorem elements_shrinks {α : Type} {r : Reader α} {isFirst : Bool} {text rest : List Char}
    {as : List α} (h : elements r isFirst text = .ok (as, rest)) : rest.length < text.length := by
  fun_induction elements r isFirst text generalizing as rest with
  | case1 => simp at h
  | case2 isFirst text tail hitem =>
    have hle := item_le hitem
    have hne := item_ne_nil hitem
    simp only [Except.ok.injEq, Prod.mk.injEq] at h
    obtain ⟨-, rfl⟩ := h
    cases tail with
    | nil => exact absurd rfl hne
    | cons => simp at hle ⊢; omega
  | case3 => simp at h
  | case4 => simp at h
  | case5 isFirst text tail hitem a tail' hread as' tail'' hrest ih =>
    have := item_le hitem
    have := r.shrinks hread
    have := ih hrest
    simp only [Except.ok.injEq, Prod.mk.injEq] at h
    obtain ⟨-, rfl⟩ := h
    omega

/-! ## The parts of an object -/

/-- A key, which must be a string. -/
def keyName : List Char → Except Fault (Option String × List Char)
  | [] => .error (.malformed .endInValue 0)
  | c :: rest =>
    if c = '"' then
      match Literal.characters rest with
      | .error fault => .error fault
      | .ok (cs, rest) => .ok (some (String.ofList cs), rest)
    else .error (.malformed .keyNotString (bytes (c :: rest) - 1))

/-- Moves to the next key of an object and reads it. At the closing bracket there is none, and the
rest follows the bracket. -/
def key (isFirst : Bool) (text : List Char) : Except Fault (Option String × List Char) :=
  match skipBlanks text with
  | [] => .error (.malformed .endInObject 0)
  | c :: rest =>
    if c = '\x7d' then .ok (none, rest)
    else if isFirst then keyName (c :: rest)
    else if c = ',' then
      match skipBlanks rest with
      | [] => .error (.malformed .endInValue 0)
      | d :: rest' =>
        if d = '\x7d' then .error (.malformed .trailingComma (bytes (d :: rest') - 1))
        else keyName (d :: rest')
    else .error (.malformed .noObjectEnd (bytes (c :: rest) - 1))

theorem keyName_shrinks {text rest : List Char} {name : Option String}
    (h : keyName text = .ok (name, rest)) : rest.length < text.length := by
  unfold keyName at h
  split at h
  next => simp at h
  next =>
    split at h
    next =>
      split at h
      next => simp at h
      next hcharacters =>
        have := Literal.characters_shrinks hcharacters
        simp only [Except.ok.injEq, Prod.mk.injEq] at h
        obtain ⟨-, rfl⟩ := h
        simp
        omega
    next => simp at h

theorem key_shrinks {isFirst : Bool} {text rest : List Char} {name : Option String}
    (h : key isFirst text = .ok (name, rest)) : rest.length < text.length := by
  have hblanks := skipBlanks_le text
  unfold key at h
  split at h
  next => simp at h
  next c tail htext =>
    rw [htext] at hblanks
    split at h
    next =>
      simp only [Except.ok.injEq, Prod.mk.injEq] at h
      obtain ⟨-, rfl⟩ := h
      simp at hblanks
      omega
    next =>
      split at h
      next =>
        have := keyName_shrinks h
        omega
      next =>
        split at h
        next =>
          have htail := skipBlanks_le tail
          split at h
          next => simp at h
          next hd =>
            rw [hd] at htail
            split at h
            next => simp at h
            next =>
              have := keyName_shrinks h
              simp at hblanks htail this
              omega
        next => simp at h

/-- The colon between a key and its value. -/
def colon (text : List Char) : Except Fault (List Char) :=
  match skipBlanks text with
  | [] => .error (.malformed .endInObject 0)
  | c :: rest =>
    if c = ':' then .ok rest else .error (.malformed .noColon (bytes (c :: rest) - 1))

theorem colon_shrinks {text rest : List Char} (h : colon text = .ok rest) :
    rest.length < text.length := by
  have hblanks := skipBlanks_le text
  unfold colon at h
  split at h
  next => simp at h
  next htext =>
    rw [htext] at hblanks
    split at h
    next =>
      simp only [Except.ok.injEq] at h
      subst h
      simp at hblanks
      omega
    next => simp at h

/-- The end of the object, or of what there is of it, once a key has been refused. -/
def afterRefusedKey (text : List Char) : List Char :=
  match skipBlanks text with
  | c :: rest => if c = '\x7d' then rest else c :: rest
  | [] => []

/-- The members of an object, up to and with its closing bracket. `member` says what is made of a
key: a reader for its value, or a refusal. -/
def members {σ : Type} (member : σ → String → Except Mismatch (Reader σ)) (state : σ)
    (isFirst : Bool) (text : List Char) : Except Fault (σ × List Char) :=
  match _h : key isFirst text with
  | .error fault => .error fault
  | .ok (none, rest) => .ok (state, rest)
  | .ok (some name, rest) =>
    match member state name with
    | .error cause => .error ⟨.mismatch cause, bytes (afterRefusedKey rest)⟩
    | .ok r =>
      match _h' : colon rest with
      | .error fault => .error fault
      | .ok rest =>
        match _h'' : r.read rest with
        | .error fault => .error fault
        | .ok (state, rest) => members member state false rest
termination_by text.length
decreasing_by
  have := key_shrinks _h
  have := colon_shrinks _h'
  have := r.shrinks _h''
  omega

theorem members_shrinks {σ : Type} {member : σ → String → Except Mismatch (Reader σ)}
    {state result : σ} {isFirst : Bool} {text rest : List Char}
    (h : members member state isFirst text = .ok (result, rest)) : rest.length < text.length := by
  fun_induction members member state isFirst text with
  | case1 => simp at h
  | case2 state isFirst text tail hkey =>
    have := key_shrinks hkey
    simp only [Except.ok.injEq, Prod.mk.injEq] at h
    obtain ⟨-, rfl⟩ := h
    exact this
  | case3 => simp at h
  | case4 => simp at h
  | case5 => simp at h
  | case6 state isFirst text name tail hkey r _ tail' hcolon state' tail'' hvalue ih =>
    have := key_shrinks hkey
    have := colon_shrinks hcolon
    have := r.shrinks hvalue
    have := ih h
    omega

end Worklog.Json
