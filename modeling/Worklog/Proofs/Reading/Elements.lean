import Worklog.Proofs.Reading.Pieces

/-!
# Elements and members as pieces

The text of a list is the texts of its elements with gaps between them, and each of them can be read
by itself. With that, and the like for objects, a value is a piece of the text that it is read from.

* `elements_eq_ok_iff`, `listing_unique` — the text of a list, and how it is divided.
* `members_cuts` — an object is a piece if the values of its members are.
* `piecewise_value` — values are pieces.
-/

namespace Worklog.Json

open Numeral (Ends ends_nil ends_cons)

/-! ## Literals -/

section

variable {α β : Type}

/-- What is read of a value is a piece, and a value does not start like the end of a list. -/
structure Piecewise (r : Reader α) : Prop where
  cuts : Cuts Ends r.read
  no_end : ∀ text result, r.read (']' :: text) ≠ .ok result

/-- The text of one value: all of it is read, and it has no blanks in front. -/
structure Reader.IsLiteral (r : Reader α) (literal : List Char) (a : α) : Prop where
  reads : r.read literal = .ok (a, [])
  no_blank : ∀ c, literal.head? = some c → isBlank c = false

variable {r : Reader α}

theorem Reader.IsLiteral.ne_nil {literal : List Char} {a : α} (h : r.IsLiteral literal a) :
    literal ≠ [] := by
  rintro rfl
  exact absurd (r.shrinks h.reads) (Nat.lt_irrefl _)

/-- A literal starts with something that the loop over a list does not take for its own. -/
theorem Reader.IsLiteral.begins {literal : List Char} {a : α} (h : r.IsLiteral literal a)
    (hr : Piecewise r) : ∃ c tail, literal = c :: tail ∧ isBlank c = false ∧ c ≠ ']' := by
  cases hliteral : literal with
  | nil => exact absurd hliteral h.ne_nil
  | cons c tail =>
    refine ⟨c, tail, rfl, h.no_blank c (by rw [hliteral]; rfl), ?_⟩
    rintro rfl
    exact hr.no_end tail _ (hliteral ▸ h.reads)

/-- A literal is read in the same way in a longer text. -/
theorem Reader.IsLiteral.read_append {literal : List Char} {a : α} (h : r.IsLiteral literal a)
    (hr : Piecewise r) {more : List Char} (hmore : Ends more) :
    r.read (literal ++ more) = .ok (a, more) := by
  obtain ⟨piece, hpiece, hread⟩ := hr.cuts h.reads
  rw [List.append_nil] at hpiece
  exact hpiece ▸ hread more hmore

theorem Piecewise.map (hr : Piecewise r) (f : α → β) : Piecewise (r.map f) where
  cuts text rest b h := by
    obtain ⟨a, ha, rfl⟩ := map_read_eq_ok_iff.mp h
    obtain ⟨piece, rfl, hpiece⟩ := hr.cuts ha
    exact ⟨piece, rfl, fun more hmore => map_read_eq_ok_iff.mpr ⟨a, hpiece more hmore, rfl⟩⟩
  no_end text result h := by
    obtain ⟨b, rest⟩ := result
    obtain ⟨a, ha, -⟩ := map_read_eq_ok_iff.mp h
    exact hr.no_end text _ ha

end

/-! ## Lists -/

/-- What stands between an element and what comes before it: blanks, and a comma if it is not the
first. -/
inductive Gap : Bool → List Char → Prop
  | first {gap : List Char} (h : Blank gap) : Gap true gap
  | next {before after : List Char} (hbefore : Blank before) (hafter : Blank after) :
      Gap false (before ++ ',' :: after)

/-- The text of some elements of a list, up to and with its closing bracket. -/
inductive Listing : Bool → List (List Char) → List Char → Prop
  | close {isFirst : Bool} {gap : List Char} (h : Blank gap) : Listing isFirst [] (gap ++ [']'])
  | element {isFirst : Bool} {gap literal rest : List Char} {literals : List (List Char)}
      (hgap : Gap isFirst gap) (hrest : Listing false literals rest) :
      Listing isFirst (literal :: literals) (gap ++ (literal ++ rest))

/-- A list ends after blanks with its bracket. -/
theorem item_eq_false_iff {isFirst : Bool} {text rest : List Char} :
    item isFirst text = .ok (false, rest)
      ↔ ∃ gap tail, Blank gap ∧ rest = ']' :: tail ∧ text = gap ++ rest := by
  constructor
  · intro h
    unfold item at h
    split at h
    next => simp at h
    next c tail htext =>
      obtain ⟨-, gap, hgap, rfl⟩ := skipBlanks_eq_cons_iff.mp htext
      split at h
      next hc =>
        simp only [Except.ok.injEq, Prod.mk.injEq] at h
        obtain ⟨-, rfl⟩ := h
        exact ⟨gap, tail, hgap, by rw [hc], rfl⟩
      next =>
        repeat' split at h
        all_goals simp at h
  · rintro ⟨gap, tail, hgap, rfl, rfl⟩
    have hskip : skipBlanks (gap ++ ']' :: tail) = ']' :: tail :=
      skipBlanks_eq_cons_iff.mpr ⟨by decide, gap, hgap, rfl⟩
    simp only [item, hskip, if_pos]

/-- Otherwise there is a gap, with a comma unless this is the first element. -/
theorem item_eq_true_iff {isFirst : Bool} {text rest : List Char} :
    item isFirst text = .ok (true, rest)
      ↔ ∃ gap c tail, Gap isFirst gap ∧ rest = c :: tail ∧ isBlank c = false ∧ c ≠ ']'
        ∧ text = gap ++ rest := by
  constructor
  · intro h
    unfold item at h
    split at h
    next => simp at h
    next c tail htext =>
      obtain ⟨hblank, gap, hgap, rfl⟩ := skipBlanks_eq_cons_iff.mp htext
      split at h
      next => simp at h
      next hc =>
        split at h
        next hfirst =>
          simp only [Except.ok.injEq, Prod.mk.injEq] at h
          obtain ⟨-, rfl⟩ := h
          exact ⟨gap, c, tail, hfirst ▸ .first hgap, rfl, hblank, hc, rfl⟩
        next hfirst =>
          -- An element that is not the first one needs a comma, and blanks may stand after that.
          split at h
          next hcomma =>
            split at h
            next => simp at h
            next d tail' hskip =>
              split at h
              next => simp at h
              next hd =>
                simp only [Except.ok.injEq, Prod.mk.injEq] at h
                obtain ⟨-, rfl⟩ := h
                obtain ⟨hblank', after, hafter, rfl⟩ := skipBlanks_eq_cons_iff.mp hskip
                obtain rfl := Bool.eq_false_iff.mpr hfirst
                exact ⟨gap ++ ',' :: after, d, tail', .next hgap hafter, rfl, hblank', hd,
                  by rw [hcomma]; simp⟩
          next => simp at h
  · rintro ⟨gap, c, tail, hgap, rfl, hblank, hc, rfl⟩
    cases hgap with
    | first hgap =>
      have hskip : skipBlanks (gap ++ c :: tail) = c :: tail :=
        skipBlanks_eq_cons_iff.mpr ⟨hblank, gap, hgap, rfl⟩
      simp only [item, hskip, if_neg hc, if_pos]
    | @next before after hbefore hafter =>
      have hskip : skipBlanks (before ++ ',' :: (after ++ c :: tail))
          = ',' :: (after ++ c :: tail) :=
        skipBlanks_eq_cons_iff.mpr ⟨by decide, before, hbefore, rfl⟩
      have hskip' : skipBlanks (after ++ c :: tail) = c :: tail :=
        skipBlanks_eq_cons_iff.mpr ⟨hblank, after, hafter, rfl⟩
      rw [List.append_assoc, List.cons_append, item, hskip]
      simp only
      rw [if_neg (by decide), if_neg (by decide), if_pos trivial, hskip']
      simp only [if_neg hc]

/-- After an element nothing comes that could be taken for more of a numeral. -/
theorem ends_gap {gap : List Char} (h : Blank gap) {c : Char}
    (hc : Numeral.isDigit c = false ∧ c ≠ '.' ∧ c ≠ 'e' ∧ c ≠ 'E') (rest : List Char) :
    Ends (gap ++ c :: rest) := by
  cases gap with
  | nil => exact ends_cons _ hc
  | cons d gap =>
    have hd : isBlank d = true := h d List.mem_cons_self
    simp only [isBlank, Bool.or_eq_true, decide_eq_true_eq] at hd
    refine ends_cons _ ?_
    rcases hd with ((rfl | rfl) | rfl) | rfl <;> decide

/-- After an element comes a comma or the bracket, which no numeral can go on with. -/
theorem Listing.ends {literals : List (List Char)} {piece : List Char}
    (h : Listing false literals piece) (more : List Char) : Ends (piece ++ more) := by
  cases h with
  | close hgap =>
    rw [List.append_assoc]
    exact ends_gap hgap (by decide) _
  | element hgap _ =>
    cases hgap with
    | next hbefore _ =>
      simp only [List.append_assoc, List.cons_append]
      exact ends_gap hbefore (by decide) _

section

variable {α : Type} {r : Reader α} {isFirst : Bool}

theorem item_of_element (hr : Piecewise r) {gap literal : List Char} {a : α}
    (hgap : Gap isFirst gap) (hliteral : r.IsLiteral literal a) (more : List Char) :
    item isFirst (gap ++ (literal ++ more)) = .ok (true, literal ++ more) := by
  obtain ⟨c, tail, hcons, hblank, hc⟩ := hliteral.begins hr
  exact item_eq_true_iff.mpr ⟨gap, c, tail ++ more, hgap, by rw [hcons]; rfl, hblank, hc, rfl⟩

/-- Literals with gaps between them are read as elements. -/
theorem elements_of_listing (hr : Piecewise r) {literals : List (List Char)} {piece : List Char}
    (h : Listing isFirst literals piece) {as : List α}
    (hliterals : List.Forall₂ r.IsLiteral literals as) (rest : List Char) :
    elements r isFirst (piece ++ rest) = .ok (as, rest) := by
  induction h generalizing as with
  | @close isFirst gap hgap =>
    cases hliterals
    have hitem : item isFirst (gap ++ [']'] ++ rest) = .ok (false, ']' :: rest) :=
      item_eq_false_iff.mpr ⟨gap, rest, hgap, rfl, by simp⟩
    rw [elements.eq_def, hitem]
    rfl
  | @element isFirst gap literal more literals hgap hmore ih =>
    cases hliterals with
    | cons hliteral hliterals =>
      rw [List.append_assoc, List.append_assoc, elements.eq_def,
        item_of_element hr hgap hliteral (more ++ rest)]
      simp only
      rw [hliteral.read_append hr (hmore.ends rest)]
      simp only [ih hliterals]

/-- **A text is divided into the literals of a list in one way only.** -/
theorem listing_unique (hr : Piecewise r) {literals literals' : List (List Char)}
    {piece piece' : List Char} (h : Listing isFirst literals piece)
    (h' : Listing isFirst literals' piece') {as as' : List α}
    (hliterals : List.Forall₂ r.IsLiteral literals as)
    (hliterals' : List.Forall₂ r.IsLiteral literals' as') {rest rest' : List Char}
    (htext : piece ++ rest = piece' ++ rest') : literals = literals' := by
  -- Both divisions are read as the same values, so they have equally many literals.
  have hsame : as' = as := by
    have hread := elements_of_listing hr h hliterals rest
    rw [htext, elements_of_listing hr h' hliterals' rest', Except.ok.injEq, Prod.mk.injEq] at hread
    exact hread.1
  subst hsame
  induction h generalizing literals' piece' as' with
  | close _ =>
    cases hliterals
    cases hliterals'
    rfl
  | @element isFirst gap literal more literals hgap hmore ih =>
    cases hliterals with
    | cons hliteral hliterals =>
      cases hliterals' with
      | cons hliteral' hliterals' =>
        cases h' with
        | @element _ gap' literal' more' literals' hgap' hmore' =>
          -- The gaps are alike, since both lead to the same rest; then so are the first literals.
          simp only [List.append_assoc] at htext
          have hitem := item_of_element hr hgap hliteral (more ++ rest)
          rw [htext, item_of_element hr hgap' hliteral' (more' ++ rest')] at hitem
          simp only [Except.ok.injEq, Prod.mk.injEq, true_and] at hitem
          have hread := hliteral.read_append hr (hmore.ends rest)
          rw [← hitem, hliteral'.read_append hr (hmore'.ends rest')] at hread
          simp only [Except.ok.injEq, Prod.mk.injEq, true_and] at hread
          rw [hread] at hitem
          rw [List.append_cancel_right hitem, ih hmore' hliterals' hread.symm hliterals]

/-- Whatever is read as elements is made of literals with gaps between them. -/
theorem listing_of_elements (hr : Piecewise r) {text rest : List Char} {as : List α}
    (h : elements r isFirst text = .ok (as, rest)) :
    ∃ literals piece, Listing isFirst literals piece ∧ List.Forall₂ r.IsLiteral literals as
      ∧ text = piece ++ rest := by
  fun_induction elements r isFirst text generalizing as rest with
  | case1 => simp at h
  | case2 isFirst text tail hitem =>
    simp only [Except.ok.injEq, Prod.mk.injEq] at h
    obtain ⟨rfl, rfl⟩ := h
    obtain ⟨gap, tail, hgap, rfl, rfl⟩ := item_eq_false_iff.mp hitem
    exact ⟨[], gap ++ [']'], .close hgap, .nil, by simp⟩
  | case3 => simp at h
  | case4 => simp at h
  | case5 isFirst text tail hitem a tail' hread as' tail'' hrest ih =>
    simp only [Except.ok.injEq, Prod.mk.injEq] at h
    obtain ⟨rfl, rfl⟩ := h
    obtain ⟨literals, piece, hlisting, hliterals, rfl⟩ := ih hrest
    obtain ⟨gap, c, after, hgap, hcons, hblank, -, rfl⟩ := item_eq_true_iff.mp hitem
    obtain ⟨literal, rfl, hliteral⟩ := hr.cuts hread
    have hself : r.read literal = .ok (a, []) := by simpa using hliteral [] ends_nil
    have hhead : ∀ d, literal.head? = some d → isBlank d = false := by
      intro d hd
      obtain ⟨rest, rfl⟩ := List.head?_eq_some_iff.mp hd
      obtain rfl : d = c := by simpa using congrArg List.head? hcons
      exact hblank
    exact ⟨literal :: literals, gap ++ (literal ++ piece), .element hgap hlisting,
      .cons ⟨hself, hhead⟩ hliterals, by simp⟩

/-- **The text of a list is the texts of its elements with gaps between them.** -/
theorem elements_eq_ok_iff (hr : Piecewise r) {text rest : List Char} {as : List α} :
    elements r isFirst text = .ok (as, rest)
      ↔ ∃ literals piece, Listing isFirst literals piece ∧ List.Forall₂ r.IsLiteral literals as
        ∧ text = piece ++ rest := by
  constructor
  · exact listing_of_elements hr
  · rintro ⟨literals, piece, hlisting, hliterals, rfl⟩
    exact elements_of_listing hr hlisting hliterals rest

theorem elements_cuts (hr : Piecewise r) : Cuts Anything (elements r isFirst) := by
  intro text rest as h
  obtain ⟨literals, piece, hlisting, hliterals, rfl⟩ := listing_of_elements hr h
  exact ⟨piece, rfl, fun more _ => elements_of_listing hr hlisting hliterals more⟩

end

/-! ## Objects -/

theorem keyName_eq_ok_iff {text rest : List Char} {name : Option String} :
    keyName text = .ok (name, rest)
      ↔ ∃ body cs, text = '"' :: body ∧ Literal.characters body = .ok (cs, rest)
        ∧ name = some (String.ofList cs) := by
  constructor
  · intro h
    unfold keyName at h
    split at h
    next => simp at h
    next c tail =>
      split at h
      next hc =>
        split at h
        next => simp at h
        next cs tail' hcharacters =>
          simp only [Except.ok.injEq, Prod.mk.injEq] at h
          obtain ⟨rfl, rfl⟩ := h
          exact ⟨tail, cs, by rw [hc], hcharacters, rfl⟩
      next => simp at h
  · rintro ⟨body, cs, rfl, hcharacters, rfl⟩
    simp only [keyName, if_pos, hcharacters]

/-- An object ends after blanks with its brace. -/
theorem key_eq_none_iff {isFirst : Bool} {text rest : List Char} :
    key isFirst text = .ok (none, rest) ↔ ∃ gap, Blank gap ∧ text = gap ++ '\x7d' :: rest := by
  have hname {text : List Char} : keyName text ≠ .ok (none, rest) := by
    intro h
    obtain ⟨_, _, -, -, hnone⟩ := keyName_eq_ok_iff.mp h
    simp at hnone
  constructor
  · intro h
    unfold key at h
    split at h
    next => simp at h
    next c tail htext =>
      obtain ⟨-, gap, hgap, rfl⟩ := skipBlanks_eq_cons_iff.mp htext
      split at h
      next hc =>
        simp only [Except.ok.injEq, Prod.mk.injEq, true_and] at h
        exact ⟨gap, hgap, by rw [hc, h]⟩
      next =>
        repeat' split at h
        all_goals first | exact absurd h hname | simp at h
  · rintro ⟨gap, hgap, rfl⟩
    have hskip : skipBlanks (gap ++ '\x7d' :: rest) = '\x7d' :: rest :=
      skipBlanks_eq_cons_iff.mpr ⟨by decide, gap, hgap, rfl⟩
    simp only [key, hskip, if_pos]

/-- Otherwise there is a gap and the name of a member. -/
theorem key_eq_some_iff {isFirst : Bool} {text rest : List Char} {name : String} :
    key isFirst text = .ok (some name, rest)
      ↔ ∃ gap body cs, Gap isFirst gap ∧ Literal.characters body = .ok (cs, rest)
        ∧ name = String.ofList cs ∧ text = gap ++ '"' :: body := by
  constructor
  · intro h
    unfold key at h
    split at h
    next => simp at h
    next c tail htext =>
      obtain ⟨-, gap, hgap, rfl⟩ := skipBlanks_eq_cons_iff.mp htext
      split at h
      next => simp at h
      next hc =>
        split at h
        next hfirst =>
          obtain ⟨body, cs, hcons, hcharacters, hname⟩ := keyName_eq_ok_iff.mp h
          exact ⟨gap, body, cs, hfirst ▸ .first hgap, hcharacters, Option.some.inj hname,
            by rw [hcons]⟩
        next hfirst =>
          split at h
          next hcomma =>
            split at h
            next => simp at h
            next d tail' hskip =>
              split at h
              next => simp at h
              next hd =>
                obtain ⟨body, cs, hcons, hcharacters, hname⟩ := keyName_eq_ok_iff.mp h
                obtain ⟨-, after, hafter, rfl⟩ := skipBlanks_eq_cons_iff.mp hskip
                obtain rfl := Bool.eq_false_iff.mpr hfirst
                exact ⟨gap ++ ',' :: after, body, cs, .next hgap hafter, hcharacters,
                  Option.some.inj hname, by rw [hcomma, hcons]; simp⟩
          next => simp at h
  · rintro ⟨gap, body, cs, hgap, hcharacters, rfl, rfl⟩
    have hname : keyName ('"' :: body) = .ok (some (String.ofList cs), rest) :=
      keyName_eq_ok_iff.mpr ⟨body, cs, rfl, hcharacters, rfl⟩
    cases hgap with
    | first hgap =>
      have hskip : skipBlanks (gap ++ '"' :: body) = '"' :: body :=
        skipBlanks_eq_cons_iff.mpr ⟨by decide, gap, hgap, rfl⟩
      rw [key, hskip]
      simp only
      rw [if_neg (by decide), if_pos trivial, hname]
    | @next before after hbefore hafter =>
      have hskip : skipBlanks (before ++ ',' :: (after ++ '"' :: body))
          = ',' :: (after ++ '"' :: body) :=
        skipBlanks_eq_cons_iff.mpr ⟨by decide, before, hbefore, rfl⟩
      have hskip' : skipBlanks (after ++ '"' :: body) = '"' :: body :=
        skipBlanks_eq_cons_iff.mpr ⟨by decide, after, hafter, rfl⟩
      rw [List.append_assoc, List.cons_append, key, hskip]
      simp only
      rw [if_neg (by decide), if_neg (by decide), if_pos trivial, hskip']
      simp only
      rw [if_neg (by decide), hname]

theorem colon_eq_ok_iff {text rest : List Char} :
    colon text = .ok rest ↔ ∃ gap, Blank gap ∧ text = gap ++ ':' :: rest := by
  constructor
  · intro h
    unfold colon at h
    split at h
    next => simp at h
    next c tail htext =>
      obtain ⟨-, gap, hgap, rfl⟩ := skipBlanks_eq_cons_iff.mp htext
      split at h
      next hc => exact ⟨gap, hgap, by rw [hc, Except.ok.inj h]⟩
      next => simp at h
  · rintro ⟨gap, hgap, rfl⟩
    have hskip : skipBlanks (gap ++ ':' :: rest) = ':' :: rest :=
      skipBlanks_eq_cons_iff.mpr ⟨by decide, gap, hgap, rfl⟩
    simp only [colon, hskip, if_pos]

/-- A key is a piece, and so is the end of an object. -/
theorem key_cuts (isFirst : Bool) : Cuts Anything (key isFirst) := by
  intro text rest name h
  cases name with
  | none =>
    obtain ⟨gap, hgap, rfl⟩ := key_eq_none_iff.mp h
    exact ⟨gap ++ ['\x7d'], by simp, fun more _ => key_eq_none_iff.mpr ⟨gap, hgap, by simp⟩⟩
  | some name =>
    obtain ⟨gap, body, cs, hgap, hcharacters, hname, rfl⟩ := key_eq_some_iff.mp h
    obtain ⟨piece, rfl, hpiece⟩ := Literal.characters_cuts hcharacters
    exact ⟨gap ++ '"' :: piece, by simp, fun more _ =>
      key_eq_some_iff.mpr ⟨gap, piece ++ more, cs, hgap, hpiece more trivial, hname, by simp⟩⟩

/-- What comes after the value of a member cannot be taken for more of a numeral. -/
theorem ends_of_key {text rest : List Char} {name : Option String}
    (h : key false text = .ok (name, rest)) : Ends text := by
  cases name with
  | none =>
    obtain ⟨gap, hgap, rfl⟩ := key_eq_none_iff.mp h
    exact ends_gap hgap (by decide) _
  | some name =>
    obtain ⟨gap, body, cs, hgap, -, -, rfl⟩ := key_eq_some_iff.mp h
    cases hgap with
    | next hbefore _ =>
      rw [List.append_assoc]
      exact ends_gap hbefore (by decide) _

section

variable {σ : Type} {member : σ → String → Except Mismatch (Reader σ)}

theorem ends_of_members {state result : σ} {text rest : List Char}
    (h : members member state false text = .ok (result, rest)) : Ends text := by
  rw [members.eq_def] at h
  split at h
  next => simp at h
  next hkey => exact ends_of_key hkey
  next hkey => exact ends_of_key hkey

/-- **An object is a piece if the values of its members are.** -/
theorem members_cuts (hmember : ∀ {state name r}, member state name = .ok r → Cuts Ends r.read)
    (state : σ) (isFirst : Bool) : Cuts Anything (members member state isFirst) := by
  intro text rest result h
  fun_induction members member state isFirst text with
  | case1 => simp at h
  | case2 state isFirst text tail hkey =>
    simp only [Except.ok.injEq, Prod.mk.injEq] at h
    obtain ⟨rfl, rfl⟩ := h
    obtain ⟨piece, rfl, hpiece⟩ := key_cuts isFirst hkey
    refine ⟨piece, rfl, fun more _ => ?_⟩
    rw [members.eq_def, hpiece more trivial]
  | case3 => simp at h
  | case4 => simp at h
  | case5 => simp at h
  | case6 state isFirst text name tail hkey r hreader tail' hcolon next tail'' hread ih =>
    obtain ⟨others, rfl, hothers⟩ := ih h
    -- At least the closing bracket comes after the value, so the value cannot go on with `more`.
    have hne : others ≠ [] := by
      rintro rfl
      exact absurd (members_shrinks h) (Nat.lt_irrefl _)
    obtain ⟨value, rfl, hvalue⟩ := hmember hreader hread
    obtain ⟨gap, hgap, rfl⟩ := colon_eq_ok_iff.mp hcolon
    obtain ⟨piece, rfl, hpiece⟩ := key_cuts isFirst hkey
    refine ⟨piece ++ (gap ++ ':' :: (value ++ others)), by simp, fun more _ => ?_⟩
    have htext : piece ++ (gap ++ ':' :: (value ++ others)) ++ more
        = piece ++ (gap ++ ':' :: (value ++ (others ++ more))) := by simp
    rw [htext, members.eq_def, hpiece _ trivial]
    simp only
    rw [hreader]
    simp only
    rw [colon_eq_ok_iff.mpr ⟨gap, hgap, rfl⟩]
    simp only
    rw [hvalue _ (ends_append (ends_of_members h) hne more)]
    exact hothers more trivial

end

/-! ## Values -/

section

variable {inner : Reader Json}

theorem listBody_cuts (hinner : Piecewise inner) : Cuts Anything (listBody inner) := by
  intro text rest v h
  obtain ⟨items, helements, rfl⟩ := listBody_eq_ok_iff.mp h
  obtain ⟨piece, rfl, hpiece⟩ := elements_cuts hinner helements
  exact ⟨piece, rfl, fun more _ => listBody_eq_ok_iff.mpr ⟨items, hpiece more trivial, rfl⟩⟩

theorem objectBody_cuts (hinner : Piecewise inner) : Cuts Anything (objectBody inner) := by
  intro text rest v h
  obtain ⟨reversed, hmembers, rfl⟩ := objectBody_eq_ok_iff.mp h
  have hmember {state : List (String × Json)} {name : String} {r : Reader (List (String × Json))}
      (hr : (Except.ok (inner.map fun v => (name, v) :: state)
        : Except Mismatch (Reader (List (String × Json)))) = .ok r) : Cuts Ends r.read :=
    Except.ok.inj hr ▸ (hinner.map _).cuts
  obtain ⟨piece, rfl, hpiece⟩ := members_cuts hmember [] true hmembers
  exact ⟨piece, rfl, fun more _ => objectBody_eq_ok_iff.mpr ⟨reversed, hpiece more trivial, rfl⟩⟩

/-- A value starts with its first token, and ends with it if it is a scalar. -/
theorem token_of_node {inner : Option (Reader Json)} {text rest : List Char} {v : Json}
    (h : (node inner).read text = .ok (v, rest)) :
    ∃ tail, token text = .ok (v.first, tail) ∧ (v.first.scalar?.isSome = true → tail = rest) := by
  simp only [node] at h
  split at h
  next => simp at h
  next t tail htoken =>
    split at h
    next w hscalar =>
      simp only [Except.ok.injEq, Prod.mk.injEq] at h
      obtain ⟨rfl, rfl⟩ := h
      exact ⟨tail, by rw [htoken, first_of_scalar? hscalar], fun _ => rfl⟩
    next => simp at h
    next r hscalar =>
      split at h
      next hlist =>
        obtain ⟨items, -, rfl⟩ := listBody_eq_ok_iff.mp h
        exact ⟨tail, by rw [htoken, hlist]; rfl, by simp [first, Token.scalar?]⟩
      next hlist =>
        have hobject : t = .openObject := by cases t <;> simp_all [Token.scalar?]
        obtain ⟨reversed, -, rfl⟩ := objectBody_eq_ok_iff.mp h
        exact ⟨tail, by rw [htoken, hobject]; rfl, by simp [first, Token.scalar?]⟩

/-- A value starts with its first token, and a scalar is no more than that. -/
theorem token_of_value {depth : Nat} {text rest : List Char} {v : Json}
    (h : (value depth).read text = .ok (v, rest)) :
    ∃ tail, token text = .ok (v.first, tail) ∧ (v.first.scalar?.isSome = true → tail = rest) := by
  cases depth with
  | zero => exact token_of_node h
  | succ depth => exact token_of_node h

theorem token_ne_of_bracket {text : List Char} {result : Token × List Char} :
    token (']' :: text) ≠ .ok result := by
  rw [token, skipBlanks_cons _ (by decide)]
  simp [Numeral.isDigit]

/-- Values with so many brackets open are pieces if those with one less are. -/
theorem piecewise_node {inner : Option (Reader Json)} (hinner : ∀ r ∈ inner, Piecewise r) :
    Piecewise (node inner) where
  cuts text rest v h := by
    simp only [node] at h
    split at h
    next => simp at h
    next t tail htoken =>
      obtain ⟨piece, rfl, hpiece⟩ := token_cut htoken
      split at h
      next w hscalar =>
        simp only [Except.ok.injEq, Prod.mk.injEq] at h
        obtain ⟨rfl, rfl⟩ := h
        refine ⟨piece, rfl, fun more hmore => ?_⟩
        simp only [node, hpiece more fun _ => hmore, hscalar]
      next => simp at h
      next r hscalar =>
        -- A bracket is complete by itself, so anything may follow it.
        have hopens (more : List Char) : token (piece ++ more) = .ok (t, more) :=
          hpiece more fun hsome => by simp [hscalar] at hsome
        have hr : Piecewise r := hinner r rfl
        split at h
        next hlist =>
          obtain ⟨body, rfl, hbody⟩ := listBody_cuts hr h
          refine ⟨piece ++ body, by simp, fun more _ => ?_⟩
          simp only [List.append_assoc, node, hopens, hscalar, if_pos hlist, hbody more trivial]
        next hlist =>
          obtain ⟨body, rfl, hbody⟩ := objectBody_cuts hr h
          refine ⟨piece ++ body, by simp, fun more _ => ?_⟩
          simp only [List.append_assoc, node, hopens, hscalar, if_neg hlist, hbody more trivial]
  no_end text result h := by
    simp only [node] at h
    split at h
    next => simp at h
    next htoken => exact token_ne_of_bracket htoken

/-- **A value is a piece of the text that it is read from.** -/
theorem piecewise_value (depth : Nat) : Piecewise (value depth) := by
  induction depth with
  | zero => exact piecewise_node (by simp)
  | succ depth ih => exact piecewise_node (by simpa using ih)

end

end Worklog.Json
