import Mathlib.Data.List.Forall2
import Mathlib.Data.List.TakeWhile
import Worklog.Proofs.Reading.Numeral
import Worklog.Proofs.Roundtrip.Value

/-!
# Readers take pieces

A reader takes a piece from the front of a text, and what it makes of the piece does not depend on
what follows, so long as that cannot be taken for more of a numeral. So the text of one value can be
cut out of a longer text, and put into another.

* `token_eq_ok_iff` — the ways in which a text starts with a token.
* `elements_eq_ok_iff` — the text of a list is its elements with gaps between them.
* `piecewise_value` — any value is a piece.
-/

namespace Worklog.Json

open Numeral (Ends ends_nil ends_cons)

/-! ## Pieces -/

section

variable {α : Type}

/-- What is read is a piece of the text. It is read in the same way whatever comes after it, if that
may come after it. -/
def Cuts (mayFollow : List Char → Prop) (read : List Char → Except Fault (α × List Char)) : Prop :=
  ∀ ⦃text rest : List Char⦄ ⦃a : α⦄, read text = .ok (a, rest) →
    ∃ piece, text = piece ++ rest ∧ ∀ more, mayFollow more → read (piece ++ more) = .ok (a, more)

/-- Any text. -/
def Anything (_ : List Char) : Prop := True

end

/-- A piece that nothing else can be taken into keeps this when the text after it is another. -/
theorem ends_append {piece rest : List Char} (h : Ends (piece ++ rest)) (hne : piece ≠ [])
    (more : List Char) : Ends (piece ++ more) := by
  cases piece with
  | nil => exact absurd rfl hne
  | cons c piece => exact ends_cons _ (h c rfl)

/-! ## String literals -/

namespace Literal

/-- Four hexadecimal digits make a word. -/
theorem hexWord_cuts : Cuts Anything hexWord := by
  intro text rest n h
  unfold hexWord at h
  split at h
  next result hresult =>
    obtain rfl := Except.ok.inj h
    unfold hexWord? at hresult
    split at hresult
    next a b c d tail =>
      simp only [Option.bind_eq_bind, Option.bind_eq_some_iff, Option.pure_def,
        Option.some.injEq, Prod.mk.injEq] at hresult
      obtain ⟨x, ha, y, hb, z, hc, w, hd, rfl, rfl⟩ := hresult
      refine ⟨[a, b, c, d], rfl, fun more _ => ?_⟩
      simp [hexWord, hexWord?, ha, hb, hc, hd]
    next => simp at hresult
  next => split at h <;> simp at h

/-- The second half of a pair is a word with an escape of its own. -/
theorem trailingWord_cuts : Cuts Anything trailingWord := by
  intro text rest n h
  unfold trailingWord at h
  split at h
  · simp at h
  · simp at h
  · next tail =>
    split at h
    next => simp at h
    next m tail' hword =>
      split at h
      next htrailing =>
        simp only [Except.ok.injEq, Prod.mk.injEq] at h
        obtain ⟨rfl, rfl⟩ := h
        obtain ⟨piece, rfl, hpiece⟩ := hexWord_cuts hword
        refine ⟨'\\' :: 'u' :: piece, rfl, fun more hmore => ?_⟩
        simp only [List.cons_append, trailingWord, hpiece more hmore, if_pos htrailing]
      next => simp at h
  · simp at h
  · simp at h

/-- An escape in hexadecimal is one word or a pair of them. -/
theorem hexEscape_cuts : Cuts Anything hexEscape := by
  intro text rest c h
  unfold hexEscape at h
  split at h
  next => simp at h
  next n tail hword =>
    obtain ⟨piece, rfl, hpiece⟩ := hexWord_cuts hword
    split at h
    next => simp at h
    next htrailing =>
      split at h
      next hleading =>
        split at h
        next => simp at h
        next m tail' hsecond =>
          simp only [Except.ok.injEq, Prod.mk.injEq] at h
          obtain ⟨rfl, rfl⟩ := h
          obtain ⟨second, rfl, hread⟩ := trailingWord_cuts hsecond
          refine ⟨piece ++ second, (List.append_assoc ..).symm, fun more hmore => ?_⟩
          rw [List.append_assoc, hexEscape, hpiece _ trivial]
          simp only [if_neg htrailing, if_pos hleading, hread more hmore]
      next hleading =>
        simp only [Except.ok.injEq, Prod.mk.injEq] at h
        obtain ⟨rfl, rfl⟩ := h
        refine ⟨piece, rfl, fun more hmore => ?_⟩
        rw [hexEscape, hpiece more hmore]
        simp only [if_neg htrailing, if_neg hleading]

theorem escape_cuts : Cuts Anything escape := by
  intro text rest c h
  unfold escape at h
  split at h
  next => simp at h
  next letter tail =>
    split at h
    next hletter =>
      obtain ⟨piece, rfl, hpiece⟩ := hexEscape_cuts h
      refine ⟨letter :: piece, rfl, fun more hmore => ?_⟩
      rw [List.cons_append, escape, if_pos hletter, hpiece more hmore]
    next hletter =>
      split at h
      next d hshort =>
        simp only [Except.ok.injEq, Prod.mk.injEq] at h
        obtain ⟨rfl, rfl⟩ := h
        refine ⟨[letter], rfl, fun more _ => ?_⟩
        simp only [List.cons_append, List.nil_append, escape, if_neg hletter, hshort]
      next => simp at h

/-- A character is a piece, escaped or not, and so is the closing quote. -/
theorem character_cuts : Cuts Anything character := by
  intro text rest result h
  unfold character at h
  split at h
  next => simp at h
  next c tail =>
    split at h
    next hquote =>
      simp only [Except.ok.injEq, Prod.mk.injEq] at h
      obtain ⟨rfl, rfl⟩ := h
      exact ⟨[c], rfl, fun more _ => by simp [character, hquote]⟩
    next hquote =>
      split at h
      next hbackslash =>
        split at h
        next => simp at h
        next d tail' hescape =>
          simp only [Except.ok.injEq, Prod.mk.injEq] at h
          obtain ⟨rfl, rfl⟩ := h
          obtain ⟨piece, rfl, hpiece⟩ := escape_cuts hescape
          refine ⟨c :: piece, rfl, fun more hmore => ?_⟩
          simp only [List.cons_append, character, if_neg hquote, if_pos hbackslash,
            hpiece more hmore]
      next hbackslash =>
        split at h
        next => simp at h
        next hcontrol =>
          simp only [Except.ok.injEq, Prod.mk.injEq] at h
          obtain ⟨rfl, rfl⟩ := h
          refine ⟨[c], rfl, fun more _ => ?_⟩
          simp only [List.cons_append, List.nil_append, character, if_neg hquote,
            if_neg hbackslash, if_neg hcontrol]

/-- **A string literal is a piece**, since it brings its closing quote. -/
theorem characters_cuts : Cuts Anything characters := by
  intro text rest cs h
  induction text using characters.induct generalizing cs rest with
  | case1 text fault hc =>
    rw [characters] at h
    split at h <;> simp_all
  | case2 text tail hc =>
    obtain ⟨piece, rfl, hpiece⟩ := character_cuts hc
    have hread (more : List Char) : characters (piece ++ more) = .ok ([], more) := by
      rw [characters.eq_def, hpiece more trivial]
    rw [hread, Except.ok.injEq, Prod.mk.injEq] at h
    obtain ⟨rfl, rfl⟩ := h
    exact ⟨piece, rfl, fun more _ => hread more⟩
  | case3 text c tail hc fault hrest ih =>
    rw [characters] at h
    split at h <;> simp_all
  | case4 text c tail hc cs' rest' hrest ih =>
    obtain ⟨piece, rfl, hpiece⟩ := character_cuts hc
    obtain ⟨others, rfl, hothers⟩ := ih hrest
    have hread (more : List Char) :
        characters (piece ++ (others ++ more)) = .ok (c :: cs', more) := by
      rw [characters.eq_def, hpiece _ trivial]
      simp only [hothers more trivial]
    rw [hread, Except.ok.injEq, Prod.mk.injEq] at h
    obtain ⟨rfl, rfl⟩ := h
    exact ⟨piece ++ others, (List.append_assoc ..).symm, fun more _ => by
      rw [List.append_assoc, hread]⟩

end Literal

/-! ## Gaps -/

/-- Only blanks. -/
def Blank (gap : List Char) : Prop := ∀ c ∈ gap, isBlank c = true

theorem blank_nil : Blank [] := List.forall_mem_nil _

theorem skipBlanks_append {gap : List Char} (h : Blank gap) (rest : List Char) :
    skipBlanks (gap ++ rest) = skipBlanks rest :=
  List.dropWhile_append_of_pos h

theorem skipBlanks_eq_nil_iff {text : List Char} : skipBlanks text = [] ↔ Blank text :=
  List.dropWhile_eq_nil_iff

/-- What is left after blanks starts with no blank. -/
theorem skipBlanks_eq_cons_iff {text rest : List Char} {c : Char} :
    skipBlanks text = c :: rest
      ↔ isBlank c = false ∧ ∃ gap, Blank gap ∧ text = gap ++ c :: rest := by
  constructor
  · intro h
    have hblank : isBlank c = false := by
      have hhead := List.head?_dropWhile_not isBlank text
      rw [skipBlanks] at h
      simpa [h] using hhead
    refine ⟨hblank, text.takeWhile isBlank, ?_, ?_⟩
    · exact List.all_eq_true.mp List.all_takeWhile
    · rw [← h]
      exact (List.takeWhile_append_dropWhile ..).symm
  · rintro ⟨hblank, gap, hgap, rfl⟩
    rw [skipBlanks_append hgap, skipBlanks_cons _ hblank]

/-! ## Tokens -/

theorem letters_eq_ok_iff {word text rest : List Char} :
    letters word text = .ok rest ↔ text = word ++ rest := by
  induction word generalizing text with
  | nil => simp [letters]
  | cons w word ih =>
    cases text with
    | nil => simp [letters]
    | cons c tail =>
      rw [letters]
      split
      next hc => simp [ih, hc]
      next hc => simp [hc]

/-- The ways in which a text without blanks in front starts with a token. -/
inductive Starts : List Char → Token → List Char → Prop
  | null (rest : List Char) : Starts ('n' :: 'u' :: 'l' :: 'l' :: rest) .null rest
  | yes (rest : List Char) : Starts ('t' :: 'r' :: 'u' :: 'e' :: rest) (.bool true) rest
  | no (rest : List Char) : Starts ('f' :: 'a' :: 'l' :: 's' :: 'e' :: rest) (.bool false) rest
  | number {text rest : List Char} {n : Number} (h : Numeral.read text = .ok (n, rest)) :
      Starts text (.number n) rest
  | string {text cs rest : List Char} (h : Literal.characters text = .ok (cs, rest)) :
      Starts ('"' :: text) (.string (String.ofList cs)) rest
  | openList (rest : List Char) : Starts ('[' :: rest) .openList rest
  | openObject (rest : List Char) : Starts ('\x7b' :: rest) .openObject rest

theorem word_eq_ok_iff {tail text rest : List Char} {t u : Token} :
    word tail t text = .ok (u, rest) ↔ u = t ∧ text = tail ++ rest := by
  rw [← letters_eq_ok_iff, word]
  split
  next fault hletters => simp [hletters]
  next tail' hletters => simp [hletters, eq_comm]

/-- A token comes after blanks, and its first character tells which it is. -/
theorem starts_of_token {text rest : List Char} {t : Token} (h : token text = .ok (t, rest)) :
    ∃ gap piece, Blank gap ∧ text = gap ++ piece ∧ Starts piece t rest := by
  unfold token at h
  split at h
  next => simp at h
  next c tail htext =>
    obtain ⟨-, gap, hgap, rfl⟩ := skipBlanks_eq_cons_iff.mp htext
    refine ⟨gap, c :: tail, hgap, rfl, ?_⟩
    -- One test for each way to start, in the order in which the reader makes them.
    split at h
    next hc =>
      obtain ⟨rfl, rfl⟩ := word_eq_ok_iff.mp h
      exact hc ▸ .null rest
    split at h
    next hc =>
      obtain ⟨rfl, rfl⟩ := word_eq_ok_iff.mp h
      exact hc ▸ .yes rest
    split at h
    next hc =>
      obtain ⟨rfl, rfl⟩ := word_eq_ok_iff.mp h
      exact hc ▸ .no rest
    split at h
    next =>
      split at h
      next => simp at h
      next hnumeral =>
        simp only [Except.ok.injEq, Prod.mk.injEq] at h
        obtain ⟨rfl, rfl⟩ := h
        exact .number hnumeral
    split at h
    next hc =>
      split at h
      next => simp at h
      next hcharacters =>
        simp only [Except.ok.injEq, Prod.mk.injEq] at h
        obtain ⟨rfl, rfl⟩ := h
        exact hc ▸ .string hcharacters
    split at h
    next hc =>
      simp only [Except.ok.injEq, Prod.mk.injEq] at h
      obtain ⟨rfl, rfl⟩ := h
      exact hc ▸ .openList tail
    split at h
    next hc =>
      simp only [Except.ok.injEq, Prod.mk.injEq] at h
      obtain ⟨rfl, rfl⟩ := h
      exact hc ▸ .openObject tail
    · simp at h

/-- A text that starts in one of the ways of a token is read as that token. -/
theorem Starts.token {text rest : List Char} {t : Token} (h : Starts text t rest) :
    token text = .ok (t, rest) := by
  cases h with
  | null =>
    show word ['u', 'l', 'l'] .null (['u', 'l', 'l'] ++ rest) = _
    rw [word, letters_append]
  | yes =>
    show word ['r', 'u', 'e'] (.bool true) (['r', 'u', 'e'] ++ rest) = _
    rw [word, letters_append]
  | no =>
    show word ['a', 'l', 's', 'e'] (.bool false) (['a', 'l', 's', 'e'] ++ rest) = _
    rw [word, letters_append]
  | number h =>
    obtain ⟨piece, numeral, hpiece, -, rfl⟩ := Numeral.writes_of_read h
    obtain ⟨c, tail, rfl, hc⟩ := hpiece.head
    exact token_numeral (List.cons_append ..) hc h
  | string h =>
    rw [Json.token, skipBlanks_cons _ (by decide)]
    simp [h, Numeral.isDigit]
  | openList => rfl
  | openObject => rfl

/-- The first token of a text is unique. -/
theorem starts_unique {text rest tail : List Char} {t u : Token} (h : Starts text t rest)
    (h' : Starts text u tail) : t = u ∧ rest = tail := by
  have htoken := h.token
  rw [h'.token] at htoken
  simp only [Except.ok.injEq, Prod.mk.injEq] at htoken
  exact ⟨htoken.1.symm, htoken.2.symm⟩

/-- A numeral can only be taken for a number. -/
theorem number_of_writes {text rest : List Char} {t : Token} {numeral : Numeral}
    (hwrites : numeral.Writes text) (h : Starts text t rest) :
    ∃ n, t = .number n ∧ Numeral.read text = .ok (n, rest) := by
  obtain ⟨c, tail, hcons, hc⟩ := hwrites.head
  cases h with
  | @number _ _ n hread => exact ⟨n, rfl, hread⟩
  | _ =>
    -- No other token starts with a sign or a digit.
    obtain ⟨rfl, -⟩ := List.cons.inj hcons
    exact absurd hc (by decide)

theorem token_append {gap : List Char} (h : Blank gap) (text : List Char) :
    token (gap ++ text) = token text := by
  rw [token, token, skipBlanks_append h]

/-- **A text starts with a token in one of these ways**, after blanks. -/
theorem token_eq_ok_iff {text rest : List Char} {t : Token} :
    token text = .ok (t, rest)
      ↔ ∃ gap piece, Blank gap ∧ text = gap ++ piece ∧ Starts piece t rest := by
  constructor
  · exact starts_of_token
  · rintro ⟨gap, piece, hgap, rfl, hpiece⟩
    rw [token_append hgap, hpiece.token]

theorem token_eq_openList_iff {text rest : List Char} :
    token text = .ok (.openList, rest) ↔ ∃ gap, Blank gap ∧ text = gap ++ '[' :: rest := by
  rw [token_eq_ok_iff]
  constructor
  · rintro ⟨gap, piece, hgap, rfl, hpiece⟩
    cases hpiece
    exact ⟨gap, hgap, rfl⟩
  · rintro ⟨gap, hgap, rfl⟩
    exact ⟨gap, _, hgap, rfl, .openList rest⟩

/-- What may follow a token. An opening bracket is complete by itself. -/
def Token.MayPrecede (t : Token) (more : List Char) : Prop :=
  t.scalar?.isSome = true → Ends more

/-- What a token is read from is a piece. -/
theorem Starts.cut {text rest : List Char} {t : Token} (h : Starts text t rest) :
    ∃ piece, text = piece ++ rest ∧ ∀ more, t.MayPrecede more → Starts (piece ++ more) t more := by
  cases h with
  | null => exact ⟨['n', 'u', 'l', 'l'], rfl, fun more _ => .null more⟩
  | yes => exact ⟨['t', 'r', 'u', 'e'], rfl, fun more _ => .yes more⟩
  | no => exact ⟨['f', 'a', 'l', 's', 'e'], rfl, fun more _ => .no more⟩
  | number h =>
    obtain ⟨piece, numeral, hpiece, hvalue, rfl⟩ := Numeral.writes_of_read h
    exact ⟨piece, rfl, fun more hmore => .number (Numeral.read_append hpiece hvalue (hmore rfl))⟩
  | string h =>
    obtain ⟨piece, rfl, hpiece⟩ := Literal.characters_cuts h
    exact ⟨'"' :: piece, rfl, fun more _ => .string (hpiece more trivial)⟩
  | openList => exact ⟨['['], rfl, fun more _ => .openList more⟩
  | openObject => exact ⟨['\x7b'], rfl, fun more _ => .openObject more⟩

theorem token_cut {text rest : List Char} {t : Token} (h : token text = .ok (t, rest)) :
    ∃ piece, text = piece ++ rest
      ∧ ∀ more, t.MayPrecede more → token (piece ++ more) = .ok (t, more) := by
  obtain ⟨gap, piece, hgap, rfl, hstarts⟩ := starts_of_token h
  obtain ⟨piece, rfl, hpiece⟩ := hstarts.cut
  refine ⟨gap ++ piece, (List.append_assoc ..).symm, fun more hmore => ?_⟩
  rw [List.append_assoc, token_append hgap, (hpiece more hmore).token]

end Worklog.Json
