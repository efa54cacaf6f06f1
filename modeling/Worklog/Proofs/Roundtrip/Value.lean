import Worklog.Json.Document
import Worklog.Proofs.Roundtrip.Literal
import Worklog.Proofs.Roundtrip.Numeral

/-!
# Values written and read back

The text of a value is read back as that value, whatever follows it, so long as its numbers are
integers and its brackets are not nested too deeply. Lists and objects are loops over a reader for
one of their parts, so what is shown of them holds for every such reader.

* `value_chars` — a value, its members in their order and repeated where they are repeated.
* `parse_text` — a text that is written from a value, and nothing else.
* `members_chars` — an object, whatever is made of its members.
* `chars_printable` — the text has no control characters, so it is one line.
-/

namespace Worklog

/-- A number that is written without fraction and exponent, and read back as it was. -/
def Number.Whole : Number → Prop
  | natural _ => True
  | negative magnitude => magnitude ≠ 0 ∧ magnitude.toNat ≤ Json.Numeral.maxNegative
  | float _ => False

namespace Json

open Numeral (Ends ends_cons)

/-! ## Values that are written exactly -/

/-- A value whose numbers are whole and that has no more than so many brackets open at once. -/
inductive Fits : Nat → Json → Prop
  | null {depth : Nat} : Fits depth .null
  | bool {depth : Nat} (value : Bool) : Fits depth (.bool value)
  | number {depth : Nat} {value : Number} (h : value.Whole) : Fits depth (.number value)
  | string {depth : Nat} (value : String) : Fits depth (.string value)
  | list {depth : Nat} {items : List Json} (h : ∀ v ∈ items, Fits depth v) :
      Fits (depth + 1) (.list items)
  | object {depth : Nat} {members : List (String × Json)}
      (h : ∀ member ∈ members, Fits depth member.2) : Fits (depth + 1) (.object members)

/-! ## First characters -/

theorem skipBlanks_cons {c : Char} (rest : List Char) (h : isBlank c = false) :
    skipBlanks (c :: rest) = c :: rest := by
  simp [skipBlanks, List.dropWhile, h]

theorem text_natural (value : UInt64) :
    (Number.natural value).text.toList = Nat.toDigits 10 value.toNat := by
  simp [Number.text]

theorem text_negative (magnitude : UInt64) :
    (Number.negative magnitude).text.toList = '-' :: Nat.toDigits 10 magnitude.toNat := by
  simp [Number.text]

/-- A value starts with a character that is neither a blank nor the end of a list. -/
theorem head_chars {depth : Nat} {v : Json} (h : Fits depth v) :
    ∃ c rest, v.chars = c :: rest ∧ isBlank c = false ∧ c ≠ ']' := by
  cases h with
  | null => exact ⟨'n', _, rfl, by decide, by decide⟩
  | bool value => cases value <;> exact ⟨_, _, rfl, by decide, by decide⟩
  | number hn =>
    rename_i n
    rw [chars]
    cases n with
    | natural value =>
      rw [text_natural]
      cases hds : Nat.toDigits 10 value.toNat with
      | nil => exact absurd hds Nat.toDigits_ne_nil
      | cons d ds =>
        have hd := Numeral.isDigit_of_mem_digits (n := value.toNat) (c := d) (by rw [hds]; simp)
        refine ⟨d, ds, rfl, ?_, ?_⟩
        · simp only [isBlank, Bool.or_eq_false_iff, decide_eq_false_iff_not]
          refine ⟨⟨⟨?_, ?_⟩, ?_⟩, ?_⟩ <;> (rintro rfl; exact absurd hd (by decide))
        · rintro rfl
          exact absurd hd (by decide)
    | negative magnitude => exact ⟨'-', _, text_negative magnitude, by decide, by decide⟩
    | float bits => exact hn.elim
  | string value => exact ⟨'"', _, rfl, by decide, by decide⟩
  | @list depth items _ => cases items <;> exact ⟨'[', _, rfl, by decide, by decide⟩
  | @object depth members _ =>
    cases members with
    | nil => exact ⟨'\x7b', _, rfl, by decide, by decide⟩
    | cons member members =>
      obtain ⟨name, v⟩ := member
      exact ⟨'\x7b', _, rfl, by decide, by decide⟩

/-! ## Tokens -/

theorem letters_append (word rest : List Char) : letters word (word ++ rest) = .ok rest := by
  induction word with
  | nil => rfl
  | cons w word ih =>
    rw [List.cons_append, letters, if_pos rfl]
    exact ih

theorem stringChars_append (value : String) (rest : List Char) :
    stringChars value ++ rest = '"' :: (Literal.escaped value.toList ++ '"' :: rest) := by
  simp [stringChars]

/-- What starts with a sign or a digit is read as a number. -/
theorem token_numeral {n : Number} {c : Char} {tail text rest : List Char} (htext : text = c :: tail)
    (hc : c = '-' ∨ Numeral.isDigit c = true) (hread : Numeral.read text = .ok (n, rest)) :
    token text = .ok (.number n, rest) := by
  have hne : ∀ d : Char, d ≠ '-' → Numeral.isDigit d = false → c ≠ d := by
    rintro d hminus hdigit rfl
    rcases hc with h | h
    · exact hminus h
    · simp [hdigit] at h
  have hblank : isBlank c = false := by
    simp only [isBlank, Bool.or_eq_false_iff, decide_eq_false_iff_not]
    exact ⟨⟨⟨hne _ (by decide) (by decide), hne _ (by decide) (by decide)⟩,
      hne _ (by decide) (by decide)⟩, hne _ (by decide) (by decide)⟩
  subst htext
  rw [token, skipBlanks_cons _ hblank]
  simp only
  rw [if_neg (hne _ (by decide) (by decide)), if_neg (hne _ (by decide) (by decide)),
    if_neg (hne _ (by decide) (by decide)), if_pos (by simpa using hc), hread]

/-- A number without fraction and exponent is read back, if no more of a numeral follows. -/
theorem token_whole {n : Number} (h : n.Whole) {rest : List Char} (hrest : Ends rest) :
    token (n.text.toList ++ rest) = .ok (.number n, rest) := by
  cases n with
  | natural value =>
    rw [text_natural]
    have hread := Numeral.read_digits value hrest
    cases hds : Nat.toDigits 10 value.toNat with
    | nil => exact absurd hds Nat.toDigits_ne_nil
    | cons d ds =>
      have hd := Numeral.isDigit_of_mem_digits (n := value.toNat) (c := d) (by rw [hds]; simp)
      rw [hds] at hread
      exact token_numeral (List.cons_append ..) (Or.inr hd) hread
  | negative magnitude =>
    rw [text_negative]
    exact token_numeral rfl (Or.inl rfl) (Numeral.read_minus_digits h.1 h.2 hrest)
  | float bits => exact h.elim

/-- A scalar is one token. -/
theorem token_scalar {depth : Nat} {v : Json} (h : Fits depth v)
    (hscalar : v.first.scalar? = some v) {rest : List Char} (hrest : Ends rest) :
    token (v.chars ++ rest) = .ok (v.first, rest) := by
  cases h with
  | null =>
    show word ['u', 'l', 'l'] .null (['u', 'l', 'l'] ++ rest) = _
    rw [word, letters_append]
    rfl
  | bool value =>
    cases value with
    | false =>
      show word ['a', 'l', 's', 'e'] (.bool false) (['a', 'l', 's', 'e'] ++ rest) = _
      rw [word, letters_append]
      rfl
    | true =>
      show word ['r', 'u', 'e'] (.bool true) (['r', 'u', 'e'] ++ rest) = _
      rw [word, letters_append]
      rfl
  | number hn => exact token_whole hn hrest
  | string value =>
    show token (stringChars value ++ rest) = _
    rw [stringChars_append, token, skipBlanks_cons _ (by decide)]
    simp [Literal.characters_escaped, Numeral.isDigit, first]
  | list _ => simp [first, Token.scalar?] at hscalar
  | object _ => simp [first, Token.scalar?] at hscalar

theorem token_openList (rest : List Char) : token ('[' :: rest) = .ok (.openList, rest) := rfl

theorem token_openObject (rest : List Char) : token ('\x7b' :: rest) = .ok (.openObject, rest) := rfl

/-! ## Lists -/

/-- The reader reads back what is written of a value, whatever follows that. -/
def ReadsBack {α : Type} (r : Reader α) (v : Json) (a : α) : Prop :=
  ∀ rest, Ends rest → r.read (v.chars ++ rest) = .ok (a, rest)

/-- The first element of a list comes without a comma. -/
theorem item_first {depth : Nat} {v : Json} (h : Fits depth v) (rest : List Char) :
    item true (v.chars ++ rest) = .ok (true, v.chars ++ rest) := by
  obtain ⟨c, tail, hv, hblank, hclose⟩ := head_chars h
  rw [hv, List.cons_append, item, skipBlanks_cons _ hblank]
  simp only
  rw [if_neg hclose, if_pos trivial]

theorem item_next {depth : Nat} {v : Json} (h : Fits depth v) (rest : List Char) :
    item false (',' :: (v.chars ++ rest)) = .ok (true, v.chars ++ rest) := by
  obtain ⟨c, tail, hv, hblank, hclose⟩ := head_chars h
  rw [hv, List.cons_append, item, skipBlanks_cons _ (by decide)]
  simp only
  rw [if_neg (by decide), if_neg (by decide), if_pos trivial, skipBlanks_cons _ hblank]
  simp only
  rw [if_neg hclose]

/-- What follows an element cannot be taken for more of a numeral. -/
theorem ends_itemsAfter (items : List Json) (rest : List Char) :
    Ends (itemsAfter items ++ rest) := by
  cases items with
  | nil => exact ends_cons _ (by decide)
  | cons v items => exact ends_cons _ (by decide)

section

variable {depth : Nat} {r : Reader Json}

/-- Elements are read back one by one. -/
theorem elements_itemsAfter {items : List Json} (hfits : ∀ v ∈ items, Fits depth v)
    (hr : ∀ v ∈ items, ReadsBack r v v) (rest : List Char) :
    elements r false (itemsAfter items ++ rest) = .ok (items, rest) := by
  induction items with
  | nil =>
    rw [elements.eq_def]
    rfl
  | cons v items ih =>
    have htext : itemsAfter (v :: items) ++ rest
        = ',' :: (v.chars ++ (itemsAfter items ++ rest)) := by
      simp [itemsAfter]
    have hv := hr v List.mem_cons_self _ (ends_itemsAfter items rest)
    have hrest := ih (fun w hw => hfits w (List.mem_cons_of_mem _ hw))
      (fun w hw => hr w (List.mem_cons_of_mem _ hw))
    rw [htext, elements.eq_def, item_next (hfits v List.mem_cons_self)]
    simp only
    rw [hv]
    simp only [hrest]

/-- What is written of a list after its opening bracket is read back. -/
theorem listBody_chars {items : List Json} (hfits : ∀ v ∈ items, Fits depth v)
    (hr : ∀ v ∈ items, ReadsBack r v v) (rest : List Char) :
    ∃ text, (Json.list items).chars = '[' :: text
      ∧ listBody r (text ++ rest) = .ok (.list items, rest) := by
  cases items with
  | nil =>
    refine ⟨_, rfl, ?_⟩
    rw [listBody, elements.eq_def]
    rfl
  | cons v items =>
    refine ⟨v.chars ++ itemsAfter items, by rw [chars]; rfl, ?_⟩
    have hv := hr v List.mem_cons_self _ (ends_itemsAfter items rest)
    have hrest := elements_itemsAfter (fun w hw => hfits w (List.mem_cons_of_mem _ hw))
      (fun w hw => hr w (List.mem_cons_of_mem _ hw)) rest
    rw [List.append_assoc, listBody, elements.eq_def, item_first (hfits v List.mem_cons_self)]
    simp only
    rw [hv]
    simp only [hrest]

end

/-! ## Objects -/

theorem keyName_stringChars (name : String) (rest : List Char) :
    keyName (stringChars name ++ rest) = .ok (some name, rest) := by
  rw [stringChars_append, keyName, if_pos rfl, Literal.characters_escaped]
  simp

/-- The first member of an object comes without a comma. -/
theorem key_first (name : String) (rest : List Char) :
    key true (stringChars name ++ rest) = .ok (some name, rest) := by
  have hname := keyName_stringChars name rest
  rw [stringChars_append] at hname ⊢
  rw [key, skipBlanks_cons _ (by decide)]
  simp only
  rw [if_neg (by decide), if_pos trivial, hname]

theorem key_next (name : String) (rest : List Char) :
    key false (',' :: (stringChars name ++ rest)) = .ok (some name, rest) := by
  have hname := keyName_stringChars name rest
  rw [stringChars_append] at hname ⊢
  rw [key, skipBlanks_cons _ (by decide)]
  simp only
  rw [if_neg (by decide), if_neg (by decide), if_pos trivial, skipBlanks_cons _ (by decide)]
  simp only
  rw [if_neg (by decide), hname]

theorem colon_cons (rest : List Char) : colon (':' :: rest) = .ok rest := rfl

theorem ends_membersAfter (pairs : List (String × Json)) (rest : List Char) :
    Ends (membersAfter pairs ++ rest) := by
  cases pairs with
  | nil => exact ends_cons _ (by decide)
  | cons member pairs => exact ends_cons _ (by decide)

section

variable {σ : Type}

/-- What the members of an object lead to, one after the other: each has a reader, which reads its
value back and gives the next state. -/
inductive Leads (member : σ → String → Except Mismatch (Reader σ)) :
    σ → List (String × Json) → σ → Prop
  | nil (state : σ) : Leads member state [] state
  | cons {state next result : σ} {name : String} {v : Json} {pairs : List (String × Json)}
      {r : Reader σ} (hmember : member state name = .ok r) (hread : ReadsBack r v next)
      (hrest : Leads member next pairs result) : Leads member state ((name, v) :: pairs) result

variable {member : σ → String → Except Mismatch (Reader σ)} {state result : σ}

/-- Members are read back one by one, whatever is made of them on the way. -/
theorem members_membersAfter {pairs : List (String × Json)} (h : Leads member state pairs result)
    (rest : List Char) :
    members member state false (membersAfter pairs ++ rest) = .ok (result, rest) := by
  induction h with
  | nil state =>
    rw [members.eq_def]
    rfl
  | @cons state next result name v pairs r hmember hread _ ih =>
    have htext : membersAfter ((name, v) :: pairs) ++ rest
        = ',' :: (stringChars name ++ (':' :: (v.chars ++ (membersAfter pairs ++ rest)))) := by
      simp [membersAfter]
    rw [htext, members.eq_def, key_next]
    simp only
    rw [hmember]
    simp only
    rw [colon_cons]
    simp only
    rw [hread _ (ends_membersAfter pairs rest)]
    simp only [ih]

/-- **What is written of an object after its opening bracket is read as its members.** -/
theorem members_chars {pairs : List (String × Json)} (h : Leads member state pairs result)
    (rest : List Char) :
    ∃ text, (Json.object pairs).chars = '\x7b' :: text
      ∧ members member state true (text ++ rest) = .ok (result, rest) := by
  cases h with
  | nil =>
    refine ⟨_, rfl, ?_⟩
    rw [members.eq_def]
    rfl
  | @cons _ next _ name v pairs r hmember hread hrest =>
    refine ⟨stringChars name ++ ':' :: v.chars ++ membersAfter pairs, by rw [chars]; rfl, ?_⟩
    have htext : stringChars name ++ ':' :: v.chars ++ membersAfter pairs ++ rest
        = stringChars name ++ (':' :: (v.chars ++ (membersAfter pairs ++ rest))) := by
      simp
    rw [htext, members.eq_def, key_first]
    simp only
    rw [hmember]
    simp only
    rw [colon_cons]
    simp only
    rw [hread _ (ends_membersAfter pairs rest)]
    simp only [members_membersAfter hrest]

end

/-! ## Values -/

theorem ReadsBack.map {α β : Type} {r : Reader α} {v : Json} {a : α} (h : ReadsBack r v a)
    (f : α → β) : ReadsBack (r.map f) v (f a) := by
  intro rest hrest
  simp only [Reader.map, h rest hrest]

/-- A value without brackets is its token. -/
theorem node_scalar {depth : Nat} {v : Json} (h : Fits depth v) (hscalar : v.first.scalar? = some v)
    (inner : Option (Reader Json)) : ReadsBack (node inner) v v := by
  intro rest hrest
  simp only [node, token_scalar h hscalar hrest, hscalar]

/-- Collecting members puts the latest first. -/
theorem leads_collect {r : Reader Json} {pairs : List (String × Json)}
    (hr : ∀ member ∈ pairs, ReadsBack r member.2 member.2) (before : List (String × Json)) :
    Leads (fun before name => .ok (r.map fun v => (name, v) :: before)) before pairs
      (pairs.reverse ++ before) := by
  induction pairs generalizing before with
  | nil => exact Leads.nil before
  | cons member pairs ih =>
    obtain ⟨name, v⟩ := member
    have hv : ReadsBack r v v := hr (name, v) List.mem_cons_self
    have hrest := ih (fun m hm => hr m (List.mem_cons_of_mem _ hm)) ((name, v) :: before)
    rw [List.reverse_cons, List.append_assoc]
    exact Leads.cons rfl (hv.map fun v => (name, v) :: before) hrest

/-- An object is read back if its values are. -/
theorem objectBody_chars {r : Reader Json} {pairs : List (String × Json)}
    (hr : ∀ member ∈ pairs, ReadsBack r member.2 member.2) (rest : List Char) :
    ∃ text, (Json.object pairs).chars = '\x7b' :: text
      ∧ objectBody r (text ++ rest) = .ok (.object pairs, rest) := by
  obtain ⟨text, htext, hread⟩ := members_chars (leads_collect hr []) rest
  refine ⟨text, htext, ?_⟩
  simp only [objectBody, hread, List.append_nil, List.reverse_reverse]

/-- **Reading a value undoes writing it.** -/
theorem value_chars {depth : Nat} {v : Json} (h : Fits depth v) : ReadsBack (value depth) v v := by
  have hscalar {depth : Nat} {v : Json} (h : Fits depth v) (hv : v.first.scalar? = some v) :
      ReadsBack (value depth) v v := by
    cases depth <;> exact node_scalar h hv _
  induction h with
  | null => exact hscalar .null rfl
  | bool value => exact hscalar (.bool value) rfl
  | number hn => exact hscalar (.number hn) rfl
  | string value => exact hscalar (.string value) rfl
  | @list depth items hfits ih =>
    intro rest _
    obtain ⟨text, htext, hread⟩ := listBody_chars hfits ih rest
    have htoken := token_openList (text ++ rest)
    rw [htext, List.cons_append]
    simp only [value, node, htoken, Token.scalar?, if_pos, hread]
  | @object depth pairs _ ih =>
    intro rest _
    obtain ⟨text, htext, hread⟩ := objectBody_chars ih rest
    have htoken := token_openObject (text ++ rest)
    rw [htext, List.cons_append]
    simp only [value, node, htoken, Token.scalar?, reduceCtorEq, if_false, hread]

/-- A whole text is read back as the value that it was written from. -/
theorem parse_text {v : Json} (h : Fits maxDepth v) : parse v.text = .ok v := by
  have hread := value_chars h [] Numeral.ends_nil
  rw [List.append_nil] at hread
  exact Reader.parse_eq_ok_iff.mpr ⟨[], by rwa [text, String.toList_ofList], rfl⟩

/-! ## One line -/

/-- Quotes and what is between them are printable. -/
theorem stringChars_printable (value : String) : Printable (stringChars value) := by
  have hescaped := Literal.escaped_printable value.toList
  simp [stringChars, hescaped]

theorem digits_printable (n : Nat) : Printable (Nat.toDigits 10 n) := by
  intro c hc
  have hdigit := Numeral.isDigit_of_mem_digits hc
  simp only [Numeral.isDigit, Bool.and_eq_true, decide_eq_true_eq] at hdigit
  exact Nat.le_trans (by decide) hdigit.1

theorem text_printable {n : Number} (h : n.Whole) : Printable n.text.toList := by
  cases n with
  | natural value =>
    rw [text_natural]
    exact digits_printable _
  | negative magnitude =>
    rw [text_negative]
    exact printable_cons.mpr ⟨by decide, digits_printable _⟩
  | float bits => exact h.elim

theorem itemsAfter_printable {items : List Json} (h : ∀ v ∈ items, Printable v.chars) :
    Printable (itemsAfter items) := by
  induction items with
  | nil => simp [itemsAfter]
  | cons v items ih =>
    obtain ⟨hv, hitems⟩ := List.forall_mem_cons.mp h
    simp [itemsAfter, hv, ih hitems]

theorem membersAfter_printable {pairs : List (String × Json)}
    (h : ∀ member ∈ pairs, Printable member.2.chars) : Printable (membersAfter pairs) := by
  induction pairs with
  | nil => simp [membersAfter]
  | cons member pairs ih =>
    obtain ⟨hv, hpairs⟩ := List.forall_mem_cons.mp h
    simp [membersAfter, stringChars_printable, hv, ih hpairs]

/-- **No control character is written.** -/
theorem chars_printable {depth : Nat} {v : Json} (h : Fits depth v) : Printable v.chars := by
  induction h with
  | null => simp [chars]
  | bool value => cases value <;> simp [chars]
  | number hn => exact text_printable hn
  | string value => exact stringChars_printable value
  | @list _ items _ ih =>
    cases items with
    | nil => simp [chars]
    | cons v items =>
      obtain ⟨hv, hitems⟩ := List.forall_mem_cons.mp ih
      simp [chars, hv, itemsAfter_printable hitems]
  | @object _ pairs _ ih =>
    cases pairs with
    | nil => simp [chars]
    | cons member pairs =>
      obtain ⟨hv, hpairs⟩ := List.forall_mem_cons.mp ih
      simp [chars, stringChars_printable, hv, membersAfter_printable hpairs]

end Json

end Worklog
