import Worklog.Proofs.Reading.Elements
import Worklog.Proofs.Reading.Fields
import Worklog.Proofs.Roundtrip.Record

/-!
# Fields as they are written

The text of a list of fields is literals with gaps between them, one for each element. What the
fields are, and which element is refused, can be seen on the literals alone: the first character of
a literal says what kind of value it is, and of a numeral all of its characters count.

* `Wire.parseFields_eq_some_iff` — the texts that are lists, and their values.
* `Field.decode_listed` — the fields of a list, and the element that is refused.
-/

namespace Worklog

open Json

/-! ## Texts of lists -/

namespace Wire

/-- The text of a list with elements of these texts, each of which is one value. -/
structure ListOf (literals : List (List Char)) (text : List Char) : Prop where
  listing : ∃ before body after, Blank before ∧ Listing true literals body ∧ Blank after
    ∧ text = before ++ '[' :: (body ++ after)
  values : ∃ values, List.Forall₂ innerValue.IsLiteral literals values

theorem piecewise_innerValue : Piecewise innerValue := (piecewise_value _).map normal

/-- What is written of a value is its literal. -/
theorem isLiteral_chars {v : Json} (h : Fits (maxDepth - 1) v) :
    innerValue.IsLiteral v.chars v.normal where
  reads := by simpa using innerValue_chars h [] Numeral.ends_nil
  no_blank c hc := by
    obtain ⟨d, rest, hv, hblank, -⟩ := head_chars h
    obtain rfl : d = c := by simpa [hv] using hc
    exact hblank

theorem listReader_eq_some_iff {text rest : List Char} {items : List Json} :
    listReader.read text = .ok (some items, rest)
      ↔ ∃ tail, token text = .ok (.openList, tail)
        ∧ elements innerValue true tail = .ok (items, rest) := by
  simp only [listReader]
  constructor
  · intro h
    split at h
    next => simp at h
    next => simp at h
    next tail htoken =>
      refine ⟨tail, htoken, ?_⟩
      split at h
      next => simp at h
      next helements => simpa [helements] using h
    next => simp at h
  · rintro ⟨tail, htoken, helements⟩
    simp only [htoken, helements]

/-- **A text is a list of values iff it is the text of a list with their literals.** -/
theorem parseFields_eq_some_iff {text : String} {values : List Json} :
    parseFields text = .ok (some values)
      ↔ ∃ literals, ListOf literals text.toList
        ∧ List.Forall₂ innerValue.IsLiteral literals values := by
  rw [parseFields, Reader.parse_eq_ok_iff]
  constructor
  · rintro ⟨after, hread, hafter⟩
    obtain ⟨tail, htoken, helements⟩ := listReader_eq_some_iff.mp hread
    obtain ⟨before, hbefore, htext⟩ := token_eq_openList_iff.mp htoken
    obtain ⟨literals, body, hlisting, hliterals, rfl⟩ :=
      (elements_eq_ok_iff piecewise_innerValue).mp helements
    exact ⟨literals, ⟨⟨before, body, after, hbefore, hlisting, skipBlanks_eq_nil_iff.mp hafter,
      htext⟩, values, hliterals⟩, hliterals⟩
  · rintro ⟨literals, ⟨⟨before, body, after, hbefore, hlisting, hafter, htext⟩, -⟩, hliterals⟩
    exact ⟨after, listReader_eq_some_iff.mpr ⟨body ++ after,
      token_eq_openList_iff.mpr ⟨before, hbefore, htext⟩,
      elements_of_listing piecewise_innerValue hlisting hliterals after⟩,
      skipBlanks_eq_nil_iff.mpr hafter⟩

/-- **A list is divided into its literals in one way only.** -/
theorem ListOf.unique {literals others : List (List Char)} {text : List Char}
    (h : ListOf literals text) (h' : ListOf others text) : literals = others := by
  obtain ⟨⟨before, body, after, hbefore, hlisting, -, rfl⟩, values, hliterals⟩ := h
  obtain ⟨⟨before', body', after', hbefore', hlisting', -, htext⟩, values', hliterals'⟩ := h'
  have hopen := token_eq_openList_iff.mpr ⟨before', hbefore', htext⟩
  rw [token_eq_openList_iff.mpr ⟨before, hbefore, rfl⟩] at hopen
  simp only [Except.ok.injEq, Prod.mk.injEq, true_and] at hopen
  exact listing_unique piecewise_innerValue hlisting hlisting' hliterals hliterals' hopen

end Wire

namespace Field

/-! ## Literals of fields -/

/-- The literals that fields are read from: the digits of a natural number, or a string. -/
inductive Spells : List Char → Field → Prop
  | natural {literal : List Char} {n : UInt64} (hwhole : Numeral.IsWhole literal)
      (hvalue : Nat.ofDigitChars 10 literal 0 = n.toNat) : Spells literal (.natural n)
  | text {body cs : List Char} (h : Literal.characters body = .ok (cs, [])) :
      Spells ('"' :: body) (.text (String.ofList cs))

/-- The literals that no field is read from, by the kinds of their values. -/
inductive RefusedLiteral : List Char → Unsupported → Prop
  | number {literal : List Char} {numeral : Numeral} (hwrites : Numeral.Writes literal numeral)
      (h : numeral.Unnatural) : RefusedLiteral literal .signedOrFractional
  | null : RefusedLiteral ['n', 'u', 'l', 'l'] .null
  | yes : RefusedLiteral ['t', 'r', 'u', 'e'] .boolean
  | no : RefusedLiteral ['f', 'a', 'l', 's', 'e'] .boolean
  | array (body : List Char) : RefusedLiteral ('[' :: body) .array
  | object (body : List Char) : RefusedLiteral ('\x7b' :: body) .object

/-- A string, or digits without sign, fraction and exponent whose number fits 64 bits. -/
def Accepted (literal : List Char) : Prop :=
  literal.head? = some '"'
    ∨ (Numeral.IsWhole literal ∧ Nat.ofDigitChars 10 literal 0 < UInt64.size)

/-- Among the literals the first one that no field is read from is of this kind. -/
def FirstRefusedLiteral (literals : List (List Char)) (kind : Unsupported) : Prop :=
  ∃ before literal after, literals = before ++ literal :: after
    ∧ (∀ other ∈ before, Accepted other) ∧ RefusedLiteral literal kind

section

variable {literal : List Char} {v : Json}

/-- A literal starts with the first token of its value, and ends with it if it is a scalar. -/
theorem starts_of_isLiteral (h : Wire.innerValue.IsLiteral literal v) :
    ∃ rest, Starts literal v.first rest ∧ (v.first.scalar?.isSome = true → rest = []) := by
  obtain ⟨w, hread, rfl⟩ := map_read_eq_ok_iff.mp h.reads
  obtain ⟨tail, htoken, htail⟩ := token_of_value hread
  obtain ⟨gap, piece, hgap, rfl, hstarts⟩ := starts_of_token htoken
  have hnil : gap = [] := by
    cases gap with
    | nil => rfl
    | cons c gap =>
      have hblank := h.no_blank c rfl
      simp [hgap c List.mem_cons_self] at hblank
  have hfirst : w.normal.first = w.first := by cases w <;> simp [normal, first]
  rw [hnil, hfirst]
  exact ⟨tail, hstarts, htail⟩

/-- The literal of a field is the field as a token, and nothing else. -/
theorem starts_toJson_iff {field : Field} :
    Starts literal field.toJson.first [] ↔ Spells literal field := by
  constructor
  · intro h
    cases field with
    | natural n =>
      cases h with
      | number h =>
        obtain ⟨piece, numeral, hwrites, hvalue, rfl⟩ := Numeral.writes_of_read h
        obtain ⟨whole, rfl, hdigits⟩ := Numeral.value_eq_natural_iff.mp hvalue
        obtain ⟨rfl, hwhole⟩ := Numeral.writes_whole_iff.mp hwrites
        rw [List.append_nil]
        exact .natural hwhole hdigits
    | text value =>
      cases h with
      | string h => exact .text h
  · intro h
    cases h with
    | @natural _ n hwhole hvalue =>
      have hnumber := Numeral.read_append (Numeral.writes_whole_iff.mpr ⟨rfl, hwhole⟩)
        (Numeral.value_eq_natural_iff.mpr ⟨literal, rfl, hvalue⟩) Numeral.ends_nil
      rw [List.append_nil] at hnumber
      exact .number hnumber
    | text h => exact .string h

/-- **A field is read from a literal iff the literal spells it.** -/
theorem ofJson_eq_ok_iff_spells (h : Wire.innerValue.IsLiteral literal v) {field : Field} :
    ofJson v = .ok field ↔ Spells literal field := by
  obtain ⟨rest, hstarts, hrest⟩ := starts_of_isLiteral h
  rw [← starts_toJson_iff]
  constructor
  · intro hfield
    obtain rfl := toJson_of_ofJson hfield
    have hscalar : field.toJson.first.scalar?.isSome = true := by cases field <;> rfl
    rwa [hrest hscalar] at hstarts
  · intro hspelled
    have hfirst := (starts_unique hstarts hspelled).1
    have hv : v = field.toJson := by
      cases field <;> cases v <;> simp_all [first, toJson]
    rw [hv, ofJson_toJson]

/-- A numeral that is read as no natural number has something that keeps it from being one. -/
theorem refusedLiteral_of_number {n : Number} (hn : ∀ m, n ≠ .natural m)
    (hread : Numeral.read literal = .ok (n, [])) :
    RefusedLiteral literal .signedOrFractional := by
  obtain ⟨piece, numeral, hwrites, hvalue, rfl⟩ := Numeral.writes_of_read hread
  rw [List.append_nil]
  refine .number hwrites (Decidable.of_not_not fun hnatural => ?_)
  obtain ⟨m, hm⟩ := Numeral.exists_value_natural_iff.mpr hnatural
  rw [hvalue] at hm
  exact hn m (Except.ok.inj hm)

theorem refusedLiteral_of_refused (h : Wire.innerValue.IsLiteral literal v) {kind : Unsupported}
    (hrefused : Refused v kind) : RefusedLiteral literal kind := by
  obtain ⟨rest, hstarts, hrest⟩ := starts_of_isLiteral h
  cases hrefused with
  | negative magnitude =>
    obtain rfl := hrest rfl
    cases hstarts with
    | number hread => exact refusedLiteral_of_number (by simp) hread
  | float bits =>
    obtain rfl := hrest rfl
    cases hstarts with
    | number hread => exact refusedLiteral_of_number (by simp) hread
  | null =>
    obtain rfl := hrest rfl
    cases hstarts
    exact .null
  | bool value =>
    obtain rfl := hrest rfl
    cases hstarts
    · exact .yes
    · exact .no
  | list items =>
    cases hstarts
    exact .array rest
  | object members =>
    cases hstarts
    exact .object rest

/-- What a literal starts with is the first token of its value. -/
theorem first_of_starts (h : Wire.innerValue.IsLiteral literal v) {t : Token} {rest : List Char}
    (hstarts : Starts literal t rest) : v.first = t := by
  obtain ⟨tail, hfirst, -⟩ := starts_of_isLiteral h
  exact (starts_unique hfirst hstarts).1

theorem refused_of_unnatural (h : Wire.innerValue.IsLiteral literal v) {numeral : Numeral}
    (hwrites : numeral.Writes literal) (hunnatural : numeral.Unnatural) :
    Refused v .signedOrFractional := by
  obtain ⟨rest, hstarts, hrest⟩ := starts_of_isLiteral h
  obtain ⟨n, hfirst, hread⟩ := number_of_writes hwrites hstarts
  obtain rfl := hrest (by rw [hfirst]; rfl)
  have hvalue := Numeral.value_of_read hwrites hread
  cases v with
  | number m =>
    obtain rfl : m = n := by simpa [first] using hfirst
    cases m with
    | natural value =>
      exact absurd hunnatural (Numeral.exists_value_natural_iff.mp ⟨value, hvalue⟩)
    | negative magnitude => exact .negative magnitude
    | float bits => exact .float bits
  | _ => simp [first] at hfirst

theorem refused_of_refusedLiteral (h : Wire.innerValue.IsLiteral literal v) {kind : Unsupported}
    (hrefused : RefusedLiteral literal kind) : Refused v kind := by
  -- The literal gives the first token, and the first token the kind of the value.
  cases hrefused with
  | number hwrites hunnatural => exact refused_of_unnatural h hwrites hunnatural
  | null =>
    have hfirst := first_of_starts h (.null [])
    cases v <;> simp [first] at hfirst
    exact .null
  | yes =>
    have hfirst := first_of_starts h (.yes [])
    cases v <;> simp [first] at hfirst
    exact .bool _
  | no =>
    have hfirst := first_of_starts h (.no [])
    cases v <;> simp [first] at hfirst
    exact .bool _
  | array body =>
    have hfirst := first_of_starts h (.openList body)
    cases v <;> simp [first] at hfirst
    exact .list _
  | object body =>
    have hfirst := first_of_starts h (.openObject body)
    cases v <;> simp [first] at hfirst
    exact .object _

/-- **A literal is refused for the kind that it is of.** -/
theorem ofJson_eq_error_iff_refused (h : Wire.innerValue.IsLiteral literal v)
    {kind : Unsupported} : ofJson v = .error kind ↔ RefusedLiteral literal kind := by
  rw [ofJson_eq_error_iff]
  exact ⟨refusedLiteral_of_refused h, refused_of_refusedLiteral h⟩

theorem accepted_iff_isField (h : Wire.innerValue.IsLiteral literal v) :
    Accepted literal ↔ IsField v := by
  rw [← exists_ofJson_eq_ok_iff]
  simp only [ofJson_eq_ok_iff_spells h]
  constructor
  · rintro (hquote | ⟨hwhole, hlt⟩)
    · obtain ⟨rest, hstarts, hrest⟩ := starts_of_isLiteral h
      obtain ⟨body, rfl⟩ := List.head?_eq_some_iff.mp hquote
      generalize v.first = t at hstarts hrest
      cases hstarts with
      | number hread =>
        obtain ⟨piece, numeral, hwrites, -, hpiece⟩ := Numeral.writes_of_read hread
        obtain ⟨c, tail, rfl, hc⟩ := hwrites.head
        obtain ⟨rfl, -⟩ := List.cons.inj hpiece
        exact absurd hc (by decide)
      | string hcharacters =>
        obtain rfl := hrest rfl
        exact ⟨_, .text hcharacters⟩
    · exact ⟨.natural (UInt64.ofNat _), .natural hwhole (UInt64.toNat_ofNat_of_lt' hlt).symm⟩
  · rintro ⟨field, hspells⟩
    cases hspells with
    | @natural _ n hwhole hvalue => exact .inr ⟨hwhole, hvalue ▸ n.toNat_lt_size⟩
    | text _ => exact .inl rfl

end

/-! ## Lists of literals -/

section

variable {literals : List (List Char)} {values : List Json}

theorem decodeList_eq_ok_iff_spells
    (h : List.Forall₂ Wire.innerValue.IsLiteral literals values) {fields : List Field} :
    decodeList values = .ok fields ↔ List.Forall₂ Spells literals fields := by
  rw [decodeList_eq_ok_iff]
  induction h generalizing fields with
  | nil => cases fields <;> simp
  | cons hliteral _ ih =>
    cases fields with
    | nil => simp
    | cons field fields =>
      rw [List.map_cons, List.cons.injEq, ih, List.forall₂_cons, ← ofJson_eq_ok_iff,
        ofJson_eq_ok_iff_spells hliteral]

theorem firstRefused_iff_literal
    (h : List.Forall₂ Wire.innerValue.IsLiteral literals values) {kind : Unsupported} :
    FirstRefused values kind ↔ FirstRefusedLiteral literals kind := by
  induction h with
  | nil => simp [FirstRefused, FirstRefusedLiteral]
  | @cons literal v literals values hliteral _ ih =>
    have hfirst : FirstRefusedLiteral (literal :: literals) kind
        ↔ RefusedLiteral literal kind ∨ (Accepted literal ∧ FirstRefusedLiteral literals kind) :=
      exists_first_cons_iff
    rw [hfirst, firstRefused_cons_iff, ih, accepted_iff_isField hliteral, ← ofJson_eq_error_iff,
      ofJson_eq_error_iff_refused hliteral]

theorem accepted_iff_forall_isField
    (h : List.Forall₂ Wire.innerValue.IsLiteral literals values) :
    (∀ literal ∈ literals, Accepted literal) ↔ ∀ v ∈ values, IsField v := by
  induction h with
  | nil => simp
  | cons hliteral _ ih =>
    rw [List.forall_mem_cons, List.forall_mem_cons, ih, accepted_iff_isField hliteral]

end

/-- The text of a list of fields is read as that list. -/
theorem parseFields_text (fields : List Field) :
    Wire.parseFields (Json.list (fields.map toJson)).text = .ok (some (fields.map toJson)) := by
  have hfits : ∀ v ∈ fields.map toJson, Fits (maxDepth - 1) v := by
    intro v hv
    obtain ⟨field, -, rfl⟩ := List.mem_map.mp hv
    exact Wire.fits_field field
  have hreads : ∀ v ∈ fields.map toJson, ReadsBack Wire.innerValue v v := by
    intro v hv
    obtain ⟨field, -, rfl⟩ := List.mem_map.mp hv
    have hback : ReadsBack Wire.innerValue field.toJson field.toJson.normal :=
      Wire.innerValue_chars (Wire.fits_field field)
    rwa [Wire.normal_toJson] at hback
  obtain ⟨text, htext, hread⟩ := listBody_chars hfits hreads []
  rw [Wire.parseFields, Reader.parse_eq_ok_iff]
  refine ⟨[], Wire.listReader_eq_some_iff.mpr ⟨text, ?_, ?_⟩, rfl⟩
  · rw [Json.text, String.toList_ofList, htext]
    rfl
  · rw [List.append_nil] at hread
    obtain ⟨items, helements, hitems⟩ := listBody_eq_ok_iff.mp hread
    exact Json.list.inj hitems ▸ helements

/-- **The fields of a list are those that its literals spell, in their order**, and there are any iff
each literal is a string or the digits of a natural number of 64 bits. Otherwise the list is refused
for the first literal that is neither. The fields are read again from the text that they are written
as. -/
theorem decode_listed {text : String} {values : List Json}
    (h : Wire.parseFields text = .ok (some values)) :
    (∃! literals, Wire.ListOf literals text.toList)
      ∧ ∀ literals, Wire.ListOf literals text.toList →
        ((∃ fields, decode (some values) = .ok fields) ↔ ∀ literal ∈ literals, Accepted literal)
        ∧ (∀ fields, decode (some values) = .ok fields ↔ List.Forall₂ Spells literals fields)
        ∧ (∀ kind, decode (some values) = .error kind ↔ FirstRefusedLiteral literals kind)
        ∧ ∀ fields, decode (some values) = .ok fields →
          (Wire.parseFields (Json.list (fields.map toJson)).text).map decode
            = .ok (.ok fields) := by
  obtain ⟨literals, hlist, -⟩ := Wire.parseFields_eq_some_iff.mp h
  refine ⟨⟨literals, hlist, fun _ hother => hother.unique hlist⟩, fun literals hlist => ?_⟩
  obtain ⟨others, hliterals⟩ := hlist.values
  have hvalues : others = values := by
    have hparse := Wire.parseFields_eq_some_iff.mpr ⟨literals, hlist, hliterals⟩
    simpa [h] using hparse.symm
  subst hvalues
  refine ⟨?_, fun fields => decodeList_eq_ok_iff_spells hliterals, fun kind => ?_,
    fun fields _ => ?_⟩
  · rw [accepted_iff_forall_isField hliterals]
    exact exists_decodeList_eq_ok_iff
  · rw [decode_eq_error_iff]
    exact firstRefused_iff_literal hliterals
  · rw [parseFields_text]
    exact congrArg Except.ok (decodeList_map_toJson fields)

/-- The largest natural number and a string are fields. The number below zero after them is none, and
the null value after that is not looked at. -/
theorem decode_listed_negative :
    Wire.parseFields "[18446744073709551615 ,\"up\", -1,null]"
        = .ok (some [.number (.natural 18446744073709551615), .string "up",
          .number (.negative 1), .null])
      ∧ decode (some [.number (.natural 18446744073709551615), .string "up",
          .number (.negative 1), .null]) = .error .signedOrFractional := by
  have hlargest : Wire.innerValue.IsLiteral (Nat.toDigits 10 18446744073709551615) _ :=
    @Wire.isLiteral_chars (.number (.natural 18446744073709551615)) (.number trivial)
  have hbelow : Wire.innerValue.IsLiteral ['-', '1'] _ :=
    @Wire.isLiteral_chars (.number (.negative 1)) (.number ⟨by decide, by decide⟩)
  have hvalues : List.Forall₂ Wire.innerValue.IsLiteral
      [Nat.toDigits 10 18446744073709551615, ['"', 'u', 'p', '"'], ['-', '1'],
        ['n', 'u', 'l', 'l']]
      [.number (.natural 18446744073709551615), .string "up", .number (.negative 1), .null] :=
    .cons hlargest (.cons (Wire.isLiteral_chars (.string "up")) (.cons hbelow
      (.cons (Wire.isLiteral_chars .null) .nil)))
  have hblank : Blank [' '] := by simp [Blank, isBlank]
  have hlist : Wire.ListOf [Nat.toDigits 10 18446744073709551615, ['"', 'u', 'p', '"'],
      ['-', '1'], ['n', 'u', 'l', 'l']] "[18446744073709551615 ,\"up\", -1,null]".toList := by
    refine ⟨⟨[], _, [], blank_nil, .element (.first blank_nil) (.element (.next hblank blank_nil)
      (.element (.next blank_nil hblank) (.element (.next blank_nil blank_nil)
        (.close blank_nil)))), blank_nil, ?_⟩, _, hvalues⟩
    decide
  have hparse := Wire.parseFields_eq_some_iff.mpr ⟨_, hlist, hvalues⟩
  obtain ⟨-, -, hrefused, -⟩ := (decode_listed hparse).2 _ hlist
  have hwrites := Numeral.writes_integer (Numeral.isWhole_digits 1) true
  refine ⟨hparse, (hrefused .signedOrFractional).mpr ⟨[_, _], ['-', '1'], [_], rfl, ?_,
    .number hwrites (by decide)⟩⟩
  have hwhole := Numeral.isWhole_digits 18446744073709551615
  simp [Accepted, hwhole, Nat.ofDigitChars_ten_toDigits]

end Field

end Worklog
