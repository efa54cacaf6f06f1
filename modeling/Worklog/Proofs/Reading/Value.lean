import Mathlib.Data.List.Nodup
import Worklog.Proofs.Reading.Elements
import Worklog.Proofs.Reading.Payload

/-!
# From a value back to its text

What a payload says as a value, it also says when it is read directly, unless it is an object that
has a key twice: then the value knows the last member only, and the direct way refuses the payload.

* `members_of_collected` — members that were collected as they are can be read for a message.
* `ofPayload_of_ofJson` — the message that a value says is read from the text of the payload.
-/

namespace Worklog

/-- An object with a key that comes more than once. -/
def Json.Repeats : Json → Prop
  | .object members => ¬ (members.map Prod.fst).Nodup
  | _ => False

namespace Wire

open Json

/-! ## Readers -/

theorem elements_of_map {α β : Type} {r : Reader α} {f : α → β} {isFirst : Bool}
    {text rest : List Char} {as : List α} (h : elements r isFirst text = .ok (as, rest)) :
    elements (r.map f) isFirst text = .ok (as.map f, rest) := by
  fun_induction elements r isFirst text generalizing as rest with
  | case1 => simp at h
  | case2 isFirst text tail hitem =>
    simp only [Except.ok.injEq, Prod.mk.injEq] at h
    obtain ⟨rfl, rfl⟩ := h
    rw [elements.eq_def, hitem]
    rfl
  | case3 => simp at h
  | case4 => simp at h
  | case5 isFirst text tail hitem a tail' hread as' tail'' hrest ih =>
    simp only [Except.ok.injEq, Prod.mk.injEq] at h
    obtain ⟨rfl, rfl⟩ := h
    have hmap : (r.map f).read tail = .ok (f a, tail') := map_read_eq_ok_iff.mpr ⟨a, hread, rfl⟩
    rw [elements.eq_def, hitem]
    simp only
    rw [hmap]
    simp only [ih hrest, List.map_cons]

/-- A value that is a string can be read as a tag. -/
theorem tagReader_of_value {depth : Nat} {text rest : List Char} {name : String}
    (h : (value depth).read text = .ok (.string name, rest)) :
    tagReader.read text = .ok (name, rest) := by
  obtain ⟨tail, htoken, htail⟩ := token_of_value h
  obtain rfl := htail rfl
  have hstring : token text = .ok (.string name, tail) := htoken
  simp only [tagReader, typed, hstring, Token.asString]

/-! ## Objects -/

/-- What has been collected before stays. -/
theorem suffix_of_members_collect {r : Reader Json} {collected all : List (String × Json)}
    {isFirst : Bool} {text rest : List Char}
    (h : members (collect r) collected isFirst text = .ok (all, rest)) : collected <:+ all := by
  fun_induction members (collect r) collected isFirst text with
  | case1 => simp at h
  | case2 =>
    simp only [Except.ok.injEq, Prod.mk.injEq] at h
    exact h.1 ▸ List.suffix_rfl
  | case3 => simp at h
  | case4 => simp at h
  | case5 => simp at h
  | case6 collected isFirst text name tail hkey r' hmember tail' hcolon next tail'' hread ih =>
    obtain rfl := Except.ok.inj hmember
    obtain ⟨v, -, rfl⟩ := map_read_eq_ok_iff.mp hread
    exact (List.suffix_cons _ _).trans (ih h)

theorem under_suffix {collected all : List (String × Json)} (h : collected <:+ all)
    (key : String) : under key collected <:+ under key all := h.filter _

/-- The tag of an object, if it has one and no other: a string. -/
structure OneTag (members : List (String × Json)) : Prop where
  once : (under tagKey members).length ≤ 1
  isName : ∀ v, (tagKey, v) ∈ members → ∃ name, v = .string name

/-- One collected member is a member that can be read for a message. -/
theorem Matches.read_member {tagged : Tagged} {collected : List (String × Json)}
    (h : Matches tagged collected) {name : String} {v : Json} {text rest : List Char}
    (hread : (value (maxDepth - 1)).read text = .ok (v, rest))
    (hone : OneTag ((name, v) :: collected)) :
    ∃ r next, tagged.member name = .ok r ∧ r.read text = .ok (next, rest)
      ∧ Matches next ((name, v) :: collected) := by
  by_cases hname : name = tagKey
  · subst hname
    obtain ⟨tag, rfl⟩ := hone.isName v List.mem_cons_self
    have hnone : tagged.name = none := by
      -- A tag that was there before would be a second one now.
      cases hbefore : tagged.name with
      | none => rfl
      | some first =>
        have htag := h.tag
        have honce := hone.once
        rw [under_cons_self, htag, hbefore] at honce
        simp at honce
    refine ⟨tagReader.map fun tag => { tagged with name := some tag },
      { tagged with name := some tag }, ?_, ?_, h.tag_cons hnone tag⟩
    · rw [Tagged.member, if_pos rfl, hnone]
    · exact map_read_eq_ok_iff.mpr ⟨tag, tagReader_of_value hread, rfl⟩
  · refine ⟨innerValue.map fun v => { tagged with before := (name, v) :: tagged.before },
      { tagged with before := (name, v.normal) :: tagged.before }, ?_, ?_,
      h.member_cons hname v⟩
    · rw [Tagged.member, if_neg hname]
    · exact map_read_eq_ok_iff.mpr
        ⟨v.normal, map_read_eq_ok_iff.mpr ⟨v, hread, rfl⟩, rfl⟩

theorem OneTag.of_suffix {collected all : List (String × Json)} (hone : OneTag all)
    (h : collected <:+ all) : OneTag collected :=
  ⟨Nat.le_trans (under_suffix h tagKey).length_le hone.once, fun v hv => hone.isName v (h.subset hv)⟩

/-- **Members that were collected can be read for a message**, if there is one tag at most. -/
theorem members_of_collected {tagged : Tagged} {collected all : List (String × Json)}
    (hmatches : Matches tagged collected) {isFirst : Bool} {text rest : List Char}
    (h : members (collect (value (maxDepth - 1))) collected isFirst text = .ok (all, rest))
    (hone : OneTag all) :
    ∃ result, members Tagged.member tagged isFirst text = .ok (result, rest)
      ∧ Matches result all := by
  fun_induction members (collect (value (maxDepth - 1))) collected isFirst text
    generalizing tagged with
  | case1 => simp at h
  | case2 collected isFirst text tail hkey =>
    simp only [Except.ok.injEq, Prod.mk.injEq] at h
    obtain ⟨rfl, rfl⟩ := h
    refine ⟨tagged, ?_, hmatches⟩
    rw [members.eq_def, hkey]
  | case3 => simp at h
  | case4 => simp at h
  | case5 => simp at h
  | case6 collected isFirst text name tail hkey r hmember tail' hcolon next tail'' hread ih =>
    obtain rfl := Except.ok.inj hmember
    obtain ⟨v, hv, rfl⟩ := map_read_eq_ok_iff.mp hread
    obtain ⟨r', next', hmember', hread', hnext⟩ :=
      hmatches.read_member hv (hone.of_suffix (suffix_of_members_collect h))
    obtain ⟨result, hresult, hall⟩ := ih hnext h
    refine ⟨result, ?_, hall⟩
    rw [members.eq_def, hkey]
    simp only
    rw [hmember']
    simp only
    rw [hcolon]
    simp only
    rw [hread']
    exact hresult

theorem objectPayload_of_objectBody {text rest : List Char} {pairs : List (String × Json)}
    {name : String} (h : objectBody (value (maxDepth - 1)) text = .ok (.object pairs, rest))
    (htag : under tagKey pairs = [(tagKey, .string name)]) :
    objectPayload text = .ok ((name, .members (normalMembers (untagged pairs))), rest) := by
  obtain ⟨all, hmembers, hpairs⟩ := objectBody_eq_ok_iff.mp h
  obtain rfl := Json.object.inj hpairs
  have hreversed : under tagKey all = [(tagKey, .string name)] := by
    rw [under, List.filter_reverse] at htag
    simpa [under] using congrArg List.reverse htag
  have hone : OneTag all := by
    refine ⟨by simp [hreversed], fun v hv => ⟨name, ?_⟩⟩
    have hunder : (tagKey, v) ∈ under tagKey all := List.mem_filter.mpr ⟨hv, by simp⟩
    rw [hreversed, List.mem_singleton] at hunder
    exact congrArg Prod.snd hunder
  obtain ⟨result, hresult, hmatches⟩ := members_of_collected matches_empty hmembers hone
  have hname : result.name = some name := by
    have htagged := hmatches.tag
    rw [hreversed] at htagged
    cases hfound : result.name with
    | none => simp [hfound] at htagged
    | some found => simpa [hfound] using htagged.symm
  simp only [objectPayload, hresult, hname, hmatches.before]
  rw [untagged, untagged, List.filter_reverse, normalMembers_eq_map, normalMembers_eq_map,
    List.map_reverse]

/-! ## Lists -/

theorem listPayload_of_listBody {text rest : List Char} {name : String} {items : List Json}
    (h : listBody (value (maxDepth - 1)) text = .ok (.list (.string name :: items), rest)) :
    listPayload text = .ok ((name, .items (normalItems items)), rest) := by
  obtain ⟨all, helements, hall⟩ := listBody_eq_ok_iff.mp h
  obtain rfl := Json.list.inj hall
  rw [elements.eq_def] at helements
  split at helements
  next => simp at helements
  next => simp at helements
  next more hitem =>
    split at helements
    next => simp at helements
    next v after hread =>
      split at helements
      next => simp at helements
      next others final hothers =>
        simp only [Except.ok.injEq, Prod.mk.injEq, List.cons.injEq] at helements
        obtain ⟨⟨rfl, rfl⟩, rfl⟩ := helements
        simp only [listPayload, hitem, tagReader_of_value hread]
        rw [innerValue, elements_of_map hothers, normalItems_eq_map]

/-! ## Payloads -/

theorem length_under_le_of_nodup {members : List (String × Json)}
    (h : (members.map Prod.fst).Nodup) (key : String) : (under key members).length ≤ 1 := by
  have hcount := List.nodup_iff_count_le_one.mp h key
  rw [List.count, List.countP_map, List.countP_eq_length_filter] at hcount
  exact hcount

/-- Without repeated keys, sorting leaves the members of a name as they are. -/
theorem under_untagged_sorted {members : List (String × Json)}
    (honce : (members.map Prod.fst).Nodup) {key : String} (hkey : key ≠ tagKey) :
    under key (normalMembers (untagged members))
      = under key (untagged (sorted (normalMembers members))) := by
  rw [under_normalMembers, under_untagged hkey, under_untagged hkey, under_sorted,
    under_normalMembers]
  have hle := length_under_le_of_nodup honce key
  rcases hunder : under key members with _ | ⟨member, _ | ⟨other, more⟩⟩
  · rfl
  · rfl
  · simp [hunder] at hle

/-- What an object says as a value, it says member by member. -/
theorem ofBody_of_ofJson_object {pairs : List (String × Json)}
    (honce : (pairs.map Prod.fst).Nodup) {message : Message}
    (h : Message.ofJson (Json.object pairs).normal = .ok message) :
    ∃ name, under tagKey pairs = [(tagKey, .string name)]
      ∧ Message.ofBody name (.members (normalMembers (untagged pairs))) = .ok message := by
  simp only [normal, Message.ofJson] at h
  split at h
  next => simp at h
  next tag hlookup =>
    split at h
    next => simp at h
    next name hname =>
      refine ⟨name, ?_, ?_⟩
      · -- The tag of the value is the only member of its name, and a string.
        rw [lookup_eq_under, under_sorted, under_normalMembers] at hlookup
        have hle := length_under_le_of_nodup honce tagKey
        have hkeys : ∀ member ∈ under tagKey pairs, member.1 = tagKey := by
          intro member hmember
          simpa using (List.mem_filter.mp hmember).2
        rcases hunder : under tagKey pairs with _ | ⟨⟨key, v⟩, _ | ⟨other, more⟩⟩
        · simp [hunder, normalMembers] at hlookup
        · have hkey : key = tagKey := hkeys (key, v) (by rw [hunder]; exact List.mem_cons_self)
          have hv : v.normal = tag := by simpa [hunder, normalMembers] using hlookup
          subst hkey hv
          cases v <;> simp [asTag, normal, first, Token.asString] at hname
          rw [hname]
        · simp [hunder] at hle
      · refine ofBody_eq_ok_of_under (fun key hkey => ?_) h
        have hne : key.name ≠ tagKey := by cases key <;> decide
        exact under_untagged_sorted honce hne

/-- What a list says as a value, it says item by item. -/
theorem ofBody_of_ofJson_list {items : List Json} {message : Message}
    (h : Message.ofJson (Json.list items).normal = .ok message) :
    ∃ name others, items = .string name :: others
      ∧ Message.ofBody name (.items (normalItems others)) = .ok message := by
  cases items with
  | nil => simp [normal, normalItems, Message.ofJson] at h
  | cons tag others =>
    simp only [normal, normalItems, Message.ofJson] at h
    split at h
    next => simp at h
    next name hname =>
      refine ⟨name, others, ?_, h⟩
      cases tag <;> simp [asTag, normal, first, Token.asString] at hname
      rw [hname]

theorem payload_of_ofJson {text rest : List Char} {v : Json} {message : Message}
    (hread : (value maxDepth).read text = .ok (v, rest)) (honce : ¬ v.Repeats)
    (hmessage : Message.ofJson v.normal = .ok message) :
    ∃ name body, payload text = .ok ((name, body), rest)
      ∧ Message.ofBody name body = .ok message := by
  rw [value_maxDepth] at hread
  simp only [node] at hread
  split at hread
  next => simp at hread
  next t tail htoken =>
    split at hread
    next w hscalar =>
      -- A scalar says nothing.
      simp only [Except.ok.injEq, Prod.mk.injEq] at hread
      obtain ⟨rfl, rfl⟩ := hread
      cases t <;> simp [Token.scalar?] at hscalar
      all_goals
        subst hscalar
        simp [normal, Message.ofJson] at hmessage
    next => simp_all
    next hscalar hinner =>
      obtain rfl := Option.some.inj hinner
      split at hread
      next hlist =>
        obtain ⟨items, -, rfl⟩ := listBody_eq_ok_iff.mp hread
        obtain ⟨name, others, rfl, hsaid⟩ := ofBody_of_ofJson_list hmessage
        refine ⟨name, _, ?_, hsaid⟩
        simp only [payload, htoken, hscalar, if_pos hlist, listPayload_of_listBody hread]
      next hlist =>
        obtain ⟨reversed, -, rfl⟩ := objectBody_eq_ok_iff.mp hread
        obtain ⟨name, htag, hsaid⟩ := ofBody_of_ofJson_object (not_not.mp honce) hmessage
        refine ⟨name, _, ?_, hsaid⟩
        simp only [payload, htoken, hscalar, if_neg hlist, objectPayload_of_objectBody hread htag]

/-- **The message that a value says is read from its text**, if the value repeats no key. -/
theorem ofPayload_of_ofJson {text : String} {v : Json} {message : Message}
    (hparse : parse text = .ok v) (honce : ¬ v.Repeats)
    (hmessage : Message.ofJson v.normal = .ok message) :
    Message.ofPayload text = .ok message := by
  obtain ⟨rest, hread, hrest⟩ := Reader.parse_eq_ok_iff.mp hparse
  obtain ⟨name, body, hpayload, hbody⟩ := payload_of_ofJson hread honce hmessage
  exact Reader.parseAs_eq_ok_iff.mpr ⟨(name, body), rest, hpayload, hbody, hrest⟩

end Wire

end Worklog
