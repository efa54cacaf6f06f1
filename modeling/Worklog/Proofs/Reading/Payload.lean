import Worklog.Proofs.Reading.Draft
import Worklog.Wire.Payload

/-!
# Two ways to read a payload

A message that can be read directly from the text of its payload is also what the payload says as a
value: the value has its members sorted and one for each name, and loses nothing by that, since a
message has no key twice.

* `members_tagged` — the members of a payload, read for a message and collected as they are.
* `ofJson_of_ofPayload` — the message read from the text is the one that the value says.
-/

namespace Worklog.Wire

open Json

/-! ## Readers -/

/-- A tag is a value by itself. -/
theorem value_of_tagReader {text rest : List Char} {name : String}
    (h : tagReader.read text = .ok (name, rest)) (depth : Nat) :
    (value depth).read text = .ok (.string name, rest) := by
  have htoken : token text = .ok (.string name, rest) := by
    simp only [tagReader, typed] at h
    split at h
    next => simp at h
    next t tail ht =>
      split at h
      next found hfound =>
        simp only [Except.ok.injEq, Prod.mk.injEq] at h
        obtain ⟨rfl, rfl⟩ := h
        cases t <;> simp [Token.asString] at hfound
        rw [ht, hfound]
      next => simp at h
  cases depth <;> simp only [value, node, htoken, Token.scalar?]

theorem elements_map {α β : Type} {r : Reader α} {f : α → β} {isFirst : Bool}
    {text rest : List Char} {bs : List β} (h : elements (r.map f) isFirst text = .ok (bs, rest)) :
    ∃ as, elements r isFirst text = .ok (as, rest) ∧ bs = as.map f := by
  fun_induction elements (r.map f) isFirst text generalizing bs rest with
  | case1 => simp at h
  | case2 isFirst text tail hitem =>
    simp only [Except.ok.injEq, Prod.mk.injEq] at h
    obtain ⟨rfl, rfl⟩ := h
    refine ⟨[], ?_, rfl⟩
    rw [elements.eq_def, hitem]
  | case3 => simp at h
  | case4 => simp at h
  | case5 isFirst text tail hitem b tail' hread bs' tail'' hrest ih =>
    simp only [Except.ok.injEq, Prod.mk.injEq] at h
    obtain ⟨rfl, rfl⟩ := h
    obtain ⟨a, ha, rfl⟩ := map_read_eq_ok_iff.mp hread
    obtain ⟨as, has, rfl⟩ := ih hrest
    refine ⟨a :: as, ?_, rfl⟩
    rw [elements.eq_def, hitem]
    simp only
    rw [ha]
    simp only [has]

/-! ## Objects -/

/-- The members other than the action. -/
def untagged (members : List (String × Json)) : List (String × Json) :=
  members.filter fun member => member.1 ≠ tagKey

/-- Without the tag, what stands under other names is the same. -/
theorem under_untagged {key : String} (h : key ≠ tagKey) (members : List (String × Json)) :
    under key (untagged members) = under key members := by
  rw [under, untagged, List.filter_filter]
  refine List.filter_congr fun member _ => ?_
  by_cases hname : member.1 = key
  · simp [hname, h]
  · simp [hname]

/-- What has been read of an object for a message, and what has been collected of it, the latest
first: the same members, but for the action, which must not be repeated. -/
structure Matches (tagged : Tagged) (collected : List (String × Json)) : Prop where
  before : tagged.before = normalMembers (untagged collected)
  tag : under tagKey collected
    = match tagged.name with
      | none => []
      | some name => [(tagKey, .string name)]

theorem matches_empty : Matches {} [] := ⟨rfl, rfl⟩

theorem Matches.tag_cons {tagged : Tagged} {collected : List (String × Json)}
    (h : Matches tagged collected) (hname : tagged.name = none) (tag : String) :
    Matches { tagged with name := some tag } ((tagKey, .string tag) :: collected) where
  before := by
    rw [h.before, untagged, untagged, List.filter_cons_of_neg (by simp)]
  tag := by
    have htag := h.tag
    rw [hname] at htag
    rw [under_cons_self, htag]

theorem Matches.member_cons {tagged : Tagged} {collected : List (String × Json)}
    (h : Matches tagged collected) {name : String} (hname : name ≠ tagKey) (v : Json) :
    Matches { tagged with before := (name, v.normal) :: tagged.before } ((name, v) :: collected) where
  before := by
    rw [h.before, untagged, untagged, List.filter_cons_of_pos (by simpa using hname), normalMembers]
  tag := by
    rw [under_cons_ne hname]
    exact h.tag

/-- The reader of the values of an object. -/
def collect (r : Reader Json) (before : List (String × Json)) (name : String) :
    Except Mismatch (Reader (List (String × Json))) :=
  .ok (r.map fun v => (name, v) :: before)

/-- One member, read for a message, is collected as well. -/
theorem Matches.step {tagged next : Tagged} {collected : List (String × Json)}
    (h : Matches tagged collected) {name : String} {r : Reader Tagged}
    (hmember : tagged.member name = .ok r) {text rest : List Char}
    (hread : r.read text = .ok (next, rest)) :
    ∃ v, (value (maxDepth - 1)).read text = .ok (v, rest) ∧ Matches next ((name, v) :: collected) := by
  unfold Tagged.member at hmember
  split at hmember
  next hname =>
    subst hname
    split at hmember
    next => simp at hmember
    next hnone =>
      obtain rfl := Except.ok.inj hmember
      obtain ⟨tag, htag, rfl⟩ := map_read_eq_ok_iff.mp hread
      exact ⟨.string tag, value_of_tagReader htag _, h.tag_cons hnone tag⟩
  next hname =>
    obtain rfl := Except.ok.inj hmember
    obtain ⟨w, hw, rfl⟩ := map_read_eq_ok_iff.mp hread
    obtain ⟨v, hv, rfl⟩ := map_read_eq_ok_iff.mp hw
    exact ⟨v, hv, h.member_cons hname v⟩

/-- **The members of a payload are read alike for a message and as they are.** -/
theorem members_tagged {tagged result : Tagged} {collected : List (String × Json)}
    (hmatches : Matches tagged collected) {isFirst : Bool} {text rest : List Char}
    (h : members Tagged.member tagged isFirst text = .ok (result, rest)) :
    ∃ all, members (collect (value (maxDepth - 1))) collected isFirst text = .ok (all, rest)
      ∧ Matches result all := by
  fun_induction members Tagged.member tagged isFirst text generalizing collected with
  | case1 => simp at h
  | case2 tagged isFirst text tail hkey =>
    simp only [Except.ok.injEq, Prod.mk.injEq] at h
    obtain ⟨rfl, rfl⟩ := h
    refine ⟨collected, ?_, hmatches⟩
    rw [members.eq_def, hkey]
  | case3 => simp at h
  | case4 => simp at h
  | case5 => simp at h
  | case6 tagged isFirst text name tail hkey r hmember tail' hcolon next tail'' hread ih =>
    obtain ⟨v, hv, hnext⟩ := hmatches.step hmember hread
    obtain ⟨all, hall, hresult⟩ := ih hnext h
    refine ⟨all, ?_, hresult⟩
    have hcollect : (Reader.map (fun v => (name, v) :: collected) (value (maxDepth - 1))).read tail'
        = .ok ((name, v) :: collected, tail'') :=
      map_read_eq_ok_iff.mpr ⟨v, hv, rfl⟩
    rw [members.eq_def, hkey]
    simp only [collect]
    rw [hcolon]
    simp only
    rw [hcollect]
    simp only [← hall]

/-- A payload that is an object can be read as a value, with one tag among its members. -/
theorem objectBody_of_objectPayload {text rest : List Char} {name : String} {body : Body}
    (h : objectPayload text = .ok ((name, body), rest)) :
    ∃ pairs, objectBody (value (maxDepth - 1)) text = .ok (.object pairs, rest)
      ∧ under tagKey pairs = [(tagKey, .string name)]
      ∧ body = .members (normalMembers (untagged pairs)) := by
  unfold objectPayload at h
  split at h
  next => simp at h
  next tagged tail hmembers =>
    split at h
    next => simp at h
    next hname =>
      simp only [Except.ok.injEq, Prod.mk.injEq] at h
      obtain ⟨⟨rfl, rfl⟩, rfl⟩ := h
      obtain ⟨all, hall, hmatches⟩ := members_tagged matches_empty hmembers
      have htag := hmatches.tag
      rw [hname] at htag
      refine ⟨all.reverse, ?_, ?_, ?_⟩
      · exact objectBody_eq_ok_iff.mpr ⟨all, hall, rfl⟩
      · rw [under, List.filter_reverse]
        show (under tagKey all).reverse = _
        rw [htag]
        rfl
      · rw [hmatches.before, untagged, untagged, List.filter_reverse, normalMembers_eq_map,
          normalMembers_eq_map, List.map_reverse]

/-! ## Lists -/

/-- A payload that is a list can be read as a value, with its tag in front. -/
theorem listBody_of_listPayload {text rest : List Char} {name : String} {body : Body}
    (h : listPayload text = .ok ((name, body), rest)) :
    ∃ items, listBody (value (maxDepth - 1)) text = .ok (.list (.string name :: items), rest)
      ∧ body = .items (normalItems items) := by
  unfold listPayload at h
  split at h
  next => simp at h
  next => simp at h
  next tail hitem =>
    split at h
    next => simp at h
    next tag tail' htag =>
      split at h
      next => simp at h
      next items tail'' helements =>
        simp only [Except.ok.injEq, Prod.mk.injEq] at h
        obtain ⟨⟨rfl, rfl⟩, rfl⟩ := h
        obtain ⟨values, hvalues, rfl⟩ := elements_map helements
        refine ⟨values, listBody_eq_ok_iff.mpr ⟨_, ?_, rfl⟩, by rw [normalItems_eq_map]⟩
        rw [elements.eq_def, hitem]
        simp only
        rw [value_of_tagReader htag]
        simp only [hvalues]

/-! ## Payloads -/

theorem value_maxDepth : value maxDepth = node (some (value (maxDepth - 1))) := rfl

/-- What an object says as a value, once its members are sorted. -/
theorem ofJson_object {pairs : List (String × Json)} {name : String} {message : Message}
    (htag : under tagKey pairs = [(tagKey, .string name)])
    (hbody : Message.ofBody name (.members (normalMembers (untagged pairs))) = .ok message) :
    Message.ofJson (Json.object pairs).normal = .ok message := by
  have hlookup : lookup tagKey (sorted (normalMembers pairs)) = some (.string name) := by
    rw [lookup_eq_under, under_sorted, under_normalMembers, htag]
    rfl
  have hsorted : Message.ofBody name (.members (untagged (sorted (normalMembers pairs))))
      = .ok message := by
    refine ofBody_eq_ok_of_under (fun key hkey => ?_) hbody
    have hname : key.name ≠ tagKey := by cases key <;> decide
    have hle := length_under_le_of_ofBody hbody key hkey
    rw [under_normalMembers, under_untagged hname] at hle ⊢
    rw [under_untagged hname, under_sorted, under_normalMembers]
    rcases hmembers : normalMembers (under key.name pairs) with _ | ⟨member, _ | ⟨other, more⟩⟩
    · rfl
    · rfl
    · simp [hmembers] at hle
  simp only [normal, Message.ofJson, hlookup]
  exact hsorted

/-- **A message that is read at once is also read by way of a value.** -/
theorem ofJson_of_payload {text rest : List Char} {name : String} {body : Body}
    (h : payload text = .ok ((name, body), rest)) {message : Message}
    (hbody : Message.ofBody name body = .ok message) :
    ∃ v, (value maxDepth).read text = .ok (v, rest) ∧ Message.ofJson v.normal = .ok message := by
  unfold payload at h
  split at h
  next => simp at h
  next t tail htoken =>
    split at h
    next => simp at h
    next hopen =>
      split at h
      next hlist =>
        subst hlist
        obtain ⟨items, hitems, rfl⟩ := listBody_of_listPayload h
        refine ⟨.list (.string name :: items), ?_, by
          simpa [normal, normalItems, Message.ofJson, asTag, first, Token.asString] using hbody⟩
        rw [value_maxDepth]
        simp only [node, htoken, Token.scalar?, if_pos, hitems]
      next hlist =>
        obtain ⟨pairs, hpairs, htag, rfl⟩ := objectBody_of_objectPayload h
        refine ⟨.object pairs, ?_, ofJson_object htag hbody⟩
        rw [value_maxDepth]
        simp only [node, htoken, hopen, if_neg hlist, hpairs]

/-- **A message read from the text of a payload is the one that its value says.** -/
theorem ofJson_of_ofPayload {text : String} {message : Message}
    (h : Message.ofPayload text = .ok message) :
    ∃ v, parseData text = .ok v ∧ Message.ofJson v = .ok message := by
  obtain ⟨⟨name, body⟩, rest, hread, hbody, hrest⟩ := Reader.parseAs_eq_ok_iff.mp h
  obtain ⟨v, hv, hmessage⟩ := ofJson_of_payload hread hbody
  refine ⟨v.normal, ?_, hmessage⟩
  have hparse : parse text = .ok v := Reader.parse_eq_ok_iff.mpr ⟨rest, hv, hrest⟩
  simp only [parseData, hparse]

end Worklog.Wire
