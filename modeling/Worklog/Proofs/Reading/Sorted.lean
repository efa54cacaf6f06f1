import Worklog.Json.Normal

/-!
# Sorted members

The normal form of an object is best seen name by name: under each name it has the last member that
was written under it, and nothing else.

* `under_sorted` — what sorting leaves under a name.
* `lookup_eq_under` — looking up a name finds the first member under it.
-/

namespace Worklog.Json

section

variable {α : Type}

/-- The members of one name, in their order. -/
def under (name : String) (members : List (String × α)) : List (String × α) :=
  members.filter fun member => member.1 = name

theorem under_cons_self (name : String) (value : α) (members : List (String × α)) :
    under name ((name, value) :: members) = (name, value) :: under name members := by
  simp [under]

theorem under_cons_ne {name key : String} (h : name ≠ key) (value : α)
    (members : List (String × α)) : under key ((name, value) :: members) = under key members := by
  simp [under, h]

/-- Under a name that no member has there is nothing. -/
theorem under_eq_nil {key : String} {members : List (String × α)}
    (h : ∀ member ∈ members, member.1 ≠ key) : under key members = [] := by
  rw [under, List.filter_eq_nil_iff]
  intro member hmember
  simpa using h member hmember

/-- Looking up a name finds the first member under it. -/
theorem lookup_eq_under (name : String) (members : List (String × α)) :
    lookup name members = (under name members).head?.map Prod.snd := by
  induction members with
  | nil => rfl
  | cons member rest ih =>
    obtain ⟨key, value⟩ := member
    rw [lookup]
    split
    · next h =>
      subst h
      rw [under_cons_self]
      rfl
    · next h => rw [under_cons_ne h, ih]

/-! ## Adding a member -/

/-- Members in the order of their names, no name twice. -/
def Ascending (members : List (String × α)) : Prop := members.Pairwise fun a b => a.1 < b.1

theorem lt_of_not_lt {a b : String} (hne : a ≠ b) (h : ¬ a < b) : b < a := by
  by_cases hba : b < a
  · exact hba
  · exact absurd (String.le_antisymm (String.not_lt.mp hba) (String.not_lt.mp h)) hne

theorem ne_of_lt {a b : String} (h : a < b) : b ≠ a := by
  rintro rfl
  exact String.lt_irrefl _ h

theorem mem_put {name : String} {value : α} {members : List (String × α)} {member : String × α}
    (h : member ∈ put name value members) : member = (name, value) ∨ member ∈ members := by
  induction members with
  | nil => simpa [put] using h
  | cons other rest ih =>
    obtain ⟨key, w⟩ := other
    unfold put at h
    split at h
    · rcases List.mem_cons.mp h with h | h
      · exact Or.inl h
      · exact Or.inr (List.mem_cons_of_mem _ h)
    split at h
    · exact List.mem_cons.mp h
    · rcases List.mem_cons.mp h with rfl | h
      · exact Or.inr List.mem_cons_self
      · rcases ih h with h | h
        · exact Or.inl h
        · exact Or.inr (List.mem_cons_of_mem _ h)

/-- Putting in a member keeps the names ascending. -/
theorem ascending_put {members : List (String × α)} (h : Ascending members) (name : String)
    (value : α) : Ascending (put name value members) := by
  induction members with
  | nil => exact List.pairwise_singleton _ _
  | cons member rest ih =>
    obtain ⟨key, w⟩ := member
    obtain ⟨hfirst, hrest⟩ := List.pairwise_cons.mp h
    unfold put
    split
    · next hname =>
      subst hname
      exact List.pairwise_cons.mpr ⟨hfirst, hrest⟩
    split
    · next hlt =>
      refine List.pairwise_cons.mpr ⟨fun m hm => ?_, h⟩
      rcases List.mem_cons.mp hm with rfl | hm
      · exact hlt
      · exact String.lt_trans hlt (hfirst m hm)
    · next hne hnlt =>
      refine List.pairwise_cons.mpr ⟨fun m hm => ?_, ih hrest⟩
      rcases mem_put hm with rfl | hm
      · exact lt_of_not_lt hne hnlt
      · exact hfirst m hm

/-- What is put in replaces what was under its name, and leaves the rest. -/
theorem under_put {members : List (String × α)} (h : Ascending members) (name key : String)
    (value : α) :
    under key (put name value members) = if name = key then [(name, value)] else under key members := by
  induction members with
  | nil =>
    split
    · next hkey => subst hkey; exact under_cons_self _ _ _
    · next hkey => exact under_cons_ne hkey _ _
  | cons member rest ih =>
    obtain ⟨k, w⟩ := member
    obtain ⟨hfirst, hrest⟩ := List.pairwise_cons.mp h
    unfold put
    split
    · next hname =>
      subst hname
      split
      · next hkey =>
        subst hkey
        rw [under_cons_self, under_eq_nil fun m hm => ne_of_lt (hfirst m hm)]
      · next hkey => rw [under_cons_ne hkey, under_cons_ne hkey]
    -- The new member comes before all others, and none of them has its name.
    split
    · next hlt =>
      split
      · next hkey =>
        subst hkey
        rw [under_cons_self, under_cons_ne (ne_of_lt hlt),
          under_eq_nil fun m hm => ne_of_lt (String.lt_trans hlt (hfirst m hm))]
      · next hkey => rw [under_cons_ne hkey]
    · next hne _ =>
      split
      · next hkey =>
        subst hkey
        rw [under_cons_ne (Ne.symm hne), ih hrest, if_pos rfl]
      · next hkey =>
        by_cases hk : k = key
        · subst hk
          rw [under_cons_self, under_cons_self, ih hrest, if_neg hkey]
        · rw [under_cons_ne hk, under_cons_ne hk, ih hrest, if_neg hkey]

/-! ## Sorting -/

/-- Adding members one after the other: under each name, the last one counts. -/
theorem under_foldl_put (members before : List (String × α)) (h : Ascending before)
    (key : String) :
    under key (members.foldl (fun before member => put member.1 member.2 before) before)
      = match (under key members).getLast? with
        | none => under key before
        | some member => [member] := by
  induction members generalizing before with
  | nil => rfl
  | cons member rest ih =>
    obtain ⟨name, value⟩ := member
    rw [List.foldl_cons, ih _ (ascending_put h name value), under_put h]
    by_cases hname : name = key
    · -- This member replaces what was there, and gives way to a later one of its name.
      subst hname
      rw [under_cons_self, List.getLast?_cons, if_pos rfl]
      cases (under name rest).getLast? <;> rfl
    · rw [under_cons_ne hname, if_neg hname]

/-- **Sorting leaves the last member of each name.** -/
theorem under_sorted (members : List (String × α)) (key : String) :
    under key (sorted members) = (under key members).getLast?.toList := by
  rw [sorted, under_foldl_put members [] List.Pairwise.nil]
  cases (under key members).getLast? <;> rfl

end

/-! ## Normal members -/

theorem normalMembers_eq_map (members : List (String × Json)) :
    normalMembers members = members.map fun member => (member.1, member.2.normal) := by
  induction members with
  | nil => rfl
  | cons member rest ih =>
    obtain ⟨name, v⟩ := member
    rw [normalMembers, ih, List.map_cons]

/-- Normal forms are taken member by member, so under each name as well. -/
theorem under_normalMembers (name : String) (members : List (String × Json)) :
    under name (normalMembers members) = normalMembers (under name members) := by
  rw [normalMembers_eq_map, normalMembers_eq_map, under, under, List.filter_map]
  rfl

end Worklog.Json
