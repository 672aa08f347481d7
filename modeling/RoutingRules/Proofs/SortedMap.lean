import Mathlib.Data.List.Perm.Basic
import RoutingRules.Number.Natural
import RoutingRules.SortedMap

/-!
# Laws of maps with sorted keys

A sorted map is determined by the values of its keys, and its entries are exactly the keys with
their values.  These laws let later modules speak of a map through {lit}`SortedMap.get?` alone.

Main results:

- Theorem {lit}`SortedMap.mem_entries_iff`: the entries of a map are its keys with their values.
- Theorems {lit}`SortedMap.get?_insert` and {lit}`SortedMap.get?_erase`: an update changes the
  value of one key.
- Theorem {lit}`SortedMap.ext_get?`: maps with the same values of all keys are equal.
- Theorem {lit}`SortedMap.get?_insertAll`: entering a sorted entry list changes the values of its
  keys only.
-/

namespace RoutingRules.SortedMap

variable {α : Type}

/-! ## Keys and entries -/

/-- Looking a key up finds the entry of the key. -/
theorem lookupEntry_eq_some_iff {entries : List (String × α)} (hs : KeysIncrease entries)
    {key : String} {value : α} :
    lookupEntry key entries = some value ↔ (key, value) ∈ entries := by
  induction entries with
  | nil => simp [lookupEntry]
  | cons head rest ih =>
    obtain ⟨k, v⟩ := head
    have hrest : KeysIncrease rest := List.Pairwise.of_cons hs
    by_cases hk : key = k
    · subst hk
      have hnot : (key, value) ∉ rest := by
        intro hmem
        have hlt : key < key := (List.pairwise_cons.1 hs).1 _ hmem
        exact String.lt_irrefl _ hlt
      simp [lookupEntry, hnot, eq_comm]
    · simp [lookupEntry, hk, ih hrest]

/-- What is found under a key is an entry. -/
theorem mem_of_lookupEntry {entries : List (String × α)} {key : String} {value : α}
    (h : lookupEntry key entries = some value) : (key, value) ∈ entries := by
  induction entries with
  | nil => cases h
  | cons head rest ih =>
    obtain ⟨k, v⟩ := head
    rw [lookupEntry] at h
    split at h
    next hkey =>
      rw [hkey, Option.some.inj h]
      exact List.mem_cons_self
    next => exact List.mem_cons_of_mem _ (ih h)

/-- The entries of a map are its keys with their values. -/
theorem mem_entries_iff {m : SortedMap α} {key : String} {value : α} :
    (key, value) ∈ m.entries ↔ m.get? key = some value :=
  (lookupEntry_eq_some_iff m.sorted).symm

/-- Maps with the same values of all keys are equal. -/
theorem ext_get? {m n : SortedMap α} (h : ∀ key, m.get? key = n.get? key) : m = n := by
  apply ext
  have hmem : ∀ e : String × α, e ∈ m.entries ↔ e ∈ n.entries := by
    rintro ⟨key, value⟩
    rw [mem_entries_iff, mem_entries_iff, h]
  have hnodup : ∀ l : SortedMap α, l.entries.Nodup := fun l =>
    l.sorted.imp fun hlt heq => String.ne_of_lt hlt (congrArg Prod.fst heq)
  have hperm : m.entries.Perm n.entries :=
    (List.perm_ext_iff_of_nodup (hnodup m) (hnodup n)).2 hmem
  refine hperm.eq_of_pairwise ?_ m.sorted n.sorted
  intro a b _ _ hab hba
  exact absurd (String.lt_trans hab hba) (String.lt_irrefl _)

/-! ## Updates -/

@[simp] theorem get?_empty (key : String) : (empty : SortedMap α).get? key = none :=
  rfl

/-- Entering a key changes the value of that key only. -/
theorem lookupEntry_insertEntry {entries : List (String × α)} (key other : String) (value : α) :
    lookupEntry other (insertEntry key value entries) =
      if other = key then some value else lookupEntry other entries := by
  induction entries with
  | nil => simp [insertEntry, lookupEntry]
  | cons head rest ih =>
    obtain ⟨k, v⟩ := head
    simp only [insertEntry]
    split
    next hlt => simp [lookupEntry]
    next hnlt =>
      split
      next heq =>
        subst heq
        simp only [lookupEntry]
        split <;> rfl
      next hne =>
        simp only [lookupEntry, ih]
        -- A key that is found in front of the new entry is not the new key.
        split
        next hother => rw [if_neg (fun h => hne (h.symm.trans hother))]
        next hother => rfl

theorem get?_insert (m : SortedMap α) (key other : String) (value : α) :
    (m.insert key value).get? other = if other = key then some value else m.get? other :=
  lookupEntry_insertEntry key other value

/-- Dropping a key leaves all others as they were. -/
theorem get?_erase (m : SortedMap α) (key other : String) :
    (m.erase key).get? other = if other = key then none else m.get? other := by
  apply Option.ext
  intro value
  rw [← mem_entries_iff]
  by_cases ho : other = key
  · simp [erase, ho]
  · simp [erase, ho, mem_entries_iff]

/-- A map is empty when no key has a value. -/
theorem isEmpty_iff {m : SortedMap α} : m.isEmpty = true ↔ m = empty := by
  constructor
  · intro h
    exact ext (List.isEmpty_iff.1 h)
  · rintro rfl
    rfl

/-! ## Entry lists -/

/-- A key has no value in an entry list when no entry has it. -/
theorem lookupEntry_eq_none_iff {key : String} {entries : List (String × α)} :
    lookupEntry key entries = none ↔ ∀ e ∈ entries, e.1 ≠ key := by
  induction entries with
  | nil => simp [lookupEntry]
  | cons head rest ih =>
    rw [lookupEntry, List.forall_mem_cons]
    split
    next hkey => simp [hkey]
    next hkey => rw [ih, and_iff_right (Ne.symm hkey)]

/-- A key below all keys of an entry list has no value in it. -/
theorem lookupEntry_eq_none_of_lt {key : String} {entries : List (String × α)}
    (h : ∀ e ∈ entries, key < e.1) : lookupEntry key entries = none :=
  lookupEntry_eq_none_iff.2 fun e he => (String.ne_of_lt (h e he)).symm

/-- Entering a key exchanges the measure of its value and leaves all other measures. -/
theorem total_insertEntry (measure : α → Nat) {entries : List (String × α)}
    (hs : KeysIncrease entries) (key : String) (value : α) :
    Number.total ((insertEntry key value entries).map fun e => measure e.2) +
        ((lookupEntry key entries).map measure).getD 0 =
      Number.total (entries.map fun e => measure e.2) + measure value := by
  induction entries with
  | nil => simp [insertEntry, lookupEntry, Number.total]
  | cons head rest ih =>
    obtain ⟨k, v⟩ := head
    have hhead : ∀ e ∈ rest, k < e.1 := (List.pairwise_cons.1 hs).1
    have hrest := ih (List.Pairwise.of_cons hs)
    simp only [insertEntry]
    split
    next hlt =>
      have hnone : lookupEntry key ((k, v) :: rest) = none :=
        lookupEntry_eq_none_of_lt (List.forall_mem_cons.2
          ⟨hlt, fun e he => String.lt_trans hlt (hhead e he)⟩)
      simp [hnone, Number.total, Nat.add_comm]
    next =>
      split
      next heq =>
        simp only [lookupEntry, if_pos heq, List.map_cons, Number.total, List.foldr_cons,
          Option.map_some, Option.getD_some]
        omega
      next hne =>
        simp only [lookupEntry, if_neg hne, List.map_cons, Number.total, List.foldr_cons]
          at hrest ⊢
        omega

theorem total_insert (measure : α → Nat) (m : SortedMap α) (key : String) (value : α) :
    Number.total ((m.insert key value).values.map measure) + ((m.get? key).map measure).getD 0 =
      Number.total (m.values.map measure) + measure value := by
  rw [values, values, List.map_map, List.map_map]
  exact total_insertEntry measure m.sorted key value

/-- Keeping some keys keeps their values. -/
theorem lookupEntry_filter (keep : String → Bool) (key : String) (entries : List (String × α)) :
    lookupEntry key (entries.filter fun e => keep e.1) =
      if keep key = true then lookupEntry key entries else none := by
  induction entries with
  | nil => simp [lookupEntry]
  | cons head rest ih =>
    obtain ⟨k, v⟩ := head
    by_cases hkey : key = k
    · subst hkey
      by_cases hkeep : keep key = true
      · simp [lookupEntry, hkeep]
      · simp [hkeep, ih]
    · by_cases hkeep : keep k = true
      · simp [lookupEntry, hkey, hkeep, ih]
      · simp [lookupEntry, hkey, hkeep, ih]

/-- Changing the values of an entry list changes those that are found. -/
theorem lookupEntry_map {β : Type} (f : α → β) (key : String) (entries : List (String × α)) :
    lookupEntry key (entries.map fun e => (e.1, f e.2)) = (lookupEntry key entries).map f := by
  induction entries with
  | nil => rfl
  | cons head rest ih =>
    simp only [List.map_cons, lookupEntry, ih]
    split <;> rfl

/-- Changing the values of an entry list does not change its order. -/
theorem keysIncrease_map {β : Type} {entries : List (String × α)} (hs : KeysIncrease entries)
    (f : α → β) : KeysIncrease (entries.map fun e => (e.1, f e.2)) :=
  List.pairwise_map.2 hs

/-- Entering a sorted entry list changes the values of its keys only. -/
theorem get?_insertAll (m : SortedMap α) {entries : List (String × α)} (hs : KeysIncrease entries)
    (key : String) :
    (m.insertAll entries).get? key = (lookupEntry key entries).or (m.get? key) := by
  induction entries generalizing m with
  | nil => rfl
  | cons head rest ih =>
    obtain ⟨k, v⟩ := head
    have hrest : KeysIncrease rest := List.Pairwise.of_cons hs
    show ((m.insert k v).insertAll rest).get? key = _
    rw [ih _ hrest, get?_insert, lookupEntry]
    by_cases hkey : key = k
    · subst hkey
      have hnone : lookupEntry key rest = none :=
        lookupEntry_eq_none_of_lt (List.pairwise_cons.1 hs).1
      rw [hnone, if_pos rfl, if_pos rfl]
      rfl
    · rw [if_neg hkey, if_neg hkey]

/-- The map of a sorted entry list has its values. -/
theorem get?_ofList {entries : List (String × α)} (hs : KeysIncrease entries) (key : String) :
    (ofList entries).get? key = lookupEntry key entries := by
  rw [ofList, get?_insertAll _ hs, get?_empty, Option.or_none]

/-- The map of a sorted entry list has its entries. -/
theorem entries_ofList {entries : List (String × α)} (hs : KeysIncrease entries) :
    (ofList entries).entries = entries :=
  congrArg SortedMap.entries (ext_get? (n := ⟨entries, hs⟩) (get?_ofList hs))

/-- The map of the entries of a map is the map. -/
@[simp] theorem ofList_entries (m : SortedMap α) : ofList m.entries = m :=
  ext_get? fun key => get?_ofList m.sorted key

/-- Entering entries adds nothing else. -/
theorem mem_entries_insertAll {m : SortedMap α} {entries : List (String × α)} {e : String × α}
    (he : e ∈ (m.insertAll entries).entries) : e ∈ m.entries ∨ e ∈ entries := by
  induction entries generalizing m with
  | nil => exact Or.inl he
  | cons head rest ih =>
    rcases ih (m := m.insert head.1 head.2) he with hold | hrest
    · rcases mem_insertEntry hold with rfl | hm
      · exact Or.inr List.mem_cons_self
      · exact Or.inl hm
    · exact Or.inr (List.mem_cons_of_mem _ hrest)

/-- A map made from an entry list has no other entries. -/
theorem mem_entries_ofList {entries : List (String × α)} {e : String × α}
    (he : e ∈ (ofList entries).entries) : e ∈ entries :=
  (mem_entries_insertAll he).resolve_left List.not_mem_nil

/-- A key that no entry of a list has is none of its map. -/
theorem get?_ofList_eq_none {entries : List (String × α)} {key : String}
    (h : ∀ e ∈ entries, e.1 ≠ key) : (ofList entries).get? key = none := by
  rw [Option.eq_none_iff_forall_not_mem]
  exact fun value hvalue => h _ (mem_entries_ofList (mem_entries_iff.2 hvalue)) rfl

end RoutingRules.SortedMap
