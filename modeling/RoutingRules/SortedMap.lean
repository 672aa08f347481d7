/-!
# Maps with sorted keys

Finite maps from texts, kept as a list of entries in strictly increasing order of keys, so that
two maps with the same content are equal and a walk over a map meets the keys in order.  The
order of keys is by code point.
-/

namespace RoutingRules

/-- Entries in strictly increasing order of keys. -/
def KeysIncrease {α : Type} (entries : List (String × α)) : Prop :=
  entries.Pairwise fun a b => a.1 < b.1

/-- A finite map from texts with its entries in increasing order of keys. -/
structure SortedMap (α : Type) where
  entries : List (String × α)
  sorted : KeysIncrease entries

namespace SortedMap

variable {α : Type}

/-! ## Entry lists -/

/-- Put an entry into a sorted entry list, replacing the entry of the same key. -/
def insertEntry (key : String) (value : α) : List (String × α) → List (String × α)
  | [] => [(key, value)]
  | (k, v) :: rest =>
    if key < k then (key, value) :: (k, v) :: rest
    else if key = k then (key, value) :: rest
    else (k, v) :: insertEntry key value rest

/-- The value of a key in an entry list. -/
def lookupEntry (key : String) : List (String × α) → Option α
  | [] => none
  | (k, v) :: rest => if key = k then some v else lookupEntry key rest

theorem mem_insertEntry {key : String} {value : α} {entries : List (String × α)}
    {e : String × α} (he : e ∈ insertEntry key value entries) :
    e = (key, value) ∨ e ∈ entries := by
  induction entries with
  | nil => simpa [insertEntry] using he
  | cons head rest ih =>
    simp only [insertEntry] at he
    split at he
    · simpa using he
    · split at he
      · rcases List.mem_cons.1 he with h | h
        · exact Or.inl h
        · exact Or.inr (List.mem_cons_of_mem _ h)
      · rcases List.mem_cons.1 he with h | h
        · exact Or.inr (h ▸ List.mem_cons_self)
        · exact (ih h).imp_right (List.mem_cons_of_mem _)

theorem keysIncrease_insertEntry {key : String} {value : α} {entries : List (String × α)}
    (hs : KeysIncrease entries) : KeysIncrease (insertEntry key value entries) := by
  induction entries with
  | nil => simp [insertEntry, KeysIncrease]
  | cons head rest ih =>
    obtain ⟨k, v⟩ := head
    have hhead : ∀ e ∈ rest, k < e.1 := (List.pairwise_cons.1 hs).1
    have hrest : KeysIncrease rest := List.Pairwise.of_cons hs
    simp only [insertEntry]
    split
    next hlt =>
      refine List.pairwise_cons.2 ⟨?_, hs⟩
      intro e he
      rcases List.mem_cons.1 he with rfl | he
      · exact hlt
      · exact String.lt_trans hlt (hhead _ he)
    next hnlt =>
      split
      next heq =>
        subst heq
        exact List.pairwise_cons.2 ⟨fun e he => hhead _ he, hrest⟩
      next hne =>
        refine List.pairwise_cons.2 ⟨?_, ih hrest⟩
        intro e he
        rcases mem_insertEntry he with rfl | he
        · refine String.not_le.1 fun hle => hne ?_
          exact String.le_antisymm hle (String.not_lt.1 hnlt)
        · exact hhead _ he

/-! ## Maps -/

/-- The map without entries. -/
def empty : SortedMap α :=
  ⟨[], List.Pairwise.nil⟩

instance : Inhabited (SortedMap α) :=
  ⟨empty⟩

/-- Give a key a value, in place of any value it had. -/
def insert (m : SortedMap α) (key : String) (value : α) : SortedMap α :=
  ⟨insertEntry key value m.entries, keysIncrease_insertEntry m.sorted⟩

/-- The value of a key. -/
def get? (m : SortedMap α) (key : String) : Option α :=
  lookupEntry key m.entries

/-- Drop the entry of a key. -/
def erase (m : SortedMap α) (key : String) : SortedMap α :=
  ⟨m.entries.filter fun e => e.1 ≠ key, List.Pairwise.filter _ m.sorted⟩

/-- Enter all entries of a list one after another; a later one of the same key wins. -/
def insertAll (m : SortedMap α) (entries : List (String × α)) : SortedMap α :=
  entries.foldl (fun m e => m.insert e.1 e.2) m

/-- The map of an arbitrary entry list, in which a later entry of the same key wins. -/
def ofList (entries : List (String × α)) : SortedMap α :=
  empty.insertAll entries

/-- Whether there is no entry. -/
def isEmpty (m : SortedMap α) : Bool :=
  m.entries.isEmpty

/-- The keys in increasing order. -/
def keys (m : SortedMap α) : List String :=
  m.entries.map Prod.fst

/-- The values in the order of their keys. -/
def values (m : SortedMap α) : List α :=
  m.entries.map Prod.snd

theorem ext {m n : SortedMap α} (h : m.entries = n.entries) : m = n := by
  cases m
  cases n
  cases h
  rfl

instance [DecidableEq α] : DecidableEq (SortedMap α) := fun m n =>
  if h : m.entries = n.entries then .isTrue (ext h)
  else .isFalse fun heq => h (heq ▸ rfl)

end SortedMap

end RoutingRules
