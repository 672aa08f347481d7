import RoutingRules.Json.Value
import RoutingRules.Proofs.SortedMap

/-!
# Objects in order

An object is an entry list, and every reader of objects goes through a map with sorted keys.  The
values that come out of the readers therefore have all their objects in order, inside and out; an
entry list that repeats a key is a value of the type, but none that a document can hold.

Main results:

- Theorem {lit}`Json.valueInduction`: induction over values, with the items of a list and the
  fields of an object as lists.
- Theorem {lit}`Json.isSorted_ofMap_iff`: an object made from a map is in order when the values
  of the map are.
-/

namespace RoutingRules

instance {α : Type} (entries : List (String × α)) : Decidable (KeysIncrease entries) :=
  inferInstanceAs (Decidable (entries.Pairwise fun a b => a.1 < b.1))

namespace Json

/-! ## Induction over values -/

/-- Induction over values: a law holds of every value when it holds of those without parts and
passes from items to their list and from fields to their object. -/
@[elab_as_elim]
theorem valueInduction {motive : Json → Prop} (null : motive null) (bool : ∀ b, motive (bool b))
    (int : ∀ n, motive (int n)) (float : ∀ x, motive (float x)) (str : ∀ s, motive (str s))
    (arr : ∀ items, (∀ item ∈ items, motive item) → motive (arr items))
    (obj : ∀ fields, (∀ f ∈ fields, motive f.2) → motive (obj fields)) (value : Json) :
    motive value :=
  @Json.rec motive (fun items => ∀ item ∈ items, motive item)
    (fun fields => ∀ f ∈ fields, motive f.2) (fun f => motive f.2) null bool int float str arr obj
    (by simp) (fun _ _ hitem hitems => List.forall_mem_cons.2 ⟨hitem, hitems⟩) (by simp)
    (fun _ _ hfield hfields => List.forall_mem_cons.2 ⟨hfield, hfields⟩) (fun _ _ h => h) value

/-! ## Order -/

mutual

/-- Whether every object in a value has its fields in increasing order of keys. -/
def isSorted : Json → Bool
  | .arr items => itemsSorted items
  | .obj fields => decide (KeysIncrease fields) && fieldsSorted fields
  | _ => true

/-- Whether the objects in several values are in order. -/
def itemsSorted : List Json → Bool
  | [] => true
  | item :: items => isSorted item && itemsSorted items

/-- Whether the objects in the values of fields are in order. -/
def fieldsSorted : List (String × Json) → Bool
  | [] => true
  | (_, value) :: fields => isSorted value && fieldsSorted fields

end

theorem itemsSorted_iff {items : List Json} :
    itemsSorted items = true ↔ ∀ item ∈ items, item.isSorted = true := by
  induction items with
  | nil => simp [itemsSorted]
  | cons item items ih => rw [itemsSorted, Bool.and_eq_true, ih, List.forall_mem_cons]

theorem fieldsSorted_iff {fields : List (String × Json)} :
    fieldsSorted fields = true ↔ ∀ f ∈ fields, f.2.isSorted = true := by
  induction fields with
  | nil => simp [fieldsSorted]
  | cons f fields ih =>
    obtain ⟨key, value⟩ := f
    rw [fieldsSorted, Bool.and_eq_true, ih, List.forall_mem_cons]

@[simp] theorem isSorted_arr_iff {items : List Json} :
    (arr items).isSorted = true ↔ ∀ item ∈ items, item.isSorted = true :=
  itemsSorted_iff

/-- An object is in order when its fields and their values are. -/
theorem isSorted_obj_iff {fields : List (String × Json)} :
    (obj fields).isSorted = true ↔ KeysIncrease fields ∧ ∀ f ∈ fields, f.2.isSorted = true := by
  rw [isSorted, Bool.and_eq_true, decide_eq_true_eq, fieldsSorted_iff]

/-- An object made from a map is in order when the values of the map are. -/
theorem isSorted_ofMap_iff {m : SortedMap Json} :
    (ofMap m).isSorted = true ↔ ∀ e ∈ m.entries, e.2.isSorted = true := by
  rw [ofMap, isSorted_obj_iff, and_iff_right m.sorted]

end Json

end RoutingRules
