import RoutingRules.Proofs.SingBox.Made
import RoutingRules.Proofs.World
import RoutingRules.SingBox.Template

/-!
# Expanded values

Expansion walks a value down to the objects with filters and leaves everything around them as it
is.  This module states that as a relation between the value before and after, with the law of the
objects with filters as a parameter, so that a law about one object carries over to the whole
template.

Main results:

- Theorem {lit}`Expansion.fills_of_expandHere`: an object with filters gets the fields of the
  grouped conditions that its filters resolve to.
- Theorem {lit}`Expansion.expands_of_expand`: a value is expanded at its objects with filters and
  nowhere else.
- Theorem {lit}`Expands.isSorted`: expansion keeps objects in order.
-/

namespace RoutingRules.SingBox

open SortedMap (lookupEntry)

/-! ## Values before and after -/

/-- A value is another one with every object with filters replaced by one that it may be filled to.
Inside of such an object nothing else is expanded. -/
inductive Expands (fills : List (String × Json) → Json → Prop) : Json → Json → Prop
  | filters {fields : List (String × Json)} {value : Json}
      (h : (lookupEntry filtersKey fields).isSome = true) (hfills : fills fields value) :
      Expands fills (.obj fields) value
  | fields {fields values : List (String × Json)} (h : lookupEntry filtersKey fields = none)
      (hkeys : values.map Prod.fst = fields.map Prod.fst)
      (hvalues : List.Forall₂ (Expands fills) (fields.map Prod.snd) (values.map Prod.snd)) :
      Expands fills (.obj fields) (.obj values)
  | items {items values : List Json} (hvalues : List.Forall₂ (Expands fills) items values) :
      Expands fills (.arr items) (.arr values)
  | plain {value : Json} (hitems : value.toItems? = none) (hfields : value.toMap? = none) :
      Expands fills value value

/-- Entries with the same keys are in the same order. -/
theorem keysIncrease_of_keys_eq {α : Type} {entries others : List (String × α)}
    (hkeys : others.map Prod.fst = entries.map Prod.fst) (hs : KeysIncrease entries) :
    KeysIncrease others := by
  have hall : (others.map Prod.fst).Pairwise (· < ·) := by
    rw [hkeys]
    exact List.pairwise_map.2 hs
  exact List.pairwise_map.1 hall

namespace Expands

variable {fills : List (String × Json) → Json → Prop}

/-- An object with filters is replaced as a whole. -/
theorem filters_iff {fields : List (String × Json)} {value : Json}
    (h : (lookupEntry filtersKey fields).isSome = true) :
    Expands fills (.obj fields) value ↔ fills fields value := by
  refine ⟨fun hexpands => ?_, .filters h⟩
  cases hexpands with
  | filters _ hfills => exact hfills
  | fields hnone _ _ =>
    rw [hnone] at h
    cases h
  | plain _ hfields => cases hfields

/-- In an object without filters the values of the fields are expanded. -/
theorem fields_iff {fields values : List (String × Json)}
    (h : lookupEntry filtersKey fields = none) :
    Expands fills (.obj fields) (.obj values) ↔
      values.map Prod.fst = fields.map Prod.fst ∧
        List.Forall₂ (Expands fills) (fields.map Prod.snd) (values.map Prod.snd) := by
  refine ⟨fun hexpands => ?_, fun ⟨hkeys, hvalues⟩ => .fields h hkeys hvalues⟩
  cases hexpands with
  | filters hfilters _ =>
    rw [h] at hfilters
    cases hfilters
  | fields _ hkeys hvalues => exact ⟨hkeys, hvalues⟩
  | plain _ hfields => cases hfields

theorem items_iff {items values : List Json} :
    Expands fills (.arr items) (.arr values) ↔ List.Forall₂ (Expands fills) items values := by
  refine ⟨fun hexpands => ?_, .items⟩
  cases hexpands with
  | items hvalues => exact hvalues
  | plain hitems _ => cases hitems

/-- A law of the objects with filters that follows from another one carries over to whole values. -/
theorem imp {others : List (String × Json) → Json → Prop}
    (himp : ∀ fields value, fills fields value → others fields value) {before after : Json}
    (h : Expands fills before after) : Expands others before after := by
  induction before using Json.valueInduction generalizing after with
  | obj fields ih =>
    cases h with
    | filters hfilters hfilled => exact .filters hfilters (himp _ _ hfilled)
    | fields hnone hkeys hvalues =>
      refine .fields hnone hkeys (forall₂_imp_of_mem hvalues fun part hpart _ hexpands => ?_)
      obtain ⟨f, hf, rfl⟩ := List.mem_map.1 hpart
      exact ih f hf hexpands
    | plain hitems hfields => exact .plain hitems hfields
  | arr items ih =>
    cases h with
    | items hvalues => exact .items (forall₂_imp_of_mem hvalues fun item hitem _ => ih item hitem)
    | plain hitems hfields => exact .plain hitems hfields
  | _ =>
    cases h
    exact .plain rfl rfl

/-- Expansion keeps objects in order. -/
theorem isSorted
    (hfills : ∀ fields value, (Json.obj fields).isSorted = true → fills fields value →
      value.isSorted = true)
    {before after : Json} (h : Expands fills before after) (hs : before.isSorted = true) :
    after.isSorted = true := by
  induction before using Json.valueInduction generalizing after with
  | obj fields ih =>
    cases h with
    | filters _ hfilled => exact hfills _ _ hs hfilled
    | fields _ hkeys hvalues =>
      obtain ⟨hfields, hall⟩ := Json.isSorted_obj_iff.1 hs
      refine Json.isSorted_obj_iff.2 ⟨keysIncrease_of_keys_eq hkeys hfields, fun v hv => ?_⟩
      obtain ⟨value, hvalue, hexpands⟩ := exists_mem_of_forall₂ hvalues (List.mem_map_of_mem hv)
      obtain ⟨f, hf, rfl⟩ := List.mem_map.1 hvalue
      exact ih f hf hexpands (hall f hf)
    | plain => exact hs
  | arr items ih =>
    cases h with
    | items hvalues =>
      refine Json.isSorted_arr_iff.2 fun v hv => ?_
      obtain ⟨item, hitem, hexpands⟩ := exists_mem_of_forall₂ hvalues hv
      exact ih item hitem hexpands (Json.isSorted_arr_iff.1 hs item hitem)
    | plain => exact hs
  | _ =>
    cases h
    rfl

end Expands

/-! ## Objects with filters -/

namespace Expansion

variable {σ : Type}

/-- The filters of an object resolve to conditions, with some files and from some state of the
fetcher. -/
def Resolves (x : Expansion σ) (fields : List (String × Json)) (conditions : List Condition) :
    Prop :=
  ∃ value filters files before after, lookupEntry filtersKey fields = some value ∧
    Filter.listOfJson value = .ok filters ∧
    (Filter.conditionsOfAll (x.remote files) x.forDns filters).run.run before =
      (.ok conditions, after)

/-- An object with filters becomes one with the fields of the grouped conditions. -/
def FilledBy (x : Expansion σ) (fields : List (String × Json)) (conditions : List Condition)
    (grouped : Grouped) (value : Json) : Prop :=
  x.Resolves fields conditions ∧ group conditions x.included x.mode = .ok grouped ∧
    value = .ofMap (withGroup fields grouped)

/-- A value that an object with filters may become. -/
def Fills (x : Expansion σ) (fields : List (String × Json)) (value : Json) : Prop :=
  ∃ conditions grouped, x.FilledBy fields conditions grouped value

variable {x : Expansion σ} {before after : World σ}

/-- An object with filters gets the fields of the grouped conditions that its filters resolve
to. -/
theorem fills_of_expandHere {fields : List (String × Json)} {filters : Json}
    {result : Expanded Json} (hfilters : lookupEntry filtersKey fields = some filters)
    (h : (x.expandHere fields filters).Yields before result after) : x.Fills fields result.1 := by
  simp only [expandHere, Task.yields_bind, Task.yields_lift, Task.yields_fetching,
    Task.yields_pure] at h
  obtain ⟨list, _, ⟨hlist, _⟩, conditions, _, ⟨remote, hconditions, _⟩, grouped, _, ⟨hgrouped, _⟩,
    _, _, _, rfl, _⟩ := h
  exact ⟨conditions, grouped, ⟨_, _, _, _, _, hfilters, hlist, hconditions⟩, hgrouped, rfl⟩

/-- An object keeps the order of its fields when its filters are replaced. -/
theorem Fills.isSorted {fields : List (String × Json)} {value : Json} (h : x.Fills fields value)
    (hs : (Json.obj fields).isSorted = true) : value.isSorted = true := by
  obtain ⟨conditions, grouped, _, hgrouped, rfl⟩ := h
  obtain ⟨_, hvalues⟩ := Json.isSorted_obj_iff.1 hs
  have hothers : ∀ e ∈ ((SortedMap.ofList fields).erase filtersKey).entries,
      e.2.isSorted = true := fun e he =>
    hvalues e (SortedMap.mem_entries_ofList (List.mem_filter.1 he).1)
  rw [withGroup, Json.isSorted_ofMap_iff]
  split
  next node hnode =>
    intro e he
    rcases SortedMap.mem_entries_insertAll he with he | he
    · exact hothers e he
    · have hobject := (onlyConditions_of_group hgrouped hnode).isSorted
      exact Json.isSorted_ofMap_iff.1 hobject e he
  next => exact hothers

/-! ## Whole values -/

/-- Items are expanded one by one. -/
theorem forall₂_of_expandItems {items : List Json} {result : Expanded (List Json)}
    (h : (x.expandItems items).Yields before result after) :
    List.Forall₂ (fun item value => ∃ count w w', (x.expand item).Yields w (value, count) w')
      items result.1 := by
  induction items generalizing before after result with
  | nil =>
    rw [expandItems, Task.yields_pure] at h
    rw [← h.1]
    exact .nil
  | cons item items ih =>
    simp only [expandItems, Task.yields_bind, Task.yields_pure] at h
    obtain ⟨⟨value, count⟩, _, hitem, ⟨values, others⟩, _, hitems, rfl, _⟩ := h
    exact .cons ⟨_, _, _, hitem⟩ (ih hitems)

/-- The values of fields are expanded one by one. -/
theorem forall₂_of_expandFields {fields : List (String × Json)}
    {result : Expanded (List (String × Json))}
    (h : (x.expandFields fields).Yields before result after) :
    result.1.map Prod.fst = fields.map Prod.fst ∧
      List.Forall₂ (fun item value => ∃ count w w', (x.expand item).Yields w (value, count) w')
        (fields.map Prod.snd) (result.1.map Prod.snd) := by
  induction fields generalizing before after result with
  | nil =>
    rw [expandFields, Task.yields_pure] at h
    rw [← h.1]
    exact ⟨rfl, .nil⟩
  | cons f fields ih =>
    obtain ⟨key, value⟩ := f
    simp only [expandFields, Task.yields_bind, Task.yields_pure] at h
    obtain ⟨⟨v, count⟩, _, hvalue, ⟨values, others⟩, _, hfields, rfl, _⟩ := h
    obtain ⟨hkeys, hvalues⟩ := ih hfields
    exact ⟨congrArg (key :: ·) hkeys, .cons ⟨_, _, _, hvalue⟩ hvalues⟩

/-- A value is expanded at its objects with filters and nowhere else. -/
theorem expands_of_expand {value : Json} {result : Expanded Json}
    (h : (x.expand value).Yields before result after) : Expands x.Fills value result.1 := by
  induction value using Json.valueInduction generalizing before after result with
  | obj fields ih =>
    rw [expand] at h
    split at h
    next filters hfilters =>
      exact .filters (by rw [hfilters]; rfl) (fills_of_expandHere hfilters h)
    next hnone =>
      simp only [Task.yields_bind, Task.yields_pure] at h
      obtain ⟨⟨values, count⟩, _, hfields, rfl, _⟩ := h
      obtain ⟨hkeys, hvalues⟩ := forall₂_of_expandFields hfields
      refine .fields hnone hkeys (forall₂_imp_of_mem hvalues fun part hpart v => ?_)
      rintro ⟨count, w, w', hexpand⟩
      obtain ⟨f, hf, rfl⟩ := List.mem_map.1 hpart
      exact ih f hf hexpand
  | arr items ih =>
    simp only [expand, Task.yields_bind, Task.yields_pure] at h
    obtain ⟨⟨values, count⟩, _, hitems, rfl, _⟩ := h
    refine .items (forall₂_imp_of_mem (forall₂_of_expandItems hitems) fun item hitem v => ?_)
    rintro ⟨count, w, w', hexpand⟩
    exact ih item hitem hexpand
  | _ =>
    obtain ⟨rfl, _⟩ := Task.yields_pure.1 h
    exact .plain rfl rfl

end Expansion

end RoutingRules.SingBox
