import RoutingRules.Proofs.Condition.Made
import RoutingRules.Proofs.SingBox.FieldGroup
import RoutingRules.SingBox.Group

/-!
# Grouped conditions

Grouping pushes the fields of conditions one after another onto two leaves and joins them.  This
module says what comes out in terms of the lists of fields: which alternatives a field of a leaf
gets, when a leaf holds, and how the two leaves make up a rule.

Main results:

- Theorem {lit}`Leaf.get?_pushAll`: a field gets the values pushed for it, in order.
- Theorem {lit}`Leaf.holds_pushAll`: a leaf of pushed fields holds when every group of the fields
  has one that holds.
- Theorem {lit}`node_of_group`: the rule of grouped conditions is that of two lists of fields.
- Theorem {lit}`group_succeeds`: conditions that can be built can be grouped.
-/

namespace RoutingRules.SingBox

/-! ## Pushed fields -/

/-- The values of one field in a list of fields, in order. -/
def valuesOf (key : String) (fields : List (String × Json)) : List Json :=
  (fields.filter fun f => f.1 = key).map Prod.snd

theorem mem_valuesOf {key : String} {value : Json} {fields : List (String × Json)} :
    value ∈ valuesOf key fields ↔ (key, value) ∈ fields := by
  simp only [valuesOf, List.mem_map, List.mem_filter, decide_eq_true_eq]
  constructor
  · rintro ⟨⟨k, v⟩, ⟨hmem, rfl⟩, rfl⟩
    exact hmem
  · intro hmem
    exact ⟨(key, value), ⟨hmem, rfl⟩, rfl⟩

/-- Keeping some keys keeps all of their values. -/
theorem valuesOf_filter (keep : String → Bool) (key : String) (fields : List (String × Json)) :
    valuesOf key (fields.filter fun f => keep f.1) =
      if keep key = true then valuesOf key fields else [] := by
  rw [valuesOf, List.filter_filter]
  by_cases hkeep : keep key = true
  · rw [if_pos hkeep, valuesOf]
    congr 1
    refine List.filter_congr fun f _ => ?_
    by_cases hkey : f.1 = key <;> simp [hkey, hkeep]
  · rw [if_neg hkeep, List.map_eq_nil_iff, List.filter_eq_nil_iff]
    intro f _ hboth
    obtain ⟨hkey, hkept⟩ := Bool.and_eq_true_iff.1 hboth
    exact hkeep (of_decide_eq_true hkey ▸ hkept)

namespace Leaf

theorem pushAll_cons (leaf : Leaf) (f : String × Json) (fields : List (String × Json)) :
    leaf.pushAll (f :: fields) = (leaf.push f.1 f.2).pushAll fields :=
  rfl

@[simp] theorem references_pushAll (leaf : Leaf) (fields : List (String × Json)) :
    (leaf.pushAll fields).references = leaf.references := by
  induction fields generalizing leaf with
  | nil => rfl
  | cons f fields ih => rw [pushAll_cons, ih, push]

@[simp] theorem extra_pushAll (leaf : Leaf) (fields : List (String × Json)) :
    (leaf.pushAll fields).extra = leaf.extra := by
  induction fields generalizing leaf with
  | nil => rfl
  | cons f fields ih => rw [pushAll_cons, ih, push]

/-- Pushing values puts them behind those that a field has. -/
theorem get?_pushAll (leaf : Leaf) (fields : List (String × Json)) (key : String) :
    (leaf.pushAll fields).conditions.get? key =
      if valuesOf key fields = [] then leaf.conditions.get? key
      else some ((leaf.conditions.get? key).getD [] ++ valuesOf key fields) := by
  induction fields generalizing leaf with
  | nil => rfl
  | cons f fields ih =>
    rw [pushAll_cons, ih, push, SortedMap.get?_insert]
    by_cases hkey : f.1 = key
    · have hvalues : valuesOf key (f :: fields) = f.2 :: valuesOf key fields := by
        simp [valuesOf, hkey]
      rw [hvalues, if_pos hkey.symm, if_neg (List.cons_ne_nil _ _), hkey]
      split
      next hnone => rw [hnone]
      next => simp
    · have hvalues : valuesOf key (f :: fields) = valuesOf key fields := by
        simp [valuesOf, hkey]
      rw [hvalues, if_neg (Ne.symm hkey)]

/-- A leaf of pushed fields is determined by the values pushed for each of them. -/
theorem eq_pushAll {conditions : SortedMap (List Json)} {fields : List (String × Json)}
    (h : ∀ key, conditions.get? key =
      if valuesOf key fields = [] then none else some (valuesOf key fields)) :
    ofConditions conditions = empty.pushAll fields := by
  have hconditions : conditions = (empty.pushAll fields).conditions := by
    refine SortedMap.ext_get? fun key => ?_
    rw [h, get?_pushAll]
    rfl
  rw [hconditions, ofConditions, ← references_pushAll empty fields, ← extra_pushAll empty fields]

/-- The entries of a leaf of pushed fields are the fields with the values pushed for them. -/
theorem mem_entries_pushAll {fields : List (String × Json)} {key : String} {values : List Json} :
    (key, values) ∈ (empty.pushAll fields).conditions.entries ↔
      values ≠ [] ∧ values = valuesOf key fields := by
  rw [SortedMap.mem_entries_iff, get?_pushAll]
  split
  next hnone =>
    rw [hnone]
    simp [empty]
  next hsome =>
    rw [Option.some_inj, eq_comm]
    exact ⟨fun heq => ⟨heq ▸ hsome, heq⟩, And.right⟩

/-- A leaf of pushed fields is empty when no field was pushed. -/
theorem isEmpty_pushAll (fields : List (String × Json)) :
    (empty.pushAll fields).isEmpty = fields.isEmpty := by
  rw [isEmpty, references_pushAll, Bool.eq_iff_iff, Bool.and_eq_true, SortedMap.isEmpty_iff]
  cases fields with
  | nil => decide
  | cons f fields =>
    have hmem : f.2 ∈ valuesOf f.1 (f :: fields) := mem_valuesOf.2 List.mem_cons_self
    have hentry : (f.1, valuesOf f.1 (f :: fields)) ∈
        (empty.pushAll (f :: fields)).conditions.entries :=
      mem_entries_pushAll.2 ⟨List.ne_nil_of_mem hmem, rfl⟩
    constructor
    · rintro ⟨hempty, _⟩
      rw [hempty] at hentry
      cases hentry
    · intro h
      cases h

end Leaf

/-! ## The meaning of pushed fields -/

/-- Whether every group of some fields has one that holds. -/
def fieldsHold {γ : Type} [DecidableEq γ] (group : String → γ) (σ : Connection)
    (fields : List (String × Json)) : Bool :=
  fields.all fun f => fields.any fun g => group g.1 = group f.1 && σ.meets g.1 g.2

/-- A leaf of pushed fields holds when every group of the fields has one that holds. -/
theorem Leaf.holds_pushAll {γ : Type} [DecidableEq γ] (group : String → γ) (σ : Connection)
    (fields : List (String × Json)) :
    (empty.pushAll fields).holds group σ = fieldsHold group σ fields := by
  have hreferences : (empty.pushAll fields).referencesHold σ = true := by
    rw [referencesHold, references_pushAll]
    rfl
  rw [holds, extra_pushAll, hreferences, Bool.and_true]
  show σ.judge .empty _ = _
  rw [Connection.judge_empty, Bool.eq_iff_iff]
  simp only [conditionsHold, fieldsHold, List.all_eq_true, List.any_eq_true, Bool.and_eq_true,
    decide_eq_true_eq]
  constructor
  · rintro h ⟨key, value⟩ hf
    have hmem : value ∈ valuesOf key fields := mem_valuesOf.2 hf
    obtain ⟨⟨other, values⟩, hentry, hgroup, v, hv, hmeets⟩ :=
      h (key, valuesOf key fields) (mem_entries_pushAll.2 ⟨List.ne_nil_of_mem hmem, rfl⟩)
    obtain ⟨_, rfl⟩ := mem_entries_pushAll.1 hentry
    exact ⟨(other, v), mem_valuesOf.1 hv, hgroup, hmeets⟩
  · rintro h ⟨key, values⟩ hentry
    obtain ⟨hne, rfl⟩ := mem_entries_pushAll.1 hentry
    obtain ⟨value, hvalue⟩ := List.exists_mem_of_ne_nil _ hne
    obtain ⟨⟨other, v⟩, hg, hgroup, hmeets⟩ := h (key, value) (mem_valuesOf.1 hvalue)
    have hmem : v ∈ valuesOf other fields := mem_valuesOf.2 hg
    exact ⟨(other, valuesOf other fields),
      mem_entries_pushAll.2 ⟨List.ne_nil_of_mem hmem, rfl⟩, hgroup, v, hmem, hmeets⟩

/-! ## The fields of conditions -/

/-- The fields of the conditions on processes that are wanted, or of all others. -/
def sideFields (included : List Kind) (isProcess : Bool) (conditions : List Condition) :
    List (String × Json) :=
  ((conditions.filter (isWanted included)).filter fun c => c.kind.isProcess = isProcess).filterMap
    fun c => c.singBoxField.toOption

theorem mem_sideFields {included : List Kind} {isProcess : Bool} {conditions : List Condition}
    {field : String × Json} :
    field ∈ sideFields included isProcess conditions ↔
      ∃ c ∈ conditions, isWanted included c = true ∧ c.kind.isProcess = isProcess ∧
        c.singBoxField = .ok field := by
  have hoption : ∀ c : Condition,
      c.singBoxField.toOption = some field ↔ c.singBoxField = .ok field := by
    intro c
    cases c.singBoxField <;> simp [Except.toOption]
  simp only [sideFields, List.mem_filterMap, List.mem_filter, decide_eq_true_eq, hoption, and_assoc]

/-- The field of a condition is the one that it is written with, if there is one. -/
theorem eq_of_fieldOf {c : Condition} {field : Option Field} (h : fieldOf c = .ok field) :
    field = c.singBoxField.toOption.map fun f => ⟨c.kind.isProcess, f.1, f.2⟩ := by
  unfold fieldOf at h
  split at h
  next key value hok =>
    rw [hok]
    exact (Except.ok.inj h).symm
  next e herror =>
    split at h
    · rw [herror]
      exact (Except.ok.inj h).symm
    · cases h

/-- The fields found one by one, on one side, are those of the conditions on this side. -/
theorem fields_of_found (isProcess : Bool) {conditions : List Condition}
    {found : List (Option Field)}
    (h : List.Forall₂ (fun c field => fieldOf c = .ok field) conditions found) :
    ((found.filterMap id).filter fun f => f.isProcess = isProcess).map (fun f => (f.key, f.value)) =
      (conditions.filter fun c => c.kind.isProcess = isProcess).filterMap
        fun c => c.singBoxField.toOption := by
  induction h with
  | nil => rfl
  | @cons c field conditions found hfield _ ih =>
    rw [eq_of_fieldOf hfield]
    cases hoption : c.singBoxField.toOption with
    | none => by_cases hside : c.kind.isProcess = isProcess <;> simpa [hside, hoption] using ih
    | some f => by_cases hside : c.kind.isProcess = isProcess <;> simpa [hside, hoption] using ih

/-! ## Groups -/

/-- The rule of grouped conditions is that of two lists of fields. -/
theorem node_of_group {conditions : List Condition} {included : List Kind} {mode : Mode}
    {grouped : Grouped} (h : group conditions included mode = .ok grouped) :
    grouped.node = joinLeaves mode (Leaf.empty.pushAll (sideFields included true conditions))
      (Leaf.empty.pushAll (sideFields included false conditions)) := by
  obtain ⟨found, hfound, hgrouped⟩ := Except.bind_eq_ok_iff.1 h
  obtain rfl := Except.ok.inj hgrouped
  have hfields := fun isProcess => fields_of_found isProcess (Except.mapM_eq_ok_iff.1 hfound)
  simp only [leafOf, hfields, sideFields]

/-- Conditions that can be built can be grouped. -/
theorem group_succeeds {conditions : List Condition} (h : ∀ c ∈ conditions, c.IsMade)
    (included : List Kind) (mode : Mode) :
    ∃ grouped, group conditions included mode = .ok grouped := by
  have hfield : ∀ c ∈ conditions, ∃ field, fieldOf c = .ok field := by
    intro c hc
    rcases (h c hc).singBoxField with ⟨field, hok⟩ | herror
    · exact ⟨_, by rw [fieldOf, hok]⟩
    · exact ⟨none, by rw [fieldOf, herror]; rfl⟩
  have hfound : ∃ found, (conditions.filter (isWanted included)).mapM fieldOf = .ok found :=
    Except.mapM_succeeds fun c hc => hfield c (List.mem_filter.1 hc).1
  obtain ⟨found, hfound⟩ := hfound
  exact ⟨_, Except.bind_eq_ok_iff.2 ⟨found, hfound, rfl⟩⟩

/-- Whether there is a leaf of some fields and it holds. -/
def sideHolds {γ : Type} [DecidableEq γ] (group : String → γ) (σ : Connection)
    (fields : List (String × Json)) : Bool :=
  !fields.isEmpty && fieldsHold group σ fields

theorem sideHolds_iff {γ : Type} [DecidableEq γ] {group : String → γ} {σ : Connection}
    {fields : List (String × Json)} :
    sideHolds group σ fields = true ↔ fields ≠ [] ∧
      ∀ f ∈ fields, ∃ g ∈ fields, group g.1 = group f.1 ∧ σ.meets g.1 g.2 = true := by
  simp [sideHolds, fieldsHold]

/-- The fields of a leaf that is there hold when the leaf does. -/
theorem sideHolds_of_ne_nil {γ : Type} [DecidableEq γ] (group : String → γ) (σ : Connection)
    {fields : List (String × Json)} (h : fields ≠ []) :
    sideHolds group σ fields = fieldsHold group σ fields := by
  rw [sideHolds, List.isEmpty_eq_false_iff.2 h]
  rfl

/-- The truth of a rule with two sides, of which one may be absent, from that of the sides. -/
def joinSides (mode : Mode) (process other : List (String × Json)) (p o : Bool) : Bool :=
  match process, other with
  | [], _ => o
  | _ :: _, [] => p
  | _ :: _, _ :: _ => mode.join [p, o]

/-- A rule of two leaves joins its sides. -/
theorem any_holds_joinLeaves {γ : Type} [DecidableEq γ] (group : String → γ) (σ : Connection)
    (mode : Mode) (process other : List (String × Json)) :
    (joinLeaves mode (Leaf.empty.pushAll process) (Leaf.empty.pushAll other)).any
        (Node.holds group σ) =
      joinSides mode process other (sideHolds group σ process) (sideHolds group σ other) := by
  rw [joinLeaves, Leaf.isEmpty_pushAll, Leaf.isEmpty_pushAll]
  rcases process with _ | ⟨f, process⟩ <;> rcases other with _ | ⟨g, other⟩
  · rfl
  · exact Leaf.holds_pushAll group σ (g :: other)
  · exact Leaf.holds_pushAll group σ (f :: process)
  · have hprocess := sideHolds_of_ne_nil group σ (List.cons_ne_nil f process)
    have hother := sideHolds_of_ne_nil group σ (List.cons_ne_nil g other)
    show (Node.logical mode _ .empty).holds group σ = _
    rw [Node.holds_logical, Connection.judge_empty, joinSides, hprocess, hother,
      ← Leaf.holds_pushAll, ← Leaf.holds_pushAll]
    rfl

/-- When one side is enough, an absent side does not matter. -/
theorem joinSides_or {γ : Type} [DecidableEq γ] (group : String → γ) (σ : Connection)
    (process other : List (String × Json)) :
    joinSides .or process other (sideHolds group σ process) (sideHolds group σ other) =
      (sideHolds group σ process || sideHolds group σ other) := by
  rcases process with _ | ⟨f, process⟩ <;> rcases other with _ | ⟨g, other⟩
  · rfl
  · rfl
  · exact (Bool.or_false _).symm
  · simp [joinSides, Mode.join]

end RoutingRules.SingBox
