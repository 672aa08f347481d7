import RoutingRules.Proofs.SingBox.FieldGroup
import RoutingRules.Proofs.SingBox.Group

/-!
# What grouped conditions match

A line for each condition matches a connection when one of the conditions does.  This module
compares that with the rule into which conditions are grouped when either of its leaves is enough.

The conditions on one side, those on processes or all others, share a leaf.  The leaf matches less
than its conditions one by one as soon as they lie in several groups, since the groups are
conjoined, and never more.

Main results:

- Theorem {lit}`someHolds_of_sideHolds`: a side that holds has a field that does.
- Theorem {lit}`sideHolds_eq_someHolds`: with fields of one group the converse holds as well.
- Theorem {lit}`group_or_meaning`: both for the rule of every list of conditions that can be built.
-/

namespace RoutingRules.SingBox

/-! ## Fields one by one -/

/-- Whether one of some fields holds. -/
def someHolds (σ : Connection) (fields : List (String × Json)) : Bool :=
  fields.any fun f => σ.meets f.1 f.2

/-- A side that holds has a field that does. -/
theorem someHolds_of_sideHolds {γ : Type} [DecidableEq γ] {group : String → γ} {σ : Connection}
    {fields : List (String × Json)} (h : sideHolds group σ fields = true) :
    someHolds σ fields = true := by
  obtain ⟨hne, hhold⟩ := sideHolds_iff.1 h
  obtain ⟨f, hf⟩ := List.exists_mem_of_ne_nil _ hne
  obtain ⟨g, hg, _, hmeets⟩ := hhold f hf
  exact List.any_eq_true.2 ⟨g, hg, hmeets⟩

/-- A side with fields of one group holds when there is a field that does. -/
theorem sideHolds_eq_someHolds {γ : Type} [DecidableEq γ] {group : String → γ} (σ : Connection)
    {fields : List (String × Json)}
    (h : ∀ f ∈ fields, ∀ g ∈ fields, group g.1 = group f.1) :
    sideHolds group σ fields = someHolds σ fields := by
  rw [Bool.eq_iff_iff]
  constructor
  · exact someHolds_of_sideHolds
  · intro hsome
    obtain ⟨g, hg, hmeets⟩ := List.any_eq_true.1 hsome
    exact sideHolds_iff.2 ⟨List.ne_nil_of_mem hg, fun f hf => ⟨g, hg, h f hf g hg, hmeets⟩⟩

/-! ## Conditions one by one -/

/-- The conditions that are neither left out nor of a kind that sing-box does not know. -/
def kept (included : List Kind) (conditions : List Condition) : List Condition :=
  conditions.filter fun c => isWanted included c && c.kind.fieldGroup?.isSome

/-- Whether no side has conditions of several groups. -/
def Unmixed (conditions : List Condition) : Prop :=
  ∀ a ∈ conditions, ∀ b ∈ conditions, a.kind.isProcess = b.kind.isProcess →
    a.kind.fieldGroup? = b.kind.fieldGroup?

theorem mem_kept {included : List Kind} {conditions : List Condition} {c : Condition} :
    c ∈ kept included conditions ↔
      c ∈ conditions ∧ isWanted included c = true ∧ ∃ group, c.kind.fieldGroup? = some group := by
  rw [kept, List.mem_filter, Bool.and_eq_true, Option.isSome_iff_exists]

/-- A condition with a field on one side is kept, and its group is that of the field. -/
theorem exists_kept_of_mem_sideFields {included : List Kind} {isProcess : Bool}
    {conditions : List Condition} {field : String × Json}
    (h : field ∈ sideFields included isProcess conditions) :
    ∃ c ∈ kept included conditions, c.kind.isProcess = isProcess ∧ c.singBoxField = .ok field ∧
      c.kind.fieldGroup? = some (fieldGroup field.1) := by
  obtain ⟨c, hc, hwanted, hside, hfield⟩ := mem_sideFields.1 h
  have hgroup := Condition.fieldGroup_of_singBoxField hfield
  exact ⟨c, mem_kept.2 ⟨hc, hwanted, _, hgroup⟩, hside, hfield, hgroup⟩

/-- The fields on processes lie in the groups on processes. -/
theorem isProcess_of_mem_sideFields {included : List Kind} {isProcess : Bool}
    {conditions : List Condition} {field : String × Json}
    (h : field ∈ sideFields included isProcess conditions) :
    (fieldGroup field.1).isProcess = isProcess := by
  obtain ⟨c, _, hside, _, hgroup⟩ := exists_kept_of_mem_sideFields h
  rw [Kind.isProcess_fieldGroup hgroup, hside]

/-- One of the conditions that are kept is met when a field of one of the sides holds. -/
theorem any_kept_isMet (included : List Kind) (conditions : List Condition) (σ : Connection) :
    (kept included conditions).any (Condition.isMet σ) =
      (someHolds σ (sideFields included true conditions) ||
        someHolds σ (sideFields included false conditions)) := by
  rw [Bool.eq_iff_iff, Bool.or_eq_true]
  constructor
  · intro h
    obtain ⟨c, hc, hmet⟩ := List.any_eq_true.1 h
    obtain ⟨hmem, hwanted, _⟩ := mem_kept.1 hc
    unfold Condition.isMet at hmet
    split at hmet
    next key value hfield =>
      have hside : (key, value) ∈ sideFields included c.kind.isProcess conditions :=
        mem_sideFields.2 ⟨c, hmem, hwanted, rfl, hfield⟩
      have hholds : someHolds σ (sideFields included c.kind.isProcess conditions) = true :=
        List.any_eq_true.2 ⟨_, hside, hmet⟩
      cases hprocess : c.kind.isProcess with
      | true => exact Or.inl (hprocess ▸ hholds)
      | false => exact Or.inr (hprocess ▸ hholds)
    next => cases hmet
  · have hkept : ∀ isProcess, someHolds σ (sideFields included isProcess conditions) = true →
        (kept included conditions).any (Condition.isMet σ) = true := by
      intro isProcess h
      obtain ⟨field, hmem, hmeets⟩ := List.any_eq_true.1 h
      obtain ⟨c, hc, _, hfield, _⟩ := exists_kept_of_mem_sideFields hmem
      refine List.any_eq_true.2 ⟨c, hc, ?_⟩
      rw [Condition.isMet, hfield]
      exact hmeets
    rintro (h | h)
    · exact hkept true h
    · exact hkept false h

/-! ## Grouped conditions -/

/-- The rule of conditions of which one is enough matches what one of the sides matches. -/
theorem any_holds_of_group_or {conditions : List Condition} {included : List Kind}
    {grouped : Grouped} (h : group conditions included .or = .ok grouped) (σ : Connection) :
    grouped.node.any (Node.holds fieldGroup σ) =
      (sideHolds fieldGroup σ (sideFields included true conditions) ||
        sideHolds fieldGroup σ (sideFields included false conditions)) := by
  rw [node_of_group h, any_holds_joinLeaves, joinSides_or]

/-- The connection that meets the fields of one group and nothing else. -/
def Connection.meetingGroup (group : FieldGroup) : Connection :=
  ⟨fun key _ => fieldGroup key = group, fun _ => false, fun _ _ => false⟩

/-- When the fields of one group are enough for a side, all fields of the side lie in it. -/
theorem fieldGroup_eq_of_sideHolds {group : FieldGroup} {fields : List (String × Json)}
    (h : sideHolds fieldGroup (.meetingGroup group) fields = true) :
    ∀ f ∈ fields, fieldGroup f.1 = group := by
  intro f hf
  obtain ⟨g, _, hsame, hmeets⟩ := (sideHolds_iff.1 h).2 f hf
  exact hsame.symm.trans (of_decide_eq_true hmeets)

/-- A side without conditions of several groups holds when one of its fields does. -/
theorem sideHolds_of_unmixed {included : List Kind} {conditions : List Condition}
    (h : Unmixed (kept included conditions)) (isProcess : Bool) (σ : Connection) :
    sideHolds fieldGroup σ (sideFields included isProcess conditions) =
      someHolds σ (sideFields included isProcess conditions) := by
  refine sideHolds_eq_someHolds σ fun f hf g hg => ?_
  obtain ⟨a, ha, haside, _, hagroup⟩ := exists_kept_of_mem_sideFields hf
  obtain ⟨b, hb, hbside, _, hbgroup⟩ := exists_kept_of_mem_sideFields hg
  have hsame := h b hb a ha (hbside.trans haside.symm)
  rw [hagroup, hbgroup] at hsame
  exact Option.some.inj hsame

/-- A condition that is kept and can be built has a field on its side, in the group of its
kind. -/
theorem exists_field_of_kept {included : List Kind} {conditions : List Condition}
    (hmade : ∀ c ∈ conditions, c.IsMade) {c : Condition} (hc : c ∈ kept included conditions) :
    ∃ field ∈ sideFields included c.kind.isProcess conditions, c.singBoxField = .ok field ∧
      c.kind.fieldGroup? = some (fieldGroup field.1) := by
  obtain ⟨hmem, hwanted, group, hgroup⟩ := mem_kept.1 hc
  obtain ⟨field, hfield⟩ := (hmade c hmem).singBoxField_of_group hgroup
  exact ⟨field, mem_sideFields.2 ⟨c, hmem, hwanted, rfl, hfield⟩, hfield,
    Condition.fieldGroup_of_singBoxField hfield⟩

/-- If the rule matches the connections that meet one group, no side has conditions of several
groups. -/
theorem unmixed_of_any_holds {conditions : List Condition} (hmade : ∀ c ∈ conditions, c.IsMade)
    {included : List Kind} {grouped : Grouped}
    (hgroup : group conditions included .or = .ok grouped)
    (h : ∀ σ : Connection, grouped.node.any (Node.holds fieldGroup σ) =
      (kept included conditions).any (Condition.isMet σ)) :
    Unmixed (kept included conditions) := by
  intro a ha b hb hside
  obtain ⟨f, hf, hfield, hagroup⟩ := exists_field_of_kept hmade ha
  obtain ⟨g, hg, _, hbgroup⟩ := exists_field_of_kept hmade hb
  let σ : Connection := .meetingGroup (fieldGroup f.1)
  have hmatch : grouped.node.any (Node.holds fieldGroup σ) = true := by
    rw [h]
    refine List.any_eq_true.2 ⟨a, ha, ?_⟩
    rw [Condition.isMet, hfield]
    exact decide_eq_true rfl
  -- The side that matches has fields of the group of the first condition only, so it is its side.
  have hsame : ∀ isProcess,
      sideHolds fieldGroup σ (sideFields included isProcess conditions) = true →
        fieldGroup g.1 = fieldGroup f.1 := by
    intro isProcess hholds
    obtain ⟨e, he⟩ := List.exists_mem_of_ne_nil _ (sideHolds_iff.1 hholds).1
    have hall := fieldGroup_eq_of_sideHolds hholds
    obtain rfl : b.kind.isProcess = isProcess := by
      rw [← hside, ← isProcess_of_mem_sideFields hf, ← hall e he, isProcess_of_mem_sideFields he]
    exact hall g hg
  rw [any_holds_of_group_or hgroup, Bool.or_eq_true] at hmatch
  rw [hagroup, hbgroup]
  rcases hmatch with hprocess | hother
  · rw [hsame true hprocess]
  · rw [hsame false hother]

/-- Conditions that can be built are grouped into a rule that matches at most what one of those
that are kept matches, and exactly this for all connections when no side has conditions of
several groups. -/
theorem group_or_meaning {conditions : List Condition} (hmade : ∀ c ∈ conditions, c.IsMade)
    (included : List Kind) :
    ∃ grouped, group conditions included .or = .ok grouped ∧
      ((∀ σ : Connection, grouped.node.any (Node.holds fieldGroup σ) =
          (kept included conditions).any (Condition.isMet σ)) ↔
        Unmixed (kept included conditions)) ∧
      ∀ σ : Connection, grouped.node.any (Node.holds fieldGroup σ) = true →
        (kept included conditions).any (Condition.isMet σ) = true := by
  obtain ⟨grouped, hgroup⟩ := group_succeeds hmade included .or
  refine ⟨grouped, hgroup, ⟨unmixed_of_any_holds hmade hgroup, ?_⟩, ?_⟩
  · intro hunmixed σ
    rw [any_holds_of_group_or hgroup, any_kept_isMet, sideHolds_of_unmixed hunmixed,
      sideHolds_of_unmixed hunmixed]
  · intro σ hmatch
    rw [any_holds_of_group_or hgroup, Bool.or_eq_true] at hmatch
    rw [any_kept_isMet, Bool.or_eq_true]
    exact hmatch.imp someHolds_of_sideHolds someHolds_of_sideHolds

/-- Conditions on domains, addresses and processes. -/
def sampleConditions : List Condition :=
  [.on .domainSuffix "a.com" none, .on .ipCidr "10.0.0.0/8" (some false),
    .on .processName "curl" none]

theorem isMade_of_mem_sampleConditions : ∀ c ∈ sampleConditions, c.IsMade := by
  simp only [sampleConditions, List.forall_mem_cons]
  exact ⟨Condition.isMade_of_make rfl, Condition.isMade_of_make rfl,
    Condition.isMade_of_make rfl, nofun⟩

theorem group_or_meaning_sampleConditions :
    (∀ c ∈ sampleConditions, c.IsMade) ∧
      ∃ grouped, group sampleConditions [.processName] .or = .ok grouped ∧
        ((∀ σ : Connection, grouped.node.any (Node.holds fieldGroup σ) =
            (kept [.processName] sampleConditions).any (Condition.isMet σ)) ↔
          Unmixed (kept [.processName] sampleConditions)) ∧
        ∀ σ : Connection, grouped.node.any (Node.holds fieldGroup σ) = true →
          (kept [.processName] sampleConditions).any (Condition.isMet σ) = true :=
  ⟨isMade_of_mem_sampleConditions, group_or_meaning isMade_of_mem_sampleConditions _⟩

/-- A domain and a port. -/
def mixedConditions : List Condition :=
  [.on .domain "a.com" none, .on .dstPort "80" none]

/-- The rule does not match a connection that meets the port alone. -/
theorem group_mixedConditions_changes_meaning :
    (∀ c ∈ mixedConditions, c.IsMade) ∧
      ∃ grouped σ, group mixedConditions [] .or = .ok grouped ∧
        grouped.node.any (Node.holds fieldGroup σ) ≠
          (kept [] mixedConditions).any (Condition.isMet σ) := by
  constructor
  · simp only [mixedConditions, List.forall_mem_cons]
    exact ⟨Condition.isMade_of_make rfl, Condition.isMade_of_make rfl, nofun⟩
  · refine ⟨_, .meetingGroup .port, rfl, ?_⟩
    decide

end RoutingRules.SingBox
