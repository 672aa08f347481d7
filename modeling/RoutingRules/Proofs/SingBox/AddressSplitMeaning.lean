import RoutingRules.Proofs.SingBox.GroupMeaning
import RoutingRules.SingBox.AddressSplit

/-!
# What the parts of a split rule match

Splitting off the destination addresses divides the fields of a leaf: the addresses make up a part
of their own, without any of the other fields.  This module compares what the two parts match with
what the whole rule matches.

Addresses and domains are alternatives of each other, so nothing changes as long as a leaf holds
no more than these.  Ports, source ports and source addresses are conjoined with them, and the
part on the addresses has lost them.

Main results:

- Theorem {lit}`Leaf.splitAddress_pushAll`: the parts of a leaf are leaves of the divided fields.
- Theorem {lit}`sideHolds_or_of_sideHolds`: the parts together match whatever the whole matches.
- Theorem {lit}`sideHolds_divided`: they match nothing more when all fields lie in the group of
  destinations, or none is an address.
- Theorem {lit}`sideHolds_meetingAddress`: otherwise there is a connection that only the part on
  addresses matches.
- Theorem {lit}`splitAddress_meaning`: both for the rule of every list of conditions that can be
  built.
-/

namespace RoutingRules.SingBox

/-! ## Divided fields -/

/-- The fields on destination addresses. -/
def addressFields (fields : List (String × Json)) : List (String × Json) :=
  fields.filter fun f => f.1 = addressKey

/-- All other fields. -/
def directFields (fields : List (String × Json)) : List (String × Json) :=
  fields.filter fun f => f.1 ≠ addressKey

@[simp] theorem mem_addressFields {f : String × Json} {fields : List (String × Json)} :
    f ∈ addressFields fields ↔ f ∈ fields ∧ f.1 = addressKey := by
  simp [addressFields]

@[simp] theorem mem_directFields {f : String × Json} {fields : List (String × Json)} :
    f ∈ directFields fields ↔ f ∈ fields ∧ f.1 ≠ addressKey := by
  simp [directFields]

theorem directFields_of_no_address {fields : List (String × Json)}
    (h : addressFields fields = []) : directFields fields = fields := by
  refine List.filter_eq_self.2 fun f hf => decide_eq_true fun hkey => ?_
  exact List.not_mem_nil (h ▸ mem_addressFields.2 ⟨hf, hkey⟩)

namespace Leaf

/-- The parts of a leaf with addresses. -/
theorem splitAddress_of_some {leaf rest part : Leaf} {addresses : List Json}
    (h : leaf.conditions.get? addressKey = some addresses)
    (hrest : ⟨leaf.conditions.erase addressKey, leaf.references, leaf.extra⟩ = rest)
    (hpart : ⟨SortedMap.empty.insert addressKey addresses, [], leaf.extra⟩ = part) :
    leaf.splitAddress = (if rest.isEmpty then none else some rest, some part) := by
  subst hrest hpart
  rw [splitAddress, h]
  rfl

/-- Dropping the field of addresses from a leaf leaves the other fields. -/
theorem erase_address_pushAll (fields : List (String × Json)) :
    ofConditions ((empty.pushAll fields).conditions.erase addressKey) =
      empty.pushAll (directFields fields) := by
  refine eq_pushAll fun key => ?_
  rw [SortedMap.get?_erase, get?_pushAll, directFields, valuesOf_filter (fun k => k ≠ addressKey)]
  by_cases hkey : key = addressKey <;> simp [hkey, empty]

/-- A leaf with the field of addresses alone is one of the fields on addresses. -/
theorem only_address_pushAll {fields : List (String × Json)}
    (h : valuesOf addressKey fields ≠ []) :
    ofConditions (SortedMap.empty.insert addressKey (valuesOf addressKey fields)) =
      empty.pushAll (addressFields fields) := by
  refine eq_pushAll fun key => ?_
  rw [SortedMap.get?_insert, addressFields, valuesOf_filter (fun k => k = addressKey)]
  by_cases hkey : key = addressKey <;> simp [hkey, h]

/-- The parts of a leaf are leaves of the divided fields. -/
theorem splitAddress_pushAll (fields : List (String × Json)) :
    (empty.pushAll fields).splitAddress =
      if addressFields fields = [] then (some (empty.pushAll fields), none)
      else (if directFields fields = [] then none else some (empty.pushAll (directFields fields)),
        some (empty.pushAll (addressFields fields))) := by
  have hnone : valuesOf addressKey fields = [] ↔ addressFields fields = [] := List.map_eq_nil_iff
  have hget := get?_pushAll empty fields addressKey
  by_cases haddress : addressFields fields = []
  · rw [if_pos (hnone.2 haddress)] at hget
    rw [if_pos haddress, splitAddress, hget]
    rfl
  · have hvalues : valuesOf addressKey fields ≠ [] := mt hnone.1 haddress
    rw [if_neg hvalues] at hget
    have hrest : ⟨(empty.pushAll fields).conditions.erase addressKey,
        (empty.pushAll fields).references, (empty.pushAll fields).extra⟩ =
        empty.pushAll (directFields fields) := by
      rw [← erase_address_pushAll, references_pushAll, extra_pushAll]
      rfl
    have hpart : ⟨SortedMap.empty.insert addressKey (valuesOf addressKey fields), [],
        (empty.pushAll fields).extra⟩ = empty.pushAll (addressFields fields) := by
      rw [← only_address_pushAll hvalues, extra_pushAll]
      rfl
    rw [if_neg haddress, splitAddress_of_some hget hrest hpart]
    simp only [isEmpty_pushAll, List.isEmpty_iff]

end Leaf

/-! ## The meaning of divided fields -/

section Division

variable {σ : Connection} {fields : List (String × Json)}

/-- Fields on addresses lie in the group of destinations. -/
theorem fieldGroup_addressKey : fieldGroup addressKey = .destination := by
  decide

/-- The parts together match whatever the whole matches. -/
theorem sideHolds_or_of_sideHolds (h : sideHolds fieldGroup σ fields = true) :
    (sideHolds fieldGroup σ (directFields fields) ||
      sideHolds fieldGroup σ (addressFields fields)) = true := by
  obtain ⟨hne, hhold⟩ := sideHolds_iff.1 h
  rw [Bool.or_eq_true]
  by_cases haddress : addressFields fields = []
  · rw [directFields_of_no_address haddress]
    exact Or.inl h
  · obtain ⟨f, hf⟩ := List.exists_mem_of_ne_nil _ haddress
    obtain ⟨hmem, hkey⟩ := mem_addressFields.1 hf
    obtain ⟨g, hg, hgroup, hmeets⟩ := hhold f hmem
    rw [hkey, fieldGroup_addressKey] at hgroup
    -- The alternative of the address that holds decides which part does.
    by_cases hgkey : g.1 = addressKey
    · refine Or.inr (sideHolds_iff.2 ⟨haddress, fun e he => ?_⟩)
      refine ⟨g, mem_addressFields.2 ⟨hg, hgkey⟩, ?_, hmeets⟩
      rw [hgkey, (mem_addressFields.1 he).2]
    · have hgmem : g ∈ directFields fields := mem_directFields.2 ⟨hg, hgkey⟩
      refine Or.inl (sideHolds_iff.2 ⟨List.ne_nil_of_mem hgmem, fun e he => ?_⟩)
      obtain ⟨e', he', hegroup, hemeets⟩ := hhold e (mem_directFields.1 he).1
      by_cases hekey : e'.1 = addressKey
      · refine ⟨g, hgmem, ?_, hmeets⟩
        rw [hgroup, ← hegroup, hekey, fieldGroup_addressKey]
      · exact ⟨e', mem_directFields.2 ⟨he', hekey⟩, hegroup, hemeets⟩

/-- Whether division takes nothing away: there is no address, or nothing else than destinations. -/
def DividesWhole (fields : List (String × Json)) : Prop :=
  addressFields fields = [] ∨ ∀ f ∈ fields, fieldGroup f.1 = .destination

/-- Without other groups, or without addresses, the parts match nothing more than the whole. -/
theorem sideHolds_divided (h : DividesWhole fields) :
    (sideHolds fieldGroup σ (directFields fields) ||
      sideHolds fieldGroup σ (addressFields fields)) = sideHolds fieldGroup σ fields := by
  rcases h with haddress | hdestination
  · have hfalse : sideHolds fieldGroup σ [] = false := rfl
    rw [haddress, directFields_of_no_address haddress, hfalse, Bool.or_false]
  · rw [Bool.eq_iff_iff]
    refine ⟨fun hparts => ?_, sideHolds_or_of_sideHolds⟩
    have hone : ∀ f ∈ fields, ∀ g ∈ fields, fieldGroup g.1 = fieldGroup f.1 :=
      fun f hf g hg => (hdestination g hg).trans (hdestination f hf).symm
    rw [sideHolds_eq_someHolds σ hone]
    have hsome : ∀ part, part ⊆ fields → sideHolds fieldGroup σ part = true →
        someHolds σ fields = true := by
      intro part hsub hpart
      obtain ⟨f, hf, hmeets⟩ := List.any_eq_true.1 (someHolds_of_sideHolds hpart)
      exact List.any_eq_true.2 ⟨f, hsub hf, hmeets⟩
    rw [Bool.or_eq_true] at hparts
    rcases hparts with hdirect | haddress
    · exact hsome _ (List.filter_subset_self _) hdirect
    · exact hsome _ (List.filter_subset_self _) haddress

/-- The connection that meets all addresses, the fields on processes if they are needed, and
nothing else. -/
def Connection.meetingAddress (mode : Mode) : Connection :=
  ⟨fun key _ => key = addressKey || (mode = .and && (fieldGroup key).isProcess), fun _ => false,
    fun _ _ => false⟩

/-- If something is taken away, there is a connection that only the part on addresses matches. -/
theorem sideHolds_meetingAddress (mode : Mode) (h : ¬ DividesWhole fields)
    (hother : ∀ f ∈ fields, (fieldGroup f.1).isProcess = false) :
    sideHolds fieldGroup (.meetingAddress mode) (addressFields fields) = true ∧
      sideHolds fieldGroup (.meetingAddress mode) fields = false := by
  obtain ⟨haddress, hgroups⟩ := not_or.1 h
  constructor
  · refine sideHolds_iff.2 ⟨haddress, fun f hf => ⟨f, hf, rfl, ?_⟩⟩
    simp [Connection.meetingAddress, (mem_addressFields.1 hf).2]
  · rw [← Bool.not_eq_true]
    intro hhold
    refine hgroups fun f hf => ?_
    obtain ⟨g, hg, hgroup, hmeets⟩ := (sideHolds_iff.1 hhold).2 f hf
    have hkey : g.1 = addressKey := by
      simpa [Connection.meetingAddress, hother g hg] using hmeets
    rw [← hgroup, hkey, fieldGroup_addressKey]

end Division

/-! ## The meaning of divided rules -/

/-- Whether one of the parts of a rule holds. -/
def AddressSplit.holds {γ : Type} [DecidableEq γ] (group : String → γ) (σ : Connection)
    (split : AddressSplit) : Bool :=
  split.direct.any (Node.holds group σ) || split.byAddress.any (Node.holds group σ)

section Rules

variable {γ : Type} [DecidableEq γ] (group : String → γ) (σ : Connection)

/-- The part of a leaf without addresses matches what the other fields do. -/
theorem Leaf.any_holds_direct {fields : List (String × Json)} (h : fields ≠ []) :
    (empty.pushAll fields).splitAddress.1.any (Leaf.holds group σ) =
      sideHolds group σ (directFields fields) := by
  rw [splitAddress_pushAll]
  split
  next haddress =>
    rw [directFields_of_no_address haddress, sideHolds_of_ne_nil group σ h]
    exact Leaf.holds_pushAll group σ fields
  next =>
    by_cases hdirect : directFields fields = []
    · simp [hdirect, sideHolds]
    · rw [if_neg hdirect, sideHolds_of_ne_nil group σ hdirect]
      exact Leaf.holds_pushAll group σ _

/-- The part of a leaf on addresses matches what the fields on addresses do. -/
theorem Leaf.any_holds_byAddress (fields : List (String × Json)) :
    (empty.pushAll fields).splitAddress.2.any (Leaf.holds group σ) =
      sideHolds group σ (addressFields fields) := by
  rw [splitAddress_pushAll]
  split
  next haddress => simp [haddress, sideHolds]
  next haddress =>
    rw [sideHolds_of_ne_nil group σ haddress]
    exact Leaf.holds_pushAll group σ _

/-- The parts of a rule that is a leaf match what the divided fields do. -/
theorem Node.holds_splitAddress_leaf {fields : List (String × Json)} (h : fields ≠ []) :
    (leaf (Leaf.empty.pushAll fields)).splitAddress.holds group σ =
      (sideHolds group σ (directFields fields) || sideHolds group σ (addressFields fields)) := by
  rw [← Leaf.any_holds_direct group σ h, ← Leaf.any_holds_byAddress]
  simp only [splitAddress, AddressSplit.holds, Option.any_map]
  rfl

/-- The parts of a pair join the leaf on processes with the parts of the other leaf. -/
theorem holds_splitPair (mode : Mode) (process other : Leaf) :
    (splitPair mode process other .empty).holds group σ =
      mode.join [process.holds group σ, other.splitAddress.1.any (Leaf.holds group σ) ||
        other.splitAddress.2.any (Leaf.holds group σ)] := by
  unfold splitPair
  rcases other.splitAddress with ⟨direct, byAddress⟩
  cases mode with
  | and =>
    cases direct <;> cases byAddress <;>
      simp [AddressSplit.holds, Node.holds_logical, Mode.join, Bool.and_or_distrib_left]
  | or =>
    cases direct <;> cases byAddress <;>
      simp [AddressSplit.holds, Node.holds_logical, Mode.join, Bool.or_assoc, Bool.or_left_comm]

/-- Fields in the groups on processes are fields on processes. -/
theorem mem_processKeys_of_isProcess {key : String} (h : (fieldGroup key).isProcess = true) :
    key ∈ processKeys := by
  by_contra hnot
  simp only [processKeys, List.mem_cons, List.not_mem_nil, or_false, not_or] at hnot
  rw [fieldGroup, if_neg hnot.1, if_neg hnot.2] at h
  split_ifs at h <;> cases h

/-- A leaf of fields on processes looks at nothing else. -/
theorem Leaf.isProcess_pushAll {fields : List (String × Json)}
    (h : ∀ f ∈ fields, (fieldGroup f.1).isProcess = true) :
    (empty.pushAll fields).isProcess = true := by
  refine List.all_eq_true.2 fun key hkey => ?_
  obtain ⟨⟨_, values⟩, hentry, rfl⟩ := List.mem_map.1 hkey
  obtain ⟨hne, rfl⟩ := mem_entries_pushAll.1 hentry
  obtain ⟨value, hvalue⟩ := List.exists_mem_of_ne_nil _ hne
  exact List.contains_iff_mem.2 (mem_processKeys_of_isProcess (h _ (mem_valuesOf.1 hvalue)))

end Rules

/-- Fields on processes are not addresses. -/
theorem addressFields_of_isProcess {fields : List (String × Json)}
    (h : ∀ f ∈ fields, (fieldGroup f.1).isProcess = true) : addressFields fields = [] := by
  rw [List.eq_nil_iff_forall_not_mem]
  intro f hf
  obtain ⟨hmem, hkey⟩ := mem_addressFields.1 hf
  have hprocess := h f hmem
  rw [hkey] at hprocess
  cases hprocess

/-- The parts of a rule with two sides join the side on processes with the parts of the other. -/
theorem holds_splitAddress (σ : Connection) {mode : Mode} {process other : List (String × Json)}
    (hprocess : ∀ f ∈ process, (fieldGroup f.1).isProcess = true) {node : Node}
    (h : joinLeaves mode (Leaf.empty.pushAll process) (Leaf.empty.pushAll other) = some node) :
    node.splitAddress.holds fieldGroup σ =
      joinSides mode process other (sideHolds fieldGroup σ process)
        (sideHolds fieldGroup σ (directFields other) ||
          sideHolds fieldGroup σ (addressFields other)) := by
  rw [joinLeaves, Leaf.isEmpty_pushAll, Leaf.isEmpty_pushAll] at h
  rcases process with _ | ⟨f, process⟩ <;> rcases other with _ | ⟨g, other⟩
  · cases h
  · obtain rfl := Option.some.inj h
    exact Node.holds_splitAddress_leaf fieldGroup σ (by simp)
  · obtain rfl := Option.some.inj h
    rw [Node.holds_splitAddress_leaf fieldGroup σ (by simp),
      sideHolds_divided (Or.inl (addressFields_of_isProcess hprocess))]
    rfl
  · obtain rfl := Option.some.inj h
    have hpair := holds_splitPair fieldGroup σ mode (Leaf.empty.pushAll (f :: process))
      (Leaf.empty.pushAll (g :: other))
    rw [Leaf.any_holds_direct fieldGroup σ (by simp), Leaf.any_holds_byAddress, Leaf.holds_pushAll,
      ← sideHolds_of_ne_nil fieldGroup σ (by simp)] at hpair
    rw [Node.splitAddress, if_pos (Leaf.isProcess_pushAll hprocess), hpair]
    rfl

/-- A part that matches more than its side makes the parts match more than the rule. -/
theorem joinSides_meetingAddress_ne (mode : Mode) {process other : List (String × Json)}
    (hprocess : ∀ f ∈ process, (fieldGroup f.1).isProcess = true) (hother : other ≠ []) :
    joinSides mode process other (sideHolds fieldGroup (.meetingAddress mode) process) true ≠
      joinSides mode process other (sideHolds fieldGroup (.meetingAddress mode) process) false := by
  rcases process with _ | ⟨f, process⟩
  · nofun
  · obtain ⟨g, other, rfl⟩ := List.exists_cons_of_ne_nil hother
    cases mode with
    | and =>
      have hholds : sideHolds fieldGroup (.meetingAddress .and) (f :: process) = true := by
        refine sideHolds_iff.2 ⟨List.cons_ne_nil _ _, fun e he => ⟨e, he, rfl, ?_⟩⟩
        simp [Connection.meetingAddress, hprocess e he]
      rw [hholds]
      nofun
    | or =>
      have hfails : sideHolds fieldGroup (.meetingAddress .or) (f :: process) = false := by
        rw [← Bool.not_eq_true]
        intro hhold
        obtain ⟨e, he, hmeets⟩ := List.any_eq_true.1 (someHolds_of_sideHolds hhold)
        have hkey : e.1 = addressKey := by simpa [Connection.meetingAddress] using hmeets
        exact List.not_mem_nil
          (addressFields_of_isProcess hprocess ▸ mem_addressFields.2 ⟨he, hkey⟩)
      rw [hfails]
      nofun

/-- A rule joined from more matches more. -/
theorem joinSides_mono {mode : Mode} {process other : List (String × Json)} {p o o' : Bool}
    (h : o = true → o' = true) (hjoin : joinSides mode process other p o = true) :
    joinSides mode process other p o' = true := by
  rcases process with _ | ⟨f, process⟩
  · exact h hjoin
  · rcases other with _ | ⟨g, other⟩
    · exact hjoin
    · cases mode with
      | and =>
        have hboth : p = true ∧ o = true := by simpa [joinSides, Mode.join] using hjoin
        simp [joinSides, Mode.join, hboth.1, h hboth.2]
      | or =>
        have hone : p = true ∨ o = true := by simpa [joinSides, Mode.join] using hjoin
        simpa [joinSides, Mode.join] using hone.imp_right h

/-! ## Grouped conditions -/

/-- The kinds of conditions on destination addresses. -/
def addressKinds : List Kind :=
  [.ipCidr, .ipCidr6]

/-- The kinds whose conditions are conjoined with those on destinations. -/
def conjoinedKinds : List Kind :=
  [.srcIpCidr, .srcPort, .dstPort]

/-- The fields of addresses hold the conditions on addresses. -/
theorem key_eq_addressKey_iff {kind : Kind} :
    ∀ key ∈ kind.keys, key = addressKey ↔ kind ∈ addressKinds := by
  cases kind <;> decide

/-- The groups other than that of destinations hold the conditions conjoined with them, if they
are not on processes. -/
theorem fieldGroup_ne_destination_iff {kind : Kind} :
    ∀ key ∈ kind.keys, kind.isProcess = false →
      (fieldGroup key ≠ .destination ↔ kind ∈ conjoinedKinds) := by
  cases kind <;> decide

/-- Whether no conditions on addresses stand beside those that are conjoined with them. -/
def KeepsAddressesAlone (conditions : List Condition) : Prop :=
  (∃ a ∈ conditions, a.kind ∈ addressKinds) → ∀ b ∈ conditions, b.kind ∉ conjoinedKinds

/-- A condition of one of these kinds that can be built has a field, on the side of those that are
not on processes. -/
theorem exists_mem_sideFields {conditions : List Condition} (hmade : ∀ c ∈ conditions, c.IsMade)
    (included : List Kind) {c : Condition} (hc : c ∈ conditions)
    (hkind : c.kind ∈ addressKinds ++ conjoinedKinds) :
    c.kind.isProcess = false ∧
      ∃ field ∈ sideFields included false conditions, field.1 ∈ c.kind.keys := by
  have hkinds : ∀ kind ∈ addressKinds ++ conjoinedKinds,
      kind.isProcess = false ∧ kind.fieldGroup?.isSome = true := by
    decide
  obtain ⟨hother, hsome⟩ := hkinds _ hkind
  have hwanted : isWanted included c = true := by
    rw [isWanted, hother]
    rfl
  have hkept : c ∈ kept included conditions :=
    mem_kept.2 ⟨hc, hwanted, Option.isSome_iff_exists.1 hsome⟩
  obtain ⟨field, hmem, hfield, _⟩ := exists_field_of_kept hmade hkept
  exact ⟨hother, field, hother ▸ hmem, Condition.mem_keys_of_singBoxField hfield⟩

/-- Nothing is taken away from conditions exactly when those on addresses stand alone. -/
theorem dividesWhole_iff {conditions : List Condition} (hmade : ∀ c ∈ conditions, c.IsMade)
    (included : List Kind) :
    DividesWhole (sideFields included false conditions) ↔ KeepsAddressesAlone conditions := by
  constructor
  · rintro hwhole ⟨a, ha, hakind⟩ b hb hbkind
    obtain ⟨_, f, hf, hfkeys⟩ :=
      exists_mem_sideFields hmade included ha (List.mem_append_left _ hakind)
    obtain ⟨hother, g, hg, hgkeys⟩ :=
      exists_mem_sideFields hmade included hb (List.mem_append_right _ hbkind)
    rcases hwhole with hnone | hdestination
    · have hkey := (key_eq_addressKey_iff _ hfkeys).2 hakind
      exact List.not_mem_nil (hnone ▸ mem_addressFields.2 ⟨hf, hkey⟩)
    · exact (fieldGroup_ne_destination_iff _ hgkeys hother).2 hbkind (hdestination g hg)
  · intro halone
    by_cases haddress : ∃ a ∈ conditions, a.kind ∈ addressKinds
    · refine Or.inr fun f hf => ?_
      obtain ⟨c, hc, _, hother, hfield⟩ := mem_sideFields.1 hf
      have hkeys := Condition.mem_keys_of_singBoxField hfield
      by_contra hne
      exact halone haddress c hc ((fieldGroup_ne_destination_iff _ hkeys hother).1 hne)
    · refine Or.inl (List.eq_nil_iff_forall_not_mem.2 fun f hf => ?_)
      obtain ⟨hmem, hkey⟩ := mem_addressFields.1 hf
      obtain ⟨c, hc, _, _, hfield⟩ := mem_sideFields.1 hmem
      have hkeys := Condition.mem_keys_of_singBoxField hfield
      exact haddress ⟨c, hc, (key_eq_addressKey_iff _ hkeys).1 hkey⟩

/-- The parts of grouped conditions match at least what the rule does, and exactly this for all
connections when no ports or source addresses stand beside destination addresses. -/
theorem splitAddress_meaning {conditions : List Condition} (hmade : ∀ c ∈ conditions, c.IsMade)
    (included : List Kind) (mode : Mode) :
    ∃ grouped, group conditions included mode = .ok grouped ∧
      ∀ node, grouped.node = some node →
        ((∀ σ : Connection, node.splitAddress.holds fieldGroup σ = node.holds fieldGroup σ) ↔
          KeepsAddressesAlone conditions) ∧
        ∀ σ : Connection, node.holds fieldGroup σ = true →
          node.splitAddress.holds fieldGroup σ = true := by
  obtain ⟨grouped, hgroup⟩ := group_succeeds hmade included mode
  refine ⟨grouped, hgroup, fun node hnode => ?_⟩
  have hprocess : ∀ f ∈ sideFields included true conditions,
      (fieldGroup f.1).isProcess = true := fun f => isProcess_of_mem_sideFields
  have hjoin := (node_of_group hgroup).symm.trans hnode
  have hparts := fun σ => holds_splitAddress σ hprocess hjoin
  have hholds : ∀ σ, node.holds fieldGroup σ = joinSides mode
      (sideFields included true conditions) (sideFields included false conditions)
      (sideHolds fieldGroup σ (sideFields included true conditions))
      (sideHolds fieldGroup σ (sideFields included false conditions)) := by
    intro σ
    rw [← any_holds_joinLeaves, hjoin, Option.any_some]
  refine ⟨?_, fun σ h => ?_⟩
  · rw [← dividesWhole_iff hmade included]
    constructor
    · intro h
      by_contra hwhole
      obtain ⟨haddress, hside⟩ := sideHolds_meetingAddress mode hwhole
        fun f => isProcess_of_mem_sideFields
      have hne : sideFields included false conditions ≠ [] := by
        rintro hnil
        rw [hnil] at hwhole
        exact hwhole (Or.inl rfl)
      refine joinSides_meetingAddress_ne mode hprocess hne ?_
      have hsame := h (.meetingAddress mode)
      rwa [hparts, hholds, haddress, hside, Bool.or_true] at hsame
    · intro hwhole σ
      rw [hparts, hholds, sideHolds_divided hwhole]
  · rw [hholds] at h
    rw [hparts]
    exact joinSides_mono sideHolds_or_of_sideHolds h

theorem splitAddress_meaning_sampleConditions :
    (∀ c ∈ sampleConditions, c.IsMade) ∧
      ∃ grouped node, group sampleConditions [.processName] .and = .ok grouped ∧
        grouped.node = some node ∧
        ((∀ σ : Connection, node.splitAddress.holds fieldGroup σ = node.holds fieldGroup σ) ↔
          KeepsAddressesAlone sampleConditions) ∧
        ∀ σ : Connection, node.holds fieldGroup σ = true →
          node.splitAddress.holds fieldGroup σ = true := by
  obtain ⟨grouped, hgroup, hmeaning⟩ :=
    splitAddress_meaning isMade_of_mem_sampleConditions [.processName] .and
  obtain rfl := Except.ok.inj (hgroup.symm.trans rfl)
  exact ⟨isMade_of_mem_sampleConditions, _, _, hgroup, rfl, hmeaning _ rfl⟩

/-- A domain, a network and a port. -/
def portedConditions : List Condition :=
  [.on .domain "a.com" none, .on .ipCidr "10.0.0.0/8" (some false), .on .dstPort "80" none]

/-- The parts match a connection to the network, whatever its port. -/
theorem splitAddress_portedConditions_changes_meaning :
    (∀ c ∈ portedConditions, c.IsMade) ∧
      ∃ grouped node σ, group portedConditions [] .or = .ok grouped ∧
        grouped.node = some node ∧
        node.splitAddress.holds fieldGroup σ ≠ node.holds fieldGroup σ := by
  constructor
  · simp only [portedConditions, List.forall_mem_cons]
    exact ⟨Condition.isMade_of_make rfl, Condition.isMade_of_make rfl,
      Condition.isMade_of_make rfl, nofun⟩
  · refine ⟨_, _, .meetingAddress .or, rfl, rfl, ?_⟩
    decide

end RoutingRules.SingBox
