import RoutingRules.Proofs.Condition.Made
import RoutingRules.Proofs.SingBox.Meaning

/-!
# Groups of condition fields

The fields of a leaf in rules of sing-box fall into groups, and a leaf holds when every group
that is present has an alternative that holds: all fields on the destination are alternatives of
each other, and so are a port and a port range, while ports, source ports, source addresses and
the two fields on processes are conjoined with them.

The group of the field that holds a condition depends on the kind of the condition only.

Main results:

- Theorem {lit}`Condition.eq_of_singBoxField`: the field of a condition is one of those of its kind
  and holds a number or a text.
- Theorem {lit}`Condition.mem_keys_of_singBoxField`: the field of a condition is one of those of
  its kind.
- Theorem {lit}`Condition.fieldGroup_of_singBoxField`: the field of a condition lies in the group
  of its kind.
- Theorem {lit}`Condition.unsupported_iff`: sing-box knows the kinds that have a group.
-/

namespace RoutingRules

namespace SingBox

/-! ## Fields -/

/-- A group of condition fields, in which each field is an alternative of the others. -/
inductive FieldGroup where
  | destination
  | port
  | sourcePort
  | sourceAddress
  | processName
  | packageName
  /-- A field that is not one of those known. -/
  | single (key : String)
deriving DecidableEq

/-- The group of a field. -/
def fieldGroup (key : String) : FieldGroup :=
  if key ∈ ["domain", "domain_suffix", "domain_keyword", "domain_regex", "ip_cidr"] then
    .destination
  else if key ∈ ["port", "port_range"] then .port
  else if key ∈ ["source_port", "source_port_range"] then .sourcePort
  else if key = "source_ip_cidr" then .sourceAddress
  else if key = "process_name" then .processName
  else if key = "package_name" then .packageName
  else .single key

/-- Whether the fields of a group look at the process behind a connection. -/
def FieldGroup.isProcess : FieldGroup → Bool
  | processName | packageName => true
  | _ => false

end SingBox

open SingBox

/-! ## Kinds -/

/-- The group of the fields that hold conditions of a kind, if sing-box knows the kind. -/
def Kind.fieldGroup? : Kind → Option FieldGroup
  | processName => some .processName
  | packageName => some .packageName
  | domain | domainSuffix | domainKeyword | domainRegex | domainWildcard | domainListItem
  | ipCidr | ipCidr6 => some .destination
  | srcIpCidr => some .sourceAddress
  | srcPort => some .sourcePort
  | dstPort => some .port
  | geoIp | userAgent | matchAll => none

/-- The fields that can hold conditions of a kind. -/
def Kind.keys : Kind → List String
  | processName => ["process_name"]
  | packageName => ["package_name"]
  | domain => ["domain"]
  | domainSuffix => ["domain_suffix"]
  | domainKeyword => ["domain_keyword"]
  | domainRegex | domainWildcard => ["domain_regex"]
  | domainListItem => ["domain", "domain_suffix", "domain_regex"]
  | ipCidr | ipCidr6 => ["ip_cidr"]
  | srcIpCidr => ["source_ip_cidr"]
  | srcPort => ["source_port", "source_port_range"]
  | dstPort => ["port", "port_range"]
  | geoIp | userAgent | matchAll => []

/-- All fields of a kind lie in the group of the kind. -/
theorem Kind.fieldGroup?_eq_of_mem_keys {kind : Kind} :
    ∀ key ∈ kind.keys, kind.fieldGroup? = some (fieldGroup key) := by
  cases kind <;> decide

/-- Fields on processes hold conditions on processes. -/
theorem Kind.isProcess_fieldGroup {kind : Kind} {group : FieldGroup}
    (h : kind.fieldGroup? = some group) : group.isProcess = kind.isProcess := by
  cases kind <;> cases h <;> rfl

/-- The field of ports holds a number, or a text for a range. -/
theorem Port.eq_of_singBoxField {single range value : String} {field : String × Json}
    (h : Port.singBoxField single range value = .ok field) :
    (∃ port : Nat, field = (single, .int port)) ∨ ∃ text, field = (range, .str text) := by
  unfold Port.singBoxField at h
  split at h
  next => exact .inr ⟨_, (Except.ok.inj h).symm⟩
  next =>
    split at h
    next => exact .inl ⟨_, (Except.ok.inj h).symm⟩
    next => cases h

/-- Ports that cannot be read are not taken for a kind that sing-box does not know. -/
theorem Port.singBoxField_ne_unsupported {single range value : String} {kind : Kind} :
    Port.singBoxField single range value ≠ .error (.unsupported kind .singBox) := by
  unfold Port.singBoxField
  split
  next => nofun
  next => split <;> nofun

namespace Condition

/-- The field of a condition is one of those of its kind and holds a number or a text. -/
theorem eq_of_singBoxField {c : Condition} {field : String × Json}
    (h : c.singBoxField = .ok field) :
    ∃ key ∈ c.kind.keys,
      (∃ port : Nat, field = (key, .int port)) ∨ ∃ text, field = (key, .str text) := by
  cases c with
  | always => cases h
  | on kind text mark =>
    cases kind with
    | domainListItem =>
      obtain rfl : domainItemField text = field := Except.ok.inj h
      unfold domainItemField
      split
      all_goals exact ⟨_, by simp [Condition.kind, Kind.keys], .inr ⟨_, rfl⟩⟩
    | srcPort | dstPort =>
      rcases Port.eq_of_singBoxField h with ⟨port, rfl⟩ | ⟨text, rfl⟩
      · exact ⟨_, by simp [Condition.kind, Kind.keys], .inl ⟨port, rfl⟩⟩
      · exact ⟨_, by simp [Condition.kind, Kind.keys], .inr ⟨text, rfl⟩⟩
    | _ =>
      cases h
      all_goals exact ⟨_, List.mem_singleton_self _, .inr ⟨_, rfl⟩⟩

theorem mem_keys_of_singBoxField {c : Condition} {field : String × Json}
    (h : c.singBoxField = .ok field) : field.1 ∈ c.kind.keys := by
  obtain ⟨key, hkey, ⟨_, rfl⟩ | ⟨_, rfl⟩⟩ := eq_of_singBoxField h
  · exact hkey
  · exact hkey

/-- The field of a condition lies in the group of its kind. -/
theorem fieldGroup_of_singBoxField {c : Condition} {field : String × Json}
    (h : c.singBoxField = .ok field) : c.kind.fieldGroup? = some (fieldGroup field.1) :=
  Kind.fieldGroup?_eq_of_mem_keys _ (mem_keys_of_singBoxField h)

/-- Sing-box knows the kinds that have a group. -/
theorem unsupported_iff {c : Condition} :
    c.singBoxField = .error (.unsupported c.kind .singBox) ↔ c.kind.fieldGroup? = none := by
  constructor
  · intro h
    cases hgroup : c.kind.fieldGroup? with
    | none => rfl
    | some group =>
      cases c with
      | always => cases hgroup
      | on kind text mark =>
        cases kind with
        | srcPort => exact absurd h Port.singBoxField_ne_unsupported
        | dstPort => exact absurd h Port.singBoxField_ne_unsupported
        | _ =>
          cases h
          all_goals cases hgroup
  · intro h
    cases c with
    | always => rfl
    | on kind text mark => cases kind <;> cases h <;> rfl

/-- A condition that can be built, of a kind with a group, has a field. -/
theorem IsMade.singBoxField_of_group {c : Condition} (hmade : c.IsMade) {group : FieldGroup}
    (h : c.kind.fieldGroup? = some group) : ∃ field, c.singBoxField = .ok field := by
  rcases hmade.singBoxField with hfield | hunsupported
  · exact hfield
  · rw [unsupported_iff.1 hunsupported] at h
    cases h

/-! ## Connections -/

/-- Whether a condition holds of a connection, through the field that holds it. -/
def isMet (σ : Connection) (c : Condition) : Bool :=
  match c.singBoxField with
  | .ok (key, value) => σ.meets key value
  | .error _ => false

end Condition

end RoutingRules
