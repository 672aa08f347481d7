import RoutingRules.Proofs.Condition.Literal
import RoutingRules.Proofs.Kind.Registry
import RoutingRules.Proofs.SingBox.Node.Json

/-!
# Fields that are taken for conditions

Whether a field of a rule holds conditions is looked up in the registry of words, which knows the
words of all clients and compares them without regard to letter case, blanks around them and
separators.  Every field that is written for a condition is found in it.  So are words that no
condition is written under: those of the other clients, and the fields of sing-box in any other
form.  A field under such a key is foreign.

Main results:

- Theorem {lit}`Registry.contains_standard_iff`: the registry knows the words that are compared as
  equal to a word of some client, and no others.
- Theorem {lit}`isRendered_iff`: the fields that are written for conditions are those of the kinds.
- Theorem {lit}`isForeign_spelling`: the words of the other clients are foreign.
- Theorem {lit}`isConditionField_iff`: the fields that are taken for conditions are those written
  for conditions and the foreign ones.
- Theorem {lit}`Node.isReadFrom_of_ofJson`: how the fields of a rule are told apart by the reader.
- Theorem {lit}`fields_told_apart`: what is taken for conditions, of all keys and of all rules.
-/

namespace RoutingRules

/-! ## Words in the registry -/

/-- Whether a word is compared as equal to the word of some client for some kind. -/
def Kind.IsSpelled (token : String) : Prop :=
  ∃ kind ∈ all, ∃ word ∈ kind.spellings, spellingKey word = spellingKey token

instance (token : String) : Decidable (Kind.IsSpelled token) :=
  inferInstanceAs (Decidable (∃ kind ∈ Kind.all, ∃ word ∈ kind.spellings,
    Kind.spellingKey word = Kind.spellingKey token))

/-- The registry knows the words that are compared as equal to a word of some client, and no
others. -/
theorem Registry.contains_standard_iff {token : String} :
    standard.contains token = true ↔ Kind.IsSpelled token := by
  rw [contains, standard_eq, find?_ofHistory, List.find?_isSome]
  simp only [Kind.hasKey_iff, Kind.IsSpelled]

namespace SingBox

open SortedMap (lookupEntry)

/-! ## Fields that are written -/

/-- Whether some condition that can be built is written under a key. -/
def IsRendered (key : String) : Prop :=
  ∃ c : Condition, c.IsMade ∧ ∃ value, c.singBoxField = .ok (key, value)

/-- One condition for each field. -/
def fieldSamples : List Condition :=
  [.on .processName "curl" none, .on .packageName "app" none, .on .domain "a.com" none,
    .on .domainSuffix "a.com" none, .on .domainKeyword "a" none, .on .domainRegex "a" none,
    .on .ipCidr "10.0.0.0/8" none, .on .srcIpCidr "10.0.0.0/8" none, .on .srcPort "53" none,
    .on .srcPort "53-54" none, .on .dstPort "80" none, .on .dstPort "80-81" none]

theorem isMade_of_mem_fieldSamples : ∀ c ∈ fieldSamples, c.IsMade := by
  have hall : ∀ c ∈ fieldSamples,
      (Condition.make c.kind (c.value?.getD "") c.mark?).toOption = some c := by
    decide +kernel
  exact fun c hc => .make (Except.toOption_eq_some_iff.1 (hall c hc))

/-- Each field of a kind has its sample. -/
theorem exists_fieldSample {kind : Kind} : ∀ key ∈ kind.keys,
    ∃ c ∈ fieldSamples, (c.singBoxField.toOption.map Prod.fst) = some key := by
  have hall : ∀ kind ∈ Kind.all, ∀ key ∈ kind.keys,
      ∃ c ∈ fieldSamples, (c.singBoxField.toOption.map Prod.fst) = some key := by
    decide +kernel
  exact hall kind (Kind.mem_all kind)

/-- The fields that are written for conditions are those of the kinds. -/
theorem isRendered_iff {key : String} : IsRendered key ↔ ∃ kind ∈ Kind.all, key ∈ kind.keys := by
  constructor
  · rintro ⟨c, -, value, hfield⟩
    exact ⟨c.kind, Kind.mem_all _, Condition.mem_keys_of_singBoxField hfield⟩
  · rintro ⟨kind, -, hkey⟩
    obtain ⟨c, hc, hsample⟩ := exists_fieldSample key hkey
    obtain ⟨⟨_, value⟩, hfield, rfl⟩ := Option.map_eq_some_iff.1 hsample
    exact ⟨c, isMade_of_mem_fieldSamples c hc, value, Except.toOption_eq_some_iff.1 hfield⟩

instance (key : String) : Decidable (IsRendered key) :=
  decidable_of_iff' _ isRendered_iff

/-! ## Fields that are taken for conditions -/

/-- A key under which no condition is written, though it is compared as equal to the word of some
client. -/
structure IsForeign (key : String) : Prop where
  isSpelled : Kind.IsSpelled key
  notRendered : ¬IsRendered key

instance (key : String) : Decidable (IsForeign key) :=
  decidable_of_iff (Kind.IsSpelled key ∧ ¬IsRendered key)
    ⟨fun h => ⟨h.1, h.2⟩, fun h => ⟨h.isSpelled, h.notRendered⟩⟩

/-- The words of the other clients are foreign. -/
theorem isForeign_spelling {kind : Kind} {client : LineClient} {word : String}
    (h : kind.spelling client.client = some word) : IsForeign word := by
  have hother : ¬IsRendered word :=
    Kind.of_spelling (p := fun _ word => ¬IsRendered word) (by decide +kernel) h
  have hclient : client.client ∈ Client.all := by cases client <;> decide
  have hword : word ∈ kind.spellings := List.mem_filterMap.2 ⟨client.client, hclient, h⟩
  exact ⟨⟨kind, Kind.mem_all kind, word, hword, rfl⟩, hother⟩

/-- Whether a condition is written under a key or the key is foreign. -/
def IsTaken (key : String) : Prop :=
  IsRendered key ∨ IsForeign key

instance (key : String) : Decidable (IsTaken key) :=
  inferInstanceAs (Decidable (IsRendered key ∨ IsForeign key))

/-- The fields that are taken for conditions are those written for conditions and the foreign
ones. -/
theorem isConditionField_iff {key : String} : Kind.isConditionField key = true ↔ IsTaken key := by
  constructor
  · intro h
    by_cases hrendered : IsRendered key
    · exact .inl hrendered
    · refine .inr ⟨?_, hrendered⟩
      -- The two keys outside of the registry are those of port ranges, which are written.
      have hranges : ∀ range ∈ ["port_range", "source_port_range"], IsRendered range := by decide
      simp only [Kind.isConditionField, Bool.or_eq_true, decide_eq_true_eq] at h
      rcases h with (rfl | rfl) | hcontains
      · exact absurd (hranges _ (by simp)) hrendered
      · exact absurd (hranges _ (by simp)) hrendered
      · exact Registry.contains_standard_iff.1 hcontains
  · rintro (hrendered | hforeign)
    · obtain ⟨kind, -, hkey⟩ := isRendered_iff.1 hrendered
      have hholds := holdsConditions_of_mem_keys key hkey
      rw [holdsConditions, Bool.and_eq_true] at hholds
      exact hholds.2
    · rw [Kind.isConditionField, Registry.contains_standard_iff.2 hforeign.isSpelled, Bool.or_true]

/-- The references are not taken for conditions. -/
theorem not_isTaken_referencesKey : ¬IsTaken referencesKey := by
  decide +kernel

/-- Fields that are taken for conditions are read as such, even with the references set apart. -/
theorem holdsConditions_iff {key : String} : holdsConditions key = true ↔ IsTaken key := by
  rw [holdsConditions, Bool.and_eq_true, isConditionField_iff]
  refine and_iff_right_of_imp fun htaken => decide_eq_true ?_
  rintro rfl
  exact not_isTaken_referencesKey htaken

/-- What a leaf keeps as it is, is neither the references nor taken for conditions. -/
theorem isExtraKey_iff {key : String} :
    isExtraKey key = true ↔ key ≠ referencesKey ∧ ¬IsTaken key := by
  rw [isExtraKey, Bool.and_eq_true, Bool.not_eq_true', ← isConditionField_iff, decide_eq_true_eq,
    Bool.not_eq_true]

/-! ## Rules that are read -/

/-- The fields of an object in a leaf: those taken for conditions with their alternatives, all of
which count, and the others as they are, except for the references. -/
structure Leaf.IsReadFrom (l : Leaf) (fields : List (String × Json)) : Prop where
  conditions : l.conditions.entries =
    (fields.filter fun f => IsTaken f.1).map fun f => (f.1, alternatives f.2)
  extra : l.extra.entries = fields.filter fun f => f.1 ≠ referencesKey ∧ ¬IsTaken f.1
  cardinality : l.cardinality =
    Number.total ((fields.filter fun f => IsTaken f.1).map fun f => (alternatives f.2).length)

/-- The objects of a value in a rule: those of a logical rule in its children, with its other
fields as they are, and any other object in a leaf. -/
inductive Node.IsReadFrom : Node → Json → Prop
  | leaf {l : Leaf} {fields : List (String × Json)} (hplain : isLogical fields = false)
      (h : l.IsReadFrom fields) : IsReadFrom (.leaf l) (.obj fields)
  | logical {mode : Mode} {children : List Node} {extra : SortedMap Json}
      {fields : List (String × Json)} {items : List Json} (hlogical : isLogical fields = true)
      (hrules : lookupEntry "rules" fields = some (.arr items))
      (hchildren : List.Forall₂ (fun item child => IsReadFrom child item) items children)
      (hextra : extra.entries = fields.filter fun f => f.1 ∉ logicalKeys) :
      IsReadFrom (.logical mode children extra) (.obj fields)

/-- A leaf tells the fields of an object in order apart. -/
theorem Leaf.isReadFrom_of_ofFields {fields : List (String × Json)} (hs : KeysIncrease fields)
    {l : Leaf} (h : Leaf.ofFields fields = .ok l) : l.IsReadFrom fields := by
  have hconditions : l.conditions.entries =
      (fields.filter fun f => IsTaken f.1).map fun f => (f.1, alternatives f.2) := by
    have hkept : KeysIncrease (fields.filter fun f => holdsConditions f.1) :=
      List.Pairwise.filter _ hs
    rw [(fields_of_ofFields h).1, conditionFields,
      SortedMap.entries_ofList (SortedMap.keysIncrease_map hkept alternatives)]
    refine congrArg (List.map _) (List.filter_congr fun f _ => ?_)
    rw [Bool.eq_iff_iff, holdsConditions_iff, decide_eq_true_eq]
  refine ⟨hconditions, ?_, ?_⟩
  · have hkept : KeysIncrease (fields.filter fun f => isExtraKey f.1) := List.Pairwise.filter _ hs
    have hentries := SortedMap.entries_ofList hkept
    rw [(fields_of_ofFields h).2]
    refine hentries.trans (List.filter_congr fun f _ => ?_)
    rw [Bool.eq_iff_iff, isExtraKey_iff, decide_eq_true_eq]
  · rw [cardinality, SortedMap.values, hconditions, List.map_map, List.map_map]
    rfl

/-- A logical rule keeps its other fields as they are. -/
theorem entries_logicalExtra {fields : List (String × Json)} (hs : KeysIncrease fields) :
    (logicalExtra fields).entries = fields.filter fun f => f.1 ∉ logicalKeys := by
  have hkept : KeysIncrease (fields.filter fun f => !logicalKeys.contains f.1) :=
    List.Pairwise.filter _ hs
  refine (SortedMap.entries_ofList hkept).trans (List.filter_congr fun f _ => ?_)
  rw [List.contains_eq_mem, decide_not]

/-- The reader tells the fields of all objects in a rule apart. -/
theorem Node.isReadFrom_of_ofJson {value : Json} (hs : value.isSorted = true) {node : Node}
    (h : ofJson value = .ok node) : node.IsReadFrom value := by
  refine readInduction (motive := fun value node => value.isSorted = true → node.IsReadFrom value)
    (fun hplain hl hs => ?_) (fun hlogical hrules hchildren hs => ?_) h hs
  · exact .leaf hplain (Leaf.isReadFrom_of_ofFields (Json.isSorted_obj_iff.1 hs).1 hl)
  · obtain ⟨hfields, hvalues⟩ := Json.isSorted_obj_iff.1 hs
    have hitems := Json.isSorted_arr_iff.1 (hvalues _ (SortedMap.mem_of_lookupEntry hrules))
    have hread := (List.forall₂_and_left _ _).2 ⟨hitems, hchildren⟩
    exact .logical hlogical hrules (hread.imp fun item child hitem => hitem.2 hitem.1)
      (entries_logicalExtra hfields)

/-! ## Keys and rules -/

/-- A key is taken for that of conditions exactly if conditions are written under it, unless the key
is foreign; foreign keys are taken for those of conditions all the same.  The reader gives a rule
the fields of these two sorts as conditions, and they alone count; it keeps all others as they are,
except for the references. -/
theorem fields_told_apart (key : String) :
    ((Kind.isConditionField key = true ↔ IsRendered key) ↔ ¬IsForeign key) ∧
      ∀ (value : Json) (node : Node), value.isSorted = true → Node.ofJson value = .ok node →
        node.IsReadFrom value := by
  refine ⟨?_, fun value node hs h => Node.isReadFrom_of_ofJson hs h⟩
  rw [isConditionField_iff]
  constructor
  · intro h hforeign
    exact hforeign.notRendered (h.1 (.inr hforeign))
  · intro hforeign
    exact or_iff_left hforeign

/-- A logical rule over a leaf with a field that is written for conditions, a foreign one and one
that turns it around. -/
def mixedRule : Json :=
  .obj [("mode", .str "or"),
    ("rules", .arr [.obj [("domain", .str "a.com"), ("host", .arr [.str "b.com"]),
      ("invert", .bool true)]]),
    ("type", .str "logical")]

/-- Conditions are written under the first key of the leaf, and its last field stays as it is. -/
theorem fields_told_apart_mixedRule :
    ¬IsForeign "domain" ∧ (Kind.isConditionField "domain" = true ↔ IsRendered "domain") ∧
      mixedRule.isSorted = true ∧
      ∃ l, Node.ofJson mixedRule = .ok (.logical .or [.leaf l] .empty) ∧
        l.extra.entries = [("invert", .bool true)] ∧
        Node.IsReadFrom (.logical .or [.leaf l] .empty) mixedRule := by
  have hforeign : ¬IsForeign "domain" := fun h => h.notRendered (by decide)
  have hs : mixedRule.isSorted = true := by decide +kernel
  let l : Leaf := ⟨.ofList [("domain", [.str "a.com"]), ("host", [.str "b.com"])], [],
    .ofList [("invert", .bool true)]⟩
  have h : Node.ofJson mixedRule = .ok (.logical .or [.leaf l] .empty) :=
    Except.toOption_eq_some_iff.1 (by decide +kernel)
  obtain ⟨hkey, hread⟩ := fields_told_apart "domain"
  exact ⟨hforeign, hkey.2 hforeign, hs, l, h, rfl, hread _ _ hs h⟩

/-- No condition is written under the word of Quantumult X for a domain, yet it is taken for a
condition, which counts, and the field is not kept as it is. -/
theorem isConditionField_host_and_not_isRendered :
    Kind.isConditionField "host" = true ∧ ¬IsRendered "host" ∧
      ∃ l, Node.ofJson (.obj [("host", .arr [.str "a.com"])]) = .ok (.leaf l) ∧
        l.cardinality = 1 ∧ l.extra.get? "host" = none := by
  have hword : Kind.domain.spelling LineClient.quantumult.client = some "host" := rfl
  have hforeign : IsForeign "host" := isForeign_spelling hword
  let l : Leaf := ⟨.ofList [("host", [.str "a.com"])], [], .empty⟩
  have h : Node.ofJson (.obj [("host", .arr [.str "a.com"])]) = .ok (.leaf l) :=
    Except.toOption_eq_some_iff.1 (by decide +kernel)
  exact ⟨isConditionField_iff.2 (.inr hforeign), hforeign.notRendered, l, h, rfl, rfl⟩

end SingBox

end RoutingRules
