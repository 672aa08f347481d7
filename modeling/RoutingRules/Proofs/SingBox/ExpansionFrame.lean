import RoutingRules.Proofs.SingBox.ExpansionMeaning

/-!
# What expansion leaves alone

Expansion replaces the filters of an object by the fields of the grouped conditions.  This module
says what happens to everything else: parts of a value in which nothing has filters stay as they
are, and an object with filters keeps each of its other fields unless the grouped conditions have
a field of the same key, which then stands in its place.

A part of a value is named by the steps that lead to it.  The parts that are looked at are those
outside of every object with filters, because nothing is expanded inside of such an object.

Main results:

- Theorem {lit}`Expands.exists_part`: a part outside of the objects with filters is expanded where
  it stands.
- Theorem {lit}`Expands.eq_of_lacksKey`: a value without filters stays as it is.
- Theorem {lit}`keepsValues_iff`: an object keeps all listed values when the fields that it shares
  with the grouped conditions list none of their own.
-/

namespace RoutingRules

open SortedMap (lookupEntry)

namespace Json

/-! ## Parts of values -/

/-- A step into a value. -/
inductive Step where
  | field (key : String)
  | item (index : Nat)
deriving DecidableEq, Repr

/-- The part of a value that a step leads to. -/
def child? (step : Step) (value : Json) : Option Json :=
  match step with
  | .field key => value.field? key
  | .item index => value.toItems?.bind fun items => items[index]?

/-- The part of a value that some steps lead to. -/
def part? : List Step → Json → Option Json
  | [], value => some value
  | step :: steps, value => (value.child? step).bind (part? steps)

/-- The part of a value that some steps lead to, if no object that they go through has a field of
the key. -/
def outerPart? (key : String) : List Step → Json → Option Json
  | [], value => some value
  | step :: steps, value =>
    if (value.field? key).isSome then none else (value.child? step).bind (outerPart? key steps)

mutual

/-- Whether no object in a value has a field of the key. -/
def lacksKey (key : String) : Json → Bool
  | .arr items => itemsLackKey key items
  | .obj fields => (lookupEntry key fields).isNone && fieldsLackKey key fields
  | _ => true

/-- Whether no object in several values has a field of the key. -/
def itemsLackKey (key : String) : List Json → Bool
  | [] => true
  | item :: items => lacksKey key item && itemsLackKey key items

/-- Whether no object in the values of fields has a field of the key. -/
def fieldsLackKey (key : String) : List (String × Json) → Bool
  | [] => true
  | (_, value) :: fields => lacksKey key value && fieldsLackKey key fields

end

theorem itemsLackKey_iff {key : String} {items : List Json} :
    itemsLackKey key items = true ↔ ∀ item ∈ items, item.lacksKey key = true := by
  induction items with
  | nil => simp [itemsLackKey]
  | cons item items ih => simp [itemsLackKey, ih]

theorem fieldsLackKey_iff {key : String} {fields : List (String × Json)} :
    fieldsLackKey key fields = true ↔ ∀ f ∈ fields, f.2.lacksKey key = true := by
  induction fields with
  | nil => simp [fieldsLackKey]
  | cons f fields ih =>
    obtain ⟨name, value⟩ := f
    rw [fieldsLackKey, Bool.and_eq_true, ih, List.forall_mem_cons]

end Json

/-! ## Related entries -/

/-- Entry lists with the same keys and related values have related values at each key. -/
theorem SortedMap.exists_lookupEntry {α : Type} {r : α → α → Prop}
    {entries others : List (String × α)} (hkeys : others.map Prod.fst = entries.map Prod.fst)
    (hvalues : List.Forall₂ r (entries.map Prod.snd) (others.map Prod.snd)) {key : String}
    {value : α} (h : lookupEntry key entries = some value) :
    ∃ other, lookupEntry key others = some other ∧ r value other := by
  induction entries generalizing others with
  | nil => cases h
  | cons e entries ih =>
    cases others with
    | nil => cases hkeys
    | cons f others =>
      obtain ⟨k, v⟩ := e
      obtain ⟨l, w⟩ := f
      simp only [List.map_cons, List.cons.injEq] at hkeys
      obtain ⟨rfl, hkeys⟩ := hkeys
      simp only [List.map_cons, List.forall₂_cons] at hvalues
      by_cases hkey : key = l
      · simp only [lookupEntry, if_pos hkey, Option.some.injEq] at h ⊢
        exact ⟨w, rfl, h ▸ hvalues.1⟩
      · simp only [lookupEntry, if_neg hkey] at h ⊢
        exact ih hkeys hvalues.2 h

namespace SingBox

/-! ## Parts of expanded values -/

namespace Expands

variable {fills : List (String × Json) → Json → Prop} {before after : Json}

/-- A step outside of the objects with filters leads to the expansion of the part that it led
to. -/
theorem exists_child (h : Expands fills before after)
    (houter : (before.field? filtersKey).isSome = false) {step : Json.Step} {part : Json}
    (hpart : before.child? step = some part) :
    ∃ new, after.child? step = some new ∧ Expands fills part new := by
  cases h with
  | filters hfilters _ =>
    have hfound : ((Json.obj _).field? filtersKey).isSome = true := hfilters
    rw [houter] at hfound
    cases hfound
  | fields _ hkeys hvalues =>
    cases step with
    | field key => exact SortedMap.exists_lookupEntry hkeys hvalues hpart
    | item index => cases hpart
  | @items items values hvalues =>
    cases step with
    | field key => cases hpart
    | item index =>
      have hget : items[index]? = some part := hpart
      obtain ⟨hindex, rfl⟩ := List.getElem?_eq_some_iff.1 hget
      have hlength := hvalues.length_eq
      have hnew : values[index]? = some values[index] :=
        List.getElem?_eq_some_iff.2 ⟨by omega, rfl⟩
      exact ⟨_, hnew, hvalues.get hindex (by omega)⟩
  | plain hitems hfields =>
    cases step with
    | field key => cases before <;> first | cases hpart | cases hfields
    | item index =>
      rw [Json.child?, hitems] at hpart
      cases hpart

/-- A part outside of the objects with filters is expanded where it stands. -/
theorem exists_part (h : Expands fills before after) {steps : List Json.Step} {part : Json}
    (hpart : before.outerPart? filtersKey steps = some part) :
    ∃ new, after.part? steps = some new ∧ Expands fills part new := by
  induction steps generalizing before after with
  | nil =>
    obtain rfl := Option.some.inj hpart
    exact ⟨after, rfl, h⟩
  | cons step steps ih =>
    rw [Json.outerPart?] at hpart
    split at hpart
    next => cases hpart
    next houter =>
      obtain ⟨inner, hinner, hpart⟩ := Option.bind_eq_some_iff.1 hpart
      obtain ⟨new, hnew, hexpands⟩ := h.exists_child (Bool.eq_false_iff.2 houter) hinner
      obtain ⟨last, hlast, hexpands⟩ := ih hexpands hpart
      exact ⟨last, by rw [Json.part?, hnew, Option.bind_some, hlast], hexpands⟩

/-- A value without filters stays as it is. -/
theorem eq_of_lacksKey (h : Expands fills before after)
    (hlacks : before.lacksKey filtersKey = true) : after = before := by
  induction before using Json.valueInduction generalizing after with
  | obj fields ih =>
    rw [Json.lacksKey, Bool.and_eq_true] at hlacks
    obtain ⟨hnone, hfields⟩ := hlacks
    cases h with
    | filters hsome _ =>
      rw [Option.isNone_iff_eq_none] at hnone
      rw [hnone] at hsome
      cases hsome
    | @fields _ values _ hkeys hvalues =>
      have hsame : List.Forall₂ (· = ·) (fields.map Prod.snd) (values.map Prod.snd) := by
        refine forall₂_imp_of_mem hvalues fun part hpart new hexpands => ?_
        obtain ⟨f, hf, rfl⟩ := List.mem_map.1 hpart
        exact (ih f hf hexpands (Json.fieldsLackKey_iff.1 hfields f hf)).symm
      have hsnd : fields.map Prod.snd = values.map Prod.snd := List.forall₂_eq_eq_eq ▸ hsame
      have hvalues : values = fields := by
        rw [← List.zip_unzip values, ← List.zip_unzip fields, List.unzip_eq_map,
          List.unzip_eq_map, hkeys, hsnd]
      rw [hvalues]
    | plain => rfl
  | arr items ih =>
    rw [Json.lacksKey, Json.itemsLackKey_iff] at hlacks
    cases h with
    | @items _ values hvalues =>
      have hsame : List.Forall₂ (· = ·) items values :=
        forall₂_imp_of_mem hvalues fun item hitem new hexpands =>
          (ih item hitem hexpands (hlacks item hitem)).symm
      have hitems : items = values := List.forall₂_eq_eq_eq ▸ hsame
      rw [hitems]
    | plain => rfl
  | _ =>
    cases h
    rfl

end Expands

/-! ## Objects with filters -/

/-- The field that grouped conditions write. -/
def writtenField (grouped : Grouped) (key : String) : Option Json :=
  grouped.node.bind fun node => node.toMap.get? key

/-- The field of an object other than its filters. -/
def otherField (fields : List (String × Json)) (key : String) : Option Json :=
  if key = filtersKey then none else (SortedMap.ofList fields).get? key

/-- A value has every field of an object other than its filters, with every value that the field
listed. -/
def KeepsValues (fields : List (String × Json)) (value : Json) : Prop :=
  ∀ key old, otherField fields key = some old →
    ∃ new, value.field? key = some new ∧ ∀ v ∈ alternatives old, v ∈ alternatives new

/-- An object with filters has the fields that the grouped conditions write, and its own other
fields where they write none. -/
theorem field?_withGroup (fields : List (String × Json)) (grouped : Grouped) (key : String) :
    (Json.ofMap (Expansion.withGroup fields grouped)).field? key =
      (writtenField grouped key).or (otherField fields key) := by
  have herase : ((SortedMap.ofList fields).erase filtersKey).get? key = otherField fields key :=
    SortedMap.get?_erase _ _ _
  show (Expansion.withGroup fields grouped).get? key = _
  cases hnode : grouped.node with
  | none => simp [Expansion.withGroup, writtenField, hnode, herase]
  | some node => rw [get?_withGroup fields hnode, herase, writtenField, hnode, Option.bind_some]

/-- An object keeps all listed values when the fields that it shares with the grouped conditions
list none of their own. -/
theorem keepsValues_iff (fields : List (String × Json)) (grouped : Grouped) :
    KeepsValues fields (.ofMap (Expansion.withGroup fields grouped)) ↔
      ∀ key old written, otherField fields key = some old →
        writtenField grouped key = some written →
          ∀ v ∈ alternatives old, v ∈ alternatives written := by
  constructor
  · intro hkeeps key old written hold hwritten v hv
    obtain ⟨new, hnew, hvalues⟩ := hkeeps key old hold
    rw [field?_withGroup, hwritten, Option.some_or, Option.some.injEq] at hnew
    rw [hnew]
    exact hvalues v hv
  · intro hshared key old hold
    rw [field?_withGroup, hold]
    cases hwritten : writtenField grouped key with
    | none => exact ⟨old, rfl, fun v hv => hv⟩
    | some written => exact ⟨written, rfl, hshared key old written hold hwritten⟩

/-- Grouped conditions write fields with conditions, or the three fields of a logical rule. -/
theorem holdsConditions_of_writtenField {conditions : List Condition} {included : List Kind}
    {mode : Mode} {grouped : Grouped} (h : group conditions included mode = .ok grouped)
    {key : String} (hwritten : (writtenField grouped key).isSome = true) :
    holdsConditions key = true ∨ key ∈ ["type", "mode", "rules"] := by
  obtain ⟨value, hvalue⟩ := Option.isSome_iff_exists.1 hwritten
  obtain ⟨node, hnode, hvalue⟩ := Option.bind_eq_some_iff.1 hvalue
  cases onlyConditions_of_group h hnode with
  | @leaf l hl =>
    have hmap : l.toMap.get? key = some value := hvalue
    rw [Leaf.get?_toMap, if_neg fun hboth => hboth.2 hl.references, hl.extra,
      SortedMap.get?_empty, Option.or_none] at hmap
    obtain ⟨values, hvalues, _⟩ := Option.map_eq_some_iff.1 hmap
    exact .inl (hl.keys _ (SortedMap.mem_entries_iff.2 hvalues))
  | logical _ =>
    rw [Node.get?_toMap_logical, SortedMap.get?_empty] at hvalue
    right
    by_contra hother
    simp only [List.mem_cons, List.not_mem_nil, or_false, not_or] at hother
    simp [hother] at hvalue

/-- What an object with filters becomes: the fields that the grouped conditions write, which are
fields with conditions or those of a logical rule, and its other fields where these write none.  So
it keeps all listed values exactly when the fields that both have list none of their own. -/
def Expansion.Frames {σ : Type} (x : Expansion σ) (fields : List (String × Json)) (value : Json) :
    Prop :=
  ∃ conditions grouped, x.FilledBy fields conditions grouped value ∧
    (∀ key, value.field? key = (writtenField grouped key).or (otherField fields key)) ∧
    (∀ key, (writtenField grouped key).isSome = true →
      holdsConditions key = true ∨ key ∈ ["type", "mode", "rules"]) ∧
    (KeepsValues fields value ↔
      ∀ key old written, otherField fields key = some old →
        writtenField grouped key = some written →
          ∀ v ∈ alternatives old, v ∈ alternatives written)

/-- Every object with filters becomes one that has its other fields where nothing is written. -/
theorem Expansion.Fills.frames {σ : Type} {x : Expansion σ} {fields : List (String × Json)}
    {value : Json} (h : x.Fills fields value) : x.Frames fields value := by
  obtain ⟨conditions, grouped, hresolves, hgrouped, rfl⟩ := h
  exact ⟨conditions, grouped, ⟨hresolves, hgrouped, rfl⟩, field?_withGroup fields grouped,
    fun _ hwritten => holdsConditions_of_writtenField hgrouped hwritten,
    keepsValues_iff fields grouped⟩

/-- Expansion keeps every part of a value outside of the objects with filters in its place.  A part
without filters stays as it is, and an object with filters keeps its other fields, with all values
that they list, as far as the grouped conditions do not write over them. -/
theorem expand_frames {σ : Type} {x : Expansion σ} {before after : World σ} {value : Json}
    {result : Expanded Json} (h : (x.expand value).Yields before result after)
    {steps : List Json.Step} {part : Json}
    (hpart : value.outerPart? filtersKey steps = some part) :
    ∃ new, result.1.part? steps = some new ∧
      (part.lacksKey filtersKey = true → new = part) ∧
      ∀ fields, part = .obj fields → (lookupEntry filtersKey fields).isSome = true →
        x.Frames fields new := by
  obtain ⟨new, hnew, hexpands⟩ := (Expansion.expands_of_expand h).exists_part hpart
  refine ⟨new, hnew, hexpands.eq_of_lacksKey, ?_⟩
  rintro fields rfl hfilters
  cases hexpands with
  | filters _ hfills => exact Expansion.Fills.frames hfills
  | fields hnone _ _ =>
    rw [hnone] at hfilters
    cases hfilters
  | plain _ hfields => cases hfields

/-- Fields with a condition beside filters. -/
def overlappingFields : List (String × Json) :=
  [("domain", .arr [.str "a.com"]), ("filters", .arr [.str "DOMAIN,b.com"]),
    ("outbound", .str "DIRECT")]

/-- A list of a rule without filters and one with a condition beside them. -/
def overlappingRules : Json :=
  .arr [.obj [("outbound", .str "PROXY"), ("port", .arr [.int 443])], .obj overlappingFields]

theorem expand_frames_overlappingRules :
    ∃ result after,
      ((plainGenerator.expansion false).expand overlappingRules).Yields emptyWorld result after ∧
      ∃ new, result.1.part? [.item 1] = some new ∧
        ((Json.obj overlappingFields).lacksKey filtersKey = true →
          new = .obj overlappingFields) ∧
        ∀ fields, Json.obj overlappingFields = .obj fields →
          (lookupEntry filtersKey fields).isSome = true →
            (plainGenerator.expansion false).Frames fields new := by
  obtain ⟨result, after, hresult, _⟩ := Task.exists_of_succeedsWith (show
    ((plainGenerator.expansion false).expand overlappingRules).succeedsWith emptyWorld
      (fun _ => true) = true by decide +kernel)
  exact ⟨result, after, hresult, expand_frames hresult (by decide +kernel)⟩

/-- A template with a rule that has a condition beside its filters. -/
def overlappingTemplate : Json :=
  .obj [("route", .obj [("final", .str "PROXY"), ("rules", .arr [.obj overlappingFields])])]

/-- A condition of a template rule is lost when its filters have conditions on the same field. -/
theorem generate_overlappingTemplate_drops_value :
    ∃ made after new,
      (plainGenerator.generate [] overlappingTemplate).Yields emptyWorld made after ∧
      routeRulesOf overlappingTemplate = [.obj overlappingFields] ∧
      routeRulesOf made.content = [new] ∧
      otherField overlappingFields "domain" = some (.arr [.str "a.com"]) ∧
      new.field? "domain" = some (.arr [.str "b.com"]) ∧
      ¬KeepsValues overlappingFields new := by
  obtain ⟨made, after, hmade, hrules⟩ := Task.exists_of_succeedsWith (show
    (plainGenerator.generate [] overlappingTemplate).succeedsWith emptyWorld (fun made =>
      routeRulesOf made.content =
        [.obj [("domain", .arr [.str "b.com"]), ("outbound", .str "DIRECT")]]) = true by
      decide +kernel)
  have hold : otherField overlappingFields "domain" = some (.arr [.str "a.com"]) := by
    decide +kernel
  refine ⟨made, after, _, hmade, by decide +kernel, of_decide_eq_true hrules, hold, by rfl, ?_⟩
  intro hkeeps
  obtain ⟨new, hnew, hvalues⟩ := hkeeps "domain" _ hold
  obtain rfl : new = .arr [.str "b.com"] := (Option.some.inj hnew).symm
  have hlost : Json.str "a.com" ∈ [Json.str "b.com"] := hvalues _ (by simp [alternatives])
  simp at hlost

end SingBox

end RoutingRules
