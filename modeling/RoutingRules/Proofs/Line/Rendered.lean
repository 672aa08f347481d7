import Mathlib.Data.List.Nodup
import RoutingRules.Line.Rendered

/-!
# What rules become as lines

Rendering goes through the conditions of all rules, sorts the lines into three stages and keeps
the first line of each key.  This module says which condition every line comes from.

Main results:

- Theorem {lit}`Condition.lineFields_eq`: when a condition has fields, and what they are.
- Theorem {lit}`RenderedRules.ofRules_eq`: rendering fails at the first condition without a mark
  that it has to have, and otherwise keeps the first condition of each key in order of stages.
- Theorem {lit}`RenderedRules.ofRules_stages_and_firsts`: order, keys and counts for every list of
  rules.
-/

namespace RoutingRules

/-! ## Fields -/

namespace Condition

/-- Whether a client has a word for a condition. -/
def isSpelled (client : LineClient) (c : Condition) : Bool :=
  (c.written.1.spelling client.client).isSome

/-- Whether a condition is written with its resolution mark. -/
def takesMark (c : Condition) : Bool :=
  c.kind.mayRequireResolution && c.kind ≠ .matchAll

/-- Whether a condition has to have a resolution mark and has none. -/
def lacksMark (c : Condition) : Bool :=
  c.takesMark && c.mark? = none

/-- Whether a condition is written with the word that no address is looked up. -/
def staysUnresolved (c : Condition) : Bool :=
  c.takesMark && c.mark? = some false

/-- The spelling, the value and the mark of a condition. -/
def writtenFields (client : LineClient) (c : Condition) : List String :=
  (c.written.1.spelling client.client).getD "" ::
    (c.written.2.toList ++ if c.staysUnresolved then [noResolve] else [])

/-- The mark of a condition is missing, is written or needs no field. -/
theorem markField_eq (c : Condition) :
    c.markField =
      if c.lacksMark then .error (.unresolved c.text)
      else .ok (if c.staysUnresolved then [noResolve] else []) := by
  have htakes : (c.kind.mayRequireResolution = true ∧ c.kind ≠ .matchAll) ↔
      c.takesMark = true := by
    simp [takesMark]
  unfold markField lacksMark staysUnresolved
  by_cases h : c.takesMark = true
  · rw [if_pos (htakes.2 h), h]
    rcases c.mark? with _ | _ | _ <;> rfl
  · rw [if_neg (fun hkind => h (htakes.1 hkind)), eq_false_of_ne_true h]
    rfl

/-- A condition has fields when the client has a word for it and no mark is missing. -/
theorem lineFields_eq (client : LineClient) (c : Condition) :
    c.lineFields client.client =
      if c.isSpelled client then
        if c.lacksMark then .error (.unresolved c.text) else .ok (c.writtenFields client)
      else .error (.unsupported c.kind client.client) := by
  unfold lineFields isSpelled writtenFields
  rcases c.written with ⟨kind, value⟩
  dsimp only
  cases kind.spelling client.client with
  | none => rfl
  | some spelling =>
    rw [markField_eq]
    cases c.lacksMark <;> rfl

end Condition

/-! ## Placements -/

/-- A condition with the destination of its rule. -/
structure Placement where
  destination : Destination
  condition : Condition
deriving DecidableEq

/-- The conditions of rules in order. -/
def placements (rules : List RouteRule) : List Placement :=
  rules.flatMap fun rule => rule.conditions.map fun c => ⟨rule.destination, c⟩

namespace Placement

/-- Whether the client has a word for the condition. -/
def isSpelled (client : LineClient) (p : Placement) : Bool :=
  p.condition.isSpelled client

/-- Whether the condition cannot be rendered for want of a mark. -/
def isUnresolved (client : LineClient) (p : Placement) : Bool :=
  p.isSpelled client && p.condition.lacksMark

/-- The stage of the condition. -/
def stage (p : Placement) : LineStage :=
  p.condition.stage

/-- The line of the condition and its key. -/
def entry (client : LineClient) (p : Placement) : LineEntry :=
  let fields := p.condition.writtenFields client
  { key := Text.joinWith "," (fields.takeWhile (· ≠ Condition.noResolve))
    line := Text.joinWith "," (withDestination (client.destinationName p.destination) fields) }

/-- What the line shares with the lines that test the same. -/
def key (client : LineClient) (p : Placement) : String :=
  (p.entry client).key

/-- The line of the condition. -/
def line (client : LineClient) (p : Placement) : String :=
  (p.entry client).line

/-- What becomes of the condition. -/
def attempt (client : LineClient) (p : Placement) : LineAttempt :=
  .ofCondition client p.destination p.condition

/-- A condition is skipped, fails or is placed in its stage. -/
theorem attempt_eq (client : LineClient) (p : Placement) :
    p.attempt client =
      if p.isSpelled client then
        if p.condition.lacksMark then .failed (.unresolved p.condition.text)
        else .placed p.stage (p.entry client)
      else .skipped (.conditionSkipped p.condition.text p.destination.name
        (RuleError.unsupported p.condition.kind client.client).message) := by
  unfold attempt LineAttempt.ofCondition LineEntry.ofCondition isSpelled
  rw [Condition.lineFields_eq]
  cases p.condition.isSpelled client with
  | false => rfl
  | true => cases p.condition.lacksMark <;> rfl

/-- A condition that is spelled and lacks no mark has its line. -/
theorem ofCondition_eq_ok {client : LineClient} {p : Placement} (hspelled : p.isSpelled client)
    (hmark : p.isUnresolved client = false) :
    LineEntry.ofCondition client p.destination p.condition = .ok (p.entry client) := by
  have hspelled' : p.condition.isSpelled client = true := hspelled
  have hmark' : p.condition.lacksMark = false := by simpa [isUnresolved, hspelled] using hmark
  rw [LineEntry.ofCondition, Condition.lineFields_eq, hspelled', hmark']
  rfl

end Placement

/-- The attempts at rules are those at their conditions. -/
theorem LineAttempt.ofRules_eq (client : LineClient) (rules : List RouteRule) :
    LineAttempt.ofRules client rules = (placements rules).map (Placement.attempt client) := by
  rw [placements, List.map_flatMap]
  simp only [List.map_map]
  rfl

/-! ## Keeping the first of each key -/

section FirstOf

variable {α : Type} {key : α → String}

/-- The first of the items with one key; `seen` are the keys met before. -/
def firstOf (key : α → String) (seen : List String) : List α → List α
  | [] => []
  | a :: rest =>
    if key a ∈ seen then firstOf key seen rest else a :: firstOf key (key a :: seen) rest

/-- Entries are kept as the items from which they are made. -/
theorem firstEntries_map (make : α → LineEntry) (seen : List String) (items : List α) :
    firstEntries seen (items.map make) =
      (firstOf (fun a => (make a).key) seen items).map make := by
  induction items generalizing seen with
  | nil => rfl
  | cons a rest ih =>
    simp only [List.map_cons, firstEntries, firstOf]
    split
    · exact ih seen
    · rw [List.map_cons, ih]

theorem firstOf_sublist (seen : List String) (items : List α) :
    (firstOf key seen items).Sublist items := by
  induction items generalizing seen with
  | nil => exact List.Sublist.refl []
  | cons a rest ih =>
    simp only [firstOf]
    split
    · exact (ih seen).cons a
    · exact (ih _).cons_cons a

/-- What is kept has a new key. -/
theorem key_notMem_of_mem_firstOf {seen : List String} {items : List α} {a : α}
    (h : a ∈ firstOf key seen items) : key a ∉ seen := by
  induction items generalizing seen with
  | nil => cases h
  | cons b rest ih =>
    simp only [firstOf] at h
    split at h
    next => exact ih h
    next hb =>
      rcases List.mem_cons.1 h with rfl | hrest
      · exact hb
      · exact fun hmem => ih hrest (List.mem_cons_of_mem _ hmem)

/-- What is kept has distinct keys. -/
theorem nodup_keys_firstOf (seen : List String) (items : List α) :
    ((firstOf key seen items).map key).Nodup := by
  induction items generalizing seen with
  | nil => exact List.nodup_nil
  | cons a rest ih =>
    simp only [firstOf]
    split
    · exact ih seen
    · rw [List.map_cons, List.nodup_cons]
      refine ⟨fun hmem => ?_, ih _⟩
      obtain ⟨b, hb, hkey⟩ := List.mem_map.1 hmem
      exact key_notMem_of_mem_firstOf hb (hkey ▸ List.mem_cons_self)

/-- Of the items with a new key the first one is kept. -/
theorem find?_mem_firstOf {seen : List String} {items : List α} {k : String} (hk : k ∉ seen)
    {a : α} (h : items.find? (fun b => key b = k) = some a) : a ∈ firstOf key seen items := by
  induction items generalizing seen with
  | nil => cases h
  | cons b rest ih =>
    simp only [firstOf]
    by_cases hkey : key b = k
    · rw [List.find?_cons_of_pos (by simpa using hkey)] at h
      obtain rfl := Option.some.inj h
      rw [if_neg (hkey ▸ hk)]
      exact List.mem_cons_self
    · rw [List.find?_cons_of_neg (by simpa using hkey)] at h
      split
      · exact ih hk h
      · refine List.mem_cons_of_mem _ (ih ?_ h)
        exact fun hmem => (List.mem_cons.1 hmem).elim (fun heq => hkey heq.symm) hk

end FirstOf

/-! ## Placements in stages -/

/-- The place of a stage. -/
def LineStage.rank : LineStage → Nat
  | direct => 0
  | resolving => 1
  | fallback => 2

/-- The conditions of one stage for which the client has a word. -/
def inStage (client : LineClient) (items : List Placement) (stage : LineStage) : List Placement :=
  items.filter fun p => p.isSpelled client && p.stage = stage

/-- The conditions for which the client has a word, stage after stage. -/
def inStages (client : LineClient) (items : List Placement) : List Placement :=
  LineStage.all.flatMap (inStage client items)

/-- The conditions whose lines are kept. -/
def keptPlacements (client : LineClient) (rules : List RouteRule) : List Placement :=
  firstOf (Placement.key client) [] (inStages client (placements rules))

theorem mem_inStage {client : LineClient} {items : List Placement} {stage : LineStage}
    {p : Placement} :
    p ∈ inStage client items stage ↔ p ∈ items ∧ p.isSpelled client = true ∧ p.stage = stage := by
  simp [inStage]

theorem mem_inStages {client : LineClient} {items : List Placement} {p : Placement} :
    p ∈ inStages client items ↔ p ∈ items ∧ p.isSpelled client = true := by
  have hall : p.stage ∈ LineStage.all := by cases p.stage <;> decide
  simp only [inStages, List.mem_flatMap, mem_inStage]
  constructor
  · rintro ⟨stage, _, hmem, hspelled, _⟩
    exact ⟨hmem, hspelled⟩
  · rintro ⟨hmem, hspelled⟩
    exact ⟨p.stage, hall, hmem, hspelled, rfl⟩

/-- Within a stage the conditions keep their order. -/
theorem filter_stage_inStages (client : LineClient) (items : List Placement) (stage : LineStage) :
    (inStages client items).filter (fun p => p.stage = stage) = inStage client items stage := by
  have hother : ∀ other, other ≠ stage →
      (inStage client items other).filter (fun p => p.stage = stage) = [] := by
    intro other hne
    rw [List.filter_eq_nil_iff]
    intro p hp
    simpa [(mem_inStage.1 hp).2.2] using hne
  have hsame : (inStage client items stage).filter (fun p => p.stage = stage) =
      inStage client items stage := by
    rw [List.filter_eq_self]
    intro p hp
    simpa using (mem_inStage.1 hp).2.2
  cases stage <;> simp [inStages, LineStage.all, List.filter_append, hother, hsame]

/-- The stages come one after another. -/
theorem pairwise_rank_inStages (client : LineClient) (items : List Placement) :
    (inStages client items).Pairwise fun p q => p.stage.rank ≤ q.stage.rank := by
  rw [inStages, List.pairwise_flatMap]
  constructor
  · intro stage _
    refine List.pairwise_of_forall_mem_list fun p hp q hq => ?_
    exact Nat.le_of_eq (by rw [(mem_inStage.1 hp).2.2, (mem_inStage.1 hq).2.2])
  · have hranks : LineStage.all.Pairwise fun s t => s.rank ≤ t.rank := by decide
    refine hranks.imp fun {s t} hle p hp q hq => ?_
    rw [(mem_inStage.1 hp).2.2, (mem_inStage.1 hq).2.2]
    exact hle

/-- Every condition for which the client has a word is in one stage. -/
theorem length_inStages (client : LineClient) (items : List Placement) :
    (inStages client items).length = items.countP (Placement.isSpelled client) := by
  induction items with
  | nil => rfl
  | cons p items ih =>
    simp only [inStages, LineStage.all, inStage, List.flatMap_cons, List.flatMap_nil,
      List.length_append, List.length_nil] at ih ⊢
    rw [List.countP_cons, ← ih]
    cases hspelled : p.isSpelled client
    · simp [hspelled]
    · cases hstage : p.stage <;> simp [hspelled, hstage] <;> omega

/-- The entries that are placed in a stage are those of the conditions in the stage. -/
theorem filterMap_entryIn? {client : LineClient} {items : List Placement}
    (h : ∀ p ∈ items, p.isUnresolved client = false) (stage : LineStage) :
    (items.map (Placement.attempt client)).filterMap (LineAttempt.entryIn? stage) =
      (inStage client items stage).map (Placement.entry client) := by
  induction items with
  | nil => rfl
  | cons p items ih =>
    obtain ⟨hp, hitems⟩ := List.forall_mem_cons.1 h
    rw [List.map_cons, List.filterMap_cons, ih hitems, Placement.attempt_eq]
    unfold inStage
    cases hspelled : p.isSpelled client with
    | false => simp [hspelled, LineAttempt.entryIn?]
    | true =>
      have hmark : p.condition.lacksMark = false := by
        simpa [Placement.isUnresolved, hspelled] using hp
      by_cases hstage : p.stage = stage <;> simp [hspelled, hmark, hstage, LineAttempt.entryIn?]

/-- The entries of all stages are those of the conditions in all stages. -/
theorem stagedEntries_eq {client : LineClient} {items : List Placement}
    (h : ∀ p ∈ items, p.isUnresolved client = false) :
    stagedEntries (items.map (Placement.attempt client)) =
      (inStages client items).map (Placement.entry client) := by
  rw [stagedEntries, inStages, List.map_flatMap]
  exact List.flatMap_congr fun stage _ => filterMap_entryIn? h stage

/-! ## Rendered rules -/

/-- The first failure is that of the first condition without a mark that it has to have. -/
theorem findSome?_error? (client : LineClient) (items : List Placement) :
    (items.map (Placement.attempt client)).findSome? LineAttempt.error? =
      (items.find? (Placement.isUnresolved client)).map fun p =>
        RuleError.unresolved p.condition.text := by
  induction items with
  | nil => rfl
  | cons p items ih =>
    rw [List.map_cons, List.findSome?_cons, List.find?_cons, ih, Placement.attempt_eq,
      Placement.isUnresolved]
    cases p.isSpelled client with
    | false => rfl
    | true => cases p.condition.lacksMark <;> rfl

/-- A notice is given for every condition for which the client has no word. -/
theorem length_filterMap_notice? (client : LineClient) (items : List Placement) :
    ((items.map (Placement.attempt client)).filterMap LineAttempt.notice?).length =
      items.countP fun p => !p.isSpelled client := by
  induction items with
  | nil => rfl
  | cons p items ih =>
    rw [List.map_cons, List.filterMap_cons, List.countP_cons, ← ih, Placement.attempt_eq]
    cases p.isSpelled client with
    | false => rfl
    | true => cases p.condition.lacksMark <;> rfl

namespace RenderedRules

/-- Rendering fails at the first condition without a mark that it has to have, and otherwise keeps
the first condition of each key in order of stages. -/
theorem ofRules_eq (client : LineClient) (rules : List RouteRule) :
    ofRules client rules =
      match (placements rules).find? (Placement.isUnresolved client) with
      | some p => .error (.unresolved p.condition.text)
      | none => .ok
          { lines := (keptPlacements client rules).map (Placement.line client)
            duplicates := (inStages client (placements rules)).length -
              (keptPlacements client rules).length
            unsupported := (placements rules).countP fun p => !p.isSpelled client } := by
  rw [ofRules, LineAttempt.ofRules_eq, findSome?_error?]
  cases hfind : (placements rules).find? (Placement.isUnresolved client) with
  | some p => rfl
  | none =>
    have hresolved : ∀ p ∈ placements rules, p.isUnresolved client = false := by
      simpa using List.find?_eq_none.1 hfind
    simp only [Option.map_none, ofAttempts, stagedEntries_eq hresolved,
      length_filterMap_notice?, firstEntries_map, List.map_map, List.length_map]
    rfl

/-- What rendered rules have to do with the rules, when the lines of `kept` are the ones kept. -/
structure Renders (client : LineClient) (rules : List RouteRule) (rendered : RenderedRules)
    (kept : List Placement) : Prop where
  lines_eq : rendered.lines = kept.map (Placement.line client)
  /-- Every line is that of a condition with the destination of its own rule. -/
  entry_ok : ∀ p ∈ kept,
    LineEntry.ofCondition client p.destination p.condition = .ok (p.entry client)
  /-- Lines without resolution come before those that resolve, and these before the fallback. -/
  staged : kept.Pairwise fun p q => p.stage.rank ≤ q.stage.rank
  /-- Within a stage the lines are in the order of the rules. -/
  in_order : ∀ stage, (kept.filter fun p => p.stage = stage).Sublist (placements rules)
  keys_distinct : (kept.map (Placement.key client)).Nodup
  /-- The line with the key of a condition is that of the first one with this key. -/
  first_kept : ∀ p ∈ placements rules, p.isSpelled client = true → ∃ q ∈ kept,
    (inStages client (placements rules)).find? (fun r => r.key client = p.key client) = some q
  counts_add : rendered.lines.length + rendered.duplicates + rendered.unsupported =
    (placements rules).length
  unsupported_eq : rendered.unsupported = (placements rules).countP fun p => !p.isSpelled client

/-- Where no mark is missing, rules are rendered by the first condition of each key. -/
theorem renders_keptPlacements {client : LineClient} {rules : List RouteRule}
    (h : ∀ p ∈ placements rules, p.isUnresolved client = false) {rendered : RenderedRules}
    (hok : ofRules client rules = .ok rendered) :
    Renders client rules rendered (keptPlacements client rules) := by
  have hnone : (placements rules).find? (Placement.isUnresolved client) = none :=
    List.find?_eq_none.2 fun p hp => by simp [h p hp]
  rw [ofRules_eq, hnone] at hok
  obtain rfl := Except.ok.inj hok
  have hsublist : (keptPlacements client rules).Sublist (inStages client (placements rules)) :=
    firstOf_sublist _ _
  refine ⟨rfl, ?_, ?_, ?_, nodup_keys_firstOf _ _, ?_, ?_, rfl⟩
  · intro p hp
    obtain ⟨hmem, hspelled⟩ := mem_inStages.1 (hsublist.subset hp)
    exact Placement.ofCondition_eq_ok hspelled (h p hmem)
  · exact (pairwise_rank_inStages client _).sublist hsublist
  · intro stage
    have hstage := hsublist.filter fun p => p.stage = stage
    rw [filter_stage_inStages] at hstage
    exact hstage.trans List.filter_sublist
  · intro p hp hspelled
    have hmem : p ∈ inStages client (placements rules) := mem_inStages.2 ⟨hp, hspelled⟩
    have hsome : ((inStages client (placements rules)).find?
        fun r => r.key client = p.key client).isSome = true :=
      List.find?_isSome.2 ⟨p, hmem, decide_eq_true rfl⟩
    obtain ⟨q, hq⟩ := Option.isSome_iff_exists.1 hsome
    exact ⟨q, find?_mem_firstOf List.not_mem_nil hq, hq⟩
  · have hle := hsublist.length_le
    have hspelled := length_inStages client (placements rules)
    have hall : (placements rules).length =
        (placements rules).countP (Placement.isSpelled client) +
          (placements rules).countP fun p => !p.isSpelled client := by
      simpa using List.length_eq_countP_add_countP (Placement.isSpelled client)
    simp only [List.length_map]
    omega

/-- Rendering fails exactly when a condition lacks a mark that it has to have, with the error of the
first of them.  Otherwise it sorts the lines into stages, keeps the first line of each key, and
counts the lines left out and the conditions for which the client has no word. -/
theorem ofRules_stages_and_firsts (client : LineClient) (rules : List RouteRule) :
    ((∃ e, ofRules client rules = .error e) ↔
        ∃ p ∈ placements rules, p.isUnresolved client = true) ∧
      (∀ p, (placements rules).find? (Placement.isUnresolved client) = some p →
        ofRules client rules = .error (.unresolved p.condition.text)) ∧
      ∀ rendered, ofRules client rules = .ok rendered →
        ∃ kept, Renders client rules rendered kept := by
  have heq := ofRules_eq client rules
  cases hfind : (placements rules).find? (Placement.isUnresolved client) with
  | some p =>
    rw [hfind] at heq
    refine ⟨⟨fun _ => ?_, fun _ => ⟨_, heq⟩⟩, ?_, ?_⟩
    · exact ⟨p, List.mem_of_find?_eq_some hfind, List.find?_some hfind⟩
    · rintro q hq
      obtain rfl := Option.some.inj hq
      exact heq
    · intro rendered hok
      rw [hok] at heq
      cases heq
  | none =>
    rw [hfind] at heq
    have hresolved := List.find?_eq_none.1 hfind
    refine ⟨⟨?_, ?_⟩, nofun, ?_⟩
    · rintro ⟨e, he⟩
      rw [he] at heq
      cases heq
    · rintro ⟨p, hp, hunresolved⟩
      exact absurd hunresolved (hresolved p hp)
    · intro rendered hok
      exact ⟨_, renders_keptPlacements (by simpa using hresolved) hok⟩

/-- Two destinations for one domain, an address with and without resolution, a fallback in front,
and a condition on processes. -/
def sampleRouteRules : List RouteRule :=
  [⟨.outbound "A", [.always, .on .domain "a.com" none, .on .ipCidr "1.0.0.0/8" (some true)]⟩,
    ⟨.reject, [.on .domainListItem "a.com" none, .on .ipCidr "1.0.0.0/8" (some false),
      .on .processName "curl" none, .always]⟩]

theorem ofRules_stages_and_firsts_sampleRouteRules :
    ofRules .quantumult sampleRouteRules = .ok
        { lines := ["host,a.com,A", "ip-cidr,1.0.0.0/8,reject,no-resolve", "final,A"]
          duplicates := 3
          unsupported := 1 } ∧
      ∃ kept, Renders .quantumult sampleRouteRules
        { lines := ["host,a.com,A", "ip-cidr,1.0.0.0/8,reject,no-resolve", "final,A"]
          duplicates := 3
          unsupported := 1 } kept := by
  have hok : ofRules .quantumult sampleRouteRules = .ok
      { lines := ["host,a.com,A", "ip-cidr,1.0.0.0/8,reject,no-resolve", "final,A"]
        duplicates := 3
        unsupported := 1 } := by
    rfl
  exact ⟨hok, (ofRules_stages_and_firsts .quantumult sampleRouteRules).2.2 _ hok⟩

end RenderedRules

end RoutingRules
