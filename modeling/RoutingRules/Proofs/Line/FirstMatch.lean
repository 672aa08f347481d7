import Mathlib.Data.List.Find
import RoutingRules.Proofs.Condition.Literal

/-!
# Which line decides about a connection

A client goes through its lines from the top and takes the first one that matches.  A line with an
address sees the address that is known without a lookup; only a line that resolves sees the
address that was looked up.

Leaving out lines with a key that was met before changes nothing as long as lines with one key
match the same connections.  They do within a stage.  A line that resolves may however have the
key of a line that does not, and then the line that is left out matches more.

Main results:

- Theorem {lit}`Placement.key_eq_iff`: lines have one key when they test the same.
- Theorem {lit}`find?_keptPlacements`: the first of the kept lines that matches is the first line
  that does, when the lines that resolve and are tested without resolution as well are passed over.
- Theorem {lit}`keepsChoices_of_ofRules`: a comparison with the first of all lines that does.
-/

namespace RoutingRules

/-! ## First matches among items with keys -/

section FirstOf

variable {α : Type} {key : α → String}

/-- Only the keys that were met matter. -/
theorem firstOf_congr {seen met : List String} (h : ∀ k, k ∈ seen ↔ k ∈ met) (items : List α) :
    firstOf key seen items = firstOf key met items := by
  induction items generalizing seen met with
  | nil => rfl
  | cons a rest ih =>
    have hcons : ∀ k, k ∈ key a :: seen ↔ k ∈ key a :: met := by
      intro k
      rw [List.mem_cons, List.mem_cons, h k]
    simp only [firstOf, h (key a), ih h, ih hcons]

/-- Items behind others are kept if their keys were not met among those either. -/
theorem firstOf_append (seen : List String) (items others : List α) :
    firstOf key seen (items ++ others) =
      firstOf key seen items ++ firstOf key (items.map key ++ seen) others := by
  induction items generalizing seen with
  | nil => rfl
  | cons a rest ih =>
    simp only [List.cons_append, firstOf, List.map_cons]
    split
    next hmem =>
      have hmet : ∀ k, k ∈ rest.map key ++ seen ↔ k ∈ key a :: (rest.map key ++ seen) := by
        intro k
        simp only [List.mem_append, List.mem_cons]
        constructor
        · exact Or.inr
        · rintro (rfl | hk)
          · exact Or.inr hmem
          · exact hk
      rw [ih, firstOf_congr hmet]
    next =>
      have hmet : ∀ k, k ∈ rest.map key ++ key a :: seen ↔ k ∈ key a :: (rest.map key ++ seen) := by
        intro k
        simp only [List.mem_append, List.mem_cons]
        tauto
      rw [ih, firstOf_congr hmet]
      rfl

/-- When items with one key have one truth, the first true item with a new key is kept. -/
theorem find?_firstOf {seen : List String} {items : List α} {truth : α → Bool}
    (h : ∀ a ∈ items, ∀ b ∈ items, key a = key b → truth a = truth b) :
    (firstOf key seen items).find? truth =
      items.find? fun a => decide (key a ∉ seen) && truth a := by
  induction items generalizing seen with
  | nil => rfl
  | cons a rest ih =>
    have hrest : ∀ b ∈ rest, ∀ c ∈ rest, key b = key c → truth b = truth c := fun b hb c hc =>
      h b (List.mem_cons_of_mem _ hb) c (List.mem_cons_of_mem _ hc)
    simp only [firstOf]
    by_cases hmem : key a ∈ seen
    · rw [if_pos hmem, ih hrest, List.find?_cons_of_neg (by simp [hmem])]
    · rw [if_neg hmem]
      by_cases htruth : truth a = true
      · rw [List.find?_cons_of_pos htruth, List.find?_cons_of_pos (by simp [hmem, htruth])]
      · rw [List.find?_cons_of_neg htruth, List.find?_cons_of_neg (by simp [htruth]), ih hrest]
        refine List.find?_congr fun b hb => ?_
        by_cases hkey : key b = key a
        · have hfalse := h b (List.mem_cons_of_mem _ hb) a List.mem_cons_self hkey
          rw [hfalse, eq_false_of_ne_true htruth, Bool.and_false, Bool.and_false]
        · simp [hkey]

end FirstOf

/-! ## Keys -/

/-- A word of a client is not a resolution mark. -/
theorem Kind.spelling_ne_noResolve {client : LineClient} {kind : Kind} {spelling : String}
    (h : kind.spelling client.client = some spelling) : spelling ≠ Condition.noResolve :=
  of_spelling (p := fun _ word => word ≠ Condition.noResolve) (by decide +kernel) h

/-- A word of a client belongs to one kind. -/
theorem Kind.eq_of_spelling {client : LineClient} {kind other : Kind} {spelling : String}
    (h : kind.spelling client.client = some spelling)
    (ho : other.spelling client.client = some spelling) : kind = other :=
  Except.ok.inj ((lookup_spelling h).symm.trans (lookup_spelling ho))

namespace Condition

/-- The value of a condition as far as it shows in the key of its line. -/
def shownValue (c : Condition) : Option String :=
  c.written.2.filter (· ≠ noResolve)

/-- A condition is written as the one that holds always when it is. -/
theorem written_matchAll_iff {c : Condition} : c.written.1 = .matchAll ↔ c.kind = .matchAll := by
  cases c with
  | always => exact Iff.rfl
  | on kind value mark =>
    cases kind with
    | domainListItem =>
      have hne : (decomposed value).1 ≠ .matchAll := by
        unfold decomposed
        split <;> nofun
      exact ⟨fun h => absurd h hne, nofun⟩
    | _ => exact Iff.rfl

/-- Among the conditions that can be built the one that holds always has no value. -/
theorem IsMade.written_value {c : Condition} (h : c.IsMade) :
    c.written.2 =
      if c.written.1 = .matchAll then none else some (c.shownValue.getD noResolve) := by
  cases h with
  | always => rfl
  | @make kind text mark _ h =>
    have hkind : kind ≠ .matchAll := by
      rintro rfl
      cases h
    obtain ⟨value, _, rfl⟩ := eq_of_make h
    have hwritten : (on kind value mark).written.1 ≠ .matchAll := fun heq =>
      hkind (written_matchAll_iff.1 heq)
    obtain ⟨v, hv⟩ : ∃ v, (on kind value mark).written.2 = some v := by
      cases kind <;> exact ⟨_, rfl⟩
    rw [if_neg hwritten, shownValue, hv]
    by_cases hmark : v = noResolve <;> simp [Option.filter, hmark]

end Condition

namespace Placement

/-- The key of a line is the spelling with the value that shows. -/
theorem key_eq {client : LineClient} {p : Placement} {spelling : String}
    (h : p.condition.written.1.spelling client.client = some spelling) :
    p.key client = Text.joinWith "," (spelling :: p.condition.shownValue.toList) := by
  have hplain : spelling ≠ Condition.noResolve := Kind.spelling_ne_noResolve h
  unfold key entry Condition.writtenFields Condition.shownValue
  simp only [h, Option.getD_some]
  cases p.condition.written.2 with
  | none => cases p.condition.staysUnresolved <;> simp [hplain]
  | some v =>
    by_cases hv : v = Condition.noResolve
    · simp [hplain, hv, Option.filter]
    · cases p.condition.staysUnresolved <;> simp [hplain, hv, Option.filter]

/-- A key is split at the comma between the spelling and the value, if a value shows. -/
theorem splitFirst_key {client : LineClient} {p : Placement} {spelling : String}
    (h : p.condition.written.1.spelling client.client = some spelling) :
    Text.splitFirst ',' (p.key client).toList =
      p.condition.shownValue.map fun v => (spelling.toList, v.toList) := by
  have hcomma := (Kind.isField_spelling h).comma
  rw [key_eq h]
  cases p.condition.shownValue with
  | none => exact Text.splitFirst_of_not_mem hcomma
  | some v =>
    have hlist : (spelling ++ "," ++ v).toList = spelling.toList ++ ',' :: v.toList := by simp
    exact hlist ▸ Text.splitFirst_append hcomma _

/-- Lines have one key when their conditions are written alike. -/
theorem key_eq_of_written_eq {client : LineClient} {p q : Placement} (hp : p.isSpelled client)
    (h : p.condition.written = q.condition.written) : p.key client = q.key client := by
  obtain ⟨spelling, hspelling⟩ := Option.isSome_iff_exists.1 hp
  rw [key_eq hspelling, key_eq (h ▸ hspelling), Condition.shownValue, Condition.shownValue, h]

/-- Lines have one key exactly when they test the same. -/
theorem key_eq_iff {client : LineClient} {p q : Placement} (hp : p.isSpelled client)
    (hq : q.isSpelled client) (hpmade : p.condition.IsMade) (hqmade : q.condition.IsMade) :
    p.key client = q.key client ↔ p.condition.written = q.condition.written := by
  refine ⟨fun h => ?_, key_eq_of_written_eq hp⟩
  obtain ⟨spelling, hspelling⟩ := Option.isSome_iff_exists.1 hp
  obtain ⟨other, hother⟩ := Option.isSome_iff_exists.1 hq
  have hsplit := splitFirst_key hspelling
  rw [h, splitFirst_key hother] at hsplit
  have hparts : spelling = other ∧ p.condition.shownValue = q.condition.shownValue := by
    have hpkey := key_eq hspelling
    have hqkey := key_eq hother
    cases hpv : p.condition.shownValue with
    | none =>
      cases hqv : q.condition.shownValue with
      | none =>
        rw [hpv] at hpkey
        rw [hqv] at hqkey
        exact ⟨hpkey.symm.trans (h.trans hqkey), rfl⟩
      | some w => simp [hpv, hqv] at hsplit
    | some v =>
      cases hqv : q.condition.shownValue with
      | none => simp [hpv, hqv] at hsplit
      | some w =>
        simp only [hpv, hqv, Option.map_some, Option.some.injEq, Prod.mk.injEq,
          String.toList_inj] at hsplit
        exact ⟨hsplit.1.symm, congrArg some hsplit.2.symm⟩
  obtain ⟨rfl, hshown⟩ := hparts
  have hkind : p.condition.written.1 = q.condition.written.1 :=
    Kind.eq_of_spelling hspelling hother
  refine Prod.ext hkind ?_
  rw [hpmade.written_value, hqmade.written_value, hkind, hshown]

end Placement

/-! ## Connections -/

/-- What is known of a connection: the tests that it passes before the address of its domain is
looked up, and those that it passes afterwards. -/
structure Sight where
  before : Kind × Option String → Bool
  after : Kind × Option String → Bool
  grows : ∀ test, before test = true → after test = true

namespace Placement

/-- Whether the line of a condition matches.  Only a line that resolves sees the address that was
looked up. -/
def applies (σ : Sight) (p : Placement) : Bool :=
  match p.stage with
  | .direct => σ.before p.condition.written
  | .resolving => σ.after p.condition.written
  | .fallback => true

/-- Whether the line of a condition resolves and the condition has a line without resolution too. -/
def isShadowed (client : LineClient) (rules : List RouteRule) (p : Placement) : Bool :=
  p.stage = .resolving &&
    (inStage client (placements rules) .direct).any fun q =>
      q.condition.written = p.condition.written

end Placement

/-- The destination of the first line that matches. -/
def chosen (σ : Sight) (lines : List Placement) : Option Destination :=
  (lines.find? (Placement.applies σ)).map Placement.destination

/-! ## Lines that are kept -/

/-- Within a stage the lines with one key match the same connections. -/
theorem applies_eq_of_key_eq (client : LineClient) {rules : List RouteRule} (σ : Sight)
    (hmade : ∀ p ∈ placements rules, p.condition.IsMade) (stage : LineStage) :
    ∀ p ∈ inStage client (placements rules) stage,
      ∀ q ∈ inStage client (placements rules) stage,
        p.key client = q.key client → p.applies σ = q.applies σ := by
  intro p hp q hq hkey
  obtain ⟨hpmem, hpspelled, hpstage⟩ := mem_inStage.1 hp
  obtain ⟨hqmem, hqspelled, hqstage⟩ := mem_inStage.1 hq
  have hwritten := (Placement.key_eq_iff hpspelled hqspelled (hmade p hpmem) (hmade q hqmem)).1 hkey
  rw [Placement.applies, Placement.applies, hpstage, hqstage, hwritten]

/-- Lines of the fallback have keys of their own. -/
theorem key_ne_of_fallback {client : LineClient} {rules : List RouteRule}
    (hmade : ∀ p ∈ placements rules, p.condition.IsMade) {p q : Placement} {stage : LineStage}
    (hp : p ∈ inStage client (placements rules) stage) (hstage : stage ≠ .fallback)
    (hq : q ∈ inStage client (placements rules) .fallback) : p.key client ≠ q.key client := by
  obtain ⟨hpmem, hpspelled, hpstage⟩ := mem_inStage.1 hp
  obtain ⟨hqmem, hqspelled, hqstage⟩ := mem_inStage.1 hq
  intro hkey
  have hwritten := (Placement.key_eq_iff hpspelled hqspelled (hmade p hpmem) (hmade q hqmem)).1 hkey
  have hfallback : ∀ r : Placement, r.stage = .fallback ↔ r.condition.kind = .matchAll := by
    intro r
    unfold Placement.stage Condition.stage
    split
    next hkind => simp [hkind]
    next hkind => split <;> simp [hkind]
  have hkind := Condition.written_matchAll_iff.2 ((hfallback q).1 hqstage)
  rw [← hwritten] at hkind
  exact hstage (hpstage ▸ (hfallback p).2 (Condition.written_matchAll_iff.1 hkind))

/-- A line that resolves is shadowed when its key was met among the lines without resolution. -/
theorem isShadowed_iff {client : LineClient} {rules : List RouteRule}
    (hmade : ∀ p ∈ placements rules, p.condition.IsMade) {p : Placement}
    (hp : p ∈ inStage client (placements rules) .resolving) :
    p.isShadowed client rules = true ↔
      p.key client ∈ (inStage client (placements rules) .direct).map (Placement.key client) := by
  obtain ⟨hmem, hspelled, hstage⟩ := mem_inStage.1 hp
  simp only [Placement.isShadowed, hstage, decide_true, Bool.true_and, List.any_eq_true,
    decide_eq_true_eq, List.mem_map]
  refine exists_congr fun q => and_congr_right fun hq => ?_
  obtain ⟨hqmem, hqspelled, _⟩ := mem_inStage.1 hq
  exact (Placement.key_eq_iff hqspelled hspelled (hmade q hqmem) (hmade p hmem)).symm

/-- Only lines that resolve are shadowed. -/
theorem isShadowed_eq_false {client : LineClient} {rules : List RouteRule} {p : Placement}
    (h : p.stage ≠ .resolving) : p.isShadowed client rules = false := by
  rw [Placement.isShadowed, decide_eq_false h, Bool.false_and]

/-- All lines, stage after stage. -/
theorem inStages_eq_append (client : LineClient) (items : List Placement) :
    inStages client items =
      inStage client items .direct ++
        (inStage client items .resolving ++ inStage client items .fallback) := by
  simp [inStages, LineStage.all]

/-- The first of the kept lines that matches is the first line that does, when the shadowed ones are
passed over. -/
theorem find?_keptPlacements {client : LineClient} {rules : List RouteRule}
    (hmade : ∀ p ∈ placements rules, p.condition.IsMade) (σ : Sight) :
    (keptPlacements client rules).find? (Placement.applies σ) =
      ((inStages client (placements rules)).filter fun p =>
        !p.isShadowed client rules).find? (Placement.applies σ) := by
  have hsame := fun stage => applies_eq_of_key_eq client σ hmade stage
  rw [keptPlacements, inStages_eq_append, firstOf_append, firstOf_append, List.find?_append,
    List.find?_append, find?_firstOf (hsame .direct), find?_firstOf (hsame .resolving),
    find?_firstOf (hsame .fallback), List.find?_filter, List.find?_append, List.find?_append]
  congr 1
  · refine List.find?_congr fun p hp => ?_
    rw [isShadowed_eq_false (by rw [(mem_inStage.1 hp).2.2]; nofun)]
    simp
  congr 1
  · refine List.find?_congr fun p hp => ?_
    have hshadowed := isShadowed_iff hmade hp
    rw [List.append_nil]
    by_cases hkey : p.key client ∈
        (inStage client (placements rules) .direct).map (Placement.key client)
    · simp [hkey, hshadowed.2 hkey]
    · rw [eq_false_of_ne_true fun h => hkey (hshadowed.1 h)]
      simp [hkey]
  · refine List.find?_congr fun p hp => ?_
    have hnew : p.key client ∉
        (inStage client (placements rules) .resolving).map (Placement.key client) ++
          ((inStage client (placements rules) .direct).map (Placement.key client) ++ []) := by
      simp only [List.append_nil, List.mem_append, List.mem_map]
      rintro (⟨q, hq, hkey⟩ | ⟨q, hq, hkey⟩)
      · exact key_ne_of_fallback hmade hq (by nofun) hp hkey
      · exact key_ne_of_fallback hmade hq (by nofun) hp hkey
    rw [isShadowed_eq_false (by rw [(mem_inStage.1 hp).2.2]; nofun), decide_eq_true hnew]
    simp

/-! ## All lines -/

/-- When the first line that matches is not shadowed, it is still the first one without the shadowed
lines. -/
theorem find?_filter_of_kept {α : Type} {keep truth : α → Bool} {items : List α}
    (h : ∀ a, items.find? truth = some a → keep a = true) :
    (items.filter keep).find? truth = items.find? truth := by
  induction items with
  | nil => rfl
  | cons a rest ih =>
    by_cases htruth : truth a = true
    · have hkeep := h a (List.find?_cons_of_pos htruth)
      rw [List.filter_cons_of_pos hkeep, List.find?_cons_of_pos htruth,
        List.find?_cons_of_pos htruth]
    · rw [List.find?_cons_of_neg htruth] at h ⊢
      rw [List.filter_cons]
      split
      · rw [List.find?_cons_of_neg htruth, ih h]
      · exact ih h

/-- A connection that passes one test, and only after its address was looked up. -/
def Sight.onlyAfter (test : Kind × Option String) : Sight :=
  ⟨fun _ => false, fun t => t = test, nofun⟩

/-- A connection that passes the test of a shadowed line only after its address was looked up is
matched by a shadowed line first. -/
theorem find?_onlyAfter {client : LineClient} {rules : List RouteRule} {p : Placement}
    (hp : p ∈ inStages client (placements rules)) (hshadowed : p.isShadowed client rules = true) :
    ∃ q, (inStages client (placements rules)).find?
        (Placement.applies (.onlyAfter p.condition.written)) = some q ∧
      q.isShadowed client rules = true := by
  have hstage : p.stage = .resolving := of_decide_eq_true (Bool.and_eq_true_iff.1 hshadowed).1
  obtain ⟨hmem, hspelled⟩ := mem_inStages.1 hp
  have hresolving : p ∈ inStage client (placements rules) .resolving :=
    mem_inStage.2 ⟨hmem, hspelled, hstage⟩
  have hdirect : (inStage client (placements rules) .direct).find?
      (Placement.applies (.onlyAfter p.condition.written)) = none := by
    rw [List.find?_eq_none]
    intro q hq
    simp [Placement.applies, (mem_inStage.1 hq).2.2, Sight.onlyAfter]
  have hsome : ((inStage client (placements rules) .resolving).find?
      (Placement.applies (.onlyAfter p.condition.written))).isSome = true :=
    List.find?_isSome.2 ⟨p, hresolving, by simp [Placement.applies, hstage, Sight.onlyAfter]⟩
  obtain ⟨q, hq⟩ := Option.isSome_iff_exists.1 hsome
  refine ⟨q, by rw [inStages_eq_append, List.find?_append, hdirect, List.find?_append, hq]; rfl, ?_⟩
  have hqstage := (mem_inStage.1 (List.mem_of_find?_eq_some hq)).2.2
  have hwritten : q.condition.written = p.condition.written := by
    have happlies := List.find?_some hq
    simpa [Placement.applies, hqstage, Sight.onlyAfter] using happlies
  simpa [Placement.isShadowed, hstage, hqstage, hwritten] using hshadowed

/-- How the lines that are kept decide about connections, compared with all lines. -/
structure KeepsChoices (client : LineClient) (rules : List RouteRule)
    (rendered : RenderedRules) : Prop where
  lines_eq : rendered.lines = (keptPlacements client rules).map (Placement.line client)
  /-- Every connection is sent to where all lines but the shadowed ones send it. -/
  chosen_eq : ∀ σ, chosen σ (keptPlacements client rules) =
    chosen σ ((inStages client (placements rules)).filter fun p => !p.isShadowed client rules)
  /-- That is where all lines send it, unless a shadowed line is the first one that matches. -/
  chosen_eq_all : ∀ σ,
    (∀ p, (inStages client (placements rules)).find? (Placement.applies σ) = some p →
      p.isShadowed client rules = false) →
    chosen σ (keptPlacements client rules) = chosen σ (inStages client (placements rules))
  /-- All connections are matched by the line that matched them among all lines exactly when no line
  is shadowed. -/
  same_line_iff : (∀ σ, (keptPlacements client rules).find? (Placement.applies σ) =
      (inStages client (placements rules)).find? (Placement.applies σ)) ↔
    ∀ p ∈ inStages client (placements rules), p.isShadowed client rules = false

/-- The lines that are kept decide like all lines, save about connections of which a shadowed line
would be the first one that matches. -/
theorem keepsChoices_of_ofRules (client : LineClient) {rules : List RouteRule}
    (hmade : ∀ rule ∈ rules, ∀ c ∈ rule.conditions, c.IsMade) {rendered : RenderedRules}
    (hok : RenderedRules.ofRules client rules = .ok rendered) :
    KeepsChoices client rules rendered := by
  have hall : ∀ p ∈ placements rules, p.condition.IsMade := by
    intro p hp
    obtain ⟨rule, hrule, hp⟩ := List.mem_flatMap.1 hp
    obtain ⟨c, hc, rfl⟩ := List.mem_map.1 hp
    exact hmade rule hrule c hc
  have hfirst : ∀ σ, (∀ p, (inStages client (placements rules)).find?
        (Placement.applies σ) = some p → p.isShadowed client rules = false) →
      (keptPlacements client rules).find? (Placement.applies σ) =
        (inStages client (placements rules)).find? (Placement.applies σ) := by
    intro σ h
    rw [find?_keptPlacements hall]
    exact find?_filter_of_kept fun p hp => by rw [h p hp]; rfl
  refine ⟨?_, fun σ => ?_, fun σ h => ?_, fun h p hp => ?_, fun h σ => ?_⟩
  · rw [RenderedRules.ofRules_eq] at hok
    split at hok
    next => cases hok
    next => exact congrArg RenderedRules.lines (Except.ok.inj hok).symm
  · rw [chosen, chosen, find?_keptPlacements hall]
  · rw [chosen, chosen, hfirst σ h]
  · by_contra hshadowed
    obtain ⟨q, hq, hqshadowed⟩ := find?_onlyAfter hp (by simpa using hshadowed)
    have hkept := h (.onlyAfter p.condition.written)
    rw [hq, find?_keptPlacements hall] at hkept
    have hmem := List.mem_of_find?_eq_some hkept
    simp [hqshadowed] at hmem
  · exact hfirst σ fun p hp => h p (List.mem_of_find?_eq_some hp)

/-- Addresses with and without resolution in two rules, a domain in both, and a fallback. -/
def mixedLines : List RouteRule :=
  [⟨.outbound "A", [.on .geoIp "CN" (some true), .on .domain "a.com" none, .always]⟩,
    ⟨.reject, [.on .geoIp "CN" (some false), .on .domainListItem "a.com" none,
      .on .ipCidr "1.0.0.0/8" (some true)]⟩]

theorem keepsChoices_mixedLines :
    (∀ rule ∈ mixedLines, ∀ c ∈ rule.conditions, c.IsMade) ∧
      ∃ rendered, RenderedRules.ofRules .clash mixedLines = .ok rendered ∧
        KeepsChoices .clash mixedLines rendered := by
  have hmade : ∀ rule ∈ mixedLines, ∀ c ∈ rule.conditions, c.IsMade := by
    simp only [mixedLines, List.forall_mem_cons]
    exact ⟨⟨Condition.isMade_of_make rfl, Condition.isMade_of_make rfl, .always, nofun⟩,
      ⟨Condition.isMade_of_make rfl, Condition.isMade_of_make rfl, Condition.isMade_of_make rfl,
        nofun⟩, nofun⟩
  exact ⟨hmade, _, rfl, keepsChoices_of_ofRules .clash hmade rfl⟩

/-- An address without resolution and, for another destination, with it. -/
def twoFormRules : List RouteRule :=
  [⟨.outbound "C", [.on .ipCidr "1.0.0.0/8" (some false)]⟩,
    ⟨.outbound "D", [.on .ipCidr "1.0.0.0/8" (some true)]⟩]

/-- A connection whose address is known only after it was looked up loses its destination. -/
theorem chosen_twoFormRules_changes :
    (∀ rule ∈ twoFormRules, ∀ c ∈ rule.conditions, c.IsMade) ∧
      RenderedRules.ofRules .clash twoFormRules =
        .ok { lines := ["IP-CIDR,1.0.0.0/8,C,no-resolve"], duplicates := 1, unsupported := 0 } ∧
      ∃ σ, chosen σ (keptPlacements .clash twoFormRules) = none ∧
        chosen σ (inStages .clash (placements twoFormRules)) = some (.outbound "D") := by
  refine ⟨?_, rfl, .onlyAfter (.ipCidr, some "1.0.0.0/8"), rfl, rfl⟩
  simp only [twoFormRules, List.forall_mem_cons]
  exact ⟨⟨Condition.isMade_of_make rfl, nofun⟩, ⟨Condition.isMade_of_make rfl, nofun⟩, nofun⟩

end RoutingRules
