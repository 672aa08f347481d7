import RoutingRules.Proofs.Files.Tree
import RoutingRules.Proofs.SortedMap
import RoutingRules.Proofs.World
import RoutingRules.Run.Target

/-!
# New names of destinations

A target gives destinations new names, one after another in the order of the old names.  A new name
that is itself an old name further down is replaced again, and one further up stays.  So the order
of the names decides where a chain of them leads.

Main results:

- Theorem {lit}`Destination.renameAll_eq_iff`: where replacements one after another lead a name.
- Theorem {lit}`Destination.renameAll_eq_substitute_iff`: when that is where replacing all names at
  the same time leads it.
- Theorem {lit}`Run.writeTarget_leads`: both for the rules that are written for a target.
-/

namespace RoutingRules

/-! ## Later keys -/

namespace SortedMap

variable {α : Type}

/-- The entries behind a key. -/
def after (m : SortedMap α) (key : String) : SortedMap α :=
  ⟨m.entries.filter fun e => key < e.1, List.Pairwise.filter _ m.sorted⟩

/-- A map without its first entry is what is behind any key that stands where this entry does. -/
theorem after_cons_of_le {first : String × α} {rest : List (String × α)}
    (hs : KeysIncrease (first :: rest)) {key : String} (h : ¬key < first.1) :
    (⟨first :: rest, hs⟩ : SortedMap α).after key =
      (⟨rest, hs.of_cons⟩ : SortedMap α).after key := by
  have hdropped : (first :: rest).filter (fun e => key < e.1) = rest.filter fun e => key < e.1 :=
    List.filter_cons_of_neg fun hbehind => h (of_decide_eq_true hbehind)
  exact ext hdropped

/-- What is behind the first key of a map is all of the others. -/
theorem after_cons_self {first : String × α} {rest : List (String × α)}
    (hs : KeysIncrease (first :: rest)) :
    (⟨first :: rest, hs⟩ : SortedMap α).after first.1 = ⟨rest, hs.of_cons⟩ := by
  rw [after_cons_of_le hs (String.lt_irrefl _)]
  have hkept : rest.filter (fun e => first.1 < e.1) = rest := List.filter_eq_self.2 fun e he =>
    decide_eq_true ((List.pairwise_cons.1 hs).1 e he)
  exact ext hkept

end SortedMap

/-! ## Chains of names -/

/-- Where replacements lead a name: a name that is not replaced stays, and of a new name only the
replacements of later names count. -/
inductive LeadsTo : SortedMap String → String → String → Prop
  | stays {renames : SortedMap String} {name : String} (h : renames.get? name = none) :
    LeadsTo renames name name
  | replaced {renames : SortedMap String} {name new last : String}
    (h : renames.get? name = some new) (hlast : LeadsTo (renames.after name) new last) :
    LeadsTo renames name last

/-- Replacements lead a name to one name only. -/
theorem LeadsTo.unique {renames : SortedMap String} {name last other : String}
    (h : LeadsTo renames name last) (ho : LeadsTo renames name other) : last = other := by
  induction h with
  | stays hnone =>
    cases ho with
    | stays => rfl
    | replaced hsome => simp [hnone] at hsome
  | replaced hsome _ ih =>
    cases ho with
    | stays hnone => simp [hnone] at hsome
    | replaced hother hlast =>
      obtain rfl : _ = _ := Option.some.inj (hsome.symm.trans hother)
      exact ih hlast

/-- A name with a new one goes where later replacements lead the new one. -/
theorem leadsTo_iff_of_some {renames : SortedMap String} {name new last : String}
    (hget : renames.get? name = some new) :
    LeadsTo renames name last ↔ LeadsTo (renames.after name) new last := by
  refine ⟨fun h => ?_, .replaced hget⟩
  cases h with
  | stays hnone => simp [hget] at hnone
  | replaced hsome hlast =>
    obtain rfl : new = _ := Option.some.inj (hget.symm.trans hsome)
    exact hlast

namespace Destination

/-- Replace the name by its new name, all names at the same time. -/
def substitute (renames : SortedMap String) : Destination → Destination
  | outbound name => outbound ((renames.get? name).getD name)
  | reject => reject

@[simp] theorem renameAll_reject (renames : List (String × String)) :
    reject.renameAll renames = reject := by
  induction renames with
  | nil => rfl
  | cons r renames ih => exact ih

/-- Replacements one after another lead a name to another one. -/
theorem exists_leadsTo (renames : SortedMap String) (name : String) :
    ∃ last, LeadsTo renames name last ∧
      (outbound name).renameAll renames.entries = outbound last := by
  obtain ⟨entries, hs⟩ := renames
  induction entries generalizing name with
  | nil => exact ⟨name, .stays rfl, rfl⟩
  | cons r rest ih =>
    obtain ⟨key, new⟩ := r
    by_cases hname : name = key
    · subst hname
      obtain ⟨last, hlast, hrenamed⟩ := ih new hs.of_cons
      have hget : (⟨(name, new) :: rest, hs⟩ : SortedMap String).get? name = some new := by
        simp [SortedMap.get?, SortedMap.lookupEntry]
      refine ⟨last, .replaced hget ?_, ?_⟩
      · rwa [SortedMap.after_cons_self hs]
      · rw [← hrenamed]
        simp [renameAll, rename]
    · obtain ⟨last, hlast, hrenamed⟩ := ih name hs.of_cons
      have hget : (⟨(key, new) :: rest, hs⟩ : SortedMap String).get? name =
          (⟨rest, hs.of_cons⟩ : SortedMap String).get? name := by
        simp [SortedMap.get?, SortedMap.lookupEntry, hname]
      refine ⟨last, ?_, ?_⟩
      · cases hlast with
        | stays hnone => exact .stays (hget.trans hnone)
        | replaced hsome hlast =>
          -- A name that is replaced further down is not in front of the first one.
          have hlater : key < name :=
            (List.pairwise_cons.1 hs).1 _ (SortedMap.mem_entries_iff.2 hsome)
          refine .replaced (hget.trans hsome) ?_
          rwa [SortedMap.after_cons_of_le hs fun hearlier =>
            String.lt_irrefl _ (String.lt_trans hlater hearlier)]
      · rw [← hrenamed]
        simp [renameAll, rename, hname]

/-- Where replacements one after another lead a name. -/
theorem renameAll_eq_iff {renames : SortedMap String} {name last : String} :
    (outbound name).renameAll renames.entries = outbound last ↔ LeadsTo renames name last := by
  obtain ⟨other, hother, hrenamed⟩ := exists_leadsTo renames name
  rw [hrenamed, outbound.injEq]
  constructor
  · rintro rfl
    exact hother
  · exact hother.unique

/-- Replacements one after another are replacements at the same time for a name whose new name is
not replaced again by another one: it is no later name, or its own chain comes back to it. -/
theorem renameAll_eq_substitute_iff {renames : SortedMap String} {name : String} :
    (outbound name).renameAll renames.entries = (outbound name).substitute renames ↔
      ∀ new, renames.get? name = some new → LeadsTo (renames.after name) new new := by
  rw [substitute, renameAll_eq_iff]
  cases hget : renames.get? name with
  | none => exact ⟨fun _ => nofun, fun _ => LeadsTo.stays hget⟩
  | some new =>
    rw [Option.getD_some, leadsTo_iff_of_some hget]
    constructor
    · rintro h _ ⟨⟩
      exact h
    · exact fun h => h new rfl

end Destination

/-! ## Rules of a target -/

namespace RouteRule

/-- Replace the name of the destination by its new name, all names at the same time. -/
def substitute (renames : SortedMap String) (rule : RouteRule) : RouteRule :=
  { rule with destination := rule.destination.substitute renames }

/-- A rule with the name to which replacements lead that of its destination. -/
structure IsRenamed (renames : SortedMap String) (rule made : RouteRule) : Prop where
  conditions : made.conditions = rule.conditions
  reject : rule.destination = .reject → made.destination = .reject
  outbound : ∀ name, rule.destination = .outbound name →
    ∃ last, LeadsTo renames name last ∧ made.destination = .outbound last

theorem isRenamed_renameAll (renames : SortedMap String) (rule : RouteRule) :
    IsRenamed renames rule (rule.renameAll renames.entries) := by
  refine ⟨rfl, fun h => ?_, fun name h => ?_⟩
  · rw [renameAll, h, Destination.renameAll_reject]
  · rw [renameAll, h]
    exact Destination.exists_leadsTo renames name

/-- Replacements one after another are replacements at the same time for a rule whose new name is not
replaced again by another one. -/
theorem renameAll_eq_substitute_iff {renames : SortedMap String} {rule : RouteRule} :
    rule.renameAll renames.entries = rule.substitute renames ↔
      ∀ name new, rule.destination = .outbound name → renames.get? name = some new →
        LeadsTo (renames.after name) new new := by
  obtain ⟨destination, conditions⟩ := rule
  simp only [renameAll, substitute, mk.injEq, and_true]
  cases destination with
  | reject => simp [Destination.substitute]
  | outbound name =>
    rw [Destination.renameAll_eq_substitute_iff]
    constructor
    · rintro h _ new ⟨⟩ hnew
      exact h new hnew
    · exact fun h new => h name new rfl

end RouteRule

namespace Run

variable {σ : Type}

/-- Write a target with rules whose destinations have their names for it. -/
def writeRules (run : Run σ) (rules : List RouteRule) (t : Config.Target) :
    Task RunError σ TargetReport :=
  match LineClient.ofClient? t.client with
  | some client => run.writeLines client t rules
  | none => run.writeDocument t rules

/-- A target is written with the rules in order and with their conditions, and the name of each
destination is the one to which the replacements one after another lead it.  These are the rules
with all names replaced at the same time exactly when no new name of a destination is replaced
again by another one. -/
theorem writeTarget_leads (run : Run σ) (rules : List RouteRule) (t : Config.Target) :
    ∃ made, run.writeTarget rules t = run.writeRules made t ∧
      List.Forall₂ (RouteRule.IsRenamed t.effectiveRenames) rules made ∧
      (made = rules.map (RouteRule.substitute t.effectiveRenames) ↔
        ∀ rule ∈ rules, ∀ name new, rule.destination = .outbound name →
          t.effectiveRenames.get? name = some new →
          LeadsTo (t.effectiveRenames.after name) new new) := by
  refine ⟨rules.map (RouteRule.renameAll t.effectiveRenames.entries), rfl, ?_, ?_⟩
  · rw [List.forall₂_map_right_iff, List.forall₂_same]
    exact fun rule _ => RouteRule.isRenamed_renameAll _ rule
  · rw [List.map_inj_left]
    exact forall₂_congr fun _ _ => RouteRule.renameAll_eq_substitute_iff

/-- A target in which one new name is the next old name. -/
def chainedTarget : Config.Target :=
  { name := "lines"
    client := .clash
    file := none
    renames := .ofList [("A", "B"), ("B", "C")]
    options := []
    singBox := .standard }

/-- A run without documents. -/
def chainedRun : Run Unit :=
  ⟨⟨["A"], [], []⟩, ⟨"rules.yaml", "/out", [], false⟩, "# H", fun _ => .ofDocuments .empty⟩

/-- A rule to the first of the names. -/
def chainedRules : List RouteRule :=
  [⟨.outbound "A", [.on .domain "a.com" none]⟩]

/-- The first name is replaced twice, while replacing all names at the same time replaces it once. -/
theorem writeTarget_chainedTarget_renames_twice :
    ∃ report after report' after',
      (chainedRun.writeTarget chainedRules chainedTarget).Yields ⟨⟨[], []⟩, (), []⟩ report after ∧
      (chainedRun.writeRules
        (chainedRules.map (RouteRule.substitute chainedTarget.effectiveRenames))
          chainedTarget).Yields ⟨⟨[], []⟩, (), []⟩ report' after' ∧
      after.files.contentAt? ["out", "lines.yaml"] =
        some (.text "# H\nrules:\n- DOMAIN,a.com,C\n") ∧
      after'.files.contentAt? ["out", "lines.yaml"] =
        some (.text "# H\nrules:\n- DOMAIN,a.com,B\n") := by
  obtain ⟨report, after, hyields, htwice⟩ := Task.exists_of_yieldsWith (show
    (chainedRun.writeTarget chainedRules chainedTarget).yieldsWith ⟨⟨[], []⟩, (), []⟩
      (fun _ after => after.files.contentAt? ["out", "lines.yaml"] =
        some (.text "# H\nrules:\n- DOMAIN,a.com,C\n")) = true by decide +kernel)
  obtain ⟨report', after', hyields', honce⟩ := Task.exists_of_yieldsWith (show
    (chainedRun.writeRules
      (chainedRules.map (RouteRule.substitute chainedTarget.effectiveRenames))
        chainedTarget).yieldsWith ⟨⟨[], []⟩, (), []⟩
      (fun _ after => after.files.contentAt? ["out", "lines.yaml"] =
        some (.text "# H\nrules:\n- DOMAIN,a.com,B\n")) = true by decide +kernel)
  exact ⟨report, after, report', after', hyields, hyields', of_decide_eq_true htwice,
    of_decide_eq_true honce⟩

end Run

end RoutingRules
