import RoutingRules.Filter.Resolve
import RoutingRules.Proofs.Condition.Literal

/-!
# Single conditions

A single condition is a filter in two forms: a rule on its own, which has commas between its fields,
or a description with a type, which is the word of the rule, and with arguments, which are the value
and perhaps a mark.  The two are read in different ways.  A rule is cut at its commas and the blanks
around each field are cut off, while arguments stay as they are until the condition is built, and a
mark among them may also be a truth value.

Main results:

- Theorem {lit}`Condition.make_trim` and {lit}`Kind.refine_trim`: blanks around a value do not matter.
- Theorem {lit}`Condition.isField_of_readMark`: a mark stands alone between its commas.
- Theorem {lit}`Filter.Source.condition_eq_ofLiteral`: both forms give one condition, or one error.
- Theorem {lit}`Filter.conditions_source_eq_literal`: the same of the conditions of filters.
-/

namespace RoutingRules

/-! ## Blanks around values -/

/-- Blanks around a value do not matter for the family of its network. -/
theorem Kind.refine_trim (kind : Kind) (token value : String) :
    kind.refine token (Text.trim value) = kind.refine token value := by
  have htrim : Text.trimChars (Text.trim value).toList = Text.trimChars value.toList := by
    rw [Text.trim, String.toList_ofList, Text.trimChars_of_trimmed (Text.trimmed_trimChars _)]
  unfold refine
  rw [htrim]

namespace Condition

/-- Blanks around a value do not matter for what is built. -/
theorem make_trim (kind : Kind) (value : String) (mark : Option Bool) :
    make kind (Text.trim value) mark = make kind value mark := by
  unfold make
  rw [Text.trim_trim]

/-! ## Marks -/

/-- Blanks and commas stay as they are in lowercase. -/
theorem lowerChar_of_separator {c : Char} (h : c = ',' ∨ Text.isBlank c = true) :
    Text.lowerChar c = c := by
  have hcapital : ¬ (c.val ≥ 'A'.val ∧ c.val ≤ 'Z'.val) := by
    rintro ⟨hlow, hhigh⟩
    have hlow : 65 ≤ c.toNat := UInt32.le_iff_toNat_le.1 hlow
    have hhigh : c.toNat ≤ 90 := UInt32.le_iff_toNat_le.1 hhigh
    rcases h with rfl | hblank
    · contradiction
    · unfold Text.isBlank at hblank
      grind
  have hkelvin : c ≠ Char.ofNat 0x212A := by
    rintro rfl
    revert h
    decide
  rw [Text.lowerChar, if_neg hkelvin]
  exact dif_neg hcapital

/-- A mark stands alone between its commas. -/
theorem isField_of_readMark {word : String} {mark : Bool} (h : readMark word = some mark) :
    IsField word := by
  have hlower : Text.lower word.toList = noResolve.toList ∨
      Text.lower word.toList = "resolve".toList := by
    unfold readMark at h
    dsimp only at h
    split at h
    next hno => exact .inl hno
    next =>
      split at h
      next hyes => exact .inr hyes
      next => cases h
  -- A separator in the word would be one in its lowercase form, which has none.
  have hnone : (noResolve.toList ++ "resolve".toList).all
      (fun c => c ≠ ',' && !Text.isBlank c) = true := by
    decide
  have hplain : ∀ c ∈ word.toList, ¬ (c = ',' ∨ Text.isBlank c = true) := by
    intro c hc hseparator
    have hmem : c ∈ Text.lower word.toList :=
      List.mem_map.2 ⟨c, hc, lowerChar_of_separator hseparator⟩
    have hmem : c ∈ noResolve.toList ++ "resolve".toList := by
      rw [List.mem_append]
      rcases hlower with hlower | hlower
      · exact .inl (hlower ▸ hmem)
      · exact .inr (hlower ▸ hmem)
    have hc := List.all_eq_true.1 hnone c hmem
    rcases hseparator with rfl | hblank
    · simp at hc
    · simp [hblank] at hc
  constructor
  · intro hcomma
    exact hplain _ hcomma (.inl rfl)
  · apply Text.trim_of_not_blank
    intro c hc
    exact eq_false_of_ne_true fun hblank => hplain c hc (.inr hblank)

end Condition

/-! ## Arguments -/

namespace Filter

/-- Arguments that are a value, or a list of a value and perhaps a mark, with the marks that a rule
with this value has behind it.  A mark is the same word, or what the word stands for. -/
inductive ArgsSay (value : String) : Yaml → List String → Prop
  | value : ArgsSay value (.str value) []
  | list : ArgsSay value (.seq [.str value]) []
  | word {word : String} {mark : Bool} (h : Condition.readMark word = some mark) :
      ArgsSay value (.seq [.str value, .str word]) [word]
  | truth {word : String} {mark : Bool} (h : Condition.readMark word = some mark) :
      ArgsSay value (.seq [.str value, .bool mark]) [word]

variable {s : Source} {value : String} {args : Yaml} {marks : List String}

/-- The marks behind a value stand alone between their commas. -/
theorem ArgsSay.isField (h : ArgsSay value args marks) : ∀ word ∈ marks, IsField word := by
  intro word hword
  cases h with
  | value => cases hword
  | list => cases hword
  | word hread =>
    obtain rfl := List.mem_singleton.1 hword
    exact Condition.isField_of_readMark hread
  | truth hread =>
    obtain rfl := List.mem_singleton.1 hword
    exact Condition.isField_of_readMark hread

/-- Arguments are read as the value and the mark of a rule that has the same behind its word. -/
theorem ArgsSay.exists_readArgs (h : ArgsSay value args marks) (hargs : s.args = some args) :
    ∃ mark, s.readArgs = .ok (value, mark) ∧
      ∀ literal field, Condition.literalArgs literal (field :: marks) = .ok (field, mark) := by
  unfold Source.readArgs
  rw [hargs]
  cases h with
  | value => exact ⟨none, rfl, fun _ _ => rfl⟩
  | list => exact ⟨none, rfl, fun _ _ => rfl⟩
  | @word word mark hword =>
    have hread : s.readMark (some (.str word)) = .ok (some mark) := by
      have htext : Condition.readMark ((Yaml.str word).scalarText?.getD "") = some mark := hword
      simp only [Source.readMark, htext]
    refine ⟨some mark, ?_, ?_⟩
    · exact Except.bind_eq_ok_iff.2 ⟨value, rfl, Except.bind_eq_ok_iff.2 ⟨_, hread, rfl⟩⟩
    · intro literal field
      simp only [Condition.literalArgs, hword]
  | @truth word mark hword =>
    refine ⟨some mark, rfl, ?_⟩
    intro literal field
    simp only [Condition.literalArgs, hword]

/-! ## Both forms -/

/-- A description of a single condition gives what the rule with the same fields gives. -/
theorem Source.condition_eq_ofLiteral (htype : IsField s.type)
    (hall : Kind.lookup s.type ≠ .ok .matchAll) (hmark : s.mark = none)
    (hargs : s.args = some args) (hvalue : ',' ∉ value.toList) (h : ArgsSay value args marks) :
    s.condition = Condition.ofLiteral (Text.joinWith "," (s.type :: value :: marks)) := by
  have hfields : Condition.fieldsOf (Text.joinWith "," (s.type :: value :: marks)) =
      (s.type, Text.trim value :: marks) := by
    have hcommas : ∀ field ∈ s.type :: value :: marks, ',' ∉ field.toList := by
      simp only [List.forall_mem_cons]
      exact ⟨htype.comma, hvalue, fun word hword => (h.isField word hword).comma⟩
    rw [Condition.fieldsOf_joinWith_trim hcommas, htype.trim, List.map_cons,
      Condition.map_trim_of_isField h.isField]
  obtain ⟨mark, hread, hliteral⟩ := h.exists_readArgs hargs
  unfold Source.condition Condition.ofLiteral
  rw [hfields]
  dsimp only
  cases hlookup : Kind.lookup s.type with
  | error e => rfl
  | ok kind =>
    have hkind : kind ≠ .matchAll := by
      rintro rfl
      exact hall hlookup
    simp only [bind, Except.bind, if_neg hkind, hread, hliteral, hmark, Option.or_none]
    rw [Kind.refine_trim, Condition.make_trim]

variable {σ : Type} {fetch : Fetcher σ} {forDns : Bool} {filter : Filter}

/-- A filter that gives a single condition gives it, or nothing when the condition cannot decide
about name queries and has to. -/
theorem conditions_of_single {result : Result Condition}
    (h : filter.allConditions fetch = do
      let c ← result
      return [c]) :
    filter.conditions fetch forDns = do
      let c ← result
      return if forDns then [c].filter fun c => c.kind.isDnsCompatible else [c] := by
  unfold conditions
  rw [h]
  simp only [bind_assoc, pure_bind, List.cons_ne_nil, if_false]

/-- A description whose type is no type of lists and no word for the condition that holds always
gives the same condition as the rule that has the type, the value and the mark as its fields, or
the same error.  The value may be anything without commas, and the mark a word or a truth value. -/
theorem conditions_source_eq_literal (fetch : Fetcher σ) (forDns : Bool) (htype : IsField s.type)
    (hlist : ListType.ofName? s.type = none) (hall : Kind.lookup s.type ≠ .ok .matchAll)
    (hmark : s.mark = none) (hargs : s.args = some args) (hvalue : ',' ∉ value.toList)
    (h : ArgsSay value args marks) :
    conditions fetch forDns (.source s) =
        conditions fetch forDns (.literal (Text.joinWith "," (s.type :: value :: marks))) ∧
      conditions fetch false (.source s) = do
        let c ← Condition.ofLiteral (Text.joinWith "," (s.type :: value :: marks))
        return [c] := by
  have hcondition := s.condition_eq_ofLiteral htype hall hmark hargs hvalue h
  have hsource : (Filter.source s).allConditions fetch = do
      let c ← Condition.ofLiteral (Text.joinWith "," (s.type :: value :: marks))
      return [c] := by
    simp only [allConditions, Source.conditions, hlist, hcondition]
  constructor
  · rw [conditions_of_single hsource, conditions_of_single rfl]
  · exact conditions_of_single hsource

/-- The word for networks of both families, with blanks around a network of the later one and with a
mark in capital letters. -/
theorem conditions_source_eq_literal_network :
    ∃ s : Source, ofYaml (.map [(.str "type", .str "ip_cidr"),
        (.str "args", .seq [.str " 2001:db8::/32 ", .str "NO-Resolve"])]) = some (.source s) ∧
      ∀ fetch : Fetcher Unit,
        conditions fetch true (.source s) =
            conditions fetch true (.literal "ip_cidr, 2001:db8::/32 ,NO-Resolve") ∧
          conditions fetch false (.source s) =
            pure [.on .ipCidr6 "2001:db8::/32" (some false)] := by
  have htype : IsField "ip_cidr" := ⟨by decide, by decide⟩
  have hlookup : Kind.lookup "ip_cidr" = .ok .ipCidr :=
    Except.toOption_eq_some_iff.1 (by decide +kernel)
  have hall : Kind.lookup "ip_cidr" ≠ .ok .matchAll := by
    rw [hlookup]
    simp
  have hmark : Condition.readMark "NO-Resolve" = some false := by decide
  have hsays : ArgsSay " 2001:db8::/32 "
      (.seq [.str " 2001:db8::/32 ", .str "NO-Resolve"]) ["NO-Resolve"] :=
    .word hmark
  have hliteral : Condition.ofLiteral "ip_cidr, 2001:db8::/32 ,NO-Resolve" =
      .ok (.on .ipCidr6 "2001:db8::/32" (some false)) :=
    Except.toOption_eq_some_iff.1 (by decide +kernel)
  have hjoin : Text.joinWith "," ["ip_cidr", " 2001:db8::/32 ", "NO-Resolve"] =
      "ip_cidr, 2001:db8::/32 ,NO-Resolve" := by decide
  refine ⟨_, rfl, fun fetch => ?_⟩
  obtain ⟨hsame, hsingle⟩ := conditions_source_eq_literal (s := ⟨"ip_cidr", none, none, none, false,
    some (.seq [.str " 2001:db8::/32 ", .str "NO-Resolve"])⟩) fetch true htype rfl hall rfl rfl
    (by decide) hsays
  rw [hjoin] at hsame hsingle
  rw [hliteral] at hsingle
  exact ⟨hsame, hsingle⟩

end Filter

end RoutingRules
