import RoutingRules.Proofs.Condition.CanonicalValue
import RoutingRules.Proofs.Line.Fields

/-!
# Values as they are written

The value of a condition that can be built is not empty and has no blanks around it.  It is written
as it is in most cases.  A pattern over domains becomes a regular expression with an anchor at each
end, a range of ports has a colon in it, and an entry of a domain list loses what it starts with.

Only the last of these can leave nothing, or a blank in front: entries are checked as a whole, and
what stands behind their leading dot is not.

Main results:

- Definition {lit}`DomainPattern.hasGap`: the entries with nothing or a blank behind their dot.
- Theorem {lit}`Condition.isClean_written_iff`: which values of lines are clean.
- Theorem {lit}`Condition.isClean_singBoxField_iff`: which values of fields are clean.
- Theorem {lit}`Condition.isClean_iff_not_hasGap`: both put together for all clients.
-/

namespace RoutingRules

/-! ## Texts that are put together -/

namespace Text

/-- A text is clean when it has a first and a last character that are not blank. -/
theorem isClean_ofList_cons {c : Char} {cs : List Char} (hfirst : isBlank c = false)
    (hlast : ∀ d ∈ (c :: cs).getLast?, isBlank d = false) : IsClean (String.ofList (c :: cs)) := by
  refine ⟨by simp, ?_⟩
  rw [String.toList_ofList]
  refine ⟨?_, hlast⟩
  intro d hd
  obtain rfl := Option.some.inj hd
  exact hfirst

/-- A text between two characters that are not blank is clean together with them. -/
theorem isClean_ofList_between {first last : Char} {cs : List Char}
    (hfirst : isBlank first = false) (hlast : isBlank last = false) :
    IsClean (String.ofList (first :: cs ++ [last])) := by
  rw [List.cons_append]
  apply isClean_ofList_cons hfirst
  intro d hd
  rw [← List.cons_append, List.getLast?_append_cons] at hd
  obtain rfl := Option.some.inj hd
  exact hlast

/-- What is behind the front of a text without blanks around it is clean, unless it is empty or has
a blank in front. -/
theorem isClean_behind_iff (front : List Char) {name : List Char} (h : Trimmed (front ++ name)) :
    IsClean (String.ofList name) ↔ name.head?.all isBlank = false := by
  cases name with
  | nil =>
    refine iff_of_false ?_ (by simp)
    intro hclean
    exact hclean.ne_empty rfl
  | cons c name =>
    simp only [List.head?_cons, Option.all_some]
    constructor
    · intro hclean
      apply hclean.trimmed.1 c
      simp [String.toList_ofList]
    · intro hfirst
      apply isClean_ofList_cons hfirst
      intro d hd
      apply h.2 d
      rw [List.getLast?_append_cons]
      exact hd

end Text

/-! ## Entries of domain lists -/

namespace DomainPattern

variable {entry name pattern : String}

/-- Whether an entry of a domain list has nothing, or a blank, behind the dot that it starts with.
A pattern keeps what it starts with. -/
def hasGap (entry : String) : Bool :=
  '*' ∉ entry.toList &&
    match entry.toList with
    | '+' :: '.' :: name => name.head?.all Text.isBlank
    | '.' :: name => name.head?.all Text.isBlank
    | _ => false

/-- A name with what is below it is clean, unless its entry has a gap. -/
theorem isClean_of_suffix_iff (hclean : Text.IsClean entry) (h : read entry = .suffix name) :
    Text.IsClean name ↔ hasGap entry = false := by
  have htrimmed := hclean.trimmed
  unfold read at h
  unfold hasGap
  split at h
  next => cases h
  next hstar =>
    split at h
    next rest hentry =>
      obtain rfl := DomainPattern.suffix.inj h
      rw [hentry] at htrimmed hstar ⊢
      rw [Text.isClean_behind_iff ['+', '.'] htrimmed]
      simp [hstar]
    next rest hentry =>
      obtain rfl := DomainPattern.suffix.inj h
      rw [hentry] at htrimmed hstar ⊢
      rw [Text.isClean_behind_iff ['.'] htrimmed]
      simp [hstar]
    next => cases h

/-- A pattern is the whole entry, which has no gap. -/
theorem eq_of_wildcard (h : read entry = .wildcard pattern) :
    pattern = entry ∧ hasGap entry = false := by
  unfold read at h
  split at h
  next hstar =>
    refine ⟨(DomainPattern.wildcard.inj h).symm, ?_⟩
    simp [hasGap, hstar]
  next => split at h <;> cases h

/-- A domain is the whole entry, which has no gap. -/
theorem eq_of_exact (h : read entry = .exact name) : name = entry ∧ hasGap entry = false := by
  unfold read at h
  split at h
  next => cases h
  next =>
    split at h
    next => cases h
    next => cases h
    next hplus hdot =>
      refine ⟨(DomainPattern.exact.inj h).symm, ?_⟩
      unfold hasGap
      split
      next rest hentry => exact absurd hentry (hplus rest)
      next rest hentry => exact absurd hentry (hdot rest)
      next => exact Bool.and_false _

/-- A pattern for clients that know no leading `+.` is clean if the pattern is. -/
theorem isClean_starred (h : Text.IsClean pattern) : Text.IsClean (starred pattern) := by
  unfold starred
  split
  next rest hpattern =>
    have htrimmed := h.trimmed
    rw [hpattern] at htrimmed
    have hstar : Text.isBlank '*' = false := by decide
    apply Text.isClean_ofList_cons hstar
    intro c hc
    apply htrimmed.2 c
    simpa using hc
  next => exact h

/-- A regular expression has an anchor at each end. -/
theorem isClean_regex (pattern : String) : Text.IsClean (regex pattern) :=
  Text.isClean_ofList_between (by decide) (by decide)

end DomainPattern

/-! ## Ports -/

/-- A range of ports has no blanks. -/
theorem Port.isClean_range (low high : Nat) :
    Text.IsClean (Number.decimal low ++ ":" ++ Number.decimal high) := by
  have hlist : (Number.decimal low ++ ":" ++ Number.decimal high).toList =
      Nat.toDigits 10 low ++ ':' :: Nat.toDigits 10 high :=
    toList_between ':' low high
  apply Text.isClean_of_not_blank
  · intro hempty
    rw [hempty] at hlist
    simp at hlist
  · intro c hc
    rw [hlist, List.mem_append, List.mem_cons] at hc
    rcases hc with hc | rfl | hc
    · exact not_blank_of_mem_toDigits hc
    · rfl
    · exact not_blank_of_mem_toDigits hc

/-- A text in the field of ports in canonical form is clean. -/
theorem Port.isClean_singBoxField {single range name form written : String}
    (hform : canonical form = .ok form)
    (h : singBoxField single range form = .ok (name, .str written)) : Text.IsClean written := by
  rcases eq_of_canonical hform with ⟨port, hport, rfl⟩ | ⟨low, high, _, _, rfl⟩
  · rw [singBoxField_decimal single range hport] at h
    cases h
  · rw [singBoxField_range] at h
    cases h
    exact isClean_range low high

/-! ## Conditions -/

namespace Condition

variable {kind : Kind} {text name value : String} {mark : Option Bool} {c : Condition}

/-- Whether a condition is an entry of a domain list with a gap. -/
def hasGap (c : Condition) : Bool :=
  c.kind = .domainListItem && DomainPattern.hasGap (c.value?.getD "")

/-- The value of a line is clean, unless the condition has a gap. -/
theorem isClean_written_iff (h : make kind text mark = .ok c) :
    ∃ value, c.written.2 = some value ∧ (Text.IsClean value ↔ c.hasGap = false) := by
  obtain ⟨entry, rfl, hall, hclean, _⟩ := exists_of_make h
  by_cases hentry : kind = .domainListItem
  · subst hentry
    refine ⟨(decomposed entry).2, rfl, ?_⟩
    have hgap : (on .domainListItem entry mark).hasGap = DomainPattern.hasGap entry := rfl
    rw [hgap, decomposed]
    cases hread : DomainPattern.read entry with
    | suffix name => exact DomainPattern.isClean_of_suffix_iff hclean hread
    | wildcard pattern =>
      obtain ⟨rfl, hplain⟩ := DomainPattern.eq_of_wildcard hread
      exact iff_of_true (DomainPattern.isClean_starred hclean) hplain
    | exact domain =>
      obtain ⟨rfl, hplain⟩ := DomainPattern.eq_of_exact hread
      exact iff_of_true hclean hplain
  · have hwritten : (on kind entry mark).written = (kind, some entry) := by
      cases kind <;> first | rfl | exact absurd rfl hentry
    have hplain : (on kind entry mark).hasGap = false := by
      simp [hasGap, Condition.kind, hentry]
    exact ⟨entry, congrArg Prod.snd hwritten, iff_of_true hclean hplain⟩

/-- The text in the field of an entry of a domain list is clean, unless the entry has a gap. -/
theorem isClean_domainItemField_iff {entry : String} (hclean : Text.IsClean entry)
    (h : domainItemField entry = (name, .str value)) :
    Text.IsClean value ↔ DomainPattern.hasGap entry = false := by
  unfold domainItemField at h
  cases hread : DomainPattern.read entry with
  | suffix suffix =>
    rw [hread] at h
    cases h
    exact DomainPattern.isClean_of_suffix_iff hclean hread
  | wildcard pattern =>
    rw [hread] at h
    cases h
    exact iff_of_true (DomainPattern.isClean_regex pattern) (DomainPattern.eq_of_wildcard hread).2
  | exact domain =>
    rw [hread] at h
    cases h
    obtain ⟨rfl, hplain⟩ := DomainPattern.eq_of_exact hread
    exact iff_of_true hclean hplain

/-- The text in a field is clean, unless the condition has a gap. -/
theorem isClean_singBoxField_iff (h : make kind text mark = .ok c)
    (hfield : c.singBoxField = .ok (name, .str value)) :
    Text.IsClean value ↔ c.hasGap = false := by
  obtain ⟨entry, rfl, hall, hclean, hform⟩ := exists_of_make h
  by_cases hentry : kind = .domainListItem
  · subst hentry
    exact isClean_domainItemField_iff hclean (Except.ok.inj hfield)
  · refine iff_of_true ?_ (by simp [hasGap, Condition.kind, hentry])
    cases kind with
    | domainListItem => exact absurd rfl hentry
    | domainWildcard =>
      cases hfield
      exact DomainPattern.isClean_regex entry
    | srcPort => exact Port.isClean_singBoxField hform hfield
    | dstPort => exact Port.isClean_singBoxField hform hfield
    | geoIp => cases hfield
    | userAgent => cases hfield
    | matchAll => cases hfield
    | _ =>
      cases hfield
      exact hclean

/-! ## Lines -/

/-- The fields of a line are a word of the client, the value and the mark. -/
theorem exists_spelling_of_lineFields {client : Client} {fields : List String}
    (h : c.lineFields client = .ok fields) :
    ∃ word, c.written.1.spelling client = some word ∧
      fields = word :: (c.written.2.toList ++ c.markWords) := by
  unfold lineFields at h
  dsimp only at h
  cases hword : c.written.1.spelling client with
  | none =>
    rw [hword] at h
    cases h
  | some word =>
    rw [hword, markField_eq] at h
    refine ⟨word, rfl, ?_⟩
    cases hlacks : c.lacksMark with
    | true =>
      rw [hlacks] at h
      cases h
    | false =>
      rw [hlacks] at h
      exact (Except.ok.inj h).symm

/-- Whatever is built is written with a value that is not empty and has no blanks around it, in
lines for all clients and in rules of sing-box, unless it is an entry of a domain list with nothing
or a blank behind the dot that it starts with.  The value of such an entry is empty or has a blank
in front, for every client. -/
theorem isClean_iff_not_hasGap (h : make kind text mark = .ok c) :
    (∀ client fields, c.lineFields client = .ok fields →
      ∃ word value, c.written.1.spelling client = some word ∧
        fields = word :: value :: c.markWords ∧ (Text.IsClean value ↔ c.hasGap = false)) ∧
      ∀ name value, c.singBoxField = .ok (name, .str value) →
        (Text.IsClean value ↔ c.hasGap = false) := by
  constructor
  · intro client fields hfields
    obtain ⟨word, hword, rfl⟩ := exists_spelling_of_lineFields hfields
    obtain ⟨value, hvalue, hclean⟩ := isClean_written_iff h
    refine ⟨word, value, hword, ?_, hclean⟩
    rw [hvalue]
    rfl
  · intro name value hfield
    exact isClean_singBoxField_iff h hfield

/-- A pattern with blanks around it is written without them. -/
theorem isClean_iff_not_hasGap_pattern :
    ∃ c, make .domainListItem " +.*.a? " none = .ok c ∧
      (∃ word value, c.lineFields .clash = .ok [word, value] ∧ Text.IsClean value) ∧
      ∃ name value, c.singBoxField = .ok (name, .str value) ∧ Text.IsClean value := by
  have h : make .domainListItem " +.*.a? " none = .ok (on .domainListItem "+.*.a?" none) := rfl
  have hline : (on .domainListItem "+.*.a?" none).lineFields .clash =
      .ok ["DOMAIN-WILDCARD", "*.*.a?"] := rfl
  have hfield : (on .domainListItem "+.*.a?" none).singBoxField =
      .ok ("domain_regex", .str (DomainPattern.regex "+.*.a?")) := rfl
  have hgap : (on .domainListItem "+.*.a?" none).hasGap = false := by decide
  obtain ⟨hlines, hfields⟩ := isClean_iff_not_hasGap h
  obtain ⟨word, value, _, hparts, hclean⟩ := hlines _ _ hline
  refine ⟨_, h, ⟨word, value, ?_, hclean.2 hgap⟩, _, _, hfield, (hfields _ _ hfield).2 hgap⟩
  rw [hline, hparts]
  rfl

/-- Nothing is left of an entry that is a plus and a dot, and of one with a blank behind them the
blank is left in front.  Both are built, and they are written for all clients. -/
theorem ofDomainListItem_gaps_are_written :
    (∃ c, ofDomainListItem "+." = .ok c ∧
      c.lineFields .clash = .ok ["DOMAIN-SUFFIX", ""] ∧
      c.lineFields .quantumult = .ok ["host-suffix", ""] ∧
      c.singBoxField = .ok ("domain_suffix", .str "")) ∧
    (∃ c, ofDomainListItem "+. a" = .ok c ∧
      c.lineFields .clash = .ok ["DOMAIN-SUFFIX", " a"] ∧
      c.lineFields .quantumult = .ok ["host-suffix", " a"] ∧
      c.singBoxField = .ok ("domain_suffix", .str " a")) ∧
    ¬ Text.IsClean "" ∧ ¬ Text.IsClean " a" := by
  refine ⟨⟨on .domainListItem "+." none, rfl, rfl, rfl, rfl⟩,
    ⟨on .domainListItem "+. a" none, rfl, rfl, rfl, rfl⟩, ?_, ?_⟩
  · intro hclean
    exact hclean.ne_empty rfl
  · intro hclean
    have hblank := hclean.trimmed.1 ' ' (by decide)
    cases hblank

end Condition

end RoutingRules
