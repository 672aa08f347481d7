import RoutingRules.Proofs.Condition.Literal
import RoutingRules.Proofs.Line.FirstMatch
import RoutingRules.Proofs.Network
import RoutingRules.Condition.RuleList

/-!
# The parts of a line

A line is a word for the kind of its condition, the value, the name of a destination and perhaps the
word for a condition that looks up no addresses, with commas between them.  Nothing is escaped, so a
comma or a line break in the value is one of the line.  Values that are checked when their condition
is built have neither, and values that were cut out between commas have no comma.

A value that is the word for the mark itself and stands last is taken for the mark: then the
destination goes in front of it.

Main results:

- Theorem {lit}`withDestination_writtenFields`: where the destination goes.
- Theorem {lit}`LineEntry.pieces_line` and {lit}`LineEntry.pieces_line_eq_iff`: what stands between
  the commas of a line.
- Theorem {lit}`LineEntry.mem_line_iff_of_lineBreak`: where the line breaks of a line come from.
- Theorem {lit}`Condition.IsMade.plain_of_isChecked`: checked values have no separators.
- Theorem {lit}`LineEntry.values_stay_in_fields`: when the values of a line stay in their fields.
-/

namespace RoutingRules

/-! ## Where the destination goes -/

namespace Condition

/-- The word behind the destination of a line, if there is one. -/
def markWords (c : Condition) : List String :=
  if c.staysUnresolved then [noResolve] else []

theorem writtenFields_eq {c : Condition} {client : LineClient} {word : String}
    (h : c.written.1.spelling client.client = some word) :
    c.writtenFields client = word :: (c.written.2.toList ++ c.markWords) := by
  rw [writtenFields, h]
  rfl

/-- The value of a condition is taken for its mark when it is the same word and stands last. -/
def isTakenForMark (c : Condition) : Bool :=
  c.written.2 = some noResolve && !c.staysUnresolved

theorem isTakenForMark_eq_false {c : Condition} (h : c.written.2 ≠ some noResolve) :
    c.isTakenForMark = false := by
  simp [isTakenForMark, h]

end Condition

/-- The destination comes between the value and the mark, unless the value is taken for the mark. -/
theorem withDestination_writtenFields {c : Condition} {client : LineClient} {word : String}
    (h : c.written.1.spelling client.client = some word) (name : String) :
    withDestination name (c.writtenFields client) =
      if c.isTakenForMark then [word, name, Condition.noResolve]
      else word :: (c.written.2.toList ++ name :: c.markWords) := by
  have hplain : word ≠ Condition.noResolve := Kind.spelling_ne_noResolve h
  rw [Condition.writtenFields_eq h]
  unfold withDestination Condition.isTakenForMark Condition.markWords
  cases hstays : c.staysUnresolved with
  | true =>
    cases c.written.2 <;> simp
  | false =>
    cases c.written.2 with
    | none => simp [hplain]
    | some value =>
      -- The destination goes in front of a last field that is the word for the mark.
      by_cases hvalue : value = Condition.noResolve <;> simp [hvalue]

namespace LineEntry

variable {client : LineClient} {d : Destination} {c : Condition} {entry : LineEntry}

/-- A condition has a line when the client has a word for it and no mark is missing. -/
theorem ofCondition_eq_ok_iff :
    ofCondition client d c = .ok entry ↔
      c.isSpelled client = true ∧ c.lacksMark = false ∧
        entry = Placement.entry client ⟨d, c⟩ := by
  rw [ofCondition, Condition.lineFields_eq]
  cases c.isSpelled client with
  | false => simp [Except.map]
  | true =>
    cases c.lacksMark with
    | true => simp [Except.map]
    | false =>
      simp only [Except.map, true_and, Bool.false_eq_true, if_false, if_true]
      exact ⟨fun h => (Except.ok.inj h).symm, fun h => congrArg Except.ok h.symm⟩

/-- The word of the kind that a line is written for. -/
theorem exists_spelling (h : ofCondition client d c = .ok entry) :
    ∃ word, c.written.1.spelling client.client = some word :=
  Option.isSome_iff_exists.1 (ofCondition_eq_ok_iff.1 h).1

variable {word : String}

/-- The line of a condition. -/
theorem line_eq (h : ofCondition client d c = .ok entry)
    (hword : c.written.1.spelling client.client = some word) :
    entry.line = Text.joinWith ","
      (if c.isTakenForMark then [word, client.destinationName d, Condition.noResolve]
        else word :: (c.written.2.toList ++ client.destinationName d :: c.markWords)) := by
  obtain ⟨_, _, rfl⟩ := ofCondition_eq_ok_iff.1 h
  rw [← withDestination_writtenFields hword]
  rfl

/-- The key of a line is the word and the value that shows. -/
theorem key_eq (h : ofCondition client d c = .ok entry)
    (hword : c.written.1.spelling client.client = some word) :
    entry.key = Text.joinWith "," (word :: c.shownValue.toList) := by
  obtain ⟨_, _, rfl⟩ := ofCondition_eq_ok_iff.1 h
  exact Placement.key_eq hword

/-- Lines of conditions that can be built have one key when the conditions are written alike. -/
theorem key_eq_key_iff {other : Condition} {d' : Destination} {entry' : LineEntry}
    (h : ofCondition client d c = .ok entry) (h' : ofCondition client d' other = .ok entry')
    (hmade : c.IsMade) (hmade' : other.IsMade) :
    entry.key = entry'.key ↔ c.written = other.written := by
  obtain ⟨hspelled, _, rfl⟩ := ofCondition_eq_ok_iff.1 h
  obtain ⟨hspelled', _, rfl⟩ := ofCondition_eq_ok_iff.1 h'
  exact Placement.key_eq_iff (p := ⟨d, c⟩) (q := ⟨d', other⟩) hspelled hspelled' hmade hmade'

end LineEntry

/-! ## Line breaks -/

namespace Text

/-- The characters that end a line somewhere. -/
def lineBreaks : List Char :=
  ['\n', '\x0b', '\x0c', '\r', Char.ofNat 0x85, Char.ofNat 0x2028, Char.ofNat 0x2029]

end Text

/-- No word of a client breaks a line. -/
theorem Kind.not_mem_spelling_of_lineBreak {kind : Kind} {client : LineClient} {word : String}
    (h : kind.spelling client.client = some word) : ∀ b ∈ Text.lineBreaks, b ∉ word.toList := by
  have hword : Text.lineBreaks.all (· ∉ word.toList) = true :=
    of_spelling (p := fun _ word => Text.lineBreaks.all (· ∉ word.toList) = true)
      (by decide +kernel) h
  simpa only [List.all_eq_true, decide_eq_true_eq] using hword

/-- A line is broken where its value or the name of its destination is. -/
theorem LineEntry.mem_line_iff_of_lineBreak {client : LineClient} {d : Destination} {c : Condition}
    {entry : LineEntry} (h : LineEntry.ofCondition client d c = .ok entry) {b : Char}
    (hb : b ∈ Text.lineBreaks) :
    b ∈ entry.line.toList ↔
      (∃ value ∈ c.written.2, b ∈ value.toList) ∨ b ∈ (client.destinationName d).toList := by
  obtain ⟨word, hword⟩ := LineEntry.exists_spelling h
  have hplain : ∀ b ∈ Text.lineBreaks, b ∉ ",".toList ∧ b ∉ Condition.noResolve.toList := by
    simp only [Text.lineBreaks, List.forall_mem_cons, List.not_mem_nil, false_imp_iff, implies_true]
    decide
  obtain ⟨hcomma, hmark⟩ := hplain b hb
  have hspelling := Kind.not_mem_spelling_of_lineBreak hword b hb
  have hmarks : ∀ mark ∈ c.markWords, b ∉ mark.toList := by
    unfold Condition.markWords
    cases c.staysUnresolved <;> simp [hmark]
  rw [LineEntry.line_eq h hword, Text.mem_joinWith hcomma]
  cases htaken : c.isTakenForMark with
  | true =>
    have hvalue : c.written.2 = some Condition.noResolve := by
      simpa using (Bool.and_eq_true_iff.1 htaken).1
    simp [hspelling, hmark, hvalue]
  | false =>
    have hnone : ¬ ∃ mark ∈ c.markWords, b ∈ mark.toList := fun ⟨mark, hmem, hin⟩ =>
      hmarks mark hmem hin
    simp [or_and_right, exists_or, hspelling, hnone]

/-! ## Pieces of lines -/

section Pieces

variable {client : LineClient} {d : Destination} {c : Condition} {entry : LineEntry} {word : String}

/-- The commas of a line cut it into the word, the pieces of the value, the destination and the
mark. -/
theorem LineEntry.pieces_line (h : ofCondition client d c = .ok entry)
    (hword : c.written.1.spelling client.client = some word)
    (hname : ',' ∉ (client.destinationName d).toList) (hvalue : c.isTakenForMark = false) :
    Text.pieces ',' entry.line =
      word :: (c.written.2.toList.flatMap (Text.pieces ',') ++
        client.destinationName d :: c.markWords) := by
  have hwordPieces := Text.pieces_of_not_mem (Kind.isField_spelling hword).comma
  have hmarks : c.markWords.flatMap (Text.pieces ',') = c.markWords := by
    unfold Condition.markWords
    cases c.staysUnresolved with
    | false => rfl
    | true => decide
  have hline := line_eq h hword
  rw [hvalue] at hline
  rw [hline]
  refine (Text.pieces_joinWith_flatMap (List.cons_ne_nil _ _)).trans ?_
  rw [List.flatMap_cons, List.flatMap_append, List.flatMap_cons, hwordPieces, hmarks,
    Text.pieces_of_not_mem hname]
  rfl

/-- The pieces are the parts of the line exactly if no comma is in the value. -/
theorem LineEntry.pieces_line_eq_iff (h : ofCondition client d c = .ok entry)
    (hword : c.written.1.spelling client.client = some word)
    (hname : ',' ∉ (client.destinationName d).toList) (hvalue : c.isTakenForMark = false) :
    Text.pieces ',' entry.line =
        word :: (c.written.2.toList ++ client.destinationName d :: c.markWords) ↔
      ∀ value ∈ c.written.2, ',' ∉ value.toList := by
  have hparts : Text.pieces ',' entry.line =
        word :: (c.written.2.toList ++ client.destinationName d :: c.markWords) ↔
      c.written.2.toList.flatMap (Text.pieces ',') = c.written.2.toList := by
    rw [pieces_line h hword hname hvalue, List.cons.injEq, List.append_left_inj]
    exact and_iff_right rfl
  rw [hparts]
  cases c.written.2 with
  | none => simp
  | some value =>
    have hpieces : Text.pieces ',' value = [value] ↔ ',' ∉ value.toList := by
      constructor
      · intro hsingle
        exact Text.not_mem_of_mem_pieces (hsingle ▸ List.mem_singleton_self value)
      · exact Text.pieces_of_not_mem
    simpa using hpieces

end Pieces

/-! ## Checked values -/

/-- Whether the values of a kind are checked when conditions are built. -/
def Kind.isChecked : Kind → Bool
  | .ipCidr | .ipCidr6 | .srcIpCidr | .srcPort | .dstPort => true
  | _ => false

/-- The characters of networks and ports. -/
def isCheckedChar (c : Char) : Bool :=
  Network.isNetworkChar c || c.isDigit || c = '-'

namespace Condition

/-- The canonical form of a checked value has the characters of networks and ports only. -/
theorem isCheckedChar_of_canonicalValue {kind : Kind} {value form : String}
    (hkind : kind.isChecked = true) (h : canonicalValue kind value = .ok form) :
    ∀ c ∈ form.toList, isCheckedChar c = true := by
  have hnetwork : ∀ {isNetwork : List Char → Bool} {e : RuleError},
      (∀ cs, isNetwork cs = true → ∀ c ∈ cs, Network.isNetworkChar c = true) →
      (if isNetwork value.toList then Except.ok value else .error e) = .ok form →
      ∀ c ∈ form.toList, isCheckedChar c = true := by
    intro isNetwork e hchars hform c hc
    split at hform
    next hvalue =>
      obtain rfl := Except.ok.inj hform
      simp [isCheckedChar, hchars _ hvalue c hc]
    next => cases hform
  have hport : Port.canonical value = .ok form →
      ∀ c ∈ form.toList, isCheckedChar c = true := by
    intro hcanonical c hc
    rcases (Port.chars_of_canonical hcanonical).2 c hc with hdigit | hhyphen
    · simp [isCheckedChar, hdigit]
    · simp [isCheckedChar, hhyphen]
  cases kind with
  | ipCidr => exact hnetwork (fun _ => Network.isNetworkChar_of_isV4) h
  | ipCidr6 => exact hnetwork (fun _ => Network.isNetworkChar_of_isV6) h
  | srcIpCidr => exact hnetwork (fun _ => Network.isNetworkChar_of_isAny) h
  | srcPort => exact hport h
  | dstPort => exact hport h
  | _ => cases hkind

/-- A checked value has no comma and no line break, and it is not the word for the mark. -/
theorem IsMade.plain_of_isChecked {c : Condition} (hmade : c.IsMade)
    (hkind : c.kind.isChecked = true) {value : String} (hvalue : value ∈ c.written.2) :
    ',' ∉ value.toList ∧ (∀ b ∈ Text.lineBreaks, b ∉ value.toList) ∧ value ≠ noResolve := by
  have hchars : ∀ b ∈ value.toList, isCheckedChar b = true := by
    cases hmade with
    | always => cases hkind
    | @make kind text mark _ h =>
      obtain ⟨form, hform, rfl⟩ := eq_of_make h
      have hwritten : (on kind form mark).written.2 = some form := by
        cases kind <;> first | rfl | cases hkind
      rw [hwritten] at hvalue
      obtain rfl := Option.some.inj hvalue
      exact isCheckedChar_of_canonicalValue hkind hform
  have hout : ∀ b ∈ ',' :: Text.lineBreaks, isCheckedChar b = false := by
    simp only [Text.lineBreaks, List.forall_mem_cons, List.not_mem_nil, false_imp_iff, implies_true]
    decide
  have hnot : ∀ b ∈ ',' :: Text.lineBreaks, b ∉ value.toList := by
    intro b hb hmem
    have hchecked := hchars b hmem
    rw [hout b hb] at hchecked
    cases hchecked
  refine ⟨hnot _ List.mem_cons_self, fun b hb => hnot b (List.mem_cons_of_mem _ hb), ?_⟩
  rintro rfl
  have hletter := hchars 'n' (by decide)
  exact absurd hletter (by decide)

end Condition

/-! ## Values that are read -/

namespace Condition

/-- The lines of rule lists give what rules on their own can give. -/
theorem isLiteral_of_ofLine {default : Option Bool} {line : String} {c : Condition}
    (h : ofLine default line = .ok c) : c.IsLiteral := by
  unfold ofLine at h
  rcases hfields : fieldsOf line with ⟨token, args⟩
  simp only [hfields] at h
  obtain ⟨kind, hlookup, h⟩ := Except.bind_eq_ok_iff.1 h
  by_cases hall : kind = .matchAll
  · rw [if_pos hall] at h
    obtain rfl := Except.ok.inj h
    exact .always
  · rw [if_neg hall] at h
    rcases args with _ | ⟨value, others⟩
    · cases h
    · have hmem : value ∈ (fieldsOf line).2 := hfields ▸ List.mem_cons_self
      exact isLiteral_of_make_refine hlookup hall (isField_of_mem_fieldsOf hmem) h

/-- The value of a condition that a rule on its own can give has no comma. -/
theorem IsLiteral.comma_not_mem {c : Condition} (h : c.IsLiteral) {value : String}
    (hvalue : value ∈ c.written.2) : ',' ∉ value.toList := by
  rw [h.written_eq] at hvalue
  cases h with
  | always => cases hvalue
  | on _ _ _ _ hfield =>
    obtain rfl := Option.some.inj hvalue
    exact hfield.comma

/-- The conditions that are read from a rule on its own or from a line of a rule list. -/
def IsRead (c : Condition) : Prop :=
  (∃ literal, ofLiteral literal = .ok c) ∨ ∃ default line, ofLine default line = .ok c

theorem IsRead.isLiteral {c : Condition} (h : c.IsRead) : c.IsLiteral := by
  rcases h with ⟨literal, h⟩ | ⟨default, line, h⟩
  · exact isLiteral_of_ofLiteral h
  · exact isLiteral_of_ofLine h

end Condition

namespace LineEntry

/-! ## All values -/

variable {client : LineClient} {d : Destination} {c : Condition} {entry : LineEntry}

/-- Values stay in their fields up to the separators that they have themselves: the commas cut a line
into the word, the pieces of the value, the destination and the mark, which are exactly its parts
when no comma is in the value; the line breaks of a line are those of its value and of the name of
its destination; a checked value has no separators, and one that is read has no comma.  Lines have
one key exactly if their conditions are written for one kind with one value. -/
theorem values_stay_in_fields (hmade : c.IsMade)
    (hname : ',' ∉ (client.destinationName d).toList)
    (h : ofCondition client d c = .ok entry) :
    (∃ word, c.written.1.spelling client.client = some word ∧
      (c.written.2 ≠ some Condition.noResolve →
        Text.pieces ',' entry.line =
            word :: (c.written.2.toList.flatMap (Text.pieces ',') ++
              client.destinationName d :: c.markWords) ∧
          (Text.pieces ',' entry.line =
              word :: (c.written.2.toList ++ client.destinationName d :: c.markWords) ↔
            ∀ value ∈ c.written.2, ',' ∉ value.toList))) ∧
      (∀ b ∈ Text.lineBreaks, (b ∈ entry.line.toList ↔
        (∃ value ∈ c.written.2, b ∈ value.toList) ∨ b ∈ (client.destinationName d).toList)) ∧
      (c.kind.isChecked = true → ∀ value ∈ c.written.2, ',' ∉ value.toList ∧
        (∀ b ∈ Text.lineBreaks, b ∉ value.toList) ∧ value ≠ Condition.noResolve) ∧
      (c.IsRead → ∀ value ∈ c.written.2, ',' ∉ value.toList) ∧
      ∀ other d' entry', other.IsMade → ofCondition client d' other = .ok entry' →
        (entry.key = entry'.key ↔ c.written = other.written) := by
  obtain ⟨word, hword⟩ := exists_spelling h
  refine ⟨⟨word, hword, fun hvalue => ?_⟩, fun b hb => mem_line_iff_of_lineBreak h hb,
    fun hkind value hvalue => hmade.plain_of_isChecked hkind hvalue,
    fun hread value hvalue => hread.isLiteral.comma_not_mem hvalue,
    fun other d' entry' hother hentry => key_eq_key_iff h hentry hmade hother⟩
  have htaken := Condition.isTakenForMark_eq_false hvalue
  exact ⟨pieces_line h hword hname htaken, pieces_line_eq_iff h hword hname htaken⟩

/-- A country with a mark. -/
theorem values_stay_in_fields_country :
    (Condition.on .geoIp "CN" (some false)).IsMade ∧
      ',' ∉ (LineClient.clash.destinationName (.outbound "PROXY")).toList ∧
      ofCondition .clash (.outbound "PROXY") (.on .geoIp "CN" (some false)) =
        .ok ⟨"GEOIP,CN", "GEOIP,CN,PROXY,no-resolve"⟩ ∧
      Text.pieces ',' "GEOIP,CN,PROXY,no-resolve" = ["GEOIP", "CN", "PROXY", "no-resolve"] := by
  have hmade : (Condition.on .geoIp "CN" (some false)).IsMade := Condition.isMade_of_make rfl
  have hname : ',' ∉ (LineClient.clash.destinationName (.outbound "PROXY")).toList := by decide
  have h : ofCondition .clash (.outbound "PROXY") (.on .geoIp "CN" (some false)) =
      .ok ⟨"GEOIP,CN", "GEOIP,CN,PROXY,no-resolve"⟩ := rfl
  obtain ⟨⟨word, hword, hpieces⟩, -⟩ := values_stay_in_fields hmade hname h
  obtain rfl := Option.some.inj hword
  exact ⟨hmade, hname, h, ((hpieces (by decide)).2.2 (by decide)).trans (by decide)⟩

/-- A comma in an entry of a domain list ends the value in front of a destination of its own, and a
line break in a value ends the line. -/
theorem values_break_out_of_fields :
    (∃ c entry, RuleList.domains ["a.com,DIRECT"] = .ok [c] ∧
      ofCondition .clash (.outbound "PROXY") c = .ok entry ∧
      Text.pieces ',' entry.line ≠ ["DOMAIN", "a.com,DIRECT", "PROXY"]) ∧
      ∃ c entry, Condition.make .domain "a.com\nfinal" none = .ok c ∧
        ofCondition .quantumult (.outbound "PROXY") c = .ok entry ∧ '\n' ∈ entry.line.toList := by
  constructor
  · exact ⟨.on .domainListItem "a.com,DIRECT" none,
      ⟨"DOMAIN,a.com,DIRECT", "DOMAIN,a.com,DIRECT,PROXY"⟩, rfl, rfl, by decide⟩
  · exact ⟨.on .domain "a.com\nfinal" none, ⟨"host,a.com\nfinal", "host,a.com\nfinal,PROXY"⟩,
      rfl, rfl, by decide⟩

end LineEntry

end RoutingRules
