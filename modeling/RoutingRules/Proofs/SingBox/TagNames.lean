import RoutingRules.Proofs.Files.Place
import RoutingRules.Proofs.SingBox.ExtractionPlaces
import RoutingRules.SingBox.Compile
import RoutingRules.Url.Part

/-!
# Tags as names of files and in addresses

Rule sets are compiled to files that are named by their tags, and clients download them from
addresses that end in these names.  The names of outbounds, from which the tags are made, can be any
text.  This module shows that a tag is nothing but small ASCII letters and digits with single
hyphens between them, wherever it comes from, so that it is a name within one directory and is
written in an address as it is.

Main results:

- Theorem {lit}`Produces.isTagName`: every tag that is produced has this form, whether all rules are
  accepted or not.
- Theorem {lit}`placeOf_join_tag`: a file named by a tag is directly in its directory.
- Theorem {lit}`Url.Part.escaped_of_unreserved`: no part of an address escapes characters of this
  kind.
- Theorem {lit}`tags_name_files_and_addresses`: the same for the tags that extraction produces.
-/

namespace RoutingRules

/-! ## Characters that need no escaping -/

namespace Url

/-- The characters that stand for themselves in every part of an address. -/
def isUnreserved (c : Char) : Bool :=
  c.isAlphanum || ['-', '.', '_', '~'].contains c

/-- Letters and digits lie between the first digit and the last small letter. -/
theorem bounds_of_isAlphanum {c : Char} (h : c.isAlphanum = true) :
    '0'.val ≤ c.val ∧ c.val ≤ 'z'.val := by
  rcases SingBox.isAlphanum_iff.1 h with hupper | hlower | hdigit
  · obtain ⟨hlow, hhigh⟩ := SingBox.isUpper_iff.1 hupper
    exact ⟨UInt32.le_trans (by decide) hlow, UInt32.le_trans hhigh (by decide)⟩
  · obtain ⟨hlow, hhigh⟩ := Bool.and_eq_true_iff.1 hlower
    exact ⟨UInt32.le_trans (by decide) (of_decide_eq_true hlow), of_decide_eq_true hhigh⟩
  · obtain ⟨hlow, hhigh⟩ := Bool.and_eq_true_iff.1 hdigit
    exact ⟨of_decide_eq_true hlow, UInt32.le_trans (of_decide_eq_true hhigh) (by decide)⟩

/-- The characters that stand for themselves are visible ASCII characters. -/
theorem bounds_of_isUnreserved {c : Char} (h : isUnreserved c = true) :
    0x20 ≤ c.toNat ∧ c.toNat < 0x7F := by
  rw [isUnreserved, Bool.or_eq_true, List.contains_iff_mem] at h
  rcases h with h | h
  · obtain ⟨hlow, hhigh⟩ := bounds_of_isAlphanum h
    have hlow : 48 ≤ c.toNat := UInt32.le_iff_toNat_le.1 hlow
    have hhigh : c.toNat ≤ 122 := UInt32.le_iff_toNat_le.1 hhigh
    omega
  · simp only [List.mem_cons, List.not_mem_nil, or_false] at h
    rcases h with rfl | rfl | rfl | rfl <;> decide

namespace Part

/-- No part of an address has reserved characters among those that stand for themselves. -/
theorem not_mem_reserved {c : Char} (h : isUnreserved c = true) (part : Part) :
    c ∉ part.reserved := by
  have hall : part.reserved.all (fun c => !isUnreserved c) = true := by
    rcases part with _ | _ | _ | served | _
    case query => cases served <;> decide
    all_goals decide
  intro hmem
  have hnot := List.all_eq_true.1 hall c hmem
  rw [h] at hnot
  cases hnot

/-- A text of such characters is written in every part of an address as it is. -/
theorem escaped_of_unreserved {cs : List Char} (h : ∀ c ∈ cs, isUnreserved c = true)
    (part : Part) : part.escaped cs = cs := by
  have hself : ∀ c ∈ cs, (if part.escapes c then Text.escaped c else [c]) = [c] := by
    intro c hc
    have hbounds := bounds_of_isUnreserved (h c hc)
    have hreserved := not_mem_reserved (h c hc) part
    apply if_neg
    simp only [escapes, Bool.or_eq_true, decide_eq_true_eq, List.contains_iff_mem, not_or,
      Nat.not_lt, Nat.not_le]
    exact ⟨hbounds, hreserved⟩
  rw [escaped, List.flatMap_congr hself, List.flatMap_singleton']

end Part

end Url

namespace SingBox

/-! ## Tags that extraction produces -/

/-- The tags that the extraction of rules produces: those of the new rule sets, or the one over
which it fails. -/
inductive Produces (minSize : Nat) (rules : List Rule) (tag : String) : Prop
  | ofSet {extraction : Extraction} (h : extract minSize rules = .ok extraction) {set : RuleSet}
      (hset : set ∈ extraction.sets) (htag : set.tag = tag)
  | ofConflict (h : extract minSize rules = .error (.tagConflict tag))

/-- The text that is repeated is one of the texts. -/
theorem mem_of_firstRepeated {seen texts : List String} {s : String}
    (h : firstRepeated seen texts = some s) : s ∈ texts := by
  induction texts generalizing seen with
  | nil => cases h
  | cons t texts ih =>
    rw [firstRepeated] at h
    split at h
    · rw [Option.some.inj h]
      exact List.mem_cons_self
    · exact List.mem_cons_of_mem _ (ih h)

variable {minSize : Nat} {rules : List Rule} {tag : String}

/-- Every tag that is produced is that of a rule which moves, whether the rules are accepted or
not. -/
theorem Produces.exists_set (h : Produces minSize rules tag) :
    ∃ set ∈ ruleSetsOf minSize 0 rules, set.tag = tag := by
  cases h with
  | ofSet h hset htag =>
    obtain ⟨_, rfl⟩ := extract_eq_ok_iff.1 h
    exact ⟨_, hset, htag⟩
  | ofConflict h =>
    simp only [extract, extractRules_eq, List.nil_append] at h
    split at h
    next other hrepeated =>
      obtain rfl : other = tag := by simpa using h
      exact List.mem_map.1 (mem_of_firstRepeated hrepeated)
    next => cases h

/-- The tags that are produced have the form of tags. -/
theorem Produces.isTagName (h : Produces minSize rules tag) : IsTagName tag := by
  obtain ⟨set, hset, rfl⟩ := h.exists_set
  exact isTagName_of_mem_ruleSetsOf hset

/-! ## Files and addresses -/

/-- A tag with an ending stands for itself in an address. -/
theorem IsTagName.isUnreserved_append (h : IsTagName tag) {ending : String}
    (hending : ∀ c ∈ ending.toList, Url.isUnreserved c = true) :
    ∀ c ∈ (tag ++ ending).toList, Url.isUnreserved c = true := by
  intro c hc
  rw [String.toList_append, List.mem_append] at hc
  rcases hc with hc | hc
  · rcases h.chars hc with hlower | hdigit | rfl
    · rw [Url.isUnreserved, isAlphanum_iff.2 (.inr (.inl hlower)), Bool.true_or]
    · rw [Url.isUnreserved, isAlphanum_iff.2 (.inr (.inr hdigit)), Bool.true_or]
    · decide
  · exact hending c hc

/-- A file that is named by a tag with an ending of its own is directly in its directory. -/
theorem placeOf_join_tag (h : IsTagName tag) {ending : String} (hslash : '/' ∉ ending.toList)
    (hlong : 2 < ending.length) (here : Files.Place) (directory : String) :
    Files.placeOf here (Files.join directory (tag ++ ending)) =
      Files.placeOf here directory ++ [tag ++ ending] := by
  have hname : '/' ∉ (tag ++ ending).toList := by
    rw [String.toList_append, List.mem_append, not_or]
    refine ⟨fun hmem => ?_, hslash⟩
    have hnone : ¬ ('/'.isLower = true ∨ '/'.isDigit = true ∨ '/' = '-') := by decide
    exact hnone (h.chars hmem)
  have hproper : ∀ part : String, part.length ≤ 2 → tag ++ ending ≠ part := by
    rintro part hpart rfl
    rw [String.length_append] at hpart
    omega
  rw [Files.placeOf_join hname, Files.enter, if_neg, if_neg (hproper ".." (by decide))]
  exact not_or.2 ⟨hproper "" (by decide), hproper "." (by decide)⟩

/-- The tags that extraction produces, whatever the outbounds are called, are runs of small ASCII
letters and digits with single hyphens between them.  So the files of a rule set are directly in the
directory of the compiler, and the address of a rule set is the start that the compiler gives it and
a name that is written in every part of an address as it is. -/
theorem tags_name_files_and_addresses (h : Produces minSize rules tag) :
    IsTagName tag ∧
      (∀ (compiler : Compiler) (here : Files.Place),
        Files.placeOf here (compiler.sourcePath tag) =
            Files.placeOf here compiler.directory ++ [tag ++ ".json"] ∧
          Files.placeOf here (compiler.compiledPath tag) =
            Files.placeOf here compiler.directory ++ [tag ++ ".srs"]) ∧
      (∀ compiler : Compiler,
        (compiler.descriptor tag).url = compiler.baseUrl ++ (tag ++ ".srs")) ∧
      (∀ c ∈ (tag ++ ".srs").toList, Url.isUnreserved c = true) ∧
      ∀ part : Url.Part, part.escaped (tag ++ ".srs").toList = (tag ++ ".srs").toList := by
  have htag : IsTagName tag := h.isTagName
  have hname : ∀ c ∈ (tag ++ ".srs").toList, Url.isUnreserved c = true :=
    htag.isUnreserved_append (List.all_eq_true.1 (by decide))
  refine ⟨htag, fun compiler here => ⟨?_, ?_⟩, fun compiler => ?_, hname, fun part => ?_⟩
  · exact placeOf_join_tag htag (by decide) (by decide) here compiler.directory
  · exact placeOf_join_tag htag (by decide) (by decide) here compiler.directory
  · exact String.append_assoc
  · exact part.escaped_of_unreserved hname

/-- Rules for outbounds whose names hold signs of all kinds, and one whose name holds nothing
else. -/
def signedRules : List Rule :=
  [⟨.route "★ 日本 — 2X/../Ü ", .logical .and
      [.leaf (.ofConditions (.ofList [("port", [.int 443])])),
        .leaf (.ofConditions (.ofList [("domain", [.str "a.com", .str "b.com"])]))] .empty⟩,
    ⟨.route "★", .leaf (.ofConditions (.ofList [("domain", [.str "a.com", .str "b.com"])]))⟩]

theorem tags_name_files_and_addresses_signedRules :
    Produces 2 signedRules "2x-0-1" ∧ Produces 2 signedRules "rule-1" ∧
      (IsTagName "2x-0-1" ∧
        (∀ (compiler : Compiler) (here : Files.Place),
          Files.placeOf here (compiler.sourcePath "2x-0-1") =
              Files.placeOf here compiler.directory ++ ["2x-0-1.json"] ∧
            Files.placeOf here (compiler.compiledPath "2x-0-1") =
              Files.placeOf here compiler.directory ++ ["2x-0-1.srs"]) ∧
        (∀ compiler : Compiler,
          (compiler.descriptor "2x-0-1").url = compiler.baseUrl ++ "2x-0-1.srs") ∧
        (∀ c ∈ "2x-0-1.srs".toList, Url.isUnreserved c = true) ∧
        ∀ part : Url.Part, part.escaped "2x-0-1.srs".toList = "2x-0-1.srs".toList) := by
  have hok : extract 2 signedRules =
      .ok ⟨remainingRules 2 0 signedRules, ruleSetsOf 2 0 signedRules⟩ :=
    rfl
  have htags : (ruleSetsOf 2 0 signedRules).map RuleSet.tag = ["2x-0-1", "rule-1"] := by
    decide +kernel
  have hproduces : ∀ tag ∈ ["2x-0-1", "rule-1"], Produces 2 signedRules tag := by
    intro tag htag
    rw [← htags] at htag
    obtain ⟨set, hset, hname⟩ := List.mem_map.1 htag
    exact .ofSet hok hset hname
  have hfirst : Produces 2 signedRules "2x-0-1" := hproduces _ (by simp)
  exact ⟨hfirst, hproduces _ (by simp), tags_name_files_and_addresses hfirst⟩

end SingBox

end RoutingRules
