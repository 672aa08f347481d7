import RoutingRules.Condition.RuleList
import RoutingRules.Proofs.Condition.Literal
import RoutingRules.Proofs.Network.DottedQuad

/-!
# Lists of networks

Every line of a list of networks becomes a condition of the family that the line is a network of.
The family is told by a search for a dotted quad before the line is read as a network, and the
condition is built from a line that has been read already.  This module says which lines the two
steps let through together, and that the last one refuses nothing.

Main results:

- Theorem {lit}`RuleList.networkKind_eq_ok_iff`: which lines are networks of a family.
- Theorem {lit}`RuleList.HasFamily.make_eq`: a condition is built from each of them as it is.
- Theorem {lit}`RuleList.networks_classify`: what a list is read into and with which error it fails.
-/

namespace RoutingRules

/-! ## Networks without blanks -/

namespace Network

/-- Digits of any radix are visible ASCII characters. -/
theorem bounds_of_digit? {radix : Nat} {c : Char} (h : (Number.digit? radix c).isSome = true) :
    48 ≤ c.toNat ∧ c.toNat ≤ 102 := by
  simp only [Number.digit?, Char.le_def, UInt32.le_iff_toNat_le] at h
  grind [Char.toNat_val]

/-- No character of networks is blank. -/
theorem isBlank_of_isNetworkChar {c : Char} (h : isNetworkChar c = true) :
    Text.isBlank c = false := by
  simp only [isNetworkChar, Bool.or_eq_true, decide_eq_true_eq, or_assoc] at h
  rcases h with h | rfl | rfl | rfl
  · have hbounds := bounds_of_digit? h
    unfold Text.isBlank
    grind
  all_goals decide

end Network

namespace RuleList

variable {line : String} {kind : Kind} {resolve : Bool}

/-! ## Lines of lists of networks -/

/-- The family of a line, as the kind of its condition: an IPv4 network, or an IPv6 network in which
no dotted quad is embedded. -/
inductive HasFamily (line : String) : Kind → Prop
  | v4 (h : Network.isV4 line.toList = true) : HasFamily line .ipCidr
  | v6 (h : Network.isV6 line.toList = true) (hquad : ¬ Network.HoldsQuad line.toList) :
    HasFamily line .ipCidr6

/-- The search for a dotted quad gets the family of every line right that has one. -/
theorem networkKind_eq_ok_iff : networkKind line = .ok kind ↔ HasFamily line kind := by
  rw [networkKind]
  constructor
  · intro h
    split at h
    next =>
      split at h
      next hv4 => exact Except.ok.inj h ▸ .v4 hv4
      next => cases h
    next hquad =>
      rw [Network.hasDottedQuad_iff] at hquad
      split at h
      next hv6 => exact Except.ok.inj h ▸ .v6 hv6 hquad
      next => cases h
  · rintro (hv4 | ⟨hv6, hquad⟩)
    · rw [if_pos (Network.hasDottedQuad_iff.2 (Network.holdsQuad_of_isV4 hv4)), if_pos hv4]
    · rw [if_neg (Network.hasDottedQuad_iff.not.2 hquad), if_pos hv6]

/-- A line without a family is the error. -/
theorem networkKind_eq_error_iff {e : RuleError} :
    networkKind line = .error e ↔
      (∀ kind, ¬ HasFamily line kind) ∧ e = .ambiguousFamily line := by
  simp only [← networkKind_eq_ok_iff, networkKind]
  split
  · split <;> simp [eq_comm]
  · split <;> simp [eq_comm]

/-- The condition of a line is built from the whole line as it is. -/
theorem HasFamily.make_eq (h : HasFamily line kind) (mark : Option Bool) :
    Condition.make kind line mark = .ok (.on kind line mark) := by
  have hchars : ∀ c ∈ line.toList, Network.isNetworkChar c = true := by
    cases h with
    | v4 h => exact Network.isNetworkChar_of_isV4 h
    | v6 h _ => exact Network.isNetworkChar_of_isV6 h
  have htrim : Text.trim line = line :=
    Text.trim_of_not_blank fun c hc => Network.isBlank_of_isNetworkChar (hchars c hc)
  have hform : Condition.canonicalValue kind line = .ok line := by
    cases h with
    | v4 h => exact if_pos h
    | v6 h _ => exact if_pos h
  have hne : line ≠ "" := by
    rintro rfl
    cases h with
    | v4 h => exact absurd h (by decide)
    | v6 h _ => exact absurd h (by decide)
  have hall : kind ≠ .matchAll := by
    rintro rfl
    cases h
  exact Condition.make_of_trim hall hform hne htrim mark

/-- A line is read into the condition of its family. -/
theorem network_eq_ok_iff {c : Condition} :
    network resolve line = .ok c ↔
      ∃ kind, HasFamily line kind ∧ c = .on kind line (some resolve) := by
  rw [network, Except.bind_eq_ok_iff]
  refine exists_congr fun kind => ?_
  rw [networkKind_eq_ok_iff]
  refine and_congr_right fun h => ?_
  rw [h.make_eq, Except.ok.injEq, eq_comm]

/-- Only the family of a line can be missing. -/
theorem network_eq_error_iff {e : RuleError} :
    network resolve line = .error e ↔
      (∀ kind, ¬ HasFamily line kind) ∧ e = .ambiguousFamily line := by
  rw [network, Except.bind_eq_error_iff, networkKind_eq_error_iff]
  refine or_iff_left ?_
  rintro ⟨kind, hkind, h⟩
  rw [(networkKind_eq_ok_iff.1 hkind).make_eq] at h
  cases h

/-! ## Lists of networks -/

/-- A list of networks is read exactly if every line has a family, into one condition for each line
in their order, with the line as its value and the mark that the list has; otherwise it fails with
the first line that has no family.  Building a condition from a line never fails once the line has
been read, and the dotted quads that are looked for are the IPv4 addresses embedded in IPv6
networks. -/
theorem networks_classify (lines : List String) (resolve : Bool) :
    ((∃ conditions, networks lines (some resolve) = .ok conditions) ↔
        ∀ line ∈ lines, ∃ kind, HasFamily line kind) ∧
      (∀ conditions, networks lines (some resolve) = .ok conditions ↔
        List.Forall₂ (fun line c => ∃ kind, HasFamily line kind ∧ c = .on kind line (some resolve))
          lines conditions) ∧
      (∀ e, networks lines (some resolve) = .error e ↔
        ∃ before line after, lines = before ++ line :: after ∧
          (∀ earlier ∈ before, ∃ kind, HasFamily earlier kind) ∧
          (∀ kind, ¬ HasFamily line kind) ∧ e = .ambiguousFamily line) ∧
      (∀ line kind mark, networkKind line = .ok kind →
        Condition.make kind line mark = .ok (.on kind line mark)) ∧
      ∀ line : String, Network.isV6 line.toList = true →
        (Network.HoldsQuad line.toList ↔ '.' ∈ line.toList) := by
  have hread : ∀ line, (∃ c, network resolve line = .ok c) ↔ ∃ kind, HasFamily line kind := by
    intro line
    simp only [network_eq_ok_iff]
    constructor
    · rintro ⟨_, kind, h, _⟩
      exact ⟨kind, h⟩
    · rintro ⟨kind, h⟩
      exact ⟨_, kind, h, rfl⟩
  refine ⟨?_, fun conditions => ?_, fun e => ?_, fun line kind mark h => ?_, fun line h => ?_⟩
  · simp only [networks, Except.mapM_eq_ok_iff, ← hread]
    constructor
    · rintro ⟨conditions, h⟩ line hline
      obtain ⟨c, _, hc⟩ := exists_mem_of_forall₂ h.flip hline
      exact ⟨c, hc⟩
    · exact exists_forall₂
  · rw [networks, Except.mapM_eq_ok_iff]
    simp only [network_eq_ok_iff]
  · rw [networks, Except.mapM_eq_error_iff]
    simp only [hread, network_eq_error_iff]
  · exact (networkKind_eq_ok_iff.1 h).make_eq mark
  · exact Network.holdsQuad_iff_of_isV6 h

/-- A list of both families, and one with an IPv4 address in an IPv6 network and blanks around an
IPv4 network. -/
theorem networks_classify_mixedLines :
    networks ["10.0.0.0/8", "2001:db8::/32"] (some false) =
        .ok [.on .ipCidr "10.0.0.0/8" (some false), .on .ipCidr6 "2001:db8::/32" (some false)] ∧
      networks ["10.0.0.0/8", "::ffff:1.2.3.4/96", " 1.0.0.0/8"] (some true) =
        .error (.ambiguousFamily "::ffff:1.2.3.4/96") := by
  have hquad : ∀ cs : List Char, Network.hasDottedQuad cs = false → ¬ Network.HoldsQuad cs :=
    fun cs h hholds => Bool.false_ne_true (h.symm.trans (Network.hasDottedQuad_iff.2 hholds))
  have hv4 : HasFamily "10.0.0.0/8" .ipCidr := .v4 (by decide)
  have hv6 : HasFamily "2001:db8::/32" .ipCidr6 := .v6 (by decide) (hquad _ (by decide))
  obtain ⟨_, hread, _⟩ := networks_classify ["10.0.0.0/8", "2001:db8::/32"] false
  obtain ⟨_, _, hfails, _⟩ :=
    networks_classify ["10.0.0.0/8", "::ffff:1.2.3.4/96", " 1.0.0.0/8"] true
  constructor
  · exact (hread _).2 (.cons ⟨_, hv4, rfl⟩ (.cons ⟨_, hv6, rfl⟩ .nil))
  · refine (hfails _).2 ⟨["10.0.0.0/8"], _, [" 1.0.0.0/8"], rfl, ?_, ?_, rfl⟩
    · intro earlier hearlier
      rw [List.mem_singleton.1 hearlier]
      exact ⟨_, hv4⟩
    · have hnone :
          networkKind "::ffff:1.2.3.4/96" = .error (.ambiguousFamily "::ffff:1.2.3.4/96") :=
        rfl
      exact (networkKind_eq_error_iff.1 hnone).1

end RuleList

end RoutingRules
