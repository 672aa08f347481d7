import Mathlib.Data.List.TakeWhile
import RoutingRules.Network

/-!
# Characters of networks

Every reader of a network takes its part off the front of a text.  This module says which characters
can be in such a part, and so which ones can be in the text of a network.

Main results:

- Theorem {lit}`reads_of_isV6`: an IPv6 network is read in numbers, signs and embedded IPv4 addresses.
- Theorem {lit}`isNetworkChar_of_isAny`: a network has no other characters.
-/

namespace RoutingRules.Network

/-- The characters of networks: hexadecimal digits and the signs between them. -/
def isNetworkChar (c : Char) : Bool :=
  (Number.digit? 16 c).isSome || c = '.' || c = ':' || c = '/'

/-- A text is taken off the front of another one and leaves a rest. -/
def Takes (cs rest : List Char) : Prop :=
  ∃ front, cs = front ++ rest ∧ ∀ c ∈ front, isNetworkChar c = true

namespace Takes

theorem refl (cs : List Char) : Takes cs cs :=
  ⟨[], rfl, nofun⟩

theorem trans {cs ds rest : List Char} (h : Takes cs ds) (hrest : Takes ds rest) :
    Takes cs rest := by
  obtain ⟨front, rfl, hfront⟩ := h
  obtain ⟨middle, rfl, hmiddle⟩ := hrest
  refine ⟨front ++ middle, (List.append_assoc _ _ _).symm, fun c hc => ?_⟩
  exact (List.mem_append.1 hc).elim (hfront c) (hmiddle c)

/-- What is taken off entirely has the characters of networks only. -/
theorem isNetworkChar {cs : List Char} (h : Takes cs []) :
    ∀ c ∈ cs, isNetworkChar c = true := by
  obtain ⟨front, rfl, hfront⟩ := h
  rwa [List.append_nil]

end Takes

variable {cs rest : List Char}

/-! ## Parts -/

/-- A digit of a smaller radix is one of radix sixteen. -/
theorem isSome_digit?_mono {radix : Nat} {c : Char} (hradix : radix ≤ 16)
    (h : (Number.digit? radix c).isSome = true) : (Number.digit? 16 c).isSome = true := by
  obtain ⟨value, hvalue⟩ := Option.isSome_iff_exists.1 h
  obtain ⟨hdigit, hlt⟩ := Option.filter_eq_some_iff.1 hvalue
  have hlt' : value < 16 := Nat.lt_of_lt_of_le (of_decide_eq_true hlt) hradix
  exact Option.isSome_iff_exists.2
    ⟨value, Option.filter_eq_some_iff.2 ⟨hdigit, decide_eq_true hlt'⟩⟩

/-- A number is taken off a text as its digits, of which there is at least one. -/
theorem exists_of_takeNumber {radix most bound : Nat}
    (h : takeNumber radix most bound cs = some rest) :
    ∃ digits, digits ≠ [] ∧ (∀ c ∈ digits, (Number.digit? radix c).isSome = true) ∧
      cs = digits ++ rest := by
  simp only [takeNumber] at h
  split at h
  next value hvalue =>
    split at h
    next =>
      refine ⟨cs.takeWhile fun c => (Number.digit? radix c).isSome, ?_, ?_, ?_⟩
      · intro hnone
        rw [hnone] at hvalue
        cases hvalue
      · intro c hc
        have hdigit := List.mem_takeWhile_imp hc
        exact hdigit
      · rw [← Option.some.inj h, List.takeWhile_append_dropWhile]
    next => cases h
  next => cases h

theorem takes_takeNumber {radix most bound : Nat} (hradix : radix ≤ 16)
    (h : takeNumber radix most bound cs = some rest) : Takes cs rest := by
  obtain ⟨digits, _, hdigits, rfl⟩ := exists_of_takeNumber h
  refine ⟨digits, rfl, fun c hc => ?_⟩
  simp [isNetworkChar, isSome_digit?_mono hradix (hdigits c hc)]

theorem takes_takeChar {c : Char} (hc : isNetworkChar c = true) (h : takeChar c cs = some rest) :
    Takes cs rest := by
  cases cs with
  | nil => cases h
  | cons d ds =>
    rw [takeChar] at h
    split at h
    next heq =>
      obtain rfl := Option.some.inj h
      exact ⟨[d], rfl, fun e he => by rw [List.mem_singleton.1 he, heq, hc]⟩
    next => cases h

theorem takeChar_cons_self (c : Char) (cs : List Char) : takeChar c (c :: cs) = some cs :=
  if_pos rfl

/-- A sign and a number behind it. -/
theorem takes_signed {c : Char} {radix most bound : Nat} (hc : isNetworkChar c = true)
    (hradix : radix ≤ 16) (h : (takeChar c cs >>= takeNumber radix most bound) = some rest) :
    Takes cs rest := by
  obtain ⟨ds, hds, hrest⟩ := Option.bind_eq_some_iff.1 h
  exact (takes_takeChar hc hds).trans (takes_takeNumber hradix hrest)

/-! ## Addresses -/

theorem takes_takeAddress4 (h : takeAddress4 cs = some rest) : Takes cs rest := by
  obtain ⟨cs₁, h₁, h⟩ := Option.bind_eq_some_iff.1 h
  obtain ⟨cs₂, h₂, h⟩ := Option.bind_eq_some_iff.1 h
  obtain ⟨cs₃, h₃, h⟩ := Option.bind_eq_some_iff.1 h
  have hfirst : Takes cs cs₁ := takes_takeNumber (by decide) h₁
  have hsecond : Takes cs₁ cs₂ := takes_signed (by decide) (by decide) h₂
  have hthird : Takes cs₂ cs₃ := takes_signed (by decide) (by decide) h₃
  have hfourth : Takes cs₃ rest := takes_signed (by decide) (by decide) h
  exact hfirst.trans (hsecond.trans (hthird.trans hfourth))

/-- A text is read up to a rest in the parts of an IPv6 network: numbers, the signs between them and
embedded IPv4 addresses. -/
inductive Reads : List Char → List Char → Prop where
  | refl (cs : List Char) : Reads cs cs
  | number {radix most bound : Nat} {cs ds rest : List Char} (hradix : radix ≤ 16)
      (hpart : takeNumber radix most bound cs = some ds) (hrest : Reads ds rest) : Reads cs rest
  | sign {c : Char} {cs ds rest : List Char} (hc : c = ':' ∨ c = '/')
      (hpart : takeChar c cs = some ds) (hrest : Reads ds rest) : Reads cs rest
  | address4 {cs ds rest : List Char} (hpart : takeAddress4 cs = some ds)
      (hrest : Reads ds rest) : Reads cs rest

theorem Reads.trans {ds : List Char} (h : Reads cs ds) (hrest : Reads ds rest) : Reads cs rest := by
  induction h with
  | refl => exact hrest
  | number hradix hpart _ ih => exact .number hradix hpart (ih hrest)
  | sign hc hpart _ ih => exact .sign hc hpart (ih hrest)
  | address4 hpart _ ih => exact .address4 hpart (ih hrest)

theorem reads_takeGroups (first room : Nat) (cs : List Char) :
    Reads cs (takeGroups first room cs).rest := by
  induction room generalizing first cs with
  | zero => exact .refl cs
  | succ room ih =>
    have hstart : ∀ ds, (if first = 0 then some cs else takeChar ':' cs) = some ds →
        Reads cs ds := by
      intro ds hds
      split at hds
      · rw [Option.some.inj hds]
        exact .refl ds
      · exact .sign (.inl rfl) hds (.refl ds)
    rw [takeGroups]
    split
    next rest hrest =>
      split at hrest
      · cases hrest
      · obtain ⟨ds, hds, hrest⟩ := Option.bind_eq_some_iff.1 hrest
        exact (hstart ds hds).trans (.address4 hrest (.refl rest))
    next =>
      split
      next rest hrest =>
        obtain ⟨ds, hds, hrest⟩ := Option.bind_eq_some_iff.1 hrest
        exact (hstart ds hds).trans (.number (by decide) hrest (ih _ rest))
      next => exact .refl cs

theorem reads_takeAddress6 (h : takeAddress6 cs = some rest) : Reads cs rest := by
  have hhead := reads_takeGroups 0 8 cs
  rw [takeAddress6] at h
  split at h
  · rwa [← Option.some.inj h]
  · split at h
    · cases h
    · split at h
      next tail htail =>
        rw [htail] at hhead
        have hcolons : Reads (':' :: ':' :: tail) tail :=
          .sign (.inl rfl) (takeChar_cons_self _ _)
            (.sign (.inl rfl) (takeChar_cons_self _ _) (.refl tail))
        rw [← Option.some.inj h]
        exact (hhead.trans hcolons).trans (reads_takeGroups 0 _ tail)
      next => cases h

/-- An IPv6 network is read to its end. -/
theorem reads_of_isV6 (h : isV6 cs = true) : Reads cs [] := by
  obtain ⟨ds, hds, hlength⟩ := Option.bind_eq_some_iff.1 (of_decide_eq_true h)
  obtain ⟨ds', hds', hslash⟩ := Option.bind_eq_some_iff.1 hds
  exact (reads_takeAddress6 hds').trans
    (.sign (.inr rfl) hslash (.number (by decide) hlength (.refl [])))

/-- What is read has the characters of networks. -/
theorem Reads.takes (h : Reads cs rest) : Takes cs rest := by
  induction h with
  | refl cs => exact .refl cs
  | number hradix hpart _ ih => exact (takes_takeNumber hradix hpart).trans ih
  | sign hc hpart _ ih =>
    refine (takes_takeChar ?_ hpart).trans ih
    rcases hc with rfl | rfl <;> decide
  | address4 hpart _ ih => exact (takes_takeAddress4 hpart).trans ih

/-! ## Networks -/

theorem isNetworkChar_of_isV4 (h : isV4 cs = true) : ∀ c ∈ cs, isNetworkChar c = true := by
  obtain ⟨ds, hds, hrest⟩ := Option.bind_eq_some_iff.1 (of_decide_eq_true h)
  obtain ⟨ds', hds', hds⟩ := Option.bind_eq_some_iff.1 hds
  exact ((takes_takeAddress4 hds').trans
    ((takes_takeChar (by decide) hds).trans (takes_takeNumber (by decide) hrest))).isNetworkChar

theorem isNetworkChar_of_isV6 (h : isV6 cs = true) : ∀ c ∈ cs, isNetworkChar c = true :=
  (reads_of_isV6 h).takes.isNetworkChar

/-- A network of either family has the characters of networks only. -/
theorem isNetworkChar_of_isAny (h : isAny cs = true) : ∀ c ∈ cs, isNetworkChar c = true := by
  rcases Bool.or_eq_true_iff.1 h with h | h
  · exact isNetworkChar_of_isV4 h
  · exact isNetworkChar_of_isV6 h

end RoutingRules.Network
