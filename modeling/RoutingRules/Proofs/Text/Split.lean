import Mathlib.Data.List.Basic
import Mathlib.Data.List.TakeWhile
import RoutingRules.Text.Split

/-!
# Pieces of texts

Cutting a text into pieces and joining pieces undo each other, as long as the separator is in none
of the pieces.

Main results:

- Theorem {lit}`pieces_joinWith`: pieces without the separator are found again.
- Theorem {lit}`joinWith_pieces`: joining the pieces of a text gives the text.
-/

namespace RoutingRules.Text

theorem splitWhere_ne_nil (sep : Char → Bool) (cs : List Char) : splitWhere sep cs ≠ [] := by
  induction cs with
  | nil => simp [splitWhere]
  | cons c cs ih =>
    unfold splitWhere
    split
    · simp
    · split <;> simp

/-- A separator divides the pieces. -/
theorem splitWhere_append {sep : Char → Bool} {c : Char} (hc : sep c = true) (xs ys : List Char) :
    splitWhere sep (xs ++ c :: ys) = splitWhere sep xs ++ splitWhere sep ys := by
  induction xs with
  | nil => simp [splitWhere, hc]
  | cons x xs ih =>
    simp only [List.cons_append, splitWhere, ih]
    by_cases hx : sep x = true
    · simp [hx]
    · rcases hpieces : splitWhere sep xs with _ | ⟨piece, pieces⟩
      · exact absurd hpieces (splitWhere_ne_nil sep xs)
      · simp [hx]

/-- A text without separators is its only piece. -/
theorem splitWhere_of_none {sep : Char → Bool} {cs : List Char} (h : ∀ c ∈ cs, sep c = false) :
    splitWhere sep cs = [cs] := by
  induction cs with
  | nil => rfl
  | cons c cs ih =>
    rw [List.forall_mem_cons] at h
    simp [splitWhere, h.1, ih h.2]

/-- No piece has a separator. -/
theorem of_mem_splitWhere {sep : Char → Bool} {cs piece : List Char}
    (h : piece ∈ splitWhere sep cs) : ∀ c ∈ piece, sep c = false := by
  induction cs generalizing piece with
  | nil => simp_all [splitWhere]
  | cons c cs ih =>
    by_cases hc : sep c = true
    · simp only [splitWhere, hc, if_true, List.mem_cons] at h
      rcases h with rfl | h
      · simp
      · exact ih h
    · rcases hpieces : splitWhere sep cs with _ | ⟨first, pieces⟩
      · exact absurd hpieces (splitWhere_ne_nil sep cs)
      · simp only [splitWhere, hc, hpieces, Bool.false_eq_true, if_false, List.mem_cons] at h
        rcases h with rfl | h
        · have hfirst := @ih first (by simp [hpieces])
          simpa [hc] using hfirst
        · exact ih (by simp [hpieces, h])

/-- Every piece has its characters from the text, in their order. -/
theorem sublist_of_mem_splitWhere {sep : Char → Bool} {cs piece : List Char}
    (h : piece ∈ splitWhere sep cs) : piece.Sublist cs := by
  induction cs generalizing piece with
  | nil => simp_all [splitWhere]
  | cons c cs ih =>
    rw [splitWhere] at h
    split at h
    · rcases List.mem_cons.1 h with rfl | h
      · exact List.nil_sublist _
      · exact (ih h).cons c
    · rcases hpieces : splitWhere sep cs with _ | ⟨first, pieces⟩
      · exact absurd hpieces (splitWhere_ne_nil sep cs)
      · simp only [hpieces, List.mem_cons] at h ih
        rcases h with rfl | h
        · exact (ih (.inl rfl)).cons_cons c
        · exact (ih (.inr h)).cons c

section Pieces

variable (sep : Char)

theorem pieces_ne_nil (s : String) : pieces sep s ≠ [] := by
  simp [pieces, splitOn, splitWhere_ne_nil]

/-- A separator divides the pieces. -/
theorem pieces_append (s t : String) :
    pieces sep (s ++ String.singleton sep ++ t) = pieces sep s ++ pieces sep t := by
  simp only [pieces, splitOn, String.toList_append, String.toList_singleton, List.append_assoc,
    List.singleton_append]
  rw [splitWhere_append (by simp), List.map_append]

variable {sep}

/-- A text without separators is its only piece. -/
theorem pieces_of_not_mem {s : String} (h : sep ∉ s.toList) : pieces sep s = [s] := by
  rw [pieces, splitOn, splitWhere_of_none]
  · simp
  · intro c hc
    simp only [decide_eq_false_iff_not]
    rintro rfl
    exact h hc

/-- No piece has a separator. -/
theorem not_mem_of_mem_pieces {s piece : String} (h : piece ∈ pieces sep s) :
    sep ∉ piece.toList := by
  simp only [pieces, splitOn, List.mem_map] at h
  obtain ⟨cs, hcs, rfl⟩ := h
  intro hsep
  rw [String.toList_ofList] at hsep
  simpa using of_mem_splitWhere hcs sep hsep

theorem joinWith_cons_of_ne_nil {glue s : String} {rest : List String} (h : rest ≠ []) :
    joinWith glue (s :: rest) = s ++ glue ++ joinWith glue rest := by
  obtain ⟨t, rest, rfl⟩ := List.exists_cons_of_ne_nil h
  rfl

/-- The pieces of joined texts are those of the texts. -/
theorem pieces_joinWith_flatMap {parts : List String} (h : parts ≠ []) :
    pieces sep (joinWith (String.singleton sep) parts) = parts.flatMap (pieces sep) := by
  induction parts with
  | nil => exact absurd rfl h
  | cons part parts ih =>
    by_cases hparts : parts = []
    · simp [hparts, joinWith]
    · rw [joinWith_cons_of_ne_nil hparts, pieces_append, ih hparts, List.flatMap_cons]

/-- Pieces without the separator are found again. -/
theorem pieces_joinWith {parts : List String} (hne : parts ≠ [])
    (h : ∀ part ∈ parts, sep ∉ part.toList) :
    pieces sep (joinWith (String.singleton sep) parts) = parts := by
  have hsingle : ∀ part ∈ parts, pieces sep part = [part] := fun part hpart =>
    pieces_of_not_mem (h part hpart)
  rw [pieces_joinWith_flatMap hne, List.flatMap_congr hsingle, List.flatMap_singleton']

/-- The characters of joined texts are those of the texts and of what stands between them. -/
theorem mem_joinWith {c : Char} {glue : String} (hglue : c ∉ glue.toList) {parts : List String} :
    c ∈ (joinWith glue parts).toList ↔ ∃ part ∈ parts, c ∈ part.toList := by
  induction parts with
  | nil => simp [joinWith]
  | cons part parts ih =>
    by_cases hparts : parts = []
    · simp [hparts, joinWith]
    · rw [joinWith_cons_of_ne_nil hparts]
      simp [hglue, ih]

theorem joinWith_append {glue : String} {xs ys : List String} (hxs : xs ≠ []) (hys : ys ≠ []) :
    joinWith glue (xs ++ ys) = joinWith glue xs ++ glue ++ joinWith glue ys := by
  induction xs with
  | nil => exact absurd rfl hxs
  | cons x xs ih =>
    by_cases hrest : xs = []
    · rw [hrest, List.singleton_append, joinWith_cons_of_ne_nil hys]
      rfl
    · rw [List.cons_append, joinWith_cons_of_ne_nil (by simp [hrest]), ih hrest,
        joinWith_cons_of_ne_nil hrest]
      simp only [String.append_assoc]

variable (sep) in
/-- Joining the pieces of a text gives the text. -/
theorem joinWith_pieces (s : String) : joinWith (String.singleton sep) (pieces sep s) = s := by
  have hchars : ∀ cs : List Char, joinWith (String.singleton sep)
      ((splitWhere (fun c => c = sep) cs).map String.ofList) = String.ofList cs := by
    intro cs
    induction cs with
    | nil => rfl
    | cons c cs ih =>
      rcases hpieces : splitWhere (fun c => c = sep) cs with _ | ⟨piece, pieces⟩
      · exact absurd hpieces (splitWhere_ne_nil _ cs)
      rw [hpieces] at ih
      by_cases hc : c = sep
      · simp only [splitWhere, hc, decide_true, if_true, hpieces, List.map_cons]
        rw [joinWith_cons_of_ne_nil (by simp), ← List.map_cons, ih]
        apply String.toList_injective
        simp
      · simp only [splitWhere, hc, decide_false, hpieces]
        apply String.toList_injective
        have ih := congrArg String.toList ih
        by_cases hrest : pieces = []
        · simpa [hrest, joinWith] using ih
        · simp only [List.map_cons] at ih
          rw [joinWith_cons_of_ne_nil (by simpa using hrest)] at ih
          simp only [Bool.false_eq_true, if_false, List.map_cons]
          rw [joinWith_cons_of_ne_nil (by simpa using hrest)]
          simpa using ih
  exact (hchars s.toList).trans (by simp)

/-- Texts that are not empty are joined to a text that is not empty. -/
theorem joinWith_ne_empty {glue : String} {parts : List String} (hne : parts ≠ [])
    (h : ∀ part ∈ parts, part ≠ "") : joinWith glue parts ≠ "" := by
  obtain ⟨part, rest, rfl⟩ := List.exists_cons_of_ne_nil hne
  have hpart : part ≠ "" := h part List.mem_cons_self
  by_cases hrest : rest = []
  · rwa [hrest]
  · rw [joinWith_cons_of_ne_nil hrest]
    intro hempty
    simp only [String.append_eq_empty_iff] at hempty
    exact hpart hempty.1.1

/-- Texts that are not empty are joined to the same text when their pieces are the same. -/
theorem joinWith_eq_iff {xs ys : List String} (hxs : ∀ x ∈ xs, x ≠ "") (hys : ∀ y ∈ ys, y ≠ "") :
    joinWith (String.singleton sep) xs = joinWith (String.singleton sep) ys ↔
      xs.flatMap (pieces sep) = ys.flatMap (pieces sep) := by
  have hnil : ∀ {zs : List String}, zs.flatMap (pieces sep) = [] → zs = [] := fun {zs} hzs =>
    List.eq_nil_iff_forall_not_mem.2 fun z hz =>
      pieces_ne_nil sep z (List.flatMap_eq_nil_iff.1 hzs z hz)
  by_cases hx : xs = [] <;> by_cases hy : ys = []
  · simp [hx, hy]
  · subst hx
    exact iff_of_false (fun h => joinWith_ne_empty hy hys h.symm) fun h => hy (hnil h.symm)
  · subst hy
    exact iff_of_false (joinWith_ne_empty hx hxs) fun h => hx (hnil h)
  · rw [← pieces_joinWith_flatMap hx, ← pieces_joinWith_flatMap hy]
    refine ⟨congrArg (pieces sep), fun h => ?_⟩
    rw [← joinWith_pieces sep (joinWith _ xs), h, joinWith_pieces]

end Pieces

end RoutingRules.Text
