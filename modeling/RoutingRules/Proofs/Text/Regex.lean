/-!
# Regular expressions

The part of the language of regular expressions in which patterns over domains are written:
characters, escaped characters, the dot, both anchors, groups, and the signs of repetition behind
a single one of these.  A text with anything else is not read.

An expression matches a part of a text, and what stands before and behind this part decides about
the anchors.  As clients do, {lit}`Regex.Finds` looks for such a part anywhere in the text.

Main results:

- Definition {lit}`Regex.ofText?`: the expression that a text is read as.
- Definition {lit}`Regex.Matches`: the part of a text that an expression matches.
- Theorem {lit}`Regex.matches_inOrder_append`: expressions one after another match parts one after
  another.
- Theorem {lit}`Regex.finds_anchored_iff`: between both anchors the whole text has to match.
-/

namespace RoutingRules

/-- A regular expression. -/
inductive Regex where
  | empty
  | char (c : Char)
  /-- Any character but a line break. -/
  | any
  /-- The front of the text. -/
  | start
  /-- The end of the text. -/
  | finish
  | group (inner : Regex)
  | seq (first second : Regex)
  | star (item : Regex)
  | plus (item : Regex)
  | optional (item : Regex)
deriving DecidableEq, Repr

namespace Regex

/-! ## Reading -/

/-- Expressions one after another. -/
def inOrder (items : List Regex) : Regex :=
  items.foldr seq empty

/-- Whether a sign of repetition may stand behind an expression. -/
def isAtom : Regex → Bool
  | char _ | any | group _ => true
  | _ => false

/-- Put the last expression under a sign of repetition. -/
def repeatLast (sign : Regex → Regex) : List Regex → Option (List Regex)
  | last :: before => if last.isAtom then some (sign last :: before) else none
  | [] => none

/-- Read a text.  The expressions that were read last come first: those of the innermost group that
is open in `items`, and those of the groups around it in `enclosing`. -/
def readFrom (enclosing : List (List Regex)) (items : List Regex) : List Char → Option Regex
  | [] => if enclosing.isEmpty then some (inOrder items.reverse) else none
  | '\\' :: cs =>
    match cs with
    | [] => none
    | c :: cs => if c.isAlphanum then none else readFrom enclosing (char c :: items) cs
  | '(' :: cs => readFrom (items :: enclosing) [] cs
  | ')' :: cs =>
    match enclosing with
    | [] => none
    | outer :: enclosing => readFrom enclosing (group (inOrder items.reverse) :: outer) cs
  | '*' :: cs => (repeatLast star items).bind fun items => readFrom enclosing items cs
  | '+' :: cs => (repeatLast plus items).bind fun items => readFrom enclosing items cs
  | '?' :: cs => (repeatLast optional items).bind fun items => readFrom enclosing items cs
  | '.' :: cs => readFrom enclosing (any :: items) cs
  | '^' :: cs => readFrom enclosing (start :: items) cs
  | '$' :: cs => readFrom enclosing (finish :: items) cs
  | c :: cs =>
    if ['|', '[', ']', '{', '}'].contains c then none else readFrom enclosing (char c :: items) cs

/-- The expression that a text is read as. -/
def ofText? (text : String) : Option Regex :=
  readFrom [] [] text.toList

/-! ## Matching -/

/-- Which parts of texts are meant: a part with what stands before and behind it. -/
abbrev Parts := (before part after : List Char) → Prop

/-- Any number of parts one after another. -/
inductive Repeats (parts : Parts) : Parts
  | none {before after : List Char} : Repeats parts before [] after
  | more {before first rest after : List Char} (hfirst : parts before first (rest ++ after))
      (hrest : Repeats parts (before ++ first) rest after) :
      Repeats parts before (first ++ rest) after

/-- A part that is followed by another one. -/
def Follows (parts others : Parts) : Parts := fun before part after =>
  ∃ first rest, part = first ++ rest ∧ parts before first (rest ++ after) ∧
    others (before ++ first) rest after

/-- The parts of texts that an expression matches. -/
def Matches : Regex → Parts
  | empty => fun _ part _ => part = []
  | char c => fun _ part _ => part = [c]
  | any => fun _ part _ => ∃ c, c ≠ '\n' ∧ part = [c]
  | start => fun before part _ => before = [] ∧ part = []
  | finish => fun _ part after => part = [] ∧ after = []
  | group inner => Matches inner
  | seq first second => Follows (Matches first) (Matches second)
  | star item => Repeats (Matches item)
  | plus item => Follows (Matches item) (Repeats (Matches item))
  | optional item => fun before part after => part = [] ∨ Matches item before part after

/-- Whether an expression matches a part of a text. -/
def Finds (r : Regex) (text : List Char) : Prop :=
  ∃ before part after, text = before ++ part ++ after ∧ r.Matches before part after

section Matching

variable {before part after : List Char}

theorem matches_inOrder_cons {r : Regex} {items : List Regex} :
    (inOrder (r :: items)).Matches before part after ↔
      ∃ first rest, part = first ++ rest ∧ r.Matches before first (rest ++ after) ∧
        (inOrder items).Matches (before ++ first) rest after :=
  Iff.rfl

/-- Expressions one after another match parts one after another. -/
theorem matches_inOrder_append {items others : List Regex} :
    (inOrder (items ++ others)).Matches before part after ↔
      ∃ first rest, part = first ++ rest ∧ (inOrder items).Matches before first (rest ++ after) ∧
        (inOrder others).Matches (before ++ first) rest after := by
  induction items generalizing before part with
  | nil =>
    constructor
    · intro h
      exact ⟨[], part, rfl, rfl, by rwa [List.append_nil]⟩
    · rintro ⟨first, rest, rfl, rfl, h⟩
      rwa [List.append_nil] at h
  | cons r items ih =>
    simp only [List.cons_append, matches_inOrder_cons, ih]
    constructor
    · rintro ⟨first, _, rfl, hfirst, second, rest, rfl, hsecond, hrest⟩
      refine ⟨first ++ second, rest, by rw [List.append_assoc],
        ⟨first, second, rfl, ?_, hsecond⟩, ?_⟩
      · rwa [List.append_assoc] at hfirst
      · rwa [List.append_assoc] at hrest
    · rintro ⟨_, rest, rfl, ⟨first, second, rfl, hfirst, hsecond⟩, hrest⟩
      refine ⟨first, second ++ rest, by rw [List.append_assoc], ?_, second, rest, rfl, hsecond, ?_⟩
      · rwa [List.append_assoc]
      · rwa [List.append_assoc]

/-- A single expression in order is the expression. -/
theorem matches_inOrder_singleton {r : Regex} :
    (inOrder [r]).Matches before part after ↔ r.Matches before part after := by
  constructor
  · rintro ⟨first, rest, rfl, hfirst, rfl⟩
    rwa [List.append_nil]
  · intro h
    exact ⟨part, [], by rw [List.append_nil], h, rfl⟩

/-- Between both anchors the whole text has to match. -/
theorem finds_anchored_iff {items : List Regex} {text : List Char} :
    (inOrder (start :: (items ++ [finish]))).Finds text ↔ (inOrder items).Matches [] text [] := by
  constructor
  · rintro ⟨before, part, after, rfl, first, rest, rfl, ⟨rfl, rfl⟩, h⟩
    obtain ⟨body, last, rfl, hbody, hlast⟩ := matches_inOrder_append.1 h
    obtain ⟨rfl, rfl⟩ := matches_inOrder_singleton.1 hlast
    simpa using hbody
  · intro h
    refine ⟨[], text, [], by simp, [], text, rfl, ⟨rfl, rfl⟩, ?_⟩
    refine matches_inOrder_append.2 ⟨text, [], by simp, h, ?_⟩
    exact matches_inOrder_singleton.2 ⟨rfl, rfl⟩

/-- Any number of dots match every text without line breaks. -/
theorem matches_star_any_iff :
    (star any).Matches before part after ↔ '\n' ∉ part := by
  constructor
  · intro h
    change Repeats (Matches any) before part after at h
    induction h with
    | none => exact List.not_mem_nil
    | more hfirst _ ih =>
      obtain ⟨c, hc, rfl⟩ := hfirst
      rw [List.singleton_append, List.mem_cons, not_or]
      exact ⟨Ne.symm hc, ih⟩
  · intro h
    induction part generalizing before with
    | nil => exact .none
    | cons c part ih =>
      rw [List.mem_cons, not_or] at h
      show Repeats (Matches any) before ([c] ++ part) after
      exact .more ⟨c, Ne.symm h.1, rfl⟩ (ih h.2)

/-- One dot or more match every text without line breaks but the empty one. -/
theorem matches_plus_any_iff :
    (plus any).Matches before part after ↔ part ≠ [] ∧ '\n' ∉ part := by
  constructor
  · rintro ⟨_, rest, rfl, ⟨c, hc, rfl⟩, hrest⟩
    have hline := matches_star_any_iff.1 hrest
    rw [List.singleton_append]
    refine ⟨List.cons_ne_nil _ _, ?_⟩
    rw [List.mem_cons, not_or]
    exact ⟨Ne.symm hc, hline⟩
  · rintro ⟨hne, hline⟩
    obtain ⟨c, part, rfl⟩ := List.exists_cons_of_ne_nil hne
    rw [List.mem_cons, not_or] at hline
    exact ⟨[c], part, rfl, ⟨c, Ne.symm hline.1, rfl⟩, matches_star_any_iff.2 hline.2⟩

end Matching

end Regex

end RoutingRules
