import RoutingRules.Files.Tree
import RoutingRules.Proofs.Text.Split

/-!
# Where paths lead

Without links a path always leads to the same place, whatever is there: its parts are entered one
after another, and two dots go back.  What the files decide is only whether the path can be
followed, that is, whether every place on the way is a directory.

Main results:

- Theorem {lit}`exists_parts_of_parent`: a path is its parent, a part that names something, and
  parts that name nothing.
- Theorem {lit}`way_subset_of_parent`: whoever is at a file has passed the parent of its path only.
- Theorem {lit}`way_join_subset`: the same for a name in a directory.
-/

namespace RoutingRules

namespace Files

/-! ## Places -/

/-- The place after a part of a path has been entered. -/
def enter (place : Place) (part : String) : Place :=
  if part = "" ∨ part = "." then place
  else if part = ".." then place.dropLast
  else place ++ [part]

/-- The place after several parts. -/
def placeFrom (place : Place) (parts : List String) : Place :=
  parts.foldl enter place

/-- The places at which the parts are entered. -/
def wayFrom (place : Place) : List String → List Place
  | [] => []
  | part :: parts => place :: wayFrom (enter place part) parts

/-- Where a path starts. -/
def originOf (here : Place) (path : String) : Place :=
  if isAbsolute path then [] else here

/-- The place that a path leads to. -/
def placeOf (here : Place) (path : String) : Place :=
  placeFrom (originOf here path) (Text.pieces '/' path)

/-- The places that are passed on the way to the last one. -/
def wayOf (here : Place) (path : String) : List Place :=
  wayFrom (originOf here path) (Text.pieces '/' path)

/-- All places that a path visits. -/
def visited (here : Place) (path : String) : List Place :=
  wayOf here path ++ [placeOf here path]

/-- Whether parts name nothing. -/
def Blank (parts : List String) : Prop :=
  ∀ part ∈ parts, part = "" ∨ part = "."

section Parts

variable {place : Place} {part : String} {parts : List String}

theorem placeFrom_append (xs ys : List String) :
    placeFrom place (xs ++ ys) = placeFrom (placeFrom place xs) ys :=
  List.foldl_append

theorem wayFrom_append (xs ys : List String) :
    wayFrom place (xs ++ ys) = wayFrom place xs ++ wayFrom (placeFrom place xs) ys := by
  induction xs generalizing place with
  | nil => rfl
  | cons x xs ih => simp [wayFrom, ih, placeFrom]

/-- Parts that name nothing lead nowhere else. -/
theorem Blank.placeFrom_eq (h : Blank parts) : placeFrom place parts = place := by
  induction parts with
  | nil => rfl
  | cons part parts ih =>
    obtain ⟨hpart, hparts⟩ := List.forall_mem_cons.1 h
    simp [placeFrom, List.foldl_cons, enter, hpart]
    exact ih hparts

theorem Blank.mem_wayFrom (h : Blank parts) {s : Place} (hs : s ∈ wayFrom place parts) :
    s = place := by
  induction parts with
  | nil => simp [wayFrom] at hs
  | cons part parts ih =>
    obtain ⟨hpart, hparts⟩ := List.forall_mem_cons.1 h
    simp only [wayFrom, enter, hpart, if_true, List.mem_cons] at hs
    rcases hs with rfl | hs
    · rfl
    · exact ih hparts hs

end Parts

/-! ## Parents -/

/-- Whether a path ends in a dot after which nothing is named. -/
def EndsInDot (path : String) : Prop :=
  (FileTree.partsOf path).getLast? = some "."

instance (path : String) : Decidable (EndsInDot path) :=
  inferInstanceAs (Decidable (_ = _))

/-- A path is absolute when nothing stands before its first slash. -/
theorem isAbsolute_iff (path : String) :
    isAbsolute path = true ↔ ∃ part parts, Text.pieces '/' path = "" :: part :: parts := by
  unfold isAbsolute Text.pieces Text.splitOn
  rcases path.toList with _ | ⟨c, cs⟩
  · simp [Text.splitWhere]
  · rcases hpieces : Text.splitWhere (fun c => c = '/') cs with _ | ⟨piece, pieces⟩
    · exact absurd hpieces (Text.splitWhere_ne_nil _ cs)
    · by_cases hc : c = '/'
      · simp [Text.splitWhere, hc, hpieces]
      · simp [Text.splitWhere, hc, hpieces]

/-- The last position that passes a check, and those before it. -/
theorem filter_range_cases (p : Nat → Bool) (n : Nat) :
    ((List.range n).filter p = [] ∧ ∀ k < n, p k = false) ∨
      ∃ j < n, p j = true ∧ (∀ k, j < k → k < n → p k = false) ∧
        (List.range n).filter p = (List.range j).filter p ++ [j] := by
  induction n with
  | zero => simp
  | succ n ih =>
    rw [List.range_succ, List.filter_append]
    by_cases hn : p n = true
    · exact .inr ⟨n, by omega, hn, by omega, by simp [hn]⟩
    · simp only [List.filter_cons, hn, Bool.false_eq_true, if_false, List.filter_nil,
        List.append_nil]
      rcases ih with ⟨hnone, hall⟩ | ⟨j, hj, hpj, hall, heq⟩
      · refine .inl ⟨hnone, fun k hk => ?_⟩
        rcases Nat.lt_succ_iff_lt_or_eq.1 hk with hk | rfl
        · exact hall k hk
        · simpa using hn
      · refine .inr ⟨j, by omega, hpj, fun k hjk hk => ?_, heq⟩
        rcases Nat.lt_succ_iff_lt_or_eq.1 hk with hk | rfl
        · exact hall k hjk hk
        · simpa using hn

/-- Whether the part at a position names something. -/
def namesAt (parts : List String) (i : Nat) : Bool :=
  match parts[i]? with
  | some part => part ≠ "" && (part ≠ "." || i = 0)
  | none => false

theorem namedParts_eq (parts : List String) :
    namedParts parts = (List.range parts.length).filter (namesAt parts) :=
  rfl

theorem blank_of_namesAt {parts : List String} {i : Nat} {part : String} (hi : 0 < i)
    (hpart : parts[i]? = some part) (h : namesAt parts i = false) : part = "" ∨ part = "." := by
  have hne : i ≠ 0 := by omega
  by_cases hempty : part = ""
  · exact .inl hempty
  · right
    simpa [namesAt, hpart, hne, hempty] using h

/-- Positions at which nothing is named hold parts that name nothing. -/
theorem blank_drop_take (parts : List String) {i j : Nat} (hi : 0 < i)
    (h : ∀ k, i ≤ k → k < j → namesAt parts k = false) : Blank ((parts.take j).drop i) := by
  intro part hpart
  obtain ⟨k, hk, rfl⟩ := List.mem_iff_getElem.1 hpart
  simp only [List.length_drop, List.length_take] at hk
  rw [List.getElem_drop, List.getElem_take]
  exact blank_of_namesAt (by omega) (List.getElem?_eq_getElem (by omega)) (h _ (by omega) (by omega))

/-- The last part that names something, and the one before it. -/
theorem reverse_namedParts_cases (parts : List String) :
    (namedParts parts).reverse = [] ∨
      ∃ j, ∃ hj : j < parts.length, parts[j] ≠ "" ∧ Blank (parts.drop (j + 1)) ∧
        ((namedParts parts).reverse = [j] ∧ (∀ k < j, namesAt parts k = false) ∨
          ∃ i < j, ∃ others, (namedParts parts).reverse = j :: i :: others ∧
            namesAt parts i = true ∧ Blank ((parts.take j).drop (i + 1))) := by
  rw [namedParts_eq]
  rcases filter_range_cases (namesAt parts) parts.length with
    ⟨hnone, _⟩ | ⟨j, hj, hnamed, hafter, heq⟩
  · simp [hnone]
  right
  have hne : parts[j] ≠ "" := by
    intro hempty
    simp [namesAt, List.getElem?_eq_getElem hj, hempty] at hnamed
  have hrest : Blank (parts.drop (j + 1)) := by
    have hblank := blank_drop_take parts (i := j + 1) (j := parts.length) (by omega)
      fun k hk hlt => hafter k (by omega) hlt
    rwa [List.take_length] at hblank
  refine ⟨j, hj, hne, hrest, ?_⟩
  rcases filter_range_cases (namesAt parts) j with ⟨hnone, hbefore⟩ | ⟨i, hi, hi', hbetween, heq'⟩
  · exact .inl ⟨by simp [heq, hnone], hbefore⟩
  · exact .inr ⟨i, hi, ((List.range i).filter (namesAt parts)).reverse, by simp [heq, heq'], hi',
      blank_drop_take parts (by omega) fun k hk hlt => hbetween k (by omega) hlt⟩

/-- Whether a path is absolute only depends on the parts up to one that names something. -/
theorem exists_cons_cons_take_iff {parts : List String} {i : Nat} (hi : i < parts.length)
    (hnames : namesAt parts i = true) :
    (∃ part others, parts.take (i + 1) = "" :: part :: others) ↔
      ∃ part others, parts = "" :: part :: others := by
  rcases parts with _ | ⟨first, _ | ⟨second, parts⟩⟩
  · simp
  · simp
  · rcases i with _ | i
    · have hfirst : first ≠ "" := by
        rintro rfl
        simp [namesAt] at hnames
      simp [hfirst]
    · simp

/-- Parts up to one that names something end in a dot only when there is nothing else. -/
theorem blank_take_of_getLast {parts : List String} {i : Nat} (hi : i < parts.length)
    (hnames : namesAt parts i = true)
    (h : ((parts.take (i + 1)).reverse.dropWhile (· = "")).reverse.getLast? = some ".") :
    Blank (parts.take (i + 1)) := by
  have htake : parts.take (i + 1) = parts.take i ++ [parts[i]] := by simp
  have hne : parts[i] ≠ "" := by
    intro hempty
    simp [namesAt, List.getElem?_eq_getElem hi, hempty] at hnames
  have hdot : parts[i] = "." := by
    rw [htake, List.reverse_concat, List.dropWhile_cons_of_neg (by simpa using hne),
      List.getLast?_reverse] at h
    simpa using h
  have hzero : i = 0 := by
    simpa [namesAt, List.getElem?_eq_getElem hi, hdot] using hnames
  subst hzero
  intro part hpart
  simp [htake, hdot] at hpart
  exact .inr hpart

/-- The parent of a path with one part that names something is the root or empty. -/
theorem exists_parts_of_single {path : String} {j : Nat}
    (hj : j < (Text.pieces '/' path).length) (hne : (Text.pieces '/' path)[j] ≠ "")
    (hbefore : ∀ k < j, namesAt (Text.pieces '/' path) k = false) :
    ∃ front blanks, (Text.pieces '/' path).take j = front ++ blanks ∧ Blank blanks ∧
      Text.pieces '/' (if isAbsolute path = true then "/" else "") = front ++ [""] ∧
      isAbsolute (if isAbsolute path = true then "/" else "") = isAbsolute path ∧
      ¬EndsInDot (if isAbsolute path = true then "/" else "") := by
  have habsolute := isAbsolute_iff path
  generalize Text.pieces '/' path = parts at *
  rcases parts with _ | ⟨first, parts⟩
  · simp at hj
  rcases j with _ | j
  · have hrelative : isAbsolute path = false := by
      rw [Bool.eq_false_iff, ne_eq, habsolute]
      rintro ⟨p, ps, hps⟩
      simp only [List.cons.injEq] at hps
      exact hne hps.1
    simp only [hrelative, Bool.false_eq_true, if_false]
    exact ⟨[], [], by simp, by simp [Blank], by decide, by decide, by decide⟩
  · have hfirst : first = "" := by simpa [namesAt] using hbefore 0 (by omega)
    have hroot : isAbsolute path = true := by
      rw [habsolute]
      obtain ⟨p, ps, rfl⟩ := List.exists_cons_of_ne_nil (l := parts) (by rintro rfl; simp at hj)
      exact ⟨p, ps, by rw [hfirst]⟩
    simp only [hroot, if_true]
    refine ⟨[""], parts.take j, by simp [hfirst], ?_, by decide, by decide, by decide⟩
    simpa using blank_drop_take (first :: parts) (i := 1) (j := j + 1) (by omega)
      fun k _ hk => hbefore k hk

/-- A path is its parent, a part that names something, and parts around it that name nothing. -/
theorem exists_parts_of_parent {path parent : String} (h : parent? path = some parent) :
    ∃ front blanks part rest,
      Text.pieces '/' path = front ++ blanks ++ part :: rest ∧
      Blank blanks ∧ Blank rest ∧ part ≠ "" ∧
      (Text.pieces '/' parent = front ∨ Text.pieces '/' parent = front ++ [""]) ∧
      isAbsolute parent = isAbsolute path ∧
      (EndsInDot parent → Blank (Text.pieces '/' parent)) := by
  unfold parent? at h
  dsimp only at h
  rcases reverse_namedParts_cases (Text.pieces '/' path) with hnone | ⟨j, hj, hne, hrest, hcases⟩
  · simp [hnone] at h
  have hparts : Text.pieces '/' path =
      (Text.pieces '/' path).take j ++ (Text.pieces '/' path)[j] ::
        (Text.pieces '/' path).drop (j + 1) := by
    rw [List.getElem_cons_drop, List.take_append_drop]
  rcases hcases with ⟨hsingle, hbefore⟩ | ⟨i, hij, others, hnamed, hi, hblank⟩
  · obtain ⟨front, blanks, htake, hblank, hparent, habsolute, hdot⟩ :=
      exists_parts_of_single hj hne hbefore
    rw [hsingle] at h
    obtain rfl := Option.some.inj h
    exact ⟨front, blanks, _, _, htake ▸ hparts, hblank, hrest, hne, .inr hparent, habsolute,
      fun hends => absurd hends hdot⟩
  · rw [hnamed] at h
    obtain rfl := Option.some.inj h
    have hpieces : Text.pieces '/' (Text.joinWith "/" ((Text.pieces '/' path).take (i + 1))) =
        (Text.pieces '/' path).take (i + 1) :=
      Text.pieces_joinWith (by simp [Text.pieces_ne_nil]) fun part hpart =>
        Text.not_mem_of_mem_pieces (List.mem_of_mem_take hpart)
    refine ⟨(Text.pieces '/' path).take (i + 1), ((Text.pieces '/' path).take j).drop (i + 1), _,
      _, ?_, hblank, hrest, hne, .inl hpieces, ?_, ?_⟩
    · have htake : (Text.pieces '/' path).take (i + 1) =
          ((Text.pieces '/' path).take j).take (i + 1) := by
        rw [List.take_take, Nat.min_eq_left (by omega)]
      rw [htake, List.take_append_drop]
      exact hparts
    · rw [Bool.eq_iff_iff, isAbsolute_iff, isAbsolute_iff, hpieces]
      exact exists_cons_cons_take_iff (by omega) hi
    · intro hends
      rw [hpieces]
      rw [EndsInDot, FileTree.partsOf, hpieces] at hends
      exact blank_take_of_getLast (by omega) hi hends

/-! ## What paths visit -/

section Visited

variable {here : Place} {path parent dir name : String} {s : Place}

/-- What a path in three parts visits, if the ones in the middle and at the end name nothing. -/
theorem mem_visited_of_parts {front blanks rest : List String} {part : String}
    (hparts : Text.pieces '/' path = front ++ blanks ++ part :: rest) (hblanks : Blank blanks)
    (hrest : Blank rest) :
    s ∈ visited here path ↔
      s ∈ wayFrom (originOf here path) front ∨ s = placeFrom (originOf here path) front ∨
        s = placeOf here path := by
  have hplace : placeOf here path = enter (placeFrom (originOf here path) front) part := by
    rw [placeOf, hparts, placeFrom_append, placeFrom_append, hblanks.placeFrom_eq]
    exact hrest.placeFrom_eq
  unfold visited wayOf
  rw [hparts, wayFrom_append, wayFrom_append, placeFrom_append, hblanks.placeFrom_eq]
  simp only [wayFrom, List.mem_append, List.mem_cons, List.not_mem_nil, or_false, ← hplace]
  constructor
  · rintro (((h | h) | h | h) | h)
    · exact .inl h
    · exact .inr (.inl (hblanks.mem_wayFrom h))
    · exact .inr (.inl h)
    · exact .inr (.inr (hrest.mem_wayFrom h))
    · exact .inr (.inr h)
  · rintro (h | h | h)
    · exact .inl (.inl (.inl h))
    · exact .inl (.inr (.inl h))
    · exact .inr h

/-- What a parent visits, by the parts of the path in front of it. -/
theorem mem_visited_of_front {front : List String} (h : Text.pieces '/' path = front ∨
    Text.pieces '/' path = front ++ [""]) :
    s ∈ visited here path ↔
      s ∈ wayFrom (originOf here path) front ∨ s = placeFrom (originOf here path) front := by
  rcases h with h | h
  · simp [visited, wayOf, placeOf, h]
  · simp [visited, wayOf, placeOf, h, wayFrom_append, wayFrom, placeFrom, enter]

/-- A path visits what its parent visits, and the place that it leads to. -/
theorem mem_visited_iff_of_parent (h : parent? path = some parent) :
    s ∈ visited here path ↔ s ∈ visited here parent ∨ s = placeOf here path := by
  obtain ⟨front, blanks, part, rest, hparts, hblanks, hrest, _, hparent, habsolute, _⟩ :=
    exists_parts_of_parent h
  have horigin : originOf here parent = originOf here path := by rw [originOf, originOf, habsolute]
  rw [mem_visited_of_parts hparts hblanks hrest, mem_visited_of_front hparent, horigin, or_assoc]

/-- A parent that ends in a dot leads to where the path starts. -/
theorem placeOf_of_parent_endsInDot (h : parent? path = some parent) (hdot : EndsInDot parent) :
    placeOf here parent = originOf here path := by
  obtain ⟨_, _, _, _, _, _, _, _, _, habsolute, hblank⟩ := exists_parts_of_parent h
  rw [placeOf, (hblank hdot).placeFrom_eq, originOf, originOf, habsolute]

/-- No part of a path without a parent names anything. -/
theorem blank_of_no_parent (h : parent? path = none) : Blank (Text.pieces '/' path) := by
  unfold parent? at h
  dsimp only at h
  rcases reverse_namedParts_cases (Text.pieces '/' path) with hnone | ⟨j, _, _, _, hcases⟩
  · rw [List.reverse_eq_nil_iff, namedParts_eq, List.filter_eq_nil_iff] at hnone
    intro part hpart
    obtain ⟨k, hk, rfl⟩ := List.mem_iff_getElem.1 hpart
    have hnot := hnone k (by simpa using hk)
    by_cases hempty : (Text.pieces '/' path)[k] = ""
    · exact .inl hempty
    · right
      have hk' : k < (Text.pieces '/' path).length := hk
      simp [namesAt, List.getElem?_eq_getElem hk'] at hnot
      exact (hnot hempty).1
  · rcases hcases with ⟨hsingle, _⟩ | ⟨i, _, others, hnamed, _, _⟩
    · simp [hsingle] at h
    · simp [hnamed] at h

/-- A path without a parent stays where it starts. -/
theorem eq_originOf_of_no_parent (h : parent? path = none) (hs : s ∈ visited here path) :
    s = originOf here path := by
  have hblank := blank_of_no_parent h
  unfold visited wayOf placeOf at hs
  rw [hblank.placeFrom_eq, List.mem_append, List.mem_singleton] at hs
  rcases hs with hs | hs
  · exact hblank.mem_wayFrom hs
  · exact hs

/-! ## The last part -/

/-- Only empty parts are left out at the end of a path. -/
theorem exists_pieces_eq (path : String) :
    ∃ blanks, Text.pieces '/' path = FileTree.partsOf path ++ blanks ∧ ∀ part ∈ blanks, part = "" := by
  refine ⟨((Text.pieces '/' path).reverse.takeWhile (· = "")).reverse, ?_, ?_⟩
  · rw [FileTree.partsOf, ← List.reverse_append, List.takeWhile_append_dropWhile,
      List.reverse_reverse]
  · intro part hpart
    rw [List.mem_reverse] at hpart
    simpa using List.mem_takeWhile_imp hpart

/-- The last part that is left names something, or is a dot or two. -/
theorem ne_empty_of_partsOf {front : List String} {last : String}
    (h : FileTree.partsOf path = front ++ [last]) : last ≠ "" := by
  have hhead := List.head?_dropWhile_not (fun p => decide (p = "")) (Text.pieces '/' path).reverse
  have hlast : (FileTree.partsOf path).getLast? = some last := by simp [h]
  rw [FileTree.partsOf, List.getLast?_reverse] at hlast
  rw [hlast] at hhead
  simpa using hhead

theorem placeFrom_partsOf (here : Place) (path : String) :
    placeFrom (originOf here path) (FileTree.partsOf path) = placeOf here path := by
  obtain ⟨blanks, hpieces, hempty⟩ := exists_pieces_eq path
  have hblanks : Blank blanks := fun part hpart => .inl (hempty part hpart)
  rw [placeOf, hpieces, placeFrom_append, hblanks.placeFrom_eq]

theorem wayFrom_partsOf_subset (h : s ∈ wayFrom (originOf here path) (FileTree.partsOf path)) :
    s ∈ visited here path := by
  obtain ⟨blanks, hpieces, _⟩ := exists_pieces_eq path
  rw [visited, wayOf, hpieces, wayFrom_append]
  simp [h]

/-- The parts of a path that does not end in a dot end with the part that names something. -/
theorem partsOf_of_parts {front : List String} {part : String} {rest : List String}
    (hparts : Text.pieces '/' path = front ++ part :: rest) (hrest : Blank rest) (hpart : part ≠ "")
    (hdot : ¬EndsInDot path) : FileTree.partsOf path = front ++ [part] := by
  have hempty : ∀ p ∈ rest.reverse, p = "" := by
    by_contra hsome
    obtain ⟨last, others, hlast⟩ : ∃ last others, rest.reverse.dropWhile (· = "") = last :: others := by
      apply List.exists_cons_of_ne_nil
      rw [ne_eq, List.dropWhile_eq_nil_iff]
      simpa using hsome
    have hmem : last ∈ rest := by
      have hsuffix : last ∈ rest.reverse.dropWhile (· = "") := by simp [hlast]
      simpa using (List.dropWhile_suffix _).subset hsuffix
    have hne : last ≠ "" := by
      have hhead := List.head?_dropWhile_not (fun p => decide (p = "")) rest.reverse
      simpa [hlast] using hhead
    apply hdot
    rw [EndsInDot, FileTree.partsOf, hparts, List.getLast?_reverse, List.reverse_append,
      List.reverse_cons, List.append_assoc, List.dropWhile_append, hlast]
    simpa using (hrest last hmem).resolve_left hne
  rw [FileTree.partsOf, hparts, List.reverse_append, List.reverse_cons, List.append_assoc,
    List.dropWhile_append_of_pos (by simpa using hempty)]
  simp [hpart]

/-- Before the last part of a path that does not end in a dot only its parent has been visited. -/
theorem mem_visited_of_parent (h : parent? path = some parent) (hdot : ¬EndsInDot path)
    (hs : s ∈ wayFrom (originOf here path) (FileTree.partsOf path)) : s ∈ visited here parent := by
  obtain ⟨front, blanks, part, rest, hparts, hblanks, hrest, hpart, hparent, habsolute, _⟩ :=
    exists_parts_of_parent h
  have horigin : originOf here parent = originOf here path := by rw [originOf, originOf, habsolute]
  rw [partsOf_of_parts hparts hrest hpart hdot, wayFrom_append, wayFrom_append, placeFrom_append,
    hblanks.placeFrom_eq] at hs
  simp only [wayFrom, List.mem_append, List.mem_singleton] at hs
  rw [mem_visited_of_front hparent, horigin]
  rcases hs with (hs | hs) | hs
  · exact .inl hs
  · exact .inr (hblanks.mem_wayFrom hs)
  · exact .inr hs

/-- A path without a parent is that of a directory. -/
theorem endsAsDirectory_of_no_parent (h : parent? path = none) :
    FileTree.endsAsDirectory path = true := by
  unfold FileTree.endsAsDirectory
  cases hlast : (Text.pieces '/' path).getLast? with
  | none => rfl
  | some part =>
    have hpart := blank_of_no_parent h part (List.mem_of_getLast? hlast)
    rcases hpart with rfl | rfl <;> rfl

/-- The last part of the path of a file names it. -/
theorem exists_pieces_of_file (h : FileTree.endsAsDirectory path = false) :
    ∃ front name, Text.pieces '/' path = front ++ [name] ∧ name ≠ "" ∧ name ≠ "." ∧ name ≠ ".." := by
  rcases List.eq_nil_or_concat (Text.pieces '/' path) with hnil | ⟨front, name, hpieces⟩
  · exact absurd hnil (Text.pieces_ne_nil '/' path)
  · rw [List.concat_eq_append] at hpieces
    simp [FileTree.endsAsDirectory, hpieces] at h
    exact ⟨front, name, hpieces, h.1.1, h.1.2, h.2⟩

/-- A path leads through some parts to a name in the directory behind them. -/
structure LeadsToName (here : Place) (path : String) (front : List String) (name : String) :
    Prop where
  pieces : Text.pieces '/' path = front ++ [name]
  place : placeOf here path = placeFrom (originOf here path) front ++ [name]
  way : wayOf here path =
    wayFrom (originOf here path) front ++ [placeFrom (originOf here path) front]

/-- The path of a file leads to a name. -/
theorem exists_leadsToName (h : FileTree.endsAsDirectory path = false) (here : Place) :
    ∃ front name, LeadsToName here path front name := by
  obtain ⟨front, name, hpieces, hempty, hdot, hback⟩ := exists_pieces_of_file h
  refine ⟨front, name, hpieces, ?_, ?_⟩
  · rw [placeOf, hpieces, placeFrom_append]
    simp [placeFrom, enter, hempty, hdot, hback]
  · simp [wayOf, hpieces, wayFrom_append, wayFrom]

/-- The path of a file does not end in a dot. -/
theorem not_endsInDot_of_file (h : FileTree.endsAsDirectory path = false) :
    FileTree.partsOf path = Text.pieces '/' path ∧ ¬EndsInDot path := by
  obtain ⟨front, name, hpieces, hempty, hdot, _⟩ := exists_pieces_of_file h
  have hparts : FileTree.partsOf path = Text.pieces '/' path := by
    simp [FileTree.partsOf, hpieces, hempty]
  refine ⟨hparts, ?_⟩
  rw [EndsInDot, hparts, hpieces]
  simpa using hdot

/-- Whoever is at a file has passed the parent of its path only. -/
theorem way_subset_of_parent (h : parent? path = some parent)
    (hfile : FileTree.endsAsDirectory path = false) (hs : s ∈ wayOf here path) :
    s ∈ visited here parent := by
  obtain ⟨hparts, hdot⟩ := not_endsInDot_of_file hfile
  apply mem_visited_of_parent h hdot
  rwa [hparts]

/-- The parts of a name in a directory are those of the directory and the name. -/
theorem exists_pieces_join (here : Place) (dir : String) (hname : '/' ∉ name.toList) :
    ∃ front, Text.pieces '/' (join dir name) = front ++ [name] ∧
      (Text.pieces '/' dir = front ∨ Text.pieces '/' dir = front ++ [""]) ∧
      originOf here (join dir name) = originOf here dir := by
  have hrelative : isAbsolute name = false := by
    rw [isAbsolute, decide_eq_false_iff_not]
    intro hhead
    exact hname (List.mem_of_mem_head? hhead)
  have hpieces : Text.pieces '/' name = [name] := Text.pieces_of_not_mem hname
  have horigin : ∀ text : String, dir ≠ "" → originOf here (dir ++ text) = originOf here dir := by
    intro text hdir
    obtain ⟨c, cs, hcs⟩ : ∃ c cs, dir.toList = c :: cs :=
      List.exists_cons_of_ne_nil (by simpa using hdir)
    simp [originOf, isAbsolute, hcs]
  by_cases hdir : dir = ""
  · refine ⟨[], ?_, .inr (by rw [hdir]; decide), ?_⟩
    · simp [join, hdir, hrelative, hpieces]
    · simp [join, hdir, hrelative, originOf, show isAbsolute "" = false by decide]
  by_cases hslash : dir.toList.getLast? = some '/'
  · have hjoin : join dir name = dir ++ name := by simp [join, hrelative, hslash]
    obtain ⟨cs, hcs⟩ := List.getLast?_eq_some_iff.1 hslash
    have hsplit : dir = String.ofList cs ++ String.singleton '/' := by
      apply String.toList_injective
      simp [hcs]
    refine ⟨Text.pieces '/' (String.ofList cs), ?_, .inr ?_, hjoin ▸ horigin name hdir⟩
    · rw [hjoin, hsplit, Text.pieces_append, hpieces]
    · have hempty := Text.pieces_append '/' (String.ofList cs) ""
      rwa [String.append_empty, ← hsplit] at hempty
  · have hjoin : join dir name = dir ++ String.singleton '/' ++ name := by
      simp [join, hrelative, hslash, hdir]
    refine ⟨Text.pieces '/' dir, ?_, .inl rfl, ?_⟩
    · rw [hjoin, Text.pieces_append, hpieces]
    · rw [hjoin, String.append_assoc]
      exact horigin _ hdir

/-- A name in a directory is at the place below the one of the directory. -/
theorem placeOf_join (hname : '/' ∉ name.toList) :
    placeOf here (join dir name) = enter (placeOf here dir) name := by
  obtain ⟨front, hpieces, hdir, horigin⟩ := exists_pieces_join here dir hname
  have hplace : placeOf here dir = placeFrom (originOf here dir) front := by
    rcases hdir with hdir | hdir
    · rw [placeOf, hdir]
    · rw [placeOf, hdir, placeFrom_append]
      rfl
  rw [hplace, placeOf, hpieces, placeFrom_append, horigin]
  rfl

/-- Whoever is at a name in a directory has passed the directory only. -/
theorem way_join_subset (hname : '/' ∉ name.toList) (hs : s ∈ wayOf here (join dir name)) :
    s ∈ visited here dir := by
  obtain ⟨front, hpieces, hdir, horigin⟩ := exists_pieces_join here dir hname
  rw [mem_visited_of_front hdir, ← horigin]
  simpa [wayOf, hpieces, wayFrom_append, wayFrom] using hs

/-- A parent is shorter than its path, which starts with it. -/
theorem exists_suffix_of_parent (h : parent? path = some parent) :
    ∃ rest, path = parent ++ rest ∧ rest ≠ "" := by
  obtain ⟨front, blanks, part, rest, hparts, _, _, hpart, hparent, _⟩ := exists_parts_of_parent h
  have hback : ∀ ps, Text.pieces '/' path = ps → path = Text.joinWith "/" ps := by
    rintro ps rfl
    exact (Text.joinWith_pieces '/' path).symm
  have hparent' : parent = Text.joinWith "/" (Text.pieces '/' parent) :=
    (Text.joinWith_pieces '/' parent).symm
  have hnamed : Text.joinWith "/" (blanks ++ part :: rest) ≠ "" := by
    intro hempty
    have hpieces : Text.pieces '/' (Text.joinWith "/" (blanks ++ part :: rest)) =
        blanks ++ part :: rest :=
      Text.pieces_joinWith (by simp) fun p hp =>
        Text.not_mem_of_mem_pieces (s := path) (by rw [hparts, List.append_assoc]; simp [hp])
    have hmem : part ∈ Text.pieces '/' "" := by
      rw [← hempty, hpieces]
      simp
    rw [show Text.pieces '/' "" = [""] by decide, List.mem_singleton] at hmem
    exact hpart hmem
  rw [List.append_assoc] at hparts
  by_cases hfront : front = []
  · have hempty : parent = "" := by
      rcases hparent with hparent | hparent
      · exact absurd (hparent.trans hfront) (Text.pieces_ne_nil '/' parent)
      · rw [hparent', hparent, hfront]
        rfl
    refine ⟨path, by simp [hempty], ?_⟩
    rw [hback _ hparts, hfront]
    exact hnamed
  · have hpath : path = Text.joinWith "/" front ++ "/" ++
        Text.joinWith "/" (blanks ++ part :: rest) := by
      rw [← Text.joinWith_append hfront (by simp)]
      exact hback _ hparts
    rcases hparent with hparent | hparent
    · refine ⟨"/" ++ Text.joinWith "/" (blanks ++ part :: rest), ?_, by simp⟩
      rw [hparent', hparent, ← String.append_assoc]
      exact hpath
    · refine ⟨Text.joinWith "/" (blanks ++ part :: rest), ?_, hnamed⟩
      rw [hparent', hparent, Text.joinWith_append hfront (by simp)]
      simpa [Text.joinWith] using hpath

/-- A path is longer than its parent. -/
theorem length_parent_lt (h : parent? path = some parent) : parent.length < path.length := by
  obtain ⟨rest, rfl, hrest⟩ := exists_suffix_of_parent h
  have hlength : 0 < rest.length := by
    rw [Nat.pos_iff_ne_zero, ne_eq, String.length_eq_zero_iff]
    exact hrest
  rw [String.length_append]
  omega

theorem mem_pieces_of_parent (h : parent? path = some parent) {part : String}
    (hpart : part ∈ Text.pieces '/' parent) : part = "" ∨ part ∈ Text.pieces '/' path := by
  obtain ⟨front, blanks, _, rest, hparts, _, _, _, hparent, _⟩ := exists_parts_of_parent h
  rcases hparent with hparent | hparent
  · right
    simp [hparts, ← hparent, hpart]
  · simp only [hparent, List.mem_append, List.mem_singleton] at hpart
    rcases hpart with hpart | hpart
    · right
      simp [hparts, hpart]
    · exact .inl hpart

end Visited

end Files

end RoutingRules
