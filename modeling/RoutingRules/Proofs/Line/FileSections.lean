import Mathlib.Data.List.Nodup
import RoutingRules.Line.QuantumultFile
import RoutingRules.Proofs.Number.Text
import RoutingRules.Proofs.Text.Split

/-!
# Sections of files

A file of Quantumult X has the sections of the options in their order, then that of the rules, then
those that have to be there and are missing.  The keys of options can be any values, and several of
them can be written as one name.  A mandatory name, though, is only written for the text that it is,
and the keys of a mapping differ, so no mandatory section is there twice.

What stands under the header of a section is up to the options and the rules.  As long as no line of
it looks like a header, the sections are found again in the text of the file.

Main results:

- Theorem {lit}`eq_str_of_word`: a mandatory name is only written for the text that it is.
- Theorem {lit}`count_names_sections`: the mandatory sections are there once.
- Theorem {lit}`readSections_join`: sections are found again in their text.
- Theorem {lit}`QuantumultFile.content_sections`: which sections a file has, in which order and with
  which lines.
-/

namespace RoutingRules.QuantumultFile

/-! ## Names and lines -/

/-- The mandatory sections that neither the options nor the rules give, in their order. -/
def missing (options : List (Yaml × Yaml)) : List String :=
  mandatory.filter fun name => name ≠ filterLocal ∧ name ∉ options.map fun e => word e.1

variable (options : List (Yaml × Yaml)) (lines : List String)

theorem names_givenSections :
    (givenSections options).map Section.name =
      (options.map fun e => word e.1).filter fun name => name ≠ filterLocal := by
  rw [givenSections, List.map_map, List.filter_map]
  rfl

/-- What is missing behind the sections of the options and of the rules is added without lines. -/
theorem sections_eq :
    sections options lines =
      givenSections options ++
        ⟨filterLocal, lines⟩ :: (missing options).map fun name => ⟨name, []⟩ := by
  have hnames : ∀ name,
      name ∈ (givenSections options ++ [(⟨filterLocal, lines⟩ : Section)]).map Section.name ↔
        name ∈ (options.map fun e => word e.1) ∧ name ≠ filterLocal ∨ name = filterLocal := by
    intro name
    rw [List.map_append, names_givenSections, List.mem_append, List.mem_filter]
    simp
  have hmissing : (mandatory.filter fun name =>
      name ∉ (givenSections options ++ [(⟨filterLocal, lines⟩ : Section)]).map Section.name) =
        missing options := by
    refine List.filter_congr fun name _ => decide_eq_decide.2 ?_
    rw [hnames]
    tauto
  rw [sections, hmissing, List.append_assoc, List.singleton_append]

theorem names_sections :
    (sections options lines).map Section.name =
      ((options.map fun e => word e.1).filter fun name => name ≠ filterLocal) ++
        filterLocal :: missing options := by
  rw [sections_eq, List.map_append, names_givenSections, List.map_cons, List.map_map]
  simp [Function.comp_def]

/-! ## Mandatory sections -/

variable {options}

/-- A mandatory name is only written for the text that it is. -/
theorem eq_str_of_word {key : Yaml} {name : String} (hname : name ∈ mandatory)
    (h : word key = name) : key = .str name := by
  -- No number has the letters of a name, and no other value is written as one.
  have hletter : ∀ name ∈ mandatory, name.toList.all Number.isNumeric = false := by decide
  have hother : ∀ text ∈ ["", "true", "false", ".inf", "-.inf", ".nan"], text ∉ mandatory := by
    decide
  have hnot : ¬∀ c ∈ name.toList, Number.isNumeric c = true := fun hall => by
    have htrue := List.all_eq_true.2 hall
    rw [hletter name hname] at htrue
    cases htrue
  subst h
  cases key with
  | str text => rfl
  | int i => exact absurd Number.isNumeric_of_mem_decimalInt hnot
  | real x =>
    cases x with
    | finite x => exact absurd Number.isNumeric_of_mem_render hnot
    | infinite negative => cases negative <;> exact absurd hname (hother _ (by decide))
    | notANumber => exact absurd hname (hother _ (by decide))
  | bool b => cases b <;> exact absurd hname (hother _ (by decide))
  | null => exact absurd hname (hother "" (by decide))
  | seq items => exact absurd hname (hother "" (by decide))
  | map entries => exact absurd hname (hother "" (by decide))
  | tagged tag value => exact absurd hname (hother "" (by decide))

/-- Among keys that differ, a mandatory name is written for one at most. -/
theorem count_words_le (hkeys : Yaml.keysDiffer options = true) {name : String}
    (hname : name ∈ mandatory) : (options.map fun e => word e.1).count name ≤ 1 := by
  induction options with
  | nil => simp
  | cons e options ih =>
    obtain ⟨key, value⟩ := e
    rw [Yaml.keysDiffer, Bool.and_eq_true, List.all_eq_true] at hkeys
    obtain ⟨hothers, hrest⟩ := hkeys
    by_cases hkey : word key = name
    · have hnone : name ∉ options.map fun e => word e.1 := by
        intro hmem
        obtain ⟨e, he, hword⟩ := List.mem_map.1 hmem
        have hsame := hothers e he
        rw [eq_str_of_word hname hkey, eq_str_of_word hname hword] at hsame
        simp [Yaml.same] at hsame
      rw [List.map_cons, hkey, List.count_cons_self, List.count_eq_zero.2 hnone]
    · rw [List.map_cons, List.count_cons_of_ne hkey]
      exact ih hrest

variable (options)

/-- The mandatory sections are there once, that of the rules in any case and the others if the keys
of the options differ. -/
theorem count_names_sections {name : String} (hname : name ∈ mandatory)
    (hkeys : name = filterLocal ∨ Yaml.keysDiffer options = true) :
    ((sections options lines).map Section.name).count name = 1 := by
  have honce : mandatory.count name = 1 := List.count_eq_one_of_mem (by decide) hname
  rw [names_sections, List.count_append]
  by_cases hlocal : name = filterLocal
  · subst hlocal
    have hgiven : filterLocal ∉
        (options.map fun e => word e.1).filter fun name => name ≠ filterLocal := by simp
    have hmissing : filterLocal ∉ missing options := by simp [missing]
    rw [List.count_eq_zero.2 hgiven, List.count_cons_self, List.count_eq_zero.2 hmissing]
  · have hle := count_words_le (hkeys.resolve_left hlocal) hname
    rw [List.count_filter (by simpa using hlocal), List.count_cons_of_ne (Ne.symm hlocal)]
    by_cases hmem : name ∈ options.map fun e => word e.1
    · have hmissing : name ∉ missing options := fun h => by
        simp only [missing, List.mem_filter, decide_eq_true_eq] at h
        exact h.2.2 hmem
      have hpos := List.count_pos_iff.2 hmem
      rw [List.count_eq_zero.2 hmissing]
      omega
    · have hmissing : (missing options).count name = mandatory.count name :=
        List.count_filter (decide_eq_true ⟨hlocal, hmem⟩)
      rw [hmissing, honce, List.count_eq_zero.2 hmem]

/-! ## Reading sections back -/

/-- The name in a line that is the header of a section. -/
def headerName? (line : String) : Option String :=
  match line.toList with
  | '[' :: cs => if cs.getLast? = some ']' then some (String.ofList cs.dropLast) else none
  | _ => none

/-- The lines in front of the first header, and the sections behind. -/
def cutSections : List String → List String × List Section
  | [] => ([], [])
  | line :: rest =>
    let (front, behind) := cutSections rest
    match headerName? line with
    | some name => ([], ⟨name, front⟩ :: behind)
    | none => (line :: front, behind)

/-- The sections in a text whose lines all end with a line feed. -/
def readSections (text : String) : List Section :=
  (cutSections (Text.pieces '\n' text).dropLast).2

/-- Whether a text is a single line and not like the header of a section. -/
def IsBody (line : String) : Prop :=
  '\n' ∉ line.toList ∧ headerName? line = none

instance (line : String) : Decidable (IsBody line) :=
  inferInstanceAs (Decidable (_ ∧ _))

namespace Section

/-- Whether the header of a section is a single line, and the lines are as well and not like a
header. -/
def IsPlain (s : Section) : Prop :=
  '\n' ∉ s.name.toList ∧ ∀ line ∈ s.lines, IsBody line

instance (s : Section) : Decidable s.IsPlain :=
  inferInstanceAs (Decidable (_ ∧ ∀ line ∈ s.lines, IsBody line))

/-- The lines that are written for a section. -/
def written (s : Section) : List String :=
  ("[" ++ s.name ++ "]") :: s.lines

end Section

theorem headerName?_brackets (name : String) : headerName? ("[" ++ name ++ "]") = some name := by
  have hlist : ("[" ++ name ++ "]").toList = '[' :: (name.toList ++ [']']) := by simp
  simp [headerName?, hlist]

/-- Lines that are no headers go to the section in front of them. -/
theorem cutSections_append {front : List String} (h : ∀ line ∈ front, headerName? line = none)
    (rest : List String) :
    cutSections (front ++ rest) = (front ++ (cutSections rest).1, (cutSections rest).2) := by
  induction front with
  | nil => rfl
  | cons line front ih =>
    obtain ⟨hline, hfront⟩ := List.forall_mem_cons.1 h
    simp only [List.cons_append, cutSections, hline, ih hfront]

/-- Sections are found again in their lines. -/
theorem cutSections_written {all : List Section} (h : ∀ s ∈ all, s.IsPlain) :
    cutSections (all.flatMap Section.written) = ([], all) := by
  induction all with
  | nil => rfl
  | cons s all ih =>
    obtain ⟨hs, hall⟩ := List.forall_mem_cons.1 h
    have hlines : ∀ line ∈ s.lines, headerName? line = none := fun line hline =>
      (hs.2 line hline).2
    simp only [List.flatMap_cons, Section.written, List.cons_append, cutSections,
      cutSections_append hlines, headerName?_brackets, ih hall, List.append_nil]

/-- The lines of plain sections are single lines. -/
theorem pieces_of_mem_written {s : Section} (h : s.IsPlain) :
    ∀ line ∈ s.written, Text.pieces '\n' line = [line] := by
  refine List.forall_mem_cons.2 ⟨Text.pieces_of_not_mem ?_, fun line hline => ?_⟩
  · simpa using h.1
  · exact Text.pieces_of_not_mem (h.2 line hline).1

/-- The pieces of lines with line feeds behind them are those of the lines and an empty one. -/
theorem pieces_join (texts : List String) :
    Text.pieces '\n' (String.join (texts.map (· ++ "\n"))) =
      texts.flatMap (Text.pieces '\n') ++ [""] := by
  induction texts with
  | nil => exact Text.pieces_of_not_mem (by simp)
  | cons text texts ih =>
    have hfeed : "\n" = String.singleton '\n' := rfl
    rw [List.map_cons, String.join_cons]
    conv_lhs => rw [hfeed]
    rw [Text.pieces_append, ← hfeed, ih, List.flatMap_cons, List.append_assoc]

theorem join_texts (all : List Section) :
    String.join (all.map Section.text) =
      String.join ((all.flatMap Section.written).map (· ++ "\n")) := by
  induction all with
  | nil => rfl
  | cons s all ih =>
    rw [List.map_cons, String.join_cons, ih, List.flatMap_cons, List.map_append, String.join_append]
    rfl

/-- Plain sections are found again in their text, behind a header without sections. -/
theorem readSections_join {header : String}
    (hheader : ∀ line ∈ Text.pieces '\n' header, headerName? line = none) {all : List Section}
    (h : ∀ s ∈ all, s.IsPlain) :
    readSections (header ++ "\n" ++ String.join (all.map Section.text)) = all := by
  have htext : header ++ "\n" ++ String.join (all.map Section.text) =
      String.join ((header :: all.flatMap Section.written).map (· ++ "\n")) := by
    rw [join_texts, List.map_cons, String.join_cons]
  have hlines : (all.flatMap Section.written).flatMap (Text.pieces '\n') =
      all.flatMap Section.written := by
    refine (List.flatMap_congr fun line hline => ?_).trans (List.flatMap_singleton' _)
    obtain ⟨s, hs, hline⟩ := List.mem_flatMap.1 hline
    exact pieces_of_mem_written (h s hs) line hline
  rw [readSections, htext, pieces_join, List.dropLast_concat, List.flatMap_cons, hlines,
    cutSections_append hheader, cutSections_written h]

/-! ## Files -/

/-- A file has the sections of the options in their order but without that of the rules, then that
of the rules, then those that are missing, with the lines of the options, those of the rules and
none.  So each mandatory section is there once, and the sections are found again in the text, unless
the texts of the options and of the rules look like headers themselves. -/
theorem content_sections (header : String) :
    content options header lines =
        header ++ "\n" ++ String.join ((sections options lines).map Section.text) ∧
      (sections options lines).map Section.name =
        ((options.map fun e => word e.1).filter fun name => name ≠ filterLocal) ++
          filterLocal :: missing options ∧
      sections options lines =
        ((options.filter fun e => word e.1 ≠ filterLocal).map fun e =>
          ⟨word e.1, sectionLines e.2⟩) ++
        ⟨filterLocal, lines⟩ :: (missing options).map (fun name => ⟨name, []⟩) ∧
      (∀ name ∈ mandatory, name = filterLocal ∨ Yaml.keysDiffer options = true →
        ((sections options lines).map Section.name).count name = 1) ∧
      ((∀ line ∈ Text.pieces '\n' header, headerName? line = none) →
        (∀ s ∈ givenSections options, s.IsPlain) → (∀ line ∈ lines, IsBody line) →
          readSections (content options header lines) = sections options lines) := by
  refine ⟨rfl, names_sections options lines, sections_eq options lines,
    fun name hname => count_names_sections options lines hname, fun hheader hgiven hlines => ?_⟩
  refine readSections_join hheader fun s hs => ?_
  have hmandatory : ∀ name ∈ mandatory, '\n' ∉ name.toList := by decide
  rw [sections_eq, List.mem_append, List.mem_cons, List.mem_map] at hs
  rcases hs with hs | rfl | ⟨name, hname, rfl⟩
  · exact hgiven s hs
  · exact ⟨hmandatory filterLocal (by decide), hlines⟩
  · exact ⟨hmandatory name (List.mem_filter.1 hname).1, by simp⟩

/-- Options with two mandatory sections out of their order, one of their own for the rules, and two
whose keys are no texts. -/
def mixedOptions : List (Yaml × Yaml) :=
  [(.str "mitm", .seq [.str "hostname = a.com"]),
    (.int 5, .map [(.str "a", .seq [.int 1, .bool true]), (.null, .str "b")]),
    (.str "filter_local", .seq [.str "host,old.com,direct"]),
    (.null, .null),
    (.str "general", .map [(.str "check", .str "http://a.com/")])]

theorem content_sections_mixedOptions :
    (∀ line ∈ Text.pieces '\n' "# H", headerName? line = none) ∧
      (∀ s ∈ givenSections mixedOptions, s.IsPlain) ∧
      (∀ line ∈ ["host,a.com,PROXY", "final,DIRECT"], IsBody line) ∧
      "general" ∈ mandatory ∧ Yaml.keysDiffer mixedOptions = true ∧
      ((sections mixedOptions ["host,a.com,PROXY", "final,DIRECT"]).map Section.name).count
        "general" = 1 ∧
      readSections (content mixedOptions "# H" ["host,a.com,PROXY", "final,DIRECT"]) =
        ⟨"mitm", ["hostname = a.com"]⟩ :: ⟨"5", ["a=1,true", "=b"]⟩ :: ⟨"", []⟩ ::
        ⟨"general", ["check=http://a.com/"]⟩ ::
        ⟨"filter_local", ["host,a.com,PROXY", "final,DIRECT"]⟩ ::
        ["dns", "policy", "server_local", "server_remote", "filter_remote", "rewrite_local",
          "rewrite_remote", "task_local"].map fun name => ⟨name, []⟩ := by
  obtain ⟨-, -, -, honce, hread⟩ :=
    content_sections mixedOptions ["host,a.com,PROXY", "final,DIRECT"] "# H"
  have hheader : ∀ line ∈ Text.pieces '\n' "# H", headerName? line = none := by decide +kernel
  have hgiven : ∀ s ∈ givenSections mixedOptions, s.IsPlain := by decide +kernel
  have hlines : ∀ line ∈ ["host,a.com,PROXY", "final,DIRECT"], IsBody line := by decide +kernel
  have hname : "general" ∈ mandatory := by decide
  have hkeys : Yaml.keysDiffer mixedOptions = true := by decide +kernel
  exact ⟨hheader, hgiven, hlines, hname, hkeys, honce _ hname (.inr hkeys),
    (hread hheader hgiven hlines).trans (by decide +kernel)⟩

end RoutingRules.QuantumultFile
