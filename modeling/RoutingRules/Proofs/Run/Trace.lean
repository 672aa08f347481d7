import RoutingRules.Proofs.SingBox.Trace
import RoutingRules.Run

/-!
# What is done for a target

Writing a target requests the documents that it needs first.  Then it makes directories and writes
files in them: those of its rule sets, if there are any, and at last its own.

Main results:

- Theorem {lit}`Run.isOrderly_writeTarget`: all requests of a target come first, and it uses files
  only in directories that it has made.
- Theorem {lit}`Run.reaches_writeTarget`: a target reaches nothing but documents, the files of its
  rule sets and its own file.
- Theorem {lit}`Run.writes_writeTarget`: the files that a target writes on its way to a report.
-/

open RoutingRules.Task (Does Works IsOrderly Runs Writes)

namespace RoutingRules

theorem Task.mapError_bind {σ ε ε' α β : Type} (wrap : ε → ε') (task : Task ε σ α)
    (next : α → Task ε σ β) :
    mapError wrap (task >>= next) = mapError wrap task >>= fun a => mapError wrap (next a) := by
  apply Task.ext
  intro w
  rw [run_mapError, run_bind, run_bind, run_mapError]
  rcases task.run.run w with ⟨e | a, between⟩
  · rfl
  · exact (run_mapError wrap (next a) between).symm

namespace Run

variable {σ : Type} {remote : Task.Remote σ} {before after : World σ}

/-! ## Files -/

/-- A file is written after the directory in which it is was made. -/
theorem writeFile_eq (path content : String) :
    (writeFile path content : Task RunError σ Unit) =
      match Files.parent? path with
      | none => Task.writing path (.text content) (some (.notWritten path))
      | some parent =>
        Task.making parent (.directoryNotMade parent) >>= fun _ =>
          Task.writing path (.text content) (some (.notWritten path)) := by
  unfold writeFile
  cases Files.parent? path with
  | none => exact Task.changing_write_eq path _ _
  | some parent => exact bind_congr fun _ => Task.changing_write_eq path _ _

/-- The directory in which a file is written is the parent of its path. -/
theorem uses_write {path parent : String} (hparent : Files.parent? path = some parent)
    (here : Files.Place) :
    (if FileTree.endsAsDirectory path = true then [] else Files.wayOf here path) ⊆
      Files.visited here parent := by
  split
  next => exact List.nil_subset _
  next hends =>
    exact fun s hs => Files.way_subset_of_parent hparent (by simpa using hends) hs

theorem works_writeFile (path content : String) :
    Works remote (writeFile path content : Task RunError σ Unit) := by
  rw [writeFile_eq]
  have hwriting : Does remote (fun access => access = .write path (.text content) ∨
      access = .refuse path)
      (Task.writing path (.text content) (some (.notWritten path)) : Task RunError σ Unit) :=
    Does.writing (.inl rfl) (.inr rfl)
  cases hparent : Files.parent? path with
  | none =>
    have hends := Files.endsAsDirectory_of_no_parent hparent
    refine Works.of_does hwriting ?_
    rintro access (rfl | rfl)
    · exact ⟨id, fun here => by simp [Access.uses, hends]⟩
    · exact ⟨id, fun here => by simp [Access.uses, hends]⟩
  | some parent =>
    refine Works.making_bind hwriting ?_
    rintro access (rfl | rfl)
    · exact ⟨id, uses_write hparent⟩
    · exact ⟨id, uses_write hparent⟩

/-- An access that serves to write a file: its directory is made, or it is written itself. -/
def WritesTo (path : String) : Access → Prop
  | .write written _ | .refuse written => written = path
  | .make parent => Files.parent? path = some parent
  | .request _ | .askVersion .. | .runTool .. | .measure _ => False

theorem does_writeFile (path content : String) :
    Does remote (WritesTo path) (writeFile path content : Task RunError σ Unit) := by
  rw [writeFile_eq]
  have hwriting : Does remote (WritesTo path)
      (Task.writing path (.text content) (some (.notWritten path)) : Task RunError σ Unit) :=
    Does.writing rfl rfl
  cases hparent : Files.parent? path with
  | none => exact hwriting
  | some parent => exact Does.bind (Does.making hparent) fun _ => hwriting

theorem eq_of_writesTo {reads : String → Option String} {own path : String} {access : Access}
    (h : WritesTo own access) (hpath : path ∈ access.filePaths reads) : path = own := by
  cases access with
  | write | refuse => exact (Set.eq_of_mem_singleton hpath).trans h
  | make => exact hpath.elim
  | request | askVersion | runTool | measure => exact h.elim

/-- What is done to write a file: its directory is made, if it has one, and then it is written. -/
def fileLog (path : String) (content : Files.Content) : List Access :=
  (Files.parent? path).toList.map .make ++ [.write path content]

/-- A file is used only in a directory that was made before. -/
theorem orderly_fileLog (path : String) (content : Files.Content) :
    Access.Orderly (fileLog path content) := by
  have hnone : ∀ access ∈ fileLog path content, ¬access.IsRequest := by
    unfold fileLog
    cases Files.parent? path <;> simp [Access.IsRequest]
  refine ⟨Access.requestsFirst_of_none hnone, fun here => ?_⟩
  unfold fileLog
  cases hparent : Files.parent? path with
  | none =>
    have hends := Files.endsAsDirectory_of_no_parent hparent
    exact ⟨by simp [Access.uses, hends], trivial⟩
  | some parent =>
    refine ⟨List.nil_subset _, ?_, trivial⟩
    simp only [Access.made, List.flatMap_cons, List.flatMap_nil, List.append_nil, List.nil_append]
    exact uses_write hparent here

/-- What is done to write a file keeps away from what is not on its way. -/
theorem keepsAway_fileLog {file dir : Files.Place → Prop} {here : Files.Place}
    {reads : String → Option String} {path : String} {content : Files.Content}
    (hdot : ∀ parent, Files.parent? path = some parent → ¬Files.EndsInDot parent)
    (hfile : ∀ place ∈ Files.visited here path, ¬file place)
    (hdir : ¬dir (Files.placeOf here path)) :
    ∀ access ∈ fileLog path content, access.KeepsAway file dir here reads := by
  have hwrite : (Access.write path content).KeepsAway file dir here reads :=
    ⟨by simpa [Access.paths] using hfile, by simpa [Access.feels] using hdir⟩
  unfold fileLog
  cases hparent : Files.parent? path with
  | none => simpa using hwrite
  | some parent =>
    have hmake : (Access.make parent).KeepsAway file dir here reads := by
      refine ⟨?_, by simp [Access.feels, hdot parent hparent]⟩
      simp only [Access.paths, Set.mem_singleton_iff, forall_eq]
      intro place hplace
      exact hfile place ((Files.mem_visited_iff_of_parent hparent).2 (.inl hplace))
    simpa using ⟨hmake, hwrite⟩

theorem written_fileLog (path : String) (content : Files.Content) :
    Access.written (fileLog path content) = [(path, content)] := by
  unfold fileLog
  cases Files.parent? path <;> rfl

/-- A file that was written was written in a directory that was made before. -/
theorem runs_writeFile {path content : String}
    (h : (writeFile path content : Task RunError σ Unit).Yields before () after) :
    Runs remote (writeFile path content : Task RunError σ Unit) before
      (fileLog path (.text content)) (.ok ()) after := by
  rw [writeFile_eq] at h ⊢
  unfold fileLog
  cases hparent : Files.parent? path with
  | none =>
    rw [hparent] at h
    exact .of_writing h
  | some parent =>
    rw [hparent] at h
    obtain ⟨_, w, hmake, hwrite⟩ := Task.yields_bind.1 h
    exact .bind (.of_making hmake) (.of_writing hwrite)

/-- A file that was written is the only one. -/
theorem writes_writeFile {path content : String}
    (h : (writeFile path content : Task RunError σ Unit).Yields before () after) :
    Writes remote (writeFile path content : Task RunError σ Unit) before ()
      [(path, .text content)] after :=
  ⟨_, runs_writeFile h, written_fileLog path _⟩

/-! ## Clients with lines -/

theorem works_writeLines (run : Run σ) (client : LineClient) (t : Config.Target)
    (rules : List RouteRule) : Works remote (run.writeLines client t rules) := by
  have htell : ∀ notices, Works remote (Task.tell notices : Task RunError σ Unit) := fun notices =>
    Works.of_does (Does.tell notices) fun _ h => absurd h id
  have hthrow : ∀ e, Works remote (throw e : Task RunError σ TargetReport) := fun e =>
    Works.of_does (Does.throw e) fun _ h => absurd h id
  unfold writeLines
  refine Works.bind (htell _) fun _ => ?_
  cases RenderedRules.ofRules client rules with
  | error e => exact hthrow _
  | ok rendered =>
    refine Works.bind (htell _) fun _ => ?_
    cases client.content t.options run.header rendered.lines with
    | error e => exact hthrow _
    | ok content =>
      refine Works.bind (works_writeFile _ _) fun _ => ?_
      exact Works.of_does (Does.pure _) fun _ h => absurd h id

/-! ## Clients with rule objects -/

/-- How the rule sets of a target are compiled, if they are. -/
def compilerFor (run : Run σ) (t : Config.Target) : SingBox.Compiler :=
  compilerOf run.options t.singBox.ruleSet

/-- How the configuration of a target is made. -/
def generatorOf (run : Run σ) (t : Config.Target) (compiler : Option SingBox.Compiler) :
    SingBox.Generator σ :=
  { options := t.singBox
    destinations := targetTable run.config t
    remote := run.remote
    compiler }

/-- Write a finished configuration. -/
def deliver (run : Run σ) (t : Config.Target) (document : SingBox.Document) :
    Task RunError σ TargetReport := do
  let path := targetPath run.options t "json"
  writeFile path (document.content.pretty ++ "\n")
  return ⟨t.name, path, ruleCount document.content, 0, document.unsupported,
    document.artifacts.length⟩

/-- A configuration is drafted, completed and delivered. -/
theorem writeDocument_eq (run : Run σ) (t : Config.Target) (rules : List RouteRule) :
    run.writeDocument t rules =
      match Yaml.toJson (.map t.options) with
      | .error fault => throw (.optionsNotJson fault)
      | .ok template =>
        run.chooseCompiler t >>= fun compiler =>
          Task.mapError .rule ((run.generatorOf t compiler).draft rules template) >>= fun d =>
            Task.mapError .rule ((run.generatorOf t compiler).complete d) >>= run.deliver t := by
  unfold writeDocument
  cases Yaml.toJson (.map t.options) with
  | error fault => rfl
  | ok template =>
    refine bind_congr fun compiler => ?_
    show Task.mapError .rule ((run.generatorOf t compiler).generate rules template) >>=
      run.deliver t = _
    rw [SingBox.Generator.generate_eq, Task.mapError_bind, bind_assoc]

/-- Choosing a compiler does nothing else. -/
theorem does_chooseCompiler {p : Access → Prop} (run : Run σ) (t : Config.Target) :
    Does remote p (run.chooseCompiler t) := by
  unfold chooseCompiler
  dsimp only
  split
  · split
    · exact Does.bind (Does.throw _) fun _ => Does.pure _
    · exact Does.pure _
  · split
    · exact Does.bind (Does.tell _) fun _ => Does.pure _
    · exact Does.pure _

/-- The compiler is none, or the one of the options of the target. -/
theorem eq_of_chooseCompiler {run : Run σ} {t : Config.Target}
    {compiler : Option SingBox.Compiler}
    (h : (run.chooseCompiler t).Yields before compiler after) :
    compiler = none ∨ compiler = some (run.compilerFor t) := by
  unfold chooseCompiler at h
  dsimp only at h
  split at h
  · split at h
    · simp only [Task.yields_bind, Task.not_yields_throw, false_and, exists_false] at h
    · exact .inr (Task.yields_pure.1 h).1.symm
  · split at h
    · simp only [Task.yields_bind, Task.yields_pure] at h
      obtain ⟨_, _, _, rfl, _⟩ := h
      exact .inl rfl
    · exact .inl (Task.yields_pure.1 h).1.symm

theorem isOrderly_writeDocument (run : Run σ) (t : Config.Target) (rules : List RouteRule) :
    IsOrderly run.remote (run.writeDocument t rules) := by
  rw [writeDocument_eq]
  cases Yaml.toJson (.map t.options) with
  | error fault =>
    refine Works.isOrderly (Works.of_does (Does.throw _) fun _ h => absurd h id)
  | ok template =>
    refine IsOrderly.bind (run.does_chooseCompiler t) fun compiler => ?_
    refine IsOrderly.bind ?_ fun d => Works.isOrderly ?_
    · exact Does.mapError _ ((run.generatorOf t compiler).does_draft rules template)
    · refine Works.bind (Works.mapError _ ((run.generatorOf t compiler).works_complete d)) ?_
      intro document
      exact Works.bind (works_writeFile _ _) fun _ =>
        Works.of_does (Does.pure _) fun _ h => absurd h id

/-! ## Targets -/

/-- All requests of a target come first, and it uses files only in directories that it has made. -/
theorem isOrderly_writeTarget (run : Run σ) (rules : List RouteRule) (t : Config.Target) :
    IsOrderly run.remote (run.writeTarget rules t) := by
  unfold writeTarget
  dsimp only
  cases LineClient.ofClient? t.client with
  | some client => exact (run.works_writeLines client t _).isOrderly
  | none => exact run.isOrderly_writeDocument t _

/-- What is done for a target: the file of a client with lines is written; for sing-box documents are
requested and rule sets are compiled before. -/
def Reaches (run : Run σ) (t : Config.Target) (access : Access) : Prop :=
  match LineClient.ofClient? t.client with
  | some client => WritesTo (targetPath run.options t client.extension) access
  | none =>
    access.IsRequest ∨ (run.compilerFor t).Reaches access ∨
      WritesTo (targetPath run.options t "json") access

/-- Without documents in files a target for sing-box only reads and writes its tool, the files of its
rule sets and its own file, when the tool looks at no others. -/
theorem filePaths_cases {run : Run σ} {t : Config.Target} {access : Access} {path : String}
    (hclient : LineClient.ofClient? t.client = none) (h : run.Reaches t access)
    (hpath : path ∈ access.withoutLooks.filePaths fun _ => none) :
    path = (run.compilerFor t).binary ∨
      (∃ tag, SingBox.IsPlainTag tag ∧
        (path = (run.compilerFor t).sourcePath tag ∨ path = (run.compilerFor t).compiledPath tag)) ∨
      path = targetPath run.options t "json" := by
  unfold Reaches at h
  rw [hclient] at h
  rcases h with hrequest | (⟨_, rfl⟩ | rfl | ⟨tag, htag, htouches⟩) | hwrites
  · cases access with
    | request => cases hpath
    | _ => exact hrequest.elim
  · exact .inl (hpath.resolve_right id).2
  · exact hpath.elim
  · cases access with
    | write | refuse =>
      rw [Set.eq_of_mem_singleton hpath]
      exact .inr (.inl ⟨tag, htag, htouches⟩)
    | measure =>
      rw [Set.eq_of_mem_singleton hpath]
      exact .inr (.inl ⟨tag, htag, .inr htouches⟩)
    | runTool =>
      obtain ⟨rfl, _, rfl⟩ := htouches
      rcases hpath with rfl | htool | hnone
      · exact .inr (.inl ⟨tag, htag, .inr rfl⟩)
      · exact .inl htool.2
      · exact hnone.elim
    | request | askVersion | make => exact htouches.elim
  · cases access with
    | write | refuse => exact .inr (.inr (eq_of_writesTo hwrites hpath))
    | make => exact hpath.elim
    | request | askVersion | runTool | measure => exact hwrites.elim

theorem reaches_writeLines (run : Run σ) (client : LineClient) (t : Config.Target)
    (rules : List RouteRule) :
    Does remote (WritesTo (targetPath run.options t client.extension))
      (run.writeLines client t rules) := by
  unfold writeLines
  refine Does.bind (Does.tell _) fun _ => ?_
  cases RenderedRules.ofRules client rules with
  | error e => exact Does.throw _
  | ok rendered =>
    refine Does.bind (Does.tell _) fun _ => ?_
    cases client.content t.options run.header rendered.lines with
    | error e => exact Does.throw _
    | ok content => exact Does.bind (does_writeFile _ _) fun _ => Does.pure _

theorem reaches_writeDocument (run : Run σ) (t : Config.Target) (rules : List RouteRule) :
    Does run.remote (fun access => access.IsRequest ∨ (run.compilerFor t).Reaches access ∨
      WritesTo (targetPath run.options t "json") access) (run.writeDocument t rules) := by
  rw [writeDocument_eq]
  cases Yaml.toJson (.map t.options) with
  | error fault => exact Does.throw _
  | ok template =>
    refine Does.bind_of_yields (run.does_chooseCompiler t) fun _ compiler _ hchosen => ?_
    have hdraft := (run.generatorOf t compiler).does_draft rules template
    refine Does.bind (Does.mapError _ (hdraft.mono fun _ => .inl)) fun d => ?_
    refine Does.bind (Does.mapError _ (SingBox.Generator.reaches_complete ?_ d)) fun document => ?_
    · rintro c (rfl : compiler = some c) access haccess
      rcases eq_of_chooseCompiler hchosen with hnone | hsome
      · cases hnone
      · cases hsome
        exact .inr (.inl haccess)
    · exact Does.bind ((does_writeFile _ _).mono fun _ haccess => .inr (.inr haccess)) fun _ =>
        Does.pure _

/-- A target reaches nothing else. -/
theorem reaches_writeTarget (run : Run σ) (rules : List RouteRule) (t : Config.Target) :
    Does run.remote (run.Reaches t) (run.writeTarget rules t) := by
  unfold writeTarget Reaches
  dsimp only
  cases LineClient.ofClient? t.client with
  | some client => exact run.reaches_writeLines client t _
  | none => exact run.reaches_writeDocument t _

/-- The files of a target that was written: those of its rule sets, in order, and its own. -/
def HasFiles (run : Run σ) (t : Config.Target) (report : TargetReport)
    (files : List (String × Files.Content)) : Prop :=
  ∃ (format : Nat) (compiled : List (SingBox.RuleSet × Option Files.Content)) (content : String),
    report.ruleSets = compiled.length ∧
      files = compiled.flatMap ((run.compilerFor t).filesOf format) ++ [(report.path, .text content)]

theorem runs_tell {notices : List Notice} {w w' : World σ}
    (h : (Task.tell notices : Task RunError σ Unit).Yields w () w') :
    Runs remote (Task.tell notices : Task RunError σ Unit) w [] (.ok ()) w' := by
  obtain rfl : { w with notices := w.notices ++ notices } = w' := congrArg Prod.snd h
  exact .tell notices w

/-- For a client with lines only its file is written. -/
theorem runs_writeLines {run : Run σ} {client : LineClient} {t : Config.Target}
    {rules : List RouteRule} {report : TargetReport}
    (h : (run.writeLines client t rules).Yields before report after) :
    report.ruleSets = 0 ∧
      ∃ content, Runs run.remote (run.writeLines client t rules) before
        (fileLog report.path (.text content)) (.ok report) after := by
  unfold writeLines at h ⊢
  obtain ⟨_, w, hnotices, h⟩ := Task.yields_bind.1 h
  cases hrendered : RenderedRules.ofRules client rules with
  | error e =>
    rw [hrendered] at h
    exact absurd h Task.not_yields_throw
  | ok rendered =>
    simp only [hrendered] at h ⊢
    obtain ⟨_, w', hoptions, h⟩ := Task.yields_bind.1 h
    cases hcontent : client.content t.options run.header rendered.lines with
    | error e =>
      rw [hcontent] at h
      exact absurd h Task.not_yields_throw
    | ok content =>
      simp only [hcontent] at h ⊢
      simp only [Task.yields_bind, Task.yields_pure] at h
      obtain ⟨_, w'', hfile, rfl, rfl⟩ := h
      refine ⟨rfl, content, ?_⟩
      -- Telling notices leaves no trace.
      rw [← List.append_nil (fileLog _ _), ← List.nil_append (fileLog _ _ ++ []),
        ← List.nil_append ([] ++ (fileLog _ _ ++ []))]
      refine .bind (runs_tell hnotices) (.bind (runs_tell hoptions) ?_)
      exact .bind (runs_writeFile hfile) (.pure _ w'')

theorem writes_writeDocument {run : Run σ} {t : Config.Target} {rules : List RouteRule}
    {report : TargetReport} (h : (run.writeDocument t rules).Yields before report after) :
    ∃ files, Writes run.remote (run.writeDocument t rules) before report files after ∧
      run.HasFiles t report files := by
  unfold writeDocument at h ⊢
  cases htemplate : Yaml.toJson (.map t.options) with
  | error fault =>
    rw [htemplate] at h
    exact absurd h Task.not_yields_throw
  | ok template =>
    rw [htemplate] at h
    dsimp only at h ⊢
    obtain ⟨compiler, w, hcompiler, h⟩ := Task.yields_bind.1 h
    have hchosen := eq_of_chooseCompiler hcompiler
    have hcompiler : Writes run.remote (run.chooseCompiler t) before compiler [] w :=
      Writes.of_does (p := fun _ => False) (run.does_chooseCompiler t) (fun _ h => absurd h id)
        hcompiler
    obtain ⟨document, w', hdocument, h⟩ := Task.yields_bind.1 h
    obtain ⟨files, hfiles, hsets⟩ :=
      SingBox.Generator.writes_generate (Task.yields_mapError.1 hdocument)
    simp only [Task.yields_bind, Task.yields_pure] at h
    obtain ⟨_, w'', hfile, rfl, rfl⟩ := h
    refine ⟨_, hcompiler.bind ((hfiles.mapError _).bind
      ((writes_writeFile hfile).bind (.pure _ w''))), ?_⟩
    rcases hchosen with rfl | rfl
    · obtain ⟨hartifacts, rfl⟩ := hsets
      exact ⟨0, [], _, congrArg List.length hartifacts, rfl⟩
    · obtain ⟨format, compiled, hartifacts, rfl⟩ := hsets
      exact ⟨format, compiled, _, by simpa using congrArg List.length hartifacts, rfl⟩

/-- The files that a target writes on its way to a report. -/
theorem writes_writeTarget {run : Run σ} {t : Config.Target} {rules : List RouteRule}
    {report : TargetReport} (h : (run.writeTarget rules t).Yields before report after) :
    ∃ files, Writes run.remote (run.writeTarget rules t) before report files after ∧
      run.HasFiles t report files := by
  unfold writeTarget at h ⊢
  dsimp only at h ⊢
  cases hclient : LineClient.ofClient? t.client with
  | some client =>
    rw [hclient] at h
    obtain ⟨hsets, content, hruns⟩ := runs_writeLines h
    exact ⟨_, ⟨_, hruns, written_fileLog _ _⟩, 0, [], content, hsets, rfl⟩
  | none =>
    rw [hclient] at h
    exact writes_writeDocument h

end Run

end RoutingRules
