import TypedClient.Proofs.Command.Ending
import TypedClient.Proofs.Command.Files
import TypedClient.Proofs.TopLevelNames

/-!
# What a run leaves

A run that only generates and ends well changes the files of its project and no others. One that
fails while it saves them leaves the files before the one that it fails at with their texts
(`Command.files_of_run`), so it may have written the client file (`Command.not_allOrNothing`). Any
other run that fails changes no file.
-/

namespace TypedClient

namespace Command

open Workspace (Bars)

variable {w : Workspace}

/-! ## Runs that generate -/

/-- What a run for arguments has generated, and the path of the client file. -/
inductive Generates (args : List String) (s : Session) (output : String) (project : Project) : Prop
  | intro {a : Arguments} {st : Settings} {url : String} {raw : Value} {notices : List Notice}
      (harguments : Arguments.parse args = .ok a) (hsettings : s.settingsFor a = .ok st)
      (hsupplied : s.Supplies st url output raw)
      (hproject : generate raw ⟨some url, Path.baseName output, st.includeExample⟩ =
        .ok (project, notices))

/-- The ending of a run at a fault. -/
def endingAt (fault : RunFault) : Ending :=
  if fault.report?.isSome then .reported fault else .stopped fault

/-- How a run that only generates leaves the files: as they were if its arguments are refused or it
fails before it saves, with the files of the project if it ends well. If the example file is
refused, the client file is there all the same, and if one of the files does not get its text, the
files before it have theirs. Of a run that meets something that is not represented, nothing is said.
-/
inductive Leaves (args : List String) (s : Session) : Ending → Workspace → Prop
  | refused {fault : ArgumentsFault} (h : Arguments.parse args = .error fault) :
      Leaves args s (.usage fault) s.workspace
  | unsupported {fault : RunFault} {w' : Workspace} (h : fault.IsUnsupported) :
      Leaves args s (.stopped fault) w'
  | generated {output : String} {project : Project} {above : List String} {w' : Workspace}
      (hproject : Generates args s output project) (hnames : (project.files.map (·.name)).Nodup)
      (h : s.workspace.Gains w' (Path.directoryName output) above
        (project.files.map CodeFile.whole)) :
      Leaves args s .done w'
  | untouched {e : Ending} {w' : Workspace} (hsupported : e.IsSupported) (hcode : e.exitCode = 1)
      (h : s.workspace.Updates w' []) : Leaves args s e w'
  | clientOnly {output : String} {project : Project} {client example_ : CodeFile}
      {above : List String} {reason : FileFault.Reason} {w' : Workspace}
      (hproject : Generates args s output project) (hfiles : project.files = [client, example_])
      (hreason : Bars reason)
      (h : s.workspace.Gains w' (Path.directoryName output) above [client.whole]) :
      Leaves args s
        (.reported (.file ⟨reason, Path.join (Path.directoryName output) example_.name⟩)) w'
  | broken {output : String} {project : Project} {done rest : List CodeFile} {f : CodeFile}
      {above : List String} {content : FileContent} {fault : RunFault} {w' : Workspace}
      (hproject : Generates args s output project) (hfiles : project.files = done ++ f :: rest)
      (hfilled : Filled s.cuts (Path.join (Path.directoryName output) f.name) f.text content
        (.error fault))
      (h : s.workspace.Gains w' (Path.directoryName output) above
        (done.map CodeFile.whole ++ [(f.name, content)])) :
      Leaves args s (endingAt fault) w'

theorem isSupported_noSource : Ending.noSource.IsSupported := by
  intro fault h
  cases h

section

variable {args : List String} {a : Arguments} {s s₁ : Session} {st : Settings} {output : String}
  {project : Project}

theorem generates_of_project (hparse : Arguments.parse args = .ok a)
    (hst : s.settingsFor a = .ok st) (houtput : st.output = .text output)
    (h : s.project st = .ok project) : Generates args s output project := by
  obtain ⟨url, output', raw, hsupplied, -, notices, hgenerate⟩ := Session.project_eq_ok.1 h
  cases houtput.symm.trans hsupplied.outputText
  exact .intro hparse hst hsupplied hgenerate

theorem files_of_generates (h : Generates args s output project) :
    ∃ client : CodeFile, client.name = Path.baseName output ∧
      (project.files = [client] ∨ ∃ example_ : CodeFile,
        example_.name = ExampleFile.fileName (Path.baseName output) ∧
          project.files = [client, example_]) := by
  obtain ⟨-, -, -, hproject⟩ := h
  obtain ⟨client, hname, ⟨-, hfiles⟩ | ⟨-, hfiles⟩⟩ := files_of_generate hproject
  · exact ⟨client, hname, .inl hfiles⟩
  · exact ⟨client, hname, .inr hfiles⟩

theorem nodup_names_of_generates (h : Generates args s output project) :
    (project.files.map (·.name)).Nodup := by
  obtain ⟨client, hclient, hfiles | ⟨example_, hexample, hfiles⟩⟩ := files_of_generates h
  · simp [hfiles]
  · simp [hfiles, hclient, hexample, Ne.symm (ExampleFile.fileName_ne _)]

/-- Only the client file stands before another file of a project. -/
theorem before_of_generates (h : Generates args s output project) {done rest : List CodeFile}
    {f : CodeFile} (hfiles : project.files = done ++ f :: rest) :
    done = [] ∨ ∃ client, done = [client] ∧ rest = [] := by
  rcases done with _ | ⟨client, done⟩
  · exact .inl rfl
  · obtain ⟨_, -, hone | ⟨_, -, htwo⟩⟩ := files_of_generates h
    · simp [hone] at hfiles
    · have hlength := congrArg List.length (hfiles.symm.trans htwo)
      simp only [List.cons_append, List.length_cons, List.length_append, List.length_nil]
        at hlength
      obtain rfl : done = [] := List.eq_nil_of_length_eq_zero (by omega)
      exact .inr ⟨client, rfl, List.eq_nil_of_length_eq_zero (by omega)⟩

/-- What becomes of the files of a generated project when they are saved. -/
theorem written_of_saving (hproject : Generates args s output project) {s' : Session}
    {result : Except RunFault Unit} (hrun : s₁.saving project output = (result, s')) :
    (∃ fault, result = .error (.file fault) ∧ s₁.workspace.Updates s'.workspace []) ∨
      ∃ above, Written s₁.cuts (Path.directoryName output) above s₁.workspace s'.workspace
        project.files result := by
  rcases exists_writeFiles_of_saveProject hrun with h | ⟨s₂, s₃, hmade, hcuts, hwrite, hafter⟩
  · exact .inl h
  rw [hafter, ← hcuts]
  have hnodup := nodup_names_of_generates hproject
  obtain ⟨client, hclient, hfiles⟩ := files_of_generates hproject
  have hslash : '/' ∉ client.name.toList := hclient ▸ Path.notMem_baseName output
  have hwritten : ∀ rest, project.files = client :: rest →
      (∀ f ∈ rest, f.name = ExampleFile.fileName client.name) →
      (∃ fault, result = .error (.file fault) ∧ s₁.workspace.Updates s₃.workspace []) ∨
        ∃ above, Written s₂.cuts (Path.directoryName output) above s₁.workspace s₃.workspace
          project.files result := by
    intro rest hrest hnames
    have hbeside : ∀ f ∈ rest, '/' ∉ f.name.toList ∧ Workspace.IsName f.name ∧
        ('\x00' ∉ client.name.toList → '\x00' ∉ f.name.toList) := by
      intro f hf
      rw [hnames f hf]
      exact ⟨ExampleFile.notMem_fileName hslash (by decide), ExampleFile.isName_fileName _,
        fun hnull => ExampleFile.notMem_fileName hnull (by decide)⟩
    rw [hrest] at hwrite hnodup ⊢
    rcases written_of_writeFiles hslash hnodup hbeside hwrite with
      ⟨fault, rfl, rfl⟩ | ⟨above, h⟩
    · exact .inl ⟨fault, rfl, hmade⟩
    · exact .inr ⟨above, h.after hmade⟩
  rcases hfiles with hfiles | ⟨example_, hexample, hfiles⟩
  · exact hwritten [] hfiles nofun
  · exact hwritten [example_] hfiles fun f hf => by rw [List.mem_singleton.1 hf, hexample, hclient]

/-- A run that ends at a fault and has changed no file. -/
theorem leaves_endingAt (fault : RunFault) (h : s.workspace.Updates w []) :
    Leaves args s (endingAt fault) w := by
  unfold endingAt
  split
  · exact .untouched nofun rfl h
  · by_cases hfault : fault.IsUnsupported
    · exact .unsupported hfault
    · refine .untouched ?_ rfl h
      rintro _ ⟨⟩
      exact hfault

theorem generateOrReport_eq_endingAt (after : StateM Session Ending) {fault : RunFault}
    {s' : Session} (h : (generateAndSave (m := StateM Session) st).run s = (.error fault, s')) :
    (generateOrReport st after s).1 = endingAt fault ∧
      (generateOrReport st after s).2.workspace = s'.workspace := by
  rw [generateOrReport_of_error h, endingAt]
  cases fault.report? <;> exact ⟨rfl, rfl⟩

theorem endingAt_of_bars {reason : FileFault.Reason} (h : Bars reason) (path : String) :
    endingAt (.file ⟨reason, path⟩) = .reported (.file ⟨reason, path⟩) := by
  cases h <;> rfl

theorem leaves_generateOrReport {after : StateM Session Ending}
    (hafter : ∀ s', after s' = (.done, s')) (hparse : Arguments.parse args = .ok a)
    (hst : s.settingsFor a = .ok st) (hurl : st.url.isTruthy = true) (halike : s.Alike s₁) :
    Leaves args s (generateOrReport st after s₁).1 (generateOrReport st after s₁).2.workspace := by
  have hcongr := Session.project_congr halike st
  rcases hproject : s.project st with fault | project
  · obtain ⟨s', halike', hrun⟩ :=
      run_generateAndSave_of_error hurl (hcongr.symm.trans hproject)
    obtain ⟨hending, hworkspace⟩ := generateOrReport_eq_endingAt after hrun
    rw [hending, hworkspace, ← (halike.trans halike').workspace]
    exact leaves_endingAt fault (.refl _)
  obtain ⟨output, htextual⟩ := textual_of_project hproject
  have hgenerates := generates_of_project hparse hst htextual.output hproject
  obtain ⟨s₂, halike₂, hrun⟩ :=
    run_generateAndSave_of_ok hurl (hcongr.symm.trans hproject) htextual.output
  rcases hsaving : s₂.saving project output with ⟨result, s'⟩
  rw [hsaving] at hrun
  have hcases := written_of_saving hgenerates hsaving
  rw [← (halike.trans halike₂).workspace, ← (halike.trans halike₂).cuts] at hcases
  rcases result with fault | ⟨⟩
  · obtain ⟨hending, hworkspace⟩ := generateOrReport_eq_endingAt after hrun
    rw [hending, hworkspace]
    rcases hcases with ⟨_, -, hkeeps⟩ | ⟨above, hwritten⟩
    · exact leaves_endingAt fault hkeeps
    generalize hfiles : project.files = files at hwritten
    cases hwritten with
    | broken _ hfilled h => exact .broken hgenerates hfiles hfilled h
    | @before done rest f reason h hreason =>
      obtain rfl | ⟨client, rfl, rfl⟩ := before_of_generates hgenerates hfiles
      · exact leaves_endingAt _ h.updates
      · rw [endingAt_of_bars hreason]
        exact .clientOnly hgenerates hfiles hreason h
  · rw [generateOrReport_of_ok hrun, hafter]
    rcases hcases with ⟨_, h, -⟩ | ⟨above, hwritten⟩
    · cases h
    generalize hfiles : project.files = files at hwritten
    cases hwritten with
    | all h => exact .generated hgenerates (nodup_names_of_generates hgenerates) (hfiles ▸ h)

end

/-! ## The example file may be refused -/

/-- A run that generates into the working directory does what its files come to, and then ends. -/
theorem run_of_writeFiles {args : List String} {a : Arguments} {s s' : Session} {st : Settings}
    {project : Project} {output : String} {result : Except RunFault Unit}
    (hparse : Arguments.parse args = .ok a) (hinit : a.initConfig = false)
    (hst : s.settingsFor a = .ok st) (hurl : st.url.isTruthy = true)
    (houtput : st.output = .text output) (hproject : s.project st = .ok project)
    (hdirectory : Path.directoryName output = "")
    (hwrite : (writeFiles (m := StateM Session) "" project.files).run s = (result, s')) :
    ∃ s₁ s₂, run (m := StateM Session) args s = generateOrReport st (afterSaving a st) s₁ ∧
      (generateAndSave (m := StateM Session) st).run s₁ = (result, s₂) ∧
      s₂.workspace = s'.workspace := by
  obtain ⟨s₁, halike₁, hrun⟩ := runWith_of_ok hinit hst
  rw [if_pos hurl] at hrun
  obtain ⟨s₂, halike₂, hgenerate⟩ := run_generateAndSave_of_ok hurl
    ((Session.project_congr halike₁ st).symm.trans hproject) houtput
  -- the files are written in a session that has only more lines than `s`
  have hlines := (halike₁.trans halike₂).trans (Session.alike_told s₂
    ("💾 Сохранение " ++ toString project.files.length ++ " файлов..."))
  have hanswer := (uniform_writeFiles "" project.files).answer _ _ hlines
  have hafter := ((uniform_writeFiles "" project.files).effect _ _ hlines).workspace
  rw [hwrite] at hanswer hafter
  rcases hfiles : (writeFiles (m := StateM Session) "" project.files).run (s₂.told
    ("💾 Сохранение " ++ toString project.files.length ++ " файлов...")) with ⟨answer, s₂'⟩
  rw [hfiles] at hanswer hafter
  subst hanswer
  obtain ⟨s₃, hsaving, hworkspace⟩ := run_saveFiles hfiles
  refine ⟨s₁, s₃, ?_, ?_, hworkspace.trans hafter.symm⟩
  · rw [run_of_parse hparse, hrun]
  · rw [hgenerate, Session.saving, saveProject_eq, run_bind_of_ok (run_tell _ _), hdirectory,
      if_neg (by decide), hsaving]

/-- Where the example file is refused, the run fails and the client file is there. -/
theorem run_of_refused {args : List String} {a : Arguments} {s : Session} {st : Settings}
    {project : Project} {client example_ : CodeFile} {output : String}
    (hparse : Arguments.parse args = .ok a) (hinit : a.initConfig = false)
    (hst : s.settingsFor a = .ok st) (hurl : st.url.isTruthy = true)
    (houtput : st.output = .text output) (hproject : s.project st = .ok project)
    (hdirectory : Path.directoryName output = "") (hfiles : project.files = [client, example_])
    (hclient : s.workspace.write client.name "" = .ok w)
    (hexample : ∀ content w', s.workspace.store client.name content = .ok w' →
      Fails (w'.write example_.name "")) :
    (run (m := StateM Session) args s).1.exitCode = 1 ∧ ∃ content,
      s.workspace.store client.name content =
        .ok (run (m := StateM Session) args s).2.workspace := by
  obtain ⟨content, result, w', -, hstore, hfile⟩ :=
    run_writeFile_of_ok hclient client.text
  have hwrite : ∃ fault, (writeFiles (m := StateM Session) "" project.files).run s =
      (.error fault, { s with workspace := w' }) := by
    rw [← Path.join_empty client.name] at hfile
    rw [hfiles]
    rcases result with fault | ⟨⟩
    · exact ⟨fault, run_writeFiles_cons_of_error hfile⟩
    · obtain ⟨fault, hrefused⟩ := hexample content w' hstore
      rw [← Path.join_empty example_.name] at hrefused
      rw [run_writeFiles_cons_of_ok hfile]
      exact ⟨_, run_writeFiles_cons_of_error (run_writeFile_of_error hrefused)⟩
  obtain ⟨fault, hwrite⟩ := hwrite
  obtain ⟨s₁, s₂, hrun, hgenerate, hworkspace⟩ :=
    run_of_writeFiles hparse hinit hst hurl houtput hproject hdirectory hwrite
  obtain ⟨hending, hsame⟩ := generateOrReport_eq_endingAt (afterSaving a st) hgenerate
  rw [hrun, hending, hsame, hworkspace]
  refine ⟨?_, content, hstore⟩
  unfold endingAt
  split <;> rfl

/-- The text of a document without paths. -/
def pathlessText : String :=
  "\x7b\"openapi\": \"3.0.0\", \"info\": \x7b\"title\": \"Pets\", \"version\": \"1\"\x7d, " ++
    "\"paths\": \x7b\x7d\x7d"

def pathlessValue : Value :=
  .map [(.text "openapi", .text "3.0.0"),
    (.text "info", .map [(.text "title", .text "Pets"), (.text "version", .text "1")]),
    (.text "paths", .map [])]

theorem pathlessText_spec : '\r' ∉ pathlessText.toList ∧ Text.isEncodable pathlessText = true ∧
    Json.read pathlessText = .ok pathlessValue := by
  rw [Text.isEncodable, Json.read, Text.toList_of_chars (s := pathlessText) (by
    unfold pathlessText
    repeat first | apply Text.append_of_chars | rfl)]
  exact ⟨by decide, by decide, rfl⟩

/-- What the text holds. -/
def pathlessDocument : Document := ⟨"3.0.0", ⟨"Pets", "1", none⟩, [], [], none⟩

theorem ofValue_pathlessValue : Document.ofValue pathlessValue = .ok pathlessDocument := rfl

theorem isRepresented_pathless : isRepresented "s.json" "x.ts" pathlessValue = true := by
  rw [isRepresented, ofValue_pathlessValue]
  decide

theorem registry_pathless : pathlessDocument.registry = .ok (.ofPairs []) :=
  Document.registry_eq_ok _ rfl

theorem exists_generate_pathless (options : Options) :
    ∃ p, generate pathlessValue options = .ok p := by
  have hbare : (Registry.ofPairs []).IsBare := .of_entries_eq_nil rfl
  exact exists_generate_eq_ok ofValue_pathlessValue (by decide) registry_pathless rfl
    (List.forall_mem_nil _) fun v hv => absurd hv (hbare.not_showsChoice (List.forall_mem_nil _))

/-- A session with a document, and with a directory where the example file of `x.ts` would be. -/
def blockedSession : Session :=
  .start (.ofEntries [(["s.json"], .file (.ok pathlessText)), (["x-example.ts"], .directory)])
    "/work" []

theorem entry_blockedSession :
    blockedSession.workspace.entry? ["s.json"] = some (.file (.ok pathlessText)) ∧
    blockedSession.workspace.entry? ["x-example.ts"] = some .directory ∧
    blockedSession.workspace.entry? ["x.ts"] = none ∧
    blockedSession.workspace.entry? ["openapi.toml"] = none := by
  simp [Workspace.entry?, blockedSession, Session.start, Workspace.ofEntries]

theorem settingsFor_blockedSession (noExample save : Bool) :
    blockedSession.settingsFor
        ⟨⟨some "s.json", some "x.ts", noExample⟩, "openapi.toml", false, save⟩ =
      .ok ⟨.text "s.json", .text "x.ts", !noExample⟩ := by
  have hfind : blockedSession.workspace.find "openapi.toml" = .error .missing := by
    rw [Workspace.find_name (by decide), entry_blockedSession.2.2.2]
  rw [Session.settingsFor_eq_ok, Workspace.settingsFor, Workspace.settings, Workspace.content?,
    hfind]
  refine ⟨rfl, ?_⟩
  show Except.ok (Settings.default.override _) = _
  simp [Settings.override, Settings.given, Settings.default]

theorem document_blockedSession : blockedSession.document "s.json" = .ok pathlessValue := by
  have hfind : blockedSession.workspace.find "s.json" = .ok (.file (.ok pathlessText)) := by
    rw [Workspace.find_name (by decide), entry_blockedSession.1]
  obtain ⟨hreturn, hencodable, hjson⟩ := pathlessText_spec
  have hcontent : blockedSession.workspace.content? "s.json" = some (.ok pathlessText) := by
    rw [Workspace.content?, hfind]
    simp only [Except.map, Workspace.unifyLineBreaks_of_notMem hreturn, String.ofList_toList]
  have haddress : Source.isAddress "s.json" = false := by decide
  have htext : blockedSession.sourceText "s.json" = .ok pathlessText := by
    rw [Session.sourceText, haddress, if_neg Bool.false_ne_true, hcontent]
  have hname : Source.isYamlName "s.json" = false := by decide +kernel
  have hparse : Source.parse pathlessText "s.json" = .ok pathlessValue := by
    rw [Source.parse, hencodable, hname, hjson]
    rfl
  exact Session.document_of_parse htext hparse

/-- What is generated there is the client file, with the example file behind it if it is asked
for. -/
theorem project_blockedSession (includeExample : Bool) : ∃ (project : Project) (client : CodeFile),
    blockedSession.project ⟨.text "s.json", .text "x.ts", includeExample⟩ = .ok project ∧
      (∃ notices, generate pathlessValue ⟨some "s.json", "x.ts", includeExample⟩ =
        .ok (project, notices)) ∧
      client.name = "x.ts" ∧ (includeExample = false ∧ project.files = [client] ∨
        includeExample = true ∧ ∃ example_ : CodeFile, example_.name = "x-example.ts" ∧
          project.files = [client, example_]) := by
  obtain ⟨⟨project, notices⟩, hgenerate⟩ :=
    exists_generate_pathless ⟨some "s.json", Path.baseName "x.ts", includeExample⟩
  have hproject : blockedSession.project ⟨.text "s.json", .text "x.ts", includeExample⟩ =
      .ok project :=
    Session.project_eq_ok.2 ⟨"s.json", "x.ts", pathlessValue,
      ⟨rfl, rfl, document_blockedSession, rfl, isRepresented_pathless⟩, rfl, notices, hgenerate⟩
  have hclientName : Path.baseName "x.ts" = "x.ts" := by decide
  have hexampleName : ExampleFile.fileName "x.ts" = "x-example.ts" := by decide
  obtain ⟨client, hclient, hfiles⟩ := files_of_generate hgenerate
  rw [hclientName] at hgenerate hclient hfiles
  rw [hexampleName] at hfiles
  exact ⟨project, client, hproject, ⟨notices, hgenerate⟩, hclient, hfiles⟩

theorem store_blockedSession (content : FileContent) :
    blockedSession.workspace.store "x.ts" content =
      .ok (blockedSession.workspace.put ["x.ts"] (.file content)) := by
  rw [Workspace.store_name (by decide) rfl, entry_blockedSession.2.2.1]

/-! ## Whole runs -/

/-- How a run that neither makes nor keeps a settings file leaves the files. -/
theorem files_of_run {args : List String} (hmode : ∀ a, Arguments.parse args = .ok a →
      a.initConfig = false ∧ a.saveConfig = false) (s : Session) :
    Leaves args s (run (m := StateM Session) args s).1
      (run (m := StateM Session) args s).2.workspace := by
  rw [run]
  rcases hparse : Arguments.parse args with fault | a
  · exact .refused hparse
  · obtain ⟨hinit, hsave⟩ := hmode a hparse
    rcases hst : s.settingsFor a with fault | st
    · obtain ⟨s', halike, hrun⟩ := runWith_of_error hinit hst
      simp only [hrun]
      have hending : endingAt fault = .stopped fault := by
        rw [endingAt, report?_of_settingsFor hst]
        rfl
      exact hending ▸ leaves_endingAt fault (halike.workspace ▸ .refl _)
    · obtain ⟨s', halike, hrun⟩ := runWith_of_ok hinit hst
      simp only [hrun]
      split
      · rename_i hurl
        have hafter : ∀ s', afterSaving a st s' = (.done, s') := by
          intro s'
          rw [afterSaving, hsave, if_neg Bool.false_ne_true]
          rfl
        exact leaves_generateOrReport hafter hparse hst hurl halike
      · exact .untouched isSupported_noSource rfl (halike.workspace ▸ .refl _)

theorem files_of_run_blocked : let args := ["--url", "s.json", "--output", "x.ts"]
    (∀ a, Arguments.parse args = .ok a → a.initConfig = false ∧ a.saveConfig = false) ∧
    Leaves args blockedSession (run (m := StateM Session) args blockedSession).1
      (run (m := StateM Session) args blockedSession).2.workspace := by
  intro args
  have hparse : Arguments.parse args =
      .ok ⟨⟨some "s.json", some "x.ts", false⟩, "openapi.toml", false, false⟩ := rfl
  have hmode : ∀ a, Arguments.parse args = .ok a →
      a.initConfig = false ∧ a.saveConfig = false := by
    intro a h
    cases hparse.symm.trans h
    exact ⟨rfl, rfl⟩
  exact ⟨hmode, files_of_run hmode blockedSession⟩

/-- A run that ends well has changed the files of its project and no others; a run that fails has
changed no file. -/
def AllOrNothing (args : List String) (s : Session) : Prop :=
  (run (m := StateM Session) args s).1.exitCode = 0 ∧ (∃ output project above,
    Generates args s output project ∧ (project.files.map (·.name)).Nodup ∧
      s.workspace.Gains (run (m := StateM Session) args s).2.workspace (Path.directoryName output)
        above (project.files.map CodeFile.whole)) ∨
  (run (m := StateM Session) args s).1.exitCode ≠ 0 ∧
    s.workspace.Updates (run (m := StateM Session) args s).2.workspace []

/-- A run that fails may have written the client file. -/
theorem not_allOrNothing :
    ¬ AllOrNothing ["--url", "s.json", "--output", "x.ts"] blockedSession := by
  obtain ⟨project, client, hproject, -, hclient, ⟨h, -⟩ | ⟨-, example_, hexample, hfiles⟩⟩ :=
    project_blockedSession true
  · cases h
  have hstored (content : FileContent) : blockedSession.workspace.store client.name content =
      .ok (blockedSession.workspace.put ["x.ts"] (.file content)) := by
    rw [hclient, store_blockedSession]
  have hrefused : ∀ content w', blockedSession.workspace.store client.name content = .ok w' →
      Fails (w'.write example_.name "") := by
    intro content w' hstore
    cases (hstored content).symm.trans hstore
    rw [hexample, Workspace.write, Workspace.store_name (by decide) (by simp; rfl),
      Workspace.entry?_put_of_ne (by decide), entry_blockedSession.2.1]
    exact fails_error _
  have hparse : Arguments.parse ["--url", "s.json", "--output", "x.ts"] =
      .ok ⟨⟨some "s.json", some "x.ts", false⟩, "openapi.toml", false, false⟩ := rfl
  obtain ⟨hcode, content, hstore⟩ := run_of_refused hparse rfl
    (settingsFor_blockedSession false false) (by simp [Value.isTruthy]) rfl hproject (by decide)
    hfiles (hstored (.ok "")) hrefused
  rintro (⟨hzero, -⟩ | ⟨-, hupdates⟩)
  · rw [hcode] at hzero
    cases hzero
  · have hfile := hupdates.files ["x.ts"]
    rw [← Except.ok.inj ((hstored content).symm.trans hstore), Workspace.file?_put (by simp),
      if_pos rfl] at hfile
    simp [Workspace.file?, entry_blockedSession.2.2.1] at hfile

end Command

end TypedClient
