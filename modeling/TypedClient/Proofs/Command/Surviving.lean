import TypedClient.Proofs.Command.Encodable
import TypedClient.Proofs.Command.Leaving
import TypedClient.Proofs.Toml.Entries

/-!
# Settings that survive

Settings of readable texts are saved wherever a file can be written, and loading gives them back
(`Settings.Survives`). So a run that keeps its settings passes them on to one that is given the
settings file only (`Command.passesOn_of_survives`). Other settings need not survive: a backslash in
front of an `x` is written as it is, and the file is then no TOML text (`Settings.not_survives`).
-/

namespace TypedClient

open Session

namespace Settings

/-- Settings whose texts are read as they are written. -/
structure Readable (st : Settings) : Prop where
  output : ∃ output, st.output = .text output ∧ Toml.Readable output.toList
  url : st.url = .null ∨ ∃ url, st.url = .text url ∧ url ≠ "" ∧ Toml.Readable url.toList

variable {st : Settings} {path text : String} {s : Session} {w : Workspace}

/-! ## Entries and texts -/

theorem exists_writtenEntries (h : st.Readable) :
    ∃ ls, List.Forall₂ Toml.WrittenEntry st.entries ls := by
  obtain ⟨⟨output, houtput, hreadable⟩, hurl⟩ := h
  have hfirst := Toml.writtenEntry "output" (by decide) (by decide) (.text hreadable)
  have hsecond := Toml.writtenEntry "include_example" (by decide) (by decide)
    (.bool st.includeExample)
  rw [entries, houtput]
  rcases hurl with hnull | ⟨url, htext, hne, hreadable⟩
  · rw [hnull]
    exact ⟨_, .cons hfirst (.cons hsecond .nil)⟩
  · have hthird := Toml.writtenEntry "url" (by decide) (by decide) (.text hreadable)
    have htruthy : (Value.text url).isTruthy = true := by simpa [Value.isTruthy] using hne
    rw [htext, if_pos htruthy]
    exact ⟨_, .cons hfirst (.cons hsecond (.cons hthird .nil))⟩

theorem nodup_entries (st : Settings) : (st.entries.map (·.1)).Nodup := by
  unfold entries
  split <;> simp

theorem ofEntries_entries (h : st.Readable) : ofEntries st.entries = st := by
  obtain ⟨url, output, includeExample⟩ := st
  rcases h.url with hnull | ⟨text, htext, hne, -⟩
  · simp only at hnull
    simp [ofEntries, entries, hnull, Value.get, Value.find?, Value.isText, Value.isTruthy]
  · simp only at htext
    simp [ofEntries, entries, htext, hne, Value.get, Value.find?, Value.isText, Value.isTruthy]

/-- Settings of readable texts have a text that holds them. -/
theorem exists_text (h : st.Readable) :
    ∃ text, st.text = .ok text ∧ '\r' ∉ text.toList ∧ ofText text = .ok (some st) := by
  obtain ⟨ls, hls⟩ := exists_writtenEntries h
  obtain ⟨text, hwrite, hreturn, hread⟩ := Toml.read_write hls (nodup_entries st)
  refine ⟨text, hwrite, hreturn, ?_⟩
  rw [ofText, hread]
  exact congrArg (fun st => Except.ok (some st)) (ofEntries_entries h)

/-! ## Saving and loading -/

/-- Settings that are saved wherever a file can be written, and that are loaded as they were. -/
def Survives (st : Settings) : Prop :=
  ∀ (path : String) (s : Session), ¬ Fails (s.workspace.write path "") →
    ∃ s', (st.save path : StateM Session _) s = (.ok (), s') ∧
      (Settings.load path none : StateM Session _) s' = (.ok (some st), s')

/-- What a file holds is what its text holds, if it has only line feeds for line breaks. -/
theorem settings_of_find (hfind : w.find path = .ok (.file (.ok text)))
    (hreturn : '\r' ∉ text.toList) :
    w.settings path = (ofText text).mapError SettingsFault.format := by
  rw [Workspace.settings, Workspace.content?, hfind]
  show (ofText (String.ofList (Host.unifyLineBreaks text.toList))).mapError SettingsFault.format = _
  rw [Workspace.unifyLineBreaks_of_notMem hreturn, String.ofList_toList]

theorem survives_of_readable (h : st.Readable) : st.Survives := by
  intro path s hwrite
  obtain ⟨w, hfirst⟩ := exists_of_not_fails hwrite
  obtain ⟨text, htext, hreturn, hread⟩ := exists_text h
  obtain ⟨w', hsecond, hsave⟩ := save_of_text htext hfirst
  refine ⟨_, hsave, ?_⟩
  rw [load_settings, settings_of_find (Workspace.find_of_write hsecond) hreturn, hread]
  rfl

theorem override_nothing (st : Settings) : st.override ⟨none, none, false⟩ = st := by
  simp [override, given]

end Settings

namespace Command

variable {args : List String} {a : Arguments} {st : Settings} {s s' : Session} {w : Workspace}
  {path : String}

/-! ## Runs that keep their settings -/

/-- The settings that a run of the command reads. -/
def Uses (args : List String) (s : Session) (st : Settings) : Prop :=
  ∃ a, Arguments.parse args = .ok a ∧ a.initConfig = false ∧
    ((readSettings (m := StateM Session) a).run s).1 = .ok st

theorem uses_iff (hparse : Arguments.parse args = .ok a) :
    Uses args s st ↔ a.initConfig = false ∧ s.settingsFor a = .ok st := by
  obtain ⟨s', -, hread⟩ := run_readSettings a s
  simp only [Uses, hparse, Except.ok.injEq, exists_eq_left', hread]

/-- Whatever a generation comes to, the host has the stack that it had. -/
theorem stack_generateAndSave (hurl : st.url.isTruthy = true) (s : Session) :
    ((generateAndSave (m := StateM Session) st).run s).2.stack = s.stack := by
  rcases hproject : s.project st with fault | project
  · obtain ⟨s', halike, hrun⟩ := run_generateAndSave_of_error hurl hproject
    rw [hrun, halike.stack]
  · obtain ⟨output, htextual⟩ := textual_of_project hproject
    obtain ⟨s', halike, hrun⟩ := run_generateAndSave_of_ok hurl hproject htextual.output
    have hsaving : Uniform fun s => s.saving project output := uniform_saveProject _ _
    rw [hrun, halike.stack]
    exact hsaving.stack s'

theorem run_keepSettings_of_ok (h : (st.save path : StateM Session _) s = (.ok (), s')) :
    (keepSettings (m := StateM Session) st path).run s =
      (.ok (), s'.told ("💾 Конфиг сохранен в " ++ path)) := by
  have hrequest := run_request .settings (st.save path) s
  rw [h] at hrequest
  rw [keepSettings, run_bind_of_ok hrequest, run_tell]

theorem run_keepSettings_of_error {fault : SettingsFault}
    (h : (st.save path : StateM Session _) s = (.error fault, s')) :
    (keepSettings (m := StateM Session) st path).run s = (.error (.settings fault), s') := by
  have hrequest := run_request .settings (st.save path) s
  rw [h] at hrequest
  exact run_bind_of_error hrequest

/-- A run that keeps its settings and ends well has saved them. -/
theorem exists_save_of_done (hparse : Arguments.parse args = .ok a) (hkeep : a.saveConfig = true)
    (huses : Uses args s st) (hdone : (run (m := StateM Session) args s).1 = .done) :
    ∃ s₁ s₂, s₁.stack = s.stack ∧ (st.save a.config : StateM Session _) s₁ = (.ok (), s₂) ∧
      (run (m := StateM Session) args s).2.workspace = s₂.workspace ∧
      (run (m := StateM Session) args s).2.stack = s₂.stack := by
  obtain ⟨hinit, hst⟩ := (uses_iff hparse).1 huses
  obtain ⟨s', halike, hrun⟩ := runWith_of_ok hinit hst
  rw [run_of_parse hparse, hrun] at hdone ⊢
  by_cases hurl : st.url.isTruthy = true
  · rw [if_pos hurl] at hdone ⊢
    have hstack := (stack_generateAndSave hurl s').trans halike.stack.symm
    rcases hgenerate : (generateAndSave (m := StateM Session) st).run s' with ⟨fault | ⟨⟩, s₁⟩
    · rw [generateOrReport_of_error hgenerate] at hdone
      split at hdone <;> cases hdone
    · rw [generateOrReport_of_ok hgenerate, afterSaving, if_pos hkeep, ending_apply] at hdone ⊢
      rcases hsave : (st.save a.config : StateM Session _) s₁ with ⟨fault | ⟨⟩, s₂⟩
      · rw [run_keepSettings_of_error hsave] at hdone
        cases hdone
      · rw [run_keepSettings_of_ok hsave]
        rw [hgenerate] at hstack
        exact ⟨s₁, s₂, hstack, hsave, rfl, rfl⟩
  -- a run without a source does not end well
  · rw [if_neg hurl] at hdone
    cases hdone

/-- Settings that a run passes on: if it keeps them and ends well, a run after it that is given the
settings file and nothing else reads the same. -/
def PassesOn (st : Settings) : Prop :=
  ∀ (args args' : List String) (a a' : Arguments) (s : Session),
    Arguments.parse args = .ok a → a.saveConfig = true → Uses args s st →
    (run (m := StateM Session) args s).1 = .done →
    Arguments.parse args' = .ok a' → a'.initConfig = false → a'.config = a.config →
    a'.override = ⟨none, none, false⟩ →
      Uses args' (run (m := StateM Session) args s).2 st

theorem passesOn_of_survives (h : st.Survives) : PassesOn st := by
  intro args args' a a' s hparse hkeep huses hdone hparse' hinit' hconfig hnothing
  obtain ⟨s₁, s₂, hstack, hsave, hworkspace, hsame⟩ := exists_save_of_done hparse hkeep huses hdone
  -- what was saved at the end of the run could be written there
  have hwrite : ¬ Fails (s₁.workspace.write a.config "") := by
    intro hfails
    have hunsaved := (Settings.fails_save st a.config s₁).2 (.inl hfails)
    rw [hsave] at hunsaved
    exact not_fails_ok _ hunsaved
  obtain ⟨s₂', hsave', hload⟩ := h a.config s₁ hwrite
  cases hsave.symm.trans hsave'
  rw [load_settings] at hload
  have hsettings : s₂.workspace.settings a.config = .ok (some st) := congrArg Prod.fst hload
  have hkept : s₂.stack = s.stack := by
    rw [← hstack, ← (Settings.uniform_save st a.config).stack s₁, hsave]
  have hread := (Session.settingsFor_eq_ok.1 ((uses_iff hparse).1 huses).2).1
  rw [uses_iff hparse', Session.settingsFor_eq_ok, hsame, hkept, Workspace.settingsFor, hworkspace,
    hconfig, hsettings, hnothing]
  exact ⟨hinit', hread, congrArg Except.ok (Settings.override_nothing st)⟩

/-- A run whose only file gets its text and whose settings file can be written ends well. -/
theorem done_of_written {file : CodeFile} {project : Project} {output : String}
    (hparse : Arguments.parse args = .ok a) (hkeep : a.saveConfig = true) (huses : Uses args s st)
    (hurl : st.url.isTruthy = true) (houtput : st.output = .text output)
    (hproject : s.project st = .ok project) (hdirectory : Path.directoryName output = "")
    (hfiles : project.files = [file]) (htext : Text.isEncodable file.text = true)
    (hcut : s.cuts file.name = none)
    (hfile : s.workspace.write file.name file.text = .ok w)
    (hwrite : ¬ Fails (w.write a.config "")) (hsurvives : st.Survives) :
    (run (m := StateM Session) args s).1 = .done := by
  obtain ⟨hinit, hst⟩ := (uses_iff hparse).1 huses
  obtain ⟨w', hempty, -⟩ := Workspace.store_store hfile (.ok "")
  obtain ⟨content, result, w', hfilled, hstore, hwritten⟩ := run_writeFile_of_ok hempty file.text
  obtain ⟨rfl, rfl⟩ := hfilled.eq_whole htext hcut
  cases hfile.symm.trans hstore
  rw [← Path.join_empty file.name] at hwritten
  have hall : (writeFiles (m := StateM Session) "" project.files).run s =
      (.ok (), { s with workspace := w }) := by
    rw [hfiles, run_writeFiles_cons_of_ok hwritten, run_writeFiles_nil]
  obtain ⟨s₁, s₂, hrun, hgenerate, hworkspace⟩ :=
    run_of_writeFiles hparse hinit hst hurl houtput hproject hdirectory hall
  obtain ⟨s₃, hsave, -⟩ := hsurvives a.config s₂ (hworkspace ▸ hwrite)
  rw [hrun, generateOrReport_of_ok hgenerate, afterSaving, if_pos hkeep, ending_apply,
    run_keepSettings_of_ok hsave]

/-! ## Both -/

/-- Settings of readable texts survive being saved and are passed on by a run that keeps them. -/
theorem survives_and_passesOn (h : st.Readable) : st.Survives ∧ PassesOn st :=
  ⟨Settings.survives_of_readable h, passesOn_of_survives (Settings.survives_of_readable h)⟩

/-- The client file of the document without paths can be written. -/
theorem isEncodable_pathless {options : Options} {project : Project} {notices : List Notice}
    {client : CodeFile} (hurl : options.sourceUrl = some "s.json")
    (h : generate pathlessValue options = .ok (project, notices))
    (hclient : project.files.head? = some client) : Text.isEncodable client.text = true := by
  obtain ⟨doc, reg, found, clientClass, hyields, hhead⟩ := exists_yields h
  cases hhead.symm.trans hclient
  cases ofValue_pathlessValue.symm.trans hyields.document
  cases registry_pathless.symm.trans hyields.registry
  cases hyields.endpoints
  obtain ⟨-, methods, hmethods, rfl⟩ := Interface.clientClass_eq_ok.1 hyields.clientClass
  cases hmethods
  rw [hurl]
  refine Interface.isEncodable_clientFile rfl ?_ ?_ ?_ _
  · decide +kernel
  · decide +kernel
  · decide +kernel

/-- A run that generates only the client file and keeps its settings passes them on. -/
theorem survives_and_passesOn_pathless :
    let st : Settings := ⟨.text "s.json", .text "x.ts", false⟩
    let args := ["--url", "s.json", "--output", "x.ts", "--no-example", "--save-config"]
    st.Readable ∧ st.Survives ∧ Uses args blockedSession st ∧
      (run (m := StateM Session) args blockedSession).1 = .done ∧
      Uses ["--config", "openapi.toml"] (run (m := StateM Session) args blockedSession).2 st := by
  intro st args
  have hreadable : st.Readable :=
    ⟨⟨_, rfl, Toml.readable_of_ascii (by simp)⟩,
      .inr ⟨_, rfl, by decide, Toml.readable_of_ascii (by simp)⟩⟩
  obtain ⟨hsurvives, hpasses⟩ := survives_and_passesOn hreadable
  have hparse : Arguments.parse args =
      .ok ⟨⟨some "s.json", some "x.ts", true⟩, "openapi.toml", false, true⟩ := rfl
  have huses : Uses args blockedSession st :=
    (uses_iff hparse).2 ⟨rfl, settingsFor_blockedSession true true⟩
  obtain ⟨project, client, hproject, ⟨notices, hgenerate⟩, hclient, ⟨-, hfiles⟩ | ⟨h, -⟩⟩ :=
    project_blockedSession false
  case inr => cases h
  have hfile : blockedSession.workspace.write client.name client.text =
      .ok (blockedSession.workspace.put ["x.ts"] (.file (.ok client.text))) := by
    rw [hclient, Workspace.write, store_blockedSession]
  have hwrite : ¬ Fails ((blockedSession.workspace.put ["x.ts"] (.file (.ok client.text))).write
      "openapi.toml" "") := by
    rw [Workspace.write, Workspace.store_name (by decide) (by simp; rfl),
      Workspace.entry?_put_of_ne (by decide), entry_blockedSession.2.2.2]
    exact not_fails_ok _
  have htext : Text.isEncodable client.text = true :=
    isEncodable_pathless rfl hgenerate (by rw [hfiles]; rfl)
  have hdone : (run (m := StateM Session) args blockedSession).1 = .done :=
    done_of_written hparse rfl huses rfl rfl hproject (by decide) hfiles htext rfl hfile hwrite
      hsurvives
  exact ⟨hreadable, hsurvives, huses, hdone,
    hpasses args ["--config", "openapi.toml"] _ _ blockedSession hparse rfl huses hdone rfl rfl rfl
      rfl⟩

end Command

namespace Settings

/-- Settings of texts, with a source that is absent or not empty. -/
structure Configured (st : Settings) : Prop where
  output : ∃ output, st.output = .text output
  url : st.url = .null ∨ ∃ url, st.url = .text url ∧ url ≠ ""

/-- The text that holds settings whose output has a backslash in front of an `x`. -/
def unreadableText : String :=
  "output = \"C:\\xampp\\\\client.ts\"\ninclude_example = true\n"

/-- Whether the text is no TOML text. -/
def isMalformed (text : String) : Bool :=
  match Toml.read text with
  | .error .malformed => true
  | _ => false

theorem ofText_of_isMalformed {text : String} (h : isMalformed text = true) :
    ofText text = .ok none := by
  unfold isMalformed at h
  split at h
  · rename_i hmalformed
    rw [ofText, hmalformed]
  · cases h

theorem ofText_unreadableText : ofText unreadableText = .ok none :=
  ofText_of_isMalformed (by decide +kernel)

/-- A backslash in front of an `x` is not saved as one: the file is no TOML text then, and loading
it gives no settings. -/
theorem not_survives : ¬ ∀ st : Settings, st.Configured → st.Survives := by
  intro h
  have hsurvives : Survives ⟨.null, .text "C:\\xampp\\client.ts", true⟩ :=
    h _ ⟨⟨_, rfl⟩, .inl rfl⟩
  have hwrite : Workspace.empty.write "openapi.toml" "" =
      .ok (Workspace.empty.put ["openapi.toml"] (.file (.ok ""))) := by
    rw [Workspace.write, Workspace.store_name (by decide) rfl]
    rfl
  have htext : Settings.text ⟨.null, .text "C:\\xampp\\client.ts", true⟩ = .ok unreadableText := by
    decide +kernel
  have hwritten :
      ¬ Fails ((Session.start .empty "/work" []).workspace.write "openapi.toml" "") := by
    show ¬ Fails (Workspace.empty.write "openapi.toml" "")
    rw [hwrite]
    exact not_fails_ok _
  obtain ⟨s', hsave, hload⟩ := hsurvives "openapi.toml" (.start .empty "/work" []) hwritten
  obtain ⟨w', hsecond, hsaved⟩ := save_of_text (s := .start .empty "/work" []) htext hwrite
  cases hsave.symm.trans hsaved
  have hreturn : '\r' ∉ unreadableText.toList := by decide +kernel
  rw [load_settings, settings_of_find (Workspace.find_of_write hsecond) hreturn,
    ofText_unreadableText] at hload
  cases hload

end Settings

end TypedClient
