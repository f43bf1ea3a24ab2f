import TypedClient.Command.Run
import TypedClient.Files.Workspace
import TypedClient.Proofs.Failure.Outcome

/-!
# What a command gets from a session

Settings and documents are read from the workspace and the pages alone, and reading them changes
nothing. Whatever a command asks for, the answer does not depend on what has been printed
(`Uniform`), so a step of a run can be judged by the session that the run started in. No step
changes the host: where the stack is large enough for a step, it stays so.
-/

namespace TypedClient

/-! ## Reading -/

namespace Workspace

variable {w : Workspace} {path : String} {e : Entry}

/-- The content of the file that a path names, with line feeds for its line breaks. -/
def content? (w : Workspace) (path : String) : Option FileContent :=
  match w.find path with
  | .ok (.file content) =>
    some (content.map fun text => String.ofList (Host.unifyLineBreaks text.toList))
  | _ => none

/-- The settings that are kept at a path. -/
def settings (w : Workspace) (path : String) : Except SettingsFault (Option Settings) :=
  match w.content? path with
  | none => .ok none
  | some (.error fault) => .error (.bytes fault)
  | some (.ok text) => (Settings.ofText text).mapError .format

/-- The settings of a run for arguments. -/
def settingsFor (w : Workspace) (a : Arguments) : Except SettingsFault Settings :=
  (w.settings a.config).map fun found => (found.getD Settings.default).override a.override

theorem unifyLineBreaks_of_notMem : ∀ {cs : List Char}, '\r' ∉ cs → Host.unifyLineBreaks cs = cs
  | [], _ => rfl
  | c :: cs, h => by
    rw [List.mem_cons, not_or] at h
    rw [Host.unifyLineBreaks, unifyLineBreaks_of_notMem h.2]
    · rintro rest rfl
      exact absurd rfl h.1
    · rintro rfl
      exact absurd rfl h.1

theorem isPresent_of_find (h : w.find path = .ok e) : w.isPresent path = true := by
  rw [isPresent, h]
  rfl

end Workspace

namespace Session

variable {α β : Type} {s s' : Session}

def page? (s : Session) (address : String) : Option Page :=
  (s.pages.find? fun p => p.1 = address).map (·.2)

/-- The text of a document, or why there is none. -/
def sourceText (s : Session) (source : String) : Except SourceFault String :=
  if Source.isAddress source then
    match s.page? source with
    | none => .error .noConnection
    | some page => if page.isSuccess then .ok page.text else .error (.status page.status)
  else
    match s.workspace.content? source with
    | some (.ok text) => .ok text
    | some (.error fault) => .error (.unreadable source (.bytes fault))
    | none =>
      if s.workspace.isPresent source then .error (.file ⟨.directory, source⟩)
      else .error (.unreadable source .missing)

/-- The document of a source. -/
def document (s : Session) (source : String) : Except SourceFault Value :=
  s.sourceText source >>= fun text => Source.parse text source

/-- What asking for the stack of a step comes to. -/
def requireStack (s : Session) (stage : Stage) : Except RunFault Unit :=
  if s.stack stage then .ok () else .error .stack

/-- The settings of a run for arguments, as far as the stack is large enough to read them. -/
def settingsFor (s : Session) (a : Arguments) : Except RunFault Settings := do
  s.requireStack .settings
  (s.workspace.settingsFor a).mapError .settings

/-- The project that is generated from a document. -/
def projectFor (s : Session) (url output : String) (st : Settings) (raw : Value) :
    Except RunFault Project := do
  if !Command.isRepresented url output raw then throw .unsupported
  s.requireStack .project
  let (project, _) ←
    (generate raw ⟨some url, Path.baseName output, st.includeExample⟩).mapError .generation
  return project

/-- The project that is generated from the document of a source. -/
def projectOf (s : Session) (url : String) (st : Settings) : Except RunFault Project := do
  s.requireStack .document
  let raw ← (s.document url).mapError .source
  match st.output with
  | .text output => s.projectFor url output st raw
  | _ => throw .outputNotText

/-- The project for settings. -/
def project (s : Session) (st : Settings) : Except RunFault Project :=
  match st.url with
  | .text url => s.projectOf url st
  | _ => .error (if st.url.hasText then .urlNotText else .urlWithoutText)

theorem document_of_parse {source text : String} {v : Value}
    (htext : s.sourceText source = .ok text) (hparse : Source.parse text source = .ok v) :
    s.document source = .ok v := by
  simp only [document, htext, bind, Except.bind, hparse]

theorem requireStack_eq_ok {stage : Stage} :
    s.requireStack stage = .ok () ↔ s.stack stage = true := by
  unfold requireStack
  split <;> simp [*]

theorem settingsFor_eq_ok {a : Arguments} {st : Settings} : s.settingsFor a = .ok st ↔
    s.stack .settings = true ∧ s.workspace.settingsFor a = .ok st := by
  rw [settingsFor, ← requireStack_eq_ok]
  cases s.requireStack .settings with
  | error fault => simp [bind, Except.bind]
  | ok => simp [bind, Except.bind, mapError_eq_ok]

/-- What a project is generated from: a source and an output that are texts, and a document that is
read on a stack that is large enough. -/
structure Supplies (s : Session) (st : Settings) (url output : String) (raw : Value) : Prop where
  urlText : st.url = .text url
  stack : s.stack .document = true
  document : s.document url = .ok raw
  outputText : st.output = .text output
  represented : Command.isRepresented url output raw = true

theorem project_of_supplies {st : Settings} {url output : String} {raw : Value}
    (h : s.Supplies st url output raw) : s.project st = (do
      s.requireStack .project
      let (project, _) ←
        (generate raw ⟨some url, Path.baseName output, st.includeExample⟩).mapError .generation
      return project) := by
  rw [project, h.urlText]
  simp only [projectOf, requireStack_eq_ok.2 h.stack, h.document, h.outputText]
  simp only [Except.mapError, bind, Except.bind, projectFor, h.represented, Bool.not_true,
    Bool.false_eq_true, if_false]

/-- A project has been generated from a document, on a stack that was large enough. -/
theorem project_eq_ok {st : Settings} {p : Project} : s.project st = .ok p ↔
    ∃ url output raw, s.Supplies st url output raw ∧ s.stack .project = true ∧ ∃ notices,
      generate raw ⟨some url, Path.baseName output, st.includeExample⟩ = .ok (p, notices) := by
  constructor
  · intro h
    unfold project at h
    split at h
    · rename_i url hurl
      obtain ⟨_, hdocument, h⟩ := exists_of_bind_eq_ok h
      obtain ⟨raw, hraw, h⟩ := exists_of_bind_eq_ok h
      split at h
      · rename_i output houtput
        rw [projectFor] at h
        by_cases hrepresented : Command.isRepresented url output raw = true
        · rw [hrepresented] at h
          obtain ⟨_, hproject, h⟩ := exists_of_bind_eq_ok h
          obtain ⟨⟨generated, notices⟩, hgenerate, h⟩ := exists_of_bind_eq_ok h
          cases h
          exact ⟨url, output, raw, ⟨hurl, requireStack_eq_ok.1 hdocument, mapError_eq_ok.1 hraw,
            houtput, hrepresented⟩, requireStack_eq_ok.1 hproject, notices,
            mapError_eq_ok.1 hgenerate⟩
        · rw [Bool.not_eq_true] at hrepresented
          rw [hrepresented] at h
          cases h
      · cases h
    · cases h
  · rintro ⟨url, output, raw, hsupplied, hproject, notices, hgenerate⟩
    rw [project_of_supplies hsupplied, requireStack_eq_ok.2 hproject, hgenerate]
    rfl

/-- The session after a line has been printed. -/
def told (s : Session) (line : String) : Session :=
  { s with printed := s.printed ++ [line] }

theorem bind_apply (x : StateM Session α) (f : α → StateM Session β) (s : Session) :
    (x >>= f) s = f (x s).1 (x s).2 := rfl

theorem isPresent_apply (s : Session) (path : String) :
    (Host.isPresent path : StateM Session Bool) s = (s.workspace.isPresent path, s) := rfl

theorem fetch_apply (s : Session) (address : String) :
    (Host.fetch address : StateM Session (Option Page)) s = (s.page? address, s) := rfl

theorem readText_apply (s : Session) (path : String) :
    (Host.readText path : StateM Session (Except FileFault FileContent)) s =
      ((s.workspace.read path).map fun content =>
        content.map fun text => String.ofList (Host.unifyLineBreaks text.toList), s) := rfl

/-- A file is read behind the question whether something is there. -/
theorem readPresent_apply (s : Session) (path : String) (missing : StateM Session α)
    (read : Except FileFault FileContent → StateM Session α) :
    ((Host.isPresent path : StateM Session Bool) >>= fun present =>
      if (!present) = true then missing else Host.readText path >>= read) s =
      match s.workspace.find path with
      | .error _ => missing s
      | .ok .directory => read (.error ⟨.directory, path⟩) s
      | .ok (.file content) =>
        read (.ok (content.map fun text =>
          String.ofList (Host.unifyLineBreaks text.toList))) s := by
  rw [bind_apply, isPresent_apply]
  rcases hfind : s.workspace.find path with reason | entry
  · rw [Workspace.isPresent, hfind]
    rfl
  · rw [Workspace.isPresent_of_find hfind, Bool.not_true, if_neg Bool.false_ne_true, bind_apply,
      readText_apply, Workspace.read, hfind]
    cases entry <;> rfl

theorem load_settings (s : Session) (path : String) :
    (Settings.load path none : StateM Session _) s = (s.workspace.settings path, s) := by
  rw [Settings.load, Settings.locate, pure_bind, readPresent_apply, Workspace.settings,
    Workspace.content?]
  rcases s.workspace.find path with reason | _ | fault | text
  · rfl
  · rfl
  · rfl
  · rfl

theorem readPage_apply {address : String} (h : Source.isAddress address = true) (s : Session) :
    (Source.readPage address : StateM Session _) s = (s.document address, s) := by
  rw [Source.readPage, bind_apply, fetch_apply, document, sourceText, if_pos h]
  rcases s.page? address with _ | page
  · rfl
  · by_cases h : page.isSuccess = true
    · simp only [h, if_true]
      rfl
    · simp only [h]
      rfl

theorem readFile_apply {source : String} (h : ¬ Source.isAddress source = true) (s : Session) :
    (Source.readFile source : StateM Session _) s = (s.document source, s) := by
  rw [Source.readFile, readPresent_apply, document, sourceText, if_neg h, Workspace.content?]
  rcases hfind : s.workspace.find source with reason | _ | fault | text
  · rw [Workspace.isPresent, hfind]
    rfl
  · rw [Workspace.isPresent_of_find hfind]
    rfl
  · rfl
  · rfl

theorem load_source (s : Session) (source : String) :
    (Source.load source : StateM Session _) s = (s.document source, s) := by
  rw [Source.load]
  split
  · rename_i h
    exact readPage_apply h s
  · rename_i h
    exact readFile_apply h s

/-! ## Printed lines do not matter -/

/-- Two sessions that differ at most in what has been printed. -/
structure Alike (s s' : Session) : Prop where
  workspace : s.workspace = s'.workspace
  root : s.root = s'.root
  pages : s.pages = s'.pages
  cuts : s.cuts = s'.cuts
  stack : s.stack = s'.stack

theorem document_congr (h : s.Alike s') (source : String) :
    s.document source = s'.document source := by
  rw [document, document, sourceText, sourceText, page?, page?, h.workspace, h.pages]

theorem projectOf_congr (h : s.Alike s') (url : String) (st : Settings) :
    s.projectOf url st = s'.projectOf url st := by
  have hstack : s.requireStack = s'.requireStack := by
    funext stage
    rw [requireStack, requireStack, h.stack]
  have hproject : s.projectFor = s'.projectFor := by
    funext url output st raw
    rw [projectFor, projectFor, hstack]
  rw [projectOf, projectOf, document_congr h, hstack, hproject]

theorem project_congr (h : s.Alike s') (st : Settings) : s.project st = s'.project st := by
  unfold project
  split
  · exact projectOf_congr h _ st
  · rfl

/-- A request with the same answer and the same effect in sessions that are alike, which leaves the
host as it is. -/
structure Uniform (x : StateM Session α) : Prop where
  answer : ∀ s s', Alike s s' → (x s).1 = (x s').1
  effect : ∀ s s', Alike s s' → Alike (x s).2 (x s').2
  stack : ∀ s, (x s).2.stack = s.stack
  cuts : ∀ s, (x s).2.cuts = s.cuts

theorem Alike.refl (s : Session) : s.Alike s := ⟨rfl, rfl, rfl, rfl, rfl⟩

theorem alike_told (s : Session) (line : String) : s.Alike (s.told line) :=
  ⟨rfl, rfl, rfl, rfl, rfl⟩

theorem Alike.trans {s₁ s₂ s₃ : Session} (h : s₁.Alike s₂) (h' : s₂.Alike s₃) : s₁.Alike s₃ :=
  ⟨h.workspace.trans h'.workspace, h.root.trans h'.root, h.pages.trans h'.pages,
    h.cuts.trans h'.cuts, h.stack.trans h'.stack⟩

theorem uniform_pure (a : α) : Uniform (pure a) :=
  ⟨fun _ _ _ => rfl, fun _ _ h => h, fun _ => rfl, fun _ => rfl⟩

theorem uniform_bind {x : StateM Session α} {f : α → StateM Session β} (hx : Uniform x)
    (hf : ∀ a, Uniform (f a)) : Uniform (x >>= f) where
  answer s s' h := by
    rw [bind_apply, bind_apply, hx.answer s s' h]
    exact (hf _).answer _ _ (hx.effect s s' h)
  effect s s' h := by
    rw [bind_apply, bind_apply, hx.answer s s' h]
    exact (hf _).effect _ _ (hx.effect s s' h)
  stack s := ((hf _).stack _).trans (hx.stack s)
  cuts s := ((hf _).cuts _).trans (hx.cuts s)

theorem uniform_ask (f : Workspace → String → α) :
    Uniform fun s => (f s.workspace s.root, s) :=
  ⟨fun _ _ h => congrArg₂ f h.workspace h.root, fun _ _ h => h, fun _ => rfl, fun _ => rfl⟩

/-- An answer that comes with another workspace, or with the old one. -/
theorem uniform_exchange (f : Workspace → (String → Option Cut) → α × Workspace) :
    Uniform fun s =>
      ((f s.workspace s.cuts).1, { s with workspace := (f s.workspace s.cuts).2 }) where
  answer s s' h := by rw [h.workspace, h.cuts]
  effect s s' h := ⟨by simp only [h.workspace, h.cuts], h.root, h.pages, h.cuts, h.stack⟩
  stack _ := rfl
  cuts _ := rfl

/-- The answer to a change of a workspace, and the workspace after it. -/
def exchanged (w : Workspace) (answer : Except FileFault Unit) :
    Except FileFault Workspace → Except FileFault Unit × Workspace
  | .ok w' => (answer, w')
  | .error fault => (.error fault, w)

theorem uniform_update (f : Workspace → Except FileFault Workspace) :
    Uniform fun s => s.update (f s.workspace) := by
  convert uniform_exchange fun w _ => exchanged w (.ok ()) (f w) using 1
  funext s
  cases hf : f s.workspace <;> rfl

/-- The answer when a text is put into a file, and the workspace after it. -/
def filled (path text : String) (w : Workspace) (cuts : String → Option Cut) :
    Except FileFault Unit × Workspace :=
  match cuts path with
  | none => exchanged w (.ok ()) (w.write path text)
  | some cut => exchanged w (.error ⟨.device cut.words, path⟩) (w.store path cut.content)

theorem uniform_fill (path text : String) :
    Uniform (Host.fill path text : StateM Session (Except FileFault Unit)) := by
  convert uniform_exchange (filled path text) using 1
  funext s
  show s.fill path text = _
  unfold fill filled
  rcases hcut : s.cuts path with _ | cut
  · simp only [update]
    cases s.workspace.write path text <;> rfl
  · dsimp only
    cases s.workspace.store path cut.content <;> rfl

theorem uniform_printLine (line : String) : Uniform (Host.printLine line) where
  answer _ _ _ := rfl
  effect _ _ h := ⟨h.workspace, h.root, h.pages, h.cuts, h.stack⟩
  stack _ := rfl
  cuts _ := rfl

theorem uniform_ensureDirectory (path : String) : Uniform (Host.ensureDirectory path) := by
  refine uniform_bind (uniform_update fun w => w.makeDirectory path) fun made => ?_
  cases made with
  | ok => exact uniform_pure _
  | error fault =>
    exact uniform_bind (uniform_ask fun w _ => w.isDirectory path) fun _ => uniform_pure _

theorem uniform_makeDirectoriesWithin :
    ∀ (n : Nat) (path : String), Uniform (Host.makeDirectoriesWithin n path)
  | 0, _ => uniform_pure _
  | n + 1, path => by
    rw [Host.makeDirectoriesWithin]
    refine uniform_bind (uniform_ask fun w _ => w.isPresent _) fun isThere => ?_
    split
    · exact uniform_ensureDirectory path
    · refine uniform_bind (uniform_makeDirectoriesWithin n _) fun made => ?_
      split
      · split
        · exact uniform_pure _
        · exact uniform_ensureDirectory path
      · split
        · exact uniform_pure _
        · exact uniform_ensureDirectory path
      · exact uniform_pure _

end Session

namespace Command

open Session

variable {ε α β : Type}

/-! ## Steps of a run -/

theorem run_bind_of_ok {x : ExceptT RunFault (StateM Session) α}
    {f : α → ExceptT RunFault (StateM Session) β} {s s' : Session} {a : α}
    (h : x.run s = (.ok a, s')) : (x >>= f).run s = (f a).run s' := by
  rw [ExceptT.run_bind, bind_apply, h]

theorem run_bind_of_error {x : ExceptT RunFault (StateM Session) α}
    {f : α → ExceptT RunFault (StateM Session) β} {s s' : Session} {fault : RunFault}
    (h : x.run s = (.error fault, s')) : (x >>= f).run s = (.error fault, s') := by
  rw [ExceptT.run_bind, bind_apply, h]
  rfl

theorem run_tell (line : String) (s : Session) :
    (tell (m := StateM Session) line).run s = (.ok (), s.told line) := rfl

theorem run_request (fault : ε → RunFault) (x : StateM Session (Except ε α)) (s : Session) :
    (request fault x).run s = ((x s).1.mapError fault, (x s).2) := rfl

theorem run_requireStack (stage : Stage) (s : Session) :
    (requireStack (m := StateM Session) stage).run s = (s.requireStack stage, s) := by
  have hasked : (requireStack (m := StateM Session) stage).run s =
      (if !s.stack stage then throw .stack else pure () :
        ExceptT RunFault (StateM Session) Unit).run s := rfl
  rw [hasked, Session.requireStack]
  cases s.stack stage <;> rfl

theorem run_readSettings (a : Arguments) (s : Session) : ∃ s', Alike s s' ∧
    (readSettings (m := StateM Session) a).run s = (s.settingsFor a, s') := by
  have hasked := run_requireStack .settings s
  have hread := run_request .settings (Settings.load a.config none) s
  rw [load_settings] at hread
  rw [readSettings, settingsFor]
  rcases hstack : s.requireStack .settings with fault | ⟨⟩
  · rw [hstack] at hasked
    exact ⟨s, .refl s, run_bind_of_error hasked⟩
  rw [hstack] at hasked
  rw [run_bind_of_ok hasked, Workspace.settingsFor]
  rcases hsettings : s.workspace.settings a.config with fault | found
  · rw [hsettings] at hread
    exact ⟨s, .refl s, run_bind_of_error hread⟩
  · rw [hsettings] at hread
    rw [run_bind_of_ok hread]
    cases found with
    | none => exact ⟨s, .refl s, rfl⟩
    | some st => exact ⟨_, alike_told s ("📋 Используется конфиг из " ++ a.config), rfl⟩

/-- The part of a generation that has its document. -/
theorem run_projectFor (url output : String) (st : Settings) (raw : Value) (s : Session) :
    (do
      if !isRepresented url output raw then throw .unsupported
      requireStack .project
      let options : Options := ⟨some url, Path.baseName output, st.includeExample⟩
      let (project, _) ← request .generation (pure (generate raw options))
      return project : ExceptT RunFault (StateM Session) Project).run s =
        (s.projectFor url output st raw, s) := by
  have hasked := run_requireStack .project s
  rw [projectFor]
  cases isRepresented url output raw with
  | false => rfl
  | true =>
    simp only [Bool.not_true, Bool.false_eq_true, if_false]
    rcases hstack : s.requireStack .project with fault | ⟨⟩
    · rw [hstack] at hasked
      exact run_bind_of_error hasked
    · rw [hstack] at hasked
      refine (run_bind_of_ok hasked).trans ?_
      generalize generate raw ⟨some url, Path.baseName output, st.includeExample⟩ = result
      cases result <;> rfl

/-- The part of a generation that loads the document. -/
theorem run_projectOf (url : String) (st : Settings) (s : Session) :
    ∃ s', Alike s s' ∧ (do
      requireStack .document
      let raw ← request .source (Source.load url)
      tell "⚙️ Генерация кода..."
      let .text output := st.output | throw .outputNotText
      if !isRepresented url output raw then throw .unsupported
      requireStack .project
      let options : Options := ⟨some url, Path.baseName output, st.includeExample⟩
      let (project, _) ← request .generation (pure (generate raw options))
      return project : ExceptT RunFault (StateM Session) Project).run s =
        (s.projectOf url st, s') := by
  have hasked := run_requireStack .document s
  have hload := run_request .source (Source.load url) s
  rw [load_source] at hload
  unfold projectOf
  rcases hstack : s.requireStack .document with fault | ⟨⟩
  · rw [hstack] at hasked
    exact ⟨s, .refl s, run_bind_of_error hasked⟩
  rw [hstack] at hasked
  rw [run_bind_of_ok hasked]
  rcases hdoc : s.document url with fault | raw
  · rw [hdoc] at hload
    exact ⟨s, .refl s, run_bind_of_error hload⟩
  · rw [hdoc] at hload
    rw [run_bind_of_ok hload, run_bind_of_ok (run_tell _ _)]
    refine ⟨_, alike_told s "⚙️ Генерация кода...", ?_⟩
    cases st.output with
    | text output => exact run_projectFor url output st raw (s.told "⚙️ Генерация кода...")
    | _ => rfl

theorem run_generateClient {st : Settings} (h : st.url.isTruthy = true) (s : Session) :
    ∃ s', Alike s s' ∧ (generateClient (m := StateM Session) st).run s = (s.project st, s') := by
  rw [generateClient, h, project]
  simp only [Bool.not_true, Bool.false_eq_true, if_false]
  by_cases hhas : st.url.hasText = true
  · simp only [hhas, Bool.not_true, Bool.false_eq_true, if_false, if_true]
    rw [run_bind_of_ok (run_tell _ _), run_bind_of_ok (run_tell _ _)]
    generalize hs₁ : (s.told ("🚀 Генерация клиента из " ++ st.url.display)).told
      "📥 Загрузка OpenAPI спецификации..." = s₁
    have halike : s.Alike s₁ := hs₁ ▸ (alike_told s _).trans (alike_told _ _)
    cases st.url with
    | text url =>
      obtain ⟨s', halike', hrun⟩ := run_projectOf url st s₁
      refine ⟨s', halike.trans halike', hrun.trans ?_⟩
      rw [← projectOf_congr halike]
    | _ => exact ⟨s₁, halike, rfl⟩
  · rw [Bool.not_eq_true] at hhas
    simp only [hhas, Bool.not_false, if_true]
    refine ⟨s, .refl s, ?_⟩
    cases hurl : st.url with
    | text url =>
      rw [hurl] at hhas
      cases hhas
    | _ => rfl

/-! ## Saving does not depend on printed lines -/

theorem uniform_bind {x : ExceptT RunFault (StateM Session) α}
    {f : α → ExceptT RunFault (StateM Session) β} (hx : Uniform x.run)
    (hf : ∀ a, Uniform (f a).run) : Uniform (x >>= f).run := by
  rw [ExceptT.run_bind]
  refine Session.uniform_bind hx fun result => ?_
  cases result with
  | ok a => exact hf a
  | error fault => exact uniform_pure _

theorem uniform_request {fault : ε → RunFault} {x : StateM Session (Except ε α)}
    (hx : Uniform x) : Uniform (request fault x).run :=
  Session.uniform_bind hx fun _ => uniform_pure _

theorem uniform_tell (line : String) : Uniform (tell (m := StateM Session) line).run :=
  Session.uniform_bind (uniform_printLine line) fun _ => uniform_pure _

theorem uniform_writeFile (path text : String) :
    Uniform (writeFile (m := StateM Session) path text).run := by
  have hfill : Uniform (request (m := StateM Session) .file (Host.fill path text)).run :=
    uniform_request (uniform_fill path text)
  refine uniform_bind (uniform_request (uniform_update fun w => w.write path "")) fun _ => ?_
  cases Text.isEncodable text with
  | true => exact hfill
  | false => exact uniform_pure _

theorem uniform_writeFiles (directory : String) :
    ∀ files : List CodeFile, Uniform (writeFiles (m := StateM Session) directory files).run
  | [] => uniform_pure _
  | f :: rest =>
    uniform_bind (uniform_writeFile _ f.text) fun _ => uniform_writeFiles directory rest

/-- What saving a project does in its directory: the files are written, and this is told. -/
def saveFiles (directory : String) (files : List CodeFile) :
    ExceptT RunFault (StateM Session) Unit := do
  writeFiles directory files
  tell "✅ Генерация завершена успешно!"
  let root ← ExceptT.lift Host.workingDirectory
  tell ("📦 Клиент создан в: " ++ Path.absolute root directory)

theorem saveProject_eq (project : Project) (directory : String) :
    saveProject (m := StateM Session) project directory = (do
      tell ("💾 Сохранение " ++ toString project.files.length ++ " файлов...")
      if directory != "" then request .file (Host.makeDirectories directory)
      saveFiles directory project.files) := rfl

theorem uniform_saveFiles (directory : String) (files : List CodeFile) :
    Uniform (saveFiles directory files).run := by
  refine uniform_bind (uniform_writeFiles directory files) fun _ => ?_
  refine uniform_bind (uniform_tell _) fun _ => ?_
  refine uniform_bind ?_ fun root => uniform_tell _
  exact Session.uniform_bind (uniform_ask fun _ root => root) fun _ => uniform_pure _

/-- Where and how the files of a project are saved does not depend on what has been printed. -/
theorem uniform_saveProject (project : Project) (directory : String) :
    Uniform (saveProject (m := StateM Session) project directory).run := by
  have hfiles := uniform_saveFiles directory project.files
  rw [saveProject_eq]
  refine uniform_bind (uniform_tell _) fun _ => ?_
  split
  · exact uniform_bind (uniform_request (uniform_makeDirectoriesWithin _ _)) fun _ => hfiles
  · exact hfiles

/-- Nothing but writing the files decides how saving them ends and what it leaves. -/
theorem run_saveFiles {directory : String} {files : List CodeFile} {s s' : Session}
    {result : Except RunFault Unit}
    (hrun : (writeFiles (m := StateM Session) directory files).run s = (result, s')) :
    ∃ s'', (saveFiles directory files).run s = (result, s'') ∧ s''.workspace = s'.workspace := by
  rw [saveFiles]
  rcases result with fault | ⟨⟩
  · exact ⟨_, run_bind_of_error hrun, rfl⟩
  · rw [run_bind_of_ok hrun, run_bind_of_ok (run_tell _ _)]
    exact ⟨_, rfl, rfl⟩

end Command

end TypedClient
