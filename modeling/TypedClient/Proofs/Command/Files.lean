import TypedClient.Proofs.Command.Places
import TypedClient.Proofs.Generated

/-!
# Files that are written one after another

A project has the client file and perhaps the example file beside it, under another name. Saving
makes directories, which changes no file, and then writes the files one after another. A file is
refused or broken off, or it has its text (`Command.Filled`); where one of them is, nothing is taken
back of those before it (`Command.Written`).
-/

namespace TypedClient

/-! ## The names of the files -/

namespace ExampleFile

open Text

theorem eq_append_of_dropEnd? {ending cs stem : List Char} (h : dropEnd? ending cs = some stem) :
    cs = stem ++ ending := by
  obtain ⟨rest, hrest, rfl⟩ := Option.map_eq_some_iff.1 h
  have hcs := congrArg List.reverse (eq_append_of_dropStart? hrest)
  simpa using hcs

/-- The name of the example file is a part of the name of the client file and an ending. -/
theorem exists_fileName_eq (clientFile : String) : ∃ stem ending,
    (fileName clientFile).toList = stem ++ "-example.ts".toList ∧
      clientFile.toList = stem ++ ending ∧ ending.length ≤ 3 := by
  unfold fileName
  split
  · rename_i stem hstem
    exact ⟨stem, ".ts".toList, by simp, eq_append_of_dropEnd? hstem, le_refl _⟩
  · exact ⟨clientFile.toList, [], by simp, by simp, by simp⟩

theorem fileName_ne (clientFile : String) : fileName clientFile ≠ clientFile := by
  obtain ⟨stem, ending, hname, hclient, hlength⟩ := exists_fileName_eq clientFile
  intro h
  rw [h, hclient] at hname
  have hends := congrArg List.length (List.append_cancel_left hname)
  rw [hends] at hlength
  exact absurd hlength (by decide)

theorem isName_fileName (clientFile : String) : Workspace.IsName (fileName clientFile) := by
  obtain ⟨stem, _, hname, -, -⟩ := exists_fileName_eq clientFile
  have hlong (short : String) (hshort : short.toList.length ≤ 2) : fileName clientFile ≠ short := by
    rintro rfl
    rw [hname, List.length_append] at hshort
    have hending : "-example.ts".toList.length = 11 := by decide
    omega
  exact ⟨hlong _ (by decide), hlong _ (by decide), hlong _ (by decide)⟩

/-- A character of the name of the example file is one of the client file, or an ordinary one. -/
theorem notMem_fileName {clientFile : String} {c : Char} (h : c ∉ clientFile.toList)
    (hc : c ∉ "-example.ts".toList) : c ∉ (fileName clientFile).toList := by
  obtain ⟨stem, ending, hname, hclient, -⟩ := exists_fileName_eq clientFile
  rw [hname, List.mem_append, not_or]
  exact ⟨fun hmem => h (by rw [hclient]; exact List.mem_append_left _ hmem), hc⟩

end ExampleFile

/-- A project has the client file and, if wanted, the example file. -/
theorem files_of_generate {raw : Value} {options : Options} {project : Project}
    {notices : List Notice} (h : generate raw options = .ok (project, notices)) :
    ∃ client : CodeFile, client.name = options.clientFile ∧
      (options.includeExample = false ∧ project.files = [client] ∨
        options.includeExample = true ∧ ∃ example_ : CodeFile,
          example_.name = ExampleFile.fileName options.clientFile ∧
            project.files = [client, example_]) := by
  obtain ⟨doc, reg, found, clientClass, hyields, -⟩ := exists_yields h
  cases h.symm.trans hyields.generate_eq
  refine ⟨(doc.interface options.sourceUrl reg).clientFile clientClass options.clientFile, rfl, ?_⟩
  cases hexample : options.includeExample with
  | false => exact .inl ⟨rfl, rfl⟩
  | true => exact .inr ⟨rfl, _, rfl, rfl⟩

theorem Path.notMem_baseName (path : String) : '/' ∉ (baseName path).toList := by
  rw [baseName, String.toList_ofList, Text.afterLast, List.mem_reverse]
  intro h
  simpa using List.mem_takeWhile_imp h

/-! ## Making directories -/

namespace Session

variable {α β : Type}

/-- Requests that change no file, though they may make directories. -/
def KeepsFiles (x : StateM Session α) : Prop :=
  ∀ s : Session, s.workspace.Updates (x s).2.workspace []

theorem keepsFiles_pure (a : α) : KeepsFiles (pure a) := fun s => .refl s.workspace

theorem keepsFiles_bind {x : StateM Session α} {f : α → StateM Session β} (hx : KeepsFiles x)
    (hf : ∀ a, KeepsFiles (f a)) : KeepsFiles (x >>= f) :=
  fun s => (hx s).after (hf _ _)

theorem keepsFiles_ask (f : Workspace → α) : KeepsFiles fun s => (f s.workspace, s) :=
  fun s => .refl s.workspace

theorem keepsFiles_update {f : Workspace → Except FileFault Workspace}
    (h : ∀ w w', f w = .ok w' → w.Updates w' []) :
    KeepsFiles fun s => s.update (f s.workspace) := by
  intro s
  rcases hf : f s.workspace with fault | w
  · simp only [hf]
    exact .refl _
  · simp only [hf]
    exact h _ _ hf

theorem keepsFiles_ensureDirectory (path : String) : KeepsFiles (Host.ensureDirectory path) := by
  have hmake : KeepsFiles (Host.makeDirectory path : StateM Session _) :=
    keepsFiles_update (f := fun w => w.makeDirectory path) fun _ _ h =>
      Workspace.updates_makeDirectory h
  refine keepsFiles_bind hmake fun made => ?_
  cases made with
  | ok => exact keepsFiles_pure _
  | error fault =>
    exact keepsFiles_bind (keepsFiles_ask fun w => w.isDirectory path) fun _ => keepsFiles_pure _

theorem keepsFiles_makeDirectoriesWithin :
    ∀ (n : Nat) (path : String), KeepsFiles (Host.makeDirectoriesWithin n path)
  | 0, _ => keepsFiles_pure _
  | n + 1, path => by
    rw [Host.makeDirectoriesWithin]
    refine keepsFiles_bind (keepsFiles_ask fun w => w.isPresent _) fun isThere => ?_
    split
    · exact keepsFiles_ensureDirectory path
    · refine keepsFiles_bind (keepsFiles_makeDirectoriesWithin n _) fun made => ?_
      split
      · split
        · exact keepsFiles_pure _
        · exact keepsFiles_ensureDirectory path
      · split
        · exact keepsFiles_pure _
        · exact keepsFiles_ensureDirectory path
      · exact keepsFiles_pure _

theorem keepsFiles_makeDirectories (path : String) : KeepsFiles (Host.makeDirectories path) :=
  keepsFiles_makeDirectoriesWithin _ path

end Session

/-! ## Writing files -/

/-- A workspace that has the files of another one, but for some that get a content in a directory
under the names above them. -/
structure Workspace.Gains (w w' : Workspace) (directory : String) (above : List String)
    (files : List (String × FileContent)) : Prop where
  places : ∀ f ∈ files, w'.locateNew (Path.join directory f.1) = .ok (.within (above ++ [f.1]))
  updates : w.Updates w' (files.map fun f => (above ++ [f.1], f.2))

/-- A file with its text. -/
def CodeFile.whole (f : CodeFile) : String × FileContent := (f.name, .ok f.text)

namespace Command

open Workspace (Bars)

variable {directory : String} {above : List String} {w w' : Workspace}
  {cuts : String → Option Cut}

/-- What is in a file after its text has been put into it, and what that comes to: it has its text,
or it is still empty because the text cannot be encoded, or the device has broken it off. -/
inductive Filled (cuts : String → Option Cut) (path text : String) :
    FileContent → Except RunFault Unit → Prop
  | whole (htext : Text.isEncodable text = true) (hcut : cuts path = none) :
      Filled cuts path text (.ok text) (.ok ())
  | empty (htext : Text.isEncodable text = false) :
      Filled cuts path text (.ok "") (.error .encoding)
  | cut {cut : Cut} (htext : Text.isEncodable text = true) (hcut : cuts path = some cut) :
      Filled cuts path text cut.content (.error (.file ⟨.device cut.words, path⟩))

theorem Filled.eq_whole {path text : String} {content : FileContent}
    {result : Except RunFault Unit} (h : Filled cuts path text content result)
    (htext : Text.isEncodable text = true) (hcut : cuts path = none) :
    content = .ok text ∧ result = .ok () := by
  cases h with
  | whole => exact ⟨rfl, rfl⟩
  | empty htext' => simp [htext] at htext'
  | cut _ hcut' => simp [hcut] at hcut'

/-- What has become of files that are written into a directory: they are all there, or those before
one that is barred, or those before one that does not get its text. -/
inductive Written (cuts : String → Option Cut) (directory : String) (above : List String)
    (w w' : Workspace) : List CodeFile → Except RunFault Unit → Prop
  | all {files : List CodeFile} (h : w.Gains w' directory above (files.map CodeFile.whole)) :
      Written cuts directory above w w' files (.ok ())
  | before (done : List CodeFile) {rest : List CodeFile} {f : CodeFile} {reason : FileFault.Reason}
      (h : w.Gains w' directory above (done.map CodeFile.whole)) (hreason : Bars reason) :
      Written cuts directory above w w' (done ++ f :: rest)
        (.error (.file ⟨reason, Path.join directory f.name⟩))
  | broken (done : List CodeFile) {rest : List CodeFile} {f : CodeFile} {content : FileContent}
      {fault : RunFault}
      (hfilled : Filled cuts (Path.join directory f.name) f.text content (.error fault))
      (h : w.Gains w' directory above (done.map CodeFile.whole ++ [(f.name, content)])) :
      Written cuts directory above w w' (done ++ f :: rest) (.error fault)

theorem lookup_places_eq_none {name : String} :
    ∀ {files : List (String × FileContent)}, name ∉ files.map (·.1) →
      (files.map fun f => (above ++ [f.1], f.2)).lookup (above ++ [name]) = none
  | [], _ => rfl
  | f :: files, h => by
    rw [List.map_cons, List.mem_cons, not_or] at h
    have hne : (above ++ [name] == above ++ [f.1]) = false := by simpa using h.1
    rw [List.map_cons, List.lookup_cons, hne]
    exact lookup_places_eq_none h.2

theorem gains_cons {name : String} {content : FileContent} {files : List (String × FileContent)}
    (hplace : w.locateNew (Path.join directory name) = .ok (.within (above ++ [name])))
    (hentry : w.entry? (above ++ [name]) ≠ some .directory)
    (hnew : name ∉ files.map (·.1))
    (h : (w.put (above ++ [name]) (.file content)).Gains w' directory above files) :
    w.Gains w' directory above ((name, content) :: files) where
  updates := .of_put (by simp) hentry (lookup_places_eq_none hnew) h.updates
  places := by
    intro g hg
    rcases List.mem_cons.1 hg with rfl | hg
    · exact h.updates.locateNew (Workspace.locateNew_congr
        (fun p => Workspace.entryAt?_put hentry) hplace)
    · exact h.places g hg

theorem gains_nil (w : Workspace) (directory : String) (above : List String) :
    w.Gains w directory above [] := ⟨nofun, .refl w⟩

theorem map_fst_whole (files : List CodeFile) :
    (files.map CodeFile.whole).map (·.1) = files.map (·.name) := by
  rw [List.map_map]
  rfl

theorem Written.cons {f : CodeFile} {files : List CodeFile} {result : Except RunFault Unit}
    (hplace : w.locateNew (Path.join directory f.name) = .ok (.within (above ++ [f.name])))
    (hentry : w.entry? (above ++ [f.name]) ≠ some .directory)
    (hnew : f.name ∉ files.map (·.name))
    (h : Written cuts directory above (w.put (above ++ [f.name]) (.file (.ok f.text))) w' files
      result) :
    Written cuts directory above w w' (f :: files) result := by
  cases h with
  | all h => exact .all (gains_cons hplace hentry (by rwa [map_fst_whole]) h)
  | before done h hreason =>
    rw [List.map_append, List.mem_append, not_or] at hnew
    have hgains := gains_cons hplace hentry (by rw [map_fst_whole]; exact hnew.1) h
    exact Written.before (f :: done) hgains hreason
  | broken done hfilled h =>
    rw [List.map_append, List.mem_append, not_or, List.map_cons, List.mem_cons, not_or] at hnew
    have hgains := gains_cons hplace hentry (by
      rw [List.map_append, map_fst_whole, List.mem_append, not_or]
      exact ⟨hnew.1, by simpa using hnew.2.1⟩) h
    exact Written.broken (f :: done) hfilled hgains

theorem Written.after {w₁ : Workspace} {files : List CodeFile} {result : Except RunFault Unit}
    (h : w.Updates w₁ []) (hwritten : Written cuts directory above w₁ w' files result) :
    Written cuts directory above w w' files result := by
  cases hwritten with
  | all hgains => exact .all ⟨hgains.places, h.after hgains.updates⟩
  | before done hgains hreason => exact .before done ⟨hgains.places, h.after hgains.updates⟩ hreason
  | broken done hfilled hgains => exact .broken done hfilled ⟨hgains.places, h.after hgains.updates⟩

/-! ### One file -/

theorem run_write (path text : String) (s : Session) :
    (request (m := StateM Session) .file (Host.write path text)).run s =
      ((s.update (s.workspace.write path text)).1.mapError .file,
        (s.update (s.workspace.write path text)).2) :=
  run_request .file (Host.write path text) s

theorem run_writeFile_of_error {path text : String} {s : Session} {fault : FileFault}
    (h : s.workspace.write path "" = .error fault) :
    (writeFile (m := StateM Session) path text).run s = (.error (.file fault), s) := by
  have hempty := run_write path "" s
  rw [h] at hempty
  exact run_bind_of_error hempty

theorem run_writeFile_of_ok {path : String} {s : Session} (h : s.workspace.write path "" = .ok w)
    (text : String) : ∃ content result w',
      Filled s.cuts path text content result ∧ s.workspace.store path content = .ok w' ∧
        (writeFile (m := StateM Session) path text).run s =
          (result, { s with workspace := w' }) := by
  have hempty := run_write path "" s
  rw [h] at hempty
  rw [writeFile, run_bind_of_ok hempty]
  rcases htext : Text.isEncodable text with _ | _
  · exact ⟨_, _, w, .empty htext, h, rfl⟩
  have hfill : (request (m := StateM Session) .file (Host.fill path text)).run
      { s with workspace := w } = ((Session.fill { s with workspace := w } path text).1.mapError
        .file, (Session.fill { s with workspace := w } path text).2) := run_request _ _ _
  rw [Session.fill] at hfill
  rcases hcut : s.cuts path with _ | cut
  · obtain ⟨w', hstore, hagain⟩ := Workspace.store_store h (.ok text)
    simp only [hcut, Workspace.write, hagain, Session.update] at hfill
    exact ⟨_, _, w', .whole htext hcut, hstore, hfill⟩
  · obtain ⟨w', hstore, hagain⟩ := Workspace.store_store h cut.content
    simp only [hcut, hagain] at hfill
    exact ⟨_, _, w', .cut htext hcut, hstore, hfill⟩

/-! ### All files -/

theorem run_writeFiles_nil (directory : String) (s : Session) :
    (writeFiles (m := StateM Session) directory []).run s = (.ok (), s) := rfl

theorem run_writeFiles_cons_of_ok {f : CodeFile} {files : List CodeFile} {s s₁ : Session}
    (h : (writeFile (m := StateM Session) (Path.join directory f.name) f.text).run s =
      (.ok (), s₁)) :
    (writeFiles (m := StateM Session) directory (f :: files)).run s =
      (writeFiles (m := StateM Session) directory files).run s₁ := by
  rw [writeFiles, run_bind_of_ok h]

theorem run_writeFiles_cons_of_error {f : CodeFile} {files : List CodeFile} {s s₁ : Session}
    {fault : RunFault}
    (h : (writeFile (m := StateM Session) (Path.join directory f.name) f.text).run s =
      (.error fault, s₁)) :
    (writeFiles (m := StateM Session) directory (f :: files)).run s = (.error fault, s₁) := by
  rw [writeFiles, run_bind_of_error h]

/-- A file that is not refused, in front of others that are written after it. -/
theorem written_cons_of_opens {f : CodeFile} {files : List CodeFile} {s s' : Session}
    {result : Except RunFault Unit} (hopens : s.workspace.Opens directory above)
    (hslash : '/' ∉ f.name.toList)
    (hfirst : s.workspace.write (Path.join directory f.name) "" = .ok w)
    (hnew : f.name ∉ files.map (·.name))
    (hrest : ∀ s₁ : Session, s₁.workspace.Opens directory above → s₁.cuts = s.cuts →
      (writeFiles (m := StateM Session) directory files).run s₁ = (result, s') →
        Written s.cuts directory above s₁.workspace s'.workspace files result)
    (hrun : (writeFiles (m := StateM Session) directory (f :: files)).run s = (result, s')) :
    Written s.cuts directory above s.workspace s'.workspace (f :: files) result := by
  obtain ⟨content, outcome, w', hfilled, hstore, hfile⟩ :=
    run_writeFile_of_ok hfirst f.text
  obtain ⟨above', hopens', -, hplace, hentry, rfl⟩ :=
    Workspace.exists_of_store_join hslash hstore
  cases hopens.walk.symm.trans hopens'.walk
  rcases outcome with fault | ⟨⟩
  · rw [run_writeFiles_cons_of_error hfile] at hrun
    cases hrun
    exact Written.broken [] hfilled
      (gains_cons hplace hentry (by simp) (gains_nil _ _ _))
  · rw [run_writeFiles_cons_of_ok hfile] at hrun
    cases hfilled
    -- a file is no directory, so the way to the next files is still open
    have hopens₁ := hopens.put (e := .file (.ok f.text)) hentry
    exact .cons hplace hentry hnew (hrest { s with workspace := _ } hopens₁ rfl hrun)

/-- Files of different names are written into an open directory up to one that does not get its
text. -/
theorem written_of_opens {files : List CodeFile} {s s' : Session} {result : Except RunFault Unit}
    (hopens : s.workspace.Opens directory above) (hnodup : (files.map (·.name)).Nodup)
    (hnames : ∀ f ∈ files, '/' ∉ f.name.toList ∧ Workspace.IsName f.name ∧
      '\x00' ∉ (Path.join directory f.name).toList)
    (hrun : (writeFiles (m := StateM Session) directory files).run s = (result, s')) :
    Written s.cuts directory above s.workspace s'.workspace files result := by
  induction files generalizing s with
  | nil =>
    rw [run_writeFiles_nil] at hrun
    cases hrun
    exact .all (gains_nil _ _ _)
  | cons f files ih =>
    obtain ⟨hslash, hname, hnull⟩ := hnames f List.mem_cons_self
    rw [List.map_cons, List.nodup_cons] at hnodup
    rcases hopens.store hslash hname hnull (.ok "") with
      ⟨-, -, hfirst⟩ | ⟨reason, hbars, hrefused⟩
    · refine written_cons_of_opens hopens hslash hfirst hnodup.1 (fun s₁ hopens₁ hcuts hrun => ?_)
        hrun
      rw [← hcuts]
      exact ih hopens₁ hnodup.2 (fun g hg => hnames g (List.mem_cons_of_mem f hg)) hrun
    · rw [run_writeFiles_cons_of_error (run_writeFile_of_error hrefused)] at hrun
      cases hrun
      exact Written.before [] (gains_nil _ _ _) hbars

/-- Once the first file is there, the others are written up to one that does not get its text. -/
theorem written_of_writeFiles {first : CodeFile} {rest : List CodeFile} {s s' : Session}
    {result : Except RunFault Unit} (hslash : '/' ∉ first.name.toList)
    (hnodup : ((first :: rest).map (·.name)).Nodup)
    (hrest : ∀ f ∈ rest, '/' ∉ f.name.toList ∧ Workspace.IsName f.name ∧
      ('\x00' ∉ first.name.toList → '\x00' ∉ f.name.toList))
    (hrun : (writeFiles (m := StateM Session) directory (first :: rest)).run s = (result, s')) :
    (∃ fault, result = .error (.file fault) ∧ s' = s) ∨ ∃ above,
      Written s.cuts directory above s.workspace s'.workspace (first :: rest) result := by
  rcases hfirst : s.workspace.write (Path.join directory first.name) "" with fault | w
  · rw [run_writeFiles_cons_of_error (run_writeFile_of_error hfirst)] at hrun
    cases hrun
    exact .inl ⟨fault, rfl, rfl⟩
  · rw [List.map_cons, List.nodup_cons] at hnodup
    obtain ⟨above, hopens, hnull, -⟩ := Workspace.exists_of_store_join hslash hfirst
    rw [Path.toList_join directory hslash, List.mem_append, not_or] at hnull
    refine .inr ⟨above, written_cons_of_opens hopens hslash hfirst hnodup.1
      (fun s₁ hopens₁ hcuts hrun => ?_) hrun⟩
    rw [← hcuts]
    refine written_of_opens hopens₁ hnodup.2 (fun f hf => ?_) hrun
    obtain ⟨hslash', hname, hnull'⟩ := hrest f hf
    rw [Path.toList_join directory hslash', List.mem_append, not_or]
    exact ⟨hslash', hname, hnull.1, hnull' hnull.2⟩

theorem run_makeDirectories {s s' : Session} {result : Except RunFault Unit}
    (hrun : (request (m := StateM Session) .file (Host.makeDirectories directory)).run s =
      (result, s')) :
    s.workspace.Updates s'.workspace [] ∧
      ((∃ fault, result = .error (.file fault)) ∨ result = .ok ()) := by
  have hmake := run_request .file (Host.makeDirectories directory) s
  have hkeeps := Session.keepsFiles_makeDirectories directory s
  rcases hmade : (Host.makeDirectories directory : StateM Session _) s with ⟨fault | ⟨⟩, s₁⟩
  · rw [hmade] at hmake hkeeps
    cases hmake.symm.trans hrun
    exact ⟨hkeeps, .inl ⟨fault, rfl⟩⟩
  · rw [hmade] at hmake hkeeps
    cases hmake.symm.trans hrun
    exact ⟨hkeeps, .inr rfl⟩

/-- Saving makes directories and writes files; nothing else that it does touches the workspace. -/
theorem exists_writeFiles_of_saveProject {project : Project} {s s' : Session}
    {result : Except RunFault Unit}
    (hrun : (saveProject (m := StateM Session) project directory).run s = (result, s')) :
    (∃ fault, result = .error (.file fault) ∧ s.workspace.Updates s'.workspace []) ∨
      ∃ s₁ s₂, s.workspace.Updates s₁.workspace [] ∧ s₁.cuts = s.cuts ∧
        (writeFiles (m := StateM Session) directory project.files).run s₁ = (result, s₂) ∧
        s'.workspace = s₂.workspace := by
  have hwritten : ∀ s₁, (saveFiles directory project.files).run s₁ = (result, s') →
      ∃ s₂, (writeFiles (m := StateM Session) directory project.files).run s₁ = (result, s₂) ∧
        s'.workspace = s₂.workspace := by
    intro s₁ hrun
    rcases hfiles : (writeFiles (m := StateM Session) directory project.files).run s₁ with
      ⟨outcome, s₂⟩
    obtain ⟨s₃, hsaved, hworkspace⟩ := run_saveFiles hfiles
    cases hrun.symm.trans hsaved
    exact ⟨s₂, rfl, hworkspace⟩
  rw [saveProject_eq, run_bind_of_ok (run_tell _ _)] at hrun
  have htold := Session.alike_told s
    ("💾 Сохранение " ++ toString project.files.length ++ " файлов...")
  rw [htold.workspace, htold.cuts]
  generalize s.told ("💾 Сохранение " ++ toString project.files.length ++ " файлов...") = s₀ at hrun
  split at hrun
  · rcases hmade :
      (request (m := StateM Session) .file (Host.makeDirectories directory)).run s₀ with ⟨made, s₁⟩
    have huniform : Session.Uniform
        (request (m := StateM Session) .file (Host.makeDirectories directory)).run :=
      uniform_request (Session.uniform_makeDirectoriesWithin _ _)
    have hcuts := huniform.cuts s₀
    rw [hmade] at hcuts
    obtain ⟨hkeeps, ⟨fault, rfl⟩ | rfl⟩ := run_makeDirectories hmade
    · rw [run_bind_of_error hmade] at hrun
      cases hrun
      exact .inl ⟨fault, rfl, hkeeps⟩
    · rw [run_bind_of_ok hmade] at hrun
      obtain ⟨s₂, hfiles, hafter⟩ := hwritten _ hrun
      exact .inr ⟨s₁, s₂, hkeeps, hcuts, hfiles, hafter⟩
  · obtain ⟨s₂, hfiles, hafter⟩ := hwritten _ hrun
    exact .inr ⟨s₀, s₂, .refl _, rfl, hfiles, hafter⟩

end Command

end TypedClient
