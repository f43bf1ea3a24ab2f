import TypedClient.Proofs.Command.Faults
import TypedClient.Proofs.Command.Saving
import TypedClient.Proofs.Command.Refusal

/-!
# How a run ends

A run that the command line allows ends well, or tells a fault on a marked line, unless a fault
stops it. It is stopped if its settings cannot be written or read, if the generation is interrupted,
if a path with a null character is refused, or if a text of a file cannot be encoded
(`Command.Raises`). No other run is stopped (`endsCleanly_run_iff`), as far as what it meets is
represented.
-/

namespace TypedClient

open Session

/-- An ending that is not for something that is not represented. -/
def Ending.IsSupported (e : Ending) : Prop :=
  ∀ fault, e = .stopped fault → ¬ fault.IsUnsupported

/-- What becomes of saving the files of a project. -/
def Session.saving (s : Session) (project : Project) (output : String) :
    Except RunFault Unit × Session :=
  (Command.saveProject (m := StateM Session) project (Path.directoryName output)).run s

namespace Command

variable {a : Arguments} {s s' : Session} {st : Settings}

/-! ## A step that stops the run if it fails -/

theorem ending_apply (x : ExceptT RunFault (StateM Session) Unit) (s : Session) :
    ending x s = (match (x.run s).1 with
      | .ok () => .done
      | .error fault => .stopped fault, (x.run s).2) := by
  rw [ending, bind_apply]
  rcases (x.run s).1 with fault | ⟨⟩ <;> rfl

theorem textual_of_project {project : Project} (h : s.project st = .ok project) :
    ∃ output, st.Textual output := by
  obtain ⟨url, output, _, hsupplied, -⟩ := project_eq_ok.1 h
  exact ⟨output, hsupplied.outputText, .inr ⟨url, hsupplied.urlText⟩⟩

theorem run_generateAndSave_of_error (hurl : st.url.isTruthy = true) {fault : RunFault}
    (h : s.project st = .error fault) : ∃ s', s.Alike s' ∧
      (generateAndSave (m := StateM Session) st).run s = (.error fault, s') := by
  obtain ⟨s', halike, hrun⟩ := run_generateClient hurl s
  rw [h] at hrun
  exact ⟨s', halike, run_bind_of_error hrun⟩

theorem run_generateAndSave_of_ok (hurl : st.url.isTruthy = true) {project : Project}
    (h : s.project st = .ok project) {output : String} (houtput : st.output = .text output) :
    ∃ s', s.Alike s' ∧
      (generateAndSave (m := StateM Session) st).run s = s'.saving project output := by
  obtain ⟨s', halike, hrun⟩ := run_generateClient hurl s
  rw [h] at hrun
  refine ⟨s', halike, ?_⟩
  rw [generateAndSave, run_bind_of_ok hrun, houtput]
  rfl

theorem generateOrReport_of_ok {after : StateM Session Ending}
    (h : (generateAndSave (m := StateM Session) st).run s = (.ok (), s')) :
    generateOrReport st after s = after s' := by
  rw [generateOrReport, bind_apply, h]

theorem generateOrReport_of_error {after : StateM Session Ending} {fault : RunFault}
    (h : (generateAndSave (m := StateM Session) st).run s = (.error fault, s')) :
    generateOrReport st after s = match fault.report? with
      | some text => (.reported fault, s'.told ("❌ Ошибка генерации: " ++ text))
      | none => (.stopped fault, s') := by
  rw [generateOrReport, bind_apply, h]
  rcases hreport : fault.report? with _ | text <;> simp only [hreport] <;> rfl

/-- What follows when the files have been saved. -/
def afterSaving (a : Arguments) (st : Settings) : StateM Session Ending :=
  if a.saveConfig then ending (keepSettings st a.config) else return .done

theorem run_of_parse {args : List String} (h : Arguments.parse args = .ok a) :
    run (m := StateM Session) args = runWith a := by
  rw [run, h]

/-- That there are no settings is never reported. -/
theorem report?_of_settingsFor {fault : RunFault} (h : s.settingsFor a = .error fault) :
    fault.report? = none := by
  rcases eq_error_of_bind_eq_error h with h | ⟨_, -, h⟩
  · unfold Session.requireStack at h
    split at h
    · cases h
    · cases h
      rfl
  · obtain ⟨_, -, rfl⟩ := exists_of_mapError_eq_error h
    rfl

theorem runWith_of_error {fault : RunFault} (hinit : a.initConfig = false)
    (h : s.settingsFor a = .error fault) : ∃ s', s.Alike s' ∧
      runWith (m := StateM Session) a s = (.stopped fault, s') := by
  obtain ⟨s', halike, hread⟩ := run_readSettings a s
  rw [h] at hread
  refine ⟨s', halike, ?_⟩
  rw [runWith, hinit, if_neg Bool.false_ne_true, bind_apply, hread]
  rfl

theorem runWith_of_ok (hinit : a.initConfig = false) (h : s.settingsFor a = .ok st) :
    ∃ s', s.Alike s' ∧ runWith (m := StateM Session) a s =
      if st.url.isTruthy then generateOrReport st (afterSaving a st) s'
      else (.noSource, s'.told "❌ Ошибка: Укажите --url или создайте конфиг с --init-config") := by
  obtain ⟨s', halike, hread⟩ := run_readSettings a s
  rw [h] at hread
  refine ⟨s', halike, ?_⟩
  rw [runWith, hinit, if_neg Bool.false_ne_true, bind_apply, hread]
  -- the choice is made before the session is looked at
  change (if st.url.isTruthy = true then _ else _ : StateM Session Ending) s' = _
  split <;> rfl

end Command

/-- A session with one entry in its workspace. -/
def sessionOf (name : String) (e : Entry) : Session :=
  Session.start (.ofEntries [([name], e)]) "/work" []

end TypedClient
