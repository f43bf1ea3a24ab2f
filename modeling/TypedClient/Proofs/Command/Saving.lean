import TypedClient.Proofs.Command.Session

/-!
# Saving settings

The settings file is emptied before the text of the settings is known, and what could be written
once can be written again (`store_store`). So settings are saved unless their file is refused
or they have no text (`fails_save`); a setting without a text is one that opens with the mark of a
control character.
-/

namespace TypedClient

/-! ## Writing a file again -/

namespace Workspace

variable {w w' : Workspace} {path : String} {content : FileContent} {names names' : List String}
  {e : Entry}

@[simp] theorem refuses_put (w : Workspace) (names : List String) (e : Entry) :
    (w.put names e).refuses = w.refuses := by
  unfold put
  split <;> rfl

theorem entry?_put_self (hne : names ≠ []) : Workspace.entry? (w.put names e) names = some e := by
  have hlist : ∀ entries : List (List String × Entry), (∃ x ∈ entries, x.1 = names) →
      (entries.map fun x => if x.1 = names then (names, e) else x).find? (fun x => x.1 = names) =
        some (names, e) := by
    intro entries h
    induction entries with
    | nil => simp at h
    | cons x entries ih =>
      by_cases hx : x.1 = names
      · simp [hx]
      · have htail : ∃ y ∈ entries, y.1 = names := by simpa [hx] using h
        rw [List.map_cons, if_neg hx, List.find?_cons_of_neg (by simpa using hx), ih htail]
  have hempty : ¬ names.isEmpty = true := by simpa using hne
  unfold entry? put
  rw [if_neg hempty]
  split
  · rename_i hany
    rw [hlist w.entries (by simpa using hany)]
    rfl
  · rename_i hany
    have hnone : w.entries.find? (fun x => decide (x.1 = names)) = none := by
      rw [List.find?_eq_none]
      exact fun x hx hname => hany (List.any_eq_true.2 ⟨x, hx, hname⟩)
    simp [List.find?_append, hnone]

theorem entry?_put_of_ne (h : names' ≠ names) :
    Workspace.entry? (w.put names e) names' = w.entry? names' := by
  have hlist : ∀ entries : List (List String × Entry),
      (entries.map fun x => if x.1 = names then (names, e) else x).find? (fun x => x.1 = names') =
        entries.find? fun x => x.1 = names' := by
    intro entries
    induction entries with
    | nil => rfl
    | cons x entries ih =>
      by_cases hx : x.1 = names
      · have hx' : ¬ x.1 = names' := fun hc => h (hc.symm.trans hx)
        simp only [List.map_cons, if_pos hx]
        rw [List.find?_cons_of_neg (by simpa using Ne.symm h), ih,
          List.find?_cons_of_neg (by simpa using hx')]
      · simp only [List.map_cons, if_neg hx, List.find?_cons, ih]
  unfold entry? put
  split
  · rfl
  · split
    · rw [hlist]
    · simp [List.find?_append, Ne.symm h]

/-- A directory stays one when something is put where no directory is. -/
theorem entryAt?_put (h : w.entry? names ≠ some .directory) {p : Place}
    (hp : w.entryAt? p = some .directory) : (w.put names e).entryAt? p = some .directory := by
  cases p with
  | outside => rfl
  | within names' =>
    have hne : names' ≠ names := by
      rintro rfl
      exact h hp
    exact (entry?_put_of_ne hne).trans hp

/-- A step leads from a directory. -/
theorem entryAt?_of_step {p q : Place} {name : String} (h : w.step p name = .ok q) :
    w.entryAt? p = some .directory := by
  unfold step at h
  split at h
  · cases h
  · cases h
  · assumption

theorem step_congr {p : Place} (name : String) (h : w'.entryAt? p = w.entryAt? p) :
    w'.step p name = w.step p name := by
  unfold step
  rw [h]

/-- A walk that reaches its end passes through directories only, and needs nothing else. -/
theorem walk_congr (hdirectories : ∀ p, w.entryAt? p = some .directory →
      w'.entryAt? p = some .directory) {q : Place} :
    ∀ {names : List String} {p : Place}, w.walk p names = .ok q → w'.walk p names = .ok q
  | [], _, h => h
  | name :: names, p, h => by
    obtain ⟨p', hstep, hrest⟩ := exists_of_bind_eq_ok (show w.step p name >>= _ = _ from h)
    have hp := entryAt?_of_step hstep
    have hstep' : w'.step p name = .ok p' := by
      rw [step_congr name ((hdirectories p hp).trans hp.symm), hstep]
    show w'.step p name >>= _ = _
    rw [hstep']
    exact walk_congr hdirectories hrest

theorem locateNew_congr (hdirectories : ∀ p, w.entryAt? p = some .directory →
      w'.entryAt? p = some .directory) {q : Place} (h : w.locateNew path = .ok q) :
    w'.locateNew path = .ok q := by
  unfold locateNew locate at h ⊢
  split at h
  · cases h
  · split at h
    · cases h
    · rename_i hnull hempty
      rw [if_neg hnull, if_neg hempty]
      exact walk_congr hdirectories h

/-- A place without a directory is not the working directory. -/
theorem ne_nil_of_ne_directory {names : List String} (h : w.entry? names ≠ some .directory) :
    names ≠ [] := by
  rintro rfl
  exact h rfl

theorem make_eq_ok : w.make path names e = .ok w' ↔ w.refuses path = none ∧ w' = w.put names e := by
  unfold make
  cases w.refuses path <;> simp [eq_comm]

theorem store_eq_ok : w.store path content = .ok w' ↔
    ∃ names, w.locateNew path = .ok (.within names) ∧ ¬ path.endsWith "/" = true ∧
      w.entry? names ≠ some .directory ∧ w.refuses path = none ∧
        w' = w.put names (.file content) := by
  unfold store
  constructor
  · intro h
    split at h
    · cases h
    · cases h
    · rename_i names hplace
      split at h
      · cases h
      · rename_i hslash
        split at h
        · cases h
        · rename_i hentry
          exact ⟨names, hplace, hslash, hentry, make_eq_ok.1 h⟩
  · rintro ⟨names, hplace, hslash, hentry, hmake⟩
    rw [hplace]
    simp only [if_neg hslash]
    exact make_eq_ok.2 hmake

/-- Of two entries put under the same names, the second one is left. -/
theorem put_put (w : Workspace) (names : List String) (e e' : Entry) :
    (w.put names e).put names e' = w.put names e' := by
  by_cases hany : (w.entries.any fun x => x.1 = names) = true
  · have hput (e : Entry) : w.put names e =
        { w with entries := w.entries.map fun x => if x.1 = names then (names, e) else x } :=
      if_pos hany
    have hany' : ((w.entries.map fun x => if x.1 = names then (names, e) else x).any
        fun x => x.1 = names) = true := by
      obtain ⟨x, hx, hname⟩ := List.any_eq_true.1 hany
      refine List.any_eq_true.2 ⟨(names, e), List.mem_map.2 ⟨x, hx, ?_⟩, by simp⟩
      rw [if_pos (of_decide_eq_true hname)]
    rw [hput e, hput e', put, if_pos hany', List.map_map]
    congr 1
    refine List.map_congr_left fun x _ => ?_
    by_cases hx : x.1 = names <;> simp [hx]
  · have hput (e : Entry) : w.put names e = { w with entries := w.entries ++ [(names, e)] } :=
      if_neg hany
    have hsame : w.entries.map (fun x => if x.1 = names then (names, e') else x) = w.entries := by
      conv_rhs => rw [← List.map_id w.entries]
      refine List.map_congr_left fun x hx => if_neg fun hname => hany ?_
      exact List.any_eq_true.2 ⟨x, hx, decide_eq_true hname⟩
    rw [hput e, hput e', put, if_pos (by simp), List.map_append, hsame]
    simp

/-- What could be written once can be written again. -/
theorem store_store (h : w.store path content = .ok w') (content' : FileContent) :
    ∃ w'', w.store path content' = .ok w'' ∧ w'.store path content' = .ok w'' := by
  obtain ⟨names, hplace, hslash, hentry, hrefuses, rfl⟩ := store_eq_ok.1 h
  refine ⟨_, store_eq_ok.2 ⟨names, hplace, hslash, hentry, hrefuses, rfl⟩, ?_⟩
  -- the new file stands where no directory was, so every directory is still there
  have hplace' := locateNew_congr (fun p => entryAt?_put (e := .file content) hentry) hplace
  refine store_eq_ok.2 ⟨names, hplace', hslash, ?_, ?_, (put_put w names _ _).symm⟩
  · rw [entry?_put_self (ne_nil_of_ne_directory hentry)]
    simp
  · rw [refuses_put, hrefuses]

end Workspace

/-! ## Settings without a text -/

theorem mapM_eq_ok_of_forall {ε α β : Type} {f : α → Except ε β} {g : α → β} :
    ∀ {l : List α}, (∀ a ∈ l, f a = .ok (g a)) → l.mapM f = .ok (l.map g)
  | [], _ => rfl
  | a :: l, h => by
    rw [List.mapM_cons, h a List.mem_cons_self,
      mapM_eq_ok_of_forall fun b hb => h b (List.mem_cons_of_mem a hb)]
    rfl

theorem filterMapM_eq_nil {ε α β : Type} {f : α → Except ε (Option β)} :
    ∀ {l : List α}, (∀ a ∈ l, f a = .ok none) → l.filterMapM f = .ok []
  | [], _ => rfl
  | a :: l, h => by
    rw [List.filterMapM_cons, h a List.mem_cons_self,
      filterMapM_eq_nil fun b hb => h b (List.mem_cons_of_mem a hb)]
    rfl

/-- Steps after the first that give fixed values. -/
theorem bind_eq_map {ε α β γ δ : Type} {x : Except ε α} {y : Except ε β} {z : Except ε γ} {b : β}
    {c : γ} (f : α → β → γ → δ) (hy : y = .ok b) (hz : z = .ok c) :
    (do let a ← x; let b ← y; let c ← z; pure (f a b c)) = x.map fun a => f a b c := by
  rw [hy, hz]
  cases x <;> rfl

namespace Toml

open Text

/-- A value that stands on the line of its entry. -/
def OnLine : Value → Prop
  | .list _ | .map _ => False
  | _ => True

variable {entries : List (Value × Value)}

theorem sectionOf_onLine (h : ∀ e ∈ entries, OnLine e.2) (n : Nat) (name : String) :
    sectionOf (n + 1) name entries =
      (entries.mapM fun e => entryText e.1 e.2).map fun lines =>
        ⟨name, String.join lines ++ String.join (entries.map fun _ => ""), []⟩ := by
  rw [sectionOf]
  refine bind_eq_map
    (fun lines lists inner => Section.mk name (String.join lines ++ String.join lists) inner)
    (mapM_eq_ok_of_forall fun e he => ?_) (filterMapM_eq_nil fun e he => ?_)
  · obtain ⟨k, v⟩ := e
    have hv := h _ he
    cases v <;> first | rfl | exact hv.elim
  · obtain ⟨k, v⟩ := e
    have hv := h _ he
    cases v <;> first | rfl | exact hv.elim

end Toml

namespace Settings

/-- Settings as the command line gives them: texts, with or without a source. -/
structure Textual (st : Settings) (output : String) : Prop where
  output : st.output = .text output
  url : st.url = .null ∨ ∃ url, st.url = .text url

section

variable {st : Settings} {path text : String} {s : Session} {w : Workspace}

theorem save_apply (st : Settings) (path : String) (s : Session) :
    (st.save path : StateM Session _) s = match s.update (s.workspace.write path "") with
      | (.error fault, s') => (.error (.file fault), s')
      | (.ok (), s') => match st.text with
        | .error fault => (.error (.format fault), s')
        | .ok text => ((s'.update (s'.workspace.write path text)).1.mapError .file,
            (s'.update (s'.workspace.write path text)).2) := by
  have hwrite : (Host.write path "" : StateM Session _) s = s.update (s.workspace.write path "") :=
    rfl
  rw [save, Session.bind_apply, hwrite]
  rcases s.update (s.workspace.write path "") with ⟨fault | ⟨⟩, s'⟩
  · rfl
  · cases st.text <;> rfl

theorem uniform_save (st : Settings) (path : String) :
    Session.Uniform (st.save path : StateM Session (Except SettingsFault Unit)) := by
  refine Session.uniform_bind (Session.uniform_update fun w => w.write path "") fun made => ?_
  cases made with
  | error fault => exact Session.uniform_pure _
  | ok =>
    cases st.text with
    | error fault => exact Session.uniform_pure _
    | ok text =>
      exact Session.uniform_bind (Session.uniform_update fun w => w.write path text) fun _ =>
        Session.uniform_pure _

theorem save_of_refused {fault : FileFault} (h : s.workspace.write path "" = .error fault) :
    (st.save path : StateM Session _) s = (.error (.file fault), s) := by
  rw [save_apply, h]
  rfl

theorem save_of_no_text {fault : Toml.Fault} (htext : st.text = .error fault)
    (h : s.workspace.write path "" = .ok w) :
    (st.save path : StateM Session _) s = (.error (.format fault), { s with workspace := w }) := by
  rw [save_apply, h, htext]
  rfl

theorem save_of_text (htext : st.text = .ok text) (h : s.workspace.write path "" = .ok w) :
    ∃ w', w.write path text = .ok w' ∧
      (st.save path : StateM Session _) s = (.ok (), { s with workspace := w' }) := by
  obtain ⟨w', -, hsecond⟩ := Workspace.store_store h (.ok text)
  have hsecond : w.write path text = .ok w' := hsecond
  refine ⟨w', hsecond, ?_⟩
  rw [save_apply, h, htext]
  simp only [Session.update, hsecond]
  rfl

/-- The first writing decides about the file, for what has been written can be written again. -/
theorem fails_save (st : Settings) (path : String) (s : Session) :
    Fails ((st.save path : StateM Session _) s).1 ↔
      Fails (s.workspace.write path "") ∨ Fails st.text := by
  rcases hfirst : s.workspace.write path "" with fault | w
  · rw [save_of_refused hfirst]
    simp
  rcases htext : st.text with fault | text
  · rw [save_of_no_text htext hfirst]
    simp
  · obtain ⟨w', -, hsave⟩ := save_of_text htext hfirst
    rw [hsave]
    simp

end

end Settings

end TypedClient
