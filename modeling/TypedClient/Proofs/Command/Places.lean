import Mathlib.Data.List.TakeWhile
import TypedClient.Proofs.Command.Refusal
import TypedClient.Proofs.Command.Saving
import TypedClient.Client.ExampleFile

/-!
# Places of files

A name after a directory leads to the place of the directory and one name further
(`Workspace.locateNew_join`). So where a file has been written, another one in the same directory is
refused only if its name is too long, if a directory has it, or if the system refuses it for a
reason of its own (`Workspace.Opens.store`).
-/

namespace TypedClient

open Text

/-! ## A name after a directory -/

namespace Path

theorem endsWith_iff {s t : String} : s.endsWith t = true ↔ t.toList <:+ s.toList := by
  simp [← String.endsWith_toSlice, String.Slice.endsWith_string_iff]

/-- What stands before a name in a directory: nothing, or a text that ends in a slash. -/
def lead (directory : String) : List Char :=
  if directory.isEmpty || directory.endsWith "/" then directory.toList
  else directory.toList ++ ['/']

theorem toList_join (directory : String) {name : String} (h : '/' ∉ name.toList) :
    (join directory name).toList = lead directory ++ name.toList := by
  have hrelative : ¬ name.startsWith "/" = true := by
    rw [String.startsWith_string_iff]
    rintro ⟨rest, hrest⟩
    exact h (by rw [← hrest]; simp)
  unfold join lead
  rw [if_neg hrelative]
  split <;> simp

theorem join_empty (name : String) : join "" name = name := by
  unfold join
  split
  · rfl
  · simp

theorem lead_eq (directory : String) :
    lead directory = [] ∨ ∃ cs, lead directory = cs ++ ['/'] := by
  unfold lead
  split
  · rename_i h
    rw [Bool.or_eq_true] at h
    rcases h with h | h
    · left
      simpa using h
    · right
      obtain ⟨cs, hcs⟩ := endsWith_iff.1 h
      exact ⟨cs, hcs.symm⟩
  · exact .inr ⟨_, rfl⟩

/-- The names of a directory before a name in it. -/
def leadNames (directory : String) : List String :=
  if lead directory = [] then [] else (splitAt '/' (lead directory).dropLast).map String.ofList

theorem names_join (directory : String) {name : String} (h : '/' ∉ name.toList) :
    names (join directory name) = leadNames directory ++ [name] := by
  rw [names, toList_join directory h, leadNames]
  rcases lead_eq directory with hlead | ⟨cs, hlead⟩
  · simp [hlead, splitAt_of_notMem h]
  · rw [hlead, if_neg (by simp), List.dropLast_concat, List.append_assoc, List.singleton_append,
      splitAt_append, splitAt_of_notMem h, List.map_append]
    simp

theorem isAbsolute_join (directory : String) {name : String} (h : '/' ∉ name.toList) :
    isAbsolute (join directory name) = ((lead directory).head? == some '/') := by
  rw [Bool.eq_iff_iff, isAbsolute, String.startsWith_string_iff, toList_join directory h]
  rcases hlead : lead directory with _ | ⟨c, cs⟩
  · simp only [List.nil_append, List.head?_nil]
    refine iff_of_false ?_ (by simp)
    rintro ⟨rest, hrest⟩
    exact h (by rw [← hrest]; simp)
  · have hslash : "/".toList = ['/'] := rfl
    rw [hslash, List.cons_append, List.cons_prefix_cons, and_iff_left List.nil_prefix,
      List.head?_cons, beq_iff_eq, Option.some_inj, eq_comm]

/-- A path that continues a directory with a name ends like the name, so not in a slash. -/
theorem exists_toList_join (directory : String) {name : String} (h : '/' ∉ name.toList)
    (hname : name ≠ "") :
    ∃ front last, (join directory name).toList = front ++ [last] ∧ last ≠ '/' := by
  have hne : name.toList ≠ [] := by simpa using hname
  refine ⟨lead directory ++ name.toList.dropLast, name.toList.getLast hne, ?_, ?_⟩
  · rw [toList_join directory h, List.append_assoc, List.dropLast_concat_getLast]
  · exact fun hlast => h (hlast ▸ List.getLast_mem hne)

theorem not_endsWith_join (directory : String) {name : String} (h : '/' ∉ name.toList)
    (hname : name ≠ "") : ¬ (join directory name).endsWith "/" = true := by
  obtain ⟨front, last, hjoin, hlast⟩ := exists_toList_join directory h hname
  rw [endsWith_iff, hjoin]
  rintro ⟨rest, hrest⟩
  exact hlast (List.cons.inj (List.append_inj' hrest rfl).2).1.symm

theorem trimSlashes_of_not_endsWith {path : String} (h : ¬ path.endsWith "/" = true) :
    trimSlashes path.toList = path.toList := by
  unfold trimSlashes
  split
  · rfl
  rename_i hall
  rcases hrev : path.toList.reverse with _ | ⟨c, rest⟩
  · simp [List.reverse_eq_nil_iff.1 hrev] at hall
  · have hc : c ≠ '/' := by
      rintro rfl
      refine h (endsWith_iff.2 ⟨rest.reverse, ?_⟩)
      rw [← List.reverse_reverse path.toList, hrev, List.reverse_cons]
      rfl
    rw [List.dropWhile_cons_of_neg (by simpa using hc), ← hrev, List.reverse_reverse]

theorem trimSlashes_join (directory : String) {name : String} (h : '/' ∉ name.toList)
    (hname : name ≠ "") :
    trimSlashes (join directory name).toList = (join directory name).toList :=
  trimSlashes_of_not_endsWith (not_endsWith_join directory h hname)

end Path

namespace Workspace

variable {w w' : Workspace} {directory name text : String} {content : FileContent}
  {names : List String}

/-- Where a directory that names are put after starts. -/
def leadStart (directory : String) : Place :=
  if (Path.lead directory).head? == some '/' then .outside else .within []

theorem locateNew_join (w : Workspace) (h : '/' ∉ name.toList) (hname : name ≠ "")
    (hnull : '\x00' ∉ (Path.join directory name).toList) :
    w.locateNew (Path.join directory name) =
      w.walk (leadStart directory) (Path.leadNames directory) >>= fun p => w.step p name := by
  have hne : Path.join directory name ≠ "" := by
    obtain ⟨front, last, hjoin, -⟩ := Path.exists_toList_join directory h hname
    intro hempty
    simp [hempty] at hjoin
  rw [locateNew, Path.trimSlashes_join directory h hname, String.ofList_toList, locate,
    if_neg (by simpa using hnull), if_neg hne, Path.names_join directory h, walk,
    List.foldlM_append, startOf, Path.isAbsolute_join directory h]
  simp [walk, leadStart]

/-- A name that is no way to say where one is. -/
structure IsName (name : String) : Prop where
  nonempty : name ≠ ""
  here : name ≠ "."
  above : name ≠ ".."

/-- What a step leads to: the same place, the one above, or a name further. -/
theorem step_eq_ok {p q : Place} (h : w.step p name = .ok q) :
    w.entryAt? p = some .directory ∧ (q = p ∨ ∃ names, p = .within names ∧
      (q = .outside ∨ names ≠ [] ∧ q = .within names.dropLast ∨
        IsName name ∧ q = .within (names ++ [name]))) := by
  have hdirectory := entryAt?_of_step h
  refine ⟨hdirectory, ?_⟩
  unfold step at h
  rw [hdirectory] at h
  simp only at h
  split at h
  · cases h
    exact .inl rfl
  · rename_i hhere
    simp only [Bool.or_eq_true, decide_eq_true_eq, not_or] at hhere
    cases p with
    | outside => cases h
    | within names =>
      simp only at h
      refine .inr ⟨names, rfl, ?_⟩
      split at h
      · cases h
        rcases names with _ | ⟨a, names⟩
        · exact .inl rfl
        · exact .inr (.inl ⟨by simp, rfl⟩)
      · rename_i habove
        split at h
        · cases h
        · cases h
          exact .inr (.inr ⟨⟨hhere.1, hhere.2, habove⟩, rfl⟩)

/-- All directories on the way to a place are there. -/
def Rooted (w : Workspace) (p : Place) : Prop :=
  ∀ names, p = .within names → ∀ above, above <+: names → above ≠ names →
    w.entry? above = some .directory

theorem rooted_step {p q : Place} (hp : w.Rooted p) (h : w.step p name = .ok q) : w.Rooted q := by
  obtain ⟨hdirectory, rfl | ⟨names, rfl, rfl | ⟨-, rfl⟩ | ⟨-, rfl⟩⟩⟩ := step_eq_ok h
  · exact hp
  · nofun
  · rintro _ ⟨⟩ above habove hne
    refine hp names rfl above (habove.trans (List.dropLast_prefix names)) ?_
    rintro rfl
    exact hne (habove.eq_of_length_le (by simp))
  · rintro _ ⟨⟩ above habove hne
    rcases List.prefix_concat_iff.1 habove with rfl | habove
    · exact absurd rfl hne
    · by_cases heq : above = names
      · exact heq ▸ hdirectory
      · exact hp names rfl above habove heq

theorem rooted_walk : ∀ {names : List String} {p q : Place}, w.Rooted p →
    w.walk p names = .ok q → w.Rooted q
  | [], _, _, hp, h => Except.ok.inj h ▸ hp
  | name :: names, p, q, hp, h => by
    obtain ⟨p', hstep, hrest⟩ := exists_of_bind_eq_ok (show w.step p name >>= _ = _ from h)
    exact rooted_walk (rooted_step hp hstep) hrest

theorem rooted_leadStart (w : Workspace) (directory : String) : w.Rooted (leadStart directory) := by
  unfold leadStart
  split
  · nofun
  · rintro _ ⟨⟩ above habove hne
    exact absurd (List.prefix_nil.1 habove) hne

/-- A directory that names can be put after, with the names that lead to it. -/
structure Opens (w : Workspace) (directory : String) (above : List String) : Prop where
  walk : w.walk (leadStart directory) (Path.leadNames directory) = .ok (.within above)
  entry : w.entry? above = some .directory

theorem Opens.put {above : List String} {e : Entry} (h : w.Opens directory above)
    (hentry : w.entry? names ≠ some .directory) : (w.put names e).Opens directory above :=
  ⟨walk_congr (fun _ => entryAt?_put hentry) h.walk,
    entryAt?_put (p := .within above) hentry h.entry⟩

/-- A name leads from an open directory to an entry of it, unless the name is too long. -/
theorem Opens.locateNew {above : List String} (h : w.Opens directory above)
    (hslash : '/' ∉ name.toList) (hname : IsName name)
    (hnull : '\x00' ∉ (Path.join directory name).toList) :
    w.locateNew (Path.join directory name) =
      if nameLimit < name.utf8ByteSize then .error .nameTooLong
      else .ok (.within (above ++ [name])) := by
  rw [locateNew_join w hslash hname.nonempty hnull, h.walk]
  show w.step (.within above) name = _
  unfold step
  rw [show w.entryAt? (.within above) = some .directory from h.entry]
  simp [hname.nonempty, hname.here, hname.above]

/-- The working directory is open. -/
theorem opens_here (w : Workspace) : w.Opens "" [] := ⟨rfl, rfl⟩

/-- A name that is a path by itself. -/
structure IsEntryName (name : String) : Prop extends IsName name where
  slash : '/' ∉ name.toList
  null : '\x00' ∉ name.toList
  short : ¬ nameLimit < name.utf8ByteSize

instance (name : String) : Decidable (IsEntryName name) :=
  decidable_of_iff ((name ≠ "" ∧ name ≠ "." ∧ name ≠ "..") ∧
      '/' ∉ name.toList ∧ '\x00' ∉ name.toList ∧ ¬ nameLimit < name.utf8ByteSize)
    ⟨fun ⟨⟨hnonempty, hhere, habove⟩, hslash, hnull, hshort⟩ =>
        ⟨⟨hnonempty, hhere, habove⟩, hslash, hnull, hshort⟩,
      fun h => ⟨⟨h.nonempty, h.here, h.above⟩, h.slash, h.null, h.short⟩⟩

/-- A name alone is a path in the working directory. -/
theorem locateNew_name (h : IsEntryName name) : w.locateNew name = .ok (.within [name]) := by
  have hplace := (opens_here w).locateNew h.slash h.toIsName
    (by rw [Path.join_empty]; exact h.null)
  rwa [Path.join_empty, if_neg h.short] at hplace

theorem find_name (h : IsEntryName name) :
    w.find name = match w.entry? [name] with
      | some e => .ok e
      | none => .error .missing := by
  have hplace := locateNew_name (w := w) h
  have htrim := Path.trimSlashes_join "" h.slash h.nonempty
  rw [Path.join_empty] at htrim
  rw [Workspace.locateNew, htrim, String.ofList_toList] at hplace
  rw [find, hplace]
  rfl

theorem store_name (h : IsEntryName name) (hrefuses : w.refuses name = none)
    (content : FileContent) : w.store name content = match w.entry? [name] with
      | some .directory => .error ⟨.directory, name⟩
      | _ => .ok (w.put [name] (.file content)) := by
  have hend := Path.not_endsWith_join "" h.slash h.nonempty
  rw [Path.join_empty] at hend
  unfold Workspace.store make
  rw [locateNew_name h]
  rcases hentry : w.entry? [name] with _ | _ | _ <;> simp [hend, hrefuses, hentry]

/-- A file that has been written is found with its text. -/
theorem find_of_write {path : String} (h : w.write path text = .ok w') :
    w'.find path = .ok (.file (.ok text)) := by
  obtain ⟨names, hplace, hslash, hentry, -, rfl⟩ := store_eq_ok.1 h
  have hlocate := locateNew_congr (fun p => entryAt?_put (e := .file (.ok text)) hentry) hplace
  rw [locateNew, Path.trimSlashes_of_not_endsWith hslash, String.ofList_toList] at hlocate
  rw [find, hlocate]
  show (match entry? (w.put names (.file (.ok text))) names with
    | some e => .ok e
    | none => .error .missing : Except FileFault.Reason Entry) = _
  rw [entry?_put_self (ne_nil_of_ne_directory hentry)]

/-- Where a file gets a content under a name in a directory. -/
theorem exists_of_store_join (hslash : '/' ∉ name.toList)
    (h : w.store (Path.join directory name) content = .ok w') :
    ∃ above, w.Opens directory above ∧ '\x00' ∉ (Path.join directory name).toList ∧
      w.locateNew (Path.join directory name) = .ok (.within (above ++ [name])) ∧
      w.entry? (above ++ [name]) ≠ some .directory ∧
      w' = w.put (above ++ [name]) (.file content) := by
  obtain ⟨names, hplace, hend, hentry, -, rfl⟩ := store_eq_ok.1 h
  have hnull := notMem_of_locateNew hplace
  have hname : name ≠ "" := by
    rintro rfl
    have hjoin := Path.toList_join directory hslash
    rw [String.toList_empty, List.append_nil] at hjoin
    rcases Path.lead_eq directory with hlead | ⟨cs, hlead⟩
    · rw [String.toList_eq_nil_iff.1 (hjoin.trans hlead)] at hplace
      cases hplace
    · exact hend (Path.endsWith_iff.2 ⟨cs, (hjoin.trans hlead).symm⟩)
  obtain ⟨p, hwalk, hstep⟩ :=
    exists_of_bind_eq_ok ((locateNew_join w hslash hname hnull).symm.trans hplace)
  have hrooted := rooted_walk (rooted_leadStart w directory) hwalk
  obtain ⟨hdirectory, hcases⟩ := step_eq_ok hstep
  rcases hcases with rfl | ⟨above, rfl, hcase | ⟨hne, hcase⟩ | ⟨-, hcase⟩⟩
  · exact absurd hdirectory hentry
  · cases hcase
  · cases hcase
    refine absurd (hrooted above rfl _ (List.dropLast_prefix above) fun heq => hne ?_) hentry
    have hlength := congrArg List.length heq
    rw [List.length_dropLast] at hlength
    exact List.length_eq_zero_iff.1 (by omega)
  · cases hcase
    exact ⟨above, ⟨hwalk, hdirectory⟩, hnull, hplace, hentry, rfl⟩

/-- Why a name in an open directory is refused. -/
inductive Bars : FileFault.Reason → Prop
  | directory : Bars .directory
  | nameTooLong : Bars .nameTooLong
  | other (words : String) : Bars (.other words)

/-- In an open directory a file can be written, unless its name is barred. -/
theorem Opens.store {above : List String} (h : w.Opens directory above)
    (hslash : '/' ∉ name.toList) (hname : IsName name)
    (hnull : '\x00' ∉ (Path.join directory name).toList) (content : FileContent) :
    (w.locateNew (Path.join directory name) = .ok (.within (above ++ [name])) ∧
      w.entry? (above ++ [name]) ≠ some .directory ∧
      w.store (Path.join directory name) content =
        .ok (w.put (above ++ [name]) (.file content))) ∨
    ∃ reason, Bars reason ∧ w.store (Path.join directory name) content =
        .error ⟨reason, Path.join directory name⟩ := by
  have hplace := h.locateNew hslash hname hnull
  have hend := Path.not_endsWith_join directory hslash hname.nonempty
  by_cases hlong : nameLimit < name.utf8ByteSize
  · rw [if_pos hlong] at hplace
    refine .inr ⟨_, .nameTooLong, ?_⟩
    unfold Workspace.store
    rw [hplace]
  rw [if_neg hlong] at hplace
  by_cases hentry : w.entry? (above ++ [name]) = some .directory
  · refine .inr ⟨_, .directory, ?_⟩
    unfold Workspace.store
    rw [hplace]
    simp only [if_neg hend, hentry]
  rcases hrefuses : w.refuses (Path.join directory name) with _ | words
  · exact .inl ⟨hplace, hentry, store_eq_ok.2 ⟨_, hplace, hend, hentry, hrefuses, rfl⟩⟩
  · refine .inr ⟨_, .other words, ?_⟩
    unfold Workspace.store make
    rw [hplace]
    simp only [if_neg hend, hrefuses]

/-! ## The files of a workspace -/

/-- The content of the file under names. -/
def file? (w : Workspace) (names : List String) : Option FileContent :=
  match w.entry? names with
  | some (.file content) => some content
  | _ => none

/-- A workspace that has the directories of another one, perhaps more, and its files, but for some
that have given contents. -/
structure Updates (w w' : Workspace) (files : List (List String × FileContent)) : Prop where
  directories : ∀ p, w.entryAt? p = some .directory → w'.entryAt? p = some .directory
  files : ∀ names, w'.file? names = match files.lookup names with
    | some content => some content
    | none => w.file? names

theorem file?_put (hne : names ≠ []) (other : List String) :
    (w.put names (.file content)).file? other =
      if other = names then some content else w.file? other := by
  unfold file?
  by_cases heq : other = names
  · rw [heq, entry?_put_self hne, if_pos rfl]
  · rw [entry?_put_of_ne heq, if_neg heq]

namespace Updates

variable {files : List (List String × FileContent)} {w₁ w₂ : Workspace}

theorem refl (w : Workspace) : w.Updates w [] := ⟨fun _ h => h, fun _ => rfl⟩

/-- Files are given after steps that gave none. -/
theorem after (h₁ : w.Updates w₁ []) (h₂ : w₁.Updates w₂ files) : w.Updates w₂ files where
  directories p hp := h₂.directories p (h₁.directories p hp)
  files names := by
    rw [h₂.files names, h₁.files names]
    rfl

theorem of_put (hne : names ≠ []) (hentry : w.entry? names ≠ some .directory)
    (hnew : files.lookup names = none)
    (h : (w.put names (.file content)).Updates w' files) :
    w.Updates w' ((names, content) :: files) where
  directories p hp := h.directories p (entryAt?_put hentry hp)
  files other := by
    rw [h.files other, file?_put hne, List.lookup_cons]
    by_cases heq : other = names
    · simp [heq, hnew]
    · have hother : (other == names) = false := by simpa using heq
      rw [if_neg heq, hother]

theorem locateNew {path : String} {p : Place} (h : w.Updates w' files)
    (hplace : w.locateNew path = .ok p) : w'.locateNew path = .ok p :=
  locateNew_congr h.directories hplace

end Updates

/-- Making a directory changes no file. -/
theorem updates_makeDirectory {path : String} (h : w.makeDirectory path = .ok w') :
    w.Updates w' [] := by
  unfold makeDirectory at h
  split at h
  · cases h
  · split at h
    · rename_i names _ hnone
      obtain ⟨-, rfl⟩ := make_eq_ok.1 h
      have hentry : w.entry? names = none := hnone
      have hne : names ≠ [] := by
        rintro rfl
        cases hentry
      refine ⟨fun p => entryAt?_put (by rw [hentry]; simp), fun other => ?_⟩
      show file? _ other = w.file? other
      unfold file?
      by_cases heq : other = names
      · rw [heq, entry?_put_self hne, hentry]
      · rw [entry?_put_of_ne heq]
    · cases h

end Workspace

end TypedClient
