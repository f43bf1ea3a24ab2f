import Mathlib.Data.List.Basic
import TypedClient.Project

/-!
# Projects that are put together step by step

A project grows by files and by blocks for the files that it has. What its file at a position is
made of can be told from the steps alone: it is the file that was added as that one of the files,
with the later blocks for the position (`getElem?_files_run`). Its text has these blocks by
ascending order, and those of one order as they were added; there is only one such arrangement
(`CodeFile.arranges_iff`), and one more block goes behind all blocks of its order or less
(`CodeFile.inserts_add`).
-/

namespace TypedClient

/-! ## Arranged blocks -/

namespace CodeFile

variable {b : CodeBlock} {blocks xs ys : List CodeBlock} {f : CodeFile}

/-- The blocks of a file by ascending order, those of one order as they were added. -/
structure Arranges (blocks arranged : List CodeBlock) : Prop where
  ascending : arranged.Pairwise fun x y => x.order ≤ y.order
  stable : ∀ order, (arranged.filter fun x => x.order = order) =
    blocks.filter fun x => x.order = order

theorem Arranges.mem_iff (h : Arranges blocks xs) : b ∈ xs ↔ b ∈ blocks := by
  have hsame : b ∈ (xs.filter fun x => x.order = b.order) ↔
      b ∈ blocks.filter fun x => x.order = b.order := by rw [h.stable]
  simpa using hsame

/-- The first block of an arrangement is the first of the least order. -/
theorem Arranges.unique (hx : Arranges blocks xs) (hy : Arranges blocks ys) : xs = ys := by
  induction xs generalizing blocks ys with
  | nil =>
    refine (List.eq_nil_iff_forall_not_mem.2 fun y hmem => ?_).symm
    exact List.not_mem_nil (hx.mem_iff.2 (hy.mem_iff.1 hmem))
  | cons x xs ih =>
    have hmem : x ∈ ys := hy.mem_iff.2 (hx.mem_iff.1 List.mem_cons_self)
    rcases ys with _ | ⟨y, ys⟩
    · cases hmem
    have hmem' : y ∈ x :: xs := hx.mem_iff.2 (hy.mem_iff.1 List.mem_cons_self)
    obtain ⟨hxle, hxs⟩ := List.pairwise_cons.1 hx.ascending
    obtain ⟨hyle, hys⟩ := List.pairwise_cons.1 hy.ascending
    have horder : x.order = y.order := by
      have hle : x.order ≤ y.order := by
        rcases List.mem_cons.1 hmem' with rfl | h
        · exact Int.le_refl _
        · exact hxle y h
      have hge : y.order ≤ x.order := by
        rcases List.mem_cons.1 hmem with rfl | h
        · exact Int.le_refl _
        · exact hyle x h
      omega
    have hsame (order : Int) : ((x :: xs).filter fun z => z.order = order) =
        (y :: ys).filter fun z => z.order = order := (hx.stable order).trans (hy.stable order).symm
    have hhead : x = y := by
      have hfirst := hsame x.order
      rw [List.filter_cons_of_pos (by simp), List.filter_cons_of_pos (by simp [horder])] at hfirst
      exact (List.cons.inj hfirst).1
    subst hhead
    have htail : Arranges ys xs := by
      refine ⟨hxs, fun order => ?_⟩
      have hrest := hsame order
      by_cases h : x.order = order
      · rw [List.filter_cons_of_pos (by simpa), List.filter_cons_of_pos (by simpa)] at hrest
        exact (List.cons.inj hrest).2
      · rwa [List.filter_cons_of_neg (by simpa), List.filter_cons_of_neg (by simpa)] at hrest
    rw [ih htail ⟨hys, fun _ => rfl⟩]

/-- A block stands behind all blocks of its order or less and in front of the others. -/
theorem exists_insert (b : CodeBlock) (h : xs.Pairwise fun x y => x.order ≤ y.order) :
    ∃ before after, xs = before ++ after ∧ insert b xs = before ++ b :: after ∧
      (∀ x ∈ before, x.order ≤ b.order) ∧ ∀ x ∈ after, b.order < x.order := by
  induction xs with
  | nil => exact ⟨[], [], rfl, rfl, by simp, by simp⟩
  | cons x xs ih =>
    obtain ⟨hx, hxs⟩ := List.pairwise_cons.1 h
    rw [insert]
    split
    · rename_i hle
      obtain ⟨before, after, rfl, hinsert, hbefore, hafter⟩ := ih hxs
      exact ⟨x :: before, after, rfl, by rw [hinsert]; rfl,
        List.forall_mem_cons.2 ⟨hle, hbefore⟩, hafter⟩
    · rename_i hlt
      have hlt : b.order < x.order := by omega
      refine ⟨[], x :: xs, rfl, rfl, by simp, List.forall_mem_cons.2 ⟨hlt, fun y hy => ?_⟩⟩
      have := hx y hy
      omega

theorem Arranges.insert (h : Arranges blocks xs) (b : CodeBlock) :
    Arranges (blocks ++ [b]) (insert b xs) := by
  obtain ⟨before, after, rfl, hinsert, hbefore, hafter⟩ := exists_insert b h.ascending
  rw [hinsert]
  obtain ⟨hfront, hback, hcross⟩ := List.pairwise_append.1 h.ascending
  refine ⟨List.pairwise_append.2 ⟨hfront, List.pairwise_cons.2 ⟨fun y hy => ?_, hback⟩, ?_⟩, ?_⟩
  · exact Int.le_of_lt (hafter y hy)
  · intro x hx y hy
    rcases List.mem_cons.1 hy with rfl | hy
    · exact hbefore x hx
    · exact hcross x hx y hy
  · intro order
    have hstable := h.stable order
    rw [List.filter_append] at hstable
    rw [List.filter_append, List.filter_append, ← hstable, List.append_assoc]
    refine congrArg _ ?_
    by_cases heq : b.order = order
    -- behind the new block there is none of its order
    · have hnone : (after.filter fun x => x.order = order) = [] := by
        refine List.filter_eq_nil_iff.2 fun x hx => ?_
        have := hafter x hx
        simp only [decide_eq_true_eq]
        omega
      simp [heq, hnone]
    · simp [heq]

theorem arranged_add (f : CodeFile) (b : CodeBlock) :
    (f.add b).arranged = insert b f.arranged := by
  rw [arranged, add, List.foldl_append]
  rfl

theorem Arranges.foldl (h : Arranges blocks xs) (more : List CodeBlock) :
    Arranges (blocks ++ more) (more.foldl (fun sorted b => CodeFile.insert b sorted) xs) := by
  induction more generalizing blocks xs with
  | nil => rwa [List.append_nil]
  | cons b more ih =>
    have hmore := ih (h.insert b)
    rwa [List.append_assoc] at hmore

theorem arranges_arranged (f : CodeFile) : Arranges f.blocks f.arranged :=
  Arranges.foldl ⟨.nil, fun _ => rfl⟩ f.blocks

/-- The arrangement of a file is the only one of its blocks. -/
theorem arranges_iff : Arranges f.blocks xs ↔ xs = f.arranged := by
  constructor
  · exact fun h => h.unique f.arranges_arranged
  · rintro rfl
    exact f.arranges_arranged

/-- A file that has got a block: the text of the block stands behind those of all blocks of its
order or less and in front of the others, which are arranged as before. -/
def Inserts (f : CodeFile) (b : CodeBlock) (g : CodeFile) : Prop :=
  ∃ before after, Arranges f.blocks (before ++ after) ∧ Arranges g.blocks (before ++ b :: after) ∧
    (∀ x ∈ before, x.order ≤ b.order) ∧ (∀ x ∈ after, b.order < x.order) ∧
    f.text = String.join (before.map CodeBlock.text) ++ String.join (after.map CodeBlock.text) ∧
    g.text = String.join (before.map CodeBlock.text) ++ b.text ++
      String.join (after.map CodeBlock.text)

theorem inserts_add (f : CodeFile) (b : CodeBlock) : f.Inserts b (f.add b) := by
  obtain ⟨before, after, hf, hadd, hbefore, hafter⟩ :=
    exists_insert b f.arranges_arranged.ascending
  rw [← arranged_add] at hadd
  refine ⟨before, after, hf ▸ f.arranges_arranged, hadd ▸ (f.add b).arranges_arranged, hbefore,
    hafter, ?_, ?_⟩
  · rw [text, hf, List.map_append, String.join_append]
  · rw [text, hadd, List.map_append, List.map_cons, String.join_append, String.join_cons,
      String.append_assoc]

end CodeFile

/-! ## Steps -/

namespace Project

/-- A step that a project is put together by. -/
inductive Step where
  /-- A file is added. -/
  | file (f : CodeFile)
  /-- A block is added to the file at a position. -/
  | block (position : Nat) (b : CodeBlock)

/-- The project after a step. Where there is no file, no block can be added to it. -/
def step (p : Project) : Step → Project
  | .file f => p.addFile f
  | .block position b => (p.addBlock? position b).getD p

def run (p : Project) (steps : List Step) : Project :=
  steps.foldl step p

/-- The files that steps add, as they are added. -/
def addedFiles : List Step → List CodeFile
  | [] => []
  | .file f :: steps => f :: addedFiles steps
  | .block _ _ :: steps => addedFiles steps

/-- The blocks that steps add to the file at a position, in order, given the number of files before
the steps. A block that comes before its file is lost. -/
def addedBlocks (position : Nat) : Nat → List Step → List CodeBlock
  | _, [] => []
  | count, .file _ :: steps => addedBlocks position (count + 1) steps
  | count, .block target b :: steps =>
    (if target = position ∧ position < count then [b] else []) ++
      addedBlocks position count steps

/-- The files that steps put together, told from the steps alone. -/
def assembled (steps : List Step) : List CodeFile :=
  (addedFiles steps).mapIdx fun k f => { f with blocks := f.blocks ++ addedBlocks k 0 steps }

variable {p : Project} {f : CodeFile} {b : CodeBlock} {position : Nat}

theorem addBlock?_eq_none (h : p.files[position]? = none) : p.addBlock? position b = none := by
  rw [addBlock?, if_neg (by simpa using h)]

theorem addBlock?_eq_some (h : p.files[position]? = some f) : p.addBlock? position b =
    some { p with files := p.files.modify position (·.add b) } := by
  obtain ⟨hlt, -⟩ := List.getElem?_eq_some_iff.1 h
  rw [addBlock?, if_pos hlt]

theorem getElem?_step_block (p : Project) (position : Nat) (b : CodeBlock) (k : Nat) :
    (p.step (.block position b)).files[k]? =
      if position = k then p.files[k]?.map (·.add b) else p.files[k]? := by
  rw [step]
  rcases h : p.files[position]? with _ | f
  · rw [addBlock?_eq_none h, Option.getD_none]
    split
    · rename_i heq
      rw [← heq, h]
      rfl
    · rfl
  · rw [addBlock?_eq_some h, Option.getD_some, List.getElem?_modify]
    split <;> simp

theorem length_step_block (p : Project) (position : Nat) (b : CodeBlock) :
    (p.step (.block position b)).files.length = p.files.length := by
  rw [step, addBlock?]
  split <;> simp

theorem names_step_block (p : Project) (position : Nat) (b : CodeBlock) :
    (p.step (.block position b)).files.map CodeFile.name = p.files.map CodeFile.name := by
  refine List.ext_getElem? fun k => ?_
  rw [List.getElem?_map, List.getElem?_map, getElem?_step_block]
  split
  · rw [Option.map_map]
    rfl
  · rfl

/-- What the files of a project become by steps. -/
theorem getElem?_files_run (k : Nat) : ∀ (steps : List Step) (p : Project),
    (p.run steps).files[k]? = (p.files ++ addedFiles steps)[k]?.map fun f =>
      { f with blocks := f.blocks ++ addedBlocks k p.files.length steps }
  | [], p => by simp [run, addedFiles, addedBlocks]
  | .file f :: steps, p => by
    have ih := getElem?_files_run k steps (p.addFile f)
    rw [addFile, List.length_append, List.length_singleton, List.append_assoc] at ih
    exact ih
  | .block position b :: steps, p => by
    have ih := getElem?_files_run k steps (p.step (.block position b))
    rw [length_step_block] at ih
    refine ih.trans ?_
    rw [addedFiles, addedBlocks, List.getElem?_append, List.getElem?_append, length_step_block]
    by_cases hk : k < p.files.length
    · rw [if_pos hk, if_pos hk, getElem?_step_block]
      by_cases hposition : position = k
      · simp [hposition, hk, CodeFile.add]
      · simp [hposition]
    · simp [hk]

theorem files_run_empty (name : String) (steps : List Step) :
    ((empty name).run steps).files = assembled steps := by
  refine List.ext_getElem? fun k => ?_
  rw [getElem?_files_run, assembled, List.getElem?_mapIdx]
  rfl

theorem names_run (p : Project) (steps : List Step) : (p.run steps).files.map CodeFile.name =
    (p.files ++ addedFiles steps).map CodeFile.name := by
  refine List.ext_getElem? fun k => ?_
  rw [List.getElem?_map, List.getElem?_map, getElem?_files_run, Option.map_map]
  rfl

/-- The file that is found under a name is the first of this name. -/
theorem find?_eq (p : Project) (name : String) :
    p.find? name = p.files[(p.files.map CodeFile.name).idxOf name]? := by
  rw [find?]
  induction p.files with
  | nil => rfl
  | cons f files ih =>
    by_cases h : f.name = name
    · simp [h]
    · simp [h, ih, List.idxOf_cons_ne]

/-- A project that steps put together, be there steps without effect or not. The file at a position
is the one that was added as that one with the blocks that were added to it later. Its text has
these blocks in their only arrangement. One more block changes the file that it goes to, in one
place, and nothing else. Under a name the earliest file of this name is found. -/
theorem run_assembles (name : String) (steps : List Step) :
    let p := (empty name).run steps
    let names := (addedFiles steps).map CodeFile.name
    p.files = assembled steps ∧
    (∀ f ∈ p.files, ∃ arranged, (∀ blocks, CodeFile.Arranges f.blocks blocks ↔ blocks = arranged) ∧
      f.text = String.join (arranged.map CodeBlock.text)) ∧
    (∀ position b, p.files[position]? = none → p.addBlock? position b = none) ∧
    (∀ position b f, p.files[position]? = some f → ∃ q, p.addBlock? position b = some q ∧
      q.files[position]? = some (f.add b) ∧ f.Inserts b (f.add b) ∧
      (∀ k, k ≠ position → q.files[k]? = p.files[k]?) ∧ q.files.map CodeFile.name = names) ∧
    p.files.map CodeFile.name = names ∧
    ∀ n, p.find? n = p.files[names.idxOf n]? := by
  intro p names
  have hnames : p.files.map CodeFile.name = names := names_run (empty name) steps
  refine ⟨files_run_empty name steps, fun f _ => ?_,
    fun position b => addBlock?_eq_none, fun position b f hf => ?_, hnames, fun n => ?_⟩
  · exact ⟨f.arranged, fun blocks => CodeFile.arranges_iff, rfl⟩
  · have hadd := addBlock?_eq_some (b := b) hf
    have hstep : p.addBlock? position b = some (p.step (.block position b)) := by
      rw [step, hadd, Option.getD_some]
    refine ⟨_, hstep, ?_, f.inserts_add b, fun k hk => ?_, ?_⟩
    · rw [getElem?_step_block, if_pos rfl, hf]
      rfl
    · rw [getElem?_step_block, if_neg (Ne.symm hk)]
    · rw [names_step_block, hnames]
  · rw [find?_eq, hnames]

/-- Two files of one name, blocks of one order and of a negative one, and a block that comes before
its file. -/
def repeatedSteps : List Step := [
  .file ⟨"a.ts", []⟩,
  .block 0 ⟨2, "second\n"⟩,
  .block 1 ⟨0, "lost\n"⟩,
  .file ⟨"a.ts", []⟩,
  .block 0 ⟨1, "first\n"⟩,
  .block 1 ⟨0, "other\n"⟩,
  .block 0 ⟨1, "next\n"⟩,
  .block 0 ⟨-5, "\tnone\n"⟩]

/-- The first file is found, its blocks are arranged, and a block more goes between two of them. -/
theorem run_assembles_repeatedSteps :
    let p := (empty "Client").run repeatedSteps
    (∃ f, p.find? "a.ts" = some f ∧ p.files[0]? = some f ∧
      f.text = "  none\nfirst\nnext\nsecond\n") ∧
    p.files.map CodeFile.text = ["  none\nfirst\nnext\nsecond\n", "other\n"] ∧
    p.addBlock? 2 ⟨0, "lost\n"⟩ = none ∧
    ∃ q, p.addBlock? 0 ⟨1, "last\n"⟩ = some q ∧ q.files[1]? = p.files[1]? ∧
      q.files.map CodeFile.text = ["  none\nfirst\nnext\nlast\nsecond\n", "other\n"] := by
  intro p
  obtain ⟨hfiles, htext, hnone, hadd, -, hfind⟩ := run_assembles "Client" repeatedSteps
  let first : CodeFile :=
    ⟨"a.ts", [⟨2, "second\n"⟩, ⟨1, "first\n"⟩, ⟨1, "next\n"⟩, ⟨-5, "\tnone\n"⟩]⟩
  let other : CodeFile := ⟨"a.ts", [⟨0, "other\n"⟩]⟩
  have hall : p.files = [first, other] := hfiles
  have hfirst : p.files[0]? = some first := by rw [hall]; rfl
  have hmem : first ∈ p.files := by rw [hall]; exact List.mem_cons_self
  have hfirst_text : first.text = "  none\nfirst\nnext\nsecond\n" := by
    obtain ⟨arranged, harranged, heq⟩ := htext first hmem
    rw [heq, ← (harranged _).1 first.arranges_arranged]
    decide
  have hother_text : other.text = "other\n" := by decide
  obtain ⟨q, hq, hchanged, -, hrest, -⟩ := hadd 0 ⟨1, "last\n"⟩ first hfirst
  have hother : q.files[1]? = p.files[1]? := hrest 1 (by decide)
  refine ⟨⟨first, (hfind "a.ts").trans hfirst, hfirst, hfirst_text⟩, ?_,
    hnone 2 _ (by rw [hall]; rfl), q, hq, hother, ?_⟩
  · rw [hall, List.map_cons, List.map_cons, hfirst_text, hother_text]
    rfl
  · have hq_files : q.files = [first.add ⟨1, "last\n"⟩, other] := by
      refine List.ext_getElem? fun k => ?_
      rcases k with _ | k
      · rw [hchanged]
        rfl
      · rw [hrest (k + 1) (by omega), hall]
        rfl
    rw [hq_files]
    decide

end Project

end TypedClient
