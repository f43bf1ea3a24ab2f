import TypedClient.Proofs.Endpoints.Rearranged
import TypedClient.Proofs.Script.Comment

/-!
# Names of methods and of the class

The name of a method is in lower snake case (`Name.isSnake_method`), and a text that is in it is its
own name, so naming is a retraction onto these texts (`Name.method_eq_self_iff`). Every endpoint has
an identifier to make a name from, so no method is nameless. The name of the class is an identifier
that begins with a capital or an underscore, whatever the title is.
-/

namespace TypedClient

namespace Name

open DocComment

/-! ## Texts of a form -/

/-- Small letters, digits and the underscore. -/
def isSnakeChar (c : Char) : Bool :=
  c.isLower || c.isDigit || c = '_'

/-- Texts over `[a-z0-9_]` that do not begin with a digit. -/
structure IsSnake (s : String) : Prop where
  chars : ∀ c ∈ s.toList, isSnakeChar c = true
  head : ∀ c ∈ s.toList.head?, c.isDigit = false

/-- A character of one class and then characters of another. -/
def isWord (first rest : Char → Bool) (s : String) : Bool :=
  match s.toList with
  | [] => false
  | c :: cs => first c && cs.all rest

/-- Texts of the form `[a-z_][a-z0-9_]*`. -/
def isMethodName (s : String) : Bool :=
  isWord (fun c => c.isLower || c = '_') isSnakeChar s

/-- Texts of the form `[A-Z_][A-Za-z0-9_]*`. -/
def isClassName (s : String) : Bool :=
  isWord (fun c => c.isUpper || c = '_') (fun c => isWordChar c || c = '_') s

variable {s : String} {c : Char} {cs : List Char}

theorem isWord_of_toList {first rest : Char → Bool} (h : s.toList = c :: cs) :
    isWord first rest s = (first c && cs.all rest) := by
  rw [isWord, h]

/-- A text in lower snake case is a name unless it is empty. -/
theorem IsSnake.isMethodName (h : IsSnake s) (hne : s ≠ "") : isMethodName s = true := by
  obtain ⟨c, cs, hs⟩ := List.exists_cons_of_ne_nil fun hnil => hne (String.toList_eq_nil_iff.1 hnil)
  have hchars := h.chars
  have hhead := h.head c (by rw [hs]; rfl)
  rw [hs] at hchars
  have hc := hchars c List.mem_cons_self
  have hcs : cs.all isSnakeChar = true :=
    List.all_eq_true.2 fun d hd => hchars d (List.mem_cons_of_mem c hd)
  rw [Name.isMethodName, isWord_of_toList hs, hcs, Bool.and_true]
  simpa [isSnakeChar, hhead] using hc

/-! ## Names of methods -/

theorem isSnakeChar_toLower (h : isWordChar c = true ∨ c = '_') : isSnakeChar c.toLower = true := by
  rcases h with h | rfl
  · exact of_isWordChar (P := fun c => isSnakeChar c.toLower = true) (by decide) h
  · rfl

theorem toLower_eq_self (h : c.isUpper = false) : c.toLower = c := by
  have hupper : c.isUpper = decide ('A'.val ≤ c.val ∧ c.val ≤ 'Z'.val) := rfl
  rw [hupper, decide_eq_false_iff_not] at h
  exact dif_neg h

theorem isDigit_toLower (h : c.isDigit = false) : c.toLower.isDigit = false := by
  by_cases hupper : c.isUpper = true
  · have hword : isWordChar c = true := by simp [isWordChar, isAlpha_eq, hupper]
    exact of_isWordChar (P := fun c => c.isUpper = true → c.toLower.isDigit = false) (by decide)
      hword hupper
  · rwa [toLower_eq_self (Bool.eq_false_iff.2 hupper)]

theorem head?_separateWords (cs : List Char) : (separateWords cs).head? = cs.head? := by
  unfold separateWords
  split
  · split <;> rfl
  · rfl

theorem isDigit_of_mem_head?_guardDigit (h : c ∈ (guardDigit cs).head?) : c.isDigit = false := by
  unfold guardDigit at h
  split at h
  · cases h
  · split at h
    · cases h
      rfl
    · rename_i hdigit
      cases h
      simpa using hdigit

theorem isSnake_method (s : String) : IsSnake (method s) where
  chars c hc := by
    obtain ⟨d, hd, rfl⟩ := exists_of_mem_method hc
    exact isSnakeChar_toLower hd
  head c hc := by
    rw [method, String.toList_ofList, List.head?_map, head?_separateWords] at hc
    obtain ⟨d, hd, rfl⟩ := Option.map_eq_some_iff.1 hc
    exact isDigit_toLower (isDigit_of_mem_head?_guardDigit hd)

theorem isWordChar_or_of_isSnakeChar (h : isSnakeChar c = true) :
    isWordChar c = true ∨ c = '_' := by
  rw [isSnakeChar, Bool.or_eq_true, Bool.or_eq_true, decide_eq_true_eq] at h
  rcases h with (h | h) | h
  · exact .inl (by simp [isWordChar, isAlpha_eq, h])
  · exact .inl (by simp [isWordChar, h])
  · exact .inr h

theorem isUpper_of_isSnakeChar (h : isSnakeChar c = true) : c.isUpper = false := by
  rcases isWordChar_or_of_isSnakeChar h with hword | rfl
  · exact of_isWordChar (P := fun c => isSnakeChar c = true → c.isUpper = false) (by decide)
      hword h
  · rfl

theorem guardDigit_eq_self (h : ∀ c ∈ cs.head?, c.isDigit = false) : guardDigit cs = cs := by
  cases cs with
  | nil => rfl
  | cons c cs => simp [guardDigit, h c rfl]

/-- Without capitals there are no words to separate. -/
theorem separateWords_eq_self (h : ∀ c ∈ cs, c.isUpper = false) : separateWords cs = cs := by
  fun_induction separateWords cs with
  | case1 a b rest hcut _ => simp [h b (by simp)] at hcut
  | case2 a b rest _ ih => rw [ih fun c hc => h c (List.mem_cons_of_mem a hc)]
  | case3 => rfl

theorem IsSnake.method_eq_self (h : IsSnake s) : method s = s := by
  have hupper : ∀ c ∈ s.toList, c.isUpper = false :=
    fun c hc => isUpper_of_isSnakeChar (h.chars c hc)
  have hwords : (s.toList.map fun c => if isWordChar c then c else '_') = s.toList := by
    refine (List.map_congr_left fun c hc => ?_).trans s.toList.map_id
    rcases isWordChar_or_of_isSnakeChar (h.chars c hc) with hword | rfl
    · exact if_pos hword
    · rfl
  have hlower : s.toList.map Char.toLower = s.toList := by
    refine (List.map_congr_left fun c hc => ?_).trans s.toList.map_id
    exact toLower_eq_self (hupper c hc)
  rw [method, hwords, guardDigit_eq_self h.head, separateWords_eq_self hupper, hlower,
    String.ofList_toList]

/-- The names of methods are the texts in lower snake case. -/
theorem method_eq_self_iff : method s = s ↔ IsSnake s :=
  ⟨fun h => h ▸ isSnake_method s, IsSnake.method_eq_self⟩

theorem guardDigit_ne_nil (h : cs ≠ []) : guardDigit cs ≠ [] := by
  cases cs with
  | nil => exact absurd rfl h
  | cons c cs =>
    rw [guardDigit]
    split <;> simp

theorem method_ne_empty (h : s ≠ "") : method s ≠ "" := by
  intro hempty
  have hnil := String.toList_eq_nil_iff.2 hempty
  rw [method, String.toList_ofList, List.map_eq_nil_iff, ← List.head?_eq_none_iff,
    head?_separateWords, List.head?_eq_none_iff] at hnil
  refine guardDigit_ne_nil (fun hwords => h ?_) hnil
  exact String.toList_eq_nil_iff.1 (List.map_eq_nil_iff.1 hwords)

/-! ## The name of the class -/

theorem isUpper_or_isDigit_of_titleWords {title : String} (h : c ∈ (titleWords title).head?) :
    c.isUpper = true ∨ c.isDigit = true := by
  unfold titleWords at h
  split at h
  · cases h
  · rename_i first rest hwords
    cases h
    have hfirst : first ∈ title.toList.filter isWordChar := hwords ▸ List.mem_cons_self
    have hword := (List.mem_filter.1 hfirst).2
    exact of_isWordChar (P := fun c => c.toUpper.isUpper = true ∨ c.toUpper.isDigit = true)
      (by decide) hword

/-- The name of the class begins with a capital, or with an underscore in front of a digit. -/
theorem isClassName_clientClass (title : String) :
    isClassName (clientClass title classEnding) = true := by
  have hwords : (titleWords title).all (fun c => isWordChar c || c = '_') = true := by
    refine List.all_eq_true.2 fun c hc => ?_
    rw [isWordChar_of_mem_titleWords hc, Bool.true_or]
  cases htitle : titleWords title with
  | nil =>
    rw [clientClass, htitle]
    decide
  | cons c rest =>
    rw [htitle] at hwords
    have hall : (c :: rest ++ classEnding.toList).all
        (fun c => isWordChar c || c = '_') = true := by
      rw [List.all_append, hwords]
      decide
    rw [isClassName, clientClass, htitle]
    by_cases hdigit : c.isDigit = true
    · have htext : (String.ofList (guardDigit (c :: rest)) ++ classEnding).toList =
          '_' :: (c :: rest ++ classEnding.toList) := by
        simp [guardDigit, hdigit]
      rw [isWord_of_toList htext, hall]
      decide
    · have htext : (String.ofList (guardDigit (c :: rest)) ++ classEnding).toList =
          c :: (rest ++ classEnding.toList) := by
        simp [guardDigit, hdigit]
      have hfirst : c ∈ (titleWords title).head? := by
        rw [htitle]
        rfl
      have hupper := (isUpper_or_isDigit_of_titleWords hfirst).resolve_right hdigit
      rw [List.cons_append, List.all_cons, Bool.and_eq_true] at hall
      rw [isWord_of_toList htext, hall.2, hupper]
      rfl

end Name

/-- Naming methods is a retraction of all texts onto those in lower snake case. Every endpoint of a
description has an identifier to make a name from, and every title gives the class a name. -/
theorem method_retracts_onto_snake :
    (∀ s : String, Name.IsSnake (Name.method s)) ∧
    (∀ s : String, Name.IsSnake s → Name.method s = s) ∧
    (∀ s : String, Name.method (Name.method s) = Name.method s) ∧
    (∀ (doc : Document) (found : Reported Endpoint), doc.endpoints = .ok found →
      ∀ e ∈ found.items, e.operationId ≠ "" ∧
        Name.isMethodName (Name.method e.operationId) = true) ∧
    ∀ title : String, Name.isClassName (Name.clientClass title Name.classEnding) = true := by
  refine ⟨Name.isSnake_method, fun _ h => h.method_eq_self,
    fun s => (Name.isSnake_method s).method_eq_self, ?_, Name.isClassName_clientClass⟩
  intro doc found hfound e he
  obtain ⟨_, _, hshows⟩ := exists_mem_of_forall₂ (Document.shows_of_endpoints hfound) he
  have hid := hshows.operationId
  exact ⟨hid, (Name.isSnake_method e.operationId).isMethodName (Name.method_ne_empty hid)⟩

/-- A path with an identifier that needs all three rewritings, one that is empty and none. -/
def doorsDocument : Document where
  format := "3.0.0"
  info := ⟨"3 Doors", "1", none⟩
  servers := []
  paths := [("/doors/{id}", [
    ("get", .map []),
    ("put", .map [(.text "operationId", .text "2.aBÜ")]),
    ("delete", .map [(.text "operationId", .text "")])])]
  components := none

/-- The identifiers of these operations, the names of their methods, and the name of the class. -/
theorem method_retracts_onto_snake_doors :
    (∃ found, doorsDocument.endpoints = .ok found ∧
      found.items.map Endpoint.operationId = ["getDoorsId", "2.aBÜ", "deleteDoorsId"] ∧
      ∀ e ∈ found.items, Name.isMethodName (Name.method e.operationId) = true) ∧
    Name.method "2.aBÜ" = "_2_a_b_" ∧
    Name.method "_2_a_b_" = "_2_a_b_" ∧
    Name.clientClass doorsDocument.info.title Name.classEnding = "_3DoorsClient" ∧
    Name.isClassName (Name.clientClass doorsDocument.info.title Name.classEnding) = true := by
  obtain ⟨-, hfixed, -, hmethods, hclass⟩ := method_retracts_onto_snake
  have hshown : doorsDocument.endpoints.map (fun found : Reported Endpoint =>
      found.items.map Endpoint.operationId) =
        .ok ["getDoorsId", "2.aBÜ", "deleteDoorsId"] := rfl
  obtain ⟨found, hfound, hids⟩ := exists_of_map_eq_ok hshown
  have hsnake : Name.IsSnake "_2_a_b_" := ⟨List.all_eq_true.1 (by decide), by simp⟩
  refine ⟨⟨found, hfound, hids, fun e he => ?_⟩, by decide, hfixed _ hsnake, by decide, hclass _⟩
  exact (hmethods doorsDocument found hfound e he).2

end TypedClient
