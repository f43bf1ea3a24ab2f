import TypedClient.Proofs.Identifiers
import TypedClient.Proofs.RepeatedMethods

/-!
# Members of the class

The names of the members that every class has are read off the lines of its fixed text
(`declaredNames_scaffolding`). All of them but `constructor` have a capital, and the name of a
method has none. A method is called like a word of small letters exactly if its identifier is the
word with a beginning of it in capitals (`method_eq_iff`), so there can be a second `constructor`,
though only for an operation with an identifier of its own: one that is made from a verb and a path
begins otherwise.
-/

namespace TypedClient

open Text

namespace Name

variable {s word : String} {c : Char} {cs ws : List Char}

/-! ## Identifiers of methods with a given name -/

/-- The word with its first letters in upper case. -/
def withCapitals (k : Nat) (word : String) : String :=
  String.ofList ((word.toList.take k).map Char.toUpper ++ word.toList.drop k)

/-- Characters are cut apart between a small letter and a capital. -/
def Uncut (a b : Char) : Prop :=
  (a.isLower && b.isUpper) = false

theorem separateWords_of_notMem (h : '_' ∉ separateWords cs) : separateWords cs = cs := by
  fun_induction separateWords cs with
  | case1 => simp at h
  | case2 a b rest _ ih => rw [ih fun hmem => h (List.mem_cons_of_mem a hmem)]
  | case3 => rfl

theorem separateWords_eq_self_iff : separateWords cs = cs ↔ cs.IsChain Uncut := by
  fun_induction separateWords cs with
  | case1 a b rest hcut _ =>
    have hb : b ≠ '_' := by
      rintro rfl
      simp at hcut
    simp [Uncut, hcut, hb.symm]
  | case2 a b rest hcut ih =>
    rw [List.cons_inj_right, ih, List.isChain_cons_cons, Uncut, and_iff_right]
    simpa using hcut
  | case3 cs hshort =>
    rcases cs with _ | ⟨a, _ | ⟨b, rest⟩⟩
    · simp
    · simp
    · exact absurd rfl (hshort a b rest)

theorem guardDigit_of_notMem (h : '_' ∉ guardDigit cs) : guardDigit cs = cs := by
  unfold guardDigit at h ⊢
  split
  · rfl
  · split
    · rename_i hdigit
      simp [hdigit] at h
    · rfl

/-- What holds of the letters among the first 128 characters holds of every letter. -/
theorem of_isAlpha {P : Char → Prop}
    (hall : ∀ n < 128, (Char.ofNat n).isAlpha = true → P (Char.ofNat n)) (h : c.isAlpha = true) :
    P c := by
  have hword : isWordChar c = true := by simp [isWordChar, h]
  exact of_isWordChar (P := fun c => c.isAlpha = true → P c) (fun n hn _ => hall n hn) hword h

theorem isDigit_of_isAlpha (h : c.isAlpha = true) : c.isDigit = false :=
  of_isAlpha (P := fun c => c.isDigit = false) (by decide) h

theorem isAlpha_toUpper (h : c.isAlpha = true) : c.toUpper.isAlpha = true :=
  of_isAlpha (P := fun c => c.toUpper.isAlpha = true) (by decide) h

theorem toLower_toUpper (h : c.isAlpha = true) : c.toUpper.toLower = c.toLower :=
  of_isAlpha (P := fun c => c.toUpper.toLower = c.toLower) (by decide) h

theorem isAlpha_of_isUpper (h : c.isUpper = true) : c.isAlpha = true := by
  rw [isAlpha_eq, h, Bool.true_or]

theorem isAlpha_of_isLower (h : c.isLower = true) : c.isAlpha = true := by
  rw [isAlpha_eq, h, Bool.or_true]

theorem isUpper_of_isLower (h : c.isLower = true) : c.isUpper = false :=
  of_isAlpha (P := fun c => c.isLower = true → c.isUpper = false) (by decide)
    (isAlpha_of_isLower h) h

theorem isLower_toUpper (h : c.isAlpha = true) : c.toUpper.isLower = false :=
  of_isAlpha (P := fun c => c.toUpper.isLower = false) (by decide) h

theorem toUpper_toLower (h : c.isUpper = true) : c.toLower.toUpper = c :=
  of_isAlpha (P := fun c => c.isUpper = true → c.toLower.toUpper = c) (by decide)
    (isAlpha_of_isUpper h) h

theorem toLower_of_isLower (h : c.isLower = true) : c.toLower = c :=
  toLower_eq_self (isUpper_of_isLower h)

/-- Behind a small letter come small letters only if nothing is cut apart. -/
theorem map_toLower_eq_self (hc : c.isLower = true) (hchain : (c :: cs).IsChain Uncut)
    (hcs : ∀ d ∈ cs, d.toLower.isLower = true) : cs.map Char.toLower = cs := by
  induction cs generalizing c with
  | nil => rfl
  | cons d cs ih =>
    obtain ⟨hcut, hchain⟩ := List.isChain_cons_cons.1 hchain
    obtain ⟨hd, hcs⟩ := List.forall_mem_cons.1 hcs
    have hupper : ¬ d.isUpper = true := by simpa [Uncut, hc] using hcut
    have hself : d.toLower = d := toLower_eq_self (Bool.eq_false_iff.2 hupper)
    rw [hself] at hd
    rw [List.map_cons, hself, ih hd hchain hcs]

/-- Letters that are not cut apart are capitals and then small letters. -/
theorem exists_capitals (hchain : cs.IsChain Uncut) (hcs : ∀ d ∈ cs, d.toLower.isLower = true) :
    ∃ k, cs = ((cs.map Char.toLower).take k).map Char.toUpper ++
      (cs.map Char.toLower).drop k := by
  induction cs with
  | nil => exact ⟨0, rfl⟩
  | cons c cs ih =>
    obtain ⟨hc, hcs⟩ := List.forall_mem_cons.1 hcs
    by_cases hupper : c.isUpper = true
    · obtain ⟨k, hk⟩ := ih (List.isChain_of_isChain_cons hchain) hcs
      refine ⟨k + 1, ?_⟩
      rw [List.map_cons, List.take_succ_cons, List.drop_succ_cons, List.map_cons,
        toUpper_toLower hupper, List.cons_append, ← hk]
    · have hself : c.toLower = c := toLower_eq_self (Bool.eq_false_iff.2 hupper)
      rw [hself] at hc
      refine ⟨0, ?_⟩
      rw [List.map_cons, hself, map_toLower_eq_self hc hchain hcs]
      rfl

theorem isChain_withCapitals (hws : ∀ c ∈ ws, c.isLower = true) (k : Nat) :
    ((ws.take k).map Char.toUpper ++ ws.drop k).IsChain Uncut := by
  have hcapital {c : Char} (hc : c.isLower = true) (d : Char) : Uncut c.toUpper d := by
    simp [Uncut, isLower_toUpper (isAlpha_of_isLower hc)]
  have hsmall (c : Char) {d : Char} (hd : d.isLower = true) : Uncut c d := by
    simp [Uncut, isUpper_of_isLower hd]
  refine List.Pairwise.isChain (List.pairwise_append.2 ⟨?_, ?_, ?_⟩)
  · exact List.pairwise_map.2 (List.pairwise_of_forall_mem_list
      fun c hc d _ => hcapital (hws c (List.mem_of_mem_take hc)) _)
  · exact List.pairwise_of_forall_mem_list
      fun c _ d hd => hsmall c (hws d (List.mem_of_mem_drop hd))
  · intro c _ d hd
    exact hsmall c (hws d (List.mem_of_mem_drop hd))

theorem toList_method_of_isAlpha (h : ∀ c ∈ s.toList, c.isAlpha = true) :
    (method s).toList = (separateWords s.toList).map Char.toLower := by
  have hwords : (s.toList.map fun c => if isWordChar c then c else '_') = s.toList := by
    refine (List.map_congr_left fun c hc => ?_).trans s.toList.map_id
    simp [isWordChar, h c hc]
  have hdigit : guardDigit s.toList = s.toList :=
    guardDigit_eq_self fun c hc => isDigit_of_isAlpha (h c (List.mem_of_mem_head? hc))
  rw [method, String.toList_ofList, hwords, hdigit]

/-- If the name has no underscore, none has been put into it, so the identifier has letters and
digits only. -/
theorem toList_method_of_notMem (h : '_' ∉ (method s).toList) :
    (method s).toList = s.toList.map Char.toLower ∧ s.toList.IsChain Uncut := by
  let words := s.toList.map fun c => if isWordChar c then c else '_'
  have hlist : (method s).toList = (separateWords (guardDigit words)).map Char.toLower :=
    String.toList_ofList
  have hseparated : '_' ∉ separateWords (guardDigit words) :=
    fun hmem => h (hlist ▸ List.mem_map.2 ⟨'_', hmem, rfl⟩)
  have hwhole := separateWords_of_notMem hseparated
  rw [hwhole] at hseparated
  have hguarded := guardDigit_of_notMem hseparated
  rw [hguarded] at hseparated hwhole
  have hwords : words = s.toList := by
    refine (List.map_congr_left fun c hc => ?_).trans s.toList.map_id
    by_contra hne
    have hother : ¬ isWordChar c = true := fun hword => hne (if_pos hword)
    exact hseparated (List.mem_map.2 ⟨c, hc, if_neg hother⟩)
  rw [hwords] at hguarded hwhole
  exact ⟨by rw [hlist, hwords, hguarded, hwhole], separateWords_eq_self_iff.1 hwhole⟩

theorem method_eq_iff (hword : ∀ c ∈ word.toList, c.isLower = true) :
    method s = word ↔ ∃ k, s = withCapitals k word := by
  constructor
  · rintro rfl
    obtain ⟨hlist, hchain⟩ := toList_method_of_notMem fun hmem => absurd (hword _ hmem) (by decide)
    rw [hlist, List.forall_mem_map] at hword
    obtain ⟨k, hk⟩ := exists_capitals hchain hword
    refine ⟨k, String.toList_injective ?_⟩
    rw [withCapitals, String.toList_ofList, hlist, ← hk]
  · rintro ⟨k, rfl⟩
    have hlist : (withCapitals k word).toList =
        (word.toList.take k).map Char.toUpper ++ word.toList.drop k := String.toList_ofList
    have halpha : ∀ c ∈ (withCapitals k word).toList, c.isAlpha = true := by
      rw [hlist]
      intro c hc
      rcases List.mem_append.1 hc with hc | hc
      · obtain ⟨d, hd, rfl⟩ := List.mem_map.1 hc
        exact isAlpha_toUpper (isAlpha_of_isLower (hword d (List.mem_of_mem_take hd)))
      · exact isAlpha_of_isLower (hword c (List.mem_of_mem_drop hc))
    have hsmall : word.toList.map Char.toLower = word.toList :=
      (List.map_congr_left fun c hc => toLower_of_isLower (hword c hc)).trans word.toList.map_id
    apply String.toList_injective
    calc (method (withCapitals k word)).toList
        = (withCapitals k word).toList.map Char.toLower := by
          rw [toList_method_of_isAlpha halpha, hlist,
            separateWords_eq_self_iff.2 (isChain_withCapitals hword k)]
      _ = (word.toList.take k ++ word.toList.drop k).map Char.toLower := by
          rw [hlist, List.map_append, List.map_append, List.map_map]
          refine congrArg (· ++ _) (List.map_congr_left fun c hc => ?_)
          exact toLower_toUpper (isAlpha_of_isLower (hword c (List.mem_of_mem_take hc)))
      _ = word.toList := by rw [List.take_append_drop, hsmall]

theorem exists_withCapitals_eq (k : Nat) : ∃ c rest,
    (withCapitals k "constructor").toList = c :: rest ∧ (c = 'c' ∨ c = 'C') := by
  rw [withCapitals, String.toList_ofList]
  cases k with
  | zero => exact ⟨'c', _, rfl, .inl rfl⟩
  | succ k => exact ⟨'C', _, rfl, .inr rfl⟩

/-- An identifier that is made from a verb and a path begins with the first letter of the verb. -/
theorem operationId_ne_withCapitals (verb : Verb) (path : String) (k : Nat) :
    operationId verb.keyword path ≠ withCapitals k "constructor" := by
  have hverb : ∃ c rest, (lower verb.keyword).toList = c :: rest ∧ c ≠ 'c' ∧ c ≠ 'C' := by
    cases verb <;> exact ⟨_, _, rfl, by decide, by decide⟩
  intro h
  obtain ⟨c, rest, hlower, hc⟩ := hverb
  obtain ⟨d, rest', hlist, hd⟩ := exists_withCapitals_eq k
  rw [← h, operationId, String.toList_append, hlower] at hlist
  obtain ⟨rfl, -⟩ := List.cons.inj hlist
  exact hd.elim hc.1 hc.2

end Name

theorem Extraction.operationId_eq_withCapitals_iff (verb : Verb) (path : String)
    (operation : List (Value × Value)) (k : Nat) :
    operationId verb path operation = Name.withCapitals k "constructor" ↔
      (Value.get operation "operationId").optionalText =
        some (Name.withCapitals k "constructor") := by
  have hmade := Name.operationId_ne_withCapitals verb path k
  unfold operationId
  rcases (Value.get operation "operationId").optionalText with _ | declared
  · exact iff_of_false hmade nofun
  · rw [Option.some_inj]
    dsimp only
    split
    · rename_i hempty
      refine iff_of_false hmade fun hdeclared => ?_
      obtain ⟨c, rest, hlist, -⟩ := Name.exists_withCapitals_eq k
      rw [← hdeclared, String.isEmpty_iff.1 hempty] at hlist
      cases hlist
    · rfl

/-- An endpoint has the identifier of the operation at its path and verb. -/
theorem Document.exists_operation {doc : Document} {found : Reported Endpoint}
    (h : doc.endpoints = .ok found) {e : Endpoint} (he : e ∈ found.items) :
    ∃ fields operation, (e.path, fields) ∈ doc.paths ∧
      Assoc.find? fields e.verb.keyword = some (.map operation) ∧
      e.operationId = Extraction.operationId e.verb e.path operation := by
  obtain ⟨reports, hreports, h⟩ := exists_of_bind_eq_ok h
  cases h
  rw [Extraction.joined_items, List.mem_flatMap] at he
  obtain ⟨report, hreport, he⟩ := he
  obtain ⟨⟨path, fields⟩, hpath, hread⟩ :=
    exists_mem_of_forall₂ (forall₂_of_mapM_eq_ok hreports) hreport
  obtain ⟨shared, -, hread⟩ := exists_of_bind_eq_ok hread
  obtain ⟨operations, hoperations, hread⟩ := exists_of_bind_eq_ok hread
  cases hread
  change e ∈ (Extraction.joined operations).items at he
  rw [Extraction.joined_items, List.mem_flatMap] at he
  obtain ⟨single, hsingle, he⟩ := he
  obtain ⟨⟨verb, operation⟩, hoperation, hread⟩ :=
    exists_mem_of_forall₂ (forall₂_of_mapM_eq_ok hoperations) hsingle
  obtain ⟨own, body, responses, -, -, -, rfl⟩ :=
    Extraction.exists_of_readOperation_eq_ok hread
  cases List.mem_singleton.1 he
  exact ⟨fields, operation, hpath, Extraction.mem_operations.1 hoperation, rfl⟩

namespace Interface

/-! ## Members of the fixed text -/

/-- The name of the member that a line of the class begins, behind words like `private`. -/
def memberName? (line : List Char) : Option String :=
  let shown := (dropStart? "private ".toList line).getD line
  let name := ((dropStart? "async ".toList shown).getD shown).takeWhile Name.isIdentifierPart
  if name.isEmpty then none else some (String.ofList name)

/-- The names of the members that a text declares. Their lines are indented to the level, and lines
inside of them further. -/
def declaredNames (level : Int) (cs : List Char) : List String :=
  (splitAt '\n' cs).filterMap fun line =>
    (dropStart? (indent level).toList line).bind memberName?

variable {level : Int} {line rest : List Char}

theorem declaredNames_line (h : '\n' ∉ line) : declaredNames level (line ++ '\n' :: rest) =
    ((dropStart? (indent level).toList line).bind memberName?).toList ++
      declaredNames level rest := by
  rw [declaredNames, splitAt_append, splitAt_of_notMem h, List.singleton_append,
    List.filterMap_cons]
  cases (dropStart? (indent level).toList line).bind memberName? <;> rfl

theorem declaredNames_indented (h : '\n' ∉ line) :
    declaredNames level ((indent level).toList ++ line ++ '\n' :: rest) =
      (memberName? line).toList ++ declaredNames level rest := by
  have hline : '\n' ∉ (indent level).toList ++ line := by
    simp [newline_notMem_indent, h]
  rw [declaredNames_line hline, dropStart?_append, Option.bind_some]

theorem dropStart?_nil_bind (level : Int) :
    (dropStart? (indent level).toList []).bind memberName? = none := by
  cases (indent level).toList <;> rfl

theorem declaredNames_nil : declaredNames level [] = [] := by
  simp [declaredNames, splitAt, dropStart?_nil_bind]

theorem declaredNames_feed : declaredNames level ('\n' :: rest) = declaredNames level rest := by
  rw [← List.nil_append ('\n' :: rest), declaredNames_line (by simp), dropStart?_nil_bind]
  rfl

/-- A line of a block: it has no break, and it is empty or has something on it. -/
def isLine (cs : List Char) : Bool :=
  cs.all (!isLineBreak ·) && (cs.isEmpty || cs.any (!isBlank ·))

theorem plain_of_isLine {cs : List Char} (h : isLine cs = true) :
    cs.all (!isLineBreak ·) = true := by
  rw [isLine, Bool.and_eq_true] at h
  exact h.1

theorem declaredNames_indentLine {cs : List Char} (h : isLine cs = true) :
    declaredNames level (indentLine level (cs ++ ['\n']) ++ rest) =
      (memberName? cs).toList ++ declaredNames level rest := by
  have hfeed : '\n' ∉ cs :=
    fun hmem => absurd (not_break_of_all (plain_of_isLine h) _ hmem) (by decide)
  rw [isLine, Bool.and_eq_true, Bool.or_eq_true, List.isEmpty_iff] at h
  rcases h.2 with rfl | hwritten
  · exact declaredNames_feed
  · rw [indentLine_append cs (by simpa [List.any_eq_true] using hwritten), ← List.append_assoc,
      List.append_assoc, List.singleton_append, declaredNames_indented hfeed]

/-- The names of the members that the lines of a block begin. -/
inductive Lists : List String → List String → Prop
  | nil : Lists [] []
  | other {cs : List Char} {lines names : List String} : isLine cs = true →
    memberName? cs = none → Lists lines names → Lists (String.ofList cs :: lines) names
  | member {cs : List Char} {lines names : List String} {name : String} : isLine cs = true →
    memberName? cs = some name → Lists lines names →
    Lists (String.ofList cs :: lines) (name :: names)

namespace Lists

variable {lines names : List String}

theorem append_other {cs ds : List Char} (hline : isLine (cs ++ ds) = true)
    (hnone : memberName? (cs ++ ds) = none) (h : Lists lines names) :
    Lists ((String.ofList cs ++ String.ofList ds) :: lines) names := by
  rw [← String.ofList_append]
  exact .other hline hnone h

theorem plain (h : Lists lines names) :
    ∀ line ∈ lines, line.toList.all (!isLineBreak ·) = true := by
  induction h with
  | nil => simp
  | other hline _ _ ih | member hline _ _ ih =>
    exact List.forall_mem_cons.2 ⟨String.toList_ofList ▸ plain_of_isLine hline, ih⟩

theorem declaredNames_eq (h : Lists lines names) : declaredNames level
    (lines.flatMap fun line => indentLine level (line.toList ++ ['\n'])) = names := by
  induction h with
  | nil => exact declaredNames_nil
  | other hline hname _ ih | member hline hname _ ih =>
    rw [List.flatMap_cons, String.toList_ofList, declaredNames_indentLine hline, hname, ih]
    rfl

end Lists

theorem toList_join_blocks (level : Int) {blocks : List (List String)}
    (h : ∀ line ∈ blocks.flatten, line.toList.all (!isLineBreak ·) = true) :
    (String.join ((blocks.map Scaffold.ofLines).map (indentBlock · level))).toList =
      blocks.flatten.flatMap fun line => indentLine level (line.toList ++ ['\n']) := by
  induction blocks with
  | nil => rfl
  | cons block blocks ih =>
    rw [List.flatten_cons, List.forall_mem_append] at h
    rw [List.map_cons, List.map_cons, String.join_cons, String.toList_append, ih h.2,
      Method.toList_indentBlock_ofLines level h.1, List.flatten_cons, List.flatMap_append]

/-- The lines of the members that every class has behind its fields. -/
def scaffoldBlocks : List (List String) :=
  [Scaffold.constructorLines, Scaffold.authMethods, Scaffold.interceptorMethods,
    Scaffold.retryMethods, Scaffold.internalFetch]

theorem scaffold_eq : scaffold = scaffoldBlocks.map Scaffold.ofLines := rfl

theorem lists_scaffoldBlocks : Lists scaffoldBlocks.flatten
    ["constructor", "setApiKey", "setBearerToken", "addRequestInterceptor",
      "addResponseInterceptor", "setRetryConfig", "internalFetch"] := by
  -- each line is taken as a list of characters, for reading them from the text is slow
  repeat first
    | refine .other (by decide) (by rfl) ?_
    | refine .member (by decide) (by rfl) ?_
    | refine .append_other (by decide) (by rfl) ?_
  exact .nil

theorem declaredNames_scaffold (level : Int) :
    declaredNames level (String.join (scaffold.map (indentBlock · level))).toList =
      ["constructor", "setApiKey", "setBearerToken", "addRequestInterceptor",
        "addResponseInterceptor", "setRetryConfig", "internalFetch"] := by
  rw [scaffold_eq, toList_join_blocks level lists_scaffoldBlocks.plain]
  exact lists_scaffoldBlocks.declaredNames_eq

theorem declaredNames_flatMap {ls : List String} (h : ∀ line ∈ ls, '\n' ∉ line.toList)
    (rest : List Char) : declaredNames level
      (ls.flatMap (fun line => (indent level).toList ++ line.toList ++ ['\n']) ++ rest) =
        (ls.filterMap fun line => memberName? line.toList) ++ declaredNames level rest := by
  induction ls with
  | nil => rfl
  | cons line ls ih =>
    obtain ⟨hfeed, hls⟩ := List.forall_mem_cons.1 h
    rw [List.flatMap_cons, List.append_assoc, List.append_assoc, List.singleton_append,
      declaredNames_indented hfeed, ih hls, List.filterMap_cons]
    cases memberName? line.toList <;> rfl

theorem memberName?_baseUrl (rest : List Char) :
    memberName? ("private baseUrl: string = ".toList ++ rest) = some "baseUrl" := rfl

theorem filterMap_fieldLines (i : Interface) :
    (i.fieldLines.filterMap fun line => memberName? line.toList) =
      ["baseUrl", "apiKey", "bearerToken", "requestInterceptors", "responseInterceptors",
        "maxRetries", "retryDelay"] := by
  have hfirst : memberName? ("private baseUrl: string = " ++ asciiQuoted i.baseUrl ++ ";").toList =
      some "baseUrl" := by
    rw [String.append_assoc, String.toList_append]
    exact memberName?_baseUrl _
  have hrest : (i.fieldLines.tail.map String.toList).filterMap memberName? =
      ["apiKey", "bearerToken", "requestInterceptors", "responseInterceptors", "maxRetries",
        "retryDelay"] := by
    rw [map_toList_of_chars i.fieldLines.tail
      (by repeat first | apply append_of_chars | constructor)]
    decide +kernel
  rw [List.filterMap_map] at hrest
  rw [fieldLines, List.filterMap_cons, hfirst]
  exact congrArg (List.cons "baseUrl") hrest

theorem newline_notMem_fieldLines (i : Interface) : ∀ line ∈ i.fieldLines, '\n' ∉ line.toList := by
  have hquoted : '\n' ∉ (asciiQuoted i.baseUrl).toList :=
    fun h => absurd (le_toNat_of_mem_asciiQuoted h) (by decide)
  refine List.forall_mem_cons.2 ⟨?_, forall_mem_of_chars (P := fun cs => '\n' ∉ cs)
    (by repeat first | apply append_of_chars | constructor) (by decide +kernel)⟩
  simp [hquoted]

theorem toList_fields (i : Interface) (level : Int) : (i.fields level).toList =
    i.fieldLines.flatMap (fun line => (indent level).toList ++ line.toList ++ ['\n']) ++
      ['\n'] := by
  rw [fields, String.toList_append]
  refine congrArg (· ++ ['\n']) ?_
  induction i.fieldLines with
  | nil => rfl
  | cons line lines ih =>
    rw [List.map_cons, String.join_cons, String.toList_append, ih, List.flatMap_cons]
    simp

theorem declaredNames_scaffolding (i : Interface) (level : Int) :
    declaredNames level (i.scaffolding level).toList =
      ["baseUrl", "apiKey", "bearerToken", "requestInterceptors", "responseInterceptors",
        "maxRetries", "retryDelay", "constructor", "setApiKey", "setBearerToken",
        "addRequestInterceptor", "addResponseInterceptor", "setRetryConfig", "internalFetch"] := by
  rw [scaffolding, String.toList_append, toList_fields, List.append_assoc, List.singleton_append,
    declaredNames_flatMap i.newline_notMem_fieldLines, filterMap_fieldLines, declaredNames_feed,
    declaredNames_scaffold]
  rfl

theorem exists_isUpper_of_mem (i : Interface) {name : String}
    (h : name ∈ declaredNames level (i.scaffolding level).toList) (hname : name ≠ "constructor") :
    ∃ c ∈ name.toList, c.isUpper = true := by
  have hcapital : ∀ name ∈ declaredNames level (i.scaffolding level).toList,
      name ≠ "constructor" → name.toList.any Char.isUpper = true := by
    rw [declaredNames_scaffolding]
    decide
  exact List.any_eq_true.1 (hcapital name h hname)

end Interface

/-- The class has the fixed members and then the methods. No method is called like a fixed member,
but for one whose operation has an identifier with the letters of `constructor`, where some of the
first letters may be capitals: that method is a second `constructor`. -/
theorem methodName_meets_members_iff (i : Interface) {doc : Document} {found : Reported Endpoint}
    (h : doc.endpoints = .ok found) :
    (∀ level, Interface.declaredNames level (i.scaffolding level).toList =
      ["baseUrl", "apiKey", "bearerToken", "requestInterceptors", "responseInterceptors",
        "maxRetries", "retryDelay", "constructor", "setApiKey", "setBearerToken",
        "addRequestInterceptor", "addResponseInterceptor", "setRetryConfig", "internalFetch"]) ∧
    (∀ level text, i.clientClass found.items level = .ok text → ∃ methods,
      text = i.classOpening level ++ String.join methods ++ (indent level ++ "\x7d\n\n") ∧
      List.Forall₂ (Method.Introduces i.registry (level + 1)) found.items methods) ∧
    ∀ e ∈ found.items,
      (∀ level, e.methodName ∈ Interface.declaredNames level (i.scaffolding level).toList ↔
        e.methodName = "constructor") ∧
      ∃ fields operation, (e.path, fields) ∈ doc.paths ∧
        Assoc.find? fields e.verb.keyword = some (.map operation) ∧
        (e.methodName = "constructor" ↔ ∃ k, (Value.get operation "operationId").optionalText =
          some (Name.withCapitals k "constructor")) := by
  refine ⟨i.declaredNames_scaffolding, fun level text => Interface.exists_methods, fun e he => ?_⟩
  obtain ⟨fields, operation, hpath, hoperation, hid⟩ := Document.exists_operation h he
  refine ⟨fun level => ⟨fun hmem => ?_, fun hname => ?_⟩, fields, operation, hpath, hoperation, ?_⟩
  · by_contra hne
    obtain ⟨c, hc, hupper⟩ := i.exists_isUpper_of_mem hmem hne
    have hsmall := Name.isUpper_of_isSnakeChar ((Name.isSnake_method e.operationId).chars c hc)
    rw [hupper] at hsmall
    cases hsmall
  · rw [hname, i.declaredNames_scaffolding]
    decide
  · have hword : ∀ c ∈ "constructor".toList, c.isLower = true := by simp
    rw [Endpoint.methodName, Name.method_eq_iff hword, hid]
    exact exists_congr (Extraction.operationId_eq_withCapitals_iff _ _ _)

/-- Three operations at one path, the first two with identifiers. -/
def ordersValue (first second : String) : Value :=
  .map [
    (.text "openapi", .text "3.0.0"),
    (.text "info", .map [(.text "title", .text "Orders"), (.text "version", .text "1")]),
    (.text "paths", .map [(.text "/constructor", .map [
      (.text "get", .map [(.text "operationId", .text first)]),
      (.text "post", .map [(.text "operationId", .text second)]),
      (.text "put", .map [])])])]

def ordersDocument (first second : String) : Document where
  format := "3.0.0"
  info := ⟨"Orders", "1", none⟩
  servers := []
  paths := [("/constructor", [
    ("get", .map [(.text "operationId", .text first)]),
    ("post", .map [(.text "operationId", .text second)]),
    ("put", .map [])])]
  components := none

/-- Identifiers that resemble fixed members give other names. -/
theorem methodName_meets_members_iff_orders : ∃ found,
    (ordersDocument "internalFetch" "constrUctor").endpoints = .ok found ∧
    found.items.map Endpoint.methodName =
      ["internal_fetch", "constr_uctor", "put_constructor"] ∧
    ∀ (i : Interface) (level : Int), ∀ e ∈ found.items,
      e.methodName ∉ Interface.declaredNames level (i.scaffolding level).toList := by
  have hshown : (ordersDocument "internalFetch" "constrUctor").endpoints.map
      (fun found : Reported Endpoint => found.items.map Endpoint.methodName) =
        .ok ["internal_fetch", "constr_uctor", "put_constructor"] := rfl
  obtain ⟨found, hfound, hnames⟩ := exists_of_map_eq_ok hshown
  refine ⟨found, hfound, hnames, fun i level e he hmem => ?_⟩
  have hname := (((methodName_meets_members_iff i hfound).2.2 e he).1 level).1 hmem
  have hlisted : e.methodName ∈ found.items.map Endpoint.methodName := List.mem_map_of_mem he
  rw [hnames, hname] at hlisted
  exact absurd hlisted (by decide)

/-- Two methods of a client are called like its constructor. -/
theorem exists_generate_constructors :
    ∃ p found, generate (ordersValue "constructor" "CONstructor") .default = .ok p ∧
      Document.ofValue (ordersValue "constructor" "CONstructor") =
        .ok (ordersDocument "constructor" "CONstructor") ∧
      (ordersDocument "constructor" "CONstructor").endpoints = .ok found ∧
      found.items.map Endpoint.methodName = ["constructor", "constructor", "put_constructor"] ∧
      ∀ (i : Interface) (level : Int),
        "constructor" ∈ Interface.declaredNames level (i.scaffolding level).toList := by
  have hdoc : Document.ofValue (ordersValue "constructor" "CONstructor") =
      .ok (ordersDocument "constructor" "CONstructor") := rfl
  have hshown : (ordersDocument "constructor" "CONstructor").endpoints.map
      (fun found : Reported Endpoint =>
        (found.items.map Endpoint.methodName, found.items.map Endpoint.responses,
          found.items.flatMap Signature.schemas)) =
      .ok (["constructor", "constructor", "put_constructor"], [[], [], []], []) := rfl
  let reg : Registry := .ofPairs []
  have hreg : (ordersDocument "constructor" "CONstructor").registry = .ok reg :=
    Document.registry_eq_ok _ rfl
  obtain ⟨found, hfound, hlists⟩ := exists_of_map_eq_ok hshown
  obtain ⟨hmethods, hresponses, hschemas⟩ := by simpa only [Prod.mk.injEq] using hlists
  have hbare : reg.IsBare := .of_entries_eq_nil rfl
  have hcodes : ∀ e ∈ found.items, ∀ code ∈ Assoc.names e.responses, ¬ NoNumeral code := by
    intro e he code hcode
    have hnone : e.responses ∈ [[], [], []] := hresponses ▸ List.mem_map_of_mem he
    simp only [List.mem_cons, List.not_mem_nil, or_false, or_self] at hnone
    rw [hnone] at hcode
    cases hcode
  have hunshown : ∀ e ∈ found.items, ∀ s ∈ Signature.schemas e,
      s.literals reg reg.names = [] ∧ reg.firstChoice? (some s) = none := by
    intro e he s hs
    have hmem := List.mem_flatMap.2 ⟨e, he, hs⟩
    rw [hschemas] at hmem
    cases hmem
  have hexists : ∃ p, generate (ordersValue "constructor" "CONstructor") .default = .ok p :=
    exists_generate_eq_ok hdoc (by decide) hreg hfound hcodes fun v hv =>
      absurd hv (hbare.not_showsChoice hunshown)
  obtain ⟨p, hp⟩ := hexists
  refine ⟨p, found, hp, hdoc, hfound, hmethods, fun i level => ?_⟩
  rw [i.declaredNames_scaffolding]
  decide

end TypedClient
