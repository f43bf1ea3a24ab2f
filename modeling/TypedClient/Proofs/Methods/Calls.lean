import TypedClient.Client.ExampleFile
import TypedClient.Proofs.Methods.Body
import TypedClient.Proofs.Script.Comment

/-!
# Example calls

An example call names the method and passes an object for each object that the signature declares,
with the keys that are declared, and a body for the body (`forall₂_fits`). The example file shows
the call as it is. The comment of the method shows it line by line, and it is shown whole exactly if
no key of it has a line break that a literal does not escape (`shows_calls_iff`).
-/

namespace TypedClient.Call

open Text Name

variable {reg res : Registry} {style : CallStyle} {e : Endpoint} {ps : List Parameter}

/-! ## Arguments -/

def keys (ps : List Parameter) : List String :=
  ps.map fun p => propertyKey p.name

/-- The object type declares properties with these keys, in this order. -/
def DeclaresKeys (type : String) (keys : List String) : Prop :=
  ∃ declarations, type = Signature.inlineObject declarations ∧
    keys.Forall₂ (fun key declaration => ∃ t,
      declaration = key ++ ": " ++ t ∨ declaration = key ++ "?" ++ ": " ++ t) declarations

/-- The object literal gives values for these keys, in this order. -/
def ListsKeys (literal : String) (keys : List String) : Prop :=
  ∃ entries, literal = "\x7b " ++ String.intercalate ", " entries ++ " \x7d" ∧
    keys.Forall₂ (fun key entry => ∃ value, entry = key ++ ": " ++ value) entries

/-- The text is passed for the argument: an object with all keys of the path object, one with the
first keys of the query object, or a body. -/
inductive Fits (style : CallStyle) (e : Endpoint) : Argument → String → Prop
  | params {presence : Presence} {type literal : String} :
    DeclaresKeys type (keys e.pathParameters) → ListsKeys literal (keys e.pathParameters) →
    Fits style e ⟨"params", presence, type⟩ literal
  | query {presence : Presence} {type literal : String} :
    DeclaresKeys type (keys e.queryParameters) →
    ListsKeys literal ((keys e.queryParameters).take 2) →
    Fits style e ⟨"query", presence, type⟩ literal
  | body {presence : Presence} {type : String} : Fits style e ⟨"body", presence, type⟩ style.body

theorem declaresKeys_pathType (reg : Registry) (ps : List Parameter) :
    DeclaresKeys (Signature.pathType reg ps) (keys ps) := by
  refine ⟨_, rfl, ?_⟩
  rw [keys, List.forall₂_map_left_iff, List.forall₂_map_right_iff, List.forall₂_same]
  exact fun p _ => ⟨_, .inl rfl⟩

theorem declaresKeys_queryType (reg : Registry) (ps : List Parameter) :
    DeclaresKeys (Signature.queryType reg ps) (keys ps) := by
  refine ⟨_, rfl, ?_⟩
  rw [keys, List.forall₂_map_left_iff, List.forall₂_map_right_iff, List.forall₂_same]
  intro p _
  split
  · exact ⟨Signature.parameterType reg p, .inl (by simp)⟩
  · exact ⟨_, .inr rfl⟩

theorem listsKeys_bundle (value : Parameter → String) (ps : List Parameter) :
    ListsKeys (bundle value ps) (keys ps) := by
  refine ⟨_, rfl, ?_⟩
  rw [keys, List.forall₂_map_left_iff, List.forall₂_map_right_iff, List.forall₂_same]
  exact fun p _ => ⟨value p, rfl⟩

/-- Whatever the endpoint has, the call has an argument for each argument of the signature. -/
theorem forall₂_fits (reg res : Registry) (style : CallStyle) (e : Endpoint) :
    List.Forall₂ (Fits style e) (Signature.arguments reg e) (arguments style res e) := by
  have hpath := declaresKeys_pathType reg e.pathParameters
  have hquery := declaresKeys_queryType reg e.queryParameters
  have hshown : ListsKeys (bundle (queryValue style res) (e.queryParameters.take queryLimit))
      ((keys e.queryParameters).take 2) := by
    have htake : (keys e.queryParameters).take 2 = keys (e.queryParameters.take queryLimit) :=
      (List.map_take ..).symm
    rw [htake]
    exact listsKeys_bundle _ _
  unfold Signature.arguments arguments
  refine List.rel_append (List.rel_append ?_ ?_) ?_
  · split
    · exact .nil
    · exact .cons (.params hpath (listsKeys_bundle _ _)) .nil
  · split
    · exact .nil
    · exact .cons (.query hquery hshown) .nil
  · rcases e.requestBody with _ | body
    · exact .nil
    · exact .cons .body .nil

end TypedClient.Call

namespace TypedClient.Text

variable {cs a b : List Char} {c : Char} {s t sep : String}

/-! ## Lines of an example -/

/-- If no break but the line feed occurs, lines are what stands between line feeds. -/
theorem lineBodies_eq_splitAt (h : ∀ c ∈ cs, isLineBreak c = true → c = '\n')
    (hlast : ∃ c, cs.getLast? = some c ∧ c ≠ '\n') : lineBodies cs = splitAt '\n' cs := by
  induction cs with
  | nil => simp at hlast
  | cons c cs ih =>
    obtain ⟨hc, hcs⟩ := List.forall_mem_cons.1 h
    have hparted : Parted [c] cs := by
      intro hreturn
      have heq : c = '\r' := by simpa using hreturn
      exact absurd (hc (heq ▸ rfl)) (by simp [heq])
    rcases cs with _ | ⟨d, cs⟩
    · have hfeed : c ≠ '\n' := by simpa using hlast
      have hplain : isLineBreak c = false := by
        by_contra hbreak
        exact hfeed (hc (by simpa using hbreak))
      simp [lineBodies, lines, splitAt, hplain, hfeed]
    · have hrest : lineBodies (d :: cs) = splitAt '\n' (d :: cs) :=
        ih hcs (by simpa [List.getLast?_cons] using hlast)
      rw [lineBodies, lines_cons hparted, splitAt]
      by_cases hfeed : c = '\n'
      · subst hfeed
        have hbreak : isLineBreak '\n' = true := rfl
        rw [if_pos hbreak, if_pos rfl, List.map_cons, ← lineBodies, hrest]
        rfl
      · have hplain : isLineBreak c = false := by
          by_contra hbreak
          exact hfeed (hc (by simpa using hbreak))
        rw [hplain, if_neg Bool.false_ne_true, if_neg hfeed, ← hrest, lineBodies]
        rcases lines (d :: cs) with _ | ⟨line, more⟩
        · simp [glue, hplain]
        · simp [glue, hplain]

/-- No white space stands before a line feed, and none comes first. -/
def Tied (cs : List Char) : Prop :=
  cs.IsChain (fun x y => y = '\n' → isBlank x = false) ∧ cs.head? ≠ some '\n'

theorem tied_of_notMem (h : '\n' ∉ cs) : Tied cs := by
  refine ⟨List.isChain_iff_getElem.2 fun i hi hfeed => ?_, fun hhead => ?_⟩
  · exact absurd (hfeed ▸ List.getElem_mem hi) h
  · exact h (List.mem_of_mem_head? hhead)

theorem Tied.append (ha : Tied a) (hb : Tied b) : Tied (a ++ b) := by
  refine ⟨List.isChain_append.2 ⟨ha.1, hb.1, fun x _ y hy hfeed => ?_⟩, ?_⟩
  · exact absurd (hfeed ▸ hy) hb.2
  · rcases a with _ | ⟨c, a⟩
    · exact hb.2
    · exact ha.2

/-- A line ends with something other than white space. -/
def EndsDark (line : List Char) : Prop :=
  ∃ c, line.getLast? = some c ∧ isBlank c = false

theorem endsDark_splitAt {x : Char} (h : (x :: cs).IsChain fun x y => y = '\n' → isBlank x = false)
    (hlast : EndsDark (x :: cs)) : ∃ first more, splitAt '\n' cs = first :: more ∧
      EndsDark (x :: first) ∧ ∀ line ∈ more, EndsDark line := by
  induction cs generalizing x with
  | nil => exact ⟨[], [], rfl, hlast, by simp⟩
  | cons d cs ih =>
    obtain ⟨hx, hd⟩ := List.isChain_cons_cons.1 h
    have hlast' : EndsDark (d :: cs) := by simpa [EndsDark, List.getLast?_cons] using hlast
    obtain ⟨first, more, hsplit, hfirst, hmore⟩ := ih hd hlast'
    rw [splitAt, hsplit]
    split
    · rename_i hfeed
      -- the line behind the feed is not empty, for a feed is white space
      have hne : EndsDark first := by
        rcases first with _ | ⟨y, first⟩
        · obtain ⟨c, hc, hblank⟩ := hfirst
          obtain rfl : d = c := by simpa using hc
          rw [hfeed] at hblank
          cases hblank
        · simpa [EndsDark, List.getLast?_cons] using hfirst
      exact ⟨[], _, rfl, ⟨x, rfl, hx hfeed⟩, List.forall_mem_cons.2 ⟨hne, hmore⟩⟩
    · exact ⟨d :: first, more, rfl, by simpa [EndsDark, List.getLast?_cons] using hfirst, hmore⟩

/-- Between its line feeds a text has lines that end with something other than white space. -/
theorem Tied.endsDark (h : Tied cs) (hlast : EndsDark cs) :
    ∀ line ∈ splitAt '\n' cs, EndsDark line := by
  rcases cs with _ | ⟨x, cs⟩
  · simp [EndsDark] at hlast
  · have hx : x ≠ '\n' := fun hfeed => h.2 (by rw [hfeed]; rfl)
    obtain ⟨first, more, hsplit, hfirst, hmore⟩ := endsDark_splitAt h.1 hlast
    rw [splitAt, if_neg hx, hsplit]
    exact List.forall_mem_cons.2 ⟨hfirst, hmore⟩

theorem trimEnd_append (h : EndsDark b) (a : List Char) : trimEnd (a ++ b) = a ++ b := by
  obtain ⟨c, hlast, hc⟩ := h
  obtain ⟨b, rfl⟩ := List.getLast?_eq_some_iff.1 hlast
  simp [trimEnd, hc]

/-! ## Breaks in keys -/

theorem isBlank_of_isIdentifierPart (h : Name.isIdentifierPart c = true) : isBlank c = false :=
  Name.of_isIdentifierPart (P := fun c => isBlank c = false) (by decide) h

/-- A line break that a literal does not escape. -/
def isRawBreak (c : Char) : Bool :=
  isLineBreak c && decide (0x20 ≤ c.toNat)

theorem isLineBreak_of_mem_doubleQuotedChar {d : Char} (h : d ∈ doubleQuotedChar c)
    (hbreak : isLineBreak d = true) : d = c ∧ isRawBreak c = true := by
  unfold doubleQuotedChar at h
  split at h
  · rename_i e he
    have hletter : isLineBreak e = false := by
      unfold shortEscape? at he
      split at he <;> cases he <;> rfl
    simp only [List.mem_cons, List.not_mem_nil, or_false] at h
    rcases h with rfl | rfl
    · cases hbreak
    · rw [hletter] at hbreak
      cases hbreak
  · split at h
    · have hdigits : ∀ c ∈ '\\' :: 'u' :: "0123456789abcdef".toList, isLineBreak c = false :=
        not_break_of_all (by decide)
      have hmem : d ∈ '\\' :: 'u' :: "0123456789abcdef".toList := by
        rcases List.mem_cons.1 h with rfl | h
        · decide
        · rcases List.mem_cons.1 h with rfl | h
          · decide
          · exact List.mem_cons_of_mem _ (List.mem_cons_of_mem _ (Toml.mem_hex h))
      rw [hdigits d hmem] at hbreak
      cases hbreak
    · rename_i hlarge
      obtain rfl : d = c := List.mem_singleton.1 h
      exact ⟨rfl, by simp [isRawBreak, hbreak]; omega⟩

/-- A line break in a literal is a raw break of the text. -/
theorem isLineBreak_of_mem_doubleQuoted (h : c ∈ (doubleQuoted s).toList)
    (hbreak : isLineBreak c = true) : c ∈ s.toList ∧ isRawBreak c = true := by
  rw [doubleQuoted, String.toList_ofList, List.mem_cons, List.mem_append, List.mem_singleton,
    List.mem_flatMap] at h
  rcases h with rfl | ⟨d, hd, h⟩ | rfl
  · cases hbreak
  · obtain ⟨rfl, hraw⟩ := isLineBreak_of_mem_doubleQuotedChar h hbreak
    exact ⟨hd, hraw⟩
  · cases hbreak

theorem mem_propertyKey_of_isRawBreak (h : c ∈ s.toList) (hraw : isRawBreak c = true) :
    c ∈ (Name.propertyKey s).toList := by
  rw [isRawBreak, Bool.and_eq_true, decide_eq_true_eq] at hraw
  obtain ⟨hbreak, hlarge⟩ := hraw
  have hplain : doubleQuotedChar c = [c] := by
    have hnone : shortEscape? c = none := by
      unfold shortEscape?
      split <;> first | rfl | exact absurd hbreak (by decide) | exact absurd hlarge (by decide)
    have hshown : ¬ c.toNat < 0x20 := by omega
    simp [doubleQuotedChar, hnone, hshown]
  unfold Name.propertyKey
  split
  · rename_i hname
    have hpart : Name.isIdentifierPart c = false := by
      rw [← Bool.not_eq_true]
      intro hpart
      have hblank := isBlank_of_isLineBreak hbreak
      rw [isBlank_of_isIdentifierPart hpart] at hblank
      cases hblank
    have hfeed : c ≠ '\n' := by
      rintro rfl
      exact absurd hlarge (by decide)
    exact absurd h (Script.notMem_of_isIdentifier hname hpart hfeed)
  · rw [doubleQuoted, String.toList_ofList]
    refine List.mem_cons_of_mem _ (List.mem_append_left _ (List.mem_flatMap.2 ⟨c, h, ?_⟩))
    rw [hplain, List.mem_singleton]

/-- The text has no white space before a line feed, and no other line break. -/
structure Laid (s : String) : Prop where
  tied : Tied s.toList
  feeds : ∀ c ∈ s.toList, isLineBreak c = true → c = '\n'

namespace Laid

theorem append (hs : Laid s) (ht : Laid t) : Laid (s ++ t) := by
  refine ⟨?_, fun c hc => ?_⟩
  · rw [String.toList_append]
    exact hs.tied.append ht.tied
  · rw [String.toList_append, List.mem_append] at hc
    exact hc.elim (hs.feeds c) (ht.feeds c)

theorem of_forall (h : ∀ c ∈ s.toList, isLineBreak c = false) : Laid s := by
  refine ⟨tied_of_notMem fun hfeed => ?_, fun c hc hbreak => ?_⟩
  · exact absurd (h _ hfeed) (by decide)
  · rw [h c hc] at hbreak
    cases hbreak

theorem of_all (h : s.toList.all (!isLineBreak ·) = true) : Laid s :=
  of_forall (not_break_of_all h)

theorem of_isIdentifierPart (h : ∀ c ∈ s.toList, Name.isIdentifierPart c = true) : Laid s := by
  refine of_forall fun c hc => ?_
  by_contra hbreak
  have hblank := isBlank_of_isLineBreak (by simpa using hbreak)
  rw [isBlank_of_isIdentifierPart (h c hc)] at hblank
  cases hblank

/-- A line feed may stand behind an identifier. -/
theorem append_feed (h : Name.isTypeName s = true) : Laid (s ++ "\n") := by
  have hpart : ∀ c ∈ s.toList, Name.isIdentifierPart c = true :=
    fun c => Name.isIdentifierPart_of_mem h
  have hs : Laid s := .of_isIdentifierPart hpart
  refine ⟨⟨?_, ?_⟩, fun c hc hbreak => ?_⟩
  · rw [String.toList_append]
    refine List.isChain_append.2 ⟨hs.tied.1, by simp, fun x hx _ _ _ => ?_⟩
    exact isBlank_of_isIdentifierPart (hpart x (List.mem_of_getLast? hx))
  · have hne := Script.length_pos_of_isTypeName h
    rw [String.toList_append, List.head?_append_of_ne_nil _ (List.ne_nil_of_length_pos hne)]
    exact hs.tied.2
  · rw [String.toList_append, List.mem_append] at hc
    rcases hc with hc | hc
    · exact hs.feeds c hc hbreak
    · exact List.mem_singleton.1 hc

theorem intercalate (hsep : Laid sep) {texts : List String} (h : ∀ t ∈ texts, Laid t) :
    Laid (String.intercalate sep texts) :=
  DocComment.of_intercalate (of_forall (by simp)) append hsep h

end Laid

end TypedClient.Text

namespace TypedClient.Call

open Text Name

variable {reg res : Registry} {style : CallStyle} {e : Endpoint}

/-! ## The call in the comment -/

theorem laid_propertyKey {name : String} (h : ∀ c ∈ name.toList, isRawBreak c = false) :
    Laid (propertyKey name) := by
  unfold propertyKey
  split
  · rename_i hname
    rcases Script.isIdentifier_iff.1 hname with htype | ⟨identifier, htype, rfl⟩
    · exact .of_isIdentifierPart fun c => isIdentifierPart_of_mem htype
    · exact .append_feed htype
  · refine .of_forall fun c hc => ?_
    by_contra hbreak
    obtain ⟨hmem, hraw⟩ := isLineBreak_of_mem_doubleQuoted hc (by simpa using hbreak)
    rw [h c hmem] at hraw
    cases hraw

theorem isIdentifierPart_of_mem_method {operationId : String} {c : Char}
    (h : c ∈ (method operationId).toList) : isIdentifierPart c = true := by
  obtain ⟨d, hword | rfl, rfl⟩ := DocComment.exists_of_mem_method h
  · exact of_isWordChar (P := fun c => isIdentifierPart c.toLower = true) (by decide) hword
  · rfl

theorem laid_bundle {value : Parameter → String} (hvalue : ∀ p, Laid (value p))
    {ps : List Parameter} (h : ∀ p ∈ ps, ∀ c ∈ p.name.toList, isRawBreak c = false) :
    Laid (bundle value ps) := by
  have hentries : ∀ t ∈ ps.map fun p => propertyKey p.name ++ ": " ++ value p, Laid t := by
    intro t ht
    obtain ⟨p, hp, rfl⟩ := List.mem_map.1 ht
    exact ((laid_propertyKey (h p hp)).append (.of_all (by decide))).append (hvalue p)
  exact ((Laid.of_all (by decide)).append (.intercalate (.of_all (by decide)) hentries)).append
    (.of_all (by decide))

theorem laid_pathValue (res : Registry) (p : Parameter) : Laid (pathValue commentStyle res p) := by
  unfold pathValue
  split <;> exact .of_all (by decide)

theorem laid_queryValue (res : Registry) (p : Parameter) :
    Laid (queryValue commentStyle res p) := by
  have hchoices : ¬ commentStyle.usesChoices = true := by decide
  unfold queryValue
  rw [if_neg hchoices]
  split <;> exact .of_all (by decide)

/-- The parameters that have a key in the example call. -/
def shown (e : Endpoint) : List Parameter :=
  e.pathParameters ++ e.queryParameters.take queryLimit

theorem laid_of_mem_arguments (h : ∀ p ∈ shown e, ∀ c ∈ p.name.toList, isRawBreak c = false)
    {s : String} (hs : s ∈ arguments commentStyle res e) : Laid s := by
  obtain ⟨hpath, hquery⟩ := List.forall_mem_append.1 h
  rw [arguments, List.mem_append, List.mem_append] at hs
  rcases hs with (hs | hs) | hs <;> split at hs
  · cases hs
  · rw [List.mem_singleton.1 hs]
    exact laid_bundle (laid_pathValue res) hpath
  · cases hs
  · rw [List.mem_singleton.1 hs]
    exact laid_bundle (laid_queryValue res) hquery
  · rw [List.mem_singleton.1 hs]
    exact .of_all (by decide)
  · cases hs

/-- The code behind the call in a comment. -/
def afterCall : String :=
  "if (result._tag === 'Success') \x7b\n" ++
    "  console.log(result.data);\n" ++
    "\x7d else \x7b\n" ++
    "  console.error('Error:', result.status, result.message);\n" ++
    "\x7d"

theorem example_eq_statement (res : Registry) (e : Endpoint) :
    DocComment.example_ res e = statement commentStyle res e ++ "\n" ++ afterCall := by
  have hregroup (a b c d f g : String) :
      a ++ b ++ c ++ d ++ f ++ g = a ++ (b ++ c ++ d ++ f ++ g) := by
    simp only [String.append_assoc]
  exact hregroup _ _ _ _ _ _

/-- The example from the end of the arguments on. -/
def afterArguments : String := ");" ++ "\n" ++ afterCall

theorem afterArguments_spec : Tied afterArguments.toList ∧
    afterArguments.toList.all (fun c => !isLineBreak c || c == '\n') = true ∧
    afterArguments.toList.getLast? = some '\x7d' := by
  rw [toList_of_chars (s := afterArguments) (by
    unfold afterArguments afterCall
    repeat first | apply append_of_chars | rfl)]
  exact ⟨⟨by decide +kernel, by decide +kernel⟩, by decide +kernel, by decide +kernel⟩

theorem laid_afterArguments : Laid afterArguments := by
  obtain ⟨htied, hfeeds, -⟩ := afterArguments_spec
  refine ⟨htied, fun c hc hbreak => ?_⟩
  simpa [hbreak] using List.all_eq_true.1 hfeeds c hc

theorem example_eq (res : Registry) (e : Endpoint) : DocComment.example_ res e =
    "const result = await client." ++ method e.operationId ++ "(" ++
      String.intercalate ", " (arguments commentStyle res e) ++ afterArguments := by
  have hregroup (a b c d f g h : String) :
      a ++ b ++ c ++ d ++ f ++ g ++ h = a ++ b ++ c ++ d ++ (f ++ g ++ h) := by
    simp only [String.append_assoc]
  rw [example_eq_statement]
  exact hregroup _ _ _ _ _ _ _

theorem laid_example (h : ∀ p ∈ shown e, ∀ c ∈ p.name.toList, isRawBreak c = false) :
    Laid (DocComment.example_ res e) := by
  have hplain : ∀ {s : String}, s.toList.all (!isLineBreak ·) = true → Laid s := .of_all
  have harguments : Laid (String.intercalate ", " (arguments commentStyle res e)) :=
    .intercalate (hplain (by decide)) fun s hs => laid_of_mem_arguments h hs
  have hmethod : Laid (method e.operationId) :=
    Laid.of_isIdentifierPart fun c => isIdentifierPart_of_mem_method
  rw [example_eq]
  exact ((((hplain (by decide)).append hmethod).append (hplain (by decide))).append
    harguments).append laid_afterArguments

theorem endsDark_example (res : Registry) (e : Endpoint) :
    EndsDark (DocComment.example_ res e).toList := by
  obtain ⟨-, -, hlast⟩ := afterArguments_spec
  refine ⟨'\x7d', ?_, rfl⟩
  rw [example_eq, String.toList_append, List.getLast?_append, hlast, Option.some_or]

theorem mem_intercalate (sep : String) {t : String} {c : Char} (hc : c ∈ t.toList) :
    ∀ {texts : List String}, t ∈ texts → c ∈ (String.intercalate sep texts).toList
  | [u], h => by
    obtain rfl : t = u := List.mem_singleton.1 h
    simpa using hc
  | u :: v :: rest, h => by
    rw [String.toList_intercalate, List.map_cons, List.map_cons, List.intercalate_cons_cons,
      List.mem_append, List.mem_append]
    rcases List.mem_cons.1 h with rfl | h
    · exact .inl (.inl hc)
    · have hrest := mem_intercalate sep hc h
      rw [String.toList_intercalate, List.map_cons] at hrest
      exact .inr hrest

theorem mem_bundle {value : Parameter → String} {ps : List Parameter} {p : Parameter} (hp : p ∈ ps)
    {c : Char} (hc : c ∈ (propertyKey p.name).toList) : c ∈ (bundle value ps).toList := by
  have hentry : c ∈ (propertyKey p.name ++ ": " ++ value p).toList := by simp [hc]
  have hentries := mem_intercalate ", " hentry
    (List.mem_map_of_mem (f := fun p => propertyKey p.name ++ ": " ++ value p) hp)
  rw [bundle, String.toList_append, String.toList_append]
  exact List.mem_append_left _ (List.mem_append_right _ hentries)

/-- The example has every character of the keys that it shows. -/
theorem mem_example {p : Parameter} (hp : p ∈ shown e) {c : Char}
    (hc : c ∈ (propertyKey p.name).toList) : c ∈ (DocComment.example_ res e).toList := by
  have hargument : ∃ s ∈ arguments commentStyle res e, c ∈ s.toList := by
    rcases List.mem_append.1 hp with hpath | hquery
    · have hne := List.ne_nil_of_mem hpath
      refine ⟨bundle (pathValue commentStyle res) e.pathParameters, ?_, mem_bundle hpath hc⟩
      simp [arguments, hne]
    · have hne := List.ne_nil_of_mem (List.mem_of_mem_take hquery)
      refine ⟨bundle (queryValue commentStyle res) (e.queryParameters.take queryLimit), ?_,
        mem_bundle hquery hc⟩
      simp [arguments, hne]
  obtain ⟨s, hs, hmem⟩ := hargument
  rw [example_eq, String.toList_append, String.toList_append]
  exact List.mem_append_left _ (List.mem_append_right _ (mem_intercalate _ hmem hs))

theorem exists_mem_splitAt {sep c : Char} {cs : List Char} (hc : c ∈ cs) (hsep : c ≠ sep) :
    ∃ piece ∈ splitAt sep cs, c ∈ piece := by
  induction cs with
  | nil => cases hc
  | cons d cs ih =>
    obtain ⟨first, more, hsplit⟩ := List.exists_cons_of_ne_nil (splitAt_ne_nil sep cs)
    rw [splitAt, hsplit]
    rw [hsplit] at ih
    split
    · rename_i hd
      rcases List.mem_cons.1 hc with rfl | hc
      · exact absurd hd hsep
      · obtain ⟨piece, hpiece, hmem⟩ := ih hc
        exact ⟨piece, List.mem_cons_of_mem _ hpiece, hmem⟩
    · rcases List.mem_cons.1 hc with rfl | hc
      · exact ⟨_, List.mem_cons_self, List.mem_cons_self⟩
      · obtain ⟨piece, hpiece, hmem⟩ := ih hc
        rcases List.mem_cons.1 hpiece with rfl | hpiece
        · exact ⟨_, List.mem_cons_self, List.mem_cons_of_mem _ hmem⟩
        · exact ⟨piece, List.mem_cons_of_mem _ hpiece, hmem⟩

/-- The comment shows the example line by line exactly if no key that is shown has a break that a
literal does not escape. -/
theorem starred_example_iff (res : Registry) (e : Endpoint) :
    DocComment.starred (DocComment.example_ res e) =
        (splitAt '\n' (DocComment.example_ res e).toList).map (fun line =>
          " * " ++ String.ofList line) ↔
      ∀ p ∈ shown e, ∀ c ∈ p.name.toList, isRawBreak c = false := by
  constructor
  · intro heq p hp c hc
    by_contra hraw
    rw [Bool.not_eq_false] at hraw
    have hbreak : isLineBreak c = true := (Bool.and_eq_true _ _ ▸ hraw).1
    have hfeed : c ≠ '\n' := by
      rintro rfl
      exact absurd hraw (by decide)
    have hmem : c ∈ (DocComment.example_ res e).toList :=
      mem_example hp (mem_propertyKey_of_isRawBreak hc hraw)
    obtain ⟨piece, hpiece, hcpiece⟩ := exists_mem_splitAt hmem hfeed
    have hline : " * " ++ String.ofList piece ∈
        DocComment.starred (DocComment.example_ res e) := by
      rw [heq]
      exact List.mem_map_of_mem hpiece
    -- the lines of the comment have no breaks, but this one has the character
    obtain ⟨body, hbody, hshown⟩ := List.mem_map.1 hline
    have htext : trimEnd (" * ".toList ++ body) = " * ".toList ++ piece := by
      simpa using congrArg String.toList hshown
    have hinside : c ∈ trimEnd (" * ".toList ++ body) := by
      rw [htext]
      exact List.mem_append_right _ hcpiece
    rcases List.mem_append.1 ((DocComment.isPrefix_trimEnd _).subset hinside) with hstar | hbody'
    · have hstars : ∀ c ∈ " * ".toList, isLineBreak c = false := not_break_of_all (by decide)
      rw [hstars c hstar] at hbreak
      cases hbreak
    · rw [(DocComment.lineBodies_spec hbody).1 c hbody'] at hbreak
      cases hbreak
  · intro h
    have hlaid : Laid (DocComment.example_ res e) := laid_example h
    have hdark := endsDark_example res e
    have hlast : ∃ c, (DocComment.example_ res e).toList.getLast? = some c ∧ c ≠ '\n' := by
      obtain ⟨c, hc, hblank⟩ := hdark
      refine ⟨c, hc, ?_⟩
      rintro rfl
      cases hblank
    rw [DocComment.starred, lineBodies_eq_splitAt hlaid.feeds hlast]
    refine List.map_congr_left fun line hline => ?_
    rw [trimEnd_append (hlaid.tied.endsDark hdark line hline)]
    apply String.toList_injective
    simp

theorem exists_code_eq (reg : Registry) (e : Endpoint) (error : Option String) (level : Int) :
    ∃ rest, Method.code reg e error level =
      indent level ++ "async " ++ method e.operationId ++ "(" ++ rest := by
  unfold Method.code Signature.opening
  dsimp only
  split_ifs
  · exact ⟨_, by simp only [String.append_assoc]; rfl⟩
  · exact ⟨_, by simp only [String.append_assoc]; rfl⟩

theorem exists_exampleText_eq (res : Registry) (e : Endpoint) (level : Int) :
    ∃ before after, ExampleFile.exampleText res e level = before ++ "\x7b\n" ++
      indent level ++ "  " ++ statement fileStyle res e ++ "\n" ++ after := by
  let shift (line : String) : String :=
    (if line.isEmpty then "" else indent level ++ line) ++ "\n"
  have hshift : shift ("  " ++ statement fileStyle res e) =
      indent level ++ "  " ++ statement fileStyle res e ++ "\n" := by
    have hne : ("  " ++ statement fileStyle res e).isEmpty = false := by simp
    simp only [shift, hne, if_neg Bool.false_ne_true, String.append_assoc]
  have hopen : shift "\x7b" = indent level ++ "\x7b\n" := by
    simp [shift, String.append_assoc]
  refine ⟨shift "" ++ shift ("// Example: " ++ ExampleFile.title e) ++ indent level,
    String.join (((ExampleFile.exampleLines res e).drop 4).map shift), ?_⟩
  have hjoin : ExampleFile.exampleText res e level =
      shift "" ++ (shift ("// Example: " ++ ExampleFile.title e) ++ (shift "\x7b" ++
        (shift ("  " ++ statement fileStyle res e) ++
          String.join (((ExampleFile.exampleLines res e).drop 4).map shift)))) := by
    rw [← String.join_cons, ← String.join_cons, ← String.join_cons, ← String.join_cons]
    rfl
  rw [hjoin, hshift, hopen]
  simp only [String.append_assoc]

theorem exists_lines_eq (res : Registry) (e : Endpoint) : ∃ before, DocComment.lines res e =
    before ++ " * ```typescript" :: (DocComment.starred (DocComment.example_ res e) ++
      [" * ```", " */"]) := by
  refine ⟨["/**"] ++ DocComment.aboutLines e ++ DocComment.pathLines e.pathParameters ++
    DocComment.queryLines e.queryParameters ++
    (if e.requestBody.isSome then [" * @param body - Request body"] else []) ++
    [" * @returns Promise resolving to API result with type-safe success/error handling", " *",
      " * @example"], ?_⟩
  simp only [DocComment.lines, List.append_assoc, List.cons_append, List.nil_append]

/-- The class declares a method of this name, and every example call calls it, with an argument for
each argument of the signature. The example file shows the call as it is. The comment has a line for
each line of the call and of the code behind it exactly if no key that is shown has a break that a
literal does not escape. -/
theorem shows_calls_iff (reg res : Registry) (e : Endpoint) (error : Option String) (level : Int) :
    (∃ rest, Method.code reg e error level =
      indent level ++ "async " ++ method e.operationId ++ "(" ++ rest) ∧
    (∀ style, statement style res e = "const result = await client." ++ method e.operationId ++
        "(" ++ String.intercalate ", " (arguments style res e) ++ ");" ∧
      List.Forall₂ (Fits style e) (Signature.arguments reg e) (arguments style res e)) ∧
    (∃ before after, ExampleFile.exampleText res e level = before ++ "\x7b\n" ++
      indent level ++ "  " ++ statement fileStyle res e ++ "\n" ++ after) ∧
    (∃ before, DocComment.text res e level =
      String.join ((before ++ " * ```typescript" ::
        (DocComment.starred (DocComment.example_ res e) ++ [" * ```", " */"])).map fun line =>
          indent level ++ line ++ "\n")) ∧
    DocComment.example_ res e = statement commentStyle res e ++ "\n" ++ afterCall ∧
    (DocComment.starred (DocComment.example_ res e) =
        (splitAt '\n' (DocComment.example_ res e).toList).map
          (fun line => " * " ++ String.ofList line) ↔
      ∀ p ∈ e.pathParameters ++ e.queryParameters.take 2,
        ∀ c ∈ p.name.toList, isRawBreak c = false) := by
  obtain ⟨before, hlines⟩ := exists_lines_eq res e
  refine ⟨exists_code_eq reg e error level, fun style => ⟨rfl, forall₂_fits reg res style e⟩,
    exists_exampleText_eq res e level, ⟨before, ?_⟩, example_eq_statement res e,
    starred_example_iff res e⟩
  rw [DocComment.text, hlines]

/-- A line separator in a name cuts the call in the comment in two, inside a key. -/
theorem not_shows_calls :
    statement commentStyle .empty (DocComment.oneParameter "a\u2028b" none) =
      "const result = await client.list_pets(\x7b \"a\u2028b\": \"value\" \x7d);" ∧
    (DocComment.starred
        (DocComment.example_ .empty (DocComment.oneParameter "a\u2028b" none))).take 2 =
      [" * const result = await client.list_pets(\x7b \"a", " * b\": \"value\" \x7d);"] := by
  have hcall : statement commentStyle .empty (DocComment.oneParameter "a\u2028b" none) =
      "const result = await client.list_pets(\x7b \"a\u2028b\": \"value\" \x7d);" := by
    decide +kernel
  refine ⟨hcall, ?_⟩
  rw [example_eq_statement, hcall, DocComment.starred, toList_of_chars
    (s := "const result = await client.list_pets(\x7b \"a\u2028b\": \"value\" \x7d);" ++ "\n" ++
      afterCall) (by
      unfold afterCall
      repeat first | apply append_of_chars | rfl)]
  decide +kernel

end TypedClient.Call
