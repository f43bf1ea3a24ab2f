import TypedClient.Proofs.Generated
import TypedClient.Proofs.TopLevelNames

/-!
# Texts that can be encoded

A text without lone surrogates can be written to a file. Indentation and the spaces for tabs do not
matter, and neither does the fixed text of the client: whether a file can be written is decided by
the texts that come from the description. The client file of one without schemas and without
endpoints has them in its name, its source and its address (`Interface.isEncodable_clientFile`).
-/

namespace TypedClient

namespace Text

theorem isEncodable_iff {text : String} :
    isEncodable text = true ↔ ∀ c ∈ text.toList, isStandIn c = false := by
  simp [isEncodable]

/-- A fixed text is judged by its characters. -/
theorem isEncodable_of_chars {text : String} {cs : List Char} (h : text = String.ofList cs)
    (hcs : cs.any isStandIn = false) : isEncodable text = true := by
  rw [isEncodable, toList_of_chars h, hcs]
  rfl

theorem isEncodable_append {s t : String} (hs : isEncodable s = true)
    (ht : isEncodable t = true) : isEncodable (s ++ t) = true := by
  rw [isEncodable_iff] at hs ht ⊢
  rw [String.toList_append, List.forall_mem_append]
  exact ⟨hs, ht⟩

theorem isEncodable_join {texts : List String} (h : ∀ text ∈ texts, isEncodable text = true) :
    isEncodable (String.join texts) = true := by
  induction texts with
  | nil => rfl
  | cons s texts ih =>
    rw [List.forall_mem_cons] at h
    rw [String.join_cons]
    exact isEncodable_append h.1 (ih h.2)

/-- Further spaces in a text do not matter. -/
theorem isEncodable_of_mem {s t : String} (h : ∀ c ∈ t.toList, c ∈ s.toList ∨ c = ' ')
    (hs : isEncodable s = true) : isEncodable t = true := by
  rw [isEncodable_iff] at hs ⊢
  intro c hc
  rcases h c hc with hmem | rfl
  · exact hs c hmem
  · decide

theorem isEncodable_expandTabs {s : String} (h : isEncodable s = true) :
    isEncodable (expandTabs s) = true := by
  refine isEncodable_of_mem (fun c hc => ?_) h
  rw [expandTabs, String.toList_ofList, List.mem_flatMap] at hc
  obtain ⟨d, hd, hc⟩ := hc
  split at hc
  · exact .inr (by simpa using hc)
  · exact .inl (List.mem_singleton.1 hc ▸ hd)

theorem isEncodable_indentBlock {s : String} (h : isEncodable s = true) (level : Int) :
    isEncodable (indentBlock s level) = true := by
  refine isEncodable_of_mem (fun c hc => ?_) h
  rw [indentBlock, String.toList_ofList, List.mem_flatMap] at hc
  obtain ⟨line, hline, hc⟩ := hc
  have hmem (hc : c ∈ line) : c ∈ s.toList := by
    rw [← flatten_lines s.toList]
    exact List.mem_flatten.2 ⟨line, hline, hc⟩
  unfold indentLine at hc
  split at hc
  · exact .inl (hmem hc)
  · exact (List.mem_append.1 hc).symm.imp hmem eq_space_of_mem_indent

theorem isEncodable_indent (level : Int) : isEncodable (indent level) = true :=
  isEncodable_of_mem (s := "") (fun _ hc => .inr (eq_space_of_mem_indent hc)) rfl

theorem isEncodable_ofLines {lines : List String} (h : ∀ line ∈ lines, isEncodable line = true) :
    isEncodable (Scaffold.ofLines lines) = true := by
  refine isEncodable_join fun text htext => ?_
  obtain ⟨line, hline, rfl⟩ := List.mem_map.1 htext
  exact isEncodable_append (h line hline) rfl

end Text

namespace Interface

open Text

theorem isEncodable_headerLines : ∀ line ∈ Scaffold.headerOpening ++ Scaffold.headerRest ++
    Scaffold.resultTypes, isEncodable line = true :=
  forall_mem_of_chars (P := fun cs => (!cs.any isStandIn) = true) (by repeat constructor)
    (by decide +kernel)

theorem isEncodable_classLines : ∀ line ∈ Scaffold.constructorLines ++ Scaffold.authMethods ++
    Scaffold.interceptorMethods ++ Scaffold.retryMethods ++ Scaffold.internalFetch,
    isEncodable line = true :=
  forall_mem_of_chars (P := fun cs => (!cs.any isStandIn) = true)
    (by repeat first | apply append_of_chars | constructor) (by decide +kernel)

theorem isEncodable_scaffold : ∀ text ∈ scaffold, isEncodable text = true := by
  have hlines := isEncodable_classLines
  simp only [List.forall_mem_append] at hlines
  obtain ⟨⟨⟨⟨hconstructor, hauth⟩, hinterceptors⟩, hretry⟩, hfetch⟩ := hlines
  intro text htext
  simp only [scaffold, List.map_cons, List.map_nil, List.mem_cons, List.not_mem_nil, or_false]
    at htext
  rcases htext with rfl | rfl | rfl | rfl | rfl
  · exact isEncodable_ofLines hconstructor
  · exact isEncodable_ofLines hauth
  · exact isEncodable_ofLines hinterceptors
  · exact isEncodable_ofLines hretry
  · exact isEncodable_ofLines hfetch

variable {i : Interface}

theorem isEncodable_header (hsource : ∀ line ∈ i.sourceLines, isEncodable line = true) :
    isEncodable i.header = true := by
  have hlines := isEncodable_headerLines
  simp only [List.forall_mem_append] at hlines
  obtain ⟨⟨hopening, hrest⟩, hresults⟩ := hlines
  refine isEncodable_ofLines ?_
  simp only [List.forall_mem_append]
  exact ⟨⟨⟨hopening, hsource⟩, hrest⟩, hresults⟩

theorem isEncodable_fields (hbase : isEncodable (asciiQuoted i.baseUrl) = true) (level : Int) :
    isEncodable (i.fields level) = true := by
  have htail : ∀ line ∈ i.fieldLines.tail, isEncodable line = true :=
    forall_mem_of_chars (P := fun cs => (!cs.any isStandIn) = true)
      (by repeat first | apply append_of_chars | constructor) (by decide +kernel)
  have hlines : ∀ line ∈ i.fieldLines, isEncodable line = true :=
    List.forall_mem_cons.2 ⟨isEncodable_append (isEncodable_append
      (isEncodable_of_chars rfl (by decide)) hbase) rfl, htail⟩
  refine isEncodable_append (isEncodable_join fun text htext => ?_) rfl
  obtain ⟨line, hline, rfl⟩ := List.mem_map.1 htext
  exact isEncodable_append (isEncodable_append (isEncodable_indent level) (hlines line hline)) rfl

theorem isEncodable_classText (hname : isEncodable i.className = true)
    (hbase : isEncodable (asciiQuoted i.baseUrl) = true) {methods : List String}
    (hmethods : ∀ text ∈ methods, isEncodable text = true) (level : Int) :
    isEncodable (i.classText methods level) = true := by
  have hopening :
      isEncodable (indent level ++ "export class " ++ i.className ++ " \x7b\n") = true :=
    isEncodable_append (isEncodable_append (isEncodable_append (isEncodable_indent level)
      (isEncodable_of_chars rfl (by decide))) hname) rfl
  have hscaffold : isEncodable (String.join (scaffold.map (indentBlock · (level + 1)))) = true := by
    refine isEncodable_join fun text htext => ?_
    obtain ⟨block, hblock, rfl⟩ := List.mem_map.1 htext
    exact isEncodable_indentBlock (isEncodable_scaffold block hblock) _
  have hbody := isEncodable_append (isEncodable_append (isEncodable_append hopening
    (isEncodable_fields hbase (level + 1))) hscaffold) (isEncodable_join hmethods)
  exact isEncodable_append (isEncodable_append hbody (isEncodable_indent level)) rfl

/-- The client file of a description without schemas and without endpoints. -/
theorem isEncodable_clientFile (hnone : i.registry.entries = [])
    (hname : isEncodable i.className = true)
    (hsource : ∀ line ∈ i.sourceLines, isEncodable line = true)
    (hbase : isEncodable (asciiQuoted i.baseUrl) = true) (name : String) :
    isEncodable (i.clientFile (i.classText [] 0) name).text = true := by
  have htypes : isEncodable i.types = true := by
    unfold types
    rw [hnone]
    exact isEncodable_append (isEncodable_of_chars rfl (by decide)) rfl
  have hexport : isEncodable i.exportLine = true :=
    isEncodable_append (isEncodable_append (isEncodable_of_chars rfl (by decide)) hname) rfl
  refine isEncodable_join fun text htext => ?_
  have harranged : (i.clientFile (i.classText [] 0) name).arranged =
      [⟨0, i.header⟩, ⟨1, i.types⟩, ⟨2, i.classText [] 0⟩, ⟨3, i.exportLine⟩] := rfl
  simp only [harranged, List.map_cons, List.map_nil, List.mem_cons, List.not_mem_nil, or_false]
    at htext
  rcases htext with rfl | rfl | rfl | rfl
  · exact isEncodable_expandTabs (isEncodable_header hsource)
  · exact isEncodable_expandTabs htypes
  · exact isEncodable_expandTabs (isEncodable_classText hname hbase (List.forall_mem_nil _) 0)
  · exact isEncodable_expandTabs hexport

end Interface

end TypedClient
