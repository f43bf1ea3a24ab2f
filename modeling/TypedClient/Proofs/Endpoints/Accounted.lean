import TypedClient.Proofs.Endpoints.Extracted

/-!
# Parameters that are accounted for

Every map among the parameters is heard of again: it gives one parameter or one notice
(`Extraction.Contributes`), and nothing else gives either. What a list of parameters gives is what
its items give, one after another, so no parameter is lost without a notice
(`Extraction.readParameters_accounts`).
-/

namespace TypedClient

namespace Value

def isMap : Value → Bool
  | .map _ => true
  | _ => false

end Value

namespace Extraction

/-- What a map that describes a parameter gives. Its location is looked at before its name. -/
inductive Gives (fields : List (Value × Value)) : Reported Parameter → Prop
  | kept {p : Parameter} : IsKept fields → Describes fields p → Gives fields ⟨[p], []⟩
  | unsupported : (∀ l : Location, Value.get fields "in" ≠ .text l.keyword) →
    Gives fields ⟨[], [.unsupportedLocation (Value.get fields "name") (Value.get fields "in")]⟩
  | nameless {l : Location} : Value.get fields "in" = .text l.keyword →
    (Value.get fields "name").isTruthy = false → Gives fields ⟨[], [.namelessParameter]⟩

/-- What an item among the parameters gives. A reference is resolved before anything else. -/
inductive Contributes (named : List (String × Value)) : Value → Reported Parameter → Prop
  | described {raw : Value} {fields : List (Value × Value)} {r : Reported Parameter} :
    StandsFor named raw fields → Gives fields r → Contributes named raw r
  | unresolved {fields : List (Value × Value)} :
    (∀ target, ¬ StandsFor named (.map fields) target) →
    Contributes named (.map fields) ⟨[], [.unresolvedParameter (Value.get fields "$ref")]⟩
  | ignored {raw : Value} : (∀ fields, raw ≠ .map fields) → Contributes named raw ⟨[], []⟩

variable {named : List (String × Value)} {fields : List (Value × Value)} {raw : Value}
  {r : Reported Parameter}

/-! ## One item -/

theorem location?_keyword (l : Location) : location? (.text l.keyword) = some l := by
  cases l <;> decide

theorem parameter_of_describes {p : Parameter} (hkept : IsKept fields) (hp : Describes fields p) :
    parameter fields = .ok (.kept p) := by
  obtain ⟨name, location, required, description, schema⟩ := p
  obtain ⟨htexts, hname, hin, hrequired, hdescription, hschema⟩ := hp
  simp only at hname hin hrequired hdescription hschema
  unfold parameter
  rw [hin, location?_keyword, hname, hrequired, hdescription]
  simp only [hkept.name, if_true]
  rw [← parameterTexts, Value.requireTexts_eq_ok.2 htexts]
  cases hfind : Value.find? fields "schema" with
  | none =>
    rw [hfind] at hschema
    rw [hschema]
    rfl
  | some v =>
    rw [hfind] at hschema
    obtain ⟨s, hs, rfl⟩ := hschema
    simp only [readSchema, hs]
    rfl

theorem parameter_of_unsupported
    (h : ∀ l : Location, Value.get fields "in" ≠ .text l.keyword) :
    parameter fields = .ok (.dropped (.unsupportedLocation (Value.get fields "name")
      (Value.get fields "in"))) := by
  rw [parameter, location?_eq_none.2 h]

theorem parameter_of_nameless {l : Location} (hin : Value.get fields "in" = .text l.keyword)
    (hname : (Value.get fields "name").isTruthy = false) :
    parameter fields = .ok (.dropped .namelessParameter) := by
  rw [parameter, hin, location?_keyword, hname]
  rfl

/-- A map that describes a parameter is read if it gives something. -/
theorem parameter_gives_iff :
    (∃ i, parameter fields = .ok i ∧ report [i] = r) ↔ Gives fields r := by
  constructor
  · rintro ⟨i, hi, rfl⟩
    rcases parameter_eq_ok hi with ⟨p, rfl, hkept, hp⟩ | ⟨-, hnot⟩
    · exact .kept hkept hp
    · by_cases hlocation : ∃ l : Location, Value.get fields "in" = .text l.keyword
      · obtain ⟨l, hin⟩ := hlocation
        have hname : (Value.get fields "name").isTruthy = false := by
          simpa using fun hname => hnot ⟨⟨l, hin⟩, hname⟩
        cases (parameter_of_nameless hin hname).symm.trans hi
        exact .nameless hin hname
      · have hnone := not_exists.1 hlocation
        cases (parameter_of_unsupported hnone).symm.trans hi
        exact .unsupported hnone
  · rintro (⟨hkept, hp⟩ | hnone | ⟨hin, hname⟩)
    · exact ⟨_, parameter_of_describes hkept hp, rfl⟩
    · exact ⟨_, parameter_of_unsupported hnone, rfl⟩
    · exact ⟨_, parameter_of_nameless hin hname, rfl⟩

theorem item_of_standsFor (h : StandsFor named raw fields) :
    item named raw = parameter fields := by
  cases h with
  | own href => simp only [item, href]
  | named href htarget =>
    have htarget := (parameterTarget?_eq_some named).2 ⟨_, rfl, htarget⟩
    simp only [item, href, htarget]

theorem item_of_unresolved (h : ∀ target, ¬ StandsFor named (.map fields) target) :
    item named (.map fields) = .ok (.dropped (.unresolvedParameter (Value.get fields "$ref"))) := by
  simp only [standsFor_map_iff, not_or] at h
  simp only [item]
  split
  · rename_i href
    exact absurd ⟨href, rfl⟩ (h fields).1
  · split
    · rename_i target htarget
      exact absurd htarget (h target).2
    · rfl

theorem item_of_not_map (h : ∀ fields, raw ≠ .map fields) : item named raw = .ok .ignored := by
  cases raw with
  | map fields => exact absurd rfl (h fields)
  | _ => rfl

theorem item_contributes_iff :
    (∃ i, item named raw = .ok i ∧ report [i] = r) ↔ Contributes named raw r := by
  constructor
  · intro h
    by_cases hmap : ∃ fields, raw = .map fields
    · obtain ⟨fields, rfl⟩ := hmap
      by_cases hfor : ∃ target, StandsFor named (.map fields) target
      · obtain ⟨target, hfor⟩ := hfor
        rw [item_of_standsFor hfor] at h
        exact .described hfor (parameter_gives_iff.1 h)
      · have hnone := not_exists.1 hfor
        rw [item_of_unresolved hnone] at h
        obtain ⟨i, hi, rfl⟩ := h
        cases hi
        exact .unresolved hnone
    · have hnot := not_exists.1 hmap
      rw [item_of_not_map hnot] at h
      obtain ⟨i, hi, rfl⟩ := h
      cases hi
      exact .ignored hnot
  · rintro (⟨hfor, hgives⟩ | hnone | hnot)
    · rw [item_of_standsFor hfor]
      exact parameter_gives_iff.2 hgives
    · exact ⟨_, item_of_unresolved hnone, rfl⟩
    · exact ⟨_, item_of_not_map hnot, rfl⟩

theorem Contributes.unique {r' : Reported Parameter} (h : Contributes named raw r)
    (h' : Contributes named raw r') : r = r' := by
  obtain ⟨i, hi, rfl⟩ := item_contributes_iff.2 h
  obtain ⟨i', hi', rfl⟩ := item_contributes_iff.2 h'
  cases hi.symm.trans hi'
  rfl

/-- A map gives one parameter or one notice, and nothing else gives either. -/
theorem Contributes.length (h : Contributes named raw r) :
    r.items.length + r.notices.length = if raw.isMap then 1 else 0 := by
  cases h with
  | described hfor hgives =>
    have hmap : raw.isMap = true := by cases hfor <;> rfl
    rw [hmap]
    cases hgives <;> rfl
  | unresolved => rfl
  | ignored hnot =>
    cases raw with
    | map fields => exact absurd rfl (hnot fields)
    | _ => rfl

/-! ## A list of items -/

theorem report_eq_joined (items : List Item) :
    report items = joined (items.map fun i => report [i]) := by
  induction items with
  | nil => rfl
  | cons i items ih =>
    rw [List.map_cons, show joined _ = (report [i]).append (joined _) from rfl, ← ih]
    cases i <;> rfl

theorem report_append (items more : List Item) :
    report (items ++ more) = (report items).append (report more) := by
  simp only [report, Reported.append, List.filterMap_append]

/-- A list of parameters is read if each item contributes something, and gives all of it. -/
theorem readParameters_eq_ok_iff {raws : List Value} : readParameters named (.list raws) = .ok r ↔
    ∃ pieces, List.Forall₂ (Contributes named) raws pieces ∧ r = joined pieces := by
  constructor
  · intro h
    obtain ⟨_, hraws, h⟩ := exists_of_bind_eq_ok h
    cases hraws
    obtain ⟨items, hitems, h⟩ := exists_of_bind_eq_ok h
    cases h
    refine ⟨items.map fun i => report [i], ?_, report_eq_joined items⟩
    rw [List.forall₂_map_right_iff]
    exact (forall₂_of_mapM_eq_ok hitems).imp fun raw i hi => item_contributes_iff.1 ⟨i, hi, rfl⟩
  · rintro ⟨pieces, hpieces, rfl⟩
    have hread : ∃ items, raws.mapM (item named) = .ok items ∧
        pieces = items.map fun i => report [i] := by
      -- An item that contributes something is read, so the list is read item by item.
      induction hpieces with
      | nil => exact ⟨[], rfl, rfl⟩
      | cons hpiece _ ih =>
        obtain ⟨i, hi, rfl⟩ := item_contributes_iff.2 hpiece
        obtain ⟨items, hitems, rfl⟩ := ih
        refine ⟨i :: items, ?_, rfl⟩
        rw [List.mapM_cons, hi, hitems]
        rfl
    obtain ⟨items, hitems, rfl⟩ := hread
    rw [← report_eq_joined]
    show raws.mapM (item named) >>= _ = _
    rw [hitems]
    rfl

theorem length_joined {raws : List Value} {pieces : List (Reported Parameter)}
    (h : List.Forall₂ (Contributes named) raws pieces) :
    (joined pieces).items.length + (joined pieces).notices.length = raws.countP Value.isMap := by
  induction h with
  | nil => rfl
  | @cons raw piece raws pieces hpiece _ ih =>
    have hlength := hpiece.length
    have hjoined : joined (piece :: pieces) = piece.append (joined pieces) := rfl
    rw [hjoined, List.countP_cons, ← ih, ← hlength, Reported.append, List.length_append,
      List.length_append]
    omega

theorem readParameters_append (raws more : List Value) :
    readParameters named (.list (raws ++ more)) = (do
      let found ← readParameters named (.list raws)
      let rest ← readParameters named (.list more)
      return found.append rest) := by
  have hread (items : List Value) : readParameters named (.list items) =
      (items.mapM (item named)).map report := by
    rw [readParameters]
    show items.mapM (item named) >>= _ = _
    cases items.mapM (item named) <;> rfl
  rw [hread, hread, hread, List.mapM_append]
  rcases raws.mapM (item named) with e | items
  · rfl
  · rcases more.mapM (item named) with e | items'
    · rfl
    · exact congrArg Except.ok (report_append items items')

/-- What becomes of a list of parameters: it is read exactly if every item contributes something,
and gives the contributions one after another. Each map contributes one parameter or one notice, in
one way only, and anything else neither, so the parameters and the notices are as many as the maps.
Lists that are put together give what they give one after another. -/
theorem readParameters_accounts (named : List (String × Value)) (raws : List Value) :
    (∀ found, readParameters named (.list raws) = .ok found ↔
      ∃ pieces, List.Forall₂ (Contributes named) raws pieces ∧ found = joined pieces) ∧
    (∀ raw piece, Contributes named raw piece →
      (piece.items.length + piece.notices.length = if raw.isMap then 1 else 0) ∧
      ∀ piece', Contributes named raw piece' → piece' = piece) ∧
    (∀ found, readParameters named (.list raws) = .ok found →
      found.items.length + found.notices.length = raws.countP Value.isMap) ∧
    ∀ more, readParameters named (.list (raws ++ more)) = (do
      let found ← readParameters named (.list raws)
      let rest ← readParameters named (.list more)
      return found.append rest) := by
  refine ⟨fun found => readParameters_eq_ok_iff, fun raw piece h => ⟨h.length, ?_⟩, ?_, ?_⟩
  · exact fun piece' h' => h'.unique h
  · intro found h
    obtain ⟨pieces, hpieces, rfl⟩ := readParameters_eq_ok_iff.1 h
    exact length_joined hpieces
  · exact readParameters_append raws

/-- Parameters of each sort: one that is kept, a value that is no map, references to nothing and to
a parameter, a location that is not supported, and an empty name. -/
def mixedParameters : List Value := [
  .map [(.text "name", .text "size"), (.text "in", .text "query")],
  .int 1,
  .map [(.text "$ref", .text "#/components/parameters/Gone"), (.text "name", .text "gone")],
  .map [(.text "$ref", .text "#/components/parameters/Page")],
  .map [(.text "in", .text "body")],
  .map [(.text "in", .text "path"), (.text "name", .text "")]]

def pageParameter : List (String × Value) :=
  [("Page", .map [(.text "name", .text "page"), (.text "in", .text "header")])]

/-- Two of the five maps are kept in their order, three are reported, and the reference gives the
parameter that it refers to. -/
theorem readParameters_accounts_mixed :
    ∃ found, readParameters pageParameter (.list mixedParameters) = .ok found ∧
      found.items.map Parameter.name = ["size", "page"] ∧
      found.items.length + found.notices.length = 5 ∧
      (∃ pieces, List.Forall₂ (Contributes pageParameter) mixedParameters pieces ∧
        found = joined pieces) ∧
      readParameters pageParameter (.list (mixedParameters ++ mixedParameters)) =
        .ok (found.append found) := by
  have hshown : (readParameters pageParameter (.list mixedParameters)).map
      (fun found => found.items.map Parameter.name) = .ok ["size", "page"] := rfl
  obtain ⟨found, hfound, hnames⟩ := exists_of_map_eq_ok hshown
  obtain ⟨hpieces, -, hcount, happend⟩ := readParameters_accounts pageParameter mixedParameters
  refine ⟨found, hfound, hnames, hcount found hfound, (hpieces found).1 hfound, ?_⟩
  rw [happend, hfound]
  rfl

end Extraction

end TypedClient
