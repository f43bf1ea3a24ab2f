import TypedClient.Proofs.Accepted

/-!
# Complaints about a description

Checks that are put together complain about all that they are put together from, one after another,
so the complaints about a description are those about its fields (`Document.complaints_check`), and
what is wrong with one field neither hides nor adds any about another
(`Document.complaintsAbout_of_change`). A failed check always has something to complain about, and
every complaint is about the place that is checked or one within it (`Checked.About`).
-/

namespace TypedClient

namespace Checked

variable {α β : Type} {place place' : List String}

theorem complaints_map (c : Checked α) (f : α → β) :
    complaints (c.map f : Checked β) = c.complaints := by
  cases c <;> rfl

theorem complaints_both (a : Checked α) (b : Checked β) :
    (both a b).complaints = a.complaints ++ b.complaints := by
  cases a <;> cases b <;> rfl

/-- A check that fails only with complaints, all of them about a place or what lies within it. -/
structure About (place : List String) (c : Checked α) : Prop where
  accepted : c.complaints = [] → ∃ a, c = .ok a
  within : ∀ m ∈ c.complaints, place <+: m.place

namespace About

theorem ok (a : α) : About place (.ok a) where
  accepted _ := ⟨a, rfl⟩
  within := nofun

theorem refuse (h : place <+: place') (expected : Expectation) :
    About place (refuse place' expected : Checked α) where
  accepted := nofun
  within _ hm := List.mem_singleton.1 hm ▸ h

theorem mono {c : Checked α} (hc : About place' c) (h : place <+: place') : About place c where
  accepted := hc.accepted
  within m hm := h.trans (hc.within m hm)

theorem map {c : Checked α} (hc : About place c) (f : α → β) :
    About place (c.map f : Checked β) where
  accepted h := by
    rw [complaints_map] at h
    obtain ⟨a, rfl⟩ := hc.accepted h
    exact ⟨f a, rfl⟩
  within := by
    rw [complaints_map]
    exact hc.within

theorem both {a : Checked α} {b : Checked β} (ha : About place a) (hb : About place b) :
    About place (both a b) where
  accepted h := by
    rw [complaints_both, List.append_eq_nil_iff] at h
    obtain ⟨x, rfl⟩ := ha.accepted h.1
    obtain ⟨y, rfl⟩ := hb.accepted h.2
    exact ⟨(x, y), rfl⟩
  within m hm := by
    rw [complaints_both, List.mem_append] at hm
    exact hm.elim (ha.within m) (hb.within m)

theorem all {cs : List (Checked α)} (h : ∀ c ∈ cs, About place c) : About place (all cs) := by
  induction cs with
  | nil => exact ok []
  | cons c cs ih =>
    obtain ⟨hc, hcs⟩ := List.forall_mem_cons.1 h
    exact (hc.both (ih hcs)).map _

end About

end Checked

open Checked

namespace Validation

variable {α : Type} {rule : TextRule} {read : List String → Value → Checked α}
  {place : List String}

theorem about_required {read : Value → Checked α} (h : ∀ v, About place (read v)) :
    ∀ v, About place (required place read v)
  | none => .refuse List.prefix_rfl .present
  | some v => h v

theorem about_withDefault {read : Value → Checked α} (default : α)
    (h : ∀ v, About place (read v)) : ∀ v, About place (withDefault default read v)
  | none => .ok default
  | some v => h v

theorem about_nullable {read : Value → Checked α} (h : ∀ v, About place (read v)) (v : Value) :
    About place (nullable read v) := by
  unfold nullable
  split
  · exact .ok none
  · exact (h _).map some

theorem about_text (v : Value) : About place (text rule place v) := by
  unfold text
  split
  · exact .ok _
  · exact .refuse List.prefix_rfl .text

theorem about_entry (h : ∀ place v, About place (read place v)) (e : Value × Value) :
    About place (entry rule place read e) := by
  -- The key is checked at a place of its own within that of the entry.
  have hkey : About (place ++ [keyPlace e.1])
      (text rule (place ++ [keyPlace e.1] ++ ["[key]"]) e.1) :=
    (about_text e.1).mono (List.prefix_append _ _)
  exact (hkey.both (h _ e.2)).mono (List.prefix_append _ _)

theorem about_map (h : ∀ place v, About place (read place v)) (v : Value) :
    About place (map rule read place v) := by
  unfold map
  split
  · refine (About.all fun c hc => ?_).map _
    obtain ⟨e, -, rfl⟩ := List.mem_map.1 hc
    exact about_entry h e
  · exact .refuse List.prefix_rfl .map

theorem about_anything (place : List String) (v : Value) : About place (anything place v) :=
  .ok v

theorem about_info (v : Value) : About place (info place v) := by
  unfold info
  split
  · refine About.map (.both ?_ (.both ?_ ?_)) _
    · exact (about_required about_text _).mono (List.prefix_append _ _)
    · exact (about_required about_text _).mono (List.prefix_append _ _)
    · exact (about_withDefault none (about_nullable about_text) _).mono (List.prefix_append _ _)
  · exact .refuse List.prefix_rfl _

theorem about_server (v : Value) : About place (server place v) := by
  unfold server
  split
  · refine About.map (.both ?_ ?_) _
    · exact (about_required about_text _).mono (List.prefix_append _ _)
    · exact (about_withDefault none (about_nullable about_text) _).mono (List.prefix_append _ _)
  · exact .refuse List.prefix_rfl _

theorem about_servers (v : Value) : About place (servers place v) := by
  unfold servers
  split
  · refine About.all fun c hc => ?_
    obtain ⟨i, hi, rfl⟩ := List.mem_mapIdx.1 hc
    exact (about_server _).mono (List.prefix_append _ _)
  · exact .refuse List.prefix_rfl .list

theorem about_paths (v : Value) : About place (paths place v) :=
  about_map (fun _ => about_map about_anything) v

theorem about_components (v : Value) : About place (components place v) := by
  unfold components
  split
  · refine About.map (.both ?_ ?_) _
    · exact (about_withDefault [] (about_map about_anything) _).mono (List.prefix_append _ _)
    · exact (about_withDefault [] (about_map about_anything) _).mono (List.prefix_append _ _)
  · exact .refuse List.prefix_rfl _

end Validation

namespace Document

open Validation

inductive Field where
  | openapi | info | servers | paths | components
  deriving DecidableEq

namespace Field

/-- The fields in the order in which they are checked. -/
def all : List Field := [.openapi, .info, .servers, .paths, .components]

theorem mem_all (field : Field) : field ∈ all := by
  cases field <;> decide

def key : Field → String
  | .openapi => "openapi"
  | .info => "info"
  | .servers => "servers"
  | .paths => "paths"
  | .components => "components"

/-- What is read of a field. -/
def Content : Field → Type
  | .openapi => String
  | .info => Info
  | .servers => List Server
  | .paths => List (String × List (String × Value))
  | .components => Option Components

/-- The check of a field, from what stands under its key alone. -/
def check : (field : Field) → Option Value → Checked field.Content
  | .openapi => required ["openapi"] (text .numbersToo ["openapi"])
  | .info => required ["info"] (Validation.info ["info"])
  | .servers => withDefault [] (Validation.servers ["servers"])
  | .paths => required ["paths"] (Validation.paths ["paths"])
  | .components => withDefault none (nullable (Validation.components ["components"]))

/-- A complaint about a field names it. -/
theorem about (field : Field) (v : Option Value) : About [field.key] (field.check v) := by
  cases field with
  | openapi => exact about_required about_text v
  | info => exact about_required about_info v
  | servers => exact about_withDefault [] about_servers v
  | paths => exact about_required about_paths v
  | components => exact about_withDefault none (about_nullable about_components) v

end Field

/-- The complaints about a description: those about its fields, one field after another. -/
def complaintsAbout (fields : List (Value × Value)) : List Complaint :=
  Field.all.flatMap fun field => (field.check (Value.find? fields field.key)).complaints

variable {fields fields' : List (Value × Value)}

theorem complaints_check (fields : List (Value × Value)) :
    (check fields).complaints = complaintsAbout fields := by
  simp only [check, complaints_map, complaints_both, complaintsAbout, Field.all, List.flatMap_cons,
    List.flatMap_nil, List.append_nil]
  rfl

theorem about_check (fields : List (Value × Value)) : About [] (check fields) := by
  have hfield (field : Field) : About [] (field.check (Value.find? fields field.key)) :=
    (field.about _).mono List.nil_prefix
  exact ((hfield .openapi).both ((hfield .info).both ((hfield .servers).both
    ((hfield .paths).both (hfield .components))))).map _

/-- A description is accepted if there is nothing to complain about. -/
theorem exists_ofValue_iff :
    (∃ doc, ofValue (.map fields) = .ok doc) ↔ complaintsAbout fields = [] := by
  rw [← complaints_check]
  constructor
  · rintro ⟨doc, h⟩
    rw [mapError_eq_ok.1 h]
    rfl
  · intro h
    obtain ⟨doc, hdoc⟩ := (about_check fields).accepted h
    exact ⟨doc, mapError_eq_ok.2 hdoc⟩

theorem ofValue_eq_error_iff {fault : DocumentFault} : ofValue (.map fields) = .error fault ↔
    fault = .invalid (complaintsAbout fields) ∧ complaintsAbout fields ≠ [] := by
  have hcomplaints := complaints_check fields
  have hok := @exists_ofValue_iff fields
  rw [ofValue] at hok ⊢
  rcases hcheck : check fields with cs | doc
  · rw [hcheck] at hok hcomplaints
    have hcs : cs = complaintsAbout fields := hcomplaints
    have hne : complaintsAbout fields ≠ [] := fun hnil => by
      obtain ⟨_, h⟩ := hok.2 hnil
      cases h
    rw [← hcs] at hne ⊢
    simp [Except.mapError, hne, eq_comm]
  · rw [hcheck] at hok
    have hnil := hok.1 ⟨doc, rfl⟩
    simp [Except.mapError, hnil]

/-- If only one field is changed, only the complaints about it change, and stay in their place. -/
theorem complaintsAbout_of_change {field : Field} (h : ∀ other : Field, other ≠ field →
    Value.find? fields' other.key = Value.find? fields other.key) :
    ∃ before after,
      complaintsAbout fields =
        before ++ (field.check (Value.find? fields field.key)).complaints ++ after ∧
      complaintsAbout fields' =
        before ++ (field.check (Value.find? fields' field.key)).complaints ++ after := by
  -- Each field is checked once, so all others stand before it or after it.
  have hsplit : ∃ before after, Field.all = before ++ field :: after ∧
      (∀ other ∈ before, other ≠ field) ∧ ∀ other ∈ after, other ≠ field := by
    cases field with
    | openapi => exact ⟨[], [.info, .servers, .paths, .components], by decide⟩
    | info => exact ⟨[.openapi], [.servers, .paths, .components], by decide⟩
    | servers => exact ⟨[.openapi, .info], [.paths, .components], by decide⟩
    | paths => exact ⟨[.openapi, .info, .servers], [.components], by decide⟩
    | components => exact ⟨[.openapi, .info, .servers, .paths], [], by decide⟩
  obtain ⟨before, after, hall, hbefore, hafter⟩ := hsplit
  have hsame {others : List Field} (hothers : ∀ other ∈ others, other ≠ field) :
      others.flatMap (fun f => (f.check (Value.find? fields' f.key)).complaints) =
        others.flatMap fun f => (f.check (Value.find? fields f.key)).complaints := by
    refine List.flatMap_congr fun other hother => ?_
    rw [h other (hothers other hother)]
  refine ⟨before.flatMap fun f => (f.check (Value.find? fields f.key)).complaints,
    after.flatMap fun f => (f.check (Value.find? fields f.key)).complaints, ?_, ?_⟩
  · rw [complaintsAbout, hall, List.flatMap_append, List.flatMap_cons, List.append_assoc]
  · rw [complaintsAbout, hall, List.flatMap_append, List.flatMap_cons, List.append_assoc,
      hsame hbefore, hsame hafter]

end Document

end TypedClient
