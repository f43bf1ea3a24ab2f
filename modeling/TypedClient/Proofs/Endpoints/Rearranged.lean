import TypedClient.Proofs.Endpoints.Extracted
import TypedClient.Proofs.Lookup

/-!
# Endpoints of a rearranged description

Extraction looks up the keys of a path and of an operation one by one, so it does not see in which
order they stand: a description with the keys of its paths and operations in another order
(`Rearranges`) is accepted if the first one is, and its endpoints and the notices about them are the
same (`Rearranges.endpoints`). Together with the order in which endpoints are extracted this is
`Document.endpoints_match_operations`.
-/

namespace TypedClient

open Extraction Validation

/-! ## Keys in another order -/

namespace Value

/-- Entries with the same keys in the same places, whose values under each key are related. -/
def Entrywise (R : Value → Value → Value → Prop) : (es es' : List (Value × Value)) → Prop :=
  List.Forall₂ fun e e' => e.1 = e'.1 ∧ R e.1 e.2 e'.2

/-- A map with its keys in another order. -/
inductive Shuffled : Value → Value → Prop
  | map {es es' : List (Value × Value)} : Distinct es → es.Perm es' → Shuffled (.map es) (.map es')

/-- The value under a key that is or is not a verb: if it is one, its keys may stand in another
order. -/
def OperationShuffled (key v v' : Value) : Prop :=
  v = v' ∨ (∃ verb : Verb, key = .text verb.keyword) ∧ Shuffled v v'

/-- A path with its keys, and with those of its operations, in another order. -/
inductive PathShuffled : Value → Value → Prop
  | same (v : Value) : PathShuffled v v
  | map {es mid es' : List (Value × Value)} : Distinct es → es.Perm mid →
    Entrywise OperationShuffled mid es' → PathShuffled (.map es) (.map es')

/-- The value under a key of a description: if it is the one of the paths, they may have their keys
in another order. -/
inductive FieldShuffled : Value → Value → Value → Prop
  | same (key v : Value) : FieldShuffled key v v
  | paths {ps ps' : List (Value × Value)} : Entrywise (fun _ => PathShuffled) ps ps' →
    FieldShuffled (.text "paths") (.map ps) (.map ps')

/-- A description with the keys of its paths and operations in another order. -/
inductive Rearranges : Value → Value → Prop
  | map {fields fields' : List (Value × Value)} : Entrywise FieldShuffled fields fields' →
    Rearranges (.map fields) (.map fields')

variable {R : Value → Value → Value → Prop} {es es' : List (Value × Value)}

theorem Entrywise.find? (h : Entrywise R es es') (key : String) :
    Option.Rel (R (.text key)) (find? es key) (find? es' key) := by
  induction h with
  | nil => exact .none
  | @cons e e' es es' he _ ih =>
    obtain ⟨k, v⟩ := e
    obtain ⟨k', v'⟩ := e'
    obtain ⟨rfl, hv⟩ : k = k' ∧ R k v v' := he
    by_cases hk : k = .text key
    · subst hk
      simpa [Value.find?, isText] using Option.Rel.some hv
    · have hk' : k.isText key = false := by simpa [← isText_eq_true] using hk
      simpa [Value.find?, hk'] using ih

theorem Entrywise.keys (h : Entrywise R es es') : es'.map Prod.fst = es.map Prod.fst := by
  induction h with
  | nil => rfl
  | cons he _ ih => rw [List.map_cons, List.map_cons, ih, he.1]

end Value

open Value

/-! ## Paths that are read alike -/

theorem eq_of_rel {α : Type} {R : α → α → Prop} (hR : ∀ a b, R a b → a = b) :
    ∀ {o o' : Option α}, Option.Rel R o o' → o = o'
  | _, _, .some h => congrArg some (hR _ _ h)
  | _, _, .none => rfl

theorem rel_imp {α : Type} {R S : α → α → Prop} (hRS : ∀ a b, R a b → S a b) :
    ∀ {o o' : Option α}, Option.Rel R o o' → Option.Rel S o o'
  | _, _, .some h => .some (hRS _ _ h)
  | _, _, .none => .none

namespace Extraction

variable {parameters : List (String × Value)}

/-- Two values that are related operations, or of which none is an operation. -/
inductive OperationAlike (S : List (Value × Value) → List (Value × Value) → Prop) :
    Value → Value → Prop
  | map {o o' : List (Value × Value)} : S o o' → OperationAlike S (.map o) (.map o')
  | other {v v' : Value} : (∀ o, v ≠ .map o) → (∀ o, v' ≠ .map o) → OperationAlike S v v'

theorem OperationAlike.refl {S : List (Value × Value) → List (Value × Value) → Prop}
    (hS : ∀ o, S o o) (v : Value) : OperationAlike S v v := by
  cases v with
  | map o => exact .map (hS o)
  | _ => exact .other nofun nofun

theorem forall₂_operations {S : List (Value × Value) → List (Value × Value) → Prop}
    {fields fields' : List (String × Value)}
    (h : ∀ verb : Verb, Option.Rel (OperationAlike S) (Assoc.find? fields verb.keyword)
      (Assoc.find? fields' verb.keyword)) :
    List.Forall₂ (fun o o' => o.1 = o'.1 ∧ S o.2 o'.2) (operations fields)
      (operations fields') := by
  refine List.rel_filterMap (R := Eq) ?_ (List.forall₂_eq_eq_eq ▸ rfl)
  rintro verb _ rfl
  have hverb := h verb
  beta_reduce
  generalize Assoc.find? fields verb.keyword = v at hverb ⊢
  generalize Assoc.find? fields' verb.keyword = v' at hverb ⊢
  rcases hverb with hv | _
  · cases hv with
    | map ho => exact .some ⟨rfl, ho⟩
    | other hv hv' =>
      split
      · rename_i o heq
        exact absurd (Option.some.inj heq) (hv o)
      · split
        · rename_i o heq
          exact absurd (Option.some.inj heq) (hv' o)
        · exact .none
  · exact .none

/-- Paths are read alike if their parameters and their operations are. -/
theorem readPath_eq_of_alike {path : String} {fields fields' : List (String × Value)}
    (hshared : readParameters parameters ((Assoc.find? fields "parameters").getD .null) =
      readParameters parameters ((Assoc.find? fields' "parameters").getD .null))
    (h : ∀ verb : Verb, Option.Rel (OperationAlike fun o o' => ∀ shared verb,
      readOperation parameters path shared verb o = readOperation parameters path shared verb o')
      (Assoc.find? fields verb.keyword) (Assoc.find? fields' verb.keyword)) :
    readPath parameters path fields = readPath parameters path fields' := by
  have hmapM (shared : List Parameter) :
      ((operations fields).mapM fun o => readOperation parameters path shared o.1 o.2) =
        (operations fields').mapM fun o => readOperation parameters path shared o.1 o.2 := by
    refine mapM_eq_of_forall₂ ((forall₂_operations h).imp fun o o' ho => ?_)
    rw [ho.1]
    exact ho.2 shared o'.1
  simp only [readPath, hshared, hmapM]

/-- Two paths of which the same is read: the same parameters, and operations with the same keys. -/
structure ReadAlike (fields fields' : List (String × Value)) : Prop where
  shared : Assoc.find? fields' "parameters" = Assoc.find? fields "parameters"
  own : ∀ verb : Verb, Option.Rel (fun v v' => v = v' ∨ Shuffled v v')
    (Assoc.find? fields verb.keyword) (Assoc.find? fields' verb.keyword)

theorem ReadAlike.refl (fields : List (String × Value)) : ReadAlike fields fields where
  shared := rfl
  own verb := by
    cases Assoc.find? fields verb.keyword with
    | none => exact .none
    | some v => exact .some (.inl rfl)

theorem readOperation_eq_of_find? {path : String} {shared : List Parameter} {verb : Verb}
    {o o' : List (Value × Value)} (h : ∀ key, Value.find? o' key = Value.find? o key) :
    readOperation parameters path shared verb o = readOperation parameters path shared verb o' := by
  have hget : Value.get o' = Value.get o := funext fun key => by rw [Value.get, h, Value.get]
  simp only [readOperation, operationId, hget]

theorem ReadAlike.readPath_eq {fields fields' : List (String × Value)}
    (h : ReadAlike fields fields') (path : String) :
    readPath parameters path fields = readPath parameters path fields' := by
  refine readPath_eq_of_alike (by rw [h.shared]) fun verb =>
    rel_imp (fun v v' hv => ?_) (h.own verb)
  rcases hv with rfl | ⟨hdistinct, hperm⟩
  · exact .refl (fun _ _ _ => rfl) v
  · exact .map fun _ _ => readOperation_eq_of_find? (find?_perm hdistinct hperm)

end Extraction

namespace Validation

variable {rule : TextRule} {place : List String} {es mid es' : List (Value × Value)}

theorem exists_pairs_iff : (∃ pairs, List.Forall₂
    (fun e p => entry rule place anything e = .ok p) es pairs) ↔
      ∀ key ∈ es.map Prod.fst, ∃ s, rule.read? key = some s := by
  induction es with
  | nil => simp
  | cons e es ih =>
    simp only [List.forall₂_cons_left_iff, List.map_cons, List.forall_mem_cons, ← ih]
    constructor
    · rintro ⟨_, p, pairs, he, hes, rfl⟩
      exact ⟨⟨p.1, (entry_eq_ok.1 he).1⟩, pairs, hes⟩
    · rintro ⟨⟨s, hs⟩, pairs, hes⟩
      exact ⟨_, (s, e.2), pairs, entry_eq_ok.2 ⟨hs, rfl⟩, hes, rfl⟩

theorem isWord_verb (verb : Verb) : IsWord verb.keyword := by
  cases verb
  · exact ⟨'g', by decide, by decide⟩
  · exact ⟨'p', by decide, by decide⟩
  · exact ⟨'p', by decide, by decide⟩
  · exact ⟨'p', by decide, by decide⟩
  · exact ⟨'d', by decide, by decide⟩

theorem isWord_parameters : IsWord "parameters" :=
  ⟨'p', by decide, by decide⟩

/-- A path is accepted with its keys in another order, and read alike. -/
theorem exists_path_of_shuffled {v v' : Value} (h : PathShuffled v v')
    {fields : List (String × Value)} (hv : map rule anything place v = .ok fields) :
    ∃ fields', map rule anything place v' = .ok fields' ∧ ReadAlike fields fields' := by
  cases h with
  | same => exact ⟨fields, hv, .refl fields⟩
  | @map es mid es' hdistinct hperm hentrywise =>
    obtain ⟨_, pairs, ⟨rfl⟩, hpairs, rfl⟩ := map_eq_ok.1 hv
    have hkeys : ∀ key ∈ es'.map Prod.fst, ∃ s, rule.read? key = some s := by
      intro key hkey
      rw [hentrywise.keys, ← (hperm.map Prod.fst).mem_iff] at hkey
      exact exists_pairs_iff.1 ⟨pairs, hpairs⟩ key hkey
    obtain ⟨pairs', hpairs'⟩ := exists_pairs_iff.2 hkeys
    have hdistinct' : Distinct es' := by
      rw [Distinct, hentrywise.keys]
      exact hdistinct.perm hperm
    have hfind {word : String} (hword : IsWord word) : Option.Rel (OperationShuffled (.text word))
        (Assoc.find? (Assoc.ofPairs pairs) word) (Assoc.find? (Assoc.ofPairs pairs') word) := by
      rw [find?_ofPairs hword hdistinct hpairs, find?_ofPairs hword hdistinct' hpairs',
        ← find?_perm hdistinct hperm]
      exact hentrywise.find? word
    refine ⟨_, map_eq_ok.2 ⟨es', pairs', rfl, hpairs', rfl⟩, ?_, fun verb => ?_⟩
    · refine (eq_of_rel (fun v v' hv => ?_) (hfind isWord_parameters)).symm
      rcases hv with rfl | ⟨⟨verb, hverb⟩, -⟩
      · rfl
      · exact absurd (Value.text.inj hverb) (by cases verb <;> decide)
    · exact rel_imp (fun v v' hv => hv.imp_right And.right) (hfind (isWord_verb verb))

/-- A map is accepted with related values under its keys if these are accepted. -/
theorem exists_map_of_entrywise {α : Type} {read : List String → Value → Checked α}
    {R : Value → Value → Value → Prop} {S : α → α → Prop}
    (hread : ∀ key v v', R key v v' → ∀ place a, read place v = .ok a →
      ∃ a', read place v' = .ok a' ∧ S a a')
    (h : Entrywise R es es') {entries : List (String × α)}
    (hes : map rule read place (.map es) = .ok entries) :
    ∃ entries', map rule read place (.map es') = .ok entries' ∧
      List.Forall₂ (fun e e' => e.1 = e'.1 ∧ S e.2 e'.2) entries entries' := by
  obtain ⟨_, pairs, ⟨rfl⟩, hpairs, rfl⟩ := map_eq_ok.1 hes
  have hentries : ∃ pairs', List.Forall₂ (fun e p => entry rule place read e = .ok p) es' pairs' ∧
      List.Forall₂ (fun p p' => p.1 = p'.1 ∧ S p.2 p'.2) pairs pairs' := by
    clear hes
    induction h generalizing pairs with
    | nil =>
      cases hpairs
      exact ⟨[], .nil, .nil⟩
    | @cons e e' es es' he _ ih =>
      obtain ⟨p, pairs, hp, hrest, rfl⟩ := List.forall₂_cons_left_iff.1 hpairs
      obtain ⟨pairs', hpairs', hsame⟩ := ih pairs hrest
      obtain ⟨hkey, hvalue⟩ := entry_eq_ok.1 hp
      obtain ⟨a', ha', hS⟩ := hread _ _ _ he.2 _ _ hvalue
      refine ⟨(p.1, a') :: pairs', .cons (entry_eq_ok.2 ?_) hpairs', .cons ⟨rfl, hS⟩ hsame⟩
      rw [← he.1]
      exact ⟨hkey, ha'⟩
  obtain ⟨pairs', hpairs', hsame⟩ := hentries
  exact ⟨_, map_eq_ok.2 ⟨es', pairs', rfl, hpairs', rfl⟩, Assoc.forall₂_ofPairs hsame⟩

/-- The paths of a description are accepted with their keys in another order, and read alike. -/
theorem exists_paths_of_shuffled {ps ps' : List (Value × Value)}
    (h : Entrywise (fun _ => PathShuffled) ps ps') {paths : List (String × List (String × Value))}
    (hps : Validation.paths place (.map ps) = .ok paths) :
    ∃ paths', Validation.paths place (.map ps') = .ok paths' ∧
      List.Forall₂ (fun p p' => p.1 = p'.1 ∧ ReadAlike p.2 p'.2) paths paths' := by
  have hread : ∀ (_ : Value) v v', PathShuffled v v' → ∀ place fields,
      map .numbersToo anything place v = .ok fields →
        ∃ fields', map .numbersToo anything place v' = .ok fields' ∧ ReadAlike fields fields' :=
    fun _ _ _ hpath _ _ hv => exists_path_of_shuffled hpath hv
  exact exists_map_of_entrywise hread h hps

end Validation

/-- A description with other paths is accepted if these are, and nothing else of it changes. -/
theorem Document.exists_of_paths {fields fields' : List (Value × Value)} {doc : Document}
    {R : Value → Value → Prop}
    {S : List (String × List (String × Value)) → List (String × List (String × Value)) → Prop}
    (hdoc : ofValue (.map fields) = .ok doc)
    (hother : ∀ key, key ≠ "paths" → Value.find? fields' key = Value.find? fields key)
    (hpaths : Option.Rel R (Value.find? fields "paths") (Value.find? fields' "paths"))
    (hread : ∀ v v' paths, R v v' → Validation.paths ["paths"] v = .ok paths →
      ∃ paths', Validation.paths ["paths"] v' = .ok paths' ∧ S paths paths') :
    ∃ paths', ofValue (.map fields') = .ok { doc with paths := paths' } ∧ S doc.paths paths' := by
  obtain ⟨_, ⟨rfl⟩, hcheck⟩ := ofValue_eq_ok.1 hdoc
  obtain ⟨hformat, hinfo, hservers, hold, hcomponents⟩ := check_eq_ok.1 hcheck
  have hnew : ∃ paths', required ["paths"] (Validation.paths ["paths"])
      (Value.find? fields' "paths") = .ok paths' ∧ S doc.paths paths' := by
    generalize Value.find? fields "paths" = v at hold hpaths
    generalize Value.find? fields' "paths" = v' at hpaths ⊢
    rcases hpaths with hv | _
    · exact hread _ _ _ hv hold
    · cases hold
  obtain ⟨paths', hpaths', hsame⟩ := hnew
  refine ⟨paths', ofValue_eq_ok.2 ⟨fields', rfl, check_eq_ok.2 ?_⟩, hsame⟩
  rw [hother "openapi" (by decide), hother "info" (by decide), hother "servers" (by decide),
    hother "components" (by decide)]
  exact ⟨hformat, hinfo, hservers, hpaths', hcomponents⟩

/-- Paths that are read alike have the same endpoints with the same notices. -/
theorem Document.endpoints_of_paths {doc : Document}
    {paths' : List (String × List (String × Value))}
    (h : List.Forall₂ (fun p p' => p.1 = p'.1 ∧ ∀ path,
      readPath doc.parameters path p.2 = readPath doc.parameters path p'.2) doc.paths paths') :
    ({ doc with paths := paths' } : Document).endpoints = doc.endpoints := by
  have hpaths : doc.paths.mapM (fun p => readPath doc.parameters p.1 p.2) =
      paths'.mapM fun p => readPath doc.parameters p.1 p.2 := by
    refine mapM_eq_of_forall₂ (h.imp fun p p' hp => ?_)
    rw [← hp.1]
    exact hp.2 p.1
  rw [Document.endpoints, Document.endpoints, hpaths]
  rfl

namespace Value

variable {raw raw' : Value} {doc : Document}

/-- Beside the paths a rearranged description has the same fields. -/
theorem Entrywise.find?_field {fields fields' : List (Value × Value)}
    (h : Entrywise FieldShuffled fields fields') {key : String} (hkey : key ≠ "paths") :
    Value.find? fields' key = Value.find? fields key := by
  refine (eq_of_rel (fun v v' hv => ?_) (h.find? key)).symm
  cases hv with
  | same => rfl
  | paths => exact absurd rfl hkey

/-- A rearranged description is accepted, and all of it is read alike. -/
theorem Rearranges.exists_document (h : Rearranges raw raw')
    (hdoc : Document.ofValue raw = .ok doc) : ∃ paths',
      Document.ofValue raw' = .ok { doc with paths := paths' } ∧
        List.Forall₂ (fun p p' => p.1 = p'.1 ∧ ReadAlike p.2 p'.2) doc.paths paths' := by
  cases h with
  | map hentries =>
    refine Document.exists_of_paths hdoc (fun _ => hentries.find?_field) (hentries.find? "paths")
      fun v v' paths hv hread => ?_
    cases hv with
    | same => exact ⟨paths, hread, List.forall₂_same.2 fun p _ => ⟨rfl, .refl p.2⟩⟩
    | paths hps => exact exists_paths_of_shuffled hps hread

/-- A rearranged description has the same endpoints with the same notices. -/
theorem Rearranges.endpoints (h : Rearranges raw raw') (hdoc : Document.ofValue raw = .ok doc) :
    ∃ doc', Document.ofValue raw' = .ok doc' ∧ doc'.endpoints = doc.endpoints := by
  obtain ⟨paths', hdoc', hsame⟩ := h.exists_document hdoc
  exact ⟨_, hdoc', Document.endpoints_of_paths (hsame.imp fun _ _ hp => ⟨hp.1, hp.2.readPath_eq⟩)⟩

end Value

namespace Document

/-- What extraction gives: one endpoint for every operation of a path and none for anything else, in
the order of the paths and then of the verbs; each with an identifier, and with the kept parameters
of its path and then those of its operation; and the same for every order of the keys. -/
theorem endpoints_match_operations {raw : Value} {doc : Document} {found : Reported Endpoint}
    (hdoc : ofValue raw = .ok doc) (hfound : doc.endpoints = .ok found) :
    (∀ path verb, (path, verb) ∈ found.items.map Endpoint.place ↔ doc.OperatesAt path verb) ∧
    (found.items.map Endpoint.place).Nodup ∧
    (found.items.map Endpoint.place).Pairwise doc.Precedes ∧
    (∀ e ∈ found.items, e.operationId ≠ "" ∧ ∃ fields operation, (e.path, fields) ∈ doc.paths ∧
      Assoc.find? fields e.verb.keyword = some (.map operation) ∧
      ∃ shared own, e.parameters = shared ++ own ∧
        Keeps doc.parameters (Form.itemsOf ((Assoc.find? fields "parameters").getD .null)) shared ∧
        Keeps doc.parameters (Form.itemsOf (Value.get operation "parameters")) own) ∧
    ∀ raw', Rearranges raw raw' →
      ∃ doc', ofValue raw' = .ok doc' ∧ doc'.endpoints = .ok found := by
  have hprecedes : (found.items.map Endpoint.place).Pairwise doc.Precedes := by
    rw [places_of_endpoints hfound]
    exact pairwise_precedes (nodup_names_paths hdoc)
  refine ⟨fun _ _ => mem_places_iff hfound, ?_, hprecedes, fun e he => ?_, fun raw' h => ?_⟩
  · exact hprecedes.imp fun {a b} hab (heq : a = b) => not_precedes_self b (heq ▸ hab)
  · obtain ⟨x, hx, hshows⟩ := exists_mem_of_forall₂ (shows_of_endpoints hfound) he
    obtain ⟨hpath, hoperation⟩ := mem_operations.1 hx
    exact ⟨hshows.operationId, x.1.2, x.2.2, hshows.path ▸ hpath, hshows.verb ▸ hoperation,
      hshows.parameters⟩
  · obtain ⟨doc', hdoc', hsame⟩ := h.endpoints hdoc
    exact ⟨doc', hdoc', hsame.trans hfound⟩

/-- A parameter of a query. -/
def queryValue (name : String) : Value :=
  .map [(.text "name", .text name), (.text "in", .text "query")]

/-- The entries of a path with the later verb first. -/
def petsEntries : List (Value × Value) := [
  (.text "post", .map [
    (.text "operationId", .text ""),
    (.text "parameters", .list [queryValue "size", .int 1, queryValue "page"])]),
  (.text "parameters", .list [queryValue "page"]),
  (.text "get", .map [])]

/-- The same entries in reverse, and so the keys of the operation. -/
def petsEntriesReversed : List (Value × Value) := [
  (.text "get", .map []),
  (.text "parameters", .list [queryValue "page"]),
  (.text "post", .map [
    (.text "parameters", .list [queryValue "size", .int 1, queryValue "page"]),
    (.text "operationId", .text "")])]

def ownersEntries : List (Value × Value) :=
  [(.text "delete", .map []), (.text "get", .null)]

def twoPathsValue (pets : List (Value × Value)) : Value :=
  .map [
    (.text "openapi", .text "3.0.0"),
    (.text "info", .map [(.text "title", .text "Pets"), (.text "version", .text "1")]),
    (.text "paths", .map [(.text "/pets", .map pets), (.text "/owners", .map ownersEntries)])]

theorem rearranges_reversed :
    Rearranges (twoPathsValue petsEntries) (twoPathsValue petsEntriesReversed) := by
  have hpets : Distinct petsEntries := by
    simp [Distinct, petsEntries]
  have hoperation : OperationShuffled (.text "post")
      (.map [(.text "operationId", .text ""),
        (.text "parameters", .list [queryValue "size", .int 1, queryValue "page"])])
      (.map [(.text "parameters", .list [queryValue "size", .int 1, queryValue "page"]),
        (.text "operationId", .text "")]) :=
    .inr ⟨⟨.post, rfl⟩, .map (by simp [Distinct]) (.swap _ _ _)⟩
  have hentries : Entrywise OperationShuffled petsEntries.reverse petsEntriesReversed :=
    .cons ⟨rfl, .inl rfl⟩ (.cons ⟨rfl, .inl rfl⟩ (.cons ⟨rfl, hoperation⟩ .nil))
  have hpaths : PathShuffled (.map petsEntries) (.map petsEntriesReversed) :=
    .map hpets (List.reverse_perm petsEntries).symm hentries
  exact .map (.cons ⟨rfl, .same _ _⟩ (.cons ⟨rfl, .same _ _⟩ (.cons
    ⟨rfl, .paths (.cons ⟨rfl, hpaths⟩ (.cons ⟨rfl, .same _⟩ .nil))⟩ .nil)))

/-- Two paths with three operations, one of which lists the parameter of its path once more, and the
same document with the keys in reverse. -/
theorem endpoints_match_operations_reversed :
    ∃ doc found, ofValue (twoPathsValue petsEntries) = .ok doc ∧ doc.endpoints = .ok found ∧
      found.items.map (fun e => (e.place, e.operationId, e.parameters.map Parameter.name)) = [
        (("/pets", .get), "getPets", ["page"]),
        (("/pets", .post), "postPets", ["page", "size", "page"]),
        (("/owners", .delete), "deleteOwners", [])] ∧
      (found.items.map Endpoint.place).Pairwise doc.Precedes ∧
      doc.OperatesAt "/pets" .post ∧ ¬ doc.OperatesAt "/owners" .get ∧
      ∃ doc', ofValue (twoPathsValue petsEntriesReversed) = .ok doc' ∧
        doc'.endpoints = .ok found := by
  obtain ⟨doc, hdoc⟩ : ∃ doc, ofValue (twoPathsValue petsEntries) = .ok doc := ⟨_, rfl⟩
  have hshown : doc.endpoints.map (fun found : Reported Endpoint => found.items.map fun e =>
      (e.place, e.operationId, e.parameters.map Parameter.name)) = .ok [
        (("/pets", .get), "getPets", ["page"]),
        (("/pets", .post), "postPets", ["page", "size", "page"]),
        (("/owners", .delete), "deleteOwners", [])] := by
    cases hdoc
    decide +kernel
  obtain ⟨found, hfound, hitems⟩ := exists_of_map_eq_ok hshown
  obtain ⟨hplaces, -, hpairwise, -, hsame⟩ := endpoints_match_operations hdoc hfound
  have hmap : found.items.map Endpoint.place =
      [("/pets", .get), ("/pets", .post), ("/owners", .delete)] := by
    have hfirst := congrArg (List.map Prod.fst) hitems
    rwa [List.map_map] at hfirst
  refine ⟨doc, found, hdoc, hfound, hitems, hpairwise, ?_, ?_, hsame _ rearranges_reversed⟩
  · rw [← hplaces, hmap]
    decide
  · rw [← hplaces, hmap]
    decide

end Document

end TypedClient
