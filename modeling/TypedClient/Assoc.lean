/-!
# Entries under names

A list of pairs in the order in which the names were first set. Setting a known name keeps its place
and replaces its value, so the names of `ofPairs` are distinct.
-/

namespace TypedClient.Assoc

variable {α : Type}

/-- The value under a name. -/
def find? (entries : List (String × α)) (name : String) : Option α :=
  (entries.find? fun e => e.1 = name).map (·.2)

/-- The names in order. -/
def names (entries : List (String × α)) : List String :=
  entries.map (·.1)

/-- The entries with a name set. -/
def put (entries : List (String × α)) (name : String) (value : α) : List (String × α) :=
  if name ∈ names entries then entries.map fun e => if e.1 = name then (name, value) else e
  else entries ++ [(name, value)]

/-- The entries that result from setting the names one after another. -/
def ofPairs (pairs : List (String × α)) : List (String × α) :=
  pairs.foldl (fun entries p => put entries p.1 p.2) []

theorem names_put (entries : List (String × α)) (name : String) (value : α) :
    names (put entries name value) =
      if name ∈ names entries then names entries else names entries ++ [name] := by
  unfold put
  split
  · simp only [names, List.map_map]
    refine List.map_congr_left fun e _ => ?_
    simp only [Function.comp_apply]
    split <;> simp_all
  · simp [names]

theorem nodup_names_put {entries : List (String × α)} (h : (names entries).Nodup) (name : String)
    (value : α) : (names (put entries name value)).Nodup := by
  rw [names_put]
  split
  · exact h
  · next hn => exact List.nodup_append.2 ⟨h, by simp, by simp; exact fun a ha e => hn (e ▸ ha)⟩

theorem nodup_names_foldl (pairs : List (String × α)) {entries : List (String × α)}
    (h : (names entries).Nodup) :
    (names (pairs.foldl (fun es p => put es p.1 p.2) entries)).Nodup := by
  induction pairs generalizing entries with
  | nil => exact h
  | cons p ps ih => exact ih (nodup_names_put h p.1 p.2)

theorem nodup_names_ofPairs (pairs : List (String × α)) : (names (ofPairs pairs)).Nodup :=
  nodup_names_foldl pairs List.nodup_nil

theorem mem_names_foldl {name : String} : ∀ pairs entries : List (String × α),
    name ∈ names (pairs.foldl (fun es p => put es p.1 p.2) entries) ↔
      name ∈ names entries ∨ name ∈ names pairs
  | [], entries => by simp [names]
  | p :: ps, entries => by
    rw [List.foldl_cons, mem_names_foldl ps, names_put]
    have hp : name ∈ names (p :: ps) ↔ name = p.1 ∨ name ∈ names ps := by simp [names]
    rw [hp]
    split
    · rename_i hmem
      refine ⟨fun h => h.imp_right .inr, ?_⟩
      rintro (h | rfl | h)
      · exact .inl h
      · exact .inl hmem
      · exact .inr h
    · simp [or_assoc]

/-- Setting names one after another sets these names and no others. -/
theorem mem_names_ofPairs {pairs : List (String × α)} {name : String} :
    name ∈ names (ofPairs pairs) ↔ name ∈ names pairs := by
  rw [ofPairs, mem_names_foldl]
  simp [names]

theorem mem_of_find? {entries : List (String × α)} {name : String} {value : α}
    (h : find? entries name = some value) : (name, value) ∈ entries := by
  obtain ⟨⟨n, v⟩, he, rfl⟩ := Option.map_eq_some_iff.1 h
  have hn := List.find?_some he
  have hm := List.mem_of_find?_eq_some he
  simp only [decide_eq_true_eq] at hn
  exact hn ▸ hm

theorem find?_isSome_iff {entries : List (String × α)} {name : String} :
    (find? entries name).isSome ↔ name ∈ names entries := by
  simp [find?, names, List.find?_isSome]

end TypedClient.Assoc
