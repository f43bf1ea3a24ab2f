import TypedClient.Yaml.Node

/-!
# Merge keys

A mapping takes over the entries of the mappings under its merge keys: they come first, and its own
entries replace them. Of several mappings to take over the first wins, so its entries come last
among those taken over. What is taken over is smaller than the mapping, `sizeOf_lt_of_flatten`.
-/

namespace TypedClient.Yaml

/-- The entries of a mapping: those taken over, and its own. The keys of default values among them
are given by their numbers; a mapping that is opened as such takes them as texts. -/
structure Entries where
  taken : List (Node × Node)
  own : List (Node × Node)
  defaults : List Nat

namespace Entries

def none : Entries := ⟨[], [], []⟩

/-- All entries in the order in which they are set. -/
def all (es : Entries) : List (Node × Node) := es.taken ++ es.own

/-- Entries with those of another mapping taken over before them. -/
def takeOver (es from_ : Entries) : Entries :=
  ⟨from_.all ++ es.taken, es.own, from_.defaults ++ es.defaults⟩

/-- Entries with an own one before them. -/
def cons (k v : Node) (es : Entries) : Entries :=
  ⟨es.taken, (k, v) :: es.own, if k.tag = .default then k.number :: es.defaults else es.defaults⟩

theorem mem_all_takeOver {es from_ : Entries} {p : Node × Node} (h : p ∈ (es.takeOver from_).all) :
    p ∈ from_.all ∨ p ∈ es.all := by
  simp only [all, takeOver, List.mem_append] at h ⊢
  grind

theorem mem_all_cons {k v : Node} {es : Entries} {p : Node × Node} (h : p ∈ (es.cons k v).all) :
    p = (k, v) ∨ p ∈ es.all := by
  simp only [all, cons, List.mem_append, List.mem_cons] at h ⊢
  grind

end Entries

namespace Node

mutual

/-- The entries of a mapping with those under its merge keys taken over. -/
def flatten : List (Node × Node) → Except Fault Entries
  | [] => .ok .none
  | (k, v) :: rest =>
    if k.tag = .merge then do
      let taken ← takenOver v
      return (← flatten rest).takeOver taken
    else (flatten rest).map (Entries.cons k v)

/-- The entries that are taken over from a mapping, or from the mappings of a sequence. -/
def takenOver : Node → Except Fault Entries
  | .mapping _ _ entries => flatten entries
  | .sequence _ _ items => takenOverAll items
  | .scalar _ _ _ => .error .malformed

/-- The entries of several mappings, those of the last one first. -/
def takenOverAll : List Node → Except Fault Entries
  | [] => .ok .none
  | .mapping _ _ entries :: rest => do
    let es ← flatten entries
    let more ← takenOverAll rest
    return es.takeOver more
  | _ => .error .malformed

end

mutual

theorem sizeOf_lt_of_flatten : ∀ {entries : List (Node × Node)} {es : Entries},
    flatten entries = .ok es → ∀ p ∈ es.all, sizeOf p < sizeOf entries
  | [], es, h, p, hp => by
    simp only [flatten, Except.ok.injEq] at h
    subst h
    simp [Entries.all, Entries.none] at hp
  | (k, v) :: rest, es, h, p, hp => by
    rw [flatten] at h
    split at h
    · cases ht : takenOver v with
      | error fault => simp [ht, bind, Except.bind] at h
      | ok taken =>
      cases hr : flatten rest with
      | error fault => simp [ht, hr, bind, Except.bind] at h
      | ok own =>
      simp only [ht, hr, bind, Except.bind, pure, Except.pure, Except.ok.injEq] at h
      subst h
      rcases Entries.mem_all_takeOver hp with hp | hp
      · have := sizeOf_lt_of_takenOver ht p hp
        simp only [List.cons.sizeOf_spec, Prod.mk.sizeOf_spec] at *
        omega
      · have := sizeOf_lt_of_flatten hr p hp
        simp only [List.cons.sizeOf_spec] at *
        omega
    · cases hr : flatten rest with
      | error fault => simp [hr, Except.map] at h
      | ok own =>
      simp only [hr, Except.map, Except.ok.injEq] at h
      subst h
      rcases Entries.mem_all_cons hp with rfl | hp
      · simp only [List.cons.sizeOf_spec]
        omega
      · have := sizeOf_lt_of_flatten hr p hp
        simp only [List.cons.sizeOf_spec] at *
        omega

theorem sizeOf_lt_of_takenOver : ∀ {n : Node} {es : Entries},
    takenOver n = .ok es → ∀ p ∈ es.all, sizeOf p < sizeOf n
  | .mapping _ _ entries, es, h, p, hp => by
    have := sizeOf_lt_of_flatten (by simpa only [takenOver] using h) p hp
    simp only [mapping.sizeOf_spec]
    omega
  | .sequence _ _ items, es, h, p, hp => by
    have := sizeOf_lt_of_takenOverAll (by simpa only [takenOver] using h) p hp
    simp only [sequence.sizeOf_spec]
    omega
  | .scalar _ _ _, es, h, p, hp => by simp [takenOver] at h

theorem sizeOf_lt_of_takenOverAll : ∀ {items : List Node} {es : Entries},
    takenOverAll items = .ok es → ∀ p ∈ es.all, sizeOf p < sizeOf items
  | [], es, h, p, hp => by
    simp only [takenOverAll, Except.ok.injEq] at h
    subst h
    simp [Entries.all, Entries.none] at hp
  | .mapping _ _ entries :: rest, es, h, p, hp => by
    rw [takenOverAll] at h
    cases hf : flatten entries with
    | error fault => simp [hf, bind, Except.bind] at h
    | ok first =>
    cases hm : takenOverAll rest with
    | error fault => simp [hf, hm, bind, Except.bind] at h
    | ok more =>
    simp only [hf, hm, bind, Except.bind, pure, Except.pure, Except.ok.injEq] at h
    subst h
    rcases Entries.mem_all_takeOver hp with hp | hp
    · have := sizeOf_lt_of_takenOverAll hm p hp
      simp only [List.cons.sizeOf_spec] at *
      omega
    · have := sizeOf_lt_of_flatten hf p hp
      simp only [List.cons.sizeOf_spec, mapping.sizeOf_spec] at *
      omega
  | .scalar _ _ _ :: _, es, h, p, hp => by simp [takenOverAll] at h
  | .sequence _ _ _ :: _, es, h, p, hp => by simp [takenOverAll] at h

end

end Node

end TypedClient.Yaml
