import TypedClient.Proofs.NewSchema.Client

/-!
# Visited names that play a part

The walk from a schema comes to a name only along references, from the schema to a name it mentions
and on from the schema under that name. So of the visited names only those count that are declared
and reached in this way (`typeText_eq_of_agree`). The set of visited names grows along the walk, by
the name that is expanded; the next place reaches no more than the one before, and both sets grow by
the same name, so they still agree (`Place.Agrees.calls`).
-/

namespace TypedClient

open TypeExpr

/-- A schema reaches a name: it mentions the name, or it reaches a declared name whose schema
mentions it. -/
inductive Schema.Reaches (reg : Registry) (s : Schema) : String → Prop
  | mentioned {name : String} : s.Mentions name → Reaches reg s name
  | declared {via name : String} {t : Schema} : Reaches reg s via → reg.lookup? via = some t →
    t.Mentions name → Reaches reg s name

namespace Schema.Reaches

variable {reg : Registry} {s t : Schema} {name ref : String}

theorem of_reference : (Schema.reference ref).Reaches reg (Reference.name ref) :=
  .mentioned ⟨ref, .self _, rfl⟩

theorem of_child (hchild : s.Child t) (h : t.Reaches reg name) : s.Reaches reg name := by
  induction h with
  | mentioned hmentions => exact .mentioned (.of_child hchild hmentions)
  | declared _ hfound hmentions ih => exact .declared ih hfound hmentions

theorem of_target (hfound : reg.lookup? (Reference.name ref) = some t) (h : t.Reaches reg name) :
    (Schema.reference ref).Reaches reg name := by
  induction h with
  | mentioned hmentions => exact .declared of_reference hfound hmentions
  | declared _ hvia hmentions ih => exact .declared ih hvia hmentions

/-- If all references have names of one kind, nothing else is reached. -/
theorem of_names {kind key : String → Prop} (hreg : reg.Names kind key) (hs : s.Names kind key)
    (h : s.Reaches reg name) : kind name := by
  induction h with
  | mentioned hmentions =>
    obtain ⟨ref, hpart, rfl⟩ := hmentions
    exact hs.reference ref hpart
  | declared _ hfound hmentions _ =>
    obtain ⟨ref, hpart, rfl⟩ := hmentions
    exact (hreg _ (Assoc.mem_of_find? hfound)).reference ref hpart

end Schema.Reaches

namespace Place

variable {reg : Registry} {p q : Place}

/-- Two places with one schema, at which the same of the declared names that it reaches are
visited. -/
structure Agrees (reg : Registry) (p q : Place) : Prop where
  schema : p.schema = q.schema
  visited : ∀ name ∈ reg.names, p.schema.Reaches reg name → (name ∈ p.visited ↔ name ∈ q.visited)

/-- A reference is expanded at both places or at none. -/
theorem Agrees.target?_eq {visited visited' : List String} {ref : String}
    (h : Agrees reg ⟨visited, .reference ref⟩ ⟨visited', .reference ref⟩) :
    target? reg visited ref = target? reg visited' ref := by
  by_cases hname : Reference.name ref ∈ reg.names
  · have hsame := h.visited _ hname .of_reference
    simp only [target?, hsame]
  · have hnone := Registry.lookup?_eq_none_iff.2 hname
    rw [target?_eq_none.2 (.inr hnone), target?_eq_none.2 (.inr hnone)]

/-- What is called from places that agree are places that agree. -/
theorem Agrees.calls (h : Agrees reg p q) :
    List.Forall₂ (Agrees reg) (p.calls reg) (q.calls reg) := by
  obtain ⟨visited, s⟩ := p
  obtain ⟨visited', s'⟩ := q
  obtain rfl : s = s' := h.schema
  refine forall₂_calls (fun t ht => ⟨rfl, fun name hname hreach => ?_⟩) fun ref hs => ?_
  · exact h.visited name hname (.of_child ht hreach)
  · subst hs
    rcases htarget : target? reg visited ref with _ | t
    · have htarget' := h.target?_eq.symm.trans htarget
      simp [Place.calls, htarget, htarget']
    · have htarget' := h.target?_eq.symm.trans htarget
      have hfound := (target?_eq_some.1 htarget).2
      have hagrees : Agrees reg ⟨Reference.name ref :: visited, t⟩
          ⟨Reference.name ref :: visited', t⟩ := by
        refine ⟨rfl, fun name hname hreach => ?_⟩
        rw [List.mem_cons, List.mem_cons, h.visited name hname (.of_target hfound hreach)]
      simpa [Place.calls, htarget, htarget'] using hagrees

/-- Places that agree have the same type. -/
theorem Agrees.type_eq (h : Agrees reg p q) : p.type reg = q.type reg :=
  type_eq_of_simulation (fun _ _ h => ⟨h.schema, h.calls⟩) h

end Place

/-- Whether a name is visited makes a difference for the declared names that the schema reaches and
for no others. So undeclared names may be visited or not. A reference to a declared name that is not
visited, and that its schema does not reach, is printed as this schema is, as if the name had not
been visited on the way. -/
theorem typeText_eq_of_agree (reg : Registry) (level : Int) :
    (∀ (s : Schema) (visited visited' : List String),
      (∀ name ∈ reg.names, s.Reaches reg name → (name ∈ visited ↔ name ∈ visited')) →
      s.typeText reg visited level = s.typeText reg visited' level) ∧
    (∀ (s : Schema) (visited : List String),
      s.typeText reg (visited.filter (· ∈ reg.names)) level = s.typeText reg visited level) ∧
    ∀ (ref : String) (target : Schema) (visited : List String),
      reg.lookup? (Reference.name ref) = some target →
      ¬ target.Reaches reg (Reference.name ref) → Reference.name ref ∉ visited →
      (Schema.reference ref).typeText reg visited level = target.typeText reg visited level := by
  have hagree (s : Schema) (visited visited' : List String)
      (h : ∀ name ∈ reg.names, s.Reaches reg name → (name ∈ visited ↔ name ∈ visited')) :
      s.typeText reg visited level = s.typeText reg visited' level := by
    have hagrees : Place.Agrees reg ⟨visited, s⟩ ⟨visited', s⟩ := ⟨rfl, h⟩
    exact congrArg (render level) hagrees.type_eq
  refine ⟨hagree, fun s visited => ?_, fun ref target visited hfound hreach hnew => ?_⟩
  · refine hagree s _ _ fun name hname _ => ?_
    simp [hname]
  · have hexpanded : (Schema.reference ref).typeText reg visited level =
        target.typeText reg (Reference.name ref :: visited) level := by
      rw [Schema.typeText, ofSchema_reference, Place.target?_eq_some.2 ⟨hnew, hfound⟩]
      rfl
    rw [hexpanded]
    -- the name that the expansion visits is not reached from the target
    refine hagree target _ _ fun name _ hname => ?_
    have hne : name ≠ Reference.name ref := fun h => hreach (h ▸ hname)
    simp [hne]

/-- One of two schemas that refer to each other, or something undeclared. -/
def gate : Schema :=
  .combinator .oneOf [.reference "#/components/schemas/A", .reference "Gone"]

def gateRegistry : Registry where
  entries := [
    ("A", .object [("next", .reference "#/components/schemas/B")] [] (.allowed true) none),
    ("B", .array (.reference "#/components/schemas/A")),
    ("Gate", gate)]
  distinct := by decide

theorem names_gate :
    gateRegistry.Names (· ∈ ["A", "B", "Gone"]) (fun _ => True) ∧
    gate.Names (· ∈ ["A", "B", "Gone"]) (fun _ => True) := by
  have href (ref : String) (h : Reference.name ref ∈ ["A", "B", "Gone"]) :
      (Schema.reference ref).Names (· ∈ ["A", "B", "Gone"]) (fun _ => True) := .of_reference h
  have hgate : gate.Names (· ∈ ["A", "B", "Gone"]) (fun _ => True) := by
    refine .of_child (by simp [gate]) (by simp) fun t ht => ?_
    cases ht with
    | member hm =>
      rcases List.mem_cons.1 hm with rfl | hm
      · exact href _ (by decide)
      · rw [List.mem_singleton.1 hm]
        exact href _ (by decide)
  refine ⟨?_, hgate⟩
  simp only [Registry.Names, gateRegistry, List.forall_mem_cons]
  refine ⟨?_, ?_, hgate, by simp⟩
  · refine .of_child (by simp) (by simp) fun t ht => ?_
    cases ht with
    | property hp =>
      rw [List.mem_singleton.1 hp]
      exact href _ (by decide)
  · refine .of_child (by simp) (by simp) fun t ht => ?_
    cases ht
    exact href _ (by decide)

/-- The two schemas on the cycle do not reach the gate to them. So it makes no difference for them
whether the gate is visited, and a reference to the gate is printed as the gate is, also where the
walk comes from the cycle. -/
theorem typeText_eq_of_agree_gate :
    (∀ name ∈ gateRegistry.names,
      (Schema.reference "#/components/schemas/A").Reaches gateRegistry name →
        (name ∈ ["Gate", "Gone"] ↔ name ∈ [])) ∧
    (Schema.reference "#/components/schemas/A").typeText gateRegistry ["Gate", "Gone"] 0 =
      (Schema.reference "#/components/schemas/A").typeText gateRegistry [] 0 ∧
    ¬ gate.Reaches gateRegistry (Reference.name "#/components/schemas/Gate") ∧
    (Schema.reference "#/components/schemas/Gate").typeText gateRegistry ["B"] 0 =
      gate.typeText gateRegistry ["B"] 0 := by
  obtain ⟨hagree, -, hexpanded⟩ := typeText_eq_of_agree gateRegistry 0
  have hsame : ∀ name ∈ gateRegistry.names,
      (Schema.reference "#/components/schemas/A").Reaches gateRegistry name →
        (name ∈ ["Gate", "Gone"] ↔ name ∈ []) := by
    intro name hname hreach
    have hreached : name ∈ ["A", "B", "Gone"] :=
      hreach.of_names names_gate.1 (.of_reference (by decide))
    have hdeclared : name ∈ ["A", "B", "Gate"] := hname
    simp only [List.mem_cons, List.not_mem_nil, or_false] at hreached hdeclared
    rcases hdeclared with rfl | rfl | rfl
    · decide
    · decide
    · exact absurd hreached (by decide)
  have hapart : ¬ gate.Reaches gateRegistry (Reference.name "#/components/schemas/Gate") := by
    intro hreach
    have hreached : Reference.name "#/components/schemas/Gate" ∈ ["A", "B", "Gone"] :=
      hreach.of_names names_gate.1 names_gate.2
    exact absurd hreached (by decide)
  exact ⟨hsame, hagree _ _ _ hsame, hapart, hexpanded _ gate _ rfl hapart (by decide)⟩

end TypedClient
