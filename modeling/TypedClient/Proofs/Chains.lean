import Mathlib.Logic.Relation
import TypedClient.Proofs.Cycles

/-!
# Chains of references

A declared name may stand for a reference again. A chain takes every step from a schema to the one
that is no reference to a declared name (`Chain`), and it exists exactly if no cycle of references
is reached (`exists_chain_iff`). The walk that types a schema follows its chain to the end
(`Chain.ofSchema_eq`), `resolve` takes one step of it (`Chain.resolve`). So a resolved schema is the
end of its chain exactly if the chain has no second step, and only then is what is read off it true
of the end (`resolve_eq_end_iff`).
-/

namespace TypedClient

open Relation TypeExpr

/-- A number or an integer. -/
def Schema.IsNumeric (s : Schema) : Prop :=
  ∃ p, s = .primitive p ∧ p.kind.isNumeric = true

/-- The first of the choices of a primitive is this value, and it is not `null`. -/
def Schema.FirstChoice (s : Schema) (v : Value) : Prop :=
  v ≠ .null ∧ ∃ p rest, s = .primitive p ∧ p.choices = some (v :: rest)

namespace Registry

variable (reg : Registry)

/-- The schema that a reference to a declared name leads to. -/
def next? : Schema → Option Schema
  | .reference ref => reg.lookup? (Reference.name ref)
  | _ => none

def Leads (s t : Schema) : Prop :=
  reg.next? s = some t

/-- A cycle of references is reached through references. -/
def Circles (s : Schema) : Prop :=
  ∃ t, ReflTransGen reg.Leads s t ∧ TransGen reg.Leads t t

/-- The names on the way from a schema to the end of its chain. -/
inductive Chain : Schema → List String → Schema → Prop
  | nil {s : Schema} : reg.next? s = none → Chain s [] s
  | cons {ref : String} {t u : Schema} {names : List String} :
    reg.lookup? (Reference.name ref) = some t → Chain t names u →
      Chain (.reference ref) (Reference.name ref :: names) u

variable {reg} {s t u : Schema} {names : List String}

theorem next?_eq_none_iff :
    reg.next? s = none ↔ ∀ ref, s = .reference ref → Reference.name ref ∉ reg.names := by
  cases s <;> simp [next?, lookup?_eq_none_iff]

theorem exists_reference_of_next? (h : reg.next? s = some t) :
    ∃ ref, s = .reference ref ∧ reg.lookup? (Reference.name ref) = some t := by
  cases s <;> simp_all [next?]

theorem resolve_eq (reg : Registry) (s : Schema) : reg.resolve s = (reg.next? s).getD s := by
  cases s <;> rfl

namespace Chain

theorem next?_end (h : reg.Chain s names u) : reg.next? u = none := by
  induction h with
  | nil h => exact h
  | cons _ _ ih => exact ih

theorem unique (h : reg.Chain s names u) {names' : List String} {u' : Schema}
    (h' : reg.Chain s names' u') : names = names' ∧ u = u' := by
  induction h generalizing names' with
  | nil hnone =>
    cases h' with
    | nil => exact ⟨rfl, rfl⟩
    | cons hsome => simp [next?, hsome] at hnone
  | cons hsome _ ih =>
    cases h' with
    | nil hnone => simp [next?, hsome] at hnone
    | cons hsome' h' =>
      obtain rfl : _ = _ := Option.some.inj (hsome.symm.trans hsome')
      obtain ⟨rfl, rfl⟩ := ih h'
      exact ⟨rfl, rfl⟩

theorem eq_nil_iff (h : reg.Chain s names u) : names = [] ↔ reg.next? s = none := by
  cases h with
  | nil hnone => simp [hnone]
  | cons hsome => simp [next?, hsome]

/-- Resolving takes the first step of a chain, if there is one. -/
theorem resolve (h : reg.Chain s names u) : reg.Chain (reg.resolve s) names.tail u := by
  rw [resolve_eq]
  cases h with
  | nil hnone =>
    rw [hnone]
    exact .nil hnone
  | cons hsome h =>
    rw [next?, hsome]
    exact h

theorem not_circles (h : reg.Chain s names u) : ¬ reg.Circles s := by
  induction h with
  | nil hnone =>
    rintro ⟨t, hpath, hcycle⟩
    rcases hpath.cases_head with rfl | ⟨v, hv, -⟩
    · obtain ⟨v, hv, -⟩ := TransGen.head'_iff.1 hcycle
      simp [Leads, hnone] at hv
    · simp [Leads, hnone] at hv
  | cons hsome _ ih =>
    rintro ⟨t, hpath, hcycle⟩
    refine ih ?_
    -- the only step leads to the next schema, so a cycle through this one goes through the next
    rcases hpath.cases_head with rfl | ⟨v, hv, hpath⟩
    · obtain ⟨v, hv, hback⟩ := TransGen.head'_iff.1 hcycle
      obtain rfl : _ = v := Option.some.inj (hsome.symm.trans hv)
      exact ⟨_, .refl, TransGen.tail'_iff.2 ⟨_, hback, hv⟩⟩
    · obtain rfl : _ = v := Option.some.inj (hsome.symm.trans hv)
      exact ⟨t, hpath, hcycle⟩

/-- From a name on the chain the same chain goes on. -/
theorem of_mem {before after : List String} {name : String} (h : reg.Chain s names u)
    (hnames : names = before ++ name :: after) :
    ∃ t, reg.lookup? name = some t ∧ reg.Chain t after u := by
  induction h generalizing before with
  | nil => simp at hnames
  | cons hsome h ih =>
    cases before with
    | nil =>
      obtain ⟨rfl, rfl⟩ := List.cons.inj hnames
      exact ⟨_, hsome, h⟩
    | cons n before => exact ih (List.cons.inj hnames).2

theorem nodup (h : reg.Chain s names u) : names.Nodup := by
  induction h with
  | nil => exact List.nodup_nil
  | @cons ref t u names hsome h ih =>
    refine List.nodup_cons.2 ⟨fun hmem => ?_, ih⟩
    obtain ⟨before, after, rfl⟩ := List.append_of_mem hmem
    -- a name that comes again would lead to a shorter chain from the same schema
    obtain ⟨t', hsome', hagain⟩ := h.of_mem rfl
    obtain rfl : t = t' := Option.some.inj (hsome.symm.trans hsome')
    have hlength := congrArg List.length (h.unique hagain).1
    simp only [List.length_append, List.length_cons] at hlength
    omega

/-- The walk follows a chain of names that are not visited, and visits them. -/
theorem ofSchema_eq {visited : List String} (h : reg.Chain s names u)
    (hnew : ∀ n ∈ names, n ∉ visited) :
    ofSchema reg visited s = ofSchema reg (names.reverse ++ visited) u := by
  have hnodup := h.nodup
  induction h generalizing visited with
  | nil => rfl
  | @cons ref t u names hsome h ih =>
    obtain ⟨hname, hnames⟩ := List.nodup_cons.1 hnodup
    have htarget : Place.target? reg visited ref = some t :=
      Place.target?_eq_some.2 ⟨hnew _ List.mem_cons_self, hsome⟩
    have hrest : ∀ n ∈ names, n ∉ Reference.name ref :: visited := by
      intro n hn hmem
      rcases List.mem_cons.1 hmem with rfl | hmem
      · exact hname hn
      · exact hnew n (List.mem_cons_of_mem _ hn) hmem
    rw [ofSchema_reference, htarget]
    simp [ih hrest hnames]

end Chain

/-- A walk along references that never reaches a cycle comes to an end. -/
theorem exists_chain_of_visited {visited : List String} (h : ¬ reg.Circles s)
    (hvisited : ∀ n ∈ visited, ∃ t, reg.lookup? n = some t ∧ ReflTransGen reg.Leads t s) :
    ∃ names u, reg.Chain s names u := by
  induction hleft : (reg.unvisited visited).length using Nat.strongRecOn
    generalizing visited s with
  | ind left ih =>
  rcases hnext : reg.next? s with _ | t
  · exact ⟨[], s, .nil hnext⟩
  obtain ⟨ref, rfl, hsome⟩ := exists_reference_of_next? hnext
  have hstep : reg.Leads (.reference ref) t := hsome
  have hnew : Reference.name ref ∉ visited := by
    intro hmem
    obtain ⟨t', hsome', hback⟩ := hvisited _ hmem
    obtain rfl : t = t' := Option.some.inj (hsome.symm.trans hsome')
    exact h ⟨t, .single hstep, TransGen.tail'_iff.2 ⟨_, hback, hstep⟩⟩
  have hfewer := length_unvisited_cons_lt (mem_names_of_lookup? hsome) hnew
  have hrest : ¬ reg.Circles t := fun ⟨v, hpath, hcycle⟩ => h ⟨v, .head hstep hpath, hcycle⟩
  have hreach : ∀ n ∈ Reference.name ref :: visited,
      ∃ v, reg.lookup? n = some v ∧ ReflTransGen reg.Leads v t := by
    intro n hn
    rcases List.mem_cons.1 hn with rfl | hn
    · exact ⟨t, hsome, .refl⟩
    · obtain ⟨v, hv, hpath⟩ := hvisited n hn
      exact ⟨v, hv, hpath.tail hstep⟩
  obtain ⟨names, u, hchain⟩ := ih _ (hleft ▸ hfewer) hrest hreach rfl
  exact ⟨_, u, .cons hsome hchain⟩

/-- A chain of references comes to an end exactly if no cycle is reached. -/
theorem exists_chain_iff : (∃ names u, reg.Chain s names u) ↔ ¬ reg.Circles s :=
  ⟨fun ⟨_, _, h⟩ => h.not_circles,
    fun h => exists_chain_of_visited h fun _ => List.not_mem_nil.elim⟩

/-! ## Resolved schemas -/

theorem length_le_one_iff : names.length ≤ 1 ↔ names.tail = [] := by
  cases names <;> simp

section

variable (h : reg.Chain s names u)

include h

theorem resolve_eq_iff : reg.resolve s = u ↔ names.length ≤ 1 := by
  rw [length_le_one_iff]
  refine ⟨fun heq => ?_, fun htail => ?_⟩
  · exact h.resolve.eq_nil_iff.2 (heq ▸ h.next?_end)
  · exact (h.resolve.unique (.nil (h.resolve.eq_nil_iff.1 htail))).2.symm

theorem next?_resolve_iff : reg.next? (reg.resolve s) = none ↔ names.length ≤ 1 := by
  rw [length_le_one_iff, h.resolve.eq_nil_iff]

theorem resolve_resolve_iff : reg.resolve (reg.resolve s) = reg.resolve s ↔ names.length ≤ 1 := by
  refine ⟨fun heq => ?_, fun hle => ?_⟩
  · have hagain := h.resolve.resolve
    rw [heq] at hagain
    have hlength := congrArg List.length (h.resolve.unique hagain).1
    simp only [List.length_tail] at hlength
    omega
  · rw [(resolve_eq_iff h).2 hle, resolve_eq, h.next?_end, Option.getD_none]

/-- What is read off a primitive that is resolved is true of the end of the chain, and the other way
round if there is no second step. -/
theorem resolve_eq_primitive_iff {p : Primitive} :
    reg.resolve s = .primitive p ↔ names.length ≤ 1 ∧ u = .primitive p := by
  refine ⟨fun heq => ?_, fun ⟨hle, hu⟩ => ((resolve_eq_iff h).2 hle).trans hu⟩
  have hle : names.length ≤ 1 := by
    rw [← next?_resolve_iff h, heq]
    rfl
  exact ⟨hle, ((resolve_eq_iff h).2 hle).symm.trans heq⟩

theorem isNumeric_iff : reg.isNumeric (some s) = true ↔ names.length ≤ 1 ∧ u.IsNumeric := by
  have hresolved : reg.isNumeric (some s) = true ↔ (reg.resolve s).IsNumeric := by
    unfold isNumeric Schema.IsNumeric
    rw [Option.map_some]
    cases reg.resolve s <;> simp
  rw [hresolved, Schema.IsNumeric]
  simp only [resolve_eq_primitive_iff h, and_assoc, exists_and_left]
  rfl

theorem firstChoice?_iff {v : Value} :
    reg.firstChoice? (some s) = some v ↔ names.length ≤ 1 ∧ u.FirstChoice v := by
  have hresolved : reg.firstChoice? (some s) = some v ↔ (reg.resolve s).FirstChoice v := by
    unfold firstChoice? Schema.FirstChoice
    rw [Option.map_some]
    cases hs : reg.resolve s with
    | primitive p =>
      rcases hp : p.choices with _ | _ | ⟨w, rest⟩
      · simp [hp]
      · simp [hp]
      · cases w <;> simp [hp] <;> grind
    | _ => simp
  rw [hresolved, Schema.FirstChoice, Schema.FirstChoice]
  simp only [resolve_eq_primitive_iff h, and_assoc, exists_and_left]
  exact and_left_comm

end

theorem typeText_of_isNumeric (h : u.IsNumeric) (visited : List String) (level : Int) :
    u.typeText reg visited level = "number" := by
  obtain ⟨p, rfl, hp⟩ := h
  rw [Schema.typeText, ofSchema, ofPrimitive]
  rcases hkind : p.kind <;> simp_all [PrimitiveKind.isNumeric, render]

/-- A schema that reaches no cycle of references has a chain with an end. The resolved schema is
this end, and no reference to a declared name, and resolved once more the same, exactly if the chain
has no second step. The schema counts as numeric and has a first choice only then, namely if the end
is numeric and has this choice. Its type is that of the end for every chain. -/
theorem resolve_eq_end_iff (h : ¬ reg.Circles s) : ∃ names u, reg.Chain s names u ∧
    (reg.resolve s = u ↔ names.length ≤ 1) ∧
    ((∀ ref, reg.resolve s = .reference ref → Reference.name ref ∉ reg.names) ↔
      names.length ≤ 1) ∧
    (reg.resolve (reg.resolve s) = reg.resolve s ↔ names.length ≤ 1) ∧
    (reg.isNumeric (some s) = true ↔ names.length ≤ 1 ∧ u.IsNumeric) ∧
    (∀ v, reg.firstChoice? (some s) = some v ↔ names.length ≤ 1 ∧ u.FirstChoice v) ∧
    (∀ level, s.typeText reg [] level = u.typeText reg names.reverse level) ∧
    (u.IsNumeric → ∀ level, s.typeText reg [] level = "number") := by
  obtain ⟨names, u, hchain⟩ := exists_chain_iff.2 h
  have htype : ∀ level, s.typeText reg [] level = u.typeText reg names.reverse level := by
    intro level
    rw [Schema.typeText, Schema.typeText, hchain.ofSchema_eq (by simp), List.append_nil]
  refine ⟨names, u, hchain, resolve_eq_iff hchain, ?_, resolve_resolve_iff hchain,
    isNumeric_iff hchain, fun v => firstChoice?_iff hchain, htype, fun hnumeric level => ?_⟩
  · rw [← next?_eq_none_iff, next?_resolve_iff hchain]
  · rw [htype level, typeText_of_isNumeric hnumeric]

/-- A reference that leads to a reference, which leads to an integer. -/
def twoSteps : Registry where
  entries := [("A", .reference "#/components/schemas/B"),
    ("B", .primitive ⟨.integer, none, .null, none, none⟩)]
  distinct := by decide

theorem chain_twoSteps : twoSteps.Chain (.reference "#/components/schemas/A") ["A", "B"]
    (.primitive ⟨.integer, none, .null, none, none⟩) :=
  .cons rfl (.cons rfl (.nil rfl))

/-- From the second reference there is one step, which resolving takes. -/
theorem resolve_eq_end_iff_oneStep :
    ¬ twoSteps.Circles (.reference "#/components/schemas/B") ∧ ∃ names u,
      twoSteps.Chain (.reference "#/components/schemas/B") names u ∧ names = ["B"] ∧
      twoSteps.resolve (.reference "#/components/schemas/B") = u ∧
      twoSteps.isNumeric (some (.reference "#/components/schemas/B")) = true ∧
      ∀ level, Schema.typeText twoSteps [] level (.reference "#/components/schemas/B") =
        "number" := by
  have hchain : twoSteps.Chain (.reference "#/components/schemas/B") ["B"]
      (.primitive ⟨.integer, none, .null, none, none⟩) := .cons rfl (.nil rfl)
  have hnumeric : Schema.IsNumeric (.primitive ⟨.integer, none, .null, none, none⟩) :=
    ⟨_, rfl, rfl⟩
  obtain ⟨names, u, h, hresolve, -, -, hisNumeric, -, -, htype⟩ :=
    resolve_eq_end_iff hchain.not_circles
  obtain ⟨rfl, rfl⟩ := hchain.unique h
  exact ⟨hchain.not_circles, _, _, h, rfl, hresolve.2 (Nat.le_refl 1),
    hisNumeric.2 ⟨Nat.le_refl 1, hnumeric⟩, htype hnumeric⟩

/-- From the first reference there are two steps, and resolving stops before the second one: at a
reference to a declared name, which is not numeric although its type is the type of numbers. -/
theorem not_resolve_eq_end :
    ¬ twoSteps.Circles (.reference "#/components/schemas/A") ∧
    twoSteps.resolve (.reference "#/components/schemas/A") =
      .reference "#/components/schemas/B" ∧
    Reference.name "#/components/schemas/B" ∈ twoSteps.names ∧
    twoSteps.resolve (twoSteps.resolve (.reference "#/components/schemas/A")) ≠
      twoSteps.resolve (.reference "#/components/schemas/A") ∧
    twoSteps.isNumeric (some (.reference "#/components/schemas/A")) = false ∧
    Schema.typeText twoSteps [] 0 (.reference "#/components/schemas/A") = "number" := by
  refine ⟨chain_twoSteps.not_circles, rfl, by decide, ?_, rfl, ?_⟩
  · rw [ne_eq, resolve_resolve_iff chain_twoSteps]
    decide
  · rw [Schema.typeText, chain_twoSteps.ofSchema_eq (by simp)]
    exact typeText_of_isNumeric ⟨_, rfl, rfl⟩ _ 0

end Registry

end TypedClient
