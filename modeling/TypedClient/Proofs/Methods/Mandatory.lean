import TypedClient.Proofs.Methods.Calls

/-!
# What an example call leaves out

The type of the query object demands a property for each query parameter that is required
(`binds_queryDeclaration_iff`). An example call gives values to the first two query parameters only
(`queryEntry`), so it gives everything that is demanded exactly if each required parameter behind
these two has the property of one of them (`supplies_iff`).
-/

namespace TypedClient.Url

open Script

variable {name : String} {property other : List Nat}

theorem exists_keyOf (name : String) : ∃ property, KeyOf name property := by
  have htarget : Name.isTypeName "query" = true := by decide
  obtain ⟨property, gap, hgap, hkey, -⟩ := exists_property htarget name
  exact ⟨property, gap, hgap, hkey⟩

theorem KeyOf.unique (h : KeyOf name property) (h' : KeyOf name other) : property = other := by
  obtain ⟨gap, -, hkey⟩ := h
  obtain ⟨gap', -, hkey'⟩ := h'
  have hread := hkey [] rfl
  rw [hkey' [] rfl, Option.some.injEq, Prod.mk.injEq] at hread
  exact hread.1.symm

end TypedClient.Url

namespace TypedClient.Call

open Text Name Script Method Url

variable {reg res : Registry} {style : CallStyle} {e : Endpoint} {p : Parameter} {c d : Char}
  {property : List Nat} {name more : String}

/-! ## Keys and the marks behind them -/

/-- The text begins with a key that denotes the property, and this mark stands behind the key. -/
def Marks (mark : Char) (text : String) (property : List Nat) : Prop :=
  ∃ rest, key? text.toList = some (property, rest) ∧ (skip rest).head? = some mark

/-- The text begins with a key that denotes the property, and a colon stands behind the key: the
property is not marked as optional. -/
def Binds (text : String) (property : List Nat) : Prop :=
  Marks ':' text property

/-- What stands behind a key is a mark, if it neither goes on with the key nor is skipped. -/
theorem marks_iff (hends : ends [c] = true) (hspace : isSpace c = false) :
    Marks d (propertyKey name ++ String.singleton c ++ more) property ↔
      d = c ∧ KeyOf name property := by
  obtain ⟨denoted, hdenoted⟩ := exists_keyOf name
  obtain ⟨gap, hgap, hkey⟩ := id hdenoted
  have hread : key? (propertyKey name ++ String.singleton c ++ more).toList =
      some (denoted, gap ++ c :: more.toList) := by simpa using hkey (c :: more.toList) hends
  have hmark : (skip (gap ++ c :: more.toList)).head? = some c := by
    rw [skip_append hgap, skip_cons hspace]
    rfl
  constructor
  · rintro ⟨rest, hrest, hd⟩
    rw [hread] at hrest
    cases hrest
    rw [hmark] at hd
    exact ⟨(Option.some.inj hd).symm, hdenoted⟩
  · rintro ⟨rfl, hname⟩
    rw [hname.unique hdenoted]
    exact ⟨_, hread, hmark⟩

/-! ## Declarations and entries -/

/-- The entry of a query parameter in an example call. -/
def queryEntry (style : CallStyle) (res : Registry) (p : Parameter) : String :=
  propertyKey p.name ++ ": " ++ queryValue style res p

/-- The entries of an object give a value to every property that the declarations of its type
demand. -/
def Supplies (entries declarations : List String) : Prop :=
  ∀ declaration ∈ declarations, ∀ property, Binds declaration property →
    ∃ entry ∈ entries, Binds entry property

theorem binds_queryEntry_iff (style : CallStyle) (res : Registry) (p : Parameter)
    (property : List Nat) : Binds (queryEntry style res p) property ↔ KeyOf p.name property := by
  have heq : queryEntry style res p =
      propertyKey p.name ++ String.singleton ':' ++ (" " ++ queryValue style res p) := by
    apply String.toList_injective
    simp [queryEntry]
  rw [heq, Binds, marks_iff rfl rfl, and_iff_right rfl]

theorem binds_queryDeclaration_iff (reg : Registry) (p : Parameter) (property : List Nat) :
    Binds (queryDeclaration reg p) property ↔ p.required = true ∧ KeyOf p.name property := by
  unfold queryDeclaration
  split
  · rename_i hrequired
    have heq : propertyKey p.name ++ "" ++ ": " ++ Signature.parameterType reg p =
        propertyKey p.name ++ String.singleton ':' ++ (" " ++ Signature.parameterType reg p) := by
      apply String.toList_injective
      simp
    rw [heq, Binds, marks_iff rfl rfl, and_iff_right rfl, and_iff_right hrequired]
  · rename_i hrequired
    have heq : propertyKey p.name ++ "?" ++ ": " ++ Signature.parameterType reg p =
        propertyKey p.name ++ String.singleton '?' ++ (": " ++ Signature.parameterType reg p) := by
      apply String.toList_injective
      simp
    rw [heq, Binds, marks_iff rfl rfl]
    exact iff_of_false (fun h => absurd h.1 (by decide)) fun h => hrequired h.1

/-- The keys of two names denote one property. -/
def SameProperty (name name' : String) : Prop :=
  ∃ property, KeyOf name property ∧ KeyOf name' property

/-- Entries for the first parameters supply what all declarations demand exactly if each required
parameter behind them has the property of one of them. -/
theorem supplies_take_iff (reg res : Registry) (style : CallStyle) (ps : List Parameter) (n : Nat) :
    Supplies ((ps.take n).map (queryEntry style res)) (ps.map (queryDeclaration reg)) ↔
      ∀ p ∈ ps.drop n, p.required = true → ∃ q ∈ ps.take n, SameProperty p.name q.name := by
  simp only [Supplies, List.mem_map, forall_exists_index, and_imp, forall_apply_eq_imp_iff₂,
    exists_exists_and_eq_and, binds_queryEntry_iff, binds_queryDeclaration_iff]
  constructor
  · intro h p hp hrequired
    obtain ⟨property, hkey⟩ := exists_keyOf p.name
    obtain ⟨q, hq, hqkey⟩ := h p (List.mem_of_mem_drop hp) property hrequired hkey
    exact ⟨q, hq, property, hkey, hqkey⟩
  · intro h p hp property hrequired hkey
    rw [← List.take_append_drop n ps, List.mem_append] at hp
    rcases hp with hfirst | hbehind
    · exact ⟨p, hfirst, hkey⟩
    · obtain ⟨q, hq, denoted, hdenoted, hqkey⟩ := h p hbehind hrequired
      exact ⟨q, hq, hkey.unique hdenoted ▸ hqkey⟩

/-- The query object of a call stands where the signature declares it. -/
theorem exists_position (reg res : Registry) (style : CallStyle) (h : e.queryParameters ≠ []) :
    ∃ position : Nat, (Signature.arguments reg e)[position]? = some (Argument.mk "query"
        (Signature.queryPresence e) (Signature.queryType reg e.queryParameters)) ∧
      (arguments style res e)[position]? =
        some (bundle (queryValue style res) (e.queryParameters.take queryLimit)) := by
  have hquery : e.queryParameters.isEmpty = false := by simpa using h
  by_cases hpath : e.pathParameters.isEmpty
  · exact ⟨0, by simp [Signature.arguments, arguments, hpath, hquery]⟩
  · exact ⟨1, by simp [Signature.arguments, arguments, hpath, hquery]⟩

/-- The example in a comment and the one in the example file make the call of their style. In every
style the call gives the query object values for the first two query parameters, and the signature
declares a property for each query parameter, without the optional mark exactly if it is required.
So the call gives every property that is declared without a mark if and only if each required
parameter behind the first two has the property of one of them. -/
theorem supplies_iff (reg res : Registry) (style : CallStyle) (h : e.queryParameters ≠ []) :
    let declarations := e.queryParameters.map (queryDeclaration reg)
    let entries := (e.queryParameters.take 2).map (queryEntry style res)
    DocComment.example_ res e = statement commentStyle res e ++ "\n" ++ afterCall ∧
    "  " ++ statement fileStyle res e ∈ ExampleFile.exampleLines res e ∧
    (∃ position : Nat, (Signature.arguments reg e)[position]? = some (Argument.mk "query"
        (Signature.queryPresence e) (Signature.inlineObject declarations)) ∧
      (arguments style res e)[position]? =
        some ("\x7b " ++ String.intercalate ", " entries ++ " \x7d")) ∧
    (∀ p property, Binds (queryDeclaration reg p) property ↔
      p.required = true ∧ KeyOf p.name property) ∧
    (∀ p property, Binds (queryEntry style res p) property ↔ KeyOf p.name property) ∧
    (Supplies entries declarations ↔ ∀ p ∈ e.queryParameters.drop 2, p.required = true →
      ∃ q ∈ e.queryParameters.take 2, SameProperty p.name q.name) :=
  ⟨example_eq_statement res e, by simp [ExampleFile.exampleLines], exists_position reg res style h,
    binds_queryDeclaration_iff reg, binds_queryEntry_iff style res,
    supplies_take_iff reg res style e.queryParameters 2⟩

/-- An operation with query parameters that are required or not. -/
def withQuery (ps : List (String × Bool)) : Endpoint where
  verb := .get
  path := "/pets"
  operationId := "listPets"
  summary := none
  description := none
  parameters := ps.map fun p => ⟨p.1, .query, p.2, none, none⟩
  requestBody := none
  responses := []
  tags := none

/-- A third parameter that is required is in the call if it repeats the name of the first one. -/
theorem supplies_iff_repeated :
    (withQuery [("limit", true), ("sort", false), ("limit", true)]).queryParameters ≠ [] ∧
    Supplies ["limit: \"value\"", "sort: \"value\""]
      ["limit: string", "sort?: string", "limit: string"] := by
  have hne : (withQuery [("limit", true), ("sort", false), ("limit", true)]).queryParameters ≠ [] :=
    by simp [withQuery, Endpoint.queryParameters]
  obtain ⟨-, -, -, -, -, hsupplies⟩ := supplies_iff .empty .empty commentStyle hne
  have hrepeated : ∀ p ∈ (withQuery [("limit", true), ("sort", false),
      ("limit", true)]).queryParameters.drop 2, p.required = true →
        ∃ q ∈ (withQuery [("limit", true), ("sort", false),
          ("limit", true)]).queryParameters.take 2, SameProperty p.name q.name := by
    have hlimit : SameProperty "limit" "limit" := (exists_keyOf "limit").imp fun _ h => ⟨h, h⟩
    simp [withQuery, Endpoint.queryParameters, hlimit]
  exact ⟨hne, hsupplies.2 hrepeated⟩

/-- A third parameter that is required is in the signature, and in neither call. -/
theorem not_supplies :
    (Signature.arguments .empty (withQuery [("a", true), ("b", true), ("c", true)])).map
      Argument.render = ["query: \x7b a: string; b: string; c: string \x7d"] ∧
    (∀ style ∈ [commentStyle, fileStyle],
      statement style .empty (withQuery [("a", true), ("b", true), ("c", true)]) =
        "const result = await client.list_pets(\x7b a: \"value\", b: \"value\" \x7d);") ∧
    ¬ Supplies ["a: \"value\"", "b: \"value\""] ["a: string", "b: string", "c: string"] := by
  refine ⟨by decide +kernel, by decide +kernel, fun h => ?_⟩
  have hdemanded : Binds "c: string" (units "c".toList) := ⟨": string".toList, by decide +kernel⟩
  obtain ⟨entry, hentry, rest, hkey, -⟩ := h "c: string" (by simp) _ hdemanded
  have hother : ∀ entry ∈ ["a: \"value\"", "b: \"value\""],
      (key? entry.toList).map Prod.fst ≠ some (units "c".toList) := by decide +kernel
  refine hother entry hentry ?_
  rw [hkey]
  rfl

end TypedClient.Call
