import TypedClient.Proofs.Script.Address

/-!
# Substitutions in an address

A path may hold more than an address can show as it is: white space that a template changes, names
that are written with escapes, identifiers with a line feed behind them. None of this makes the
address read anything else. If neither a backslash nor a dollar sign before a brace stands outside
the groups that become parameters (`Unescaped`), the expressions in the address are the base address
and the encoded values of properties that the keys of path parameters denote
(`exists_template`).
-/

namespace TypedClient.Script

open Text Name

variable {c : Char} {cs rest : List Char} {e : Expr} {k n : Nat} {name target : String}

/-! ## Values in a template -/

def Symbol.expression? : Symbol → Option Expr
  | .unit _ => none
  | .value e => some e

/-- The expressions of a template up to its end, without the characters between them. -/
def values? (n : Nat) (cs : List Char) : Option (List Expr × List Char) :=
  (symbols n cs).map fun s => (s.1.filterMap Symbol.expression?, s.2)

theorem values?_of_spans {us : List Nat} (h : Spans cs us rest) (n : Nat) :
    values? n (cs ++ rest) = values? n rest := by
  rw [values?, symbols_of_spans h, Option.map_map, values?]
  congr 1
  funext s
  simp [Symbol.expression?]

theorem spans_return (h : rest.head? ≠ some '\n') : Spans ['\r'] [0x0a] rest := by
  have hreturn : read .template .between ('\r' :: rest) =
      (read .template .carriage rest).map (.after [0x0a]) := read_cons_of_go rfl
  rw [Spans, List.singleton_append, hreturn]
  rcases rest with _ | ⟨d, rest⟩
  · rfl
  · have hfeed : d ≠ '\n' := fun hd => h (by rw [hd]; rfl)
    have hstep : step .template .carriage d = (step .template .between d).map (.after []) := by
      have hid : Move.after [] = id := by
        funext m
        cases m <;> rfl
      rw [hid, Option.map_id]
      exact if_neg hfeed
    rw [read_of_step_after hstep, Chunk.after_nil, Option.map_id]
    rfl

theorem spans_return_feed (rest : List Char) : Spans ['\r', '\n'] [0x0a] rest := by
  have hreturn : read .template .between ('\r' :: '\n' :: rest) =
      (read .template .carriage ('\n' :: rest)).map (.after [0x0a]) := read_cons_of_go rfl
  have hfeed : read .template .carriage ('\n' :: rest) =
      (read .template .between rest).map (.after []) := read_cons_of_go rfl
  rw [Spans, List.cons_append, List.cons_append, List.nil_append, hreturn, hfeed,
    Chunk.after_nil, Option.map_id]
  rfl

/-- A character that begins neither an escape nor a substitution adds no value. -/
theorem values?_cons (hquote : c ≠ '`') (hslash : c ≠ '\\')
    (hdollar : c = '$' → rest.head? ≠ some '\x7b') (n : Nat) :
    values? n (c :: rest) = values? n rest := by
  by_cases hreturn : c = '\r'
  · subst hreturn
    by_cases hfeed : rest.head? = some '\n'
    · obtain ⟨tail, rfl⟩ := List.head?_eq_some_iff.1 hfeed
      have hplain : Spans ['\n'] (utf16Units '\n') tail :=
        spans_char (by decide) (by decide) (by decide) (by simp)
      exact (values?_of_spans (spans_return_feed tail) n).trans
        (values?_of_spans hplain n).symm
    · exact values?_of_spans (spans_return hfeed) n
  · exact values?_of_spans (spans_char hquote hslash hreturn hdollar) n

theorem values?_substitution (h : Spells cs e k) (hk : k ≤ cs.length) (n : Nat)
    (rest : List Char) : values? (n + 1) ('$' :: '\x7b' :: (cs ++ '\x7d' :: rest)) =
      (values? n rest).map fun s => (e :: s.1, s.2) := by
  rw [values?, symbols_substitution h hk, Option.map_map, values?, Option.map_map]
  rfl

end TypedClient.Script

namespace TypedClient.Url

open Text Name Script

variable {declared : List String} {path name : String} {ps : List Part} {property : List Nat}

/-! ## Addresses -/

theorem declared_of_mem_written (h : .parameter name ∈ written declared path) :
    name ∈ declared := by
  obtain ⟨p, -, hpart⟩ := List.mem_flatMap.1 h
  cases p with
  | char c => simp [Piece.written] at hpart
  | group g =>
    rw [Piece.written] at hpart
    split at hpart
    · rename_i hg
      obtain rfl : name = String.ofList (escapeBackticks g) := by simpa using hpart
      exact hg
    · simp at hpart

/-- No backslash and no dollar sign before a brace stands outside the groups that become
parameters. -/
structure Unescaped (ps : List Part) : Prop where
  slashes : .char '\\' ∉ ps
  dollars : ps.IsChain fun a b => a = .char '$' → b ≠ .char '\x7b'

theorem Unescaped.tail {p : Part} (h : Unescaped (p :: ps)) : Unescaped ps :=
  ⟨fun hmem => h.slashes (List.mem_cons_of_mem _ hmem), (List.isChain_cons.1 h.dollars).2⟩

theorem Unescaped.values?_char {c : Char} (h : Unescaped (.char c :: ps)) (n : Nat)
    (rest : List Char) :
    values? n ((Part.char c).source ++ (ps.flatMap Part.source ++ '`' :: rest)) =
      values? n (ps.flatMap Part.source ++ '`' :: rest) := by
  rw [Part.source]
  split
  · exact values?_of_spans (spans_backtick _) n
  · rename_i hquote
    have hslash : c ≠ '\\' := by
      rintro rfl
      exact h.slashes List.mem_cons_self
    refine values?_cons hquote hslash ?_ n
    rintro rfl
    exact head?_flatMap_source_ne h.dollars rest

/-- The key of the name denotes the property, whatever comes behind it. -/
def KeyOf (name : String) (property : List Nat) : Prop :=
  ∃ gap, skip gap = [] ∧ ∀ rest, ends rest = true →
    key? ((propertyKey name).toList ++ rest) = some (property, gap ++ rest)

/-- The value of a property of the path object, encoded. -/
def encodedProperty (property : List Nat) : Expr :=
  .call (.name "encodeURIComponent")
    (.call (.name "String") (.member (.name "params") property))

theorem values?_parameter (name : String) : ∃ property, KeyOf name property ∧
    ∀ n rest, values? (n + 1) ((Part.parameter name).source ++ rest) =
      (values? n rest).map fun s => (encodedProperty property :: s.1, s.2) := by
  have htarget : isTypeName "params" = true := by decide
  obtain ⟨property, gap, hgap, hkey, haccess⟩ := exists_denoted htarget name
  have hencode : Spells "encodeURIComponent".toList (.name "encodeURIComponent") 1 :=
    spells_name (by decide)
  have hstring : Spells "String".toList (.name "String") 1 := spells_name (by decide)
  have hspells : Spells (encodedText name) (encodedProperty property) 8 :=
    hencode.call (hstring.call haccess)
  refine ⟨property, ⟨gap, hgap, hkey⟩, fun n rest => ?_⟩
  rw [Part.source, toList_substitution, List.cons_append, List.cons_append, List.append_assoc,
    List.singleton_append]
  exact values?_substitution hspells (le_length_encodedText name) n rest

/-- The values of the parts are read one by one, up to the end of the template. -/
theorem Unescaped.exists_values? (h : Unescaped ps) : ∃ values,
    (∀ v ∈ values, ∃ name property, .parameter name ∈ ps ∧ KeyOf name property ∧
      v = encodedProperty property) ∧
    ∀ n rest, ps.length < n →
      values? n (ps.flatMap Part.source ++ '`' :: rest) = some (values, rest) := by
  induction ps with
  | nil =>
    refine ⟨[], by simp, fun n rest hn => ?_⟩
    obtain ⟨n, rfl⟩ : ∃ m, n = m + 1 := ⟨n - 1, by simp at hn; omega⟩
    rw [List.flatMap_nil, List.nil_append, values?, symbols_closed]
    rfl
  | cons p ps ih =>
    obtain ⟨values, hvalues, hread⟩ := ih h.tail
    have hmore : ∀ v ∈ values, ∃ name property, .parameter name ∈ p :: ps ∧
        KeyOf name property ∧ v = encodedProperty property := by
      intro v hv
      obtain ⟨name, property, hmem, hkey, rfl⟩ := hvalues v hv
      exact ⟨name, property, List.mem_cons_of_mem _ hmem, hkey, rfl⟩
    cases p with
    | char c =>
      refine ⟨values, hmore, fun n rest hn => ?_⟩
      rw [List.length_cons] at hn
      rw [List.flatMap_cons, List.append_assoc, h.values?_char, hread n rest (by omega)]
    | parameter name =>
      obtain ⟨property, hkey, hparameter⟩ := values?_parameter name
      refine ⟨encodedProperty property :: values, List.forall_mem_cons.2
        ⟨⟨name, property, List.mem_cons_self, hkey, rfl⟩, hmore⟩, fun n rest hn => ?_⟩
      obtain ⟨n, rfl⟩ : ∃ m, n = m + 1 := ⟨n - 1, by simp at hn; omega⟩
      rw [List.length_cons] at hn
      rw [List.flatMap_cons, List.append_assoc, hparameter, hread n rest (by omega)]
      rfl

/-- The address is one template literal. Its values are the base address and encoded properties of
the path object, each denoted by the key of a path parameter. -/
theorem exists_template (h : Unescaped (written declared path)) (rest : List Char) :
    ∃ symbols, template? ((literal declared path).toList ++ rest) = some (symbols, rest) ∧
      ∀ v, .value v ∈ symbols → v = baseUrl ∨
        ∃ name ∈ declared, ∃ property, KeyOf name property ∧ v = encodedProperty property := by
  obtain ⟨values, hvalues, hread⟩ := h.exists_values?
  have hlength := length_le_flatMap_source (written declared path)
  let text := (written declared path).flatMap Part.source ++ '`' :: rest
  have hbound : (written declared path).length <
      ("$\x7bthis.baseUrl\x7d".toList ++ text).length := by
    simp only [text, List.length_append, List.length_cons]
    omega
  have hvalue := hread _ rest hbound
  rw [values?, Option.map_eq_some_iff] at hvalue
  obtain ⟨⟨symbols, _⟩, hsymbols, heq⟩ := hvalue
  obtain ⟨hexpressions, rfl⟩ := Prod.mk.inj heq
  refine ⟨.value baseUrl :: symbols, ?_, fun v hv => ?_⟩
  · rw [toList_literal, toList_template, List.cons_append, List.append_assoc, List.append_assoc,
      List.singleton_append, template?, symbols_baseUrl, hsymbols]
    rfl
  · rcases List.mem_cons.1 hv with heq | hv
    · exact .inl (Symbol.value.inj heq)
    · have hmem : v ∈ values := by
        rw [← hexpressions]
        exact List.mem_filterMap.2 ⟨_, hv, rfl⟩
      obtain ⟨name, property, hname, hkey, rfl⟩ := hvalues v hmem
      exact .inr ⟨name, declared_of_mem_written hname, property, hkey, rfl⟩

end TypedClient.Url
