import TypedClient.Proofs.TypeText.Token

/-!
# Reading the text of a type

A reader goes through the tokens of a text once. Between two brackets it keeps the members of a
union that are complete and the factors of the member that it is reading, so an intersection binds
tighter than a union; an opening bracket puts these aside, and the closing one makes a single factor
of what stood inside.

The reader gives back every type that a schema can have (`read_render`), up to the difference
between a list of literals and the union of these literals, which are written alike: `spelled`
chooses the union.
-/

namespace TypedClient

open TypeExpr

namespace TypeReader

/-- What has been read since the last bracket: the complete members and the factors of the next. -/
structure Operands where
  members : List TypeExpr
  factors : List TypeExpr

namespace Operands

def empty : Operands := ⟨[], []⟩

def add (o : Operands) (t : TypeExpr) : Operands :=
  ⟨o.members, o.factors ++ [t]⟩

/-- The factors make a member. -/
def close (o : Operands) : Operands :=
  ⟨o.members ++ [combine .intersection o.factors], []⟩

def type (o : Operands) : TypeExpr :=
  combine .union o.close.members

end Operands

/-- A bracket that is open, with what stands before it. -/
inductive Frame where
  | group (outer : Operands)
  | element (outer : Operands)
  | property (outer : Operands) (done : List (PropertyKey × TypeExpr)) (key : PropertyKey)

/-- What the reader expects next. -/
inductive State where
  | operand (o : Operands) (frames : List Frame)
  | operator (o : Operands) (frames : List Frame)
  | bracket (o : Operands) (frames : List Frame)
  | fixed (left : List Token) (o : Operands) (frames : List Frame)
  | key (done : List (PropertyKey × TypeExpr)) (o : Operands) (frames : List Frame)
  | markOrColon (name : String) (done : List (PropertyKey × TypeExpr)) (o : Operands)
    (frames : List Frame)
  | colon (key : PropertyKey) (done : List (PropertyKey × TypeExpr)) (o : Operands)
    (frames : List Frame)

/-- What follows the name of the type of open records. -/
def recordArguments : List Token :=
  [.mark '<', .name "string", .mark ',', .name "unknown", .mark '>']

/-- The type that a name alone stands for. -/
def atom (n : String) : TypeExpr :=
  if n = "string" then .string
  else if n = "number" then .number
  else if n = "boolean" then .boolean
  else if n = "unknown" then .unknown
  else if n = "null" then .literals [none]
  else .named n

def stepOperand (o : Operands) (frames : List Frame) : Token → Option State
  | .name n =>
    if n = "Array" then some (.bracket o frames)
    else if n = "Record" then some (.fixed recordArguments o frames)
    else some (.operator (o.add (atom n)) frames)
  | .text s => some (.operator (o.add (.literals [some s])) frames)
  | .mark c =>
    if c = '(' then some (.operand .empty (.group o :: frames))
    else if c = '\x7b' then some (.key [] o frames)
    else none

/-- The end of a bracket or of a property. -/
def stepClose (o : Operands) (c : Char) : List Frame → Option State
  | .group outer :: frames =>
    if c = ')' then some (.operator (outer.add o.type) frames) else none
  | .element outer :: frames =>
    if c = '>' then some (.operator (outer.add (.array o.type)) frames) else none
  | .property outer done key :: frames =>
    if c = ';' then some (.key (done ++ [(key, o.type)]) outer frames) else none
  | [] => none

def stepOperator (o : Operands) (frames : List Frame) : Token → Option State
  | .mark c =>
    if c = '|' then some (.operand o.close frames)
    else if c = '&' then some (.operand o frames)
    else stepClose o c frames
  | _ => none

def step : State → Token → Option State
  | .operand o frames, t => stepOperand o frames t
  | .operator o frames, t => stepOperator o frames t
  | .bracket o frames, t =>
    if t = .mark '<' then some (.operand .empty (.element o :: frames)) else none
  | .fixed (expected :: left) o frames, t =>
    if t = expected then
      some (if left.isEmpty then .operator (o.add .openRecord) frames else .fixed left o frames)
    else none
  | .fixed [] _ _, _ => none
  | .key done o frames, .name n => some (.markOrColon n done o frames)
  | .key done o frames, .text s => some (.markOrColon s done o frames)
  | .key done o frames, .mark c =>
    if c = '\x7d' then some (.operator (o.add (.object done)) frames) else none
  | .markOrColon n done o frames, t =>
    if t = .mark '?' then some (.colon ⟨n, true⟩ done o frames)
    else if t = .mark ':' then some (.operand .empty (.property o done ⟨n, false⟩ :: frames))
    else none
  | .colon key done o frames, t =>
    if t = .mark ':' then some (.operand .empty (.property o done key :: frames)) else none

/-- The type that has been read if the text ends here. -/
def State.ended : State → Option TypeExpr
  | .operator o [] => some o.type
  | _ => none

/-- The type that a text writes. -/
def read (text : String) : Option TypeExpr := do
  let ts ← Lexer.tokens? text
  let s ← ts.foldlM step (.operand .empty [])
  s.ended

/-- The tokens are read as a factor, whatever stands before them. -/
def Factor (ts : List Token) (t : TypeExpr) : Prop :=
  ∀ o frames, ts.foldlM step (.operand o frames) = some (.operator (o.add t) frames)

/-- The tokens are read as a type of their own. -/
def Whole (ts : List Token) (t : TypeExpr) : Prop :=
  ∀ frames, ∃ o : Operands, ts.foldlM step (.operand .empty frames) = some (.operator o frames) ∧
    o.type = t

theorem Factor.whole {ts : List Token} {t : TypeExpr} (h : Factor ts t) : Whole ts t :=
  fun frames => ⟨_, h .empty frames, rfl⟩

theorem Whole.group {ts : List Token} {t : TypeExpr} (h : Whole ts t) :
    Factor (.mark '(' :: (ts ++ [.mark ')'])) t := by
  intro o frames
  obtain ⟨inner, hrun, rfl⟩ := h (.group o :: frames)
  simp [step, stepOperand, hrun, stepOperator, stepClose]

theorem Whole.element {ts : List Token} {t : TypeExpr} (h : Whole ts t) :
    Factor (.name "Array" :: .mark '<' :: (ts ++ [.mark '>'])) (.array t) := by
  intro o frames
  obtain ⟨inner, hrun, rfl⟩ := h (.element o :: frames)
  simp [step, stepOperand, hrun, stepOperator, stepClose]

/-- A property is added to those read before it. -/
theorem Whole.property {ts : List Token} {t : TypeExpr} (h : Whole ts t) (key : PropertyKey)
    (done : List (PropertyKey × TypeExpr)) (o : Operands) (frames : List Frame) :
    (propertyTokens key ts).foldlM step (.key done o frames) =
      some (.key (done ++ [(key, t)]) o frames) := by
  obtain ⟨inner, hrun, rfl⟩ := h (.property o done key :: frames)
  obtain ⟨n, optional⟩ := key
  have hkey : step (.key done o frames) (keyToken n) = some (.markOrColon n done o frames) := by
    unfold keyToken
    split <;> rfl
  rw [propertyTokens, List.foldlM_cons, hkey]
  cases optional <;> simp [step, hrun, stepOperator, stepClose]

theorem foldlM_properties (o : Operands) (frames : List Frame)
    (v : TypeExpr → TypeExpr) : ∀ (ps done : List (PropertyKey × TypeExpr)),
    (∀ p ∈ ps, Whole p.2.tokens (v p.2)) →
      (tokensOfProperties ps).foldlM step (.key done o frames) =
        some (.key (done ++ ps.map fun p => (p.1, v p.2)) o frames)
  | [], done, _ => by simp [tokensOfProperties]
  | p :: ps, done, h => by
    have hrest := foldlM_properties o frames v ps (done ++ [(p.1, v p.2)])
      fun q hq => h q (List.mem_cons_of_mem p hq)
    rw [tokensOfProperties, List.foldlM_append, (h p List.mem_cons_self).property]
    simpa using hrest

theorem factor_object {v : TypeExpr → TypeExpr} {ps : List (PropertyKey × TypeExpr)}
    (h : ∀ p ∈ ps, Whole p.2.tokens (v p.2)) :
    Factor (TypeExpr.tokens (.object ps)) (.object (ps.map fun p => (p.1, v p.2))) := by
  intro o frames
  have := foldlM_properties o frames v ps [] h
  simp [TypeExpr.tokens, step, stepOperand, this]

theorem factor_openRecord : Factor (TypeExpr.tokens .openRecord) .openRecord :=
  fun _ _ => rfl

theorem factor_named {n : String} (h : IsSchemaName n) : Factor [.name n] (.named n) := by
  intro o frames
  have := h.free
  simp only [reservedNames, List.mem_cons, List.not_mem_nil, or_false, not_or] at this
  simp [step, stepOperand, atom, this]

theorem factor_literal (choice : Option String) :
    Factor [literalToken choice] (.literals [choice]) := by
  cases choice <;> exact fun _ _ => rfl

section Operands

variable {α : Type} {f : α → List Token} {v : α → TypeExpr}

/-- The factors of an intersection are read into the same member. -/
theorem foldlM_intersection (ms : List TypeExpr) (frames : List Frame) :
    ∀ (l : List α) (fs : List TypeExpr), l ≠ [] → (∀ a ∈ l, Factor (f a) (v a)) →
      (List.intercalate [.mark '&'] (l.map f)).foldlM step (.operand ⟨ms, fs⟩ frames) =
        some (.operator ⟨ms, fs ++ l.map v⟩ frames)
  | [a], fs, _, h => by simpa [Operands.add] using h a List.mem_cons_self ⟨ms, fs⟩ frames
  | a :: b :: l, fs, _, h => by
    have hrest := foldlM_intersection ms frames (b :: l) (fs ++ [v a]) (List.cons_ne_nil b l)
      fun c hc => h c (List.mem_cons_of_mem a hc)
    rw [List.map_cons, List.map_cons, List.intercalate_cons_cons, List.foldlM_append,
      List.foldlM_append, h a List.mem_cons_self]
    simpa [step, stepOperator, Operands.add] using hrest

/-- Each operand of a union is a member with a single factor. -/
theorem foldlM_union (frames : List Frame) :
    ∀ (l : List α) (ms : List TypeExpr), l ≠ [] → (∀ a ∈ l, Factor (f a) (v a)) →
      ∃ o : Operands,
        (List.intercalate [.mark '|'] (l.map f)).foldlM step (.operand ⟨ms, []⟩ frames) =
          some (.operator o frames) ∧ o.close.members = ms ++ l.map v
  | [a], ms, _, h => by
    refine ⟨_, by simpa using h a List.mem_cons_self ⟨ms, []⟩ frames, ?_⟩
    simp [Operands.close, Operands.add, combine]
  | a :: b :: l, ms, _, h => by
    obtain ⟨o, hrun, ho⟩ := foldlM_union frames (b :: l) (ms ++ [v a]) (List.cons_ne_nil b l)
      fun c hc => h c (List.mem_cons_of_mem a hc)
    refine ⟨o, ?_, by simpa using ho⟩
    rw [List.map_cons, List.map_cons, List.intercalate_cons_cons, List.foldlM_append,
      List.foldlM_append, h a List.mem_cons_self]
    -- the mark closes a member with the single factor just read
    simpa [step, stepOperator, Operands.add, Operands.close, combine] using hrun

theorem whole_combine (how : Combination) {l : List α} (hl : l ≠ [])
    (h : ∀ a ∈ l, Factor (f a) (v a)) :
    Whole (List.intercalate [operatorToken how] (l.map f)) (combine how (l.map v)) := by
  intro frames
  cases how with
  | intersection =>
    refine ⟨_, foldlM_intersection [] frames l [] hl h, ?_⟩
    simp [Operands.type, Operands.close, combine]
  | union =>
    obtain ⟨o, hrun, ho⟩ := foldlM_union frames l [] hl h
    refine ⟨o, hrun, ?_⟩
    rw [Operands.type, ho, List.nil_append]

end Operands

end TypeReader

namespace TypeExpr

mutual

/-- The type with the union of its literals for a list of literals. -/
def spelled : TypeExpr → TypeExpr
  | .literals choices => combine .union (choices.map fun c => .literals [c])
  | .array element => .array (spelled element)
  | .object properties => .object (spelledProperties properties)
  | .combination how members => .combination how (spelledMembers members)
  | t => t

def spelledProperties : List (PropertyKey × TypeExpr) → List (PropertyKey × TypeExpr)
  | [] => []
  | (key, type) :: rest => (key, spelled type) :: spelledProperties rest

def spelledMembers : List TypeExpr → List TypeExpr
  | [] => []
  | type :: rest => spelled type :: spelledMembers rest

end

theorem spelledProperties_eq_map : ∀ ps : List (PropertyKey × TypeExpr),
    spelledProperties ps = ps.map fun p => (p.1, spelled p.2)
  | [] => by rw [spelledProperties, List.map_nil]
  | (_, _) :: ps => by rw [spelledProperties, List.map_cons, spelledProperties_eq_map ps]

theorem spelledMembers_eq_map : ∀ ms : List TypeExpr, spelledMembers ms = ms.map spelled
  | [] => by rw [spelledMembers, List.map_nil]
  | _ :: ms => by rw [spelledMembers, List.map_cons, spelledMembers_eq_map ms]

end TypeExpr

namespace TypeReader

/-- A type is read back from its tokens, and without parentheses as a factor if it shows no
operator. -/
structure Reads (t : TypeExpr) : Prop where
  whole : Whole t.tokens t.spelled
  factor : t.isCompound = false → Factor t.tokens t.spelled

theorem Reads.of_factor {t : TypeExpr} (h : Factor t.tokens t.spelled) : Reads t :=
  ⟨h.whole, fun _ => h⟩

theorem Reads.grouped {t : TypeExpr} (h : Reads t) :
    Factor (groupedTokens t.isCompound t.tokens) t.spelled := by
  unfold groupedTokens
  split
  · exact h.whole.group
  · rename_i hc
    exact h.factor (by simpa using hc)

theorem reads_literals {choices : List (Option String)} (h : choices ≠ []) :
    Reads (.literals choices) := by
  have hwhole := whole_combine .union h fun c _ => factor_literal c
  refine ⟨by simpa [TypeExpr.tokens, spelled, operatorToken] using hwhole, fun hc => ?_⟩
  obtain _ | ⟨c, _ | ⟨d, rest⟩⟩ := choices
  · exact absurd rfl h
  · simpa [TypeExpr.tokens, spelled, combine] using factor_literal c
  · simp [isCompound] at hc

theorem reads {t : TypeExpr} (h : WellFormed IsSchemaName EndsOnLine t) : Reads t := by
  induction h with
  | unknown => exact .of_factor fun _ _ => rfl
  | string => exact .of_factor fun _ _ => rfl
  | number => exact .of_factor fun _ _ => rfl
  | boolean => exact .of_factor fun _ _ => rfl
  | openRecord => exact .of_factor factor_openRecord
  | literals hne => exact reads_literals hne
  | named hn => exact .of_factor (factor_named hn)
  | @array element _ ih =>
    refine .of_factor ?_
    simpa [TypeExpr.tokens, spelled] using ih.whole.element
  | @object properties _ _ ih =>
    refine .of_factor ?_
    simpa [spelled, spelledProperties_eq_map] using factor_object fun p hp => (ih p hp).whole
  | @combination how members hlen _ ih =>
    have hne : members ≠ [] := by
      rintro rfl
      simp at hlen
    have hwhole := whole_combine how hne fun m hm => (ih m hm).grouped
    obtain ⟨a, b, rest, rfl⟩ : ∃ a b rest, members = a :: b :: rest := by
      obtain _ | ⟨a, _ | ⟨b, rest⟩⟩ := members
      · exact absurd rfl hne
      · simp at hlen
      · exact ⟨a, b, rest, rfl⟩
    refine ⟨?_, fun hc => by simp [isCompound] at hc⟩
    simpa [TypeExpr.tokens, tokensOfMembers_eq_map, spelled, spelledMembers_eq_map, combine] using
      hwhole

/-- At any level the text of a type is read as that type. -/
theorem read_render {t : TypeExpr} (h : WellFormed IsSchemaName EndsOnLine t) (level : Int) :
    read (render level t) = some t.spelled := by
  obtain ⟨s, hs, hended⟩ := lexes_render h level []
  obtain ⟨o, hrun, ho⟩ := (reads h).whole []
  simp [read, Lexer.tokens?, hs, hended, hrun, State.ended, ho]

end TypeReader

end TypedClient
