import TypedClient.Proofs.Script.Access

/-!
# Template literals

A template is read as a row of units and substitutions, each with its expression (`template?`). What
its expressions stand for is left open (`World`), so whatever holds of the value of a template holds
for all values that its names may have. A reading is put together from left to right: characters add
their units (`Spans`), and a substitution adds its expression (`symbols_substitution`).
-/

namespace TypedClient.Script

open Text

/-- What a template consists of. -/
inductive Symbol where
  | unit (n : Nat)
  | value (e : Expr)
  deriving DecidableEq, Repr

/-- The symbols of a template up to its end. The number bounds the substitutions. -/
def symbols : Nat → List Char → Option (List Symbol × List Char)
  | 0, _ => none
  | n + 1, cs =>
    (read .template .between cs).bind fun chunk =>
      match chunk.ending with
      | .closed => some (chunk.units.map .unit, chunk.rest)
      | .substitution =>
        (expression? chunk.rest).bind fun r =>
          match skip r.2 with
          | '\x7d' :: rest =>
            (symbols n rest).map fun s => (chunk.units.map .unit ++ .value r.1 :: s.1, s.2)
          | _ => none

/-- A template literal at the beginning of a text: its symbols, and what follows it. -/
def template? : List Char → Option (List Symbol × List Char)
  | '`' :: cs => symbols (cs.length + 1) cs
  | _ => none

/-- What expressions stand for, and what their values are as texts. -/
structure World (V : Type) where
  name : String → V
  member : V → List Nat → V
  call : V → V → V
  text : V → List Nat

namespace World

variable {V : Type}

def eval (w : World V) : Expr → V
  | .name s => w.name s
  | .member target property => w.member (w.eval target) property
  | .call function argument => w.call (w.eval function) (w.eval argument)

variable (w : World V)

/-- The text that a template stands for. -/
def value (s : List Symbol) : List Nat :=
  s.flatMap fun
    | .unit n => [n]
    | .value e => w.text (w.eval e)

theorem value_append (s t : List Symbol) : w.value (s ++ t) = w.value s ++ w.value t := by
  simp [value]

theorem value_units (us : List Nat) : w.value (us.map .unit) = us := by
  induction us with
  | nil => rfl
  | cons u us ih => rw [List.map_cons, value, List.flatMap_cons, ← value, ih]; rfl

end World

/-! ## Characters -/

variable {c : Char} {cs rest : List Char} {us vs : List Nat} {e : Expr} {k : Nat}

/-- The text adds these units where it stands. -/
def Spans (cs : List Char) (us : List Nat) (rest : List Char) : Prop :=
  read .template .between (cs ++ rest) = (read .template .between rest).map (.after us)

/-- A phase in which a character adds units and begins anew. -/
theorem read_of_step_after {style : Style} {phase : Phase}
    (h : step style phase c = (step style .between c).map (.after us)) :
    read style phase (c :: cs) = (read style .between (c :: cs)).map (.after us) := by
  rw [read, read, h]
  rcases step style .between c with _ | ⟨vs, next⟩ | ⟨vs, ending⟩
  · rfl
  · simp only [Option.map_some, Move.after, Option.map_map, Chunk.after_comp]
  · rfl

theorem spans_char (hquote : c ≠ '`') (hslash : c ≠ '\\') (hreturn : c ≠ '\r')
    (hdollar : c = '$' → rest.head? ≠ some '\x7b') : Spans [c] (utf16Units c) rest := by
  by_cases hc : c = '$'
  · subst hc
    -- the sign alone is a character if no brace is next
    have hsign : read .template .between ('$' :: rest) =
        (read .template .dollar rest).map (.after []) := read_cons_of_go rfl
    rw [Spans, List.singleton_append, hsign, Chunk.after_nil, Option.map_id]
    rcases rest with _ | ⟨d, rest⟩
    · rfl
    · have hbrace : d ≠ '\x7b' := fun h => hdollar rfl (by rw [h]; rfl)
      have hstep : step .template .dollar d =
          (step .template .between d).map (.after [0x24]) := if_neg hbrace
      exact read_of_step_after hstep
  · exact passes_begin (by simp [Style.begin?, hquote, hslash, hc, hreturn]) rest

theorem spans_backtick (rest : List Char) : Spans ['\\', '`'] (utf16Units '`') rest :=
  passes_escaped (by simp) rfl rest

/-! ## Symbols -/

theorem symbols_of_spans (h : Spans cs us rest) (n : Nat) :
    symbols n (cs ++ rest) = (symbols n rest).map fun s => (us.map .unit ++ s.1, s.2) := by
  cases n with
  | zero => rfl
  | succ n =>
    rw [symbols, h, symbols]
    rcases read .template .between rest with _ | ⟨vs, _ | _, after⟩
    · rfl
    · simp [Chunk.after]
    · simp only [Option.map_some, Option.bind_some, Chunk.after]
      rcases expression? after with _ | ⟨e, more⟩
      · rfl
      · simp only [Option.bind_some]
        split
        · simp [Option.map_map, Function.comp_def]
        · rfl

theorem symbols_closed (n : Nat) (rest : List Char) :
    symbols (n + 1) ('`' :: rest) = some ([], rest) := by
  rw [symbols]
  rfl

theorem symbols_substitution (h : Spells cs e k) (hk : k ≤ cs.length) (n : Nat)
    (rest : List Char) : symbols (n + 1) ('$' :: '\x7b' :: (cs ++ '\x7d' :: rest)) =
      (symbols n rest).map fun s => (.value e :: s.1, s.2) := by
  have hopen : read .template .between ('$' :: '\x7b' :: (cs ++ '\x7d' :: rest)) =
      some ⟨[], .substitution, cs ++ '\x7d' :: rest⟩ := rfl
  have hstops : Stops ('\x7d' :: rest) := .cons rfl rfl (by decide)
  have hskip : skip ('\x7d' :: rest) = '\x7d' :: rest := skip_cons rfl
  have hexpr : expression? (cs ++ '\x7d' :: rest) = some (e, '\x7d' :: rest) := by
    rw [expression?, h.expressionWithin_eq hstops (by simp; omega), hskip]
  rw [symbols, hopen]
  simp only [Option.bind_some, hexpr, hskip, List.map_nil, List.nil_append]

end TypedClient.Script
