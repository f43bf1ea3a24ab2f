import Mathlib.Tactic.Common

/-!
# Computations that fail

What has to hold for a composed computation to fail, whatever its fault is: one of its steps fails,
and a step after the first is judged on the value that it is given. A list of computations fails if
one of them does.
-/

namespace TypedClient

variable {ε ε' α β : Type}

def Fails (x : Except ε α) : Prop :=
  ∃ e, x = .error e

@[simp] theorem fails_error (e : ε) : Fails (.error e : Except ε α) := ⟨e, rfl⟩

@[simp] theorem not_fails_ok (a : α) : ¬ Fails (.ok a : Except ε α) := nofun

@[simp] theorem not_fails_pure (a : α) : ¬ Fails (pure a : Except ε α) := nofun

theorem exists_of_not_fails {x : Except ε α} (h : ¬ Fails x) : ∃ a, x = .ok a := by
  cases x with
  | error e => exact absurd (fails_error e) h
  | ok a => exact ⟨a, rfl⟩

@[simp] theorem fails_map {x : Except ε α} {f : α → β} : Fails (x.map f) ↔ Fails x := by
  cases x <;> simp [Except.map]

@[simp] theorem fails_functor_map {x : Except ε α} {f : α → β} : Fails (f <$> x) ↔ Fails x :=
  fails_map

@[simp] theorem fails_mapError {x : Except ε α} {f : ε → ε'} : Fails (x.mapError f) ↔ Fails x := by
  cases x <;> simp [Except.mapError]

theorem mapError_eq_ok {x : Except ε α} {f : ε → ε'} {a : α} :
    x.mapError f = .ok a ↔ x = .ok a := by
  cases x <;> simp [Except.mapError]

theorem fails_bind {x : Except ε α} {f : α → Except ε β} :
    Fails (x >>= f) ↔ Fails x ∨ ∃ a, x = .ok a ∧ Fails (f a) := by
  cases x with
  | error e => exact ⟨fun _ => .inl (fails_error e), fun _ => fails_error e⟩
  | ok a =>
    have hbind : (Except.ok a >>= f) = f a := rfl
    simp [hbind]

theorem eq_error_of_bind_eq_error {x : Except ε α} {f : α → Except ε β} {e : ε}
    (h : x >>= f = .error e) : x = .error e ∨ ∃ a, x = .ok a ∧ f a = .error e := by
  cases x with
  | error e' =>
    cases h
    exact .inl rfl
  | ok a => exact .inr ⟨a, rfl, h⟩

theorem exists_of_mapError_eq_error {x : Except ε α} {f : ε → ε'} {e' : ε'}
    (h : x.mapError f = .error e') : ∃ e, x = .error e ∧ f e = e' := by
  cases x with
  | error e => exact ⟨e, rfl, Except.error.inj h⟩
  | ok a => cases h

theorem exists_of_bind_eq_ok {x : Except ε α} {f : α → Except ε β} {b : β}
    (h : x >>= f = .ok b) : ∃ a, x = .ok a ∧ f a = .ok b := by
  cases x with
  | error e => cases h
  | ok a => exact ⟨a, rfl, h⟩

theorem bind_of_eq_ok {x : Except ε α} {f : α → Except ε β} {a : α} (h : x = .ok a) :
    x >>= f = f a := by
  rw [h]
  rfl

theorem exists_of_map_eq_ok {x : Except ε α} {f : α → β} {b : β} (h : x.map f = .ok b) :
    ∃ a, x = .ok a ∧ f a = b := by
  cases x with
  | error e => cases h
  | ok a => exact ⟨a, rfl, Except.ok.inj h⟩

/-- A second step that fails on every value or on none. -/
theorem fails_bind_of {x : Except ε α} {f : α → Except ε β} {P : Prop}
    (h : ∀ a, x = .ok a → (Fails (f a) ↔ P)) : Fails (x >>= f) ↔ Fails x ∨ P := by
  rw [fails_bind]
  by_cases hx : Fails x
  · simp only [hx, true_or]
  · obtain ⟨a, ha⟩ := exists_of_not_fails hx
    simp only [hx, false_or]
    exact ⟨fun ⟨b, hb, hf⟩ => (h b hb).1 hf, fun hp => ⟨a, ha, (h a ha).2 hp⟩⟩

theorem fails_bind_pure {x : Except ε α} {f : α → β} :
    Fails (x >>= fun a => pure (f a)) ↔ Fails x := by
  rw [fails_bind_of (P := False) (by simp), or_false]

theorem fails_mapM (f : α → Except ε β) : ∀ l : List α, Fails (l.mapM f) ↔ ∃ a ∈ l, Fails (f a)
  | [] => by simp
  | a :: l => by
    have htail (b : β) : Fails (l.mapM f >>= fun bs => pure (b :: bs)) ↔
        ∃ c ∈ l, Fails (f c) := by
      rw [fails_bind_pure, fails_mapM f l]
    rw [List.mapM_cons, fails_bind_of fun b _ => htail b]
    simp only [List.mem_cons, exists_eq_or_imp]

theorem mapM_singleton_eq_ok {f : α → Except ε β} {a : α} {b : β} (h : f a = .ok b) :
    [a].mapM f = .ok [b] := by
  rw [List.mapM_cons, h]
  rfl

theorem length_of_mapM_eq_ok {f : α → Except ε β} :
    ∀ {l : List α} {rs : List β}, l.mapM f = .ok rs → rs.length = l.length
  | [], _, h => by
    cases h
    rfl
  | a :: l, _, h => by
    rw [List.mapM_cons] at h
    obtain ⟨b, -, h⟩ := exists_of_bind_eq_ok h
    obtain ⟨bs, hbs, h⟩ := exists_of_bind_eq_ok h
    cases h
    rw [List.length_cons, List.length_cons, length_of_mapM_eq_ok hbs]

/-- What the items of a list are known for, their results are known for too. -/
theorem exists_mem_of_mapM {f : α → Except ε β} {P : α → Prop} {Q : β → Prop}
    (hf : ∀ a b, f a = .ok b → (Q b ↔ P a)) : ∀ {l : List α} {rs : List β}, l.mapM f = .ok rs →
      ((∃ b ∈ rs, Q b) ↔ ∃ a ∈ l, P a)
  | [], rs, h => by
    cases h
    simp
  | a :: l, rs, h => by
    rw [List.mapM_cons] at h
    rcases ha : f a with e | b
    · rw [ha] at h
      cases h
    · rcases hl : l.mapM f with e | bs
      · rw [ha, hl] at h
        cases h
      · rw [ha, hl] at h
        cases h
        simp only [List.mem_cons, exists_eq_or_imp, hf a b ha, exists_mem_of_mapM hf hl]

end TypedClient
