import Mathlib.Data.Nat.Digits.Defs
import TypedClient.Proofs.Failure.Generation

/-!
# Status codes of errors

The type of the error statuses ought to list the codes that write a number of at least 400, whatever
else stands among the codes (`ErrorStatuses`). It does unless a code consists of digits that form no
numeral (`Unreadable`): such a code is not passed over, and the first one ends the generation
(`errorType_eq_union_iff`).
-/

namespace TypedClient.Signature

open Text

variable {code : String} {codes : List String} {n : Nat} {ns : List Nat}

/-! ## Numerals -/

/-- The code is a numeral of decimal digits, be it of several scripts, and this is its value. -/
def Writes (code : String) (n : Nat) : Prop :=
  ∃ digits, digits ≠ [] ∧ code.toList.map decimalValue? = digits.map some ∧
    n = Nat.ofDigits 10 digits.reverse

/-- A text of digits that is no numeral: one of its digits is no decimal digit, or it is too long to
be read. -/
def Unreadable (code : String) : Prop :=
  code ≠ "" ∧ (∀ c ∈ code.toList, isDigit c = true) ∧
    ((∃ c ∈ code.toList, decimalValue? c = none) ∨ numeralLimit < code.length)

theorem ofDigitValues_eq (digits : List Nat) :
    ofDigitValues digits = Nat.ofDigits 10 digits.reverse := by
  rw [Nat.ofDigits_eq_foldr, List.foldr_reverse, ofDigitValues]
  congr 1
  funext n d
  simp [Nat.add_comm]

theorem mapM_eq_some_iff {α β : Type} {f : α → Option β} : ∀ {as : List α} {bs : List β},
    as.mapM f = some bs ↔ as.map f = bs.map some
  | [], bs => by cases bs <;> simp
  | a :: as, [] => by simp [List.mapM_cons, Option.bind_eq_some_iff]
  | a :: as, b :: bs => by
    have ih := @mapM_eq_some_iff _ _ f as bs
    simp [List.mapM_cons, Option.bind_eq_some_iff, ih]

theorem numeralValue?_eq_some_iff :
    numeralValue? code = some n ↔ Writes code n ∧ code.length ≤ numeralLimit := by
  unfold numeralValue? Writes
  split
  · rename_i h
    rw [Bool.or_eq_true, String.isEmpty_iff, decide_eq_true_eq] at h
    simp only [reduceCtorEq, false_iff, not_and, not_le]
    rintro ⟨digits, hne, hdigits, -⟩
    refine h.resolve_left ?_
    rintro rfl
    exact hne (List.map_eq_nil_iff.1 hdigits.symm)
  · rename_i h
    rw [Bool.or_eq_true, String.isEmpty_iff, decide_eq_true_eq, not_or, not_lt] at h
    simp only [Option.map_eq_some_iff, mapM_eq_some_iff, ofDigitValues_eq, h.2, and_true]
    refine exists_congr fun digits => ⟨fun ⟨hdigits, hn⟩ => ⟨?_, hdigits, hn.symm⟩,
      fun ⟨_, hdigits, hn⟩ => ⟨hdigits, hn.symm⟩⟩
    rintro rfl
    exact h.1 (String.toList_eq_nil_iff.1 (List.map_eq_nil_iff.1 hdigits))

theorem Writes.unique {m : Nat} (h : Writes code n) (h' : Writes code m) : n = m := by
  obtain ⟨digits, -, hdigits, rfl⟩ := h
  obtain ⟨digits', -, hdigits', rfl⟩ := h'
  rw [← mapM_eq_some_iff] at hdigits hdigits'
  rw [Option.some.inj (hdigits.symm.trans hdigits')]

theorem isDigits_iff : isDigits code = true ↔ code ≠ "" ∧ ∀ c ∈ code.toList, isDigit c = true := by
  simp [isDigits]

/-- A text writes a number if and only if it is not empty and all its characters are decimal
digits. -/
theorem exists_writes_iff :
    (∃ n, Writes code n) ↔ code ≠ "" ∧ ∀ c ∈ code.toList, decimalValue? c ≠ none := by
  constructor
  · rintro ⟨n, digits, hne, hdigits, -⟩
    refine ⟨?_, fun c hc hnone => ?_⟩
    · rintro rfl
      exact hne (List.map_eq_nil_iff.1 hdigits.symm)
    · have hmem := List.mem_map_of_mem (f := decimalValue?) hc
      simp [hdigits, hnone] at hmem
  · rintro ⟨hne, hsome⟩
    refine ⟨_, code.toList.map fun c => (decimalValue? c).getD 0, by simpa using hne, ?_, rfl⟩
    rw [List.map_map]
    refine List.map_congr_left fun c hc => ?_
    obtain ⟨d, hd⟩ := Option.ne_none_iff_exists'.1 (hsome c hc)
    simp [hd]

theorem Writes.isDigits (h : Writes code n) : isDigits code = true := by
  obtain ⟨hne, hsome⟩ := exists_writes_iff.1 ⟨n, h⟩
  refine isDigits_iff.2 ⟨hne, fun c hc => ?_⟩
  simp [isDigit, Option.isSome_iff_ne_none, hsome c hc]

theorem noNumeral_iff : NoNumeral code ↔ Unreadable code := by
  have hvalue : numeralValue? code = none ↔
      ((∃ n, Writes code n) → numeralLimit < code.length) := by
    simp only [Option.eq_none_iff_forall_ne_some, ne_eq, numeralValue?_eq_some_iff, not_and, not_le,
      forall_exists_index]
  rw [NoNumeral, isDigits_iff, hvalue, exists_writes_iff, Unreadable, and_assoc]
  refine and_congr_right fun hne => and_congr_right fun _ => ?_
  simp only [hne, ne_eq, not_false_eq_true, true_and]
  rw [imp_iff_not_or]
  push Not
  rfl

/-! ## Statuses -/

/-- The union of the statuses, if there are any. -/
def union? (statuses : List Nat) : Option String :=
  if statuses = [] then none else some (String.intercalate " | " (statuses.map toString))

/-- The numbers of at least 400 that the codes write, in the order of the codes. -/
inductive ErrorStatuses : List String → List Nat → Prop
  | nil : ErrorStatuses [] []
  | error {code : String} {codes : List String} {n : Nat} {ns : List Nat} : Writes code n →
    400 ≤ n → ErrorStatuses codes ns → ErrorStatuses (code :: codes) (n :: ns)
  | other {code : String} {codes : List String} {ns : List Nat} :
    (∀ n, Writes code n → n < 400) → ErrorStatuses codes ns → ErrorStatuses (code :: codes) ns

namespace ErrorStatuses

theorem exists_of_codes : ∀ codes : List String, ∃ ns, ErrorStatuses codes ns
  | [] => ⟨[], .nil⟩
  | code :: codes => by
    obtain ⟨ns, h⟩ := exists_of_codes codes
    by_cases herror : ∃ n, Writes code n ∧ 400 ≤ n
    · obtain ⟨n, hwrites, hn⟩ := herror
      exact ⟨n :: ns, .error hwrites hn h⟩
    · push Not at herror
      exact ⟨ns, .other herror h⟩

theorem unique {ms : List Nat} (h : ErrorStatuses codes ns) (h' : ErrorStatuses codes ms) :
    ms = ns := by
  induction h generalizing ms with
  | nil =>
    cases h'
    rfl
  | error hwrites hn _ ih =>
    cases h' with
    | error hwrites' _ h' => rw [hwrites.unique hwrites', ih h']
    | other hnone _ => exact absurd (hnone _ hwrites) (not_lt.2 hn)
  | other hnone _ ih =>
    cases h' with
    | error hwrites hn _ => exact absurd (hnone _ hwrites) (not_lt.2 hn)
    | other _ h' => exact ih h'

theorem eq_nil_iff (h : ErrorStatuses codes ns) :
    ns = [] ↔ ∀ code ∈ codes, ∀ n, Writes code n → n < 400 := by
  induction h with
  | nil => simp
  | error hwrites hn _ _ =>
    refine iff_of_false (by simp) fun hall => ?_
    exact absurd (hall _ List.mem_cons_self _ hwrites) (not_lt.2 hn)
  | other hnone _ ih => rw [List.forall_mem_cons, ih, and_iff_right hnone]

end ErrorStatuses

theorem statusOf_eq_error (h : Unreadable code) : statusOf code = .error code := by
  obtain ⟨hdigits, hnone⟩ := noNumeral_iff.2 h
  rw [statusOf, if_pos hdigits, hnone]

/-- A code is read as the number that it writes, if it writes any. -/
theorem exists_statusOf_eq_ok (h : ¬ Unreadable code) :
    ∃ status, statusOf code = .ok status ∧ ∀ n, status = some n ↔ Writes code n := by
  unfold statusOf
  split
  · rename_i hdigits
    rcases hvalue : numeralValue? code with _ | m
    · exact absurd (noNumeral_iff.1 ⟨hdigits, hvalue⟩) h
    · obtain ⟨hwrites, -⟩ := numeralValue?_eq_some_iff.1 hvalue
      refine ⟨some m, rfl, fun n => ⟨fun heq => Option.some.inj heq ▸ hwrites, fun hn => ?_⟩⟩
      rw [hwrites.unique hn]
  · rename_i hdigits
    refine ⟨none, rfl, fun n => iff_of_false nofun fun hn => hdigits hn.isDigits⟩

theorem errorCodes_cons (code : String) (codes : List String) : errorCodes (code :: codes) =
    statusOf code >>= fun status =>
      (errorCodes codes).map ((status.filter (leastErrorCode ≤ ·)).toList ++ ·) := by
  unfold errorCodes
  rw [List.mapM_cons]
  rcases statusOf code with e | status
  · rfl
  · rcases codes.mapM statusOf with e | statuses
    · rfl
    · refine congrArg Except.ok ?_
      rw [List.filterMap_cons]
      cases status.filter (leastErrorCode ≤ ·) <;> rfl

/-- If every code can be read, the error statuses are found. -/
theorem ErrorStatuses.errorCodes_eq (h : ErrorStatuses codes ns)
    (hread : ∀ code ∈ codes, ¬ Unreadable code) : errorCodes codes = .ok ns := by
  induction h with
  | nil => rfl
  | @error code codes n ns hwrites hn _ ih =>
    obtain ⟨hcode, hcodes⟩ := List.forall_mem_cons.1 hread
    obtain ⟨status, hstatus, hvalue⟩ := exists_statusOf_eq_ok hcode
    have hfilter : status.filter (leastErrorCode ≤ ·) = some n := by
      simp [(hvalue n).2 hwrites, leastErrorCode, hn]
    rw [errorCodes_cons, hstatus, ih hcodes]
    exact congrArg (fun o : Option Nat => Except.ok (o.toList ++ ns)) hfilter
  | @other code codes ns hnone _ ih =>
    obtain ⟨hcode, hcodes⟩ := List.forall_mem_cons.1 hread
    obtain ⟨status, hstatus, hvalue⟩ := exists_statusOf_eq_ok hcode
    have hfilter : status.filter (leastErrorCode ≤ ·) = none := by
      rw [Option.filter_eq_none_iff]
      intro n hn
      have hless : n < leastErrorCode := hnone n ((hvalue n).1 hn)
      simpa using hless
    rw [errorCodes_cons, hstatus, ih hcodes]
    exact congrArg (fun o : Option Nat => Except.ok (o.toList ++ ns)) hfilter

/-- The first code that cannot be read ends the search. -/
theorem errorCodes_eq_error (before : List String) (hread : ∀ c ∈ before, ¬ Unreadable c)
    (h : Unreadable code) (after : List String) :
    errorCodes (before ++ code :: after) = .error code := by
  induction before with
  | nil => rw [List.nil_append, errorCodes_cons, statusOf_eq_error h]; rfl
  | cons c before ih =>
    obtain ⟨hc, hbefore⟩ := List.forall_mem_cons.1 hread
    obtain ⟨status, hstatus, -⟩ := exists_statusOf_eq_ok hc
    rw [List.cons_append, errorCodes_cons, hstatus, ih hbefore]
    rfl

theorem errorType_eq_ok (h : errorCodes codes = .ok ns) : errorType codes = .ok (union? ns) := by
  rw [errorType, h, union?]
  cases ns <;> rfl

theorem errorType_eq_error (h : errorCodes codes = .error code) :
    errorType codes = .error code := by
  rw [errorType, h]
  rfl

/-- If a code cannot be read, there is a first one. -/
theorem exists_first (h : ∃ code ∈ codes, Unreadable code) : ∃ before code after,
    codes = before ++ code :: after ∧ (∀ c ∈ before, ¬ Unreadable c) ∧ Unreadable code := by
  classical
  obtain ⟨c, hc, hunreadable⟩ := h
  have hsome : (codes.find? fun c => decide (Unreadable c)).isSome :=
    List.find?_isSome.2 ⟨c, hc, by simpa using hunreadable⟩
  obtain ⟨code, hfirst⟩ := Option.isSome_iff_exists.1 hsome
  obtain ⟨hcode, before, after, heq, hbefore⟩ := List.find?_eq_some_iff_append.1 hfirst
  exact ⟨before, code, after, heq, by simpa using hbefore, by simpa using hcode⟩

/-- Every list of codes has its error statuses: the numbers of at least 400 that its numerals write,
in order. The type of the errors is their union, or nothing if there are none, unless a code is a
text of digits that is no numeral. Then the first of these codes is the error. -/
theorem errorType_eq_union_iff (codes : List String) : ∃ statuses,
    ErrorStatuses codes statuses ∧
    (∀ others, ErrorStatuses codes others → others = statuses) ∧
    (union? statuses = none ↔ ∀ code ∈ codes, ∀ n, Writes code n → n < 400) ∧
    (errorType codes = .ok (union? statuses) ↔ ∀ code ∈ codes, ¬ Unreadable code) ∧
    ∀ code, errorType codes = .error code ↔ ∃ before after, codes = before ++ code :: after ∧
      (∀ c ∈ before, ¬ Unreadable c) ∧ Unreadable code := by
  obtain ⟨statuses, h⟩ := ErrorStatuses.exists_of_codes codes
  have hnone : union? statuses = none ↔ statuses = [] := by simp [union?]
  have hok (hread : ∀ code ∈ codes, ¬ Unreadable code) :
      errorType codes = .ok (union? statuses) := errorType_eq_ok (h.errorCodes_eq hread)
  have herror {code : String} {before after : List String} (heq : codes = before ++ code :: after)
      (hbefore : ∀ c ∈ before, ¬ Unreadable c) (hcode : Unreadable code) :
      errorType codes = .error code :=
    errorType_eq_error (heq ▸ errorCodes_eq_error before hbefore hcode after)
  refine ⟨statuses, h, fun others => h.unique, hnone.trans h.eq_nil_iff, ⟨fun heq => ?_, hok⟩,
    fun code => ⟨fun heq => ?_, fun ⟨before, after, hcodes, hbefore, hcode⟩ =>
      herror hcodes hbefore hcode⟩⟩
  · by_contra hread
    push Not at hread
    obtain ⟨before, code, after, hcodes, hbefore, hcode⟩ := exists_first hread
    rw [herror hcodes hbefore hcode] at heq
    cases heq
  · by_cases hread : ∀ code ∈ codes, ¬ Unreadable code
    · rw [hok hread] at heq
      cases heq
    · push Not at hread
      obtain ⟨before, first, after, hcodes, hbefore, hfirst⟩ := exists_first hread
      rw [herror hcodes hbefore hfirst] at heq
      cases heq
      exact ⟨before, after, hcodes, hbefore, hfirst⟩

example : errorType ["200", "default", "4XX", "404", "٥٠٠"] = .ok (some "404 | 500") := by
  decide +kernel

/-- A superscript digit is a digit and no decimal digit, so it is not passed over: nothing is said
about the code before it. -/
theorem not_errorType_eq_union : errorType ["404", "²"] = .error "²" ∧
    ErrorStatuses ["404", "²"] [404] ∧ ¬ ∃ statuses, errorType ["404", "²"] = .ok statuses := by
  have herror : errorType ["404", "²"] = .error "²" := by decide +kernel
  have hwrites : Writes "404" 404 := ⟨[4, 0, 4], by decide, by decide +kernel, by decide⟩
  have hraised : ∀ n, Writes "²" n → n < 400 := by
    intro n hn
    exact absurd rfl ((exists_writes_iff.1 ⟨n, hn⟩).2 '²' (by simp))
  refine ⟨herror, .error hwrites (by decide) (.other hraised .nil), ?_⟩
  rintro ⟨statuses, heq⟩
  rw [herror] at heq
  cases heq

end TypedClient.Signature
