import TypedClient.Proofs.Accepted
import TypedClient.Proofs.Failure.Extraction

/-!
# Looking up keys

In a map whose keys are distinct the value under a text does not depend on the order of the entries
(`Value.find?_perm`). When the keys of a map of the document become texts, a number may take the
text of another key; it never takes a word with a letter that no number is written with, so under
such a word the value stays what it was (`Validation.find?_ofPairs`).
-/

namespace TypedClient

/-! ## Maps of the document -/

namespace Value

variable {entries entries' : List (Value × Value)} {key : String} {v v' : Value}

/-- No text is the key of two entries. -/
def Distinct (entries : List (Value × Value)) : Prop :=
  (entries.map Prod.fst).Pairwise fun k k' => ∀ key, k = .text key → k' ≠ .text key

theorem Distinct.perm (h : Distinct entries) (hperm : entries.Perm entries') : Distinct entries' :=
  (hperm.map Prod.fst).pairwise h fun hk key hk' hkey => hk key hkey hk'

theorem Distinct.unique : ∀ {entries : List (Value × Value)}, Distinct entries →
    (.text key, v) ∈ entries → (.text key, v') ∈ entries → v = v'
  | e :: entries, h, hv, hv' => by
    obtain ⟨hhead, htail⟩ := List.pairwise_cons.1 h
    have hne {w : Value} (hw : (.text key, w) ∈ entries) : e.1 ≠ .text key :=
      fun he => hhead _ (List.mem_map_of_mem (f := Prod.fst) hw) key he rfl
    rcases List.mem_cons.1 hv with hv | hv <;> rcases List.mem_cons.1 hv' with hv' | hv'
    · exact congrArg Prod.snd (hv.trans hv'.symm)
    · exact absurd (congrArg Prod.fst hv).symm (hne hv')
    · exact absurd (congrArg Prod.fst hv').symm (hne hv)
    · exact Distinct.unique htail hv hv'

theorem find?_isSome_of_mem (h : (.text key, v) ∈ entries) : ∃ w, find? entries key = some w := by
  have hsome : (entries.find? fun e => e.1.isText key).isSome :=
    List.find?_isSome.2 ⟨_, h, by simp [isText]⟩
  exact Option.isSome_iff_exists.1 (by rw [find?, Option.isSome_map, hsome])

theorem find?_eq_some_iff
    (h : ∀ w w', (.text key, w) ∈ entries → (.text key, w') ∈ entries → w = w') :
    find? entries key = some v ↔ (.text key, v) ∈ entries := by
  refine ⟨mem_of_find?, fun hmem => ?_⟩
  obtain ⟨w, hw⟩ := find?_isSome_of_mem hmem
  rw [hw, h w v (mem_of_find? hw) hmem]

/-- The value under a text is the same in every order of the entries. -/
theorem find?_perm (h : Distinct entries) (hperm : entries.Perm entries') (key : String) :
    find? entries' key = find? entries key := by
  have hunique : ∀ w w', (.text key, w) ∈ entries → (.text key, w') ∈ entries → w = w' :=
    fun _ _ => h.unique
  ext v
  rw [find?_eq_some_iff hunique, find?_eq_some_iff fun w w' hw hw' =>
    hunique w w' (hperm.mem_iff.2 hw) (hperm.mem_iff.2 hw'), hperm.mem_iff]

theorem sameKey_text (v : Value) (key : String) : v.sameKey (.text key) = v.isText key := by
  cases v <;> simp [sameKey, isText, toInt?]

theorem isText_self (key : String) : (text key).isText key = true :=
  isText_eq_true.2 rfl

theorem find?_put_self (entries : List (Value × Value)) (key : String) (v : Value) :
    find? (put entries (.text key) v) key = some v := by
  unfold put
  simp only [sameKey_text]
  split
  · rename_i hany
    have hkeys (e : Value × Value) :
        (if e.1.isText key then (e.1, v) else e).1.isText key = e.1.isText key := by
      split <;> rfl
    obtain ⟨e, he, hkey⟩ := List.any_eq_true.1 hany
    have hsome : (entries.find? fun e => e.1.isText key).isSome :=
      List.find?_isSome.2 ⟨e, he, hkey⟩
    obtain ⟨e', he'⟩ := Option.isSome_iff_exists.1 hsome
    have hkey' : e'.1.isText key = true := by simpa using List.find?_some he'
    simp only [find?, List.find?_map, Function.comp_def, hkeys, he', Option.map_some, hkey',
      if_true]
  · rename_i hany
    have hnone : entries.find? (fun e => e.1.isText key) = none :=
      List.find?_eq_none.2 fun e he hkey => hany (List.any_eq_true.2 ⟨e, he, hkey⟩)
    simp [find?, List.find?_append, hnone, isText_self]

theorem find?_put_of_ne {entries : List (Value × Value)} {key key' : String} (h : key' ≠ key)
    (v : Value) : find? (put entries (.text key) v) key' = find? entries key' := by
  unfold put
  simp only [sameKey_text]
  split
  · have hkeys (e : Value × Value) :
        (if e.1.isText key then (e.1, v) else e).1 = e.1 := by
      split <;> rfl
    have hsame (e : Value × Value) (he : e.1.isText key' = true) :
        (if e.1.isText key then (e.1, v) else e) = e := by
      rw [isText_eq_true] at he
      simp [he, isText, h]
    simp only [find?, List.find?_map, Function.comp_def, hkeys, Option.map_map]
    refine Option.map_congr fun e he => congrArg Prod.snd (hsame e ?_)
    simpa using List.find?_some he
  · have hother : (text key).isText key' = false := by simp [isText, h.symm]
    simp [find?, List.find?_append, hother]

/-- A new key is set behind the others. -/
theorem put_of_find?_eq_none (h : find? entries key = none) (v : Value) :
    put entries (.text key) v = entries ++ [(.text key, v)] := by
  have hnone : ¬ entries.any (fun e => e.1.sameKey (.text key)) = true := by
    rw [find?, Option.map_eq_none_iff, List.find?_eq_none] at h
    simp only [sameKey_text, List.any_eq_true, not_exists, not_and]
    exact h
  rw [put, if_neg hnone]

end Value

/-! ## Entries under texts -/

namespace Assoc

variable {α : Type} {name : String} {value : α}

theorem mem_of_mem_put {entries : List (String × α)} {name' : String} {value' : α}
    (h : (name, value) ∈ put entries name' value') :
    (name, value) = (name', value') ∨ (name, value) ∈ entries := by
  unfold put at h
  split at h
  · obtain ⟨e, he, heq⟩ := List.mem_map.1 h
    split at heq
    · exact .inl heq.symm
    · exact .inr (heq ▸ he)
  · rcases List.mem_append.1 h with h | h
    · exact .inr h
    · exact .inl (List.mem_singleton.1 h)

theorem mem_of_mem_foldl : ∀ (pairs : List (String × α)) {entries : List (String × α)},
    (name, value) ∈ pairs.foldl (fun es p => put es p.1 p.2) entries →
      (name, value) ∈ entries ∨ (name, value) ∈ pairs
  | [], _, h => .inl h
  | p :: pairs, _, h => by
    rcases mem_of_mem_foldl pairs h with h | h
    · rcases mem_of_mem_put h with h | h
      · exact .inr (h ▸ List.mem_cons_self)
      · exact .inl h
    · exact .inr (List.mem_cons_of_mem p h)

/-- Every entry that results from setting names is one of those that were set. -/
theorem mem_of_mem_ofPairs {pairs : List (String × α)} (h : (name, value) ∈ ofPairs pairs) :
    (name, value) ∈ pairs := by
  rcases mem_of_mem_foldl pairs h with h | h
  · cases h
  · exact h

theorem find?_ofPairs_eq_some_iff {pairs : List (String × α)}
    (h : ∀ a b, (name, a) ∈ pairs → (name, b) ∈ pairs → a = b) :
    find? (ofPairs pairs) name = some value ↔ (name, value) ∈ pairs := by
  have hmem {a : α} (ha : find? (ofPairs pairs) name = some a) : (name, a) ∈ pairs :=
    mem_of_mem_ofPairs (mem_of_find? ha)
  refine ⟨hmem, fun hvalue => ?_⟩
  have hname : name ∈ names (ofPairs pairs) :=
    mem_names_ofPairs.2 (List.mem_map_of_mem (f := Prod.fst) hvalue)
  obtain ⟨a, ha⟩ := Option.isSome_iff_exists.1 (find?_isSome_iff.2 hname)
  rw [ha, h a value (hmem ha) hvalue]

theorem put_of_notMem {entries : List (String × α)} {name : String} (h : name ∉ names entries)
    (value : α) : put entries name value = entries ++ [(name, value)] := by
  rw [put, if_neg h]

theorem foldl_put_of_nodup : ∀ {pairs entries : List (String × α)},
    (names (entries ++ pairs)).Nodup →
      pairs.foldl (fun es p => put es p.1 p.2) entries = entries ++ pairs
  | [], entries, _ => (List.append_nil entries).symm
  | p :: pairs, entries, h => by
    have hp : p.1 ∉ names entries := by
      rw [names, List.map_append, List.map_cons, List.nodup_append] at h
      exact fun hmem => h.2.2 _ hmem _ List.mem_cons_self rfl
    rw [List.foldl_cons, put_of_notMem hp, foldl_put_of_nodup (by simpa using h),
      List.append_assoc, List.singleton_append]

/-- Setting distinct names gives the pairs as they are. -/
theorem ofPairs_of_nodup {pairs : List (String × α)} (h : (names pairs).Nodup) :
    ofPairs pairs = pairs :=
  foldl_put_of_nodup h

/-! ### Values that are related -/

variable {S : α → α → Prop} {entries entries' pairs pairs' : List (String × α)}

theorem names_eq_of_forall₂ {β : Type} {R : α → β → Prop} {others : List (String × β)}
    (h : List.Forall₂ (fun e e' => e.1 = e'.1 ∧ R e.2 e'.2) entries others) :
    names entries = names others := by
  induction h with
  | nil => rfl
  | cons he _ ih => exact congrArg₂ List.cons he.1 ih

theorem rel_find? (h : List.Forall₂ (fun e e' => e.1 = e'.1 ∧ S e.2 e'.2) entries entries')
    (name : String) : Option.Rel S (find? entries name) (find? entries' name) := by
  induction h with
  | nil => exact .none
  | @cons e e' _ _ he _ ih =>
    unfold find? at ih ⊢
    rw [List.find?_cons, List.find?_cons, ← he.1]
    cases decide (e.1 = name) with
    | true => exact .some he.2
    | false => exact ih

theorem forall₂_put (h : List.Forall₂ (fun e e' => e.1 = e'.1 ∧ S e.2 e'.2) entries entries')
    {value value' : α} (hvalue : S value value') :
    List.Forall₂ (fun e e' => e.1 = e'.1 ∧ S e.2 e'.2) (put entries name value)
      (put entries' name value') := by
  unfold put
  rw [← names_eq_of_forall₂ h]
  split
  · rw [List.forall₂_map_left_iff, List.forall₂_map_right_iff]
    refine h.imp fun e e' he => ?_
    rw [← he.1]
    split
    · exact ⟨rfl, hvalue⟩
    · exact he
  · exact List.rel_append h (.cons ⟨rfl, hvalue⟩ .nil)

theorem forall₂_foldl (hpairs : List.Forall₂ (fun e e' => e.1 = e'.1 ∧ S e.2 e'.2) pairs pairs')
    (h : List.Forall₂ (fun e e' => e.1 = e'.1 ∧ S e.2 e'.2) entries entries') :
    List.Forall₂ (fun e e' => e.1 = e'.1 ∧ S e.2 e'.2)
      (pairs.foldl (fun es p => put es p.1 p.2) entries)
      (pairs'.foldl (fun es p => put es p.1 p.2) entries') := by
  induction hpairs generalizing entries entries' with
  | nil => exact h
  | @cons p p' _ _ hp _ ih =>
    obtain ⟨name, value⟩ := p
    obtain ⟨_, value'⟩ := p'
    obtain ⟨rfl, hvalue⟩ := hp
    exact ih (forall₂_put h hvalue)

theorem forall₂_ofPairs (h : List.Forall₂ (fun e e' => e.1 = e'.1 ∧ S e.2 e'.2) pairs pairs') :
    List.Forall₂ (fun e e' => e.1 = e'.1 ∧ S e.2 e'.2) (ofPairs pairs) (ofPairs pairs') :=
  forall₂_foldl h .nil

end Assoc

/-! ## Texts of numbers -/

/-- The characters that numbers are written with: digits, marks, and the letters of an exponent, of
infinity and of what is no number. -/
def isNumeralChar (c : Char) : Bool :=
  c.isDigit || ['.', '+', '-', 'e', 'i', 'n', 'f', 'a'].contains c

theorem isNumeralChar_of_mem_toDigits {n : Nat} {c : Char} (h : c ∈ Nat.toDigits 10 n) :
    isNumeralChar c = true := by
  rw [isNumeralChar, Nat.isDigit_of_mem_toDigits (by decide) (by decide) h, Bool.true_or]

theorem isNumeralChar_of_mem_int {i : Int} {c : Char} (h : c ∈ (toString i).toList) :
    isNumeralChar c = true := by
  cases i with
  | ofNat n =>
    have : (toString (Int.ofNat n)).toList = Nat.toDigits 10 n := String.toList_ofList
    exact isNumeralChar_of_mem_toDigits (this ▸ h)
  | negSucc n =>
    have : (toString (Int.negSucc n)).toList = '-' :: Nat.toDigits 10 (n + 1) := by
      simp [toString, Int.repr, Nat.repr]
    rw [this, List.mem_cons] at h
    rcases h with rfl | h
    · rfl
    · exact isNumeralChar_of_mem_toDigits h

namespace Binary64

theorem isNumeralChar_of_mem_leadingDigits {digits : Nat} {scale : Int} {c : Char}
    (h : c ∈ (leadingDigits digits scale).1) : isNumeralChar c = true := by
  rw [leadingDigits, List.mem_reverse] at h
  exact isNumeralChar_of_mem_toDigits
    (List.mem_reverse.1 ((List.dropWhile_sublist _).subset h))

variable {ds : List Char} {exponent : Int} {c : Char}

theorem isNumeralChar_of_mem_positional (hds : ∀ c ∈ ds, isNumeralChar c = true)
    (h : c ∈ positional ds exponent) : isNumeralChar c = true := by
  have hzero : isNumeralChar '0' = true := rfl
  have hpoint : isNumeralChar '.' = true := rfl
  unfold positional at h
  split at h
  · simp only [List.mem_cons, List.mem_append, List.mem_replicate] at h
    rcases h with rfl | rfl | ⟨-, rfl⟩ | h
    · exact hzero
    · exact hpoint
    · exact hzero
    · exact hds c h
  · simp only [List.mem_cons, List.mem_append, List.mem_replicate] at h
    rcases h with (h | ⟨-, rfl⟩) | rfl | h
    · exact hds c (List.mem_of_mem_take h)
    · exact hzero
    · exact hpoint
    · split at h
      · exact List.mem_singleton.1 h ▸ hzero
      · exact hds c (List.mem_of_mem_drop h)

theorem isNumeralChar_of_mem_scientific (hds : ∀ c ∈ ds, isNumeralChar c = true)
    (h : c ∈ scientific ds exponent) : isNumeralChar c = true := by
  unfold scientific at h
  simp only [List.mem_cons, List.mem_append, List.mem_replicate] at h
  rcases h with (h | h) | rfl | rfl | ⟨-, rfl⟩ | h
  · exact hds c (List.mem_of_mem_take h)
  · split at h
    · cases h
    · rcases List.mem_cons.1 h with rfl | h
      · rfl
      · exact hds c (List.mem_of_mem_drop h)
  · rfl
  · split <;> rfl
  · rfl
  · exact isNumeralChar_of_mem_toDigits h

theorem isNumeralChar_of_mem_magnitudeText {m : Nat} {e : Int} (h : c ∈ magnitudeText m e) :
    isNumeralChar c = true := by
  unfold magnitudeText at h
  split at h
  · simp only [List.mem_cons, List.not_mem_nil, or_false] at h
    rcases h with rfl | rfl | rfl <;> rfl
  · simp only at h
    split at h
    · exact isNumeralChar_of_mem_positional (fun _ => isNumeralChar_of_mem_leadingDigits) h
    · exact isNumeralChar_of_mem_scientific (fun _ => isNumeralChar_of_mem_leadingDigits) h

theorem isNumeralChar_of_mem_text {x : Binary64} (h : c ∈ x.text.toList) :
    isNumeralChar c = true := by
  cases x with
  | nan =>
    have hall : nan.text.toList.all isNumeralChar = true := by decide
    exact List.all_eq_true.1 hall c h
  | infinity negative =>
    have hall : (infinity negative).text.toList.all isNumeralChar = true := by
      cases negative <;> decide
    exact List.all_eq_true.1 hall c h
  | finite negative m e =>
    rw [text, String.toList_ofList, List.mem_append] at h
    rcases h with h | h
    · cases negative
      · cases h
      · exact List.mem_singleton.1 h ▸ rfl
    · exact isNumeralChar_of_mem_magnitudeText h

end Binary64

/-! ## Keys that become texts -/

namespace Validation

variable {α : Type} {rule : TextRule} {read : List String → Value → Checked α}
  {place : List String} {word : String}

/-- A word that no number has for its text. -/
def IsWord (word : String) : Prop :=
  ∃ c ∈ word.toList, isNumeralChar c = false

theorem read?_eq_word (hword : IsWord word) {v : Value} :
    rule.read? v = some word ↔ v = .text word := by
  obtain ⟨c, hc, hnumeral⟩ := hword
  constructor
  · intro h
    unfold TextRule.read? at h
    split at h
    · exact congrArg Value.text (Option.some.inj h)
    · cases h
      rw [isNumeralChar_of_mem_int hc] at hnumeral
      cases hnumeral
    · cases h
      rw [Binary64.isNumeralChar_of_mem_text hc] at hnumeral
      cases hnumeral
    · cases h
  · rintro rfl
    cases rule <;> rfl

theorem mem_pairs_iff (hword : IsWord word) {es : List (Value × Value)}
    {pairs : List (String × Value)}
    (h : List.Forall₂ (fun e p => entry rule place anything e = .ok p) es pairs) {v : Value} :
    (word, v) ∈ pairs ↔ (.text word, v) ∈ es := by
  induction h with
  | nil => simp
  | @cons e p es pairs hentry _ ih =>
    obtain ⟨hkey, hvalue⟩ := entry_eq_ok.1 hentry
    have hhead : (word, v) = p ↔ (.text word, v) = e := by
      rw [Prod.ext_iff, Prod.ext_iff, Except.ok.inj hvalue, eq_comm (a := word),
        eq_comm (a := Value.text word), ← @read?_eq_word rule word hword, hkey, Option.some_inj]
    rw [List.mem_cons, List.mem_cons, hhead, ih]

/-- A map of the document holds under a word what it holds under it as a map of texts. -/
theorem find?_ofPairs (hword : IsWord word) {es : List (Value × Value)} (hes : Value.Distinct es)
    {pairs : List (String × Value)}
    (h : List.Forall₂ (fun e p => entry rule place anything e = .ok p) es pairs) :
    Assoc.find? (Assoc.ofPairs pairs) word = Value.find? es word := by
  ext v
  rw [Value.find?_eq_some_iff fun _ _ => hes.unique, ← mem_pairs_iff hword h]
  refine Assoc.find?_ofPairs_eq_some_iff fun a b ha hb => ?_
  exact hes.unique ((mem_pairs_iff hword h).1 ha) ((mem_pairs_iff hword h).1 hb)

end Validation

end TypedClient
