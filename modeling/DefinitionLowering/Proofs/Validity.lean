import DefinitionLowering.Proofs.ParameterLaws

/-!
# Valid signatures

The check of a signature is compared with what it is about: the position of the first name that
stands in the slots a second time, the first name that starts with a dot where none may, and the
number of defaults.

* `FirstEntry` — the entry at the smallest index that has a property.
* `firstRepeated_eq_some_iff`, `firstReserved_eq_some_iff` — what the two searches find.
* `Signature.check_decides` — every outcome of the check, with the condition under which it comes.
-/

namespace DefinitionLowering

/-! ## First entries -/

/-- The entry of a list at the smallest index with a property of the index and the entry. -/
def FirstEntry (p : Nat → String → Prop) (names : List String) (x : String) : Prop :=
  ∃ i, names[i]? = some x ∧ p i x ∧ ∀ j < i, ∀ y, names[j]? = some y → ¬p j y

variable {p : Nat → String → Prop} {names : List String} {x name : String}

theorem not_firstEntry_nil : ¬FirstEntry p [] x := by
  rintro ⟨i, hi, -⟩
  cases hi

theorem firstEntry_cons_of_pos (h : p 0 name) : FirstEntry p (name :: names) x ↔ name = x := by
  constructor
  · rintro ⟨i, hi, -, hbefore⟩
    cases i with
    | zero => exact Option.some.inj hi
    | succ i => exact absurd h (hbefore 0 (Nat.zero_lt_succ i) name rfl)
  · rintro rfl
    exact ⟨0, rfl, h, fun j hj => absurd hj (Nat.not_lt_zero j)⟩

theorem firstEntry_cons_of_neg (h : ¬p 0 name) :
    FirstEntry p (name :: names) x ↔ FirstEntry (fun i => p (i + 1)) names x := by
  constructor
  · rintro ⟨i, hi, hp, hbefore⟩
    cases i with
    | zero => exact absurd (Option.some.inj hi ▸ hp) h
    | succ i =>
      exact ⟨i, hi, hp, fun j hj y hy => hbefore (j + 1) (Nat.succ_lt_succ hj) y hy⟩
  · rintro ⟨i, hi, hp, hbefore⟩
    refine ⟨i + 1, hi, hp, fun j hj y hy => ?_⟩
    cases j with
    | zero => exact Option.some.inj hy ▸ h
    | succ j => exact hbefore j (Nat.lt_of_succ_lt_succ hj) y hy

/-- A search finds the first entry with a property. -/
theorem find?_eq_some_iff_firstEntry {q : String → Bool} :
    names.find? q = some x ↔ FirstEntry (fun _ y => q y = true) names x := by
  induction names with
  | nil => exact iff_of_false nofun not_firstEntry_nil
  | cons name rest ih =>
    by_cases hq : q name = true
    · rw [List.find?_cons_of_pos hq, firstEntry_cons_of_pos hq, Option.some.injEq]
    · rw [List.find?_cons_of_neg hq, firstEntry_cons_of_neg hq, ih]

/-! ## Names with a dot -/

/-- The name starts with a dot. -/
def DotLed (name : String) : Prop :=
  ∃ rest, name = "." ++ rest

/-- The name is a dot with one or more decimal digits behind it. -/
def DotNumbered (name : String) : Prop :=
  ∃ digits : List Char, digits ≠ [] ∧ (∀ c ∈ digits, '0' ≤ c ∧ c ≤ '9') ∧
    name = "." ++ String.ofList digits

theorem isReserved_iff : isReserved name = true ↔ DotLed name := by
  rw [isReserved, beq_iff_eq]
  constructor
  · intro h
    obtain ⟨rest, hrest⟩ := List.head?_eq_some_iff.1 h
    exact ⟨String.ofList rest, String.toList_inj.1 (by simp [hrest])⟩
  · rintro ⟨rest, rfl⟩
    simp

theorem isDigit_iff {c : Char} : c.isDigit = true ↔ '0' ≤ c ∧ c ≤ '9' := by
  simp [Char.isDigit, Char.le_def]

theorem isPlaceholder_iff : isPlaceholder name = true ↔ DotNumbered name := by
  unfold isPlaceholder
  constructor
  · intro h
    split at h
    · rename_i digits hname
      simp only [Bool.and_eq_true, Bool.not_eq_true', List.isEmpty_eq_false_iff,
        List.all_eq_true] at h
      refine ⟨digits, h.1, fun c hc => isDigit_iff.1 (h.2 c hc), String.toList_inj.1 ?_⟩
      simp [hname]
    · cases h
  · rintro ⟨digits, hne, hdigits, rfl⟩
    simpa [hne] using fun c hc => isDigit_iff.2 (hdigits c hc)

namespace Signature

/-! ## What the searches find -/

/-- The scan for a repeated name, with the names that it has passed: it stops at the first entry
that is one of those or stands earlier in the rest. -/
theorem firstRepeated_eq_some_iff {seen : List String} :
    firstRepeated seen names = some x ↔
      FirstEntry (fun i y => y ∈ seen ∨ y ∈ names.take i) names x := by
  induction names generalizing seen with
  | nil => exact iff_of_false nofun not_firstEntry_nil
  | cons name rest ih =>
    by_cases h : name ∈ seen
    · rw [firstRepeated, if_pos h, firstEntry_cons_of_pos (.inl h), Option.some.injEq]
    · rw [firstRepeated, if_neg h, firstEntry_cons_of_neg (by simpa using h), ih]
      -- what was passed before the rest is `seen` and the head
      simp only [List.mem_cons, List.take_succ_cons, or_assoc, or_left_comm]

/-- The names of the parameters that are not positional, in slot order. -/
def named (s : Signature) : List String :=
  s.keywordOnly ++ s.star.toList ++ s.doubleStar.toList

theorem slots_eq (s : Signature) : s.slots = s.positional ++ s.named := by
  simp [slots, named]

/-- A name is the first that may not be used: the first with a dot among the parameters that are
not positional, and if there is none the first positional one with a dot that has no number. -/
def FirstMisuse (s : Signature) (x : String) : Prop :=
  FirstEntry (fun _ => DotLed) s.named x ∨
    (∀ y ∈ s.named, ¬DotLed y) ∧
      FirstEntry (fun _ y => DotLed y ∧ ¬DotNumbered y) s.positional x

theorem firstReserved_eq_some_iff {s : Signature} :
    s.firstReserved = some x ↔ s.FirstMisuse x := by
  have hnamed : (fun (_ : Nat) y => isReserved y = true) = fun _ => DotLed :=
    funext fun _ => funext fun _ => propext isReserved_iff
  have hpositional : (fun (_ : Nat) y => (isReserved y && !isPlaceholder y) = true) =
      fun _ y => DotLed y ∧ ¬DotNumbered y := by
    funext _ y
    rw [Bool.and_eq_true, Bool.not_eq_true', ← Bool.not_eq_true, isReserved_iff,
      isPlaceholder_iff]
  rw [firstReserved, Option.or_eq_some_iff, find?_eq_some_iff_firstEntry,
    find?_eq_some_iff_firstEntry, hnamed, hpositional, List.find?_eq_none]
  simp only [isReserved_iff]
  rfl

/-- No name may not be used: dots lead positional names with a number only. -/
def WellNamed (s : Signature) : Prop :=
  (∀ y ∈ s.named, ¬DotLed y) ∧ ∀ y ∈ s.positional, DotLed y → DotNumbered y

theorem firstReserved_eq_none_iff {s : Signature} : s.firstReserved = none ↔ s.WellNamed := by
  rw [firstReserved, Option.or_eq_none_iff, List.find?_eq_none, List.find?_eq_none]
  simp only [Bool.and_eq_true, Bool.not_eq_true', ← Bool.not_eq_true, isReserved_iff,
    isPlaceholder_iff, not_and, not_not]
  rfl

/-! ## The check -/

theorem check_eq_duplicate_iff {s : Signature} :
    s.check = .error (.duplicate x) ↔ firstRepeated [] s.slots = some x := by
  unfold check defect?
  cases firstRepeated [] s.slots with
  | some y => simp
  | none => cases s.firstReserved <;> grind

theorem check_eq_reserved_iff {s : Signature} :
    s.check = .error (.reserved x) ↔
      firstRepeated [] s.slots = none ∧ s.firstReserved = some x := by
  unfold check defect?
  cases firstRepeated [] s.slots with
  | some y => simp
  | none => cases s.firstReserved <;> grind

theorem check_eq_excessDefaults_iff {s : Signature} {defaults positional : Nat} :
    s.check = .error (.excessDefaults defaults positional) ↔
      firstRepeated [] s.slots = none ∧ s.firstReserved = none ∧
        s.positional.length < s.defaultCount ∧
        defaults = s.defaultCount ∧ positional = s.positional.length := by
  unfold check defect?
  cases firstRepeated [] s.slots with
  | some y => simp
  | none => cases s.firstReserved <;> grind

/-- **The check decides by three rules, in a fixed order.**  A repeated slot is reported first, at
the smallest index whose name stands earlier.  When all slots are distinct, the first name that may
not be used is reported, where the parameters that are not positional come first.  When all names
may be used, an excess of defaults is reported.  Otherwise the signature is accepted as it is, and
its parameters with a default are the last positional ones, one for each default. -/
theorem check_decides (s : Signature) :
    ((∃ x, s.check = .error (.duplicate x)) ↔ ¬s.slots.Nodup) ∧
    (∀ x, s.check = .error (.duplicate x) ↔
      FirstEntry (fun i y => y ∈ s.slots.take i) s.slots x) ∧
    ((∃ x, s.check = .error (.reserved x)) ↔ s.slots.Nodup ∧ ¬s.WellNamed) ∧
    (∀ x, s.check = .error (.reserved x) ↔ s.slots.Nodup ∧ s.FirstMisuse x) ∧
    (∀ defaults positional, s.check = .error (.excessDefaults defaults positional) ↔
      s.slots.Nodup ∧ s.WellNamed ∧ s.positional.length < s.defaultCount ∧
        defaults = s.defaultCount ∧ positional = s.positional.length) ∧
    (∀ t, s.check = .ok t ↔
      s.slots.Nodup ∧ s.WellNamed ∧ s.defaultCount ≤ s.positional.length ∧ t = s) ∧
    (∀ t, s.check = .ok t → t.defaulted <:+ t.positional ∧ t.defaulted.length = t.defaultCount) := by
  have hduplicate : ∀ x, s.check = .error (.duplicate x) ↔
      FirstEntry (fun i y => y ∈ s.slots.take i) s.slots x := fun x => by
    rw [check_eq_duplicate_iff, firstRepeated_eq_some_iff]
    simp only [List.not_mem_nil, false_or]
  have hreserved : ∀ x, s.check = .error (.reserved x) ↔ s.slots.Nodup ∧ s.FirstMisuse x :=
    fun x => by
      rw [check_eq_reserved_iff, firstRepeated_nil_eq_none_iff, firstReserved_eq_some_iff]
  have hvalid : ∀ t, s.check = .ok t ↔
      s.slots.Nodup ∧ s.WellNamed ∧ s.defaultCount ≤ s.positional.length ∧ t = s := fun t => by
    rw [check_eq_ok_iff, defect?_eq_none_iff, firstRepeated_nil_eq_none_iff,
      firstReserved_eq_none_iff, and_assoc, and_assoc]
  refine ⟨?_, hduplicate, ?_, hreserved, ?_, hvalid, ?_⟩
  · simp only [check_eq_duplicate_iff, ← Option.isSome_iff_exists,
      ← Option.ne_none_iff_isSome, ne_eq, firstRepeated_nil_eq_none_iff]
  · simp only [check_eq_reserved_iff, exists_and_left, ← Option.isSome_iff_exists,
      ← Option.ne_none_iff_isSome, ne_eq, firstRepeated_nil_eq_none_iff,
      firstReserved_eq_none_iff]
  · intro defaults positional
    rw [check_eq_excessDefaults_iff, firstRepeated_nil_eq_none_iff, firstReserved_eq_none_iff]
  · intro t ht
    obtain ⟨-, -, hle, rfl⟩ := (hvalid t).1 ht
    exact ⟨t.defaulted_suffix, length_defaulted hle⟩

/-- Everything is wrong here: a name is repeated, it is reserved, and nothing takes the defaults. -/
example : check ⟨"f", [], [".x", ".x"], none, none, 1⟩ = .error (.duplicate ".x") := by decide

end Signature

end DefinitionLowering
