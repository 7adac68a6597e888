import Mathlib.Data.List.Nodup
import DefinitionLowering.Lowering.Destructuring

/-!
# Laws of parameter lists

`Params.formals` lists the parameters in the order of their slots, those that are not
positional as one-name patterns.  The slots of the signature and the placeholders are read off
this one list (`slots_rawSignature`, `placeholders_eq`), so a fact about positional parameters
holds of the whole list.

`elementsOf?_of_mem` says that a slot of an accepted list is looked up as what it is: a
placeholder gives its own patterns, any other slot gives none.
-/

namespace DefinitionLowering

open Surface (Pattern Param Params)

/-! ## Names -/

/-- Decimal texts tell numbers apart. -/
theorem repr_injective {m n : Nat} (h : m.repr = n.repr) : m = n := by
  have hdigits : Nat.toDigits 10 m = Nat.toDigits 10 n := by
    rw [← Nat.toList_repr, ← Nat.toList_repr, h]
  rw [← Nat.ofDigitChars_ten_toDigits (n := m), hdigits, Nat.ofDigitChars_ten_toDigits]

theorem placeholderName_injective {m n : Nat} (h : placeholderName m = placeholderName n) :
    m = n :=
  repr_injective (String.append_right_inj "." |>.1 h)

theorem isReserved_placeholderName (n : Nat) : isReserved (placeholderName n) = true :=
  isReserved_of_isPlaceholder (isPlaceholder_placeholderName n)

namespace Signature

theorem firstRepeated_eq_none {seen names : List String} :
    firstRepeated seen names = none ↔ names.Nodup ∧ ∀ name ∈ names, name ∉ seen := by
  induction names generalizing seen with
  | nil => simp [firstRepeated]
  | cons name rest ih =>
    simp only [firstRepeated]
    by_cases h : name ∈ seen
    · simp [h]
    · rw [if_neg h, ih]
      simp only [List.mem_cons, List.nodup_cons, not_or, forall_eq_or_imp]
      constructor
      · rintro ⟨hn, hs⟩
        exact ⟨⟨fun hm => (hs name hm).1 rfl, hn⟩, h, fun x hx => (hs x hx).2⟩
      · rintro ⟨⟨hm, hn⟩, -, hs⟩
        exact ⟨hn, fun x hx => ⟨fun he => hm (he ▸ hx), hs x hx⟩⟩

/-- A name that is found repeated was seen before or stands in the list twice. -/
theorem firstRepeated_eq_some {seen names : List String} {name : String}
    (h : firstRepeated seen names = some name) :
      name ∈ names ∧ (name ∈ seen ∨ 2 ≤ names.count name) := by
  induction names generalizing seen with
  | nil => simp [firstRepeated] at h
  | cons first rest ih =>
    simp only [firstRepeated] at h
    split at h
    · cases h
      exact ⟨List.mem_cons_self, Or.inl ‹_›⟩
    · obtain ⟨hm, hs⟩ := ih h
      refine ⟨List.mem_cons_of_mem _ hm, ?_⟩
      rcases hs with hs | hs
      · rcases List.mem_cons.1 hs with rfl | hs
        · right
          have := List.count_pos_iff.2 hm
          rw [List.count_cons_self]
          omega
        · exact Or.inl hs
      · right
        have := List.count_le_count_cons (a := name) (b := first) (l := rest)
        omega

theorem firstRepeated_nil_eq_none_iff {names : List String} :
    firstRepeated [] names = none ↔ names.Nodup := by
  rw [firstRepeated_eq_none]
  exact and_iff_left fun _ _ => List.not_mem_nil

theorem defect?_eq_none_iff {s : Signature} :
    s.defect? = none ↔
      firstRepeated [] s.slots = none ∧ s.firstReserved = none ∧
        s.defaultCount ≤ s.positional.length := by
  unfold defect?
  cases firstRepeated [] s.slots with
  | some y => simp
  | none => cases s.firstReserved <;> grind

theorem nodup_of_defect?_eq_none {s : Signature} (h : s.defect? = none) : s.slots.Nodup :=
  firstRepeated_nil_eq_none_iff.1 (defect?_eq_none_iff.1 h).1

/-- A signature without defect has no more defaults than positional parameters. -/
theorem defaultCount_le_of_defect?_eq_none {s : Signature} (h : s.defect? = none) :
    s.defaultCount ≤ s.positional.length :=
  (defect?_eq_none_iff.1 h).2.2

/-- The parameters with a default are the last positional ones. -/
theorem defaulted_suffix (s : Signature) : s.defaulted <:+ s.positional :=
  List.drop_suffix _ _

theorem length_defaulted {s : Signature} (h : s.defaultCount ≤ s.positional.length) :
    s.defaulted.length = s.defaultCount := by
  rw [defaulted, List.length_drop]
  omega

end Signature

/-! ## Slots -/

/-- All parameters in the order of their slots, each as a pattern. -/
def Surface.Params.formals (params : Params) : List Pattern :=
  params.positional ++
    (params.keywordOnly ++ params.star.toList ++ params.doubleStar.toList).map Pattern.name

/-- The names in some patterns, as they are spelled: the parameters of a delegate. -/
def leafNames (spell : String → String) (formals : List Pattern) : List String :=
  (Surface.patternLeaves formals).map fun leaf => spell leaf.name

theorem Surface.Params.any_formals {params : Params}
    (h : params.positional.any Pattern.isTuple = true) :
    params.formals.any Pattern.isTuple = true := by
  rw [formals, List.any_append, h, Bool.true_or]

namespace PositionalSlot

variable {spell : String → String} {number : Nat}

theorem ofPatterns_names (named : List Param) :
    ofPatterns spell number (named.map Pattern.name) =
      named.map fun param => ⟨spell param.name, none⟩ := by
  induction named generalizing number with
  | nil => rfl
  | cons param rest ih => simp [ofPatterns, ih]

/-- Parameters that are not positional add slots behind and no placeholder. -/
theorem ofPatterns_append_names (positional : List Pattern) (named : List Param) :
    ofPatterns spell number (positional ++ named.map Pattern.name) =
      ofPatterns spell number positional ++
        named.map fun param => ⟨spell param.name, none⟩ := by
  induction positional generalizing number with
  | nil => exact ofPatterns_names named
  | cons pattern rest ih => cases pattern <;> simp [ofPatterns, ih]

theorem length_ofPatterns (patterns : List Pattern) :
    (ofPatterns spell number patterns).length = patterns.length := by
  induction patterns generalizing number with
  | nil => rfl
  | cons pattern rest ih => cases pattern <;> simp [ofPatterns, ih]

/-- A placeholder among the slots is numbered from the given number on. -/
theorem number_of_mem {patterns : List Pattern} {slot : PositionalSlot} {elements : List Pattern}
    (h : slot ∈ ofPatterns spell number patterns) (he : slot.elements = some elements) :
    ∃ n, number ≤ n ∧ slot.name = placeholderName n := by
  induction patterns generalizing number with
  | nil => simp [ofPatterns] at h
  | cons pattern rest ih =>
    cases pattern with
    | name param =>
      rcases List.mem_cons.1 h with rfl | h
      · cases he
      · exact ih h
    | tuple es =>
      rcases List.mem_cons.1 h with rfl | h
      · exact ⟨number, Nat.le_refl _, rfl⟩
      · obtain ⟨n, hn, hname⟩ := ih h
        exact ⟨n, by omega, hname⟩

/-- The slot of a plain parameter has its spelled name. -/
theorem name_of_mem {patterns : List Pattern} {slot : PositionalSlot}
    (h : slot ∈ ofPatterns spell number patterns) (he : slot.elements = none) :
    ∃ param, Pattern.name param ∈ patterns ∧ slot.name = spell param.name := by
  induction patterns generalizing number with
  | nil => simp [ofPatterns] at h
  | cons pattern rest ih =>
    cases pattern with
    | name param =>
      rcases List.mem_cons.1 h with rfl | h
      · exact ⟨param, List.mem_cons_self, rfl⟩
      · obtain ⟨p, hp, hname⟩ := ih h
        exact ⟨p, List.mem_cons_of_mem _ hp, hname⟩
    | tuple es =>
      rcases List.mem_cons.1 h with rfl | h
      · cases he
      · obtain ⟨p, hp, hname⟩ := ih h
        exact ⟨p, List.mem_cons_of_mem _ hp, hname⟩

end PositionalSlot

section Formals

variable {params : Params} {spell : String → String} {name : String}

theorem formals_slots :
    PositionalSlot.ofPatterns spell 1 params.formals =
      PositionalSlot.ofPatterns spell 1 params.positional ++
        (params.keywordOnly ++ params.star.toList ++ params.doubleStar.toList).map
          fun param => ⟨spell param.name, none⟩ :=
  PositionalSlot.ofPatterns_append_names _ _

/-- The slots of a signature are those of the parameters in slot order. -/
theorem slots_rawSignature :
    (params.rawSignature spell name).slots =
      (PositionalSlot.ofPatterns spell 1 params.formals).map PositionalSlot.name := by
  rw [formals_slots]
  simp [Signature.slots, Params.rawSignature, Function.comp_def, Option.toList_map]

theorem placeholders_eq :
    params.placeholders spell =
      (PositionalSlot.ofPatterns spell 1 params.formals).filterMap
        PositionalSlot.placeholder? := by
  rw [formals_slots, List.filterMap_append, Params.placeholders]
  simp [PositionalSlot.placeholder?, List.filterMap_map, Function.comp_def]

/-- Without tuples, the slots are the written names. -/
theorem slots_of_plain (h : params.positional.any Pattern.isTuple = false) :
    (params.rawSignature spell name).slots = leafNames spell params.formals := by
  rw [slots_rawSignature]
  have hplain : params.formals.any Pattern.isTuple = false := by
    rw [Params.formals, List.any_append, h, List.any_map]
    simp [Function.comp_def, Pattern.isTuple]
  suffices hmain : ∀ (patterns : List Pattern) (number : Nat),
      patterns.any Pattern.isTuple = false →
        (PositionalSlot.ofPatterns spell number patterns).map PositionalSlot.name =
          leafNames spell patterns from hmain _ _ hplain
  intro patterns
  induction patterns with
  | nil => intro number _; rfl
  | cons pattern rest ih =>
    intro number hrest
    cases pattern with
    | name param =>
      show _ :: _ = _ :: _
      rw [ih number hrest]
      rfl
    | tuple elements => cases hrest

/-- An accepted parameter list gives its signature, which has no defect. -/
theorem signature_checked {dialect : Dialect} {signature : Signature}
    (h : params.signature dialect spell name = .ok signature) :
    signature = params.rawSignature spell name ∧ signature.defect? = none := by
  unfold Params.signature at h
  split at h
  · cases h
  · split at h
    · cases h
    · split at h
      · cases h
      · rename_i hcheck
        cases h
        obtain ⟨hdefect, rfl⟩ := Signature.check_eq_ok_iff.1 hcheck
        exact ⟨rfl, hdefect⟩

/-- What an accepted parameter list gives. -/
theorem signature_eq_ok {dialect : Dialect} {signature : Signature}
    (h : params.signature dialect spell name = .ok signature) :
    signature = params.rawSignature spell name ∧ signature.slots.Nodup := by
  obtain ⟨heq, hdefect⟩ := signature_checked h
  exact ⟨heq, Signature.nodup_of_defect?_eq_none hdefect⟩

theorem isEmpty_placeholders (params : Params) (spell : String → String) :
    (params.placeholders spell).isEmpty = !params.positional.any Pattern.isTuple := by
  unfold Params.placeholders
  suffices hmain : ∀ (patterns : List Pattern) (number : Nat),
      ((PositionalSlot.ofPatterns spell number patterns).filterMap
        PositionalSlot.placeholder?).isEmpty = !patterns.any Pattern.isTuple from hmain _ _
  intro patterns
  induction patterns with
  | nil => intro number; rfl
  | cons pattern rest ih =>
    intro number
    cases pattern with
    | name param =>
      rw [PositionalSlot.ofPatterns, List.filterMap_cons_none rfl, ih]
      rfl
    | tuple elements =>
      simp [PositionalSlot.ofPatterns, PositionalSlot.placeholder?, Pattern.isTuple]

end Formals

/-! ## Looking slots up -/

/-- A slot is found among the placeholders as what it is, when no two slots have one name. -/
theorem elementsOf?_of_mem {slots : List PositionalSlot} {slot : PositionalSlot}
    (hn : (slots.map PositionalSlot.name).Nodup) (h : slot ∈ slots) :
    Placeholder.elementsOf? (slots.filterMap PositionalSlot.placeholder?) slot.name =
      slot.elements := by
  have hsame : ∀ p ∈ slots.filterMap PositionalSlot.placeholder?, p.name = slot.name →
      slot.elements = some p.elements := by
    intro p hp hname
    obtain ⟨other, hother, hp⟩ := List.mem_filterMap.1 hp
    obtain ⟨elements, he, rfl⟩ := Option.map_eq_some_iff.1 hp
    obtain rfl : other = slot := List.inj_on_of_nodup_map hn hother h hname
    exact he
  unfold Placeholder.elementsOf?
  cases hf : (slots.filterMap PositionalSlot.placeholder?).find? fun p => p.name == slot.name with
  | some p =>
    have hname : p.name = slot.name := by simpa using List.find?_some hf
    exact (hsame p (List.mem_of_find?_eq_some hf) hname).symm
  | none =>
    cases he : slot.elements with
    | none => rfl
    | some elements =>
      rw [List.find?_eq_none] at hf
      have hmem : (⟨slot.name, elements⟩ : Placeholder) ∈
          slots.filterMap PositionalSlot.placeholder? :=
        List.mem_filterMap.2 ⟨slot, h, by simp [PositionalSlot.placeholder?, he]⟩
      exact absurd (by simp) (hf _ hmem)

/-! ## The parameters of a delegate -/

/-- The names inside patterns stand in for the placeholders, in order. -/
theorem delegateSlots_eq {spell : String → String} {placeholders : List Placeholder} :
    ∀ (patterns : List Pattern) (number : Nat),
      (∀ slot ∈ PositionalSlot.ofPatterns spell number patterns,
        Placeholder.elementsOf? placeholders slot.name = slot.elements) →
      delegateSlots spell placeholders
          ((PositionalSlot.ofPatterns spell number patterns).map PositionalSlot.name) =
        (Surface.patternLeaves patterns).map fun leaf => spell leaf.name
  | [], _, _ => rfl
  | pattern :: rest, number, h => by
    cases pattern with
    | name param =>
      have ih := delegateSlots_eq rest number fun slot hs => h slot (List.mem_cons_of_mem _ hs)
      have hslot := h _ List.mem_cons_self
      unfold delegateSlots at *
      rw [PositionalSlot.ofPatterns, List.map_cons, List.flatMap_cons, ih, hslot,
        Surface.patternLeaves, List.map_append]
      rfl
    | tuple elements =>
      have ih := delegateSlots_eq rest (number + 1)
        fun slot hs => h slot (List.mem_cons_of_mem _ hs)
      have hslot := h _ List.mem_cons_self
      unfold delegateSlots at *
      rw [PositionalSlot.ofPatterns, List.map_cons, List.flatMap_cons, ih, hslot,
        Surface.patternLeaves, List.map_append]
      rfl

theorem delegateSignature_slots {name : String} {slots : List String} :
    (delegateSignature name slots).slots = slots := by
  simp [delegateSignature, Signature.slots]

end DefinitionLowering
