import DefinitionLowering.Proofs.Bindings
import DefinitionLowering.Proofs.Spelling

/-!
# What a signature says of its parameter list

A signature and the table of placeholders are compared with the parameter list by position.  A slot
is the spelled name of a plain parameter or, for a tuple, the placeholder whose number is the count
of the tuples up to there (`PositionalSlot.nameAt`), so the placeholders of the table are numbered
from one without a gap.  Written names have no dot in front, also when they are spelled for a class, and therefore
every slot with a dot is in the table.

* `PositionalSlot.getElem?_ofPatterns` — the slot at a position.
* `Surface.Params.Modelled` — the laws between a parameter list, its signature and its table.
* `signature_modelled` — every accepted parameter list obeys them.
-/

namespace DefinitionLowering

open IR (BodyId Store)
open Surface (Pattern Params)

/-- The elements of a tuple pattern; a plain parameter has none. -/
def Surface.Pattern.elements? : Pattern → Option (List Pattern)
  | .name _ => none
  | .tuple elements => some elements

namespace PositionalSlot

variable {spell : String → String} {number i : Nat} {patterns : List Pattern}

/-- The name of the parameter at a position: that of a tuple counts the tuples before it. -/
def nameAt (spell : String → String) (number : Nat) (patterns : List Pattern) (i : Nat) :
    Pattern → String
  | .name param => spell param.name
  | .tuple _ => placeholderName (number + (patterns.take i).countP Pattern.isTuple)

/-- A tuple in front moves the numbers of all others up by one; a plain parameter does not. -/
theorem nameAt_cons {first pattern : Pattern} :
    nameAt spell number (first :: patterns) (i + 1) pattern =
      nameAt spell (number + [first].countP Pattern.isTuple) patterns i pattern := by
  cases pattern with
  | name param => rfl
  | tuple elements =>
    rw [nameAt, nameAt, List.take_succ_cons, Nat.add_assoc, ← List.countP_append,
      List.singleton_append]

/-- The slot at a position is that of the pattern at this position. -/
theorem getElem?_ofPatterns :
    (ofPatterns spell number patterns)[i]? = patterns[i]?.map fun pattern =>
      ⟨nameAt spell number patterns i pattern, pattern.elements?⟩ := by
  induction patterns generalizing number i with
  | nil => rfl
  | cons first rest ih =>
    cases i with
    | zero => cases first <;> rfl
    | succ i =>
      simp only [nameAt_cons]
      cases first <;> exact ih

/-- Placeholders are numbered one after the other. -/
theorem names_placeholders :
    ((ofPatterns spell number patterns).filterMap placeholder?).map Placeholder.name =
      (List.range' number (patterns.countP Pattern.isTuple)).map placeholderName := by
  induction patterns generalizing number with
  | nil => rfl
  | cons first rest ih =>
    cases first with
    | name param => exact ih
    | tuple elements =>
      rw [List.countP_cons_of_pos rfl, List.range'_succ, List.map_cons, ← ih]
      rfl

/-- Placeholders keep the elements of the tuples. -/
theorem elements_placeholders :
    ((ofPatterns spell number patterns).filterMap placeholder?).map Placeholder.elements =
      patterns.filterMap Pattern.elements? := by
  induction patterns generalizing number with
  | nil => rfl
  | cons first rest ih =>
    cases first with
    | name param => exact ih
    | tuple elements => exact congrArg (elements :: ·) ih

end PositionalSlot

/-! ## The laws -/

/-- A signature and a table of placeholders stand for a parameter list. -/
structure Surface.Params.Modelled (params : Params) (spell : String → String)
    (signature : Signature) (table : List Placeholder) : Prop where
  /-- There is one positional slot for each positional parameter. -/
  length_positional : signature.positional.length = params.positional.length
  plain : ∀ (i : Nat) param, params.positional[i]? = some (Pattern.name param) →
    signature.positional[i]? = some (spell param.name)
  /-- The slot of the `k`-th tuple is the placeholder with the number `k`. -/
  tuple : ∀ (i : Nat) elements, params.positional[i]? = some (Pattern.tuple elements) →
    signature.positional[i]? =
      some (placeholderName ((params.positional.take (i + 1)).countP Pattern.isTuple))
  keywordOnly : signature.keywordOnly = params.keywordOnly.map fun param => spell param.name
  star : signature.star = params.star.map fun param => spell param.name
  doubleStar : signature.doubleStar = params.doubleStar.map fun param => spell param.name
  /-- The table lists the placeholders in the order of their numbers, -/
  names_table : table.map Placeholder.name =
    (List.range' 1 (params.positional.countP Pattern.isTuple)).map placeholderName
  /-- each with the elements of its tuple. -/
  elements_table : table.map Placeholder.elements =
    params.positional.filterMap Pattern.elements?
  distinct_table : (table.map Placeholder.name).Nodup
  /-- Any other slot has a name that is not in the table. -/
  outside_table : ∀ (i : Nat) slot, signature.slots[i]? = some slot →
    params.positional[i]?.bind Pattern.elements? = none → slot ∉ table.map Placeholder.name
  /-- A slot is looked up as what it is: only a tuple is found, with its own elements. -/
  lookup : ∀ (i : Nat) slot, signature.slots[i]? = some slot →
    Placeholder.elementsOf? table slot = params.positional[i]?.bind Pattern.elements?
  distinct_slots : signature.slots.Nodup
  reserved : ∀ slot ∈ signature.slots, isReserved slot = true → slot ∈ table.map Placeholder.name
  defaultCount : signature.defaultCount = params.defaults.length
  defaultCount_le : signature.defaultCount ≤ signature.positional.length
  /-- The parameters with a default are the last positional ones. -/
  defaulted : signature.defaulted <:+ signature.positional ∧
    signature.defaulted.length = signature.defaultCount

section Modelled

variable {params : Params} {spell : String → String} {name : String}

/-- Only positional parameters are tuples. -/
theorem elements?_formals (params : Params) (i : Nat) :
    params.formals[i]?.bind Pattern.elements? = params.positional[i]?.bind Pattern.elements? := by
  rw [Params.formals]
  by_cases hi : i < params.positional.length
  · rw [List.getElem?_append_left hi]
  · rw [Nat.not_lt] at hi
    rw [List.getElem?_append_right hi, List.getElem?_eq_none hi, List.getElem?_map]
    cases (params.keywordOnly ++ params.star.toList ++ params.doubleStar.toList)[
      i - params.positional.length]? <;> rfl

/-- A slot comes from the parameter at its position. -/
theorem exists_slot {i : Nat} {slot : String}
    (h : (params.rawSignature spell name).slots[i]? = some slot) :
    ∃ origin ∈ PositionalSlot.ofPatterns spell 1 params.formals,
      origin.name = slot ∧
      origin.elements = params.positional[i]?.bind Pattern.elements? := by
  rw [slots_rawSignature, List.getElem?_map, Option.map_eq_some_iff] at h
  obtain ⟨origin, horigin, hname⟩ := h
  refine ⟨origin, List.mem_of_getElem? horigin, hname, ?_⟩
  rw [PositionalSlot.getElem?_ofPatterns, Option.map_eq_some_iff] at horigin
  obtain ⟨pattern, hpattern, rfl⟩ := horigin
  rw [← elements?_formals, hpattern]
  rfl

/-- A name that the table finds is in it. -/
theorem Placeholder.elementsOf?_eq_none_iff {table : List Placeholder} {slot : String} :
    Placeholder.elementsOf? table slot = none ↔ slot ∉ table.map Placeholder.name := by
  rw [Placeholder.elementsOf?, Option.map_eq_none_iff, List.find?_eq_none, List.mem_map]
  simp

/-- A slot with a dot is in the table: no written name has one. -/
theorem mem_table_of_isReserved (hspell : ∀ name, isReserved (spell name) = isReserved name)
    (hwritten : params.writtenNames.find? isReserved = none) {slot : String}
    (h : slot ∈ (params.rawSignature spell name).slots) (hslot : isReserved slot = true) :
    slot ∈ (params.placeholders spell).map Placeholder.name := by
  rw [slots_rawSignature] at h
  obtain ⟨origin, horigin, rfl⟩ := List.mem_map.1 h
  cases helements : origin.elements with
  | some elements =>
    rw [placeholders_eq]
    exact List.mem_map.2 ⟨⟨origin.name, elements⟩,
      List.mem_filterMap.2 ⟨origin, horigin, by simp [PositionalSlot.placeholder?, helements]⟩,
      rfl⟩
  | none =>
    obtain ⟨param, hparam, hname⟩ := PositionalSlot.name_of_mem horigin helements
    have hleaf : spell param.name ∈ leafNames spell params.formals := by
      refine List.mem_map.2 ⟨param, ?_, rfl⟩
      rw [Surface.patternLeaves_eq_flatMap]
      exact List.mem_flatMap.2 ⟨_, hparam, List.mem_singleton_self _⟩
    rw [hname, leaf_not_reserved hspell hwritten hleaf] at hslot
    cases hslot

end Modelled

/-- **The signature and the placeholders of an accepted parameter list stand for the list**, in any
dialect and for any scope that the definition stands in. -/
theorem signature_modelled {s : Store} {p : BodyId} {params : Params} {dialect : Dialect}
    {name : String} {signature : Signature}
    (h : params.signature dialect (s.spell p) name = .ok signature) :
    params.Modelled (s.spell p) signature (params.placeholders (s.spell p)) := by
  obtain ⟨-, hwritten, -⟩ := checks_of_signature h
  obtain ⟨rfl, hdefect⟩ := signature_checked h
  have hdistinct := Signature.nodup_of_defect?_eq_none hdefect
  have hcount := Signature.defaultCount_le_of_defect?_eq_none hdefect
  have hslot : ∀ i pattern, params.positional[i]? = some pattern →
      (params.rawSignature (s.spell p) name).positional[i]? =
        some (PositionalSlot.nameAt (s.spell p) 1 params.positional i pattern) := by
    intro i pattern hpattern
    rw [Params.rawSignature, List.getElem?_map, PositionalSlot.getElem?_ofPatterns, hpattern]
    rfl
  have hlookup : ∀ (i : Nat) slot, (params.rawSignature (s.spell p) name).slots[i]? = some slot →
      Placeholder.elementsOf? (params.placeholders (s.spell p)) slot =
        params.positional[i]?.bind Pattern.elements? := by
    intro i slot hi
    obtain ⟨origin, horigin, rfl, helements⟩ := exists_slot hi
    rw [slots_rawSignature] at hdistinct
    rw [placeholders_eq, elementsOf?_of_mem hdistinct horigin, helements]
  exact
    { length_positional := by
        rw [Params.rawSignature, List.length_map, PositionalSlot.length_ofPatterns]
      plain := fun i param hi => hslot i _ hi
      tuple := fun i elements hi => by
        rw [hslot i _ hi, PositionalSlot.nameAt, List.take_add_one, hi, List.countP_append,
          Nat.add_comm]
        rfl
      keywordOnly := rfl
      star := rfl
      doubleStar := rfl
      names_table := PositionalSlot.names_placeholders
      elements_table := PositionalSlot.elements_placeholders
      distinct_table := by
        rw [Params.placeholders, PositionalSlot.names_placeholders]
        exact (List.nodup_range' 1).map fun _ _ => placeholderName_injective
      outside_table := fun i slot hi hnone =>
        Placeholder.elementsOf?_eq_none_iff.1 ((hlookup i slot hi).trans hnone)
      lookup := hlookup
      distinct_slots := hdistinct
      reserved := fun slot hmem hreserved =>
        mem_table_of_isReserved (s.isReserved_spell p) hwritten hmem hreserved
      defaultCount := rfl
      defaultCount_le := hcount
      defaulted := ⟨Signature.defaulted_suffix _, Signature.length_defaulted hcount⟩ }

/-- The parameters `((left, (__mid,)), __key, ()=None, *rest, __deep, **others)`. -/
def nestedParams : Params where
  positional :=
    [.tuple [.name ⟨"left", none⟩, .tuple [.name ⟨"__mid", none⟩]], .name ⟨"__key", none⟩, .tuple []]
  defaults := [.constant .none]
  star := some ⟨"rest", none⟩
  keywordOnly := [⟨"__deep", none⟩]
  keywordDefaults := [none]
  doubleStar := some ⟨"others", none⟩

/-- In a class `Q`, the parameters have two placeholders with a private name between them, and the
second placeholder has the default. -/
theorem nestedParams_modelled :
    ∃ signature, nestedParams.signature .modern ((Lowering.classStore "put").spell ⟨1⟩) "put" =
        .ok signature ∧
      signature.positional.length = 3 ∧ signature.positional[0]? = some ".1" ∧
      signature.positional[1]? = some "_Q__key" ∧ signature.positional[2]? = some ".2" ∧
      (nestedParams.placeholders ((Lowering.classStore "put").spell ⟨1⟩)).map Placeholder.name =
        [".1", ".2"] ∧
      signature.defaulted.length = 1 := by
  have haccepted : (nestedParams.signature .modern
      ((Lowering.classStore "put").spell ⟨1⟩) "put").toBool = true := by
    decide +kernel
  cases hsignature : nestedParams.signature .modern ((Lowering.classStore "put").spell ⟨1⟩) "put" with
  | error cause =>
    rw [hsignature] at haccepted
    cases haccepted
  | ok signature =>
    have h := signature_modelled hsignature
    refine ⟨signature, rfl, h.length_positional, h.tuple 0 _ rfl, ?_, h.tuple 2 _ rfl,
      h.names_table, ?_⟩
    · rw [h.plain 1 _ rfl]
      decide +kernel
    · rw [h.defaulted.2, h.defaultCount]
      rfl

end DefinitionLowering
