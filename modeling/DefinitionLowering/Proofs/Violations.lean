import DefinitionLowering.Proofs.ParameterLaws
import DefinitionLowering.Proofs.Scopes
import Mathlib.Data.List.Count

/-!
# Violations

What is wrong with a module, read off its scopes: `Region.violations` lists every mistake with
the place at which it is reported.  The order in which the lowering comes across mistakes plays
no part here.

`Params.violations` are the mistakes of one parameter list.  `signature_error_mem`,
`delegate_error_mem` and `violations_eq_nil` compare them with the checks of signatures.
-/

namespace DefinitionLowering

open Surface (Scope Header Region Part spellAt search Params Pattern)

/-! ## What may be wrong -/

/-- The mistakes of a parameter list whose names are spelled by `spell`. -/
def Surface.Params.violations (dialect : Dialect) (spell : String → String) (params : Params)
    (location : Location) : List Rejection :=
  let names := params.writtenNames.map spell
  (if !params.keywordOnly.isEmpty && !dialect.keywordOnly then
    [⟨.keywordOnlyUnsupported, location⟩] else []) ++
  (params.writtenNames.filter isReserved).map
    (fun name => ⟨.invalidSignature (.reserved name), location⟩) ++
  (names.filter fun name => 1 < names.count name).map
    (fun name => ⟨.invalidSignature (.duplicate name), location⟩) ++
  (if params.positional.length < params.defaults.length then
    [⟨.invalidSignature (.excessDefaults params.defaults.length params.positional.length),
      location⟩] else [])

namespace Surface

/-- The mistake in a global declaration: the name is a parameter. -/
def Header.globalViolation (h : Header) (outer : List Scope) (declared : String × Location) :
    List Rejection :=
  let name := h.spell outer declared.1
  if name ∈ h.paramNames outer then [⟨.parameterRedeclared name .global, declared.2⟩] else []

/-- The mistake in a nonlocal declaration: the name is a parameter, or no variable of the scopes
around. -/
def Header.nonlocalViolation (h : Header) (outer : List Scope) (declared : String × Location) :
    List Rejection :=
  let name := h.spell outer declared.1
  if name ∈ h.paramNames outer then [⟨.parameterRedeclared name .nonlocal, declared.2⟩]
  else if name ∈ (h.scope outer).globals ∨ search id name outer = none then
    [⟨.unboundNonlocal name, declared.2⟩]
  else []

/-- The mistakes in what the statements of a scope declare. A module declares nothing
nonlocal. -/
def Header.declarationViolations (h : Header) (outer : List Scope) : List Rejection :=
  if h.kind = .moduleBody then
    h.nonlocals.map fun declared => ⟨.nonlocalAtModuleLevel, declared.2⟩
  else
    h.globals.flatMap (h.globalViolation outer) ++ h.nonlocals.flatMap (h.nonlocalViolation outer)

/-- The mistakes of a parameter list where it is written. -/
def Header.paramViolations (h : Header) (dialect : Dialect) (outer : List Scope) :
    List Rejection :=
  match h.params with
  | none => []
  | some params => params.violations dialect (spellAt outer) h.location

/-- A `yield` outside of callables. -/
def yieldViolations (kind : BodyKind) (location : Location) : List Rejection :=
  if kind.isFunctionLike then [] else [⟨.yieldOutsideFunction, location⟩]

/-- A `yield from` outside of callables, or in an asynchronous one. -/
def yieldFromViolations (kind : BodyKind) (location : Location) : List Rejection :=
  if !kind.isFunctionLike then [⟨.yieldOutsideFunction, location⟩]
  else if kind.allowsAwait then [⟨.yieldFromInAsync, location⟩]
  else []

/-- An `await` that is not in an asynchronous callable. -/
def awaitViolations (kind : BodyKind) (location : Location) : List Rejection :=
  if kind.allowsAwait then [] else [⟨.awaitOutsideAsync, location⟩]

/-- A `return` outside of callables, or one of a value in an asynchronous generator. -/
def returnViolations (kind : BodyKind) (hasValue : Bool) (location : Location) :
    List Rejection :=
  match kind with
  | .moduleBody | .classBody => [⟨.returnOutsideFunction, location⟩]
  | .callable .asyncGenerator =>
    if hasValue then [⟨.returnValueInAsyncGenerator, location⟩] else []
  | .callable _ => []

/-- The kind of the first of some scopes. -/
def innermostKind : List Scope → BodyKind
  | [] => .moduleBody
  | scope :: _ => scope.kind

mutual

/-- All mistakes in a scope that stands in the given ones. -/
def Region.violations (dialect : Dialect) (outer : List Scope) : Region → List Rejection
  | ⟨header, parts⟩ =>
    header.paramViolations dialect outer ++ header.declarationViolations outer ++
      partsViolations dialect (header.scope outer :: outer) parts

/-- The mistakes in a part that the first of some scopes evaluates. -/
def Part.violations (dialect : Dialect) (scopes : List Scope) : Part → List Rejection
  | .name _ _ => []
  | .yield location => yieldViolations (innermostKind scopes) location
  | .yieldFrom location => yieldFromViolations (innermostKind scopes) location
  | .await location => awaitViolations (innermostKind scopes) location
  | .ret hasValue location => returnViolations (innermostKind scopes) hasValue location
  | .scope inner => inner.violations dialect scopes

def partsViolations (dialect : Dialect) (scopes : List Scope) : List Part → List Rejection
  | [] => []
  | first :: rest => first.violations dialect scopes ++ partsViolations dialect scopes rest

end

/-- All mistakes in a module. -/
def Module.violations (dialect : Dialect) (m : Module) : List Rejection :=
  (m.region dialect).violations dialect []

theorem paramViolations_subset_scope (dialect : Dialect) (outer : List Scope) (h : Header)
    (parts : List Part) :
    h.paramViolations dialect outer ⊆ Part.violations dialect outer (.scope ⟨h, parts⟩) := by
  rw [Part.violations, Region.violations, List.append_assoc]
  exact List.subset_append_left _ _

theorem innerViolations_subset_scope (dialect : Dialect) (outer : List Scope) (h : Header)
    (parts : List Part) :
    h.declarationViolations outer ++ partsViolations dialect (h.scope outer :: outer) parts ⊆
      Part.violations dialect outer (.scope ⟨h, parts⟩) := by
  rw [Part.violations, Region.violations, List.append_assoc]
  exact List.subset_append_right _ _

@[simp] theorem partsViolations_append (dialect : Dialect) (scopes : List Scope)
    (first rest : List Part) :
    partsViolations dialect scopes (first ++ rest) =
      partsViolations dialect scopes first ++ partsViolations dialect scopes rest := by
  induction first with
  | nil => rfl
  | cons part parts ih => rw [List.cons_append, partsViolations, partsViolations, ih,
      List.append_assoc]

end Surface

/-! ## Spelling -/

theorem isReserved_spellIn (className name : String) :
    isReserved (spellIn className name) = isReserved name := by
  unfold spellIn
  split
  · rename_i h
    rw [Bool.and_eq_true] at h
    -- A private name starts with an underscore, and so does what it stands for.
    obtain ⟨rest, hrest⟩ : ∃ rest, name.toList = '_' :: '_' :: rest := by
      have hleading := h.1
      unfold isPrivate at hleading
      simp only [Bool.and_eq_true] at hleading
      obtain ⟨rest, hrest⟩ := List.isPrefixOf_iff_prefix.1 hleading.1.1
      exact ⟨rest, hrest.symm⟩
    simp [isReserved, hrest]
  · rfl

theorem isReserved_spellAt (scopes : List Scope) (name : String) :
    isReserved (spellAt scopes name) = isReserved name := by
  induction scopes with
  | nil => rfl
  | cons scope outer ih =>
    rw [spellAt]
    split
    · exact isReserved_spellIn _ _
    · exact ih

theorem isReserved_headerSpell (h : Header) (outer : List Scope) (name : String) :
    isReserved (h.spell outer name) = isReserved name := by
  unfold Header.spell
  split
  · exact isReserved_spellIn _ _
  · exact isReserved_spellAt _ _

/-! ## Parameter lists -/

section Params

variable {params : Params} {spell : String → String} {number : Nat} {name written : String}

theorem leafNames_perm (params : Params) (spell : String → String) :
    (leafNames spell params.formals).Perm (params.writtenNames.map spell) := by
  have hleaves : Surface.patternLeaves params.formals =
      Surface.patternLeaves params.positional ++
        (params.keywordOnly ++ params.star.toList ++ params.doubleStar.toList) := by
    simp [Surface.Params.formals, Surface.patternLeaves_eq_flatMap, List.flatMap_map,
      Surface.Pattern.leaves]
  have hnamed : (params.keywordOnly ++ params.star.toList ++ params.doubleStar.toList).Perm
      params.named :=
    List.perm_append_comm.append_right _
  rw [leafNames, Surface.Params.writtenNames, List.map_map, hleaves]
  exact (hnamed.append_left _).map _

/-- A name that is not reserved is a slot no more often than it is written. -/
theorem PositionalSlot.count_le (hname : isReserved name = false) (patterns : List Pattern) :
    ((PositionalSlot.ofPatterns spell number patterns).map PositionalSlot.name).count name ≤
      ((Surface.patternLeaves patterns).map fun leaf => spell leaf.name).count name := by
  induction patterns generalizing number with
  | nil => exact Nat.le_refl _
  | cons pattern rest ih =>
    cases pattern with
    | name param =>
      rw [ofPatterns, Surface.patternLeaves, Surface.Pattern.leaves, List.map_cons,
        List.singleton_append, List.map_cons, List.count_cons, List.count_cons]
      exact Nat.add_le_add_right ih _
    | tuple elements =>
      have hne : (placeholderName number == name) = false := by
        rw [beq_eq_false_iff_ne]
        rintro rfl
        rw [isReserved_placeholderName] at hname
        cases hname
      rw [ofPatterns, Surface.patternLeaves, List.map_cons, List.map_append, List.count_cons,
        hne, List.count_append]
      exact Nat.le_trans ih (Nat.le_add_left _ _)

/-- A reserved slot is a placeholder, and no two placeholders have one name. -/
theorem PositionalSlot.count_reserved (hname : isReserved name = true) (patterns : List Pattern)
    (hspell : ∀ leaf ∈ Surface.patternLeaves patterns, isReserved (spell leaf.name) = false) :
    ((PositionalSlot.ofPatterns spell number patterns).map PositionalSlot.name).count name ≤ 1 ∧
      ∀ m < number, name = placeholderName m →
        ((PositionalSlot.ofPatterns spell number patterns).map PositionalSlot.name).count name =
          0 := by
  induction patterns generalizing number with
  | nil => exact ⟨Nat.zero_le _, fun _ _ _ => rfl⟩
  | cons pattern rest ih =>
    have hrest := fun leaf hleaf => hspell leaf (List.mem_append_right _ hleaf)
    cases pattern with
    | name param =>
      have hne : (spell param.name == name) = false := by
        rw [beq_eq_false_iff_ne]
        rintro rfl
        rw [hspell param List.mem_cons_self] at hname
        cases hname
      rw [ofPatterns, List.map_cons, List.count_cons, hne]
      exact ih hrest
    | tuple elements =>
      obtain ⟨hle, hzero⟩ := @ih (number + 1) hrest
      rw [ofPatterns, List.map_cons, List.count_cons]
      refine ⟨?_, fun m hm h => ?_⟩
      · by_cases heq : placeholderName number = name
        · have hcount := hzero number (Nat.lt_succ_self _) heq.symm
          exact Nat.le_of_eq (by rw [hcount, if_pos (beq_iff_eq.2 heq)])
        · rw [if_neg (by simpa using heq)]
          exact hle
      · rw [hzero m (Nat.lt_succ_of_lt hm) h, if_neg]
        subst h
        intro heq
        have := placeholderName_injective (beq_iff_eq.1 heq)
        omega

/-- No written name is reserved, as it is spelled. -/
theorem leaf_not_reserved (hspell : ∀ name, isReserved (spell name) = isReserved name)
    (h : params.writtenNames.find? isReserved = none) {name : String}
    (hname : name ∈ leafNames spell params.formals) : isReserved name = false := by
  obtain ⟨written, hwritten, rfl⟩ := List.mem_map.1 ((leafNames_perm params spell).mem_iff.1 hname)
  rw [hspell]
  simpa using List.find?_eq_none.1 h written hwritten

/-- Without reserved names, no slot is reserved but the placeholders. -/
theorem firstReserved_rawSignature
    (h : ∀ name ∈ leafNames spell params.formals, isReserved name = false) :
    (params.rawSignature spell name).firstReserved = none := by
  have hplain : ∀ param, Pattern.name param ∈ params.formals →
      isReserved (spell param.name) = false := fun param hparam =>
    h _ (List.mem_map.2 ⟨param, (Surface.patternLeaves_eq_flatMap _).symm ▸
      List.mem_flatMap.2 ⟨_, hparam, List.mem_singleton_self _⟩, rfl⟩)
  have hnamed : ∀ param ∈ params.keywordOnly ++ params.star.toList ++ params.doubleStar.toList,
      isReserved (spell param.name) = false := fun param hparam =>
    hplain param (List.mem_append_right _ (List.mem_map_of_mem hparam))
  rw [Signature.firstReserved, Option.or_eq_none_iff, List.find?_eq_none, List.find?_eq_none]
  constructor
  · intro x hx
    obtain ⟨param, hparam, rfl⟩ : ∃ param ∈ params.keywordOnly ++ params.star.toList ++
        params.doubleStar.toList, spell param.name = x := by
      simpa [Params.rawSignature, Option.toList_map, or_and_right, exists_or] using hx
    simp [hnamed param hparam]
  · intro x hx
    obtain ⟨slot, hslot, rfl⟩ := List.mem_map.1 hx
    cases he : slot.elements with
    | none =>
      obtain ⟨param, hparam, hname⟩ := PositionalSlot.name_of_mem hslot he
      simp [hname, hplain param (List.mem_append_left _ hparam)]
    | some elements =>
      obtain ⟨n, -, hname⟩ := PositionalSlot.number_of_mem hslot he
      simp [hname, isPlaceholder_placeholderName]

/-- What can be wrong with a signature when no written name is reserved. -/
theorem defect_rawSignature {defect : Signature.Defect}
    (hnone : ∀ name ∈ leafNames spell params.formals, isReserved name = false)
    (h : (params.rawSignature spell name).defect? = some defect) :
    (∃ x, defect = .duplicate x ∧ 1 < (leafNames spell params.formals).count x) ∨
      params.positional.length < params.defaults.length ∧
        defect = .excessDefaults params.defaults.length params.positional.length := by
  have hlength : (params.rawSignature spell name).positional.length = params.positional.length := by
    rw [Params.rawSignature, List.length_map, PositionalSlot.length_ofPatterns]
  unfold Signature.defect? at h
  rw [firstReserved_rawSignature hnone, hlength] at h
  split at h
  · rename_i x hx
    cases h
    rw [slots_rawSignature] at hx
    refine .inl ⟨x, rfl, ?_⟩
    have hcount := (Signature.firstRepeated_eq_some hx).2.resolve_left List.not_mem_nil
    cases hres : isReserved x with
    | true =>
      have hle : ((PositionalSlot.ofPatterns spell 1 params.formals).map
          PositionalSlot.name).count x ≤ 1 :=
        (PositionalSlot.count_reserved hres params.formals fun leaf hleaf =>
          hnone _ (List.mem_map_of_mem hleaf)).1
      exact absurd hcount (Nat.not_lt.2 hle)
    | false => exact Nat.lt_of_lt_of_le hcount (PositionalSlot.count_le hres params.formals)
  · dsimp only at h
    split at h
    · rename_i hexcess
      cases h
      exact .inr ⟨hexcess, rfl⟩
    · cases h

theorem duplicate_mem {dialect : Dialect} {location : Location} {x : String}
    (h : 1 < (leafNames spell params.formals).count x) :
    ⟨.invalidSignature (.duplicate x), location⟩ ∈ params.violations dialect spell location := by
  have hperm := leafNames_perm params spell
  rw [hperm.count_eq] at h
  simp only [Params.violations, List.mem_append]
  refine .inl (.inr (List.mem_map.2 ⟨x, List.mem_filter.2 ⟨?_, decide_eq_true h⟩, rfl⟩))
  exact List.count_pos_iff.1 (Nat.lt_trans Nat.zero_lt_one h)

/-- **An error of a signature is a violation.** -/
theorem signature_error_mem {dialect : Dialect} {cause : Cause} {location : Location}
    (hspell : ∀ name, isReserved (spell name) = isReserved name)
    (h : params.signature dialect spell name = .error cause) :
    ⟨cause, location⟩ ∈ params.violations dialect spell location := by
  unfold Params.signature at h
  split at h
  · rename_i hkeyword
    cases h
    simp only [Params.violations, List.mem_append]
    rw [if_pos hkeyword]
    exact .inl (.inl (.inl (List.mem_singleton_self _)))
  · split at h
    · rename_i written hwritten
      cases h
      simp only [Params.violations, List.mem_append]
      refine .inl (.inl (.inr (List.mem_map.2 ⟨written, List.mem_filter.2 ?_, rfl⟩)))
      exact ⟨List.mem_of_find?_eq_some hwritten, List.find?_some hwritten⟩
    · rename_i hnone
      split at h
      · rename_i defect hcheck
        cases h
        have hdefect : (params.rawSignature spell name).defect? = some defect := by
          unfold Signature.check at hcheck
          split at hcheck
          · rename_i hsome
            cases hcheck
            exact hsome
          · cases hcheck
        rcases defect_rawSignature (fun _ => leaf_not_reserved hspell hnone) hdefect with
          ⟨x, rfl, hx⟩ | ⟨hexcess, rfl⟩
        · exact duplicate_mem hx
        · simp only [Params.violations, List.mem_append]
          rw [if_pos hexcess]
          exact .inr (List.mem_singleton_self _)
      · cases h

/-- The checks that an accepted parameter list has passed. -/
theorem checks_of_signature {dialect : Dialect} {signature : Signature}
    (h : params.signature dialect spell name = .ok signature) :
    (!params.keywordOnly.isEmpty && !dialect.keywordOnly) = false ∧
      params.writtenNames.find? isReserved = none ∧
      (params.rawSignature spell name).defect? = none := by
  unfold Params.signature at h
  split at h
  · cases h
  · rename_i hkeyword
    split at h
    · cases h
    · rename_i hnone
      split at h
      · cases h
      · rename_i hcheck
        exact ⟨Bool.eq_false_iff.2 hkeyword, hnone, (Signature.check_eq_ok_iff.1 hcheck).1⟩

/-- Nothing can be wrong with the signature of a delegate but two leaves of one name. -/
theorem delegate_check_error {dialect : Dialect} {defect : Signature.Defect}
    {signature : Signature} (hspell : ∀ name, isReserved (spell name) = isReserved name)
    (hok : params.signature dialect spell name = .ok signature) {delegate : String}
    (h : (delegateSignature delegate (leafNames spell params.formals)).check = .error defect) :
    ∃ leaf, Signature.firstRepeated [] (leafNames spell params.formals) = some leaf ∧
      defect = .duplicate leaf := by
  have hplain := fun x (hx : x ∈ leafNames spell params.formals) =>
    leaf_not_reserved hspell (checks_of_signature hok).2.1 hx
  have hreserved : (delegateSignature delegate (leafNames spell params.formals)).firstReserved
      = none := by
    rw [Signature.firstReserved, Option.or_eq_none_iff]
    refine ⟨rfl, List.find?_eq_none.2 fun x hx => ?_⟩
    simp [hplain x hx]
  unfold Signature.check Signature.defect? at h
  rw [delegateSignature_slots, hreserved] at h
  cases hrepeated : Signature.firstRepeated [] (leafNames spell params.formals) with
  | none =>
    rw [hrepeated] at h
    simp [delegateSignature] at h
  | some leaf =>
    rw [hrepeated] at h
    cases h
    exact ⟨leaf, rfl, rfl⟩

/-- **What is wrong with a delegate's signature is a violation**: two leaves of one name. -/
theorem delegate_error_mem {dialect : Dialect} {defect : Signature.Defect} {location : Location}
    {signature : Signature} (hspell : ∀ name, isReserved (spell name) = isReserved name)
    (hok : params.signature dialect spell name = .ok signature) {delegate : String}
    (h : (delegateSignature delegate (leafNames spell params.formals)).check = .error defect) :
    ⟨.invalidSignature defect, location⟩ ∈ params.violations dialect spell location := by
  obtain ⟨leaf, hrepeated, rfl⟩ := delegate_check_error hspell hok h
  exact duplicate_mem
    ((Signature.firstRepeated_eq_some hrepeated).2.resolve_left List.not_mem_nil)

/-- **An accepted parameter list has no violation**, when its leaves have distinct names. -/
theorem violations_eq_nil {dialect : Dialect} {location : Location} {signature : Signature}
    (hok : params.signature dialect spell name = .ok signature)
    (hn : (leafNames spell params.formals).Nodup) :
      params.violations dialect spell location = [] := by
  obtain ⟨hkeyword, hnone, hdefect⟩ := checks_of_signature hok
  have hwritten : params.writtenNames.filter isReserved = [] :=
    List.filter_eq_nil_iff.2 (List.find?_eq_none.1 hnone)
  have hdistinct : (params.writtenNames.map spell).filter
      (fun x => 1 < (params.writtenNames.map spell).count x) = [] := by
    refine List.filter_eq_nil_iff.2 fun x _ => ?_
    have hle := List.nodup_iff_count_le_one.1 ((leafNames_perm params spell).nodup_iff.1 hn) x
    simpa using hle
  have hdefaults : ¬params.positional.length < params.defaults.length := by
    have hcount := Signature.defaultCount_le_of_defect?_eq_none hdefect
    rw [Params.rawSignature, List.length_map, PositionalSlot.length_ofPatterns] at hcount
    exact Nat.not_lt.2 hcount
  simp only [Params.violations]
  rw [hkeyword, hwritten, hdistinct, if_neg hdefaults]
  rfl

end Params

end DefinitionLowering
