import DefinitionLowering.Proofs.Growth
import DefinitionLowering.Proofs.Violations

/-!
# Spelling

A private name that has been spelled out starts with one underscore and a character of the class
name that is none, whatever the class is called, so it is not private any more.
-/

namespace DefinitionLowering

variable {className name : String}

/-! ## Inside a class -/

/-- What private names are spelled with does not start with an underscore. -/
theorem head?_privateStem_ne (className : String) :
    (privateStem className).toList.head? ≠ some '_' := by
  rw [privateStem, String.toList_ofList]
  intro h
  have hkept := List.head?_dropWhile_not (· == '_') className.toList
  rw [h] at hkept
  exact absurd hkept (by decide)

/-- A private name that has been spelled out is not private. -/
theorem isPrivate_spelled (h : privateStem className ≠ "") :
    isPrivate ("_" ++ privateStem className ++ name) = false := by
  obtain ⟨first, rest, hstem⟩ : ∃ first rest, (privateStem className).toList = first :: rest := by
    refine List.exists_cons_of_ne_nil fun hnil => h ?_
    exact String.toList_inj.1 hnil
  have hfirst : first ≠ '_' := by
    rintro rfl
    exact head?_privateStem_ne className (by rw [hstem, List.head?_cons])
  simp [isPrivate, hstem, hfirst.symm]

/-- **Spelling a name twice is spelling it once.** -/
theorem spellIn_spellIn (className name : String) :
    spellIn className (spellIn className name) = spellIn className name := by
  by_cases hprivate : (isPrivate name && privateStem className != "") = true
  · have hstem : privateStem className ≠ "" := by
      simpa using (Bool.and_eq_true_iff.1 hprivate).2
    have hspelled : spellIn className name = "_" ++ privateStem className ++ name :=
      if_pos hprivate
    rw [hspelled, spellIn, isPrivate_spelled hstem]
    rfl
  · have hspelled : spellIn className name = name := if_neg hprivate
    rw [hspelled, hspelled]

/-! ## In a body -/

namespace IR.Store

theorem spell_spell (s : Store) (b : BodyId) (name : String) :
    s.spell b (s.spell b name) = s.spell b name := by
  unfold spell
  cases s.classOf? b with
  | none => rfl
  | some c => exact spellIn_spellIn _ name

theorem isReserved_spell (s : Store) (b : BodyId) (name : String) :
    isReserved (s.spell b name) = isReserved name := by
  unfold spell
  cases s.classOf? b with
  | none => rfl
  | some c => exact isReserved_spellIn _ name

end IR.Store

end DefinitionLowering
