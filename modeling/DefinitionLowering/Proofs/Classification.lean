import DefinitionLowering.Proofs.CodeObjects
import DefinitionLowering.Proofs.Suspension

/-!
# What becomes of a classification

The classifier of a setting may be any function.  A definition that it answers out of place for is
refused, so what it answers for a definition holds of the bodies of the callable
(`Store.Honours`).  A lambda is not refused: one that is said to be a coroutine or an asynchronous
generator runs as a function, and only its code object says what it was classified as.

* `CallableAt.honours_iff`: the classification of a callable is honoured exactly when the object
  that it manufactures is the one that its kind is about.
* `LoweredModule.classification_honoured`: that is so of all callables of a module but these
  lambdas.
* `LoweredModule.classification_honoured_ofDialect`: the classifier that goes by the evidence never
  gives such an answer.
-/

namespace DefinitionLowering

open IR (BodyId VariableId Store)
open Lowering

/-! ## Classifications -/

/-- A body does nothing but manufacture an object, apart from the releases of its variables. -/
def IR.Store.Manufactures (s : Store) (b : BodyId) (kind : ObjectKind) (o : BodyId)
    (code : CodeObject) : Prop :=
  ∃ block, (s.body b).code = some block ∧
    (block = .single (.ret (.makeObject kind o code)) ∨
      ∃ vars, block = (IR.Block.single (.ret (.makeObject kind o code))).releasing vars)

/-- The bodies of a callable are what its code object says. -/
structure IR.Store.Honours (s : Store) (made : Callable) (object : Option BodyId) : Prop where
  /-- The statements are in a body of the kind. -/
  body : (s.body (codeBody made object)).kind = .callable made.code.kind
  /-- A function has no object. -/
  function : made.code.kind = .function ↔ object = none
  /-- What suspends manufactures an object of its kind, and nothing else does. -/
  suspended : ∀ kind, made.code.kind = .suspended kind ↔
    ∃ o, s.Manufactures made.function kind o made.code ∧
      (s.body o).kind = .callable (.suspended kind)

/-- A place in code that manufactures an object. -/
theorem IR.Store.Manufactures.sites {s : Store} {b o : BodyId} {kind : ObjectKind}
    {code : CodeObject} (h : s.Manufactures b kind o code) :
    s.sites b = [.object kind o code] := by
  obtain ⟨block, hblock, rfl | ⟨vars, rfl⟩⟩ := h
  · rw [IR.Store.sites_of_code hblock]
    rfl
  · rw [IR.Store.sites_of_code hblock, IR.Block.sites_releasing]
    rfl

namespace Lowering

variable {setting : Setting} {m : Surface.Module} {lowered : LoweredModule} {t : Store}
  {provider : BodyId} {made : Callable} {object : Option BodyId} {callee : Callee}

/-- The code object of a callable has the kind that the callable was classified as. -/
theorem CallableAt.code_kind (h : CallableAt setting t callee provider made object) :
    made.code.kind = callee.kind setting := by
  obtain ⟨_, -, hcode⟩ := h.described
  rw [hcode]
  rfl

/-- A callable manufactures the object that its kind is about, unless it is a lambda that was
classified as asynchronous. -/
theorem CallableAt.fits_iff (h : CallableAt setting t callee provider made object) :
    callee.object? setting = (callee.kind setting).object? ↔
      ∀ l, callee = .lambda l → (callee.kind setting).isAsync = false := by
  cases callee with
  | define d => exact ⟨fun _ _ heq => (nomatch heq), fun _ => h.fits d rfl⟩
  | lambda l =>
    have hobject : (Callee.lambda l).object? setting =
      if (Callee.lambda l).kind setting == .generator then some .generator else none := rfl
    rw [hobject]
    generalize (Callee.lambda l).kind setting = kind
    cases kind with
    | function => exact ⟨fun _ _ _ => rfl, fun _ => rfl⟩
    | suspended object =>
      cases object with
      | generator => exact ⟨fun _ _ _ => rfl, fun _ => rfl⟩
      | coroutine | asyncGenerator =>
        exact ⟨fun heq => (nomatch heq), fun hfit => absurd (hfit l rfl) (by decide)⟩

/-- Nothing that a callable's statements evaluate manufactures an object. -/
theorem CallableAt.object_not_mem_sites (h : CallableAt setting t callee provider made object)
    (ht : t.WellFormed) (kind : ObjectKind) (o : BodyId) (code : CodeObject) :
    .object kind o code ∉ t.sites (codeBody made object) := by
  intro hsite
  obtain ⟨block, hblock, hcode⟩ := h.code
  rw [IR.Store.sites_of_code hblock] at hsite
  rcases mem_sites_cases ht (hcode.steps ht) hsite with ⟨_, -, heq⟩ | ⟨_, _, _, -, heq⟩
  · cases heq
  · cases heq

/-- A callable manufactures its object and no other. -/
theorem CallableAt.manufactures_iff (h : CallableAt setting t callee provider made object)
    (hprepared : Prepared setting m t) (hfinished : Finished t lowered) (kind : ObjectKind) :
    callee.object? setting = some kind ↔
      ∃ o, lowered.store.Manufactures made.function kind o made.code ∧
        (lowered.store.body o).kind = .callable (.suspended kind) := by
  have ht := hprepared.valid.wellFormed
  constructor
  · intro hkind
    cases object with
    | none => exact absurd hkind (by rw [h.object_eq_none.2 rfl]; exact nofun)
    | some o =>
      obtain ⟨kind', hkind', hobject⟩ := h.objectAt
      obtain rfl : kind' = kind := Option.some.inj (hkind'.symm.trans hkind)
      have hroot : made.function ≠ ⟨0⟩ := fun heq => by
        have hfunction := h.stands.function_kind
        rw [heq, hprepared.root.kind] at hfunction
        cases hfunction
      obtain ⟨final, hfinal, hcases⟩ := hfinished.code hroot hobject.maker
      exact ⟨o, ⟨final, hfinal, hcases.imp And.left fun heq => ⟨_, heq⟩⟩,
        (hfinished.kind o).trans hobject.planned.kind⟩
  · rintro ⟨o, hmanufactures, -⟩
    have hsites := (hfinished.sites _).symm.trans hmanufactures.sites
    cases object with
    | none =>
      exact absurd (hsites ▸ List.mem_singleton_self _)
        (h.object_not_mem_sites ht kind o made.code)
    | some o' =>
      obtain ⟨kind', hkind', hobject⟩ := h.objectAt
      cases hobject.sites_function.symm.trans hsites
      exact hkind'

/-- **A classification is honoured exactly when the object that a callable manufactures is the one
that its kind is about.** -/
theorem CallableAt.honours_iff (h : CallableAt setting t callee provider made object)
    (hprepared : Prepared setting m t) (hfinished : Finished t lowered) :
    lowered.store.Honours made object ↔
      callee.object? setting = (callee.kind setting).object? := by
  have hbody : (lowered.store.body (codeBody made object)).kind =
      .callable (callee.bodyKind setting) := (hfinished.kind _).trans h.codeBody_kind
  constructor
  · intro hhonours
    have hkind : callee.bodyKind setting = callee.kind setting :=
      BodyKind.callable.inj (hbody.symm.trans (h.code_kind ▸ hhonours.body))
    rw [← hkind, Callee.bodyKind]
    cases callee.object? setting <;> rfl
  · intro hfits
    have hsome : ∀ kind, callee.kind setting = .suspended kind ↔
        callee.object? setting = some kind := by
      intro kind
      rw [hfits]
      cases callee.kind setting <;> simp [CallableKind.object?]
    constructor
    · rw [hbody, h.code_kind, Callee.bodyKind, hfits]
      cases callee.kind setting <;> rfl
    · rw [h.code_kind, ← h.object_eq_none, hfits]
      cases callee.kind setting <;> simp [CallableKind.object?]
    · intro kind
      rw [h.code_kind, hsome, h.manufactures_iff hprepared hfinished]

end Lowering

namespace LoweredModule

variable {setting : Setting} {dialect : Dialect} {m : Surface.Module} {lowered : LoweredModule}
  {callee : Callee}

/-- **A classification is honoured, unless a lambda was classified as asynchronous.**  Whatever the
classifier answers, each callable of a lowered module has a code object of the kind that it was
classified as; and that is the kind of the body with its statements and of the object that it
manufactures, or else it is a function and has none. -/
theorem classification_honoured (h : LoweredModule.ofSurface setting m = .ok lowered)
    (hcallee : Surface.Creates setting.dialect callee (Surface.undocumented m.body)) :
    ∃ provider made object, lowered.store.Carries setting m callee made object ∧
      .function made.outer made.code ∈ lowered.store.sites provider ∧
      made.code.kind = callee.kind setting ∧
      (lowered.store.Honours made object ↔
        ∀ l, callee = .lambda l → (callee.kind setting).isAsync = false) := by
  obtain ⟨t, provider, made, object, hprepared, hfinished, hcallable, hcreated⟩ :=
    exists_callableAt h hcallee
  exact ⟨provider, made, object, hfinished.carries (hcallable.carries hprepared), hcreated,
    hcallable.code_kind, (hcallable.honours_iff hprepared hfinished).trans hcallable.fits_iff⟩

/-- The callables of `fetchModule` are what they were classified as. -/
theorem fetchModule_honoured :
    ∃ lowered, LoweredModule.ofSurface (.ofDialect .modern) fetchModule = .ok lowered ∧
      ∃ provider made object,
        lowered.store.Carries (.ofDialect .modern) fetchModule (.lambda retryLambda) made object ∧
          .function made.outer made.code ∈ lowered.store.sites provider ∧
          made.code.kind = .generator ∧ lowered.store.Honours made object := by
  have hfacts : succeedsWith (fun _ => true)
      (LoweredModule.ofSurface (.ofDialect .modern) fetchModule) = true := by
    decide +kernel
  obtain ⟨lowered, h, -⟩ := exists_of_succeedsWith hfacts
  obtain ⟨provider, made, object, hcarries, hcreated, hkind, hhonours⟩ :=
    classification_honoured h fetchModule_creates
  have hgenerator : (Callee.lambda retryLambda).kind (.ofDialect .modern) = .generator := by
    decide +kernel
  refine ⟨lowered, h, provider, made, object, hcarries, hcreated, hkind.trans hgenerator,
    hhonours.2 fun l _ => ?_⟩
  rw [hgenerator]
  rfl

/-- The module `lambda: 0`. -/
def constantLambdaModule : Surface.Module where
  name := "m"
  filename := "m.py"
  future := ⟨false, false, false, false, false⟩
  body := [⟨.expr (.lambda ⟨⟨[], [], none, [], [], none⟩, .constant (.int 0), ⟨1, 0⟩⟩), ⟨1, 0⟩⟩]

/-- The code object of its lambda when that is said to be a coroutine. -/
def constantLambdaCode : CodeObject where
  name := "<lambda>"
  kind := .coroutine
  slots := []
  argumentCount := 0
  keywordOnlyCount := 0
  hasStar := false
  hasDoubleStar := false
  filename := "m.py"
  line := 1
  future := ⟨false, false, false, false, false⟩

/-- A lambda that is said to be a coroutine is not refused: it has the code object of one, and is a
function. -/
theorem constantLambdaModule_not_honoured :
    ∃ lowered, LoweredModule.ofSurface ⟨.modern, fun _ _ => (.coroutine, {})⟩
        constantLambdaModule = .ok lowered ∧
      lowered.store.bodyIds.map lowered.store.sites =
        [[.function ⟨1⟩ constantLambdaCode], [.frame constantLambdaCode]] ∧
      (lowered.store.body ⟨1⟩).kind = .function ∧
      ¬ lowered.store.Honours ⟨⟨1⟩, ⟨1⟩, constantLambdaCode⟩ none := by
  have hfacts : succeedsWith (fun l => l.store.bodyIds.map l.store.sites ==
        [[.function ⟨1⟩ constantLambdaCode], [.frame constantLambdaCode]] &&
      (l.store.body ⟨1⟩).kind == .function)
      (LoweredModule.ofSurface ⟨.modern, fun _ _ => (.coroutine, {})⟩ constantLambdaModule) =
        true := by
    decide +kernel
  obtain ⟨lowered, h, hfacts⟩ := exists_of_succeedsWith hfacts
  rw [Bool.and_eq_true] at hfacts
  have hkind : (lowered.store.body ⟨1⟩).kind = .function := eq_of_beq hfacts.2
  exact ⟨lowered, h, eq_of_beq hfacts.1, hkind, fun hhonours =>
    nomatch hkind.symm.trans hhonours.body⟩

/-- With the classifier that goes by the evidence, every classification is honoured. -/
theorem classification_honoured_ofDialect
    (h : LoweredModule.ofSurface (.ofDialect dialect) m = .ok lowered)
    (hcallee : Surface.Creates dialect callee (Surface.undocumented m.body)) :
    ∃ provider made object, lowered.store.Carries (.ofDialect dialect) m callee made object ∧
      .function made.outer made.code ∈ lowered.store.sites provider ∧
      made.code.kind = callee.kind (.ofDialect dialect) ∧ lowered.store.Honours made object := by
  obtain ⟨t, provider, made, object, hprepared, hfinished, hcallable, hcreated⟩ :=
    exists_callableAt h hcallee
  refine ⟨provider, made, object, hfinished.carries (hcallable.carries hprepared), hcreated,
    hcallable.code_kind, (hcallable.honours_iff hprepared hfinished).2 (hcallable.fits_iff.2 ?_)⟩
  rintro l rfl
  exact Callee.isAsync_kind _

end LoweredModule

end DefinitionLowering
