import DefinitionLowering.Proofs.Reached
import DefinitionLowering.Proofs.Spelling

/-!
# Parameter lists that are refused

The parameters of a callable are checked twice: the list itself before anything is created, and,
when there are tuples in it, the list of all leaves, which is the parameter list of the delegate.
By the second check the body of the wrapper is there already, and it stays.

* `Reached.buildCallable_refuses` — building a callable succeeds exactly when the list is valid
  and its leaves are distinct, and what a failure leaves: nothing new when the list itself is
  refused, and the wrapper, which never gets code, when two leaves clash.
* `clashingParams_leave_wrapper` — the parameters `((a, b), a)` leave a wrapper in a module that
  had nothing else in it.
-/

namespace DefinitionLowering

open IR (BodyId Store)
open Lowering (buildCallable functionPlan)
open Surface (Pattern)

variable {m : Surface.Module} {s s' : Store} {p : BodyId}

namespace Lowering

variable {setting : Setting} {provider : BodyId} {kind : CallableKind} {name : String}
  {doc : Option String} {flags : Flags} {params : Surface.Params} {location : Location}
  {callable : Callable}

/-- The leaves of a callable that has been built are distinct. -/
theorem leafNames_nodup_of_ok (hs : s.Ordered) (hp : provider.index < s.bodies.size)
    (h : buildCallable setting provider kind name doc flags params location s =
      .ok callable s') : (leafNames (s.spell provider) params.formals).Nodup := by
  obtain ⟨hsignature, houter, hcases⟩ := (buildCallable_spec hs hp).of_ok h
  obtain ⟨-, hslots⟩ := signature_eq_ok hsignature
  rcases hcases with ⟨hplain, -, -⟩ | ⟨-, hdelegate⟩
  · rwa [slots_of_plain hplain] at hslots
  · rw [houter] at hdelegate
    exact ((createDelegate_spec (isFresh_createBody flags doc location hs hp hslots)).of_ok
      hdelegate).1

end Lowering

/-! ## Reached stores -/

section Refusal

variable {setting : Setting} {kind : CallableKind} {name : String} {doc : Option String}
  {flags : Flags} {params : Surface.Params} {location : Location}

/-- **What a callable leaves whose parameters are refused.**  In every store that a lowering can
reach, a callable is built exactly when its parameter list is valid and all leaves are distinct, and
otherwise it is rejected at its own location.  When the list itself is refused, for an unsupported
keyword-only parameter, a reserved name, a repeated slot or too many defaults, the store is what it
was.  When the list is accepted and two leaves clash, which takes a tuple, the first leaf that
occurs again is reported, and what is left is the store with one more body: the wrapper with its
parameters, which has no code. -/
theorem Reached.buildCallable_refuses (h : Reached m s) (hp : p.index < s.bodies.size) :
    let slots := params.rawSignature (s.spell p) name
    let leaves := leafNames (s.spell p) params.formals
    Ends (buildCallable setting p kind name doc flags params location) s
      (fun _ _ => params.signature setting.dialect (s.spell p) name = .ok slots ∧ leaves.Nodup)
      (fun failure s' => ∃ cause, failure = .rejected ⟨cause, location⟩ ∧
        (params.signature setting.dialect (s.spell p) name = .error cause ∧ s' = s ∨
          params.signature setting.dialect (s.spell p) name = .ok slots ∧
          params.positional.any Pattern.isTuple = true ∧
          (∃ leaf, Signature.firstRepeated [] leaves = some leaf ∧
            cause = .invalidSignature (.duplicate leaf)) ∧
          s' = (s.createBody (functionPlan p name slots flags doc location)).2 ∧
          s'.bodies.size = s.bodies.size + 1 ∧ (s'.body ⟨s.bodies.size⟩).code = none)) := by
  intro slots leaves
  have hs := h.coherent
  refine (Lowering.buildCallable_spec hs.ordered hp).recall.weaken ?_ ?_
  · rintro callable s' ⟨hrun, hsignature, -⟩
    exact ⟨hsignature, Lowering.leafNames_nodup_of_ok hs.ordered hp hrun⟩
  · rintro failure s' ⟨-, ⟨rfl, cause, hcause, rfl⟩ | ⟨rfl, fault, hfault, -⟩ |
      ⟨rfl, hsignature, htuple, defect, hcheck, rfl⟩⟩
    · exact ⟨cause, rfl, Or.inl ⟨hcause, rfl⟩⟩
    · -- every body of a reached store is in a module
      obtain ⟨info, hinfo⟩ := hs.ordered.moduleInfo_ok hs.rooted
        (fun b hb hm => (hs.module b hb hm).2) hp
      rw [hinfo] at hfault
      cases hfault
    · obtain ⟨leaf, hrepeated, rfl⟩ :=
        delegate_check_error (s.isReserved_spell p) hsignature hcheck
      refine ⟨_, rfl, Or.inr ⟨hsignature, htuple, ⟨leaf, hrepeated, rfl⟩, rfl,
        IR.Store.size_bodies_createBody, ?_⟩⟩
      rw [IR.Store.body_createBody_self]

end Refusal

/-- The parameters `((a, b), a)`. -/
def clashingParams : Surface.Params where
  positional := [.tuple [.name ⟨"a", none⟩, .name ⟨"b", none⟩], .name ⟨"a", none⟩]
  defaults := []
  star := none
  keywordOnly := []
  keywordDefaults := []
  doubleStar := none

/-- The parameters `((a, b), a)` are refused for their leaves. -/
theorem clashingParams_refused :
    ∃ failure s', buildCallable (.ofDialect .modern) ⟨0⟩ .function "f" none {} clashingParams
        .moduleStart (initialStore emptyModule) = .error failure s' ∧
      failure = .rejected ⟨.invalidSignature (.duplicate "a"), .moduleStart⟩ ∧
      s'.bodies.size = 2 ∧ (s'.body ⟨1⟩).code = none := by
  have hcreated : (⟨0⟩ : BodyId).index < (initialStore emptyModule).bodies.size := by decide
  have haccepted : (clashingParams.signature .modern
      ((initialStore emptyModule).spell ⟨0⟩) "f").toBool = true := by
    decide +kernel
  have hfirst : Signature.firstRepeated []
      (leafNames ((initialStore emptyModule).spell ⟨0⟩) clashingParams.formals) = some "a" := by
    decide +kernel
  cases hrun : buildCallable (.ofDialect .modern) ⟨0⟩ .function "f" none {} clashingParams
      .moduleStart (initialStore emptyModule) with
  | ok callable s' =>
    obtain ⟨-, hnodup⟩ := (Reached.created.buildCallable_refuses hcreated).of_ok hrun
    exact absurd hnodup (by decide +kernel)
  | error failure s' =>
    obtain ⟨cause, rfl, ⟨hcause, -⟩ | ⟨-, -, ⟨leaf, hleaf, rfl⟩, -, hsize, hcode⟩⟩ :=
      (Reached.created.buildCallable_refuses hcreated).of_error hrun
    · rw [show clashingParams.signature .modern _ "f" = .error cause from hcause] at haccepted
      cases haccepted
    · rw [hfirst] at hleaf
      cases hleaf
      exact ⟨_, s', rfl, rfl, hsize, hcode⟩

/-- A wrapper stays in the store although the parameters `((a, b), a)` are refused. -/
theorem clashingParams_leave_wrapper :
    Reached emptyModule (initialStore emptyModule) ∧
      ∃ failure s', buildCallable (.ofDialect .modern) ⟨0⟩ .function "f" none {} clashingParams
          .moduleStart (initialStore emptyModule) = .error failure s' ∧
        s' ≠ initialStore emptyModule ∧ s'.bodies.size = 2 ∧ s'.vars.size = 2 := by
  have hleaves : (match buildCallable (.ofDialect .modern) ⟨0⟩ .function "f" none {} clashingParams
      .moduleStart (initialStore emptyModule) with
    | .ok _ _ => false
    | .error _ s' => s'.bodies.size == 2 && s'.vars.size == 2) = true := by
    decide +kernel
  refine ⟨.created, ?_⟩
  cases hrun : buildCallable (.ofDialect .modern) ⟨0⟩ .function "f" none {} clashingParams
      .moduleStart (initialStore emptyModule) with
  | ok callable s' =>
    rw [hrun] at hleaves
    cases hleaves
  | error failure s' =>
    rw [hrun] at hleaves
    obtain ⟨hbodies, hvars⟩ := Bool.and_eq_true_iff.1 hleaves
    refine ⟨failure, s', rfl, ?_, beq_iff_eq.1 hbodies, beq_iff_eq.1 hvars⟩
    rintro rfl
    exact absurd hbodies (by decide)

end DefinitionLowering
