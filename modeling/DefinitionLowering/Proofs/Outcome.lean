import DefinitionLowering.Lowering.Basic

/-!
# Outcomes of steps

`Ends x s done failed` says how the step `x` ends when it starts in the state `s`: `done` holds
of its value and the state it leaves, or `failed` of its failure and that state.  A statement
of this kind covers failures as well, so it never has to assume that a step succeeds.

`ends_bind` puts the outcomes of two steps together; the other lemmas give the outcome of each
basic step.
-/

namespace DefinitionLowering

variable {ε σ α β : Type}

/-- How a step ends that starts in a state. -/
def Ends (x : EStateM ε σ α) (s : σ) (done : α → σ → Prop) (failed : ε → σ → Prop) : Prop :=
  match x s with
  | .ok a s' => done a s'
  | .error e s' => failed e s'

section Ends

variable {x : EStateM ε σ α} {f : α → EStateM ε σ β} {s : σ}
  {done done' : α → σ → Prop} {failed failed' : ε → σ → Prop}

theorem Ends.of_ok (h : Ends x s done failed) {a : α} {s' : σ} (hx : x s = .ok a s') :
    done a s' := by
  unfold Ends at h
  rw [hx] at h
  exact h

theorem Ends.of_error (h : Ends x s done failed) {e : ε} {s' : σ} (hx : x s = .error e s') :
    failed e s' := by
  unfold Ends at h
  rw [hx] at h
  exact h

theorem Ends.weaken (h : Ends x s done failed) (hd : ∀ a s', done a s' → done' a s')
    (hf : ∀ e s', failed e s' → failed' e s') : Ends x s done' failed' := by
  unfold Ends at *
  split at h
  · exact hd _ _ h
  · exact hf _ _ h

theorem Ends.and (h : Ends x s done failed) (h' : Ends x s done' failed') :
    Ends x s (fun a s' => done a s' ∧ done' a s') (fun e s' => failed e s' ∧ failed' e s') := by
  unfold Ends at *
  split <;> simp_all

/-- What holds of all outcomes. -/
theorem ends_of_forall (hd : ∀ a s', done a s') (hf : ∀ e s', failed e s') :
    Ends x s done failed := by
  unfold Ends
  split
  · exact hd _ _
  · exact hf _ _

/-- An outcome may mention the run it is the outcome of. -/
theorem Ends.recall (h : Ends x s done failed) :
    Ends x s (fun a s' => x s = .ok a s' ∧ done a s')
      (fun e s' => x s = .error e s' ∧ failed e s') := by
  unfold Ends at *
  cases hx : x s with
  | ok a s' =>
    rw [hx] at h
    exact ⟨rfl, h⟩
  | error e s' =>
    rw [hx] at h
    exact ⟨rfl, h⟩

@[simp] theorem ends_pure {a : α} :
    Ends (pure a : EStateM ε σ α) s done failed ↔ done a s := Iff.rfl

@[simp] theorem ends_throw {e : ε} :
    Ends (throw e : EStateM ε σ α) s done failed ↔ failed e s := Iff.rfl

theorem bind_ok {s' : σ} {a : α} (f : α → EStateM ε σ β) (h : x s = .ok a s') :
    (x >>= f) s = f a s' := by
  show EStateM.bind x f s = _
  unfold EStateM.bind
  rw [h]

theorem bind_error {s' : σ} {e : ε} (f : α → EStateM ε σ β) (h : x s = .error e s') :
    (x >>= f) s = .error e s' := by
  show EStateM.bind x f s = _
  unfold EStateM.bind
  rw [h]

/-- A sequence of two steps fails where the first fails, and goes on from its value if not. -/
theorem ends_bind {done : β → σ → Prop} :
    Ends (x >>= f) s done failed ↔ Ends x s (fun a s' => Ends (f a) s' done failed) failed := by
  show (match EStateM.bind x f s with
    | .ok a s' => done a s'
    | .error e s' => failed e s') ↔ _
  unfold Ends EStateM.bind
  cases x s <;> rfl

theorem ends_ite {c : Prop} [Decidable c] {y : EStateM ε σ α} :
    Ends (if c then x else y) s done failed ↔
      (c → Ends x s done failed) ∧ (¬c → Ends y s done failed) := by
  split <;> simp_all

end Ends

namespace Lowering

open IR (BodyId Store Fault)

variable {s : Store} {failed : Failure → Store → Prop}

@[simp] theorem ends_reject {done : α → Store → Prop} {cause : Cause} {location : Location} :
    Ends (reject cause location) s done failed ↔ failed (.rejected ⟨cause, location⟩) s :=
  Iff.rfl

@[simp] theorem ends_query {done : α → Store → Prop} {f : Store → α} :
    Ends (query f) s done failed ↔ done (f s) s := Iff.rfl

@[simp] theorem ends_kindOf {done : BodyKind → Store → Prop} {b : BodyId} :
    Ends (kindOf b) s done failed ↔ done (s.body b).kind s := Iff.rfl

@[simp] theorem ends_spell {done : String → Store → Prop} {b : BodyId} {name : String} :
    Ends (spell b name) s done failed ↔ done (s.spell b name) s := Iff.rfl

@[simp] theorem ends_operate {done : α → Store → Prop} {f : Store → α × Store} :
    Ends (operate f) s done failed ↔ done (f s).1 (f s).2 := Iff.rfl

@[simp] theorem ends_modify {done : Unit → Store → Prop} {f : Store → Store} :
    Ends (modify f : Lowering Unit) s done failed ↔ done () (f s) := Iff.rfl

theorem ends_tryQuery {done : α → Store → Prop} {f : Store → Except Fault α} :
    Ends (tryQuery f) s done failed ↔
      (∀ value, f s = .ok value → done value s) ∧
        (∀ fault, f s = .error fault → failed (.fault fault) s) := by
  unfold Ends
  cases h : f s with
  | ok value => simp [tryQuery_ok h]
  | error fault => simp [tryQuery_error h]

theorem ends_tryUpdate {done : Unit → Store → Prop} {f : Store → Except Fault Store} :
    Ends (tryUpdate f) s done failed ↔
      (∀ s', f s = .ok s' → done () s') ∧
        (∀ fault, f s = .error fault → failed (.fault fault) s) := by
  unfold tryUpdate
  rw [ends_bind, ends_tryQuery]
  rfl

end Lowering

/-- Whether there is a result that passes a check. -/
def succeedsWith (check : α → Bool) : Except ε α → Bool
  | .ok a => check a
  | .error _ => false

theorem exists_of_succeedsWith {check : α → Bool} {result : Except ε α}
    (h : succeedsWith check result = true) : ∃ a, result = .ok a ∧ check a = true := by
  cases result with
  | error e => cases h
  | ok a => exact ⟨a, rfl, h⟩

end DefinitionLowering
