import DefinitionLowering.Proofs.StoreLaws
import Mathlib.Data.List.Perm.Subperm
import Mathlib.Logic.Relation

/-!
# Chains of providers

A store is acyclic if no body is among its own providers, directly or through others (`Acyclic`).
Bodies may be numbered in any order.

`ancestors` follows the providers for as many steps as there are bodies.  In an acyclic store that
is to the end (`Acyclic.ancestors`): the bodies on the way are different ones, and all but the last
were created, so there are no more of them than bodies (`Acyclic.length_providers_le`).  A proof
about a body may assume what is to be shown of its provider (`Acyclic.induction`).
-/

namespace DefinitionLowering.IR.Store

/-- No body is among its own providers. -/
def Acyclic (s : Store) : Prop :=
  ∀ b, ¬ Relation.TransGen (fun c p => (s.body c).provider = some p) b b

variable {s s' : Store} {a b p : BodyId}

/-- A store is acyclic if some measure of bodies decreases from each one to its provider. -/
theorem acyclic_of_measure (measure : BodyId → Nat)
    (h : ∀ b p, (s.body b).provider = some p → measure p < measure b) : s.Acyclic := by
  intro b hcycle
  have hless : ∀ a c, Relation.TransGen (fun c p => (s.body c).provider = some p) a c →
      measure c < measure a := by
    intro a c hreach
    induction hreach with
    | single hp => exact h _ _ hp
    | tail _ hp ih => exact Nat.lt_trans (h _ _ hp) ih
  exact Nat.lt_irrefl _ (hless b b hcycle)

/-- Acyclicity depends on the providers only. -/
theorem Acyclic.congr (h : s.Acyclic)
    (hp : ∀ b, (s'.body b).provider = (s.body b).provider) : s'.Acyclic := by
  intro b hcycle
  apply h b
  simpa only [hp] using hcycle

theorem ancestors_of_no_provider (h : (s.body b).provider = none) : s.ancestors b = [] := by
  unfold ancestors
  cases s.bodies.size with
  | zero => rfl
  | succ limit => simp [providers, h]

theorem providers_succ (limit : Nat) (hp : (s.body b).provider = some p) :
    s.providers (limit + 1) b = p :: s.providers limit p := by
  rw [providers, hp]

/-- Whoever is found by following the providers is reached by them. -/
theorem reached_of_mem_providers {limit : Nat} (ha : a ∈ s.providers limit b) :
    Relation.TransGen (fun c p => (s.body c).provider = some p) b a := by
  induction limit generalizing b with
  | zero => cases ha
  | succ limit ih =>
    cases hp : (s.body b).provider with
    | none => simp [providers, hp] at ha
    | some p =>
      rw [providers_succ limit hp] at ha
      rcases List.mem_cons.1 ha with rfl | ha
      · exact .single hp
      · exact .head hp (ih ha)

/-- All bodies on the way outwards but the last have a provider. -/
theorem lt_of_mem_dropLast_providers {limit : Nat}
    (ha : a ∈ (b :: s.providers limit b).dropLast) : a.index < s.bodies.size := by
  induction limit generalizing b with
  | zero => cases ha
  | succ limit ih =>
    cases hp : (s.body b).provider with
    | none => simp [providers, hp] at ha
    | some p =>
      rw [providers_succ limit hp, List.dropLast_cons_cons] at ha
      rcases List.mem_cons.1 ha with rfl | ha
      · exact lt_of_provider hp
      · exact ih ha

/-- Where fewer providers are found than were allowed, one more step leads no further. -/
theorem providers_of_length_le {limit : Nat}
    (h : (s.providers (limit + 1) b).length ≤ limit) :
    s.providers (limit + 1) b = s.providers limit b := by
  induction limit generalizing b with
  | zero => exact List.length_eq_zero_iff.1 (Nat.le_zero.1 h)
  | succ limit ih =>
    cases hp : (s.body b).provider with
    | none => simp [providers, hp]
    | some p =>
      rw [providers_succ _ hp, List.length_cons] at h
      rw [providers_succ _ hp, providers_succ _ hp, ih (Nat.le_of_succ_le_succ h)]

section Acyclic

variable (h : s.Acyclic)
include h

theorem Acyclic.nodup_providers (limit : Nat) (b : BodyId) :
    (b :: s.providers limit b).Nodup := by
  induction limit generalizing b with
  | zero => exact List.nodup_singleton b
  | succ limit ih =>
    apply List.nodup_cons.2
    constructor
    · intro hmem
      exact h b (reached_of_mem_providers hmem)
    · cases hp : (s.body b).provider with
      | none => simp [providers, hp]
      | some p =>
        rw [providers_succ limit hp]
        exact ih p

/-- There are no more providers than bodies. -/
theorem Acyclic.length_providers_le (limit : Nat) (b : BodyId) :
    (s.providers limit b).length ≤ s.bodies.size := by
  have hnodup : (b :: s.providers limit b).dropLast.Nodup :=
    (h.nodup_providers limit b).sublist (List.dropLast_sublist _)
  have hsub : (b :: s.providers limit b).dropLast ⊆ s.bodyIds := by
    intro a ha
    exact mem_bodyIds.2 (lt_of_mem_dropLast_providers ha)
  have hlength := (hnodup.subperm hsub).length_le
  simpa [bodyIds] using hlength

/-- **The scopes around a body are its provider and the scopes around that.** -/
theorem Acyclic.ancestors (hp : (s.body b).provider = some p) :
    s.ancestors b = p :: s.ancestors p := by
  have hlength := h.length_providers_le (s.bodies.size + 1) b
  rw [Store.ancestors, ← providers_of_length_le hlength, providers_succ _ hp, Store.ancestors]

theorem Acyclic.nodup_ancestors (b : BodyId) : (b :: s.ancestors b).Nodup :=
  h.nodup_providers s.bodies.size b

/-- Induction from the outermost bodies inwards. -/
theorem Acyclic.induction {P : BodyId → Prop}
    (step : ∀ b, (∀ p, (s.body b).provider = some p → P p) → P b) (b : BodyId) : P b := by
  suffices hmain : ∀ (limit : Nat) (b : BodyId), (s.ancestors b).length < limit → P b from
    hmain _ b (Nat.lt_succ_self _)
  intro limit
  induction limit with
  | zero =>
    intro b hb
    omega
  | succ limit ih =>
    intro b hb
    apply step
    intro p hp
    apply ih
    rw [h.ancestors hp, List.length_cons] at hb
    omega

end Acyclic

end DefinitionLowering.IR.Store
