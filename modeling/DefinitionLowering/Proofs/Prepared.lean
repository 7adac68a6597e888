import DefinitionLowering.Proofs.Captures
import DefinitionLowering.Proofs.Releases

/-!
# Lowered modules before the releases

`LoweredModule.prepared` says what the lowering of a module leaves before variables are released:
a threaded store in which every body has code, that of the module being what its statements gave,
and every other body belongs to a callable or a class.  The releases change code only; what holds
of a body's statements in the end is read off `releasedCode`.
-/

namespace DefinitionLowering

open IR (BodyId VariableId Store)
open Lowering

/-- A module has been lowered into a store, but for the releases. -/
structure Prepared (setting : Setting) (m : Surface.Module) (t : Store) : Prop where
  valid : Valid 0 [] t
  threaded : t.Threaded
  root : Planned t ⟨0⟩ (modulePlan m)
  ran : ∃ statements s s', s.WellFormed ∧ s.bodies.size = 1 ∧
    Ran 0 (lowerStmts setting ⟨0⟩ (Surface.undocumented m.body)) s statements s' ∧
      Store.Grows 0 s' t ∧ t.bodies.size = s'.bodies.size ∧
        (t.body ⟨0⟩).code = some (.ofStatements statements)
  origins : ∀ c : BodyId, c ≠ ⟨0⟩ → c.index < t.bodies.size → Origin setting t c

/-- The code of the module is what its statements gave. -/
theorem Prepared.code {setting : Setting} {m : Surface.Module} {t : Store}
    (h : Prepared setting m t) : ∃ statements,
      Gave t ⟨0⟩ (lowerStmts setting ⟨0⟩ (Surface.undocumented m.body)) statements ∧
        (t.body ⟨0⟩).code = some (.ofStatements statements) := by
  obtain ⟨statements, s, s', hs, hsize, hran, ht, -, hcode⟩ := h.ran
  exact ⟨statements, hran.gave hs (by rw [hsize]; exact Nat.one_pos) ht, hcode⟩

namespace Lowering

/-- A run that lowers a module leaves it prepared. -/
theorem UnreleasedRun.prepared {setting : Setting} {m : Surface.Module}
    {statements : List IR.Stmt} {s₁ s₂ t : Store}
    (h : UnreleasedRun setting m statements s₁ s₂ t) : Prepared setting m t := by
  obtain ⟨hg₁, hv₁⟩ := h.opened
  obtain ⟨hran, hv₂, -⟩ := h.lowered
  obtain ⟨hg, hv, hcode⟩ := h.attached
  have hlt : (0 : Nat) < (Store.createBody .empty (modulePlan m)).2.bodies.size :=
    Nat.lt_succ_self _
  have hsize₁ : s₁.bodies.size = 1 := openScope_size h.opens
  have hsize : t.bodies.size = s₂.bodies.size := attachCode_size h.attaches
  refine ⟨hv, ?_, ?_, ⟨statements, s₁, s₂, hv₁.wellFormed, hsize₁, hran, hg, hsize, hcode⟩,
    fun c hc hlt => ?_⟩
  · have hcreated : (Store.createBody .empty (modulePlan m)).2.Threaded :=
      IR.Store.threaded_empty.createBody Store.wellFormed_empty rfl
    have hopen : IR.Store.Changes 0 [] (Store.createBody .empty (modulePlan m)).2 s₁ :=
      IR.Store.openScope_changes h.opens (valid_module m).wellFormed hlt
        (fun v hv => IR.Store.param_of_createBody hv) (Or.inl rfl) (Nat.zero_le _)
        fun d _ hd => absurd hd (Nat.not_lt_zero _)
    have hbody := ((captures setting).lowerStmts (Surface.undocumented m.body) ⟨0⟩ (anyName _)
      _ _ _ hv₁.wellFormed h.created h.lowers).2.2
    have hattach : IR.Store.Changes 0 [] s₂ t := changes_attachCode hv₂.wellFormed h.attaches
    exact hattach.threaded (hbody.threaded (hopen.threaded hcreated))
  · exact (planned_createBody .empty (modulePlan m)).grow
      (hg₁.trans (hran.grows.trans hg (Nat.le_refl 0)) (Nat.le_refl 0))
  · -- All bodies but the first have been created for the statements.
    have hcovered := ((originates setting).lowerStmts (Surface.undocumented m.body) ⟨0⟩
      (anyName _) _ _ _ hv₁.wellFormed h.created h.lowers).2.2 t hg hv.wellFormed
    refine hcovered c ?_ (hsize ▸ hlt)
    rw [hsize₁]
    exact Nat.one_le_iff_ne_zero.2 fun hzero => hc (congrArg BodyId.mk hzero)

end Lowering

/-- **What the lowering of a module leaves.** -/
theorem LoweredModule.prepared {setting : Setting} {m : Surface.Module} {lowered : LoweredModule}
    (h : LoweredModule.ofSurface setting m = .ok lowered) :
    ∃ t, Prepared setting m t ∧ Finished t lowered := by
  obtain ⟨t, hrun, hfinished⟩ := LoweredModule.unreleased h
  obtain ⟨-, statements, s₁, s₂, hstages⟩ := Lowering.lowerUnreleased_eq_ok.1 hrun
  exact ⟨t, hstages.prepared, hfinished⟩

end DefinitionLowering
