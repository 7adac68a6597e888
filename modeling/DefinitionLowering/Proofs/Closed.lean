import DefinitionLowering.Proofs.Contents
import DefinitionLowering.Proofs.Resolution

/-!
# Lowered modules are closed

Main result: `closed`.  The code of a body mentions only what the body sees and its own temporaries.
A variable of another body is seen by every function-like scope on the way to its owner, names are
distinct and not declared global, parameters come first, and a nonlocal declaration is about a
variable of a scope around.

`Content.knows` is about the code before variables are released; what bodies see was settled by
`Store.Threaded`.
-/

namespace DefinitionLowering

open IR (BodyId VariableId Store)
open Lowering

/-! ## Scopes around a body -/

namespace IR.Store

variable {s : Store} {b p : BodyId}

/-- The function-like scopes around a body, the nearest first: classes and modules are skipped. -/
def functionScopes (s : Store) (b : BodyId) : List BodyId :=
  (s.ancestors b).filter fun a => (s.body a).kind.isFunctionLike

theorem Ordered.functionScopes_cons (h : s.Ordered) (hp : (s.body b).provider = some p) :
    s.functionScopes b =
      if (s.body p).kind.isFunctionLike then p :: s.functionScopes p else s.functionScopes p := by
  rw [functionScopes, h.ancestors hp, List.filter_cons]
  rfl

/-- The function-like scopes around a body are those in which its names are searched. -/
theorem WellFormed.functionScopes_eq (h : s.WellFormed) (b : BodyId) :
    s.functionScopes b = s.outerPath b := by
  cases hp : (s.body b).provider with
  | none => rw [outerPath_of_no_provider hp, functionScopes, ancestors_of_no_provider hp]; rfl
  | some p =>
    have ih := h.functionScopes_eq p
    rw [h.ordered.functionScopes_cons hp]
    cases hkind : (s.body p).kind with
    | moduleBody =>
      have hmodule : s.isModule p = true := by simp [isModule, hkind]
      rw [h.ordered.outerPath_of_module hp hmodule, if_neg (by simp [BodyKind.isFunctionLike]), ih,
        outerPath_of_no_provider (h.root p hmodule)]
    | classBody =>
      rw [h.ordered.outerPath_of_class hp (by simp [isModule, hkind]) (by simp [isClass, hkind]),
        if_neg (by simp [BodyKind.isFunctionLike]), ih]
    | callable kind =>
      rw [h.ordered.outerPath_of_callable hp (by simp [isModule, hkind]) (by simp [isClass, hkind]),
        if_pos (by simp [BodyKind.isFunctionLike]), ih]
termination_by b.index
decreasing_by exact h.ordered b p hp

/-- What a body sees is in order: variables of other bodies come through the next function-like
scope from a scope further out, names are distinct and not declared global, a function sees its
parameters first, and nonlocal declarations are about variables of scopes around. -/
structure ScopeClosed (s : Store) (b : BodyId) : Prop where
  captured : ∀ v ∈ s.visible b, (s.var v).owner ≠ b →
    ((s.var v).kind = .parameter ∨ (s.var v).kind = .localName) ∧
      ∃ p rest, s.functionScopes b = p :: rest ∧ v ∈ s.visible p ∧
        (s.var v).owner ∈ s.functionScopes b
  distinct : ((s.visible b).map fun v => (s.var v).name).Nodup
  globals : ∀ v ∈ s.visible b, (s.var v).name ∉ (s.body b).globals
  params : (s.body b).kind = .function → ∃ signature own, (s.body b).signature = some signature ∧
    own <+: s.visible b ∧ own.map (fun v => (s.var v).name) = signature.slots ∧
    ∀ v ∈ own, (s.var v).owner = b ∧ (s.var v).kind = .parameter
  nonlocals : ∀ d ∈ (s.body b).nonlocals, ∃ v ∈ s.visible b, (s.var v).name = d.name ∧
    (s.var v).owner ∈ s.functionScopes b

theorem ThreadedAt.scopeClosed (h : s.ThreadedAt b) (hthreaded : s.Threaded) (hs : s.WellFormed)
    (hsignature : (s.body b).kind = .function → ∃ signature,
      (s.body b).signature = some signature) :
    s.ScopeClosed b where
  captured v hv hne := by
    refine ⟨?_, ?_⟩
    · have hkind := (hs.seen b v hv).2
      cases hk : (s.var v).kind with
      | parameter => exact Or.inl rfl
      | localName => exact Or.inr rfl
      | temporary => exact absurd hk hkind
    · rw [hs.functionScopes_eq]
      rcases h.reach v hv with hown | ⟨p, rest, hpath, hseen⟩
      · exact absurd hown hne
      · exact ⟨p, rest, hpath, hseen, hthreaded.owner_mem_outerPath hs.ordered hv hne⟩
  distinct := hs.names b
  globals := h.disjoint
  params hkind := by
    obtain ⟨signature, hsome⟩ := hsignature hkind
    obtain ⟨own, hown⟩ := h.params signature hsome
    exact ⟨signature, own, hsome, hown⟩
  nonlocals d hd := by
    obtain ⟨v, hfind, howner, -⟩ := h.nonlocals d hd
    obtain ⟨hv, hname⟩ := find?_eq_some hfind
    exact ⟨v, hv, hname, by rw [hs.functionScopes_eq]; exact howner⟩

end IR.Store

/-! ## Variables in lowered code -/

namespace Lowering

variable {setting : Setting} {t : Store} {b c : BodyId} {location : Location} {v : VariableId}
  {statement : IR.Stmt} {block : IR.Block}

/-- A variable that a step reads is one that the body sees. -/
theorem StepTo.visible {step : Surface.Step} (h : StepTo setting t b step (.var v))
    (ht : t.WellFormed) : v ∈ t.visible b := by
  cases h with
  | eval location h =>
    cases gave_counterpart h ht with
    | var hfind => exact (IR.Store.find?_eq_some hfind).1
  | create h => exact absurd h (by rintro ⟨⟩)

/-- The variables read by lowered code with the same steps as written code. -/
theorem StepsTo.visible {steps : List Surface.Step} {steps' : List IR.Expr}
    (h : StepsTo setting t b steps steps') (ht : t.WellFormed) (hv : .var v ∈ steps') :
    v ∈ t.visible b := by
  induction h with
  | nil => cases hv
  | cons hfirst _ ih =>
    rcases List.mem_cons.1 hv with rfl | hv
    · exact hfirst.visible ht
    · exact ih hv
  | implied _ _ ih | applied _ _ ih => exact ih ((List.mem_cons.1 hv).resolve_left nofun)

theorem targets_returnStmt (kind : BodyKind) (value : Option IR.Expr) :
    (returnStmt kind value).targets = [] :=
  returnStmt_of_forms (P := fun s => s.targets = []) kind value (fun _ => rfl) rfl (fun _ => rfl)
    rfl

/-- A variable that a lowered statement assigns is one that the body sees. -/
theorem StmtCounterpart.targets {kind : Surface.StmtKind}
    (h : StmtCounterpart setting t b location kind (some statement))
    (hv : v ∈ statement.targets) : v ∈ t.visible b := by
  cases h with
  | binds _ _ hbinds =>
    cases hbinds with
    | var hfind => exact List.mem_singleton.1 hv ▸ (IR.Store.find?_eq_some hfind).1
    | name => cases hv
  | ret =>
    rw [targets_returnStmt] at hv
    cases hv
  | expr | raise | branch | loop => cases hv

/-- The variables that lowered statements mention or assign are seen. -/
theorem gave_targets {statements : List Surface.Stmt} {lowered : List IR.Stmt} (ht : t.WellFormed)
    (h : Gave t b (lowerStmts setting b statements) lowered)
    (hmem : statement ∈ IR.stmtsWithin lowered) (hv : v ∈ statement.targets) : v ∈ t.visible b := by
  obtain ⟨first, -, hfirst⟩ := (within_stmts ht statements h).exists_of_mem hmem
  exact hfirst.targets hv

theorem CodeOf.targets {made : Callable} {object : Option BodyId} {callee : Callee}
    (h : CodeOf setting t made object callee block) (ht : t.WellFormed)
    (hmem : statement ∈ block.within) (hv : v ∈ statement.targets) :
    v ∈ t.visible (codeBody made object) := by
  cases h with
  | lambda value hvalue =>
    cases object <;> simp [IR.Block.ofFrame, IR.Block.within, lambdaStatements, IR.stmtsWithin,
      IR.Stmt.within] at hmem
    · cases hmem
      cases hv
    · rcases hmem with rfl | rfl <;> cases hv
  | define lowered hbody =>
    rcases mem_within_definitionCode hmem with hmem | hclosing
    · exact gave_targets ht hbody hmem hv
    · unfold closing at hclosing
      split at hclosing
      · cases hclosing
        cases hv
      · split at hclosing
        · cases hclosing
          cases hv
        · cases hclosing

/-- An access reads a variable that is known. -/
theorem accesses_mentions {known : VariableId → Prop} {e : IR.Expr} (h : e.Accesses known) :
    ∀ v ∈ e.mentions, known v := by
  induction h with
  | @var w h =>
    intro v hv
    rw [IR.Expr.mentions, List.mem_singleton] at hv
    exact hv ▸ h
  | unpack count expected _ ih | iterator _ ih =>
    intro v hv
    rw [IR.Expr.mentions] at hv
    exact ih v hv

theorem mem_exprsMentions {es : List IR.Expr} (h : v ∈ IR.exprsMentions es) :
    ∃ e ∈ es, v ∈ e.mentions := by
  induction es with
  | nil => cases h
  | cons first rest ih =>
    rw [IR.exprsMentions, List.mem_append] at h
    rcases h with h | h
    · exact ⟨first, List.mem_cons_self, h⟩
    · obtain ⟨e, he, hv⟩ := ih h
      exact ⟨e, List.mem_cons_of_mem _ he, hv⟩

/-- Unpacking code mentions known variables only. -/
theorem Unpacking.Within.known {u : Unpacking} {known : VariableId → Prop} (h : u.Within known)
    (hs : statement ∈ u.statements)
    (hv : v ∈ statement.targets ∨ ∃ e ∈ statement.operands, v ∈ e.mentions) : known v := by
  rcases h.statements statement hs with ⟨w, e, rfl, hw, he⟩ | ⟨w, count, rfl, hw⟩
  · rcases hv with hv | ⟨f, hf, hv⟩
    · exact List.mem_singleton.1 hv ▸ hw
    · exact accesses_mentions he v (List.mem_singleton.1 hf ▸ hv)
  · rcases hv with hv | ⟨f, hf, hv⟩
    · cases hv
    · rw [List.mem_singleton.1 hf, IR.Expr.mentions, List.mem_singleton] at hv
      exact hv ▸ hw

/-- The call at the end of a wrapper passes on what was taken apart. -/
theorem mentions_call (delegate : BodyId) (code : CodeObject) (values : List IR.Expr) :
    (IR.Expr.callFunction (.makeFunction delegate code [] none none) values).mentions =
      IR.exprsMentions values := by
  simp [IR.Expr.mentions, IR.exprsMentions, IR.optionMentions]

/-- The code of a wrapper mentions what it knows. -/
theorem Unpacking.Within.variables {u : Unpacking} {known : VariableId → Prop} {delegate : BodyId}
    {code : CodeObject} (h : u.Within known) :
    ∀ v ∈ (forwarding u delegate code).variables, known v := by
  intro v hv
  obtain ⟨statement, hs, hv⟩ := IR.Block.mem_variables.1 hv
  rw [within_forwarding h, List.mem_append] at hs
  rcases hs with hs | hs
  · exact h.known hs hv
  · cases List.mem_singleton.1 hs
    rcases hv with hv | ⟨f, hf, hv⟩
    · cases hv
    · rw [List.mem_singleton.1 hf, mentions_call] at hv
      obtain ⟨e, he, hv⟩ := mem_exprsMentions hv
      obtain ⟨w, rfl, hw⟩ := h.accesses e he
      exact accesses_mentions (.var hw) v hv

/-- **What the code of a body mentions it sees, or it is a temporary of the body.** -/
theorem Content.knows (h : Content setting t c block) (ht : t.WellFormed) :
    ∀ v ∈ block.variables, t.Knows c v := by
  intro v hv
  cases h with
  | scope hkind h =>
    rcases IR.Block.mem_variables_cases hv with ⟨statement, hs, htarget⟩ | hstep
    · rw [IR.Block.within_eq] at hs
      exact Or.inl (gave_targets ht h hs htarget)
    · rw [IR.Block.steps_ofStatements] at hstep
      exact Or.inl (((within_stmts ht _ h).steps ht).visible ht hstep)
  | code hcallable hbody hcode =>
    subst hbody
    rcases IR.Block.mem_variables_cases hv with ⟨statement, hs, htarget⟩ | hstep
    · exact Or.inl (hcode.targets ht hs htarget)
    · exact Or.inl ((hcode.steps ht).visible ht hstep)
  | maker hkind =>
    simp [manufacture, IR.Block.variables, IR.Block.single, IR.Block.within, IR.stmtsWithin,
      IR.Stmt.within, IR.Stmt.operands, IR.Stmt.targets, IR.Expr.mentions] at hv
  | wrapper hkind hwithin hvars =>
    rcases IR.Block.mem_variables_releasing.1 hv with hv | hv
    · exact hwithin.variables v hv
    · exact Or.inr (hvars v hv)

end Lowering

/-! ## The lowered module -/

variable {setting : Setting} {m : Surface.Module} {lowered : LoweredModule} {t : Store} {b : BodyId}

/-- A function has a signature. -/
theorem Prepared.signature (h : Prepared setting m t) (hb : b.index < t.bodies.size)
    (hkind : (t.body b).kind = .function) : ∃ signature, (t.body b).signature = some signature := by
  by_cases hroot : b = ⟨0⟩
  · rw [hroot, h.root.kind] at hkind
    cases hkind
  · cases h.origins b hroot hb with
    | callable callee provider made object hcallable hone =>
      rcases hone with rfl | rfl | rfl
      · exact ⟨_, hcallable.stands.outer.signature⟩
      · rcases hcallable.stands.function with ⟨-, hsame⟩ | ⟨-, hplanned, -⟩
        · exact ⟨_, hsame ▸ hcallable.stands.outer.signature⟩
        · exact ⟨_, hplanned.signature⟩
      · obtain ⟨_, -, hobject⟩ := hcallable.objectAt
        rw [hobject.planned.kind] at hkind
        cases hkind
    | classDef d provider hclass =>
      rw [hclass.planned.kind] at hkind
      cases hkind

/-- The releases change nothing about what a body sees. -/
theorem Finished.scopeClosed (h : Finished t lowered) (hscope : t.ScopeClosed b) :
    lowered.store.ScopeClosed b := by
  have hscopes : ∀ b, lowered.store.functionScopes b = t.functionScopes b := fun b => by
    simp only [Store.functionScopes, h.ancestors, h.kind]
  obtain ⟨code, hbody⟩ := h.body_eq b
  constructor
  · simpa only [h.visible, h.var, hscopes] using hscope.captured
  · simpa only [h.visible, h.var] using hscope.distinct
  · simpa only [h.visible, h.var, hbody] using hscope.globals
  · simpa only [h.visible, h.var, hbody] using hscope.params
  · simpa only [h.visible, h.var, hscopes, hbody] using hscope.nonlocals

/-- **A lowered module is closed.**  The code of a body mentions only variables that the body sees
and temporaries of its own, and what it sees is in order. -/
theorem LoweredModule.closed (h : LoweredModule.ofSurface setting m = .ok lowered)
    (hb : b.index < lowered.store.bodies.size) :
    (∃ block, (lowered.store.body b).code = some block ∧ ∀ v ∈ block.variables,
      v ∈ lowered.store.visible b ∨
        (lowered.store.var v).kind = .temporary ∧ (lowered.store.var v).owner = b) ∧
      lowered.store.ScopeClosed b := by
  obtain ⟨t, hprepared, hfinished⟩ := LoweredModule.prepared h
  have hb' : b.index < t.bodies.size := hfinished.bodies ▸ hb
  have hwf := hprepared.valid.wellFormed
  refine ⟨?_, hfinished.scopeClosed ((hprepared.threaded b hb').scopeClosed hprepared.threaded hwf
    (hprepared.signature hb'))⟩
  obtain ⟨block, final, hcontent, hcode, hfinal⟩ := hfinished.content hprepared hb'
  refine ⟨final, hcode, fun v hv => ?_⟩
  have hknown : t.Knows b v := by
    rcases hfinal with rfl | rfl
    · exact hcontent.knows hwf v hv
    · rcases IR.Block.mem_variables_releasing.1 hv with hv | hv
      · exact hcontent.knows hwf v hv
      · exact Or.inl (IR.Store.mem_ownVariables.1 hv).1
  rw [hfinished.visible, hfinished.var]
  exact hknown.imp_right fun hscratch => (hwf.scratch b v hscratch).2.symm

/-- The method of the class in `nestedModule` reads a variable of the function around the class. -/
theorem LoweredModule.nestedModule_captures :
    ∃ lowered, LoweredModule.ofSurface (.ofDialect .modern) nestedModule = .ok lowered ∧
      (lowered.store.body ⟨4⟩).name = "method" ∧ ⟨8⟩ ∈ lowered.store.visible ⟨4⟩ ∧
      (lowered.store.var ⟨8⟩).owner = ⟨2⟩ ∧ ⟨2⟩ ∈ lowered.store.functionScopes ⟨4⟩ := by
  have hfacts : succeedsWith (fun l => decide (4 < l.store.bodies.size ∧
      (l.store.body ⟨4⟩).name = "method" ∧ ⟨8⟩ ∈ l.store.visible ⟨4⟩ ∧
      (l.store.var ⟨8⟩).owner = ⟨2⟩)) (LoweredModule.ofSurface (.ofDialect .modern) nestedModule) =
      true := by
    decide +kernel
  obtain ⟨lowered, h, hfacts⟩ := exists_of_succeedsWith hfacts
  obtain ⟨hsize, hname, hseen, howner⟩ := of_decide_eq_true hfacts
  obtain ⟨-, hclosed⟩ := LoweredModule.closed h (b := ⟨4⟩) hsize
  obtain ⟨-, p, rest, -, -, hscopes⟩ := hclosed.captured ⟨8⟩ hseen (by rw [howner]; decide)
  exact ⟨lowered, h, hname, hseen, howner, howner ▸ hscopes⟩

end DefinitionLowering
