import DefinitionLowering.Proofs.Contents
import DefinitionLowering.Proofs.Scanning

/-!
# Forms of suspension and return

Main result: `forms_fit`.  With the classifier that goes by the evidence, a body has only those
forms that its kind allows: suspended objects yield, asynchronous ones await, functions return and
objects end, and only functions manufacture objects.

Lowering checks some of this itself (`StepTo.fits`); that a plain function does not yield is
because the classifier scans every step that the code takes (`Callee.yields_of_step`).
-/

namespace DefinitionLowering

open IR (BodyId VariableId Store)
open Lowering

/-! ## What fits a kind -/

namespace IR

/-- Whether an expression may be evaluated in a body of a kind. -/
def Expr.Fits (kind : BodyKind) : Expr → Prop
  | .yield _ => kind = .callable .generator ∨ kind = .callable .asyncGenerator
  | .yieldFrom _ => kind = .callable .generator
  | .await _ => kind = .callable .coroutine ∨ kind = .callable .asyncGenerator
  | .makeObject _ _ _ => kind = .function
  | _ => True

/-- Whether a statement may end a body of a kind. -/
def Stmt.Fits (kind : BodyKind) : Stmt → Prop
  | .ret _ | .retNone => kind = .function
  | .objectRet _ => kind = .callable .generator ∨ kind = .callable .coroutine
  | .objectRetNone => kind.isObject = true
  | _ => True

/-- The forms in a block fit a kind, and an object is manufactured only to be returned. -/
structure Block.Fits (kind : BodyKind) (block : Block) : Prop where
  statements : ∀ statement ∈ block.within, statement.Fits kind
  expressions : ∀ e ∈ block.terms, e.Fits kind
  returned : ∀ statement ∈ block.within, ∀ e ∈ statement.operands, ∀ o body code,
    .makeObject o body code ∈ e.evaluations → statement = .ret (.makeObject o body code)

/-- Releases are no forms of suspension or return. -/
theorem Block.Fits.releasing {kind : BodyKind} {block : Block} (h : block.Fits kind)
    (vars : List VariableId) : (block.releasing vars).Fits kind := by
  have hwithin : ∀ statement ∈ (block.releasing vars).within, statement ∈ block.within ∨
      (statement.Fits kind ∧ statement.operands = []) := by
    intro statement hs
    rw [Block.within_releasing, List.mem_cons, List.mem_append, List.mem_map] at hs
    rcases hs with rfl | hs | ⟨v, -, rfl⟩
    · exact Or.inr ⟨trivial, rfl⟩
    · exact Or.inl hs
    · exact Or.inr ⟨trivial, rfl⟩
  constructor
  · exact fun statement hs => (hwithin statement hs).elim (h.statements statement) And.left
  · exact fun e he => h.expressions e (Block.terms_releasing vars block ▸ he)
  · intro statement hs e he
    rcases hwithin statement hs with hs | ⟨-, hnone⟩
    · exact h.returned statement hs e he
    · rw [hnone] at he
      cases he

end IR

/-! ## Classification by the evidence -/

section Callee

variable {callee : Callee} {dialect : Dialect}

theorem Callee.kind_ofDialect : callee.kind (.ofDialect dialect) =
    if (Surface.stmtsEvidence callee.statements).yields then Surface.yieldingKind callee.start
    else callee.start := rfl

/-- An asynchronous definition is a coroutine or an asynchronous generator. -/
theorem Callee.isAsync_kind (callee : Callee) {dialect : Dialect} :
    (callee.kind (.ofDialect dialect)).isAsync = callee.isAsync := by
  rw [Callee.kind_ofDialect, Callee.start]
  cases callee.isAsync <;> cases (Surface.stmtsEvidence callee.statements).yields <;> rfl

/-- The statements of a callable are in the body of the kind that it is classified as. -/
theorem Callee.bodyKind_eq : callee.bodyKind (.ofDialect dialect) =
    callee.kind (.ofDialect dialect) := by
  rw [Callee.bodyKind, Callee.object?, Callee.kind_ofDialect, Callee.start]
  cases callee.isAsync <;> cases (Surface.stmtsEvidence callee.statements).yields <;> rfl

/-- A callable that yields in some step suspends. -/
theorem Callee.yields_of_step {step : Surface.Step}
    (h : step ∈ callee.steps (.ofDialect dialect)) (hyields : step.evidence.yields = true) :
    callee.bodyKind (.ofDialect dialect) = Surface.yieldingKind callee.start := by
  rw [Callee.bodyKind_eq, Callee.kind_ofDialect, if_pos]
  rw [Surface.stmtsEvidence_eq dialect, Surface.Evidence.yields_append, Bool.or_eq_true,
    Surface.additive_yields.steps]
  exact Or.inl (List.any_eq_true.2 ⟨step, h, hyields⟩)

theorem Callee.suspends_iff : (callee.kind (.ofDialect dialect) = .generator ∨
    callee.kind (.ofDialect dialect) = .asyncGenerator) ↔
      (Surface.stmtsEvidence callee.statements).yields = true := by
  rw [Callee.kind_ofDialect, Callee.start]
  cases callee.isAsync <;> cases (Surface.stmtsEvidence callee.statements).yields <;> decide

theorem Callee.yieldingKind_start : Surface.yieldingKind callee.start = .generator ∨
    Surface.yieldingKind callee.start = .asyncGenerator := by
  rw [Callee.start]
  cases callee.isAsync
  · exact Or.inl rfl
  · exact Or.inr rfl

end Callee

namespace Lowering

variable {setting : Setting} {dialect : Dialect} {t : Store} {b c : BodyId} {location : Location}
  {statement : IR.Stmt} {block : IR.Block} {step : Surface.Step} {e : IR.Expr}

theorem isAsync_of_allowsAwait {kind : BodyKind} (h : kind.allowsAwait = true) :
    kind = .callable .coroutine ∨ kind = .callable .asyncGenerator := by
  match kind, h with
  | .callable .coroutine, _ => exact Or.inl rfl
  | .callable .asyncGenerator, _ => exact Or.inr rfl

/-- A step fits the kind of its body, given that the body is of a yielding kind when the step
yields. -/
theorem StepTo.fits (h : StepTo setting t b step e) (ht : t.WellFormed)
    (hyields : (t.body b).kind.isFunctionLike = true → step.evidence.yields = true →
      (t.body b).kind = .callable .generator ∨ (t.body b).kind = .callable .asyncGenerator) :
    e.Fits (t.body b).kind := by
  cases h with
  | eval location h =>
    cases gave_counterpart h ht with
    | yield hkind => exact hyields hkind rfl
    | yieldFrom hkind hasync =>
      rcases hyields hkind rfl with hk | hk
      · exact hk
      · rw [hk] at hasync
        cases hasync
    | await hasync => exact isAsync_of_allowsAwait hasync
    | _ => trivial
  | create h =>
    cases h
    trivial
  | apply | createClass => trivial

/-- Nothing that is written manufactures an object. -/
theorem StepTo.ne_makeObject (h : StepTo setting t b step e) (ht : t.WellFormed) (o : ObjectKind)
    (body : BodyId) (code : CodeObject) : e ≠ .makeObject o body code := by
  cases h with
  | eval location h => cases gave_counterpart h ht <;> simp
  | create h =>
    cases h
    simp [creation]
  | apply | createClass => simp

/-- The expressions of a block fit a kind if its steps do. -/
theorem fits_of_steps {kind : BodyKind} (h : ∀ e ∈ block.steps, e.Fits kind) :
    ∀ e ∈ block.terms, e.Fits kind := by
  intro e he
  cases hsilent : e.silent with
  | false => exact h e (IR.Block.mem_steps.2 ⟨he, hsilent⟩)
  | true =>
    cases e with
    | constantMapping | mapping => trivial
    | _ => cases hsilent

/-- How a lowered statement may end a body. -/
theorem StmtCounterpart.fits {kind : Surface.StmtKind}
    (h : StmtCounterpart setting t b location kind (some statement)) :
    statement.Fits (t.body b).kind := by
  cases h with
  | @ret value value' hkind hnone hvalue =>
    have hvalue := gave_option hvalue
    revert hkind hnone
    cases (t.body b).kind with
    | moduleBody | classBody => exact fun hkind => nomatch hkind
    | callable kind =>
      intro _ hnone
      cases kind with
      | function => cases value' <;> rfl
      | suspended object =>
        cases hvalue with
        | none => rfl
        | some =>
          cases object with
          | generator => exact Or.inl rfl
          | coroutine => exact Or.inr rfl
          | asyncGenerator => cases hnone rfl
  | binds _ _ hbinds => cases hbinds <;> trivial
  | expr | raise | branch | loop => trivial

theorem fits_closing {callee : Callee} (hclosing : closing callee.isAsync
      (callee.kind (.ofDialect dialect)) = some statement) :
    statement.Fits (.callable (callee.bodyKind (.ofDialect dialect))) := by
  rw [Callee.bodyKind_eq]
  rw [Callee.kind_ofDialect, Callee.start] at hclosing ⊢
  generalize callee.isAsync = isAsync at hclosing ⊢
  generalize (Surface.stmtsEvidence callee.statements).yields = yields at hclosing ⊢
  cases isAsync <;> cases yields <;> cases hclosing <;> rfl

/-- The statements of a callable's code fit the kind of the body. -/
theorem CodeOf.fits {callee : Callee} {made : Callable} {object : Option BodyId}
    (h : CodeOf (.ofDialect dialect) t made object callee block)
    (hcallable : CallableAt (.ofDialect dialect) t callee b made object) (ht : t.WellFormed) :
    ∀ statement ∈ block.within, statement.Fits (t.body (codeBody made object)).kind := by
  intro statement hs
  cases h with
  | lambda value hvalue =>
    have hmanufactured := hcallable.manufactured
    rw [hcallable.codeBody_kind, Callee.bodyKind]
    generalize (Callee.lambda _).object? (.ofDialect dialect) = kind at hmanufactured
    cases hmanufactured with
    | none =>
      cases List.mem_singleton.1 hs
      rfl
    | some =>
      rcases List.mem_pair.1 hs with rfl | rfl
      · trivial
      · rfl
  | @define d lowered hbody =>
    rcases mem_within_definitionCode hs with hs | hclosing
    · obtain ⟨first, -, hfirst⟩ := (within_stmts ht _ hbody).exists_of_mem hs
      exact hfirst.fits
    · rw [hcallable.codeBody_kind]
      exact fits_closing hclosing

/-- Taking arguments apart neither suspends nor manufactures anything. -/
theorem fits_access {known : VariableId → Prop} {kind : BodyKind} (h : e.Accesses known) :
    ∀ f ∈ e.evaluations, f.Fits kind ∧ ∀ o body code, f ≠ .makeObject o body code := by
  induction h with
  | var h =>
    intro f hf
    cases List.mem_singleton.1 hf
    exact ⟨trivial, by simp⟩
  | unpack count expected _ ih | iterator _ ih =>
    intro f hf
    rw [IR.Expr.evaluations, List.mem_append, List.mem_singleton] at hf
    rcases hf with hf | rfl
    · exact ih f hf
    · exact ⟨trivial, by simp⟩

/-- Code that takes the steps of written code fits a kind. -/
theorem fits_of_stepsTo {steps : List Surface.Step} (ht : t.WellFormed)
    (hsteps : StepsTo setting t b steps block.steps)
    (hyields : ∀ step ∈ steps, (t.body b).kind.isFunctionLike = true →
      step.evidence.yields = true →
        (t.body b).kind = .callable .generator ∨ (t.body b).kind = .callable .asyncGenerator)
    (hstatements : ∀ statement ∈ block.within, statement.Fits (t.body b).kind) :
    block.Fits (t.body b).kind where
  statements := hstatements
  expressions := fits_of_steps fun e he => by
    cases hwritten : e.implied with
    | false =>
      obtain ⟨step, hstep, h⟩ := hsteps.exists_of_mem he hwritten
      exact h.fits ht (hyields step hstep)
    | true =>
      cases e with
      | builtin | call => trivial
      | _ => cases hwritten
  returned statement hs e he o body code hf := by
    have hmem : .makeObject o body code ∈ block.steps :=
      IR.Block.mem_steps.2 ⟨IR.Block.mem_terms.2 ⟨statement, hs, e, he, hf⟩, rfl⟩
    obtain ⟨step, -, h⟩ := hsteps.exists_of_mem hmem rfl
    exact absurd rfl (h.ne_makeObject ht o body code)

/-- A wrapper has no form of suspension, and returns what the delegate returns. -/
theorem fits_forwarding {u : Unpacking} {known : VariableId → Prop} (h : u.Within known)
    (delegate : BodyId) (code : CodeObject) : (forwarding u delegate code).Fits .function := by
  have hstatements : ∀ statement ∈ (forwarding u delegate code).within,
      statement.Fits .function ∧ ∀ e ∈ statement.operands, ∀ f ∈ e.evaluations,
        f.Fits .function ∧ ∀ o body code, f ≠ .makeObject o body code := by
    intro statement hs
    rw [within_forwarding h, List.mem_append, List.mem_singleton] at hs
    rcases hs with hs | rfl
    · rcases h.statements statement hs with ⟨v, e, rfl, -, he⟩ | ⟨v, count, rfl, hv⟩
      · exact ⟨trivial, fun f hf => List.mem_singleton.1 hf ▸ fits_access he⟩
      · exact ⟨trivial, fun f hf => List.mem_singleton.1 hf ▸ fits_access (.var hv)⟩
    · refine ⟨rfl, fun e he f hf => ?_⟩
      rw [List.mem_singleton.1 he, IR.Expr.evaluations, List.mem_append, List.mem_append,
        List.mem_singleton] at hf
      rcases hf with (hf | hf) | rfl
      · cases List.mem_singleton.1 hf
        exact ⟨trivial, by simp⟩
      · rw [IR.exprsEvaluations_eq, List.mem_flatMap] at hf
        obtain ⟨access, haccess, hf⟩ := hf
        obtain ⟨v, rfl, hv⟩ := h.accesses access haccess
        exact fits_access (.var hv) f hf
      · exact ⟨trivial, by simp⟩
  constructor
  · exact fun statement hs => (hstatements statement hs).1
  · intro e he
    obtain ⟨statement, hs, f, hf, hef⟩ := IR.Block.mem_terms.1 he
    exact ((hstatements statement hs).2 f hf e hef).1
  · exact fun statement hs e he o body code hf =>
      absurd rfl (((hstatements statement hs).2 e he _ hf).2 o body code)

theorem fits_manufacture (made : Callable) (kind : ObjectKind) (o : BodyId) :
    (manufacture made kind o).Fits .function := by
  have hwithin : (manufacture made kind o).within = [.ret (.makeObject kind o made.code)] := rfl
  constructor
  · intro statement hs
    rw [hwithin, List.mem_singleton] at hs
    rw [hs]
    rfl
  · intro e he
    obtain ⟨statement, hs, f, hf, hef⟩ := IR.Block.mem_terms.1 he
    rw [hwithin, List.mem_singleton] at hs
    rw [hs, IR.Stmt.operands, List.mem_singleton] at hf
    rw [hf, IR.Expr.evaluations, List.mem_singleton] at hef
    rw [hef]
    rfl
  · intro statement hs e he o' body code hf
    rw [hwithin, List.mem_singleton] at hs
    rw [hs, IR.Stmt.operands, List.mem_singleton] at he
    rw [he, IR.Expr.evaluations, List.mem_singleton] at hf
    rw [hs, hf]

/-- **The code of a body fits its kind.** -/
theorem Content.fits (h : Content (.ofDialect dialect) t c block) (ht : t.WellFormed) :
    block.Fits (t.body c).kind := by
  cases h with
  | @scope statements lowered hkind h =>
    have hsteps := (within_stmts ht _ h).steps ht
    rw [← IR.Block.steps_ofStatements] at hsteps
    refine fits_of_stepsTo ht hsteps (fun _ _ hlike => by rw [hkind] at hlike; cases hlike)
      fun statement hs => ?_
    rw [IR.Block.within_eq] at hs
    obtain ⟨first, -, hfirst⟩ := (within_stmts ht _ h).exists_of_mem hs
    exact hfirst.fits
  | code hcallable hbody hcode =>
    subst hbody
    refine fits_of_stepsTo ht (hcode.steps ht) (fun step hstep _ hyields => ?_)
      (hcode.fits hcallable ht)
    rw [hcallable.codeBody_kind, Callee.yields_of_step hstep hyields]
    exact Callee.yieldingKind_start.imp (congrArg _) (congrArg _)
  | maker hkind => exact hkind ▸ fits_manufacture _ _ _
  | wrapper hkind hwithin hvars => exact hkind ▸ (fits_forwarding hwithin _ _).releasing _

end Lowering

/-! ## Suspension that is shown -/

/-- Whether evaluating an expression suspends a generator. -/
def IR.Expr.yields : IR.Expr → Bool
  | .yield _ | .yieldFrom _ => true
  | _ => false

/-- Whether an expression is a delegation to another generator. -/
def IR.Expr.delegates : IR.Expr → Bool
  | .yieldFrom _ => true
  | _ => false

/-- What is scanned for a callable but never evaluated in its body. -/
def Callee.ignored (callee : Callee) (dialect : Dialect) : List Surface.Expr :=
  (Surface.stmtsWithin callee.statements).flatMap (Surface.Stmt.ignored dialect)

theorem Callee.shown_iff {callee : Callee} {shown : Surface.Evidence → Bool} (dialect : Dialect)
    (h : Surface.Evidence.Additive shown) :
    shown (Surface.stmtsEvidence callee.statements) = true ↔
      ((callee.steps (.ofDialect dialect)).any fun step => shown step.evidence) = true ∨
        ∃ e ∈ callee.ignored dialect, shown e.evidence = true := by
  rw [Surface.stmtsEvidence_eq dialect, h.append, h.steps, h.exprs, Bool.or_eq_true]
  exact Iff.or Iff.rfl List.any_eq_true

namespace Lowering

variable {setting : Setting} {t : Store} {b : BodyId} {step : Surface.Step} {e : IR.Expr}

/-- A step shows the suspension that it is. -/
theorem StepTo.shows (h : StepTo setting t b step e) (ht : t.WellFormed) :
    step.evidence.yields = e.yields ∧ step.evidence.flags.hasYieldFrom = e.delegates := by
  cases h with
  | eval location h =>
    cases gave_counterpart h ht with
    | @call callee => cases callee <;> exact ⟨rfl, rfl⟩
    | _ => exact ⟨rfl, rfl⟩
  | create h =>
    cases h
    exact ⟨rfl, rfl⟩
  | apply | createClass => exact ⟨rfl, rfl⟩

theorem StepsTo.shows {steps : List Surface.Step} {steps' : List IR.Expr}
    (h : StepsTo setting t b steps steps') (ht : t.WellFormed) :
    (steps.any fun step => step.evidence.yields) = steps'.any IR.Expr.yields ∧
      (steps.any fun step => step.evidence.flags.hasYieldFrom) = steps'.any IR.Expr.delegates := by
  induction h with
  | nil => exact ⟨rfl, rfl⟩
  | cons hfirst _ ih =>
    obtain ⟨hyields, hdelegates⟩ := hfirst.shows ht
    simp only [List.any_cons, hyields, hdelegates, ih, and_self]
  | implied _ _ ih | applied _ _ ih => exact ih

/-- Something seen among the steps of a block is among its expressions. -/
theorem any_steps {block : IR.Block} {seen : IR.Expr → Bool}
    (hsilent : ∀ e : IR.Expr, e.silent = true → seen e = false) :
    block.steps.any seen = true ↔ ∃ e ∈ block.terms, seen e = true := by
  rw [List.any_eq_true]
  constructor
  · rintro ⟨e, he, hseen⟩
    exact ⟨e, (IR.Block.mem_steps.1 he).1, hseen⟩
  · rintro ⟨e, he, hseen⟩
    refine ⟨e, IR.Block.mem_steps.2 ⟨he, ?_⟩, hseen⟩
    cases hs : e.silent with
    | false => rfl
    | true =>
      rw [hsilent e hs] at hseen
      cases hseen

theorem silent_shows (e : IR.Expr) (h : e.silent = true) :
    e.yields = false ∧ e.delegates = false := by
  cases e <;> first | exact ⟨rfl, rfl⟩ | cases h

/-- What a callable was classified by is evaluated in the body with its statements, or ignored. -/
theorem CodeOf.shows {callee : Callee} {made : Callable} {object : Option BodyId}
    {block : IR.Block} (h : CodeOf setting t made object callee block) (ht : t.WellFormed) :
    ((Surface.stmtsEvidence callee.statements).yields = true ↔
        (∃ e ∈ block.terms, e.yields = true) ∨
          ∃ e ∈ callee.ignored setting.dialect, e.evidence.yields = true) ∧
      ((Surface.stmtsEvidence callee.statements).flags.hasYieldFrom = true ↔
        (∃ e ∈ block.terms, e.delegates = true) ∨
          ∃ e ∈ callee.ignored setting.dialect, e.evidence.flags.hasYieldFrom = true) := by
  obtain ⟨hyields, hdelegates⟩ := (h.steps ht).shows ht
  rw [Callee.shown_iff setting.dialect Surface.additive_yields,
    Callee.shown_iff setting.dialect Surface.additive_hasYieldFrom,
    ← any_steps fun e he => (silent_shows e he).1, ← any_steps fun e he => (silent_shows e he).2,
    ← hyields, ← hdelegates]
  exact ⟨Iff.rfl, Iff.rfl⟩

end Lowering

/-! ## The lowered module -/

variable {dialect : Dialect} {m : Surface.Module} {lowered : LoweredModule} {b : BodyId}

/-- **The forms of suspension and return in a body fit its kind.** -/
theorem LoweredModule.forms_fit (h : LoweredModule.ofSurface (.ofDialect dialect) m = .ok lowered)
    (hb : b.index < lowered.store.bodies.size) :
    ∃ block, (lowered.store.body b).code = some block ∧
      block.Fits (lowered.store.body b).kind := by
  obtain ⟨t, hprepared, hfinished⟩ := LoweredModule.prepared h
  obtain ⟨block, final, hcontent, hcode, hfinal⟩ :=
    hfinished.content hprepared (hfinished.bodies ▸ hb)
  have hfits := hcontent.fits hprepared.valid.wellFormed
  refine ⟨final, hcode, ?_⟩
  rw [hfinished.kind]
  rcases hfinal with rfl | rfl
  · exact hfits
  · exact hfits.releasing _

/-- A module whose function suspends in a decorator, and whose lambda delegates:

    def f(a):
      @(yield)
      class K: pass
      return lambda: (yield from a)
-/
def delegatingModule : Surface.Module where
  name := "m"
  filename := "m.py"
  future := ⟨false, false, false, false, false⟩
  body :=
    [⟨.define
      { name := "f"
        params := ⟨[.name ⟨"a", none⟩], [], none, [], [], none⟩
        body :=
          [⟨.defineClass ⟨"K", [], [⟨.pass, ⟨3, 4⟩⟩], [.yield none], ⟨3, 2⟩⟩, ⟨3, 2⟩⟩,
           ⟨.ret (some (.lambda
              ⟨⟨[], [], none, [], [], none⟩, .yieldFrom (.name "a"), ⟨4, 9⟩⟩)), ⟨4, 2⟩⟩]
        decorators := []
        returns := none
        isAsync := false
        location := ⟨1, 0⟩ }, ⟨1, 0⟩⟩]

/-- The body of the lambda with the delegation is that of a generator. -/
theorem LoweredModule.delegatingModule_forms_fit :
    ∃ lowered block e, LoweredModule.ofSurface (.ofDialect .modern) delegatingModule = .ok lowered ∧
      (lowered.store.body ⟨5⟩).code = some block ∧ e ∈ block.terms ∧ e.delegates = true ∧
      (lowered.store.body ⟨5⟩).kind = .callable .generator := by
  have hfacts : succeedsWith (fun l => decide (5 < l.store.bodies.size) &&
      (l.store.body ⟨5⟩).code.any fun block => block.terms.any IR.Expr.delegates)
      (LoweredModule.ofSurface (.ofDialect .modern) delegatingModule) = true := by
    decide +kernel
  obtain ⟨lowered, h, hfacts⟩ := exists_of_succeedsWith hfacts
  obtain ⟨hsize, hany⟩ := Bool.and_eq_true_iff.1 hfacts
  obtain ⟨block, hcode, hfits⟩ := LoweredModule.forms_fit h (b := ⟨5⟩) (of_decide_eq_true hsize)
  rw [hcode] at hany
  obtain ⟨e, he, hdelegates⟩ := List.any_eq_true.1 hany
  have hfit := hfits.expressions e he
  cases e with
  | yieldFrom value => exact ⟨lowered, block, _, h, hcode, he, rfl, hfit⟩
  | _ => cases hdelegates

end DefinitionLowering
