import DefinitionLowering.Proofs.Prepared
import DefinitionLowering.Proofs.Steps

/-!
# What stands in a body

There are four sorts of code (`Content`): the statements of a module or a class; the statements of
a callable, or the value of a lambda; the code of a function that manufactures an object; and the
code of a wrapper, which takes arguments apart.  Every body of a lowered module has one of these,
with the releases of its variables around it (`Finished.content`).
-/

namespace DefinitionLowering

open IR (BodyId VariableId Store)
open Lowering

/-! ## Code with its statements -/

namespace IR

/-- The steps of all statements of a block. -/
def Block.steps (block : Block) : List Expr :=
  block.within.flatMap Stmt.steps

theorem Block.mem_steps {block : Block} {f : Expr} :
    f ∈ block.steps ↔ f ∈ block.terms ∧ f.silent = false := by
  simp only [Block.steps, Stmt.steps, Block.mem_terms, List.mem_flatMap, Expr.mem_steps]
  constructor
  · rintro ⟨statement, hs, e, he, hf, hsilent⟩
    exact ⟨⟨statement, hs, e, he, hf⟩, hsilent⟩
  · rintro ⟨⟨statement, hs, e, he, hf⟩, hsilent⟩
    exact ⟨statement, hs, e, he, hf, hsilent⟩

theorem Block.steps_ofStatements (statements : List Stmt) :
    (Block.ofStatements statements).steps = (stmtsWithin statements).flatMap Stmt.steps := by
  rw [Block.steps, Block.within_eq]
  rfl

/-- A block mentions a variable in a step, or assigns or releases it. -/
theorem Block.mem_variables_cases {block : Block} {v : VariableId} (h : v ∈ block.variables) :
    (∃ statement ∈ block.within, v ∈ statement.targets) ∨ .var v ∈ block.steps := by
  obtain ⟨statement, hs, htarget | ⟨e, he, hv⟩⟩ := Block.mem_variables.1 h
  · exact Or.inl ⟨statement, hs, htarget⟩
  · exact Or.inr (Block.mem_steps.2
      ⟨Block.mem_terms.2 ⟨statement, hs, e, he, Expr.var_mem_evaluations hv⟩, rfl⟩)

end IR

/-- The statement that ends the code of a definition: a generator simply ends. -/
def closing (isAsync : Bool) (kind : CallableKind) : Option IR.Stmt :=
  if isAsync then some .objectRetNone
  else if kind = .function then some .retNone else none

theorem statements_closeWith (terminal : IR.Stmt) (code : CodeObject) (lowered : List IR.Stmt) :
    (IR.Block.closeWith terminal (frameOf code lowered)).statements =
      if IR.anyAborts lowered then lowered else lowered ++ [terminal] := by
  cases lowered with
  | nil => rfl
  | cons first rest =>
    rw [frameOf, if_neg (by simp), IR.Block.closeWith, IR.Block.ofFrame, IR.Block.aborts]
    split <;> rfl

/-- The statements of a definition's code: those it was lowered to, and the last one, unless control
does not get there. -/
theorem statements_definitionCode (isAsync : Bool) (kind : CallableKind) (code : CodeObject)
    (lowered : List IR.Stmt) : (definitionCode isAsync kind code lowered).statements =
      if IR.anyAborts lowered then lowered else lowered ++ (closing isAsync kind).toList := by
  cases isAsync with
  | true => exact statements_closeWith _ _ _
  | false =>
    cases kind with
    | function => exact statements_closeWith _ _ _
    | suspended object =>
      have hsame : (definitionCode false (.suspended object) code lowered).statements
          = lowered := by
        cases lowered <;> rfl
      simp [hsame, closing]

theorem steps_closing (isAsync : Bool) (kind : CallableKind) :
    (IR.stmtsWithin (closing isAsync kind).toList).flatMap IR.Stmt.steps = [] := by
  unfold closing
  split
  · rfl
  · split <;> rfl

theorem within_closing {isAsync : Bool} {kind : CallableKind} {statement : IR.Stmt}
    (h : statement ∈ IR.stmtsWithin (closing isAsync kind).toList) :
    closing isAsync kind = some statement := by
  unfold closing at h ⊢
  split
  · rw [if_pos ‹_›] at h
    exact congrArg some (List.mem_singleton.1 h).symm
  · rw [if_neg ‹_›] at h
    split
    · rw [if_pos ‹_›] at h
      exact congrArg some (List.mem_singleton.1 h).symm
    · rw [if_neg ‹_›] at h
      cases h

/-- A statement of a definition's code was lowered from a written one, or it is the last one. -/
theorem mem_within_definitionCode {isAsync : Bool} {kind : CallableKind} {code : CodeObject}
    {lowered : List IR.Stmt} {statement : IR.Stmt}
    (h : statement ∈ (definitionCode isAsync kind code lowered).within) :
    statement ∈ IR.stmtsWithin lowered ∨ closing isAsync kind = some statement := by
  rw [IR.Block.within_eq, statements_definitionCode] at h
  split at h
  · exact Or.inl h
  · rw [IR.stmtsWithin_append, List.mem_append] at h
    exact h.imp_right within_closing

theorem steps_definitionCode (isAsync : Bool) (kind : CallableKind) (code : CodeObject)
    (lowered : List IR.Stmt) : (definitionCode isAsync kind code lowered).steps =
      (IR.stmtsWithin lowered).flatMap IR.Stmt.steps := by
  rw [IR.Block.steps, IR.Block.within_eq, statements_definitionCode]
  split
  · rfl
  · rw [IR.stmtsWithin_append, List.flatMap_append, steps_closing, List.append_nil]

/-- The steps of a callable's statements. -/
def Callee.steps (callee : Callee) (setting : Setting) : List Surface.Step :=
  (Surface.stmtsWithin callee.statements).flatMap (Surface.Stmt.steps setting.dialect)

/-- The kind of the body that holds the statements of a callable. -/
def Callee.bodyKind (callee : Callee) (setting : Setting) : CallableKind :=
  match callee.object? setting with
  | none => .function
  | some kind => .suspended kind

namespace Lowering

variable {setting : Setting} {t : Store} {b c : BodyId} {location : Location} {made : Callable}
  {object : Option BodyId} {callee : Callee} {v : VariableId} {block : IR.Block}

/-- **The code of a callable takes the steps of its statements.** -/
theorem CodeOf.steps (h : CodeOf setting t made object callee block) (ht : t.WellFormed) :
    StepsTo setting t (codeBody made object) (callee.steps setting) block.steps := by
  cases h with
  | @lambda l value hvalue =>
    have hsteps : (IR.Block.ofFrame made.code (lambdaStatements object value)).steps =
        value.steps := by
      cases object <;> simp [IR.Block.steps, IR.Block.ofFrame, IR.Block.within, lambdaStatements,
        IR.stmtsWithin, IR.Stmt.within, IR.Stmt.steps, IR.Stmt.operands]
    rw [hsteps]
    simpa [Callee.steps, Callee.statements, Surface.stmtsWithin, Surface.Stmt.within,
      Surface.Stmt.steps, Surface.StmtKind.steps] using steps_expr ht l.body hvalue
  | define lowered hbody =>
    rw [steps_definitionCode]
    exact (within_stmts ht _ hbody).steps ht

/-- The code of a wrapper is flat. -/
theorem within_forwarding {u : Unpacking} {known : VariableId → Prop} (h : u.Within known)
    {delegate : BodyId} {code : CodeObject} : (forwarding u delegate code).within =
      u.statements ++
        [.ret (.callFunction (.makeFunction delegate code [] none none) u.accesses)] := by
  have hsimple : IR.stmtsWithin u.statements = u.statements :=
    IR.stmtsWithin_of_simple fun statement hs => by
      rcases h.statements statement hs with ⟨_, _, rfl, -⟩ | ⟨_, _, rfl, -⟩ <;> rw [IR.Stmt.within]
  rw [forwarding, IR.Block.ofStatements, IR.Block.within, IR.stmtsWithin_append, hsimple]
  rfl

/-- What may be read off the code of a wrapper, which reads variables apart from the one call, is
what is read off the creation of its delegate. -/
theorem filterMap_forwarding {α : Type} {view : IR.Expr → Option α}
    (hvar : ∀ v, view (.var v) = none) (hiterator : ∀ value, view (.iterator value) = none)
    (hunpack : ∀ source count expected, view (.unpack source count expected) = none)
    (hcall : ∀ function values, view (.callFunction function values) = none) {u : Unpacking}
    {known : VariableId → Prop} (h : u.Within known) {delegate : BodyId} {code : CodeObject} :
    (forwarding u delegate code).terms.filterMap view =
      (view (.makeFunction delegate code [] none none)).toList := by
  have haccess : ∀ e : IR.Expr, e.Accesses known → e.evaluations.filterMap view = [] := by
    intro e he
    induction he with
    | var _ => simp [IR.Expr.evaluations, hvar]
    | unpack _ _ _ ih => simp [IR.Expr.evaluations, ih, hunpack]
    | iterator _ ih => simp [IR.Expr.evaluations, ih, hiterator]
  have hvars : ∀ v, known v → (IR.Expr.var v).evaluations.filterMap view = [] :=
    fun v hv => haccess _ (.var hv)
  have hstatements : ∀ statement ∈ u.statements,
      (statement.operands.flatMap IR.Expr.evaluations).filterMap view = [] := by
    intro statement hs
    rcases h.statements statement hs with ⟨v, e, rfl, -, he⟩ | ⟨v, count, rfl, hv⟩
    · simp [IR.Stmt.operands, haccess e he]
    · simp [IR.Stmt.operands, hvars v hv]
  have haccesses : (IR.exprsEvaluations u.accesses).filterMap view = [] := by
    rw [IR.exprsEvaluations_eq, List.filterMap_flatMap, List.flatMap_eq_nil_iff]
    intro e he
    obtain ⟨v, rfl, hv⟩ := h.accesses e he
    exact hvars v hv
  let created : IR.Expr := .makeFunction delegate code [] none none
  have hcalled : (IR.Expr.callFunction created u.accesses).evaluations =
      created :: (IR.exprsEvaluations u.accesses ++ [.callFunction created u.accesses]) := by
    simp [created, IR.Expr.evaluations, IR.exprsEvaluations, IR.optionEvaluations]
  rw [IR.Block.terms, within_forwarding h, List.flatMap_append, List.filterMap_append,
    List.filterMap_flatMap, List.flatMap_eq_nil_iff.2 hstatements, List.nil_append,
    List.flatMap_singleton, IR.Stmt.operands, List.flatMap_singleton, hcalled, List.filterMap_cons,
    List.filterMap_append, haccesses]
  cases view (.makeFunction delegate code [] none none) <;> simp [hcall]

/-! ## Kinds of code -/

/-- The sorts of code that a body may have before its variables are released. -/
inductive Content (setting : Setting) (t : Store) (c : BodyId) : IR.Block → Prop
  | scope {statements : List Surface.Stmt} {lowered : List IR.Stmt}
    (hkind : (t.body c).kind.isFunctionLike = false)
    (h : Gave t c (lowerStmts setting c statements) lowered) :
    Content setting t c (.ofStatements lowered)
  | code {callee : Callee} {provider : BodyId} {made : Callable} {object : Option BodyId}
    {block : IR.Block} (hcallable : CallableAt setting t callee provider made object)
    (hbody : c = codeBody made object) (hcode : CodeOf setting t made object callee block) :
    Content setting t c block
  | maker {made : Callable} {kind : ObjectKind} {o : BodyId}
    (hkind : (t.body c).kind = .function) : Content setting t c (manufacture made kind o)
  | wrapper {made : Callable} {u : Unpacking} {vars : List VariableId}
    (hkind : (t.body c).kind = .function) (hwithin : u.Within (t.Knows c))
    (hvars : ∀ v ∈ vars, v ∈ t.temporaries c) :
    Content setting t c ((forwarding u made.function made.code).releasing vars)

/-- The object of a callable is of the kind that the callable is for. -/
theorem CallableAt.objectAt {o : BodyId} (h : CallableAt setting t callee b made (some o)) :
    ∃ kind, callee.object? setting = some kind ∧ ObjectAt setting t callee made kind o := by
  have hmanufactured := h.manufactured
  generalize callee.object? setting = kind at hmanufactured
  cases hmanufactured with
  | some hobject => exact ⟨_, rfl, hobject⟩

/-- A callable that is for no object has none. -/
theorem CallableAt.object_eq_none (h : CallableAt setting t callee b made object) :
    callee.object? setting = none ↔ object = none := by
  have hmanufactured := h.manufactured
  generalize callee.object? setting = kind at hmanufactured
  cases hmanufactured with
  | none => exact ⟨fun _ => rfl, fun _ => rfl⟩
  | some => exact ⟨fun h => (nomatch h), fun h => (nomatch h)⟩

/-- A body of a callable holds its statements, or it is a function that manufactures an object, or
a wrapper. -/
theorem CallableAt.body_cases (h : CallableAt setting t callee b made object)
    (hc : c = made.outer ∨ c = made.function ∨ object = some c) :
    c = codeBody made object ∨
      (c = made.function ∧ ∃ kind o, object = some o ∧ ObjectAt setting t callee made kind o) ∨
      (c = made.outer ∧ made.function ≠ made.outer) := by
  by_cases hcode : c = codeBody made object
  · exact Or.inl hcode
  by_cases hfunction : c = made.function
  · -- the function does not hold the statements, so it manufactures an object
    cases object with
    | none => exact absurd hfunction hcode
    | some o =>
      obtain ⟨kind, -, hobject⟩ := h.objectAt
      exact Or.inr (Or.inl ⟨hfunction, kind, o, rfl, hobject⟩)
  · have houter : c = made.outer := by
      rcases hc with hc | hc | rfl
      · exact hc
      · exact absurd hc hfunction
      · exact absurd rfl hcode
    exact Or.inr (Or.inr ⟨houter, fun heq => hfunction (houter.trans heq.symm)⟩)

theorem CallableAt.content (h : CallableAt setting t callee b made object)
    (hone : c = made.outer ∨ c = made.function ∨ object = some c) :
    ∃ block, (t.body c).code = some block ∧ Content setting t c block := by
  rcases h.body_cases hone with rfl | ⟨rfl, kind, o, -, hobject⟩ | ⟨rfl, hne⟩
  · obtain ⟨block, hblock, hof⟩ := h.code
    exact ⟨block, hblock, .code h rfl hof⟩
  · exact ⟨_, hobject.maker, .maker h.stands.function_kind⟩
  · rcases h.stands.function with ⟨-, hsame⟩ | ⟨-, -, u, vars, hblock, hwithin, hvars⟩
    · exact absurd hsame hne
    · exact ⟨_, hblock, .wrapper h.stands.outer.kind hwithin hvars⟩

theorem CallableAt.codeBody_kind (h : CallableAt setting t callee b made object) :
    (t.body (codeBody made object)).kind = .callable (callee.bodyKind setting) := by
  rw [Callee.bodyKind]
  cases object with
  | none =>
    rw [h.object_eq_none.2 rfl]
    exact h.stands.function_kind
  | some o =>
    obtain ⟨kind, hkind, hobject⟩ := h.objectAt
    rw [hkind]
    exact hobject.planned.kind

end Lowering

variable {setting : Setting} {m : Surface.Module} {lowered : LoweredModule} {t : Store} {c : BodyId}

/-- Every body has one sort of code. -/
theorem Prepared.content (h : Prepared setting m t)
    (hc : c.index < t.bodies.size) :
    ∃ block, (t.body c).code = some block ∧ Content setting t c block := by
  by_cases hroot : c = ⟨0⟩
  · subst hroot
    obtain ⟨lowered, hgave, hcode⟩ := h.code
    exact ⟨_, hcode, .scope (by rw [h.root.kind]; rfl) hgave⟩
  · cases h.origins c hroot hc with
    | callable callee provider made object hcallable hone => exact hcallable.content hone
    | classDef d provider hclass =>
      obtain ⟨lowered, hgave, hcode⟩ := hclass.code
      exact ⟨_, hcode, .scope (by rw [hclass.planned.kind]; rfl) hgave⟩

/-- In the end the variables of a body are released around its code, if it has any. -/
theorem Finished.code (h : Finished t lowered) {block : IR.Block} (hc : c ≠ ⟨0⟩)
    (hcode : (t.body c).code = some block) :
    ∃ final, (lowered.store.body c).code = some final ∧
      (final = block ∧ t.ownVariables c = [] ∨ final = block.releasing (t.ownVariables c)) := by
  have hreleased : (lowered.store.body c).code = t.releasedCode c := by rw [h.others c hc]
  rw [Store.releasedCode, hcode] at hreleased
  split at hreleased
  · exact ⟨block, hreleased, Or.inl ⟨rfl, List.isEmpty_iff.1 ‹_›⟩⟩
  · exact ⟨_, hreleased, Or.inr rfl⟩

/-- **The code of a body in a lowered module**: one sort of code, with the releases of the body's
variables around it if there are any. -/
theorem Finished.content (h : Finished t lowered)
    (hprepared : Prepared setting m t) (hc : c.index < t.bodies.size) :
    ∃ block final, Content setting t c block ∧ (lowered.store.body c).code = some final ∧
      (final = block ∨ final = block.releasing (t.ownVariables c)) := by
  obtain ⟨block, hcode, hcontent⟩ := hprepared.content hc
  by_cases hroot : c = ⟨0⟩
  · exact ⟨block, block, hcontent, by rw [hroot, h.module, ← hroot, hcode], Or.inl rfl⟩
  · obtain ⟨final, hfinal, hcases⟩ := h.code hroot hcode
    exact ⟨block, final, hcontent, hfinal, hcases.imp_left And.left⟩

end DefinitionLowering
