import DefinitionLowering.Compilation

/-!
# Shifting numbers

Two modules that are lowered on their own number their bodies and variables alike.  To put one
behind the other, a `Shift` moves all numbers of the second by a constant: those of its variables
and those of its bodies, except that of the module, which both have in common.

`Expr.shift`, `Stmt.shift` and `Block.shift` move the numbers in code, `Body.shift` and
`Variable.shift` those in what the store records.  Nothing else is changed, and what the lowering
looks at in code, such as whether a value is constant or a block aborts, stays the same.
-/

namespace DefinitionLowering.IR

/-- How far the numbers of bodies and variables are moved. -/
structure Shift where
  bodies : Nat
  vars : Nat

namespace Shift

variable {σ : Shift}

/-- The first body is that of the module, which stays where it is. -/
def body (σ : Shift) (b : BodyId) : BodyId :=
  if b.index = 0 then b else ⟨b.index + σ.bodies⟩

def var (σ : Shift) (v : VariableId) : VariableId :=
  ⟨v.index + σ.vars⟩

@[simp] theorem body_root (σ : Shift) : σ.body ⟨0⟩ = ⟨0⟩ := rfl

theorem body_of_ne {b : BodyId} (h : b ≠ ⟨0⟩) : σ.body b = ⟨b.index + σ.bodies⟩ :=
  if_neg fun hzero => h (congrArg BodyId.mk hzero)

theorem body_injective (σ : Shift) : Function.Injective σ.body := by
  rintro ⟨i⟩ ⟨j⟩ h
  dsimp only [body] at h
  rw [BodyId.mk.injEq]
  split at h <;> split at h <;> rw [BodyId.mk.injEq] at h <;> omega

theorem var_injective (σ : Shift) : Function.Injective σ.var := by
  rintro ⟨i⟩ ⟨j⟩ h
  simpa [var] using h

@[simp] theorem body_zero (b : BodyId) : Shift.body ⟨0, 0⟩ b = b := by
  unfold body
  split <;> rfl

@[simp] theorem var_zero (v : VariableId) : Shift.var ⟨0, 0⟩ v = v := rfl

end Shift

/-! ## Code -/

mutual

def Expr.shift (σ : Shift) : Expr → Expr
  | .constant value => .constant value
  | .constantMapping entries => .constantMapping entries
  | .var id => .var (σ.var id)
  | .freeName name => .freeName name
  | .builtin name => .builtin name
  | .call callee args => .call (callee.shift σ) (exprsShift σ args)
  | .binary left op right => .binary (left.shift σ) op (right.shift σ)
  | .attribute value name => .attribute (value.shift σ) name
  | .tuple items => .tuple (exprsShift σ items)
  | .mapping keys values => .mapping keys (exprsShift σ values)
  | .yield value => .yield (optionShift σ value)
  | .yieldFrom value => .yieldFrom (value.shift σ)
  | .await value => .await (value.shift σ)
  | .makeFunction body code defaults keywordDefaults annotations =>
    .makeFunction (σ.body body) code (exprsShift σ defaults) (optionShift σ keywordDefaults)
      (optionShift σ annotations)
  | .callFunction function values => .callFunction (function.shift σ) (exprsShift σ values)
  | .makeObject kind body code => .makeObject kind (σ.body body) code
  | .makeClass body bases => .makeClass (σ.body body) (exprsShift σ bases)
  | .iterator value => .iterator (value.shift σ)
  | .unpack source count expected => .unpack (source.shift σ) count expected

def exprsShift (σ : Shift) : List Expr → List Expr
  | [] => []
  | first :: rest => first.shift σ :: exprsShift σ rest

def optionShift (σ : Shift) : Option Expr → Option Expr
  | none => none
  | some value => some (value.shift σ)

end

mutual

def Stmt.shift (σ : Shift) : Stmt → Stmt
  | .assignVariable target source => .assignVariable (σ.var target) (source.shift σ)
  | .assignName target source => .assignName target (source.shift σ)
  | .expr value => .expr (value.shift σ)
  | .ret value => .ret (value.shift σ)
  | .retNone => .retNone
  | .objectRet value => .objectRet (value.shift σ)
  | .objectRetNone => .objectRetNone
  | .raise value => .raise (optionShift σ value)
  | .release target => .release (σ.var target)
  | .checkExhausted iterator count => .checkExhausted (iterator.shift σ) count
  | .tryFinally tried cleanup => .tryFinally (tried.shift σ) (cleanup.shift σ)
  | .branch condition yes no =>
    .branch (condition.shift σ) (optionBlockShift σ yes) (optionBlockShift σ no)
  | .loop condition body => .loop (condition.shift σ) (optionBlockShift σ body)

def Block.shift (σ : Shift) : Block → Block
  | ⟨statements, frame⟩ => ⟨stmtsShift σ statements, frame⟩

def optionBlockShift (σ : Shift) : Option Block → Option Block
  | none => none
  | some block => some (block.shift σ)

def stmtsShift (σ : Shift) : List Stmt → List Stmt
  | [] => []
  | first :: rest => first.shift σ :: stmtsShift σ rest

end

section Code

variable (σ : Shift)

@[simp] theorem exprsShift_eq (es : List Expr) : exprsShift σ es = es.map (Expr.shift σ) := by
  induction es with
  | nil => rfl
  | cons first rest ih => rw [exprsShift, ih, List.map_cons]

@[simp] theorem optionShift_eq (o : Option Expr) : optionShift σ o = o.map (Expr.shift σ) := by
  cases o <;> rfl

@[simp] theorem stmtsShift_eq (statements : List Stmt) :
    stmtsShift σ statements = statements.map (Stmt.shift σ) := by
  induction statements with
  | nil => rfl
  | cons first rest ih => rw [stmtsShift, ih, List.map_cons]

@[simp] theorem optionBlockShift_eq (o : Option Block) :
    optionBlockShift σ o = o.map (Block.shift σ) := by
  cases o <;> rfl

theorem Block.shift_eq (block : Block) :
    block.shift σ = ⟨block.statements.map (Stmt.shift σ), block.frame⟩ := by
  cases block
  rw [Block.shift, stmtsShift_eq]

end Code

/-! ### What the lowering looks at -/

section Looks

variable (σ : Shift)

@[simp] theorem Expr.constant?_shift (e : Expr) : (e.shift σ).constant? = e.constant? := by
  cases e <;> rfl

@[simp] theorem Expr.refersTo_shift (name : String) (e : Expr) :
    (e.shift σ).refersTo name = e.refersTo name := by
  cases e <;> rfl

/-- An entry of a mapping with its value shifted. -/
def entryShift (entry : String × Expr) : String × Expr :=
  (entry.1, entry.2.shift σ)

/-- A mapping stays a constant if it is one. -/
theorem Expr.shift_ofEntries (entries : List (String × Expr)) :
    (ofEntries entries).shift σ = ofEntries (entries.map (entryShift σ)) := by
  have hconstants : constantEntries? (entries.map (entryShift σ)) = constantEntries? entries := by
    unfold constantEntries?
    rw [List.mapM_map]
    simp [Function.comp_def, entryShift]
  unfold ofEntries
  rw [hconstants]
  split
  · rfl
  · simp [Expr.shift, entryShift, Function.comp_def]

mutual

theorem Stmt.aborts_shift : ∀ statement : Stmt, (statement.shift σ).aborts = statement.aborts
  | .tryFinally tried cleanup => by
    rw [Stmt.shift, Stmt.aborts, Stmt.aborts, tried.aborts_shift, cleanup.aborts_shift]
  | .branch _ (some yes) (some no) => by
    rw [Stmt.shift, optionBlockShift, optionBlockShift, Stmt.aborts, Stmt.aborts,
      yes.aborts_shift, no.aborts_shift]
  | .branch _ (some yes) none => rfl
  | .branch _ none no => rfl
  | .assignVariable _ _ | .assignName _ _ | .expr _ | .ret _ | .retNone | .objectRet _
  | .objectRetNone | .raise _ | .release _ | .checkExhausted _ _ | .loop _ _ => rfl

theorem Block.aborts_shift : ∀ block : Block, (block.shift σ).aborts = block.aborts
  | ⟨statements, _⟩ => by
    rw [Block.shift, Block.aborts, Block.aborts, anyAborts_stmtsShift]

theorem anyAborts_stmtsShift : ∀ statements : List Stmt,
    anyAborts (stmtsShift σ statements) = anyAborts statements
  | [] => rfl
  | first :: rest => by
    rw [stmtsShift, anyAborts, anyAborts, first.aborts_shift, anyAborts_stmtsShift rest]

end

/-! ### Ways to build blocks -/

@[simp] theorem Block.shift_single (statement : Stmt) :
    (Block.single statement).shift σ = .single (statement.shift σ) := rfl

@[simp] theorem Block.shift_ofStatements (statements : List Stmt) :
    (Block.ofStatements statements).shift σ = .ofStatements (statements.map (Stmt.shift σ)) :=
  Block.shift_eq σ _

@[simp] theorem Block.shift_ofFrame (code : CodeObject) (statements : List Stmt) :
    (Block.ofFrame code statements).shift σ = .ofFrame code (statements.map (Stmt.shift σ)) :=
  Block.shift_eq σ _

theorem Block.shift_ofNonempty (statements : List Stmt) :
    (Block.ofNonempty? statements).map (Block.shift σ) =
      Block.ofNonempty? (statements.map (Stmt.shift σ)) := by
  cases statements with
  | nil => rfl
  | cons first rest => exact congrArg some (Block.shift_ofStatements σ _)

theorem Block.shift_push (block : Block) (statement : Stmt) :
    (block.push statement).shift σ = (block.shift σ).push (statement.shift σ) := by
  simp [Block.shift_eq, Block.push]

theorem Block.shift_closeWith (terminal : Stmt) (block : Option Block) :
    (Block.closeWith terminal block).shift σ =
      Block.closeWith (terminal.shift σ) (block.map (Block.shift σ)) := by
  cases block with
  | none => rfl
  | some block =>
    simp only [Block.closeWith, Option.map_some, Block.aborts_shift]
    split
    · rfl
    · exact Block.shift_push σ block terminal

theorem Block.shift_releasing (vars : List VariableId) (tried : Block) :
    (tried.releasing vars).shift σ = (tried.shift σ).releasing (vars.map σ.var) := by
  rw [Block.releasing, Block.shift_single, Stmt.shift, Block.shift_ofStatements, List.map_map,
    Block.releasing, List.map_map]
  rfl

end Looks

/-! ## What the store records -/

def Variable.shift (σ : Shift) (declared : Variable) : Variable :=
  { declared with owner := σ.body declared.owner }

def Body.shift (σ : Shift) (body : Body) : Body :=
  { body with
    provider := body.provider.map σ.body
    code := body.code.map (Block.shift σ)
    visible := body.visible.map σ.var
    temporaries := body.temporaries.map σ.var }

def BodyPlan.shift (σ : Shift) (plan : BodyPlan) : BodyPlan :=
  { plan with provider := plan.provider.map σ.body }

/-! ## No shift at all -/

mutual

theorem Expr.shift_zero : ∀ e : Expr, e.shift ⟨0, 0⟩ = e
  | .constant _ | .constantMapping _ | .var _ | .freeName _ | .builtin _ => rfl
  | .call callee args => by rw [Expr.shift, callee.shift_zero, exprsShift_zero args]
  | .binary left op right => by rw [Expr.shift, left.shift_zero, right.shift_zero]
  | .attribute value name => by rw [Expr.shift, value.shift_zero]
  | .tuple items => by rw [Expr.shift, exprsShift_zero items]
  | .mapping keys values => by rw [Expr.shift, exprsShift_zero values]
  | .yield value => by rw [Expr.shift, optionShift_zero value]
  | .yieldFrom value => by rw [Expr.shift, value.shift_zero]
  | .await value => by rw [Expr.shift, value.shift_zero]
  | .makeFunction body code defaults keywordDefaults annotations => by
    rw [Expr.shift, exprsShift_zero defaults, optionShift_zero keywordDefaults,
      optionShift_zero annotations, Shift.body_zero]
  | .callFunction function values => by
    rw [Expr.shift, function.shift_zero, exprsShift_zero values]
  | .makeObject kind body code => by rw [Expr.shift, Shift.body_zero]
  | .makeClass body bases => by rw [Expr.shift, exprsShift_zero bases, Shift.body_zero]
  | .iterator value => by rw [Expr.shift, value.shift_zero]
  | .unpack source count expected => by rw [Expr.shift, source.shift_zero]

theorem exprsShift_zero : ∀ es : List Expr, exprsShift ⟨0, 0⟩ es = es
  | [] => rfl
  | first :: rest => by rw [exprsShift, first.shift_zero, exprsShift_zero rest]

theorem optionShift_zero : ∀ o : Option Expr, optionShift ⟨0, 0⟩ o = o
  | none => rfl
  | some value => by rw [optionShift, value.shift_zero]

end

mutual

theorem Stmt.shift_zero : ∀ statement : Stmt, statement.shift ⟨0, 0⟩ = statement
  | .assignVariable target source => by rw [Stmt.shift, source.shift_zero, Shift.var_zero]
  | .assignName target source => by rw [Stmt.shift, source.shift_zero]
  | .expr value => by rw [Stmt.shift, value.shift_zero]
  | .ret value => by rw [Stmt.shift, value.shift_zero]
  | .objectRet value => by rw [Stmt.shift, value.shift_zero]
  | .retNone | .objectRetNone | .release _ => rfl
  | .raise value => by rw [Stmt.shift, optionShift_zero value]
  | .checkExhausted iterator count => by rw [Stmt.shift, iterator.shift_zero]
  | .tryFinally tried cleanup => by rw [Stmt.shift, tried.shift_zero, cleanup.shift_zero]
  | .branch condition yes no => by
    rw [Stmt.shift, condition.shift_zero, optionBlockShift_zero yes, optionBlockShift_zero no]
  | .loop condition body => by rw [Stmt.shift, condition.shift_zero, optionBlockShift_zero body]

theorem Block.shift_zero : ∀ block : Block, block.shift ⟨0, 0⟩ = block
  | ⟨statements, frame⟩ => by rw [Block.shift, stmtsShift_zero statements]

theorem optionBlockShift_zero : ∀ o : Option Block, optionBlockShift ⟨0, 0⟩ o = o
  | none => rfl
  | some block => by rw [optionBlockShift, block.shift_zero]

theorem stmtsShift_zero : ∀ statements : List Stmt, stmtsShift ⟨0, 0⟩ statements = statements
  | [] => rfl
  | first :: rest => by rw [stmtsShift, first.shift_zero, stmtsShift_zero rest]

end

theorem map_shift_zero (statements : List Stmt) :
    statements.map (Stmt.shift ⟨0, 0⟩) = statements := by
  rw [← stmtsShift_eq, stmtsShift_zero]

theorem Body.shift_zero (body : Body) : body.shift ⟨0, 0⟩ = body := by
  have hbody : Shift.body ⟨0, 0⟩ = id := funext Shift.body_zero
  have hvar : Shift.var ⟨0, 0⟩ = id := funext Shift.var_zero
  have hblock : Block.shift ⟨0, 0⟩ = id := funext Block.shift_zero
  simp [Body.shift, hbody, hvar, hblock]

theorem Variable.shift_zero (declared : Variable) : declared.shift ⟨0, 0⟩ = declared := by
  rw [Variable.shift, Shift.body_zero]

end DefinitionLowering.IR

namespace DefinitionLowering

open IR (Shift)

/-! ## What the lowering makes -/

section Makes

variable (σ : Shift)

theorem map_shift_addDecorator (decorators : List IR.Expr) (name : String) :
    (addDecorator decorators name).map (IR.Expr.shift σ) =
      addDecorator (decorators.map (IR.Expr.shift σ)) name := by
  have hany : (decorators.map (IR.Expr.shift σ)).any (IR.Expr.refersTo name) =
      decorators.any (IR.Expr.refersTo name) := by
    simp [List.any_map, Function.comp_def]
  unfold addDecorator
  rw [hany]
  split
  · rfl
  · simp [IR.Expr.shift]

theorem map_shift_addImplicit (dialect : Dialect) (name : String) (scope : ScopeKind)
    (decorators : List IR.Expr) :
    (dialect.addImplicit name scope decorators).map (IR.Expr.shift σ) =
      dialect.addImplicit name scope (decorators.map (IR.Expr.shift σ)) := by
  unfold Dialect.addImplicit
  induction dialect.decoratorsFor name scope generalizing decorators with
  | nil => rfl
  | cons first rest ih => rw [List.foldl_cons, List.foldl_cons, ih, map_shift_addDecorator]

theorem shift_decorate (decorators : List IR.Expr) (created : IR.Expr) :
    (decorate decorators created).shift σ =
      decorate (decorators.map (IR.Expr.shift σ)) (created.shift σ) := by
  unfold decorate
  induction decorators generalizing created with
  | nil => rfl
  | cons first rest ih => rw [List.foldl_cons, ih, List.map_cons, List.foldl_cons]; rfl

namespace Lowering

def Callable.shift (callable : Callable) : Callable :=
  ⟨σ.body callable.outer, σ.body callable.function, callable.code⟩

def Unpacking.shift (unpacking : Unpacking) : Unpacking :=
  ⟨unpacking.statements.map (IR.Stmt.shift σ), unpacking.accesses.map (IR.Expr.shift σ),
    unpacking.iterators⟩

theorem shift_creation (callable : Callable) (defaults : List IR.Expr)
    (keywordDefaults annotations : Option IR.Expr) :
    (creation callable defaults keywordDefaults annotations).shift σ =
      creation (callable.shift σ) (defaults.map (IR.Expr.shift σ))
        (keywordDefaults.map (IR.Expr.shift σ)) (annotations.map (IR.Expr.shift σ)) := by
  simp [creation, IR.Expr.shift, Callable.shift]

theorem shift_manufacture (callable : Callable) (kind : ObjectKind) (object : IR.BodyId) :
    (manufacture callable kind object).shift σ =
      manufacture (callable.shift σ) kind (σ.body object) := rfl

theorem shift_plainCode (kind : CallableKind) (frame : Option IR.Block) :
    (plainCode kind frame).shift σ = plainCode kind (frame.map (IR.Block.shift σ)) := by
  unfold plainCode
  split
  · exact IR.Block.shift_closeWith σ .retNone frame
  · cases frame <;> rfl

theorem shift_returnStmt (kind : BodyKind) (value : Option IR.Expr) :
    (returnStmt kind value).shift σ = returnStmt kind (value.map (IR.Expr.shift σ)) := by
  cases value <;> (unfold returnStmt; split <;> simp_all [IR.Stmt.shift])

end Lowering

end Makes

end DefinitionLowering
