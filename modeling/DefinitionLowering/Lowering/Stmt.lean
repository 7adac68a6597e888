import DefinitionLowering.Lowering.Definition

/-!
# Lowering statements

A statement becomes at most one lowered statement in the body that runs it: declarations and
`pass` leave nothing behind. A block of a conditional or a loop that is left empty is absent.
-/

namespace DefinitionLowering.Lowering

open IR (BodyId Block)
open Surface (Def ClassDef Stmt StmtKind)

/-- Whether a `return` may stand in a body; an asynchronous generator returns no value. -/
def checkReturn (b : BodyId) (location : Location) (hasValue : Bool) : Lowering Unit := do
  match ← kindOf b with
  | .moduleBody | .classBody => reject .returnOutsideFunction location
  | .callable .asyncGenerator =>
    if hasValue then
      reject .returnValueInAsyncGenerator location
  | .callable _ => return ()

/-- A `return` leaves a function, or ends a suspended object. -/
def returnStmt (kind : BodyKind) (value : Option IR.Expr) : IR.Stmt :=
  match kind, value with
  | .function, some value => .ret value
  | .function, none => .retNone
  | _, some value => .objectRet value
  | _, none => .objectRetNone

mutual

def lowerStmt (setting : Setting) (b : BodyId) : Stmt → Lowering (Option IR.Stmt)
  | ⟨kind, location⟩ => lowerKind setting b location kind

def lowerKind (setting : Setting) (b : BodyId) (location : Location) :
    StmtKind → Lowering (Option IR.Stmt)
  | .expr value => do
    return some (.expr (← lowerExpr setting b location value))
  | .assign target value => do
    let source ← lowerExpr setting b location value
    return some (← bindName b (← spell b target) source)
  | .pass | .global _ | .nonlocal _ => return none
  | .ret value => do
    checkReturn b location value.isSome
    let value ← lowerOption setting b location value
    return some (returnStmt (← kindOf b) value)
  | .raise value => do
    return some (.raise (← lowerOption setting b location value))
  | .branch test body orelse => do
    let condition ← lowerExpr setting b location test
    let yes ← lowerStmts setting b body
    let no ← lowerStmts setting b orelse
    return some (.branch condition (Block.ofNonempty? yes) (Block.ofNonempty? no))
  | .loop test body => do
    let condition ← lowerExpr setting b location test
    let body ← lowerStmts setting b body
    return some (.loop condition (Block.ofNonempty? body))
  | .define definition => do
    return some (← lowerDef setting b definition)
  | .defineClass definition => do
    return some (← lowerClassDef setting b definition)

def lowerDef (setting : Setting) (b : BodyId) : Def → Lowering IR.Stmt
  | ⟨name, params, body, decorators, returns, isAsync, location⟩ =>
    lowerDefWith setting b ⟨name, params, body, decorators, returns, isAsync, location⟩
      fun codeBody => lowerUndocumented setting codeBody body

def lowerClassDef (setting : Setting) (b : BodyId) : ClassDef → Lowering IR.Stmt
  | ⟨name, bases, body, decorators, location⟩ =>
    lowerClassDefWith setting b ⟨name, bases, body, decorators, location⟩
      fun classBody => lowerUndocumented setting classBody body

def lowerStmts (setting : Setting) (b : BodyId) : List Stmt → Lowering (List IR.Stmt)
  | [] => return []
  | first :: rest => do
    let first ← lowerStmt setting b first
    let rest ← lowerStmts setting b rest
    return first.toList ++ rest

/-- The statements of a body without its documentation string. -/
def lowerUndocumented (setting : Setting) (b : BodyId) : List Stmt → Lowering (List IR.Stmt)
  | [] => return []
  | first :: rest =>
    if first.docstring?.isSome then lowerStmts setting b rest
    else do
      let first ← lowerStmt setting b first
      let rest ← lowerStmts setting b rest
      return first.toList ++ rest

end

theorem lowerUndocumented_eq (setting : Setting) (b : BodyId) (body : List Stmt) :
    lowerUndocumented setting b body = lowerStmts setting b (Surface.undocumented body) := by
  cases body with
  | nil => rfl
  | cons first rest =>
    simp only [lowerUndocumented, Surface.undocumented]
    split <;> rfl

/-- An asynchronous definition, however it is marked. -/
def lowerAsyncDef (setting : Setting) (b : BodyId) (d : Def) : Lowering IR.Stmt :=
  lowerAsyncDefWith setting b d fun codeBody => lowerUndocumented setting codeBody d.body

/-- The frame of some statements in a body. -/
def lowerFrame (setting : Setting) (b : BodyId) (statements : List Stmt) (code : CodeObject) :
    Lowering (Option Block) :=
  lowerFrameWith b statements code (lowerStmts setting b statements)

end DefinitionLowering.Lowering
