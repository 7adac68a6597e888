import DefinitionLowering.Lowering.Callable

/-!
# Lowering expressions

An expression is lowered in the body that evaluates it, parts from left to right. Mistakes are
reported at the place of the statement or lambda that the expression belongs to. Names become
variables or names left for run time; a lambda becomes bodies of its own and the expression
that creates the function.
-/

namespace DefinitionLowering.Lowering

open IR (BodyId)
open Surface (Lambda Stmt)

/-- The body of the generator that a lambda manufactures, if it is one. A lambda of any other
kind runs as a function. -/
def lambdaObject (callable : Callable) (kind : CallableKind) (flags : Flags)
    (location : Location) : Lowering (Option BodyId) := do
  if kind == .generator then
    return some (← createObject callable .generator "<lambda>" flags location)
  else
    return none

/-- Attaches the code of a lambda, which is one value: a function returns it, a generator
evaluates it and ends. -/
def attachLambda (callable : Callable) (object : Option BodyId) (value : IR.Expr) :
    Lowering Unit := do
  match object with
  | none => attachCode callable.function (.ofFrame callable.code [.ret value])
  | some object =>
    attachCode object (.ofFrame callable.code [.expr value, .objectRetNone])
    attachCode callable.function (manufacture callable .generator object)

mutual

def lowerExpr (setting : Setting) (b : BodyId) (location : Location) :
    Surface.Expr → Lowering IR.Expr
  | .name id => reference b id
  | .constant value => return .constant value
  | .call callee args => do
    let callee ← lowerExpr setting b location callee
    let args ← lowerExprs setting b location args
    return .call callee args
  | .binary left op right => do
    let left ← lowerExpr setting b location left
    let right ← lowerExpr setting b location right
    return .binary left op right
  | .attribute value name => do
    let value ← lowerExpr setting b location value
    return .attribute value (← spell b name)
  | .tuple items => do
    return .tuple (← lowerExprs setting b location items)
  | .yield value => do
    unless (← kindOf b).isFunctionLike do
      reject .yieldOutsideFunction location
    return .yield (← lowerOption setting b location value)
  | .yieldFrom value => do
    unless (← kindOf b).isFunctionLike do
      reject .yieldOutsideFunction location
    if (← kindOf b).allowsAwait then
      reject .yieldFromInAsync location
    return .yieldFrom (← lowerExpr setting b location value)
  | .await value => do
    unless (← kindOf b).allowsAwait do
      reject .awaitOutsideAsync location
    return .await (← lowerExpr setting b location value)
  | .lambda definition => lowerLambda setting b definition

def lowerExprs (setting : Setting) (b : BodyId) (location : Location) :
    List Surface.Expr → Lowering (List IR.Expr)
  | [] => return []
  | first :: rest => do
    let first ← lowerExpr setting b location first
    let rest ← lowerExprs setting b location rest
    return first :: rest

def lowerOption (setting : Setting) (b : BodyId) (location : Location) :
    Option Surface.Expr → Lowering (Option IR.Expr)
  | none => return none
  | some value => do
    return some (← lowerExpr setting b location value)

/-- The defaults of keyword-only parameters, each with the name it stands beside. Names and
defaults are paired in order, and a required parameter has no entry. -/
def lowerKeywordDefaults (setting : Setting) (b : BodyId) (location : Location) :
    List String → List (Option Surface.Expr) → Lowering (List (String × IR.Expr))
  | name :: names, some value :: rest => do
    let value ← lowerExpr setting b location value
    let rest ← lowerKeywordDefaults setting b location names rest
    return (name, value) :: rest
  | _ :: names, none :: rest => lowerKeywordDefaults setting b location names rest
  | _, _ => return []

/-- A lambda is a callable without documentation, annotations or decorators. -/
def lowerLambda (setting : Setting) (b : BodyId) : Lambda → Lowering IR.Expr
  | ⟨⟨positional, defaults, star, keywordOnly, keywordDefaults, doubleStar⟩, body, location⟩ => do
    let params : Surface.Params :=
      ⟨positional, defaults, star, keywordOnly, keywordDefaults, doubleStar⟩
    let (kind, flags) := setting.classify [⟨.expr body, .unknown⟩] .function
    let callable ← buildCallable setting b kind "<lambda>" none flags params location
    let object ← lambdaObject callable kind flags location
    let defaults ← lowerExprs setting b location defaults
    let keywordDefaults ← keywordMapping callable.outer fun names =>
      lowerKeywordDefaults setting b location names keywordDefaults
    let value ← lowerExpr setting (object.getD callable.function) location body
    attachLambda callable object value
    return creation callable defaults keywordDefaults none

end

/-- The keyword-only defaults of a definition whose signature a body has. -/
def lowerKeywordMapping (setting : Setting) (b : BodyId) (holder : BodyId) (location : Location)
    (params : Surface.Params) : Lowering (Option IR.Expr) :=
  keywordMapping holder fun names =>
    lowerKeywordDefaults setting b location names params.keywordDefaults

end DefinitionLowering.Lowering
