import DefinitionLowering.IR.Code

/-!
# Internal faults

A fault is a broken promise between parts of the lowering, not a mistake in the program that
is lowered.
-/

namespace DefinitionLowering.IR

/-- How a body is called in the text of a fault. -/
def BodyId.text (b : BodyId) : String :=
  "body" ++ b.index.repr

inductive Fault where
  /-- The code of a body is attached once. -/
  | codeAttachedTwice (body : BodyId) (qualifiedName : String)
  /-- The temporaries of a body have distinct names. -/
  | duplicateTemporary (name : String) (body : BodyId)
  /-- Callables are defined inside modules. -/
  | outsideModule (body : BodyId)
  /-- A module body knows its file. -/
  | unknownModule (module : BodyId)
  /-- Every slot of a signature is a variable of the body. -/
  | parameterWithoutVariable (name : String) (body : BodyId)
  /-- A plain definition is a function or a generator. -/
  | unfitPlainKind (kind : CallableKind)
  /-- An asynchronous definition is a coroutine or an asynchronous generator. -/
  | unfitAsyncKind (kind : CallableKind)
  /-- The variables of a module are not released. -/
  | releaseInModule (body : BodyId)
  deriving DecidableEq, Repr

def Fault.message : Fault → String
  | .codeAttachedTwice body qualifiedName =>
    "ICE: set_body called twice on " ++ body.text ++ " (" ++ qualifiedName ++ ")"
  | .duplicateTemporary name body =>
    "ICE: duplicate temp variable " ++ name ++ " in " ++ body.text
  | .outsideModule body => "ICE: " ++ body.text ++ " is not nested in a module"
  | .unknownModule module => "ICE: module " ++ module.text ++ " has no module info"
  | .parameterWithoutVariable name body =>
    "ICE: parameter " ++ name ++ " of " ++ body.text ++ " has no variable"
  | .unfitPlainKind kind => "ICE: classifier returned " ++ kind.label ++ " for a plain def"
  | .unfitAsyncKind kind => "ICE: classifier returned " ++ kind.label ++ " for an async def"
  | .releaseInModule body =>
    "ICE: variable releases requested for module body " ++ body.text

end DefinitionLowering.IR
