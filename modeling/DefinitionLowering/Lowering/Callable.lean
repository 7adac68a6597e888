import DefinitionLowering.Lowering.Destructuring

/-!
# Callables

What definitions and lambdas have in common: the bodies of a callable, the expression that
creates it, and the object that a suspending callable manufactures.

A callable has an outer body, which the creating expression refers to, and a function body,
which has the real parameters. They differ only when tuple-shaped parameters are taken apart.
A suspending callable has one more body for its object, which sees all that the function sees.
-/

namespace DefinitionLowering.Lowering

open IR (BodyId Store)

structure Callable where
  outer : BodyId
  function : BodyId
  code : CodeObject

/-- The code object of a callable that is defined in a scope. -/
def codeObject (provider : BodyId) (kind : CallableKind) (signature : Signature)
    (location : Location) : Lowering CodeObject := do
  let info ← tryQuery fun s => s.moduleInfo provider
  return .ofSignature kind signature info location.line

/-- The signature of a callable that is defined in a scope. -/
def signatureIn (setting : Setting) (provider : BodyId) (name : String)
    (params : Surface.Params) (location : Location) : Lowering Signature := do
  match params.signature setting.dialect (← query fun s => s.spell provider) name with
  | .ok signature => return signature
  | .error cause => reject cause location

/-- The tuple-shaped parameters of a callable that is defined in a scope. -/
def placeholdersIn (provider : BodyId) (params : Surface.Params) :
    Lowering (List Placeholder) :=
  query fun s => params.placeholders (s.spell provider)

/-- Creates the bodies of a callable that run when it is called. -/
def buildCallable (setting : Setting) (provider : BodyId) (kind : CallableKind) (name : String)
    (doc : Option String) (flags : Flags) (params : Surface.Params) (location : Location) :
    Lowering Callable := do
  let signature ← signatureIn setting provider name params location
  let placeholders ← placeholdersIn provider params
  let code ← codeObject provider kind signature location
  let outer ← createBody
    { kind := .function
      name := name
      location := location
      provider := some provider
      flags := flags
      doc := doc
      signature := some signature }
  if placeholders.isEmpty then
    return ⟨outer, outer, code⟩
  let function ← createDelegate outer signature placeholders code flags doc location
  return ⟨outer, function, code⟩

/-- Creates the body of the object that a callable manufactures. -/
def createObject (callable : Callable) (kind : ObjectKind) (name : String) (flags : Flags)
    (location : Location) : Lowering BodyId := do
  let qualifiedName ← query fun s => (s.body callable.outer).qualifiedName
  let object ← createBody
    { kind := .callable (.suspended kind)
      name := name
      location := location
      provider := some callable.function
      qualifiedName := some qualifiedName
      flags := flags }
  share callable.function object
  return object

/-- The code of a function that does nothing but manufacture an object. -/
def manufacture (callable : Callable) (kind : ObjectKind) (object : BodyId) : IR.Block :=
  .single (.ret (.makeObject kind object callable.code))

/-- The names of the keyword-only parameters of a body. -/
def keywordOnlyNames (s : Store) (b : BodyId) : List String :=
  match (s.body b).signature with
  | none => []
  | some signature => signature.keywordOnly

/-- The mapping of the keyword-only parameters of a body to their defaults, absent when there
are no such parameters. -/
def keywordMapping (b : BodyId) (lower : List String → Lowering (List (String × IR.Expr))) :
    Lowering (Option IR.Expr) := do
  let names ← query fun s => keywordOnlyNames s b
  if names.isEmpty then
    return none
  return some (.ofEntries (← lower names))

/-- The expression that creates the function of a callable. -/
def creation (callable : Callable) (defaults : List IR.Expr)
    (keywordDefaults annotations : Option IR.Expr) : IR.Expr :=
  .makeFunction callable.outer callable.code defaults keywordDefaults annotations

end DefinitionLowering.Lowering
