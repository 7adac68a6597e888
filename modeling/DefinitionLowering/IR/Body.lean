import DefinitionLowering.IR.Code

/-!
# Bodies and variables

A body is the code of a module, a class, a callable or a suspended object, with the names it
sees. Its `provider` is the scope in which its names are looked up next. The variables a body
sees by name (`visible`) are those it owns and those of enclosing scopes that it mentions;
temporaries are its own, and no name refers to them.
-/

namespace DefinitionLowering.IR

inductive VariableKind where
  | parameter
  | localName
  | temporary
  deriving DecidableEq, Repr, Inhabited

structure Variable where
  name : String
  owner : BodyId
  kind : VariableKind
  deriving DecidableEq, Repr, Inhabited

structure NonlocalDeclaration where
  name : String
  location : Location
  deriving DecidableEq, Repr, Inhabited

structure Body where
  kind : BodyKind
  name : String
  qualifiedName : String
  provider : Option BodyId
  flags : Flags
  doc : Option String
  signature : Option Signature
  location : Location
  /-- Present on module bodies. -/
  info : Option ModuleInfo
  nonlocals : List NonlocalDeclaration
  globals : List String
  /-- Absent until the code is attached, which happens once. -/
  code : Option Block
  visible : List VariableId
  temporaries : List VariableId
  deriving Inhabited

/-- What is settled about a body when it is created. Without a qualified name of its own, a
body gets one from its provider. -/
structure BodyPlan where
  kind : BodyKind
  name : String
  location : Location
  provider : Option BodyId := none
  qualifiedName : Option String := none
  flags : Flags := {}
  doc : Option String := none
  signature : Option Signature := none
  info : Option ModuleInfo := none
  deriving Inhabited

/-- The names of the parameters that the body declares, in slot order. -/
def BodyPlan.slots (plan : BodyPlan) : List String :=
  match plan.signature with
  | none => []
  | some signature => signature.slots

end DefinitionLowering.IR
