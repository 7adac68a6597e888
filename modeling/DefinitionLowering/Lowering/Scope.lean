import DefinitionLowering.Lowering.Basic
import DefinitionLowering.Surface.Declaration

/-!
# Opening a scope

Before its statements are lowered, a scope records its `global` and `nonlocal` declarations
and declares every name it binds, so that a name means the same variable throughout the scope,
also ahead of its first assignment.

A parameter can be declared neither global nor nonlocal, and a nonlocal name needs a variable
of an enclosing scope. The names that a module binds are left for run time.
-/

namespace DefinitionLowering.Lowering

open IR (BodyId Store)

/-- Whether a name is a parameter of the callable whose statements a body holds. The body of a
suspended object has the parameters of the function that manufactures it. -/
def isParameter (s : Store) (b : BodyId) (name : String) : Bool :=
  match s.find? b name with
  | none => false
  | some v =>
    (s.var v).kind == .parameter &&
      ((s.var v).owner == b ||
        ((s.body b).kind.isObject && (s.body b).provider == some (s.var v).owner))

/-- Refuses to declare a parameter anew. -/
def refuseParameter (b : BodyId) (name : String) (declaration : OuterDeclaration)
    (location : Location) : Lowering Unit := do
  if ← query fun s => isParameter s b name then
    reject (.parameterRedeclared name declaration) location

def declareGlobal (b : BodyId) (name : String) (location : Location) : Lowering Unit := do
  let name ← spell b name
  refuseParameter b name .global location
  modify fun s => s.addGlobal b name

/-- Whether a nonlocal declaration finds its variable: one of an enclosing scope, which the
body sees from then on. -/
def resolveOuter (b : BodyId) (name : String) : Lowering Bool := do
  match ← query fun s => (s.find? b name).map fun v => (s.var v).owner with
  | some owner => return owner != b
  | none => return (← resolve b name).isSome

def declareNonlocal (b : BodyId) (name : String) (location : Location) : Lowering Unit := do
  let name ← spell b name
  refuseParameter b name .nonlocal location
  if ← resolveOuter b name then
    modify fun s => s.addNonlocal b ⟨name, location⟩
  else
    reject (.unboundNonlocal name) location

/-- Declares a bound name as a local, unless it is declared global. -/
def declareBinding (b : BodyId) (name : String) : Lowering Unit := do
  let name ← spell b name
  unless ← query fun s => (s.body b).globals.contains name do
    modify fun s => (s.declareLocal b name).2

/-- Records what the statements of a scope declare. -/
def openScope (b : BodyId) (statements : List Surface.Stmt) : Lowering Unit := do
  let isModule := (← kindOf b) == .moduleBody
  let nonlocals := Surface.nonlocalNames statements
  if isModule then
    if let (_, location) :: _ := nonlocals then
      reject .nonlocalAtModuleLevel location
  (Surface.globalNames statements).forM fun (name, location) => declareGlobal b name location
  nonlocals.forM fun (name, location) => declareNonlocal b name location
  unless isModule do
    (Surface.boundNames statements).forM fun name => declareBinding b name

end DefinitionLowering.Lowering
