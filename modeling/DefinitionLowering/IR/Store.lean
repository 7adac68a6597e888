import DefinitionLowering.IR.Body
import DefinitionLowering.IR.Fault

/-!
# The store of bodies and variables

All bodies and variables of one compilation, each kind numbered in the order of creation.
Bodies refer to each other and to variables by number only.

* `createBody` adds a body and declares the parameters of its signature.
* `attachCode` gives a body its code, once; `wrapCode` replaces code that is there.
* `declareLocal` and `addTemporary` add variables.
* `ancestors` follows the providers outwards. Providers are created before the bodies they
  serve, so the chain is no longer than the number of bodies.
* `resolve` finds the variable a name stands for. It searches the scopes of `lookupPath`,
  and every scope that it passes on the way to a variable sees the variable from then on.
-/

namespace DefinitionLowering.IR

structure Store where
  bodies : Array Body
  vars : Array Variable

namespace Store

def empty : Store := ⟨#[], #[]⟩

instance : Inhabited Store := ⟨empty⟩

/-! ## Bodies -/

def body (s : Store) (b : BodyId) : Body :=
  s.bodies.getD b.index default

def modifyBody (s : Store) (b : BodyId) (f : Body → Body) : Store :=
  { s with bodies := s.bodies.modify b.index f }

theorem body_modifyBody (s : Store) (b c : BodyId) (f : Body → Body) :
    (s.modifyBody b f).body c =
      if b = c ∧ c.index < s.bodies.size then f (s.body c) else s.body c := by
  cases b with
  | mk i =>
    cases c with
    | mk j =>
      simp only [body, modifyBody, Array.getD_eq_getD_getElem?, Array.getElem?_modify,
        BodyId.mk.injEq]
      by_cases h : i = j
      · subst h
        by_cases hi : i < s.bodies.size <;> simp [hi]
      · simp [h]

@[simp] theorem size_bodies_modifyBody (s : Store) (b : BodyId) (f : Body → Body) :
    (s.modifyBody b f).bodies.size = s.bodies.size := by
  simp [modifyBody]

/-- All bodies in the order of creation. -/
def bodyIds (s : Store) : List BodyId :=
  (List.range s.bodies.size).map BodyId.mk

/-- The qualified name of a body called `name` that is created in the given scope. -/
def childName (s : Store) (provider : BodyId) (name : String) : String :=
  let parent := s.body provider
  match parent.kind with
  | .moduleBody => name
  | .classBody => parent.qualifiedName ++ "." ++ name
  | .callable _ => parent.qualifiedName ++ ".<locals>." ++ name

/-- The qualified name that a new body gets. -/
def qualifiedName (s : Store) (plan : BodyPlan) : String :=
  match plan.qualifiedName, plan.provider with
  | some name, _ => name
  | none, some provider => s.childName provider plan.name
  | none, none => plan.name

/-- Adds a body. The slots of its signature become its parameters, and it sees them in that
order. -/
def createBody (s : Store) (plan : BodyPlan) : BodyId × Store :=
  let b : BodyId := ⟨s.bodies.size⟩
  let slots := plan.slots
  let body : Body :=
    { kind := plan.kind
      name := plan.name
      qualifiedName := s.qualifiedName plan
      provider := plan.provider
      flags := plan.flags
      doc := plan.doc
      signature := plan.signature
      location := plan.location
      info := plan.info
      nonlocals := []
      globals := []
      code := none
      visible := (List.range' s.vars.size slots.length).map VariableId.mk
      temporaries := [] }
  (b, { bodies := s.bodies.push body
        vars := s.vars ++ (slots.map fun name => ⟨name, b, .parameter⟩).toArray })

theorem body_createBody_of_lt (s : Store) (plan : BodyPlan) {b : BodyId}
    (h : b.index < s.bodies.size) : (s.createBody plan).2.body b = s.body b := by
  simp [createBody, body, Array.getD_eq_getD_getElem?, Array.getElem?_push, Nat.ne_of_lt h]

/-- Gives a body its code. -/
def attachCode (s : Store) (b : BodyId) (code : Block) : Except Fault Store :=
  match (s.body b).code with
  | some _ => .error (.codeAttachedTwice b (s.body b).qualifiedName)
  | none => .ok (s.modifyBody b fun body => { body with code := some code })

/-- Replaces the code of a body; a body without code stays without. -/
def wrapCode (s : Store) (b : BodyId) (wrap : Block → Block) : Store :=
  s.modifyBody b fun body => { body with code := body.code.map wrap }

def addGlobal (s : Store) (b : BodyId) (name : String) : Store :=
  s.modifyBody b fun body => { body with globals := body.globals ++ [name] }

def addNonlocal (s : Store) (b : BodyId) (declaration : NonlocalDeclaration) : Store :=
  s.modifyBody b fun body => { body with nonlocals := body.nonlocals ++ [declaration] }

/-- Replaces the nonlocal declarations of a body by those of another. -/
def copyNonlocals (s : Store) (source target : BodyId) : Store :=
  s.modifyBody target fun body => { body with nonlocals := (s.body source).nonlocals }

/-! ## Enclosing scopes -/

/-- The providers of a body from the nearest outwards, at most `limit` of them. -/
def providers (s : Store) : Nat → BodyId → List BodyId
  | 0, _ => []
  | limit + 1, b =>
    match (s.body b).provider with
    | none => []
    | some provider => provider :: s.providers limit provider

/-- All providers of a body from the nearest outwards. -/
def ancestors (s : Store) (b : BodyId) : List BodyId :=
  s.providers s.bodies.size b

def isModule (s : Store) (b : BodyId) : Bool :=
  (s.body b).kind == .moduleBody

def isClass (s : Store) (b : BodyId) : Bool :=
  (s.body b).kind == .classBody

/-- The module that a body is in, a module being in itself. -/
def moduleOf (s : Store) (b : BodyId) : Except Fault BodyId :=
  match (b :: s.ancestors b).find? s.isModule with
  | some found => .ok found
  | none => .error (.outsideModule b)

/-- What the code objects of a body's module have in common. -/
def moduleInfo (s : Store) (b : BodyId) : Except Fault ModuleInfo :=
  match s.moduleOf b with
  | .error fault => .error fault
  | .ok found =>
    match (s.body found).info with
    | some info => .ok info
    | none => .error (.unknownModule found)

/-- The innermost class that a body is in, a class being in itself. -/
def classOf? (s : Store) (b : BodyId) : Option BodyId :=
  ((b :: s.ancestors b).find? fun a => s.isClass a || s.isModule a).filter s.isClass

/-- The scopes in which a name of a body is searched: the body itself and the scopes around
it up to the module, less the classes, whose names are not seen from within. -/
def lookupPath (s : Store) (b : BodyId) : List BodyId :=
  b :: ((s.ancestors b).takeWhile fun a => !s.isModule a).filter fun a => !s.isClass a

/-! ## Variables -/

def var (s : Store) (v : VariableId) : Variable :=
  s.vars.getD v.index default

@[simp] theorem var_modifyBody (s : Store) (b : BodyId) (f : Body → Body) (v : VariableId) :
    (s.modifyBody b f).var v = s.var v := rfl

theorem var_createBody_of_lt (s : Store) (plan : BodyPlan) {v : VariableId}
    (h : v.index < s.vars.size) : (s.createBody plan).2.var v = s.var v := by
  simp [createBody, var, Array.getD_eq_getD_getElem?, Array.getElem?_append, h]

def visible (s : Store) (b : BodyId) : List VariableId :=
  (s.body b).visible

def temporaries (s : Store) (b : BodyId) : List VariableId :=
  (s.body b).temporaries

/-- The parameters and locals that a body owns. -/
def ownVariables (s : Store) (b : BodyId) : List VariableId :=
  (s.visible b).filter fun v => (s.var v).owner == b

/-- The variable that a body sees under a name. -/
def find? (s : Store) (b : BodyId) (name : String) : Option VariableId :=
  (s.visible b).find? fun v => (s.var v).name == name

theorem find?_eq_some {s : Store} {b : BodyId} {name : String} {v : VariableId}
    (h : s.find? b name = some v) : v ∈ s.visible b ∧ (s.var v).name = name := by
  have hname := List.find?_some h
  exact ⟨List.mem_of_find?_eq_some h, by simpa using hname⟩

/-- Adds a variable that no scope sees yet. -/
def pushVariable (s : Store) (declared : Variable) : VariableId × Store :=
  (⟨s.vars.size⟩, { s with vars := s.vars.push declared })

theorem var_pushVariable (s : Store) (declared : Variable) :
    (s.pushVariable declared).2.var (s.pushVariable declared).1 = declared := by
  simp [pushVariable, var]

/-- Lets a body see one more variable. -/
def reveal (s : Store) (b : BodyId) (v : VariableId) : Store :=
  s.modifyBody b fun body => { body with visible := body.visible ++ [v] }

/-- The variable that a body sees under a name, or a new local of the body. -/
def declareLocal (s : Store) (b : BodyId) (name : String) : VariableId × Store :=
  match s.find? b name with
  | some v => (v, s)
  | none =>
    let (v, s) := s.pushVariable ⟨name, b, .localName⟩
    (v, s.reveal b v)

def hasTemporary (s : Store) (b : BodyId) (name : String) : Bool :=
  (s.temporaries b).any fun v => (s.var v).name == name

/-- A new temporary of a body. -/
def addTemporary (s : Store) (b : BodyId) (name : String) :
    Except Fault (VariableId × Store) :=
  if s.hasTemporary b name then
    .error (.duplicateTemporary name b)
  else
    let (v, s) := s.pushVariable ⟨name, b, .temporary⟩
    .ok (v, s.modifyBody b fun body => { body with temporaries := body.temporaries ++ [v] })

/-- Lets a body see all that another body sees. -/
def share (s : Store) (source target : BodyId) : Store :=
  (s.visible source).foldl
    (fun s v => if v ∈ s.visible target then s else s.reveal target v) s

/-! ## References -/

/-- Searches the scopes of a path for a name. A scope that declares the name global ends the
search. -/
def resolveAlong (s : Store) (name : String) : List BodyId → Option VariableId × Store
  | [] => (none, s)
  | b :: outer =>
    match s.find? b name with
    | some v => (some v, s)
    | none =>
      if name ∈ (s.body b).globals then (none, s)
      else
        match s.resolveAlong name outer with
        | (none, s) => (none, s)
        | (some v, s) => (some v, s.reveal b v)

/-- The variable that a name stands for in a body, if it is no global name. -/
def resolve (s : Store) (b : BodyId) (name : String) : Option VariableId × Store :=
  s.resolveAlong name (s.lookupPath b)

end Store

end DefinitionLowering.IR
