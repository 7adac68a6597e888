import DefinitionLowering.Lowering.Decorators
import DefinitionLowering.Lowering.Expr
import DefinitionLowering.Lowering.Scope

/-!
# Definitions and classes

How `def`, `async def` and `class` statements are lowered, given how their own statements are:
`lowerBody` stands for the lowering of the statements of the definition in a body. The scope
around the definition evaluates decorators, defaults and annotations.

A plain definition is a function or a generator. An asynchronous one always manufactures an
object, and its flags describe the object's code. Control never falls off the end of a function
or an asynchronous body: a last `return` is added where the end can be reached.
-/

namespace DefinitionLowering.Lowering

open IR (BodyId Block)
open Surface (Def ClassDef Params)

/-! ## What the scope around a definition evaluates -/

/-- Decorators in the order of application, which is also the order of evaluation. -/
def lowerDecorators (setting : Setting) (b : BodyId) (location : Location)
    (decorators : List Surface.Expr) : Lowering (List IR.Expr) :=
  lowerExprs setting b location decorators.reverse

/-- The annotations of a parameter list with the names they are recorded under: positional
parameters, also inside patterns, star, keyword-only, double star, and the result. -/
def annotationsOf (params : Params) (returns : Option Surface.Expr) :
    List (String × Surface.Expr) :=
  ((Surface.patternLeaves params.positional ++ params.named).filterMap fun param =>
      param.hint.map fun hint => (param.name, hint)) ++
    returns.toList.map fun hint => ("return", hint)

/-- An annotation with the key it is recorded under. -/
def lowerHint (setting : Setting) (b : BodyId) (location : Location)
    (written : String × Surface.Expr) : Lowering (String × IR.Expr) := do
  let key ←
    if setting.dialect.privateAnnotationKeys then spell b written.1 else pure written.1
  let value ← lowerExpr setting b location written.2
  return (key, value)

/-- The mapping of names to annotations, absent when the dialect has none or none is written. -/
def lowerAnnotations (setting : Setting) (b : BodyId) (location : Location) (params : Params)
    (returns : Option Surface.Expr) : Lowering (Option IR.Expr) := do
  let written := annotationsOf params returns
  if !setting.dialect.annotations || written.isEmpty then
    return none
  return some (.ofEntries (← written.mapM (lowerHint setting b location)))

/-! ## The code of a definition -/

/-- The frame of a definition's statements, absent when no statement is left. -/
def lowerFrameWith (b : BodyId) (statements : List Surface.Stmt) (code : CodeObject)
    (lowerBody : Lowering (List IR.Stmt)) : Lowering (Option Block) := do
  openScope b statements
  let lowered ← lowerBody
  return if lowered.isEmpty then none else some (.ofFrame code lowered)

/-- The body that holds the statements of a plain definition, after the code of the function
that manufactures it has been attached. -/
def plainCodeBody (callable : Callable) (kind : CallableKind) (d : Def) (flags : Flags) :
    Lowering BodyId := do
  match kind with
  | .function => return callable.function
  | .generator =>
    let object ← createObject callable .generator d.name flags d.location
    attachCode callable.function (manufacture callable .generator object)
    return object
  | _ => throw (.fault (.unfitPlainKind kind))

/-- The code of a plain definition. A generator simply ends. -/
def plainCode (kind : CallableKind) (frame : Option Block) : Block :=
  match kind with
  | .function => Block.closeWith .retNone frame
  | _ => frame.getD (.ofStatements [])

/-- The statement that binds a definition to its name. -/
def bindDefinition (b : BodyId) (name : String) (value : IR.Expr) : Lowering IR.Stmt := do
  bindName b (← spell b name) value

/-! ## Definitions -/

def lowerPlainDefWith (setting : Setting) (b : BodyId) (d : Def)
    (lowerBody : BodyId → Lowering (List IR.Stmt)) : Lowering IR.Stmt := do
  let statements := Surface.undocumented d.body
  let (kind, flags) := setting.classify statements .function
  let callable ← buildCallable setting b kind d.name (Surface.docstring? d.body) flags d.params
    d.location
  let codeBody ← plainCodeBody callable kind d flags
  let decorators ← lowerDecorators setting b d.location d.decorators
  let defaults ← lowerExprs setting b d.location d.params.defaults
  let keywordDefaults ← lowerKeywordMapping setting b callable.outer d.location d.params
  let frame ← lowerFrameWith codeBody statements callable.code (lowerBody codeBody)
  attachCode codeBody (plainCode kind frame)
  let annotations ← lowerAnnotations setting b d.location d.params d.returns
  let scope := (← kindOf b).scope
  bindDefinition b d.name (decorate (setting.dialect.addImplicit d.name scope decorators)
    (creation callable defaults keywordDefaults annotations))

/-- The object of an asynchronous definition of the given kind. -/
def asyncObject? : CallableKind → Option ObjectKind
  | .coroutine => some .coroutine
  | .asyncGenerator => some .asyncGenerator
  | _ => none

/-- An asynchronous definition manufactures an object. -/
theorem suspension_coroutine (statements : List Surface.Stmt) :
    ∃ object, (Surface.Classifier.suspension statements .coroutine).1 = .suspended object ∧
      asyncObject? (Surface.Classifier.suspension statements .coroutine).1 = some object := by
  unfold Surface.Classifier.suspension
  dsimp only
  split
  · exact ⟨.asyncGenerator, rfl, rfl⟩
  · exact ⟨.coroutine, rfl, rfl⟩

def lowerAsyncDefWith (setting : Setting) (b : BodyId) (d : Def)
    (lowerBody : BodyId → Lowering (List IR.Stmt)) : Lowering IR.Stmt := do
  let statements := Surface.undocumented d.body
  let (kind, flags) := setting.classify statements .coroutine
  match asyncObject? kind with
  | none => throw (.fault (.unfitAsyncKind kind))
  | some objectKind =>
    let callable ← buildCallable setting b kind d.name (Surface.docstring? d.body) {} d.params
      d.location
    let object ← createObject callable objectKind d.name flags d.location
    let decorators ← lowerDecorators setting b d.location d.decorators
    let defaults ← lowerExprs setting b d.location d.params.defaults
    let frame ← lowerFrameWith object statements callable.code (lowerBody object)
    attachCode object (Block.closeWith .objectRetNone frame)
    let annotations ← lowerAnnotations setting b d.location d.params d.returns
    let keywordDefaults ← lowerKeywordMapping setting b callable.outer d.location d.params
    attachCode callable.function (manufacture callable objectKind object)
    modify fun s => s.copyNonlocals object callable.function
    bindDefinition b d.name (decorate decorators
      (creation callable defaults keywordDefaults annotations))

/-- A definition is plain or asynchronous as it is written. -/
def lowerDefWith (setting : Setting) (b : BodyId) (d : Def)
    (lowerBody : BodyId → Lowering (List IR.Stmt)) : Lowering IR.Stmt :=
  if d.isAsync then lowerAsyncDefWith setting b d lowerBody
  else lowerPlainDefWith setting b d lowerBody

def lowerClassDefWith (setting : Setting) (b : BodyId) (d : ClassDef)
    (lowerBody : BodyId → Lowering (List IR.Stmt)) : Lowering IR.Stmt := do
  let decorators ← lowerDecorators setting b d.location d.decorators
  let bases ← lowerExprs setting b d.location d.bases
  let body ← createBody
    { kind := .classBody
      name := d.name
      location := d.location
      provider := some b
      doc := Surface.docstring? d.body }
  openScope body (Surface.undocumented d.body)
  let lowered ← lowerBody body
  attachCode body (.ofStatements lowered)
  bindDefinition b d.name (decorate decorators (.makeClass body bases))

end DefinitionLowering.Lowering
