import DefinitionLowering.IR.Store
import DefinitionLowering.Surface.Json

/-!
# The JSON form of lowered code

Lowered code and its records as they are shown to other tools. Bodies and variables are
written as their numbers, a place as the pair of its line and column.
-/

namespace DefinitionLowering

/-- A place as a pair. -/
def Location.toPair (l : Location) : Json :=
  .array [.ofNat l.line.toNat, .ofNat l.column.toNat]

def CallableKind.toJson (kind : CallableKind) : Json :=
  .str kind.label

def ObjectKind.toJson (kind : ObjectKind) : Json :=
  (CallableKind.suspended kind).toJson

def BodyKind.toJson : BodyKind → Json
  | .moduleBody => .str "Module"
  | .classBody => .str "Class"
  | .callable kind => kind.toJson

def Flags.toJson (flags : Flags) : Json :=
  .strings
    ((if flags.usesSuper then ["UsesSuper"] else []) ++
      (if flags.usesLocals then ["UsesLocals"] else []) ++
      (if flags.hasYieldFrom then ["HasYieldFrom"] else []))

/-- The fields of a signature and what follows from them. -/
def Signature.toJson (s : Signature) : Json :=
  .object [
    ("name", .str s.name),
    ("normal_args", .strings s.positional),
    ("kw_only_args", .strings s.keywordOnly),
    ("list_star_arg", .ofOption .str s.star),
    ("dict_star_arg", .ofOption .str s.doubleStar),
    ("default_count", .ofNat s.defaultCount),
    ("names", .strings s.slots),
    ("argument_count", .ofNat s.positional.length),
    ("kw_only_count", .ofNat s.keywordOnly.length),
    ("defaulted", .strings s.defaulted),
    ("has_synthesized", .bool s.hasPlaceholder),
    ("signature", .str s.text)]

def CodeObject.toJson (code : CodeObject) : Json :=
  .object [
    ("name", .str code.name),
    ("kind", code.kind.toJson),
    ("var_names", .strings code.slots),
    ("arg_count", .ofNat code.argumentCount),
    ("kw_only_arg_count", .ofNat code.keywordOnlyCount),
    ("has_star_list", .bool code.hasStar),
    ("has_star_dict", .bool code.hasDoubleStar),
    ("filename", .str code.filename),
    ("line", .ofNat code.line.toNat),
    ("future", code.future.toJson)]

def ModuleInfo.toJson (info : ModuleInfo) : Json :=
  .object [("filename", .str info.filename), ("future", info.future.toJson)]

namespace IR

def BodyId.toJson (b : BodyId) : Json :=
  .ofNat b.index

def VariableId.toJson (v : VariableId) : Json :=
  .ofNat v.index

def VariableKind.toJson : VariableKind → Json
  | .parameter => .str "Parameter"
  | .localName => .str "Local"
  | .temporary => .str "Temp"

/-! ## Expressions, statements and blocks -/

mutual

def Expr.toJson : Expr → Json
  | .constant value => .tagged "Constant" value.toJson
  | .constantMapping entries =>
    .tagged "ConstantDict"
      (.array (entries.map fun entry => .array [.str entry.1, entry.2.toJson]))
  | .var id => .tagged "Variable" id.toJson
  | .freeName name => .tagged "NameRef" (.str name)
  | .builtin name => .tagged "BuiltinRef" (.str name)
  | .call callee args =>
    .tagged "Call" (.object [("callee", callee.toJson), ("args", .array (exprsToJson args))])
  | .binary left op right =>
    .tagged "BinaryOp"
      (.object [("left", left.toJson), ("op", op.toJson), ("right", right.toJson)])
  | .attribute value name =>
    .tagged "Attribute" (.object [("value", value.toJson), ("attr", .str name)])
  | .tuple items => .tagged "MakeTuple" (.array (exprsToJson items))
  | .mapping keys values =>
    .tagged "MakeDict"
      (.object [("keys", .strings keys), ("values", .array (exprsToJson values))])
  | .yield value => .tagged "Yield" (exprOrNull value)
  | .yieldFrom value => .tagged "YieldFrom" value.toJson
  | .await value => .tagged "Await" value.toJson
  | .makeFunction body code defaults keywordDefaults annotations =>
    .tagged "FunctionCreation"
      (.object [
        ("function", body.toJson),
        ("code_object", code.toJson),
        ("defaults", .array (exprsToJson defaults)),
        ("kw_defaults", exprOrNull keywordDefaults),
        ("annotations", exprOrNull annotations)])
  | .callFunction function values =>
    .tagged "FunctionCall"
      (.object [("function", function.toJson), ("values", .array (exprsToJson values))])
  | .makeObject kind body code =>
    .tagged "MakeObject"
      (.object [("kind", kind.toJson), ("body", body.toJson), ("code_object", code.toJson)])
  | .makeClass body bases =>
    .tagged "ClassCreation"
      (.object [("body", body.toJson), ("bases", .array (exprsToJson bases))])
  | .iterator value => .tagged "BuiltinIter1" value.toJson
  | .unpack source count expected =>
    .tagged "SpecialUnpack"
      (.object [
        ("value", source.toJson), ("count", .ofNat count), ("expected", .ofNat expected)])

def exprsToJson : List Expr → List Json
  | [] => []
  | first :: rest => first.toJson :: exprsToJson rest

def exprOrNull : Option Expr → Json
  | none => .null
  | some value => value.toJson

end

mutual

def Stmt.toJson : Stmt → Json
  | .assignVariable target source =>
    .tagged "AssignVariable" (.object [("variable", target.toJson), ("source", source.toJson)])
  | .assignName target source =>
    .tagged "AssignName" (.object [("name", .str target), ("source", source.toJson)])
  | .expr value => .tagged "Expression" value.toJson
  | .ret value => .tagged "Return" value.toJson
  | .retNone => .str "ReturnNone"
  | .objectRet value => .tagged "GeneratorReturn" value.toJson
  | .objectRetNone => .str "GeneratorReturnNone"
  | .raise value => .tagged "Raise" (exprOrNull value)
  | .release target => .tagged "ReleaseVariable" target.toJson
  | .checkExhausted iterator count =>
    .tagged "SpecialUnpackCheck"
      (.object [("iterator", iterator.toJson), ("count", .ofNat count)])
  | .tryFinally tried cleanup =>
    .tagged "TryFinally" (.object [("tried", tried.toJson), ("finally", cleanup.toJson)])
  | .branch condition yes no =>
    .tagged "Conditional"
      (.object [
        ("condition", condition.toJson), ("yes", blockOrNull yes), ("no", blockOrNull no)])
  | .loop condition body =>
    .tagged "Loop" (.object [("condition", condition.toJson), ("body", blockOrNull body)])

def Block.toJson : Block → Json
  | ⟨statements, frame⟩ =>
    .object [
      ("frame", .ofOption CodeObject.toJson frame),
      ("statements", .array (stmtsToJson statements))]

def stmtsToJson : List Stmt → List Json
  | [] => []
  | first :: rest => first.toJson :: stmtsToJson rest

def blockOrNull : Option Block → Json
  | none => .null
  | some block => block.toJson

end

/-! ## Variables and bodies -/

namespace Store

def variableToJson (s : Store) (v : VariableId) : Json :=
  let declared := s.var v
  .array [v.toJson, .str declared.name, declared.owner.toJson, declared.kind.toJson]

def variablesToJson (s : Store) (vars : List VariableId) : Json :=
  .array (vars.map s.variableToJson)

/-- A body without its statements. -/
def bodyToJson (s : Store) (b : BodyId) : Json :=
  let body := s.body b
  .object [
    ("id", b.toJson),
    ("kind", body.kind.toJson),
    ("name", .str body.name),
    ("qualname", .str body.qualifiedName),
    ("provider", .ofOption BodyId.toJson body.provider),
    ("flags", body.flags.toJson),
    ("doc", .ofOption .str body.doc),
    ("parameters", .ofOption (fun signature => .str signature.text) body.signature),
    ("defaulted", .ofOption (fun signature => .strings signature.defaulted) body.signature),
    ("location", body.location.toPair),
    ("module", .ofOption ModuleInfo.toJson body.info),
    ("nonlocals",
      .array (body.nonlocals.map fun declaration =>
        .array [.str declaration.name, declaration.location.toPair])),
    ("globals", .strings body.globals),
    ("variables", s.variablesToJson body.visible),
    ("temps", s.variablesToJson body.temporaries),
    ("code_object", .ofOption CodeObject.toJson (body.code.bind Block.frame))]

/-- The statements of a body, and whether control never goes past them. -/
def codeToJson (s : Store) (b : BodyId) : Json :=
  let body := s.body b
  .object [
    ("qualname", .str body.qualifiedName),
    ("aborting", .ofOption (fun code => .bool code.aborts) body.code),
    ("statements", .ofOption Block.toJson body.code)]

end Store

end IR

end DefinitionLowering
