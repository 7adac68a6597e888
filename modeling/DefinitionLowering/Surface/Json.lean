import DefinitionLowering.Json
import DefinitionLowering.Surface.Tree

/-!
# The JSON form of the surface tree

Structures are objects with all their fields, alternatives are tagged, absent parts are null.
Reading also accepts a missing field for an absent part and ignores unknown fields.

`toJson` recurs on the tree. The readers recur on a bound for the depth of the value, which
`ofJson?` takes from the value itself: every node of a tree is written at least one level
deeper than the node that holds it.
-/

namespace DefinitionLowering

namespace Location

def toJson (l : Location) : Json :=
  .object [("line", .ofNat l.line.toNat), ("column", .ofNat l.column.toNat)]

def ofJson? (json : Json) : Option Location := do
  let line ← (← json.field? "line").word32?
  let column ← (← json.field? "column").word32?
  return ⟨line, column⟩

end Location

namespace FutureFlags

def toJson (flags : FutureFlags) : Json :=
  .object [
    ("division", .bool flags.division),
    ("absolute_import", .bool flags.absoluteImport),
    ("unicode_literals", .bool flags.unicodeLiterals),
    ("generator_stop", .bool flags.generatorStop),
    ("annotations", .bool flags.annotations)]

def ofJson? (json : Json) : Option FutureFlags := do
  let division ← (← json.field? "division").bool?
  let absoluteImport ← (← json.field? "absolute_import").bool?
  let unicodeLiterals ← (← json.field? "unicode_literals").bool?
  let generatorStop ← (← json.field? "generator_stop").bool?
  let annotations ← (← json.field? "annotations").bool?
  return ⟨division, absoluteImport, unicodeLiterals, generatorStop, annotations⟩

end FutureFlags

namespace Constant

def toJson : Constant → Json
  | .none => .str "None"
  | .bool value => .tagged "Bool" (.bool value)
  | .int value => .tagged "Int" (.int value.toInt)
  | .str value => .tagged "Str" (.str value)

def ofJson? (json : Json) : Option Constant := do
  match ← json.variant? with
  | ("None", Option.none) | ("None", some .null) => return .none
  | ("Bool", some data) => return .bool (← data.bool?)
  | ("Int", some data) => return .int (← data.int64?)
  | ("Str", some data) => return .str (← data.str?)
  | _ => Option.none

end Constant

namespace BinaryOperator

def tag : BinaryOperator → String
  | .add => "Add"
  | .sub => "Sub"
  | .mul => "Mul"
  | .div => "Div"
  | .mod => "Mod"

def ofTag? : String → Option BinaryOperator
  | "Add" => some .add
  | "Sub" => some .sub
  | "Mul" => some .mul
  | "Div" => some .div
  | "Mod" => some .mod
  | _ => none

def toJson (op : BinaryOperator) : Json :=
  .str op.tag

def ofJson? (json : Json) : Option BinaryOperator :=
  json.unitVariant?.bind ofTag?

end BinaryOperator

namespace Surface

/-! ## Writing -/

mutual

def Expr.toJson : Expr → Json
  | .name id => .tagged "Name" (.str id)
  | .constant value => .tagged "Constant" value.toJson
  | .call callee args =>
    .tagged "Call" (.object [("func", callee.toJson), ("args", .array (exprsToJson args))])
  | .binary left op right =>
    .tagged "BinOp"
      (.object [("left", left.toJson), ("op", op.toJson), ("right", right.toJson)])
  | .attribute value name =>
    .tagged "Attribute" (.object [("value", value.toJson), ("attr", .str name)])
  | .tuple items => .tagged "Tuple" (.array (exprsToJson items))
  | .yield value => .tagged "Yield" (exprOrNull value)
  | .yieldFrom value => .tagged "YieldFrom" value.toJson
  | .await value => .tagged "Await" value.toJson
  | .lambda definition => .tagged "Lambda" definition.toJson

def exprsToJson : List Expr → List Json
  | [] => []
  | first :: rest => first.toJson :: exprsToJson rest

def exprOrNull : Option Expr → Json
  | none => .null
  | some value => value.toJson

def exprsOrNulls : List (Option Expr) → List Json
  | [] => []
  | first :: rest => exprOrNull first :: exprsOrNulls rest

def Lambda.toJson : Lambda → Json
  | ⟨params, body, location⟩ =>
    .object [("args", params.toJson), ("body", body.toJson), ("location", location.toJson)]

def Params.toJson : Params → Json
  | ⟨positional, defaults, star, keywordOnly, keywordDefaults, doubleStar⟩ =>
    .object [
      ("args", .array (patternsToJson positional)),
      ("defaults", .array (exprsToJson defaults)),
      ("vararg", paramOrNull star),
      ("kwonlyargs", .array (paramsToJson keywordOnly)),
      ("kw_defaults", .array (exprsOrNulls keywordDefaults)),
      ("kwarg", paramOrNull doubleStar)]

def Pattern.toJson : Pattern → Json
  | .name param => .tagged "Arg" param.toJson
  | .tuple elements => .tagged "Tuple" (.array (patternsToJson elements))

def patternsToJson : List Pattern → List Json
  | [] => []
  | first :: rest => first.toJson :: patternsToJson rest

def Param.toJson : Param → Json
  | ⟨name, hint⟩ => .object [("name", .str name), ("annotation", exprOrNull hint)]

def paramOrNull : Option Param → Json
  | none => .null
  | some param => param.toJson

def paramsToJson : List Param → List Json
  | [] => []
  | first :: rest => first.toJson :: paramsToJson rest

end

mutual

def Stmt.toJson : Stmt → Json
  | ⟨kind, location⟩ => .object [("kind", kind.toJson), ("location", location.toJson)]

def stmtsToJson : List Stmt → List Json
  | [] => []
  | first :: rest => first.toJson :: stmtsToJson rest

def StmtKind.toJson : StmtKind → Json
  | .expr value => .tagged "Expr" value.toJson
  | .assign target value =>
    .tagged "Assign" (.object [("target", .str target), ("value", value.toJson)])
  | .pass => .str "Pass"
  | .ret value => .tagged "Return" (exprOrNull value)
  | .raise value => .tagged "Raise" (exprOrNull value)
  | .branch test body orelse =>
    .tagged "If"
      (.object [
        ("test", test.toJson),
        ("body", .array (stmtsToJson body)),
        ("orelse", .array (stmtsToJson orelse))])
  | .loop test body =>
    .tagged "While" (.object [("test", test.toJson), ("body", .array (stmtsToJson body))])
  | .global names => .tagged "Global" (.strings names)
  | .nonlocal names => .tagged "Nonlocal" (.strings names)
  | .define definition => .tagged "FunctionDef" definition.toJson
  | .defineClass definition => .tagged "ClassDef" definition.toJson

def Def.toJson : Def → Json
  | ⟨name, params, body, decorators, returns, isAsync, location⟩ =>
    .object [
      ("name", .str name),
      ("args", params.toJson),
      ("body", .array (stmtsToJson body)),
      ("decorators", .array (exprsToJson decorators)),
      ("returns", exprOrNull returns),
      ("is_async", .bool isAsync),
      ("location", location.toJson)]

def ClassDef.toJson : ClassDef → Json
  | ⟨name, bases, body, decorators, location⟩ =>
    .object [
      ("name", .str name),
      ("bases", .array (exprsToJson bases)),
      ("body", .array (stmtsToJson body)),
      ("decorators", .array (exprsToJson decorators)),
      ("location", location.toJson)]

end

def Module.toJson (m : Module) : Json :=
  .object [
    ("name", .str m.name),
    ("filename", .str m.filename),
    ("future", m.future.toJson),
    ("body", .array (stmtsToJson m.body))]

/-! ## Reading -/

mutual

/-- Reads an expression written with at most the given depth. -/
def Expr.ofJsonWithin? : Nat → Json → Option Expr
  | 0, _ => none
  | depth + 1, json => do
    match ← json.variant? with
    | ("Name", some data) => return .name (← data.str?)
    | ("Constant", some data) => return .constant (← Constant.ofJson? data)
    | ("Call", some data) =>
      let callee ← Expr.ofJsonWithin? depth (← data.field? "func")
      let args ← (← data.field? "args").list? (Expr.ofJsonWithin? depth)
      return .call callee args
    | ("BinOp", some data) =>
      let left ← Expr.ofJsonWithin? depth (← data.field? "left")
      let op ← BinaryOperator.ofJson? (← data.field? "op")
      let right ← Expr.ofJsonWithin? depth (← data.field? "right")
      return .binary left op right
    | ("Attribute", some data) =>
      let value ← Expr.ofJsonWithin? depth (← data.field? "value")
      let name ← (← data.field? "attr").str?
      return .attribute value name
    | ("Tuple", some data) => return .tuple (← data.list? (Expr.ofJsonWithin? depth))
    | ("Yield", some data) => return .yield (← data.nullable? (Expr.ofJsonWithin? depth))
    | ("YieldFrom", some data) => return .yieldFrom (← Expr.ofJsonWithin? depth data)
    | ("Await", some data) => return .await (← Expr.ofJsonWithin? depth data)
    | ("Lambda", some data) => return .lambda (← Lambda.ofJsonWithin? depth data)
    | _ => none

def Lambda.ofJsonWithin? : Nat → Json → Option Lambda
  | 0, _ => none
  | depth + 1, json => do
    let params ← Params.ofJsonWithin? depth (← json.field? "args")
    let body ← Expr.ofJsonWithin? depth (← json.field? "body")
    let location ← Location.ofJson? (← json.field? "location")
    return ⟨params, body, location⟩

def Params.ofJsonWithin? : Nat → Json → Option Params
  | 0, _ => none
  | depth + 1, json => do
    let positional ← (← json.field? "args").list? (Pattern.ofJsonWithin? depth)
    let defaults ← (← json.field? "defaults").list? (Expr.ofJsonWithin? depth)
    let star ← json.optionalField? (Param.ofJsonWithin? depth) "vararg"
    let keywordOnly ← (← json.field? "kwonlyargs").list? (Param.ofJsonWithin? depth)
    let keywordDefaults ←
      (← json.field? "kw_defaults").list? (Json.nullable? (Expr.ofJsonWithin? depth))
    let doubleStar ← json.optionalField? (Param.ofJsonWithin? depth) "kwarg"
    return ⟨positional, defaults, star, keywordOnly, keywordDefaults, doubleStar⟩

def Pattern.ofJsonWithin? : Nat → Json → Option Pattern
  | 0, _ => none
  | depth + 1, json => do
    match ← json.variant? with
    | ("Arg", some data) => return .name (← Param.ofJsonWithin? depth data)
    | ("Tuple", some data) => return .tuple (← data.list? (Pattern.ofJsonWithin? depth))
    | _ => none

def Param.ofJsonWithin? : Nat → Json → Option Param
  | 0, _ => none
  | depth + 1, json => do
    let name ← (← json.field? "name").str?
    let hint ← json.optionalField? (Expr.ofJsonWithin? depth) "annotation"
    return ⟨name, hint⟩

end

mutual

/-- Reads a statement written with at most the given depth. -/
def Stmt.ofJsonWithin? : Nat → Json → Option Stmt
  | 0, _ => none
  | depth + 1, json => do
    let kind ← StmtKind.ofJsonWithin? depth (← json.field? "kind")
    let location ← Location.ofJson? (← json.field? "location")
    return ⟨kind, location⟩

def StmtKind.ofJsonWithin? : Nat → Json → Option StmtKind
  | 0, _ => none
  | depth + 1, json => do
    match ← json.variant? with
    | ("Expr", some data) => return .expr (← Expr.ofJsonWithin? depth data)
    | ("Assign", some data) =>
      let target ← (← data.field? "target").str?
      let value ← Expr.ofJsonWithin? depth (← data.field? "value")
      return .assign target value
    | ("Pass", none) | ("Pass", some .null) => return .pass
    | ("Return", some data) => return .ret (← data.nullable? (Expr.ofJsonWithin? depth))
    | ("Raise", some data) => return .raise (← data.nullable? (Expr.ofJsonWithin? depth))
    | ("If", some data) =>
      let test ← Expr.ofJsonWithin? depth (← data.field? "test")
      let body ← (← data.field? "body").list? (Stmt.ofJsonWithin? depth)
      let orelse ← (← data.field? "orelse").list? (Stmt.ofJsonWithin? depth)
      return .branch test body orelse
    | ("While", some data) =>
      let test ← Expr.ofJsonWithin? depth (← data.field? "test")
      let body ← (← data.field? "body").list? (Stmt.ofJsonWithin? depth)
      return .loop test body
    | ("Global", some data) => return .global (← data.list? Json.str?)
    | ("Nonlocal", some data) => return .nonlocal (← data.list? Json.str?)
    | ("FunctionDef", some data) => return .define (← Def.ofJsonWithin? depth data)
    | ("ClassDef", some data) => return .defineClass (← ClassDef.ofJsonWithin? depth data)
    | _ => none

def Def.ofJsonWithin? : Nat → Json → Option Def
  | 0, _ => none
  | depth + 1, json => do
    let name ← (← json.field? "name").str?
    let params ← Params.ofJsonWithin? depth (← json.field? "args")
    let body ← (← json.field? "body").list? (Stmt.ofJsonWithin? depth)
    let decorators ← (← json.field? "decorators").list? (Expr.ofJsonWithin? depth)
    let returns ← json.optionalField? (Expr.ofJsonWithin? depth) "returns"
    let isAsync ← (← json.field? "is_async").bool?
    let location ← Location.ofJson? (← json.field? "location")
    return ⟨name, params, body, decorators, returns, isAsync, location⟩

def ClassDef.ofJsonWithin? : Nat → Json → Option ClassDef
  | 0, _ => none
  | depth + 1, json => do
    let name ← (← json.field? "name").str?
    let bases ← (← json.field? "bases").list? (Expr.ofJsonWithin? depth)
    let body ← (← json.field? "body").list? (Stmt.ofJsonWithin? depth)
    let decorators ← (← json.field? "decorators").list? (Expr.ofJsonWithin? depth)
    let location ← Location.ofJson? (← json.field? "location")
    return ⟨name, bases, body, decorators, location⟩

end

def Expr.ofJson? (json : Json) : Option Expr :=
  Expr.ofJsonWithin? (json.depth + 1) json

def Lambda.ofJson? (json : Json) : Option Lambda :=
  Lambda.ofJsonWithin? (json.depth + 1) json

def Params.ofJson? (json : Json) : Option Params :=
  Params.ofJsonWithin? (json.depth + 1) json

def Pattern.ofJson? (json : Json) : Option Pattern :=
  Pattern.ofJsonWithin? (json.depth + 1) json

def Stmt.ofJson? (json : Json) : Option Stmt :=
  Stmt.ofJsonWithin? (json.depth + 1) json

def Def.ofJson? (json : Json) : Option Def :=
  Def.ofJsonWithin? (json.depth + 1) json

def ClassDef.ofJson? (json : Json) : Option ClassDef :=
  ClassDef.ofJsonWithin? (json.depth + 1) json

def Module.ofJson? (json : Json) : Option Module := do
  let name ← (← json.field? "name").str?
  let filename ← (← json.field? "filename").str?
  let future ← FutureFlags.ofJson? (← json.field? "future")
  let body ← (← json.field? "body").list? Stmt.ofJson?
  return ⟨name, filename, future, body⟩

end Surface

end DefinitionLowering
