import DefinitionLowering.Json
import DefinitionLowering.Dialect

/-!
# The JSON form of a dialect

A dialect is an object. A field that is missing takes its value in `Dialect.modern`; a field
that is null is refused.
-/

namespace DefinitionLowering

namespace ScopeKind

def tag : ScopeKind → String
  | .moduleScope => "module"
  | .classScope => "class"
  | .functionScope => "function"

def ofTag? : String → Option ScopeKind
  | "module" => some .moduleScope
  | "class" => some .classScope
  | "function" => some .functionScope
  | _ => none

def toJson (scope : ScopeKind) : Json :=
  .str scope.tag

def ofJson? (json : Json) : Option ScopeKind :=
  json.unitVariant?.bind ofTag?

end ScopeKind

namespace ImplicitDecorator

def toJson (rule : ImplicitDecorator) : Json :=
  .object [
    ("method_name", .str rule.method),
    ("scope", rule.scope.toJson),
    ("decorator", .str rule.decorator)]

def ofJson? (json : Json) : Option ImplicitDecorator := do
  let method ← (← json.field? "method_name").str?
  let scope ← ScopeKind.ofJson? (← json.field? "scope")
  let decorator ← (← json.field? "decorator").str?
  return ⟨method, scope, decorator⟩

end ImplicitDecorator

namespace Dialect

def toJson (dialect : Dialect) : Json :=
  .object [
    ("supports_keyword_only_args", .bool dialect.keywordOnly),
    ("supports_annotations", .bool dialect.annotations),
    ("mangle_annotation_names", .bool dialect.privateAnnotationKeys),
    ("implicit_decorators", .array (dialect.implicitDecorators.map ImplicitDecorator.toJson))]

def ofJson? (json : Json) : Option Dialect := do
  let keywordOnly ←
    json.fieldOr? Json.bool? modern.keywordOnly "supports_keyword_only_args"
  let annotations ← json.fieldOr? Json.bool? modern.annotations "supports_annotations"
  let privateAnnotationKeys ←
    json.fieldOr? Json.bool? modern.privateAnnotationKeys "mangle_annotation_names"
  let implicitDecorators ←
    json.fieldOr? (Json.list? ImplicitDecorator.ofJson?) modern.implicitDecorators
      "implicit_decorators"
  return ⟨keywordOnly, annotations, privateAnnotationKeys, implicitDecorators⟩

end Dialect

end DefinitionLowering
