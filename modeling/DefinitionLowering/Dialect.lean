import DefinitionLowering.Kind

/-!
# Language dialects

What differs between revisions of the language is a value, `Dialect`: whether keyword-only
parameters and annotations exist, how annotation keys are spelled, and which decorators the
runtime applies by itself. `modern` is the default and `legacy` the oldest revision.
-/

namespace DefinitionLowering

/-- In a scope of the given kind, a definition of the given name gets the decorator even if
it is not written. -/
structure ImplicitDecorator where
  method : String
  scope : ScopeKind
  decorator : String
  deriving DecidableEq, Repr, Inhabited

structure Dialect where
  /-- Whether a parameter may be keyword-only. -/
  keywordOnly : Bool
  /-- Whether annotations are recorded. -/
  annotations : Bool
  /-- Whether the keys of recorded annotations are class-private names. -/
  privateAnnotationKeys : Bool
  implicitDecorators : List ImplicitDecorator
  deriving DecidableEq, Repr

namespace Dialect

def modern : Dialect where
  keywordOnly := true
  annotations := true
  privateAnnotationKeys := true
  implicitDecorators :=
    [⟨"__new__", .classScope, "staticmethod"⟩,
     ⟨"__init_subclass__", .classScope, "classmethod"⟩]

def legacy : Dialect where
  keywordOnly := false
  annotations := false
  privateAnnotationKeys := false
  implicitDecorators := [⟨"__new__", .classScope, "staticmethod"⟩]

instance : Inhabited Dialect := ⟨modern⟩

/-- The decorators that a definition gets by itself, in the order of the rules. -/
def decoratorsFor (dialect : Dialect) (name : String) (scope : ScopeKind) : List String :=
  (dialect.implicitDecorators.filter fun rule => rule.method == name && rule.scope == scope).map
    ImplicitDecorator.decorator

end Dialect

end DefinitionLowering
