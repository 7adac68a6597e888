import DefinitionLowering.Dialect
import DefinitionLowering.IR.Code

/-!
# Decorators

Lowered decorators are listed in the order of application: the one written next to the
definition comes first and is applied first. Decorators that the runtime applies by itself are
added at the end, unless a decorator of the same name is there already.
-/

namespace DefinitionLowering

open IR (Expr)

/-- Adds a builtin decorator unless the list refers to the name already. -/
def addDecorator (decorators : List Expr) (name : String) : List Expr :=
  if decorators.any (Expr.refersTo name) then decorators else decorators ++ [.builtin name]

/-- Adds the decorators that a definition called `name` gets by itself. -/
def Dialect.addImplicit (dialect : Dialect) (name : String) (scope : ScopeKind)
    (decorators : List Expr) : List Expr :=
  (dialect.decoratorsFor name scope).foldl addDecorator decorators

/-- Applies decorators to what a definition creates. -/
def decorate (decorators : List Expr) (created : Expr) : Expr :=
  decorators.foldl (fun value decorator => .call decorator [value]) created

end DefinitionLowering
