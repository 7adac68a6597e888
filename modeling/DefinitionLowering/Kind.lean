/-!
# Kinds of scopes, callables and bodies

A callable is a plain function or it manufactures a suspended object when called. A body is
the code of a module, a class or a callable; the body of a suspended object is a body of its
own. `ScopeKind` is the coarser view that decorator rules use.
-/

namespace DefinitionLowering

/-- The objects that a call of a suspending callable manufactures. -/
inductive ObjectKind where
  | generator
  | coroutine
  | asyncGenerator
  deriving DecidableEq, Repr, Inhabited

/-- What a call does: run the code, or manufacture a suspended object. -/
inductive CallableKind where
  | function
  | suspended (object : ObjectKind)
  deriving DecidableEq, Repr, Inhabited

namespace CallableKind

@[match_pattern] abbrev generator : CallableKind := .suspended .generator
@[match_pattern] abbrev coroutine : CallableKind := .suspended .coroutine
@[match_pattern] abbrev asyncGenerator : CallableKind := .suspended .asyncGenerator

/-- The object that a call manufactures, if it does. -/
def object? : CallableKind → Option ObjectKind
  | .function => none
  | .suspended object => some object

/-- Only `async def` gives coroutines and async generators. -/
def isAsync : CallableKind → Bool
  | .coroutine | .asyncGenerator => true
  | _ => false

def label : CallableKind → String
  | .function => "Function"
  | .generator => "Generator"
  | .coroutine => "Coroutine"
  | .asyncGenerator => "AsyncGenerator"

end CallableKind

/-- The scope that a definition stands in. -/
inductive ScopeKind where
  | moduleScope
  | classScope
  | functionScope
  deriving DecidableEq, Repr, Inhabited

/-- What a body is the code of. A callable that suspends has a body of kind `function`, which
manufactures the object, and one of the object's kind, which holds the statements. -/
inductive BodyKind where
  | moduleBody
  | classBody
  | callable (kind : CallableKind)
  deriving DecidableEq, Repr, Inhabited

namespace BodyKind

@[match_pattern] abbrev function : BodyKind := .callable .function

/-- Whether the body has local variables of its own that nested scopes see. -/
def isFunctionLike : BodyKind → Bool
  | .callable _ => true
  | _ => false

/-- Whether the body is the code of a suspended object. -/
def isObject : BodyKind → Bool
  | .callable (.suspended _) => true
  | _ => false

/-- Whether `await` may stand in the body. -/
def allowsAwait : BodyKind → Bool
  | .callable kind => kind.isAsync
  | _ => false

def scope : BodyKind → ScopeKind
  | .moduleBody => .moduleScope
  | .classBody => .classScope
  | .callable _ => .functionScope

end BodyKind

/-- What the code of a callable was seen to use. -/
structure Flags where
  usesSuper : Bool := false
  usesLocals : Bool := false
  hasYieldFrom : Bool := false
  deriving DecidableEq, Repr, Inhabited

end DefinitionLowering
