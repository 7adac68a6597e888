import DefinitionLowering.Surface.Tree

/-!
# Declarations of a scope

What the statements of one scope say about its names: which are declared `global` or
`nonlocal`, and which are bound by an assignment, a definition or a class. Both branches of a
conditional and the bodies of loops belong to the scope; the bodies of nested definitions and
classes do not.
-/

namespace DefinitionLowering.Surface

inductive Declaration where
  | global (name : String) (location : Location)
  | nonlocal (name : String) (location : Location)
  | binding (name : String)
  deriving DecidableEq, Repr

mutual

/-- The declarations of a statement, in the order they are written. -/
def Stmt.declarations : Stmt → List Declaration
  | ⟨.global names, location⟩ => names.map fun name => .global name location
  | ⟨.nonlocal names, location⟩ => names.map fun name => .nonlocal name location
  | ⟨.assign target _, _⟩ => [.binding target]
  | ⟨.define definition, _⟩ => [.binding definition.name]
  | ⟨.defineClass definition, _⟩ => [.binding definition.name]
  | ⟨.branch _ body orelse, _⟩ => declarations body ++ declarations orelse
  | ⟨.loop _ body, _⟩ => declarations body
  | _ => []

/-- The declarations of a list of statements, in the order they are written. -/
def declarations : List Stmt → List Declaration
  | [] => []
  | first :: rest => first.declarations ++ declarations rest

end

namespace Declaration

def global? : Declaration → Option (String × Location)
  | .global name location => some (name, location)
  | _ => none

def nonlocal? : Declaration → Option (String × Location)
  | .nonlocal name location => some (name, location)
  | _ => none

def binding? : Declaration → Option String
  | .binding name => some name
  | _ => none

end Declaration

/-- The names declared global, each with the place of its declaration. -/
def globalNames (statements : List Stmt) : List (String × Location) :=
  (declarations statements).filterMap Declaration.global?

/-- The names declared nonlocal, each with the place of its declaration. -/
def nonlocalNames (statements : List Stmt) : List (String × Location) :=
  (declarations statements).filterMap Declaration.nonlocal?

/-- The names that are bound. -/
def boundNames (statements : List Stmt) : List String :=
  (declarations statements).filterMap Declaration.binding?

end DefinitionLowering.Surface
