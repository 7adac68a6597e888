import DefinitionLowering.Location
import DefinitionLowering.Constant

/-!
# The surface tree

The shape a parser hands over. Nothing in it is checked: a parameter list may repeat a name,
a `return` may stand in a class body, and a positional parameter may be a tuple pattern.

Expressions and parameter lists are mutually recursive because a lambda holds a parameter
list; statements come on top of them. `undocumented` takes the leading documentation string
off a body, and `Pattern.leaves` lists the named parameters inside a pattern from left to
right.
-/

namespace DefinitionLowering.Surface

mutual

inductive Expr where
  | name (id : String)
  | constant (value : Constant)
  | call (callee : Expr) (args : List Expr)
  | binary (left : Expr) (op : BinaryOperator) (right : Expr)
  | attribute (value : Expr) (name : String)
  | tuple (items : List Expr)
  | yield (value : Option Expr)
  | yieldFrom (value : Expr)
  | await (value : Expr)
  | lambda (definition : Lambda)

/-- An anonymous function: its body is one expression. -/
structure Lambda where
  params : Params
  body : Expr
  location : Location

/-- The parameter list of a definition. `defaults` belong to the last positional parameters,
`keywordDefaults` to the keyword-only parameters one by one, `none` marking a required one. -/
structure Params where
  positional : List Pattern
  defaults : List Expr
  star : Option Param
  keywordOnly : List Param
  keywordDefaults : List (Option Expr)
  doubleStar : Option Param

/-- A positional parameter: one name, or a tuple that is taken apart on entry. -/
inductive Pattern where
  | name (param : Param)
  | tuple (elements : List Pattern)

/-- A named parameter. Its hint is the annotation written behind the name. -/
structure Param where
  name : String
  hint : Option Expr

end

mutual

structure Stmt where
  kind : StmtKind
  location : Location

inductive StmtKind where
  | expr (value : Expr)
  | assign (target : String) (value : Expr)
  | pass
  | ret (value : Option Expr)
  | raise (value : Option Expr)
  | branch (test : Expr) (body : List Stmt) (orelse : List Stmt)
  | loop (test : Expr) (body : List Stmt)
  | global (names : List String)
  | nonlocal (names : List String)
  | define (definition : Def)
  | defineClass (definition : ClassDef)

/-- A `def` or, if `isAsync`, an `async def`. The first decorator is the topmost one. -/
structure Def where
  name : String
  params : Params
  body : List Stmt
  decorators : List Expr
  returns : Option Expr
  isAsync : Bool
  location : Location

structure ClassDef where
  name : String
  bases : List Expr
  body : List Stmt
  decorators : List Expr
  location : Location

end

structure Module where
  name : String
  filename : String
  future : FutureFlags
  body : List Stmt

instance : Inhabited Expr := ⟨.constant .none⟩
instance : Inhabited Stmt := ⟨⟨.pass, .unknown⟩⟩

/-- The text of a statement that is nothing but a string constant. -/
def Stmt.docstring? : Stmt → Option String
  | ⟨.expr (.constant (.str doc)), _⟩ => some doc
  | _ => none

/-- The documentation string of a body, if its first statement is one. -/
def docstring? : List Stmt → Option String
  | [] => none
  | first :: _ => first.docstring?

/-- The statements of a body without its documentation string. -/
def undocumented : List Stmt → List Stmt
  | [] => []
  | first :: rest => if first.docstring?.isSome then rest else first :: rest

mutual

/-- The named parameters of a pattern, from left to right. -/
def Pattern.leaves : Pattern → List Param
  | .name param => [param]
  | .tuple elements => patternLeaves elements

/-- The named parameters of a list of patterns, from left to right. -/
def patternLeaves : List Pattern → List Param
  | [] => []
  | first :: rest => first.leaves ++ patternLeaves rest

end

theorem patternLeaves_eq_flatMap (patterns : List Pattern) :
    patternLeaves patterns = patterns.flatMap Pattern.leaves := by
  induction patterns with
  | nil => rfl
  | cons first rest ih => simp [patternLeaves, ih]

def Pattern.leafNames (pattern : Pattern) : List String :=
  pattern.leaves.map Param.name

def Pattern.isTuple : Pattern → Bool
  | .name _ => false
  | .tuple _ => true

/-- All named parameters that are not positional: star, keyword-only, double star. -/
def Params.named (params : Params) : List Param :=
  params.star.toList ++ params.keywordOnly ++ params.doubleStar.toList

end DefinitionLowering.Surface
