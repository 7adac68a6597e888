import DefinitionLowering.Constant
import DefinitionLowering.CodeObject

/-!
# Lowered code

Expressions, statements and blocks of the lowered form. Bodies and variables are mentioned by
number (`BodyId`, `VariableId`); the store says what they are.

A block that carries a code object is a frame: its statements run under that record.
`Stmt.aborts` and `Block.aborts` tell when control cannot go past a statement or a block.
`Expr.ofEntries` builds a mapping, which is a constant when all its values are.
-/

namespace DefinitionLowering.IR

/-- The number of a body. -/
structure BodyId where
  index : Nat
  deriving DecidableEq, Repr, Inhabited

/-- The number of a variable. -/
structure VariableId where
  index : Nat
  deriving DecidableEq, Repr, Inhabited

inductive Expr where
  | constant (value : Constant)
  /-- A mapping whose values are all constants. -/
  | constantMapping (entries : List (String × Constant))
  /-- A variable of this scope or of an enclosing one. -/
  | var (id : VariableId)
  /-- A name that is looked up at run time, in the module and among the builtins. -/
  | freeName (name : String)
  | builtin (name : String)
  | call (callee : Expr) (args : List Expr)
  | binary (left : Expr) (op : BinaryOperator) (right : Expr)
  | attribute (value : Expr) (name : String)
  | tuple (items : List Expr)
  /-- A mapping of the keys to the values at the same places. -/
  | mapping (keys : List String) (values : List Expr)
  | yield (value : Option Expr)
  | yieldFrom (value : Expr)
  | await (value : Expr)
  /-- Creates a function from a body. The defaults are in the order of the parameters. -/
  | makeFunction (body : BodyId) (code : CodeObject) (defaults : List Expr)
      (keywordDefaults : Option Expr) (annotations : Option Expr)
  /-- Calls a function that was created for this one call. -/
  | callFunction (function : Expr) (values : List Expr)
  /-- Manufactures a suspended object that runs a body. -/
  | makeObject (kind : ObjectKind) (body : BodyId) (code : CodeObject)
  | makeClass (body : BodyId) (bases : List Expr)
  /-- An iterator over a value. -/
  | iterator (value : Expr)
  /-- The next element of an iterator, the `count`-th of `expected`; raises if there is none. -/
  | unpack (source : Expr) (count expected : Nat)

mutual

inductive Stmt where
  | assignVariable (target : VariableId) (source : Expr)
  | assignName (target : String) (source : Expr)
  | expr (value : Expr)
  | ret (value : Expr)
  | retNone
  /-- The end of a suspended object with a result. -/
  | objectRet (value : Expr)
  | objectRetNone
  | raise (value : Option Expr)
  | release (target : VariableId)
  /-- Raises if the iterator still has an element after `count` of them. -/
  | checkExhausted (iterator : Expr) (count : Nat)
  | tryFinally (tried cleanup : Block)
  | branch (condition : Expr) (yes no : Option Block)
  | loop (condition : Expr) (body : Option Block)

structure Block where
  statements : List Stmt
  frame : Option CodeObject

end

instance : Inhabited Expr := ⟨.constant .none⟩
instance : Inhabited Stmt := ⟨.retNone⟩
instance : Inhabited Block := ⟨⟨[], none⟩⟩

/-! ## Expressions -/

namespace Expr

def constant? : Expr → Option Constant
  | .constant value => some value
  | _ => none

def isConstant : Expr → Bool
  | .constant _ | .constantMapping _ => true
  | _ => false

/-- The keys of a mapping. -/
def keys? : Expr → Option (List String)
  | .constantMapping entries => some (entries.map Prod.fst)
  | .mapping keys _ => some keys
  | _ => none

/-- The entries as constants, if all values are. -/
def constantEntries? (entries : List (String × Expr)) : Option (List (String × Constant)) :=
  entries.mapM fun entry => entry.2.constant?.map fun value => (entry.1, value)

/-- The mapping with the given entries: a constant if all values are constants. -/
def ofEntries (entries : List (String × Expr)) : Expr :=
  match constantEntries? entries with
  | some constants => .constantMapping constants
  | none => .mapping (entries.map Prod.fst) (entries.map Prod.snd)

theorem constantEntries?_keys {entries : List (String × Expr)}
    {constants : List (String × Constant)} (h : constantEntries? entries = some constants) :
    constants.map Prod.fst = entries.map Prod.fst := by
  induction entries generalizing constants with
  | nil =>
    simp [constantEntries?] at h
    simp [h]
  | cons entry rest ih =>
    simp only [constantEntries?, List.mapM_cons, Option.bind_eq_bind, Option.bind_eq_some_iff,
      Option.map_eq_some_iff] at h
    obtain ⟨first, ⟨value, _, rfl⟩, constantRest, hrest, heq⟩ := h
    cases heq
    simp [ih hrest]

/-- A mapping has the keys of its entries, whether it is a constant or not. -/
@[simp] theorem keys?_ofEntries (entries : List (String × Expr)) :
    (ofEntries entries).keys? = some (entries.map Prod.fst) := by
  unfold ofEntries
  split
  · rename_i constants h
    simp [keys?, constantEntries?_keys h]
  · rfl

/-- Whether the expression is a plain reference to the given name. -/
def refersTo (name : String) : Expr → Bool
  | .freeName n | .builtin n => n == name
  | _ => false

end Expr

/-! ## Blocks and statements -/

namespace Block

def ofStatements (statements : List Stmt) : Block :=
  ⟨statements, none⟩

def single (statement : Stmt) : Block :=
  ⟨[statement], none⟩

def ofFrame (code : CodeObject) (statements : List Stmt) : Block :=
  ⟨statements, some code⟩

def isFrame (block : Block) : Bool :=
  block.frame.isSome

def isEmpty (block : Block) : Bool :=
  block.statements.isEmpty

def push (block : Block) (statement : Stmt) : Block :=
  { block with statements := block.statements ++ [statement] }

/-- The block of the statements, absent when there are none. -/
def ofNonempty? (statements : List Stmt) : Option Block :=
  if statements.isEmpty then none else some (ofStatements statements)

end Block

/-- The value that a statement binds. -/
def Stmt.assignedSource? : Stmt → Option Expr
  | .assignVariable _ source | .assignName _ source => some source
  | _ => none

mutual

/-- Whether control never goes on after the statement. -/
def Stmt.aborts : Stmt → Bool
  | .ret _ | .retNone | .objectRet _ | .objectRetNone | .raise _ => true
  | .tryFinally tried cleanup => tried.aborts || cleanup.aborts
  | .branch _ (some yes) (some no) => yes.aborts && no.aborts
  | _ => false

/-- Whether control never goes past the block. -/
def Block.aborts : Block → Bool
  | ⟨statements, _⟩ => anyAborts statements

def anyAborts : List Stmt → Bool
  | [] => false
  | first :: rest => first.aborts || anyAborts rest

end

theorem anyAborts_eq_any (statements : List Stmt) :
    anyAborts statements = statements.any Stmt.aborts := by
  induction statements with
  | nil => rfl
  | cons first rest ih => simp [anyAborts, ih]

/-- The block with a last statement added, unless control cannot reach it. -/
def Block.closeWith (terminal : Stmt) : Option Block → Block
  | none => .single terminal
  | some block => if block.aborts then block else block.push terminal

theorem Block.aborts_closeWith {terminal : Stmt} (h : terminal.aborts = true)
    (block : Option Block) : (Block.closeWith terminal block).aborts = true := by
  cases block with
  | none => simp [Block.closeWith, Block.single, Block.aborts, anyAborts, h]
  | some block =>
    simp only [Block.closeWith]
    split
    · assumption
    · simp [Block.push, Block.aborts, anyAborts_eq_any, h]

end DefinitionLowering.IR
