import DefinitionLowering.IR.Store

/-!
# Listings

The text form of lowered code. A listing is a list of lines, each with its level of nesting;
`Line.render` indents two spaces per level. A header line, which ends in a colon, is followed
by its block one level deeper, and an empty or absent block is listed as `pass`.

Temporaries have a dollar sign before their name, and a body is mentioned by its qualified
name after an at sign.
-/

namespace DefinitionLowering.IR

/-! ## Lines -/

structure Line where
  level : Nat
  text : String
  deriving DecidableEq, Repr, Inhabited

def Line.render (line : Line) : String :=
  String.join (List.replicate line.level "  ") ++ line.text ++ "\n"

def renderLines (lines : List Line) : String :=
  String.join (lines.map Line.render)

/-! ## Expressions -/

namespace Store

def variableText (s : Store) (v : VariableId) : String :=
  if (s.var v).kind == .temporary then "$" ++ (s.var v).name else (s.var v).name

def bodyText (s : Store) (b : BodyId) : String :=
  "@" ++ (s.body b).qualifiedName

end Store

/-- Items between parentheses; a single item is followed by a comma. -/
def tupleText (items : List String) : String :=
  match items with
  | [item] => "(" ++ item ++ ",)"
  | _ => "(" ++ ", ".intercalate items ++ ")"

/-- Entries of a mapping between braces, up to the end of the shorter list. -/
def mappingText (keys values : List String) : String :=
  "\x7b" ++ ", ".intercalate (List.zipWith (fun key value => "'" ++ key ++ "': " ++ value) keys
    values) ++ "\x7d"

/-- The function that manufactures an object of a kind. -/
def makerText : ObjectKind → String
  | .generator => "make_generator"
  | .coroutine => "make_coroutine"
  | .asyncGenerator => "make_asyncgen"

mutual

def Expr.text (s : Store) : Expr → String
  | .constant value => value.text
  | .constantMapping entries =>
    mappingText (entries.map Prod.fst) (entries.map fun entry => entry.2.text)
  | .var id => s.variableText id
  | .freeName name => name
  | .builtin name => "builtin." ++ name
  | .call callee args => callee.text s ++ "(" ++ ", ".intercalate (exprTexts s args) ++ ")"
  | .binary left op right =>
    "(" ++ left.text s ++ " " ++ op.symbol ++ " " ++ right.text s ++ ")"
  | .attribute value name => value.text s ++ "." ++ name
  | .tuple items => tupleText (exprTexts s items)
  | .mapping keys values => mappingText keys (exprTexts s values)
  | .yield none => "(yield)"
  | .yield (some value) => "(yield " ++ value.text s ++ ")"
  | .yieldFrom value => "(yield from " ++ value.text s ++ ")"
  | .await value => "(await " ++ value.text s ++ ")"
  | .makeFunction body _ defaults keywordDefaults annotations =>
    "make_function(" ++ s.bodyText body ++
      (if defaults.isEmpty then "" else ", defaults=" ++ tupleText (exprTexts s defaults)) ++
      partText s ", kw_defaults=" keywordDefaults ++
      partText s ", annotations=" annotations ++ ")"
  | .callFunction function values =>
    function.text s ++ "(" ++ ", ".intercalate (exprTexts s values) ++ ")"
  | .makeObject kind body _ => makerText kind ++ "(" ++ s.bodyText body ++ ")"
  | .makeClass body bases =>
    "make_class(" ++ s.bodyText body ++
      (if bases.isEmpty then "" else ", bases=" ++ tupleText (exprTexts s bases)) ++ ")"
  | .iterator value => "iter(" ++ value.text s ++ ")"
  | .unpack source count expected =>
    "unpack(" ++ source.text s ++ ", " ++ count.repr ++ ", " ++ expected.repr ++ ")"

def exprTexts (s : Store) : List Expr → List String
  | [] => []
  | first :: rest => first.text s :: exprTexts s rest

/-- An optional part with the words that announce it. -/
def partText (s : Store) (label : String) : Option Expr → String
  | none => ""
  | some value => label ++ value.text s

end

/-! ## Statements -/

mutual

def Stmt.lines (s : Store) (level : Nat) : Stmt → List Line
  | .assignVariable target source => [⟨level, s.variableText target ++ " = " ++ source.text s⟩]
  | .assignName target source => [⟨level, target ++ " := " ++ source.text s⟩]
  | .expr value => [⟨level, value.text s⟩]
  | .ret value => [⟨level, "return " ++ value.text s⟩]
  | .retNone => [⟨level, "return None"⟩]
  | .objectRet value => [⟨level, "generator_return " ++ value.text s⟩]
  | .objectRetNone => [⟨level, "generator_return None"⟩]
  | .raise none => [⟨level, "raise"⟩]
  | .raise (some value) => [⟨level, "raise " ++ value.text s⟩]
  | .release target => [⟨level, "release " ++ s.variableText target⟩]
  | .checkExhausted iterator count =>
    [⟨level, "check_exhausted(" ++ iterator.text s ++ ", " ++ count.repr ++ ")"⟩]
  | .tryFinally tried cleanup =>
    ⟨level, "try:"⟩ :: tried.lines s (level + 1) ++
      ⟨level, "finally:"⟩ :: cleanup.lines s (level + 1)
  | .branch condition yes no =>
    ⟨level, "if " ++ condition.text s ++ ":"⟩ :: blockLines s (level + 1) yes ++
      elseLines s level no
  | .loop condition body =>
    ⟨level, "while " ++ condition.text s ++ ":"⟩ :: blockLines s (level + 1) body

def Block.lines (s : Store) (level : Nat) : Block → List Line
  | ⟨[], none⟩ => [⟨level, "pass"⟩]
  | ⟨statements, none⟩ => stmtLines s level statements
  | ⟨[], some code⟩ => [⟨level, "frame " ++ code.name ++ ":"⟩, ⟨level + 1, "pass"⟩]
  | ⟨statements, some code⟩ =>
    ⟨level, "frame " ++ code.name ++ ":"⟩ :: stmtLines s (level + 1) statements

def stmtLines (s : Store) (level : Nat) : List Stmt → List Line
  | [] => []
  | first :: rest => first.lines s level ++ stmtLines s level rest

/-- A block that is listed as `pass` when it is absent. -/
def blockLines (s : Store) (level : Nat) : Option Block → List Line
  | none => [⟨level, "pass"⟩]
  | some block => block.lines s level

/-- The second branch of a conditional, which is not listed when it is absent. -/
def elseLines (s : Store) (level : Nat) : Option Block → List Line
  | none => []
  | some block => ⟨level, "else:"⟩ :: block.lines s (level + 1)

end

def Stmt.text (s : Store) (statement : Stmt) : String :=
  renderLines (statement.lines s 0)

/-! ## Bodies -/

namespace Store

def signatureText (s : Store) (b : BodyId) : String :=
  match (s.body b).signature with
  | none => ""
  | some signature => signature.text

/-- The first line of a body: its kind and name. -/
def headerText (s : Store) (b : BodyId) : String :=
  let body := s.body b
  match body.kind with
  | .moduleBody => "module " ++ body.name ++ ":"
  | .classBody => "class " ++ body.qualifiedName ++ ":"
  | .function => "function " ++ body.qualifiedName ++ "(" ++ s.signatureText b ++ "):"
  | .callable .generator => "generator " ++ body.qualifiedName ++ ":"
  | .callable .coroutine => "coroutine " ++ body.qualifiedName ++ ":"
  | .callable .asyncGenerator => "asyncgen " ++ body.qualifiedName ++ ":"

def docLines (s : Store) (b : BodyId) : List Line :=
  match (s.body b).doc with
  | none => []
  | some doc => [⟨1, "\"\"\"" ++ doc ++ "\"\"\""⟩]

def codeLines (s : Store) (b : BodyId) : List Line :=
  match (s.body b).code with
  | none => [⟨1, "<unset>"⟩]
  | some code => code.lines s 1

def bodyLines (s : Store) (b : BodyId) : List Line :=
  ⟨0, s.headerText b⟩ :: s.docLines b ++ s.codeLines b

/-- The listing of one body. -/
def listBody (s : Store) (b : BodyId) : String :=
  renderLines (s.bodyLines b)

/-- The listing of all bodies, with an empty line between two of them. -/
def list (s : Store) : String :=
  "\n".intercalate (s.bodyIds.map s.listBody)

end Store

end DefinitionLowering.IR
