import DefinitionLowering.Kind
import DefinitionLowering.Surface.Tree

/-!
# Evidence of suspension

What the code of a callable shows about it: whether it yields, whether it delegates to another
generator, and whether it mentions `super` or calls `locals`. The evidence of a tree is the
union of the evidence of its parts.

Only what runs in the callable's own scope counts. The body of a nested definition, class or
lambda does not; its decorators, defaults, annotations and bases do, because the enclosing
scope evaluates them. `Classifier.suspension` turns a function that yields into a generator
and a coroutine that yields into an asynchronous generator.
-/

namespace DefinitionLowering.Surface

structure Evidence where
  yields : Bool := false
  flags : Flags := {}
  deriving DecidableEq, Repr, Inhabited

namespace Evidence

/-- No evidence of anything. -/
def nothing : Evidence := {}

/-- What at least one of two parts shows. -/
def union (a b : Evidence) : Evidence where
  yields := a.yields || b.yields
  flags :=
    { usesSuper := a.flags.usesSuper || b.flags.usesSuper
      usesLocals := a.flags.usesLocals || b.flags.usesLocals
      hasYieldFrom := a.flags.hasYieldFrom || b.flags.hasYieldFrom }

instance : Append Evidence := ⟨union⟩

/-- What a `yield` shows. -/
def ofYield : Evidence := { yields := true }

/-- What a `yield from` shows. -/
def ofYieldFrom : Evidence := { yields := true, flags := { hasYieldFrom := true } }

/-- What the mention of a name shows. -/
def ofName (name : String) : Evidence :=
  { flags := { usesSuper := name == "super" } }

/-- What calling an expression shows. -/
def ofCallee : Expr → Evidence
  | .name id => { flags := { usesLocals := id == "locals" } }
  | _ => nothing

end Evidence

mutual

def Expr.evidence : Expr → Evidence
  | .name id => .ofName id
  | .constant _ => .nothing
  | .call callee args => .ofCallee callee ++ callee.evidence ++ exprsEvidence args
  | .binary left _ right => left.evidence ++ right.evidence
  | .attribute value _ => value.evidence
  | .tuple items => exprsEvidence items
  | .yield value => .ofYield ++ optionEvidence value
  | .yieldFrom value => .ofYieldFrom ++ value.evidence
  | .await value => value.evidence
  | .lambda definition => definition.evidence

def exprsEvidence : List Expr → Evidence
  | [] => .nothing
  | first :: rest => first.evidence ++ exprsEvidence rest

def optionEvidence : Option Expr → Evidence
  | none => .nothing
  | some value => value.evidence

def optionsEvidence : List (Option Expr) → Evidence
  | [] => .nothing
  | first :: rest => optionEvidence first ++ optionsEvidence rest

/-- The scope around a lambda evaluates its parameter list only. -/
def Lambda.evidence : Lambda → Evidence
  | ⟨params, _, _⟩ => params.evidence

def Params.evidence : Params → Evidence
  | ⟨positional, defaults, star, keywordOnly, keywordDefaults, doubleStar⟩ =>
    exprsEvidence defaults ++ optionsEvidence keywordDefaults ++ patternsEvidence positional ++
      optionParamEvidence star ++ paramsEvidence keywordOnly ++ optionParamEvidence doubleStar

def Pattern.evidence : Pattern → Evidence
  | .name param => param.evidence
  | .tuple elements => patternsEvidence elements

def patternsEvidence : List Pattern → Evidence
  | [] => .nothing
  | first :: rest => first.evidence ++ patternsEvidence rest

def Param.evidence : Param → Evidence
  | ⟨_, hint⟩ => optionEvidence hint

def optionParamEvidence : Option Param → Evidence
  | none => .nothing
  | some param => param.evidence

def paramsEvidence : List Param → Evidence
  | [] => .nothing
  | first :: rest => first.evidence ++ paramsEvidence rest

end

/-- The scope around a definition evaluates its decorators, parameter list and annotation. -/
def Def.evidence (d : Def) : Evidence :=
  exprsEvidence d.decorators ++ d.params.evidence ++ optionEvidence d.returns

/-- The scope around a class evaluates its decorators and bases. -/
def ClassDef.evidence (d : ClassDef) : Evidence :=
  exprsEvidence d.decorators ++ exprsEvidence d.bases

mutual

def Stmt.evidence : Stmt → Evidence
  | ⟨kind, _⟩ => kind.evidence

def StmtKind.evidence : StmtKind → Evidence
  | .expr value | .assign _ value => value.evidence
  | .ret value | .raise value => optionEvidence value
  | .branch test body orelse =>
    test.evidence ++ stmtsEvidence body ++ stmtsEvidence orelse
  | .loop test body => test.evidence ++ stmtsEvidence body
  | .define definition => definition.evidence
  | .defineClass definition => definition.evidence
  | .pass | .global _ | .nonlocal _ => .nothing

def stmtsEvidence : List Stmt → Evidence
  | [] => .nothing
  | first :: rest => first.evidence ++ stmtsEvidence rest

end

/-! ## Classification -/

/-- Decides the kind and the flags of a callable from its statements. The given kind is that
of a callable which does not yield. -/
abbrev Classifier := List Stmt → CallableKind → CallableKind × Flags

/-- The kind of a callable that yields. -/
def yieldingKind : CallableKind → CallableKind
  | .function => .generator
  | .coroutine => .asyncGenerator
  | kind => kind

/-- The classifier that goes by the evidence. -/
def Classifier.suspension : Classifier := fun statements start =>
  let evidence := stmtsEvidence statements
  (if evidence.yields then yieldingKind start else start, evidence.flags)

/-- A callable that is no `async def` runs as a function or manufactures a generator. -/
theorem suspension_function (statements : List Stmt) :
    (Classifier.suspension statements .function).1 = .function ∨
      (Classifier.suspension statements .function).1 = .generator := by
  unfold Classifier.suspension
  dsimp only
  split
  · exact .inr rfl
  · exact .inl rfl

end DefinitionLowering.Surface
