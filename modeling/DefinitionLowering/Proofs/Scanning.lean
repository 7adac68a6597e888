import DefinitionLowering.Proofs.Steps

/-!
# What a classifier scans

A classifier that goes by the evidence scans all that stands in the scope of a callable.  Main
result: `stmtsEvidence_eq`.  The evidence is that of the steps the code takes, and that of what is
written in the scope but never evaluated there (`ignored`): annotations of lambdas, annotations in
a dialect without them, and defaults of keyword-only parameters beyond the last parameter.
-/

namespace DefinitionLowering.Surface

open Lowering (annotationsOf)

/-! ## Joining evidence -/

namespace Evidence

variable (a b c : Evidence)

@[simp] theorem yields_append : (a ++ b).yields = (a.yields || b.yields) := rfl

@[simp] theorem nothing_append : nothing ++ a = a := rfl

@[simp] theorem append_nothing : a ++ nothing = a := by
  obtain ⟨yields, usesSuper, usesLocals, hasYieldFrom⟩ := a
  change union _ _ = _
  simp [union, nothing]

theorem append_assoc : a ++ b ++ c = a ++ (b ++ c) := by
  change union (union a b) c = union a (union b c)
  simp [union, Bool.or_assoc]

theorem append_comm : a ++ b = b ++ a := by
  change union a b = union b a
  simp [union, Bool.or_comm]

instance : Std.Associative (α := Evidence) (· ++ ·) := ⟨append_assoc⟩

instance : Std.Commutative (α := Evidence) (· ++ ·) := ⟨append_comm⟩

end Evidence

/-! ## The evidence of steps -/

/-- What a step shows by itself. -/
def Step.evidence : Step → Evidence
  | .eval (.name id) => .ofName id
  | .eval (.call callee _) => .ofCallee callee
  | .eval (.yield _) => .ofYield
  | .eval (.yieldFrom _) => .ofYieldFrom
  | _ => .nothing

def stepsEvidence : List Step → Evidence
  | [] => .nothing
  | first :: rest => first.evidence ++ stepsEvidence rest

@[simp] theorem stepsEvidence_append (steps more : List Step) :
    stepsEvidence (steps ++ more) = stepsEvidence steps ++ stepsEvidence more := by
  induction steps with
  | nil => rfl
  | cons first rest ih =>
    rw [List.cons_append, stepsEvidence, ih, stepsEvidence, Evidence.append_assoc]

@[simp] theorem stepsEvidence_single (step : Step) : stepsEvidence [step] = step.evidence := by
  rw [stepsEvidence, stepsEvidence, Evidence.append_nothing]

@[simp] theorem stepsEvidence_apply (decorators : List Expr) :
    stepsEvidence (decorators.map .apply) = .nothing := by
  induction decorators with
  | nil => rfl
  | cons first rest ih => rw [List.map_cons, stepsEvidence, ih]; rfl

@[simp] theorem exprsEvidence_append (es more : List Expr) :
    exprsEvidence (es ++ more) = exprsEvidence es ++ exprsEvidence more := by
  induction es with
  | nil => rfl
  | cons first rest ih =>
    rw [List.cons_append, exprsEvidence, ih, exprsEvidence, Evidence.append_assoc]

/-- Something that evidence shows if one of its parts shows it. -/
structure Evidence.Additive (shown : Evidence → Bool) : Prop where
  nothing : shown .nothing = false
  append : ∀ a b, shown (a ++ b) = (shown a || shown b)

theorem additive_yields : Evidence.Additive Evidence.yields := ⟨rfl, fun _ _ => rfl⟩

theorem additive_hasYieldFrom : Evidence.Additive fun e => e.flags.hasYieldFrom :=
  ⟨rfl, fun _ _ => rfl⟩

section Additive

variable {shown : Evidence → Bool}

theorem Evidence.Additive.steps (h : Additive shown) (steps : List Step) :
    shown (stepsEvidence steps) = steps.any fun step => shown step.evidence := by
  induction steps with
  | nil => exact h.nothing
  | cons first rest ih => rw [stepsEvidence, h.append, ih, List.any_cons]

theorem Evidence.Additive.exprs (h : Additive shown) (es : List Expr) :
    shown (exprsEvidence es) = es.any fun e => shown e.evidence := by
  induction es with
  | nil => exact h.nothing
  | cons first rest ih => rw [exprsEvidence, h.append, ih, List.any_cons]

end Additive

theorem optionEvidence_eq (value : Option Expr) :
    optionEvidence value = exprsEvidence value.toList := by
  cases value <;> simp [optionEvidence, exprsEvidence]

/-! ## What is never evaluated -/

/-- The annotations in a parameter list. -/
def Params.hints (params : Params) : List Expr :=
  (patternLeaves params.positional ++ params.named).filterMap Param.hint

mutual

/-- The expressions that are scanned with an expression but not evaluated for it. -/
def Expr.ignored : Expr → List Expr
  | .name _ | .constant _ => []
  | .call callee args => callee.ignored ++ exprsIgnored args
  | .binary left _ right => left.ignored ++ right.ignored
  | .attribute value _ | .yieldFrom value | .await value => value.ignored
  | .tuple items => exprsIgnored items
  | .yield value => optionIgnored value
  | .lambda definition => definition.ignored

def exprsIgnored : List Expr → List Expr
  | [] => []
  | first :: rest => first.ignored ++ exprsIgnored rest

def optionIgnored : Option Expr → List Expr
  | none => []
  | some value => value.ignored

/-- A default of a keyword-only parameter is ignored if no parameter is left for it. -/
def keywordIgnored : List Param → List (Option Expr) → List Expr
  | _ :: params, value :: rest => optionIgnored value ++ keywordIgnored params rest
  | [], value :: rest => value.toList ++ keywordIgnored [] rest
  | _, [] => []

def Lambda.ignored : Lambda → List Expr
  | ⟨params, _, _⟩ => params.ignored ++ params.hints

def Params.ignored : Params → List Expr
  | ⟨_, defaults, _, keywordOnly, keywordDefaults, _⟩ =>
    exprsIgnored defaults ++ keywordIgnored keywordOnly keywordDefaults

end

/-- The annotations of a definition are ignored as a whole in a dialect without them. -/
def Def.ignored (dialect : Dialect) (d : Def) : List Expr :=
  exprsIgnored d.decorators ++ d.params.ignored ++
    if dialect.annotations then exprsIgnored (d.hints dialect)
    else (annotationsOf d.params d.returns).map Prod.snd

def ClassDef.ignored (d : ClassDef) : List Expr :=
  exprsIgnored d.decorators ++ exprsIgnored d.bases

def StmtKind.ignored (dialect : Dialect) : StmtKind → List Expr
  | .expr value | .assign _ value => value.ignored
  | .ret value | .raise value => optionIgnored value
  | .branch test _ _ | .loop test _ => test.ignored
  | .define definition => definition.ignored dialect
  | .defineClass definition => definition.ignored
  | .pass | .global _ | .nonlocal _ => []

def Stmt.ignored (dialect : Dialect) (statement : Stmt) : List Expr :=
  statement.kind.ignored dialect

/-! ## Annotations -/

theorem Param.evidence_eq (param : Param) : param.evidence = optionEvidence param.hint := by
  obtain ⟨name, hint⟩ := param
  rw [Param.evidence]

theorem exprsEvidence_hints (param : Param) (rest : List Param) :
    exprsEvidence ((param :: rest).filterMap Param.hint) =
      param.evidence ++ exprsEvidence (rest.filterMap Param.hint) := by
  rw [Param.evidence_eq, List.filterMap_cons]
  cases param.hint <;> simp [optionEvidence, exprsEvidence]

mutual

theorem Pattern.evidence_eq : ∀ pattern : Pattern,
    pattern.evidence = exprsEvidence (pattern.leaves.filterMap Param.hint)
  | .name param => by
    rw [Pattern.evidence, Pattern.leaves, exprsEvidence_hints, List.filterMap_nil, exprsEvidence,
      Evidence.append_nothing]
  | .tuple elements => by
    rw [Pattern.evidence, Pattern.leaves]
    exact patternsEvidence_eq elements

theorem patternsEvidence_eq : ∀ patterns : List Pattern,
    patternsEvidence patterns = exprsEvidence ((patternLeaves patterns).filterMap Param.hint)
  | [] => by rw [patternsEvidence, patternLeaves, List.filterMap_nil, exprsEvidence]
  | first :: rest => by
    rw [patternsEvidence, patternLeaves, List.filterMap_append, exprsEvidence_append,
      Pattern.evidence_eq first, patternsEvidence_eq rest]

end

theorem paramsEvidence_eq (params : List Param) :
    paramsEvidence params = exprsEvidence (params.filterMap Param.hint) := by
  induction params with
  | nil => rw [paramsEvidence, List.filterMap_nil, exprsEvidence]
  | cons first rest ih => rw [paramsEvidence, exprsEvidence_hints, ih]

theorem optionParamEvidence_eq (param : Option Param) :
    optionParamEvidence param = paramsEvidence param.toList := by
  cases param <;> simp [optionParamEvidence, paramsEvidence]

/-- The evidence of a parameter list is that of its defaults and annotations. -/
theorem Params.evidence_eq (params : Params) : params.evidence =
    exprsEvidence params.defaults ++ optionsEvidence params.keywordDefaults ++
      exprsEvidence params.hints := by
  obtain ⟨positional, defaults, star, keywordOnly, keywordDefaults, doubleStar⟩ := params
  simp only [Params.evidence, Params.hints, Params.named, List.filterMap_append,
    exprsEvidence_append, patternsEvidence_eq, optionParamEvidence_eq, paramsEvidence_eq]
  ac_rfl

/-! ## Expressions -/

mutual

/-- **What is scanned in an expression** is evaluated, or ignored. -/
theorem Expr.evidence_eq : ∀ e : Expr,
    e.evidence = stepsEvidence e.steps ++ exprsEvidence e.ignored
  | .name id => by simp [Expr.evidence, Expr.steps, Expr.ignored, Step.evidence, exprsEvidence]
  | .constant value => by
    simp [Expr.evidence, Expr.steps, Expr.ignored, Step.evidence, exprsEvidence]
  | .call callee args => by
    rw [Expr.evidence, Expr.evidence_eq callee, exprsEvidence_eq args]
    simp only [Expr.steps, Expr.ignored, stepsEvidence_append, exprsEvidence_append,
      stepsEvidence_single, Step.evidence]
    ac_rfl
  | .binary left op right => by
    rw [Expr.evidence, Expr.evidence_eq left, Expr.evidence_eq right]
    simp only [Expr.steps, Expr.ignored, stepsEvidence_append, exprsEvidence_append,
      stepsEvidence_single, Step.evidence, Evidence.append_nothing]
    ac_rfl
  | .attribute value name => by
    rw [Expr.evidence, Expr.evidence_eq value]
    simp [Expr.steps, Expr.ignored, Step.evidence]
  | .tuple items => by
    rw [Expr.evidence, exprsEvidence_eq items]
    simp [Expr.steps, Expr.ignored, Step.evidence]
  | .yield value => by
    rw [Expr.evidence, optionEvidence_eq_steps value]
    simp only [Expr.steps, Expr.ignored, stepsEvidence_append, stepsEvidence_single, Step.evidence]
    ac_rfl
  | .yieldFrom value => by
    rw [Expr.evidence, Expr.evidence_eq value]
    simp only [Expr.steps, Expr.ignored, stepsEvidence_append, stepsEvidence_single, Step.evidence]
    ac_rfl
  | .await value => by
    rw [Expr.evidence, Expr.evidence_eq value]
    simp [Expr.steps, Expr.ignored, Step.evidence]
  | .lambda definition => by
    rw [Expr.evidence, Lambda.evidence_eq definition]
    simp [Expr.steps, Expr.ignored, Step.evidence]

theorem exprsEvidence_eq : ∀ es : List Expr,
    exprsEvidence es = stepsEvidence (exprsSteps es) ++ exprsEvidence (exprsIgnored es)
  | [] => by simp [exprsEvidence, exprsSteps, exprsIgnored, stepsEvidence]
  | first :: rest => by
    rw [exprsEvidence, Expr.evidence_eq first, exprsEvidence_eq rest, exprsSteps, exprsIgnored,
      stepsEvidence_append, exprsEvidence_append]
    ac_rfl

theorem optionEvidence_eq_steps : ∀ value : Option Expr,
    optionEvidence value = stepsEvidence (optionSteps value) ++ exprsEvidence (optionIgnored value)
  | none => by simp [optionEvidence, optionSteps, optionIgnored, stepsEvidence, exprsEvidence]
  | some value => by
    rw [optionEvidence, optionSteps, optionIgnored]
    exact Expr.evidence_eq value

theorem optionsEvidence_eq : ∀ (params : List Param) (values : List (Option Expr)),
    optionsEvidence values =
      stepsEvidence (keywordSteps params values) ++ exprsEvidence (keywordIgnored params values)
  | params, [] => by
    simp [optionsEvidence, keywordSteps, keywordIgnored, stepsEvidence, exprsEvidence]
  | [], value :: rest => by
    rw [optionsEvidence, optionsEvidence_eq [] rest, optionEvidence_eq]
    simp [keywordSteps, keywordIgnored, stepsEvidence]
  | _ :: params, value :: rest => by
    rw [optionsEvidence, optionEvidence_eq_steps value, optionsEvidence_eq params rest,
      keywordSteps, keywordIgnored, stepsEvidence_append, exprsEvidence_append]
    ac_rfl

theorem Lambda.evidence_eq : ∀ l : Lambda,
    l.evidence = stepsEvidence l.steps ++ exprsEvidence l.ignored
  | ⟨params, _, _⟩ => by
    rw [Lambda.evidence, Params.evidence_eq_steps params, Lambda.steps, Lambda.ignored,
      exprsEvidence_append, Evidence.append_assoc]

theorem Params.evidence_eq_steps : ∀ params : Params, params.evidence =
    stepsEvidence params.steps ++ exprsEvidence params.ignored ++ exprsEvidence params.hints
  | ⟨positional, defaults, star, keywordOnly, keywordDefaults, doubleStar⟩ => by
    rw [Params.evidence_eq, Params.steps, Params.ignored, exprsEvidence_eq defaults,
      optionsEvidence_eq keywordOnly keywordDefaults, stepsEvidence_append, exprsEvidence_append]
    ac_rfl

end

/-! ## Statements -/

theorem exprsEvidence_annotations (params : Params) (returns : Option Expr) :
    exprsEvidence ((annotationsOf params returns).map Prod.snd) =
      exprsEvidence params.hints ++ optionEvidence returns := by
  have hreturns : (returns.toList.map fun hint => ("return", hint)).map Prod.snd =
      returns.toList := by
    rw [List.map_map]
    exact List.map_id _
  rw [annotationsOf, List.map_append, hreturns, exprsEvidence_append, ← optionEvidence_eq,
    List.map_filterMap, Params.hints]
  congr 3
  funext param
  cases param.hint <;> rfl

theorem Def.evidence_eq (dialect : Dialect) (d : Def) : d.evidence =
    stepsEvidence (d.steps dialect) ++ exprsEvidence (d.ignored dialect) := by
  have hhints : exprsEvidence d.params.hints ++ optionEvidence d.returns =
      stepsEvidence (exprsSteps (d.hints dialect)) ++ exprsEvidence
        (if dialect.annotations then exprsIgnored (d.hints dialect)
          else (annotationsOf d.params d.returns).map Prod.snd) := by
    rw [← exprsEvidence_annotations]
    unfold Def.hints
    split
    · exact exprsEvidence_eq _
    · rfl
  have hparts : d.evidence = stepsEvidence (exprsSteps d.decorators) ++
      stepsEvidence d.params.steps ++
      exprsEvidence (exprsIgnored d.decorators) ++ exprsEvidence d.params.ignored ++
      (exprsEvidence d.params.hints ++ optionEvidence d.returns) := by
    rw [Def.evidence, exprsEvidence_eq d.decorators, Params.evidence_eq_steps]
    ac_rfl
  rw [hparts, hhints, Def.steps, Def.ignored]
  simp only [stepsEvidence_append, exprsEvidence_append, stepsEvidence_apply, stepsEvidence_single,
    Step.evidence, Evidence.append_nothing]
  ac_rfl

theorem ClassDef.evidence_eq (d : ClassDef) :
    d.evidence = stepsEvidence d.steps ++ exprsEvidence d.ignored := by
  rw [ClassDef.evidence, exprsEvidence_eq d.decorators, exprsEvidence_eq d.bases, ClassDef.steps,
    ClassDef.ignored]
  simp only [stepsEvidence_append, exprsEvidence_append, stepsEvidence_apply, stepsEvidence_single,
    Step.evidence, Evidence.append_nothing]
  ac_rfl

/-- The evidence of a statement, but for that of the statements inside it. -/
def StmtKind.ownEvidence : StmtKind → Evidence
  | .expr value | .assign _ value => value.evidence
  | .ret value | .raise value => optionEvidence value
  | .branch test _ _ | .loop test _ => test.evidence
  | .define definition => definition.evidence
  | .defineClass definition => definition.evidence
  | .pass | .global _ | .nonlocal _ => .nothing

theorem StmtKind.ownEvidence_eq (dialect : Dialect) (kind : StmtKind) : kind.ownEvidence =
    stepsEvidence (kind.steps dialect) ++ exprsEvidence (kind.ignored dialect) := by
  cases kind with
  | expr value | assign _ value => exact value.evidence_eq
  | ret value | raise value => exact optionEvidence_eq_steps value
  | branch test _ _ | loop test _ => exact test.evidence_eq
  | define definition => exact definition.evidence_eq dialect
  | defineClass definition => exact definition.evidence_eq
  | _ => rfl

/-- The evidence of some statements, but for that of the statements inside them. -/
def ownEvidence : List Stmt → Evidence
  | [] => .nothing
  | first :: rest => first.kind.ownEvidence ++ ownEvidence rest

theorem ownEvidence_append (statements more : List Stmt) :
    ownEvidence (statements ++ more) = ownEvidence statements ++ ownEvidence more := by
  induction statements with
  | nil => rfl
  | cons first rest ih => rw [List.cons_append, ownEvidence, ih, ownEvidence, Evidence.append_assoc]

mutual

theorem Stmt.evidence_eq_within : ∀ statement : Stmt,
    statement.evidence = ownEvidence statement.within
  | ⟨.branch test body orelse, location⟩ => by
    rw [Stmt.evidence, StmtKind.evidence, stmtsEvidence_eq_within body,
      stmtsEvidence_eq_within orelse, Stmt.within, ownEvidence, ownEvidence_append,
      StmtKind.ownEvidence, Evidence.append_assoc]
  | ⟨.loop test body, location⟩ => by
    rw [Stmt.evidence, StmtKind.evidence, stmtsEvidence_eq_within body, Stmt.within, ownEvidence,
      StmtKind.ownEvidence]
  | ⟨.expr _, _⟩ | ⟨.assign _ _, _⟩ | ⟨.pass, _⟩ | ⟨.ret _, _⟩ | ⟨.raise _, _⟩ | ⟨.global _, _⟩
  | ⟨.nonlocal _, _⟩ | ⟨.define _, _⟩ | ⟨.defineClass _, _⟩ => by
    simp [Stmt.evidence, StmtKind.evidence, Stmt.within, ownEvidence, StmtKind.ownEvidence]

theorem stmtsEvidence_eq_within : ∀ statements : List Stmt,
    stmtsEvidence statements = ownEvidence (stmtsWithin statements)
  | [] => by rw [stmtsEvidence, stmtsWithin, ownEvidence]
  | first :: rest => by
    rw [stmtsEvidence, Stmt.evidence_eq_within first, stmtsEvidence_eq_within rest, stmtsWithin,
      ownEvidence_append]

end

/-- **What is scanned in some statements is evaluated when they run, or it is ignored.** -/
theorem stmtsEvidence_eq (dialect : Dialect) (statements : List Stmt) : stmtsEvidence statements =
    stepsEvidence ((stmtsWithin statements).flatMap (Stmt.steps dialect)) ++
      exprsEvidence ((stmtsWithin statements).flatMap (Stmt.ignored dialect)) := by
  rw [stmtsEvidence_eq_within]
  induction stmtsWithin statements with
  | nil => rfl
  | cons first rest ih =>
    rw [ownEvidence, ih, first.kind.ownEvidence_eq dialect, List.flatMap_cons, List.flatMap_cons,
      stepsEvidence_append, exprsEvidence_append, Stmt.steps, Stmt.ignored]
    ac_rfl

end DefinitionLowering.Surface
