import Mathlib.Data.List.Forall2
import DefinitionLowering.Proofs.Evaluations
import DefinitionLowering.Proofs.Origins

/-!
# Steps of written code and of lowered code

`Surface.Expr.steps` lists what evaluating an expression evaluates, in order, in the scope it
stands in: parts from left to right, and of a lambda the defaults only.  A definition evaluates
its decorators as they are written, its defaults and annotations, and applies the decorators from
the innermost on.

`steps_expr` and `StmtCounterpart.steps` say that lowered code takes the same steps in the same
order (`StepTo`), with decorators of the runtime in between (`StepsTo`).  `StmtsTo` relates
statements one by one; it holds of two lists of statements with everything inside them as well
(`within_stmts`).
-/

namespace DefinitionLowering

open IR (BodyId VariableId Store)

namespace Surface

/-! ## What is evaluated -/

/-- One step of running written code. -/
inductive Step where
  /-- An expression gets its value from those of its parts. -/
  | eval (e : Expr)
  /-- A decorator is called. -/
  | apply (decorator : Expr)
  | create (d : Def)
  | createClass (d : ClassDef)

mutual

def Expr.steps : Expr → List Step
  | .name id => [.eval (.name id)]
  | .constant value => [.eval (.constant value)]
  | .call callee args => callee.steps ++ exprsSteps args ++ [.eval (.call callee args)]
  | .binary left op right => left.steps ++ right.steps ++ [.eval (.binary left op right)]
  | .attribute value name => value.steps ++ [.eval (.attribute value name)]
  | .tuple items => exprsSteps items ++ [.eval (.tuple items)]
  | .yield value => optionSteps value ++ [.eval (.yield value)]
  | .yieldFrom value => value.steps ++ [.eval (.yieldFrom value)]
  | .await value => value.steps ++ [.eval (.await value)]
  | .lambda definition => definition.steps ++ [.eval (.lambda definition)]

def exprsSteps : List Expr → List Step
  | [] => []
  | first :: rest => first.steps ++ exprsSteps rest

def optionSteps : Option Expr → List Step
  | none => []
  | some value => value.steps

/-- The defaults of keyword-only parameters, paired in order. -/
def keywordSteps : List Param → List (Option Expr) → List Step
  | _ :: params, value :: rest => optionSteps value ++ keywordSteps params rest
  | _, _ => []

def Lambda.steps : Lambda → List Step
  | ⟨params, _, _⟩ => params.steps

def Params.steps : Params → List Step
  | ⟨_, defaults, _, keywordOnly, keywordDefaults, _⟩ =>
    exprsSteps defaults ++ keywordSteps keywordOnly keywordDefaults

end

theorem exprsSteps_eq (es : List Expr) : exprsSteps es = es.flatMap Expr.steps := by
  induction es with
  | nil => rfl
  | cons first rest ih =>
    rw [exprsSteps, ih]
    rfl

/-- The annotations that a dialect evaluates. -/
def Def.hints (dialect : Dialect) (d : Def) : List Expr :=
  if dialect.annotations then (Lowering.annotationsOf d.params d.returns).map Prod.snd else []

def Def.steps (dialect : Dialect) (d : Def) : List Step :=
  exprsSteps d.decorators ++ (d.params.steps ++ exprsSteps (d.hints dialect) ++ [.create d]) ++
    d.decorators.reverse.map .apply

def ClassDef.steps (d : ClassDef) : List Step :=
  exprsSteps d.decorators ++ (exprsSteps d.bases ++ [.createClass d]) ++
    d.decorators.reverse.map .apply

/-- The steps of a statement, but for those of the statements inside it. -/
def StmtKind.steps (dialect : Dialect) : StmtKind → List Step
  | .expr value | .assign _ value => value.steps
  | .ret value | .raise value => optionSteps value
  | .branch test _ _ | .loop test _ => test.steps
  | .define definition => definition.steps dialect
  | .defineClass definition => definition.steps
  | .pass | .global _ | .nonlocal _ => []

def Stmt.steps (dialect : Dialect) (statement : Stmt) : List Step :=
  statement.kind.steps dialect

/-- The name that a statement binds. -/
def StmtKind.bound? : StmtKind → Option String
  | .assign target _ => some target
  | .define definition => some definition.name
  | .defineClass definition => some definition.name
  | _ => none

/-- Whether a statement does nothing when it runs. -/
def StmtKind.idle : StmtKind → Bool
  | .pass | .global _ | .nonlocal _ => true
  | _ => false

mutual

/-- The statement and all statements inside it that run in the same scope. -/
def Stmt.within : Stmt → List Stmt
  | ⟨.branch test body orelse, location⟩ =>
    ⟨.branch test body orelse, location⟩ :: (stmtsWithin body ++ stmtsWithin orelse)
  | ⟨.loop test body, location⟩ => ⟨.loop test body, location⟩ :: stmtsWithin body
  | ⟨.expr value, location⟩ => [⟨.expr value, location⟩]
  | ⟨.assign target value, location⟩ => [⟨.assign target value, location⟩]
  | ⟨.pass, location⟩ => [⟨.pass, location⟩]
  | ⟨.ret value, location⟩ => [⟨.ret value, location⟩]
  | ⟨.raise value, location⟩ => [⟨.raise value, location⟩]
  | ⟨.global names, location⟩ => [⟨.global names, location⟩]
  | ⟨.nonlocal names, location⟩ => [⟨.nonlocal names, location⟩]
  | ⟨.define definition, location⟩ => [⟨.define definition, location⟩]
  | ⟨.defineClass definition, location⟩ => [⟨.defineClass definition, location⟩]

def stmtsWithin : List Stmt → List Stmt
  | [] => []
  | first :: rest => first.within ++ stmtsWithin rest

end

end Surface

/-! ## Steps of lowered expressions -/

/-- In scopes of this kind some definition gets the decorator by itself. -/
def Dialect.Implies (dialect : Dialect) (scope : ScopeKind) (decorator : String) : Prop :=
  ∃ name, decorator ∈ dialect.decoratorsFor name scope

namespace IR

section

variable {callee left right value : Expr} {args items values bases : List Expr} {o : Option Expr}

theorem Expr.steps_call : (Expr.call callee args).steps =
    callee.steps ++ args.flatMap Expr.steps ++ [.call callee args] := by
  simp [Expr.steps, Expr.evaluations, Expr.silent, flatMap_steps]

theorem Expr.steps_binary {op : BinaryOperator} :
    (Expr.binary left op right).steps = left.steps ++ right.steps ++ [.binary left op right] := by
  simp [Expr.steps, Expr.evaluations, Expr.silent]

theorem Expr.steps_attribute {name : String} :
    (Expr.attribute value name).steps = value.steps ++ [.attribute value name] := by
  simp [Expr.steps, Expr.evaluations, Expr.silent]

theorem Expr.steps_tuple :
    (Expr.tuple items).steps = items.flatMap Expr.steps ++ [.tuple items] := by
  simp [Expr.steps, Expr.evaluations, Expr.silent, flatMap_steps]

theorem Expr.steps_yield :
    (Expr.yield o).steps = o.toList.flatMap Expr.steps ++ [.yield o] := by
  simp [Expr.steps, Expr.evaluations, Expr.silent, optionEvaluations_eq, flatMap_steps]

theorem Expr.steps_yieldFrom :
    (Expr.yieldFrom value).steps = value.steps ++ [.yieldFrom value] := by
  simp [Expr.steps, Expr.evaluations, Expr.silent]

theorem Expr.steps_await : (Expr.await value).steps = value.steps ++ [.await value] := by
  simp [Expr.steps, Expr.evaluations, Expr.silent]

theorem Expr.steps_makeFunction {b : BodyId} {code : CodeObject}
    {keywords annotations : Option Expr} :
    (Expr.makeFunction b code values keywords annotations).steps =
      values.flatMap Expr.steps ++ keywords.toList.flatMap Expr.steps ++
        annotations.toList.flatMap Expr.steps ++
        [.makeFunction b code values keywords annotations] := by
  simp [Expr.steps, Expr.evaluations, Expr.silent, optionEvaluations_eq, flatMap_steps]

theorem Expr.steps_makeClass {b : BodyId} :
    (Expr.makeClass b bases).steps = bases.flatMap Expr.steps ++ [.makeClass b bases] := by
  simp [Expr.steps, Expr.evaluations, Expr.silent, flatMap_steps]

end

/-- The steps of a statement, but for those of the statements inside it. -/
def Stmt.steps (statement : Stmt) : List Expr :=
  statement.operands.flatMap Expr.steps

end IR

namespace Lowering

variable {setting : Setting} {t : Store} {b : BodyId} {location : Location}

/-! ## Expressions and what they were lowered to -/

/-- A written expression and what it was lowered to, in terms of what its parts gave. -/
inductive Counterpart (setting : Setting) (t : Store) (b : BodyId) (location : Location) :
    Surface.Expr → IR.Expr → Prop
  | var {id : String} {v : VariableId} (h : t.find? b (t.spell b id) = some v) :
    Counterpart setting t b location (.name id) (.var v)
  | freeName {id : String} : Counterpart setting t b location (.name id) (.freeName (t.spell b id))
  | constant {value : Constant} :
    Counterpart setting t b location (.constant value) (.constant value)
  | call {callee : Surface.Expr} {args : List Surface.Expr} {callee' : IR.Expr}
    {args' : List IR.Expr} (hcallee : Gave t b (lowerExpr setting b location callee) callee')
    (hargs : Gave t b (lowerExprs setting b location args) args') :
    Counterpart setting t b location (.call callee args) (.call callee' args')
  | binary {left right : Surface.Expr} {op : BinaryOperator} {left' right' : IR.Expr}
    (hleft : Gave t b (lowerExpr setting b location left) left')
    (hright : Gave t b (lowerExpr setting b location right) right') :
    Counterpart setting t b location (.binary left op right) (.binary left' op right')
  | member {value : Surface.Expr} {name : String} {value' : IR.Expr}
    (hvalue : Gave t b (lowerExpr setting b location value) value') :
    Counterpart setting t b location (.attribute value name) (.attribute value' (t.spell b name))
  | tuple {items : List Surface.Expr} {items' : List IR.Expr}
    (hitems : Gave t b (lowerExprs setting b location items) items') :
    Counterpart setting t b location (.tuple items) (.tuple items')
  | yield {value : Option Surface.Expr} {value' : Option IR.Expr}
    (hkind : (t.body b).kind.isFunctionLike = true)
    (hvalue : Gave t b (lowerOption setting b location value) value') :
    Counterpart setting t b location (.yield value) (.yield value')
  | yieldFrom {value : Surface.Expr} {value' : IR.Expr}
    (hkind : (t.body b).kind.isFunctionLike = true) (hasync : (t.body b).kind.allowsAwait = false)
    (hvalue : Gave t b (lowerExpr setting b location value) value') :
    Counterpart setting t b location (.yieldFrom value) (.yieldFrom value')
  | await {value : Surface.Expr} {value' : IR.Expr} (hasync : (t.body b).kind.allowsAwait = true)
    (hvalue : Gave t b (lowerExpr setting b location value) value') :
    Counterpart setting t b location (.await value) (.await value')
  | lambda {l : Surface.Lambda} {made : Callable} {object : Option BodyId}
    {defaults : List IR.Expr} {keywords : Option IR.Expr}
    (hcallable : CallableAt setting t (.lambda l) b made object)
    (hdefaults : Gave t b (lowerExprs setting b l.location l.params.defaults) defaults)
    (hkeywords : KeywordsGave setting t b l.location l.params keywords) :
    Counterpart setting t b location (.lambda l)
      (.makeFunction made.outer made.code defaults keywords none)

theorem gave_counterpart {e : Surface.Expr} {e' : IR.Expr}
    (h : Gave t b (lowerExpr setting b location e) e') (ht : t.WellFormed) :
    Counterpart setting t b location e e' := by
  match e, h with
  | .name _, h =>
    rcases gave_name h with ⟨_, rfl, hfind⟩ | rfl
    · exact .var hfind
    · exact .freeName
  | .constant _, h =>
    cases gave_constant h
    exact .constant
  | .call _ _, h =>
    obtain ⟨_, _, rfl, hcallee, hargs⟩ := gave_call h
    exact .call hcallee hargs
  | .binary _ _ _, h =>
    obtain ⟨_, _, rfl, hleft, hright⟩ := gave_binary h
    exact .binary hleft hright
  | .attribute _ _, h =>
    obtain ⟨_, rfl, hvalue⟩ := gave_attribute h
    exact .member hvalue
  | .tuple _, h =>
    obtain ⟨_, rfl, hitems⟩ := gave_tuple h
    exact .tuple hitems
  | .yield _, h =>
    obtain ⟨hkind, _, rfl, hvalue⟩ := gave_yield h
    exact .yield hkind hvalue
  | .yieldFrom _, h =>
    obtain ⟨hkind, hasync, _, rfl, hvalue⟩ := gave_yieldFrom h
    exact .yieldFrom hkind hasync hvalue
  | .await _, h =>
    obtain ⟨hasync, _, rfl, hvalue⟩ := gave_await h
    exact .await hasync hvalue
  | .lambda _, h =>
    obtain ⟨_, _, _, _, _, hcallable, hdefaults, hkeywords, hnone⟩ :=
      gave_lowerLambda (gave_lambda h) ht
    cases hnone
    exact .lambda hcallable hdefaults hkeywords

/-! ## The same steps -/

/-- A step of written code and what it was lowered to. -/
inductive StepTo (setting : Setting) (t : Store) (b : BodyId) : Surface.Step → IR.Expr → Prop
  | eval {e : Surface.Expr} {e' : IR.Expr} (location : Location)
    (h : Gave t b (lowerExpr setting b location e) e') : StepTo setting t b (.eval e) e'
  | apply {decorator : Surface.Expr} {d value : IR.Expr} (location : Location)
    (h : Gave t b (lowerExpr setting b location decorator) d) :
    StepTo setting t b (.apply decorator) (.call d [value])
  | create {d : Surface.Def} {e' : IR.Expr} (h : Created setting t b (.define d) e') :
    StepTo setting t b (.create d) e'
  | createClass {d : Surface.ClassDef} {c : BodyId} {bases : List IR.Expr}
    (h : ClassAt setting t d b c)
    (hbases : Gave t b (lowerExprs setting b d.location d.bases) bases) :
    StepTo setting t b (.createClass d) (.makeClass c bases)

/-- Two lists of steps, one by one.  In between, decorators of the runtime may be evaluated and
applied that the dialect has rules for. -/
inductive StepsTo (setting : Setting) (t : Store) (b : BodyId) :
    List Surface.Step → List IR.Expr → Prop
  | nil : StepsTo setting t b [] []
  | cons {step : Surface.Step} {e : IR.Expr} {steps : List Surface.Step} {es : List IR.Expr}
    (hfirst : StepTo setting t b step e) (hrest : StepsTo setting t b steps es) :
    StepsTo setting t b (step :: steps) (e :: es)
  | implied {name : String} {steps : List Surface.Step} {es : List IR.Expr}
    (hrule : setting.dialect.Implies (t.body b).kind.scope name)
    (hrest : StepsTo setting t b steps es) : StepsTo setting t b steps (.builtin name :: es)
  | applied {name : String} {value : IR.Expr} {steps : List Surface.Step} {es : List IR.Expr}
    (hrule : setting.dialect.Implies (t.body b).kind.scope name)
    (hrest : StepsTo setting t b steps es) :
    StepsTo setting t b steps (.call (.builtin name) [value] :: es)

/-- Nothing that is written becomes a decorator of the runtime. -/
theorem gave_ne_builtin {e : Surface.Expr} {e' : IR.Expr}
    (h : Gave t b (lowerExpr setting b location e) e') (ht : t.WellFormed) (name : String) :
    e' ≠ .builtin name := by
  rintro rfl
  cases gave_counterpart h ht

theorem implied_call {callee : IR.Expr} (h : ∀ name, callee ≠ .builtin name)
    (args : List IR.Expr) : (IR.Expr.call callee args).implied = false := by
  cases callee with
  | builtin name => exact absurd rfl (h name)
  | _ => rfl

/-- What is written is not what the runtime adds. -/
theorem StepTo.written {step : Surface.Step} {e : IR.Expr} (h : StepTo setting t b step e)
    (ht : t.WellFormed) : e.implied = false := by
  cases h with
  | eval location h =>
    cases gave_counterpart h ht with
    | call hcallee => exact implied_call (gave_ne_builtin hcallee ht) _
    | _ => rfl
  | apply location h => exact implied_call (gave_ne_builtin h ht) _
  | create h =>
    cases h
    rfl
  | createClass => rfl

theorem StepsTo.append {steps more : List Surface.Step} {steps' more' : List IR.Expr}
    (h : StepsTo setting t b steps steps') (hmore : StepsTo setting t b more more') :
    StepsTo setting t b (steps ++ more) (steps' ++ more') := by
  induction h with
  | nil => exact hmore
  | cons hfirst _ ih => exact .cons hfirst ih
  | implied hrule _ ih => exact .implied hrule ih
  | applied hrule _ ih => exact .applied hrule ih

/-- One step. -/
theorem StepTo.single {step : Surface.Step} {e : IR.Expr} (h : StepTo setting t b step e) :
    StepsTo setting t b [step] [e] :=
  .cons h .nil

/-- The parts of an expression and then the expression itself. -/
theorem StepsTo.eval {e : Surface.Expr} {e' : IR.Expr} {steps : List Surface.Step}
    {steps' : List IR.Expr} (hparts : StepsTo setting t b steps steps')
    (h : Gave t b (lowerExpr setting b location e) e') :
    StepsTo setting t b (steps ++ [.eval e]) (steps' ++ [e']) :=
  hparts.append (StepTo.eval location h).single

/-- What is evaluated and is written comes from a written step. -/
theorem StepsTo.exists_of_mem {steps : List Surface.Step} {steps' : List IR.Expr} {e : IR.Expr}
    (h : StepsTo setting t b steps steps') (hmem : e ∈ steps') (hwritten : e.implied = false) :
    ∃ step ∈ steps, StepTo setting t b step e := by
  induction h with
  | nil => cases hmem
  | cons hfirst _ ih =>
    rcases List.mem_cons.1 hmem with rfl | hmem
    · exact ⟨_, List.mem_cons_self, hfirst⟩
    · obtain ⟨step, hstep, h⟩ := ih hmem
      exact ⟨step, List.mem_cons_of_mem _ hstep, h⟩
  | implied _ _ ih | applied _ _ ih =>
    rcases List.mem_cons.1 hmem with rfl | hmem
    · cases hwritten
    · exact ih hmem

/-- Every written step was lowered. -/
theorem StepsTo.exists_of_written {step : Surface.Step} {steps : List Surface.Step}
    {steps' : List IR.Expr} (h : StepsTo setting t b steps steps') (hmem : step ∈ steps) :
    ∃ e ∈ steps', StepTo setting t b step e := by
  induction h with
  | nil => cases hmem
  | cons hfirst _ ih =>
    rcases List.mem_cons.1 hmem with rfl | hmem
    · exact ⟨_, List.mem_cons_self, hfirst⟩
    · obtain ⟨e, he, h⟩ := ih hmem
      exact ⟨e, List.mem_cons_of_mem _ he, h⟩
  | implied _ _ ih | applied _ _ ih =>
    obtain ⟨e, he, h⟩ := ih hmem
    exact ⟨e, List.mem_cons_of_mem _ he, h⟩

/-- A decorator of the runtime is evaluated only where a rule gives it. -/
theorem StepsTo.implies {steps : List Surface.Step} {steps' : List IR.Expr} {name : String}
    (h : StepsTo setting t b steps steps') (ht : t.WellFormed) (hmem : .builtin name ∈ steps') :
    setting.dialect.Implies (t.body b).kind.scope name := by
  induction h with
  | nil => cases hmem
  | cons hfirst _ ih =>
    rcases List.mem_cons.1 hmem with rfl | hmem
    · cases hfirst.written ht
    · exact ih hmem
  | implied hrule _ ih =>
    rcases List.mem_cons.1 hmem with heq | hmem
    · cases heq
      exact hrule
    · exact ih hmem
  | applied _ _ ih => exact ih ((List.mem_cons.1 hmem).resolve_left nofun)

mutual

/-- **A lowered expression takes the same steps as the written one, in the same order.** -/
theorem steps_expr (ht : t.WellFormed) : ∀ (e : Surface.Expr) {location : Location} {e' : IR.Expr},
    Gave t b (lowerExpr setting b location e) e' → StepsTo setting t b e.steps e'.steps
  | .name _, _, _, h => by
    cases gave_counterpart h ht <;> exact StepsTo.eval .nil h
  | .constant _, _, _, h => by
    cases gave_counterpart h ht
    exact StepsTo.eval .nil h
  | .call callee args, _, _, h => by
    cases gave_counterpart h ht with
    | call hcallee hargs =>
      rw [Surface.Expr.steps, IR.Expr.steps_call]
      exact ((steps_expr ht callee hcallee).append (steps_exprs ht args hargs)).eval h
  | .binary left _ right, _, _, h => by
    cases gave_counterpart h ht with
    | binary hleft hright =>
      rw [Surface.Expr.steps, IR.Expr.steps_binary]
      exact ((steps_expr ht left hleft).append (steps_expr ht right hright)).eval h
  | .attribute value _, _, _, h => by
    cases gave_counterpart h ht with
    | member hvalue =>
      rw [Surface.Expr.steps, IR.Expr.steps_attribute]
      exact (steps_expr ht value hvalue).eval h
  | .tuple items, _, _, h => by
    cases gave_counterpart h ht with
    | tuple hitems =>
      rw [Surface.Expr.steps, IR.Expr.steps_tuple]
      exact (steps_exprs ht items hitems).eval h
  | .yield value, _, _, h => by
    cases gave_counterpart h ht with
    | yield hkind hvalue =>
      rw [Surface.Expr.steps, IR.Expr.steps_yield]
      exact (steps_option ht value (gave_option hvalue)).eval h
  | .yieldFrom value, _, _, h => by
    cases gave_counterpart h ht with
    | yieldFrom hkind hasync hvalue =>
      rw [Surface.Expr.steps, IR.Expr.steps_yieldFrom]
      exact (steps_expr ht value hvalue).eval h
  | .await value, _, _, h => by
    cases gave_counterpart h ht with
    | await hasync hvalue =>
      rw [Surface.Expr.steps, IR.Expr.steps_await]
      exact (steps_expr ht value hvalue).eval h
  | .lambda definition, _, _, h => by
    cases gave_counterpart h ht with
    | lambda hcallable hdefaults hkeywords =>
      rw [Surface.Expr.steps, IR.Expr.steps_makeFunction, Option.toList_none, List.flatMap_nil,
        List.append_nil]
      exact (steps_lambda ht definition hdefaults hkeywords).eval h

theorem steps_exprs (ht : t.WellFormed) : ∀ (values : List Surface.Expr) {location : Location}
    {es : List IR.Expr}, Gave t b (lowerExprs setting b location values) es →
      StepsTo setting t b (Surface.exprsSteps values) (es.flatMap IR.Expr.steps)
  | [], _, _, h => by
    cases gave_nil h
    exact .nil
  | first :: rest, _, _, h => by
    obtain ⟨first', rest', rfl, hfirst, hrest⟩ := gave_cons h
    rw [Surface.exprsSteps, List.flatMap_cons]
    exact (steps_expr ht first hfirst).append (steps_exprs ht rest hrest)

theorem steps_option (ht : t.WellFormed) : ∀ (value : Option Surface.Expr) {location : Location}
    {o : Option IR.Expr},
    Option.Rel (fun value e => Gave t b (lowerExpr setting b location value) e) value o →
      StepsTo setting t b (Surface.optionSteps value) (o.toList.flatMap IR.Expr.steps)
  | none, _, _, h => by
    cases h
    exact .nil
  | some value, _, _, h => by
    cases h with
    | some h =>
      rw [Option.toList_some, List.flatMap_singleton]
      exact steps_expr ht value h

theorem steps_keywords (ht : t.WellFormed) : ∀ (params : List Surface.Param)
    (values : List (Option Surface.Expr)) {location : Location} {entries : List (String × IR.Expr)},
    List.Forall₂ (fun (written : String × Surface.Expr) (entry : String × IR.Expr) =>
        entry.1 = written.1 ∧ Gave t b (lowerExpr setting b location written.2) entry.2)
      (keywordEntries (params.map fun param => t.spell b param.name) values) entries →
      StepsTo setting t b (Surface.keywordSteps params values)
        (entries.flatMap fun entry => entry.2.steps)
  | [], _, _, _, h => by
    cases h
    simp [Surface.keywordSteps, StepsTo.nil]
  | _ :: _, [], _, _, h => by
    cases h
    exact .nil
  | _ :: params, none :: values, _, _, h => steps_keywords ht params values h
  | _ :: params, some value :: values, _, _, h => by
    cases h with
    | cons hfirst hrest =>
      rw [Surface.keywordSteps, List.flatMap_cons]
      exact (steps_expr ht value hfirst.2).append (steps_keywords ht params values hrest)

theorem steps_lambda (ht : t.WellFormed) : ∀ (l : Surface.Lambda) {location : Location}
    {defaults : List IR.Expr} {keywords : Option IR.Expr},
    Gave t b (lowerExprs setting b location l.params.defaults) defaults →
    KeywordsGave setting t b location l.params keywords →
      StepsTo setting t b l.steps
        (defaults.flatMap IR.Expr.steps ++ keywords.toList.flatMap IR.Expr.steps)
  | ⟨params, _, _⟩, _, _, _, hdefaults, hkeywords => by
    rw [Surface.Lambda.steps]
    exact steps_params ht params hdefaults hkeywords

theorem steps_params (ht : t.WellFormed) : ∀ (params : Surface.Params) {location : Location}
    {defaults : List IR.Expr} {keywords : Option IR.Expr},
    Gave t b (lowerExprs setting b location params.defaults) defaults →
    KeywordsGave setting t b location params keywords →
      StepsTo setting t b params.steps
        (defaults.flatMap IR.Expr.steps ++ keywords.toList.flatMap IR.Expr.steps)
  | ⟨_, written, _, keywordOnly, keywordDefaults, _⟩, _, _, _, hdefaults, hkeywords => by
    rw [Surface.Params.steps]
    refine (steps_exprs ht written hdefaults).append ?_
    cases hkeywords with
    | absent hnone =>
      cases hnone
      simp [Surface.keywordSteps, StepsTo.nil]
    | mapping entries hentries =>
      rw [Option.toList_some, List.flatMap_singleton, IR.Expr.steps_ofEntries]
      exact steps_keywords ht keywordOnly keywordDefaults (gave_keywordDefaults _ _ hentries)

end

/-! ## Definitions -/

/-- The written decorators, the innermost first, around something that is created: they are
evaluated from the outermost on and applied from the innermost on. -/
theorem steps_decorate (ht : t.WellFormed) {written : List Surface.Expr} {decorators : List IR.Expr}
    (h : List.Forall₂ (fun value e => Gave t b (lowerExpr setting b location value) e) written
      decorators) : ∀ {steps : List Surface.Step} {created : IR.Expr},
    StepsTo setting t b steps created.steps →
      StepsTo setting t b (Surface.exprsSteps written.reverse ++ steps ++ written.map .apply)
        (decorate decorators created).steps := by
  induction h with
  | nil =>
    intro steps created hcreated
    simpa [Surface.exprsSteps, decorate] using hcreated
  | @cons value decorator rest decorators hfirst _ ih =>
    intro steps created hcreated
    have hcall : StepsTo setting t b (value.steps ++ steps ++ [.apply value])
        (IR.Expr.call decorator [created]).steps := by
      rw [IR.Expr.steps_call, List.flatMap_singleton]
      exact ((steps_expr ht value hfirst).append hcreated).append
        (StepTo.apply location hfirst).single
    simpa [Surface.exprsSteps_eq, decorate] using ih hcall

/-- Decorators that a definition gets by itself are evaluated before everything else and applied
after it. -/
theorem steps_addImplicit {steps : List Surface.Step} {created : IR.Expr} : ∀ {names : List String}
    {decorators : List IR.Expr},
    (∀ name ∈ names, setting.dialect.Implies (t.body b).kind.scope name) →
    StepsTo setting t b steps (decorate decorators created).steps →
      StepsTo setting t b steps (decorate (names.foldl addDecorator decorators) created).steps
  | [], _, _, h => h
  | name :: names, decorators, hrule, h => by
    have hfirst := hrule name List.mem_cons_self
    have hrest : ∀ n ∈ names, setting.dialect.Implies (t.body b).kind.scope n :=
      fun n hn => hrule n (List.mem_cons_of_mem _ hn)
    rw [List.foldl_cons, addDecorator]
    refine steps_addImplicit hrest ?_
    split
    · exact h
    · have happlied : (decorate (decorators ++ [.builtin name]) created).steps =
          .builtin name :: ((decorate decorators created).steps ++
            [.call (.builtin name) [decorate decorators created]]) := by
        rw [decorate, List.foldl_append, List.foldl_cons, List.foldl_nil, IR.Expr.steps_call,
          List.flatMap_singleton]
        rfl
      rw [happlied]
      simpa using StepsTo.implied hfirst (h.append (.applied hfirst .nil))

theorem steps_applied {d : Surface.Def} {decorators : List IR.Expr} {created : IR.Expr}
    {steps : List Surface.Step}
    (h : StepsTo setting t b steps (decorate decorators created).steps) :
    StepsTo setting t b steps (decorate
      (appliedDecorators setting.dialect (t.body b).kind.scope d decorators) created).steps := by
  rw [appliedDecorators]
  split
  · exact h
  · exact steps_addImplicit (fun _ hname => ⟨d.name, hname⟩) h

theorem steps_hints (ht : t.WellFormed) {written : List (String × Surface.Expr)}
    {entries : List (String × IR.Expr)}
    (h : List.Forall₂ (fun written entry => Gave t b (lowerHint setting b location written) entry)
      written entries) :
    StepsTo setting t b (Surface.exprsSteps (written.map Prod.snd))
      (entries.flatMap fun entry => entry.2.steps) := by
  induction h with
  | nil => exact .nil
  | cons hfirst _ ih =>
    rw [List.map_cons, Surface.exprsSteps, List.flatMap_cons]
    exact (steps_expr ht _ (gave_hint hfirst).2).append ih

theorem steps_annotations (ht : t.WellFormed) {d : Surface.Def} {annotations : Option IR.Expr}
    (h : Gave t b (lowerAnnotations setting b d.location d.params d.returns) annotations) :
    StepsTo setting t b (Surface.exprsSteps (d.hints setting.dialect))
      (annotations.toList.flatMap IR.Expr.steps) := by
  rcases gave_annotations h with ⟨hnone, rfl⟩ | ⟨hsome, entries, rfl, hentries⟩
  · have : d.hints setting.dialect = [] := by
      rw [Surface.Def.hints]
      rcases hnone with hnone | hnone <;> simp [hnone]
    rw [this]
    exact .nil
  · rw [Surface.Def.hints, if_pos hsome, Option.toList_some, List.flatMap_singleton,
      IR.Expr.steps_ofEntries]
    exact steps_hints ht hentries

/-- What creating the function of a definition takes. -/
theorem steps_created (ht : t.WellFormed) {d : Surface.Def} {created : IR.Expr}
    (h : Created setting t b (.define d) created) :
    StepsTo setting t b
      (d.params.steps ++ Surface.exprsSteps (d.hints setting.dialect) ++ [.create d])
      created.steps := by
  have hself := StepTo.create h
  obtain ⟨made, object, defaults, keywords, annotations, -, hdefaults, hkeywords, hannotations⟩ := h
  rw [creation, IR.Expr.steps_makeFunction]
  exact ((steps_params ht d.params hdefaults hkeywords).append
    (steps_annotations ht hannotations)).append hself.single

theorem forall₂_decorators {written : List Surface.Expr} {decorators : List IR.Expr}
    (h : Gave t b (lowerDecorators setting b location written) decorators) :
    List.Forall₂ (fun value e => Gave t b (lowerExpr setting b location value) e) written.reverse
      decorators :=
  gave_exprs h

/-! ## Statements -/

variable {name : String} {source : IR.Expr} {statement : IR.Stmt} {out : Option IR.Stmt}
  {kind : Surface.StmtKind}

/-- A statement that binds a name, as it is spelled, to a value. -/
inductive Binds (t : Store) (b : BodyId) (name : String) (source : IR.Expr) : IR.Stmt → Prop
  | var {v : VariableId} (h : t.find? b name = some v) :
    Binds t b name source (.assignVariable v source)
  | name : Binds t b name source (.assignName name source)

theorem gave_binds (h : Gave t b (bindName b name source) statement) :
    Binds t b name source statement := by
  rcases gave_bindName h with ⟨v, rfl, hfind⟩ | rfl
  · exact .var hfind
  · exact .name

theorem Binds.steps (h : Binds t b name source statement) : statement.steps = source.steps := by
  cases h <;> simp [IR.Stmt.steps, IR.Stmt.operands]

theorem Binds.within (h : Binds t b name source statement) : statement.within = [statement] := by
  cases h <;> rw [IR.Stmt.within]

/-- A written statement and what it was lowered to. -/
inductive StmtCounterpart (setting : Setting) (t : Store) (b : BodyId) (location : Location) :
    Surface.StmtKind → Option IR.Stmt → Prop
  | idle {kind : Surface.StmtKind} (h : kind.idle = true) :
    StmtCounterpart setting t b location kind none
  | expr {value : Surface.Expr} {value' : IR.Expr}
    (hvalue : Gave t b (lowerExpr setting b location value) value') :
    StmtCounterpart setting t b location (.expr value) (some (.expr value'))
  | binds {kind : Surface.StmtKind} {name : String} {source : IR.Expr} {statement : IR.Stmt}
    (hname : kind.bound? = some name)
    (hsteps : StepsTo setting t b (kind.steps setting.dialect) source.steps)
    (hbinds : Binds t b (t.spell b name) source statement) :
    StmtCounterpart setting t b location kind (some statement)
  | ret {value : Option Surface.Expr} {value' : Option IR.Expr}
    (hkind : (t.body b).kind.isFunctionLike = true)
    (hnone : (t.body b).kind = .callable .asyncGenerator → value = none)
    (hvalue : Gave t b (lowerOption setting b location value) value') :
    StmtCounterpart setting t b location (.ret value)
      (some (returnStmt (t.body b).kind value'))
  | raise {value : Option Surface.Expr} {value' : Option IR.Expr}
    (hvalue : Gave t b (lowerOption setting b location value) value') :
    StmtCounterpart setting t b location (.raise value) (some (.raise value'))
  | branch {test : Surface.Expr} {body orelse : List Surface.Stmt} {condition : IR.Expr}
    {yes no : List IR.Stmt} (htest : Gave t b (lowerExpr setting b location test) condition)
    (hyes : Gave t b (lowerStmts setting b body) yes)
    (hno : Gave t b (lowerStmts setting b orelse) no) :
    StmtCounterpart setting t b location (.branch test body orelse)
      (some (.branch condition (IR.Block.ofNonempty? yes) (IR.Block.ofNonempty? no)))
  | loop {test : Surface.Expr} {body : List Surface.Stmt} {condition : IR.Expr}
    {inner : List IR.Stmt} (htest : Gave t b (lowerExpr setting b location test) condition)
    (hbody : Gave t b (lowerStmts setting b body) inner) :
    StmtCounterpart setting t b location (.loop test body)
      (some (.loop condition (IR.Block.ofNonempty? inner)))

/-- The steps of a definition are those of the value that its name is bound to. -/
theorem Defined.binds {d : Surface.Def} (h : Defined setting t b d statement) (ht : t.WellFormed) :
    ∃ source, StepsTo setting t b (d.steps setting.dialect) source.steps ∧
      Binds t b (t.spell b d.name) source statement := by
  obtain ⟨decorators, created, statement, hdecorators, hcreated, hbind⟩ := h
  refine ⟨_, steps_applied ?_, gave_binds (gave_bindDefinition hbind)⟩
  simpa [Surface.Def.steps] using
    steps_decorate ht (forall₂_decorators hdecorators) (steps_created ht hcreated)

theorem ClassDefined.binds {d : Surface.ClassDef} (h : ClassDefined setting t b d statement)
    (ht : t.WellFormed) : ∃ source, StepsTo setting t b d.steps source.steps ∧
      Binds t b (t.spell b d.name) source statement := by
  obtain ⟨decorators, bases, c, statement, hdecorators, hbases, hclass, hbind⟩ := h
  have hcreated : StepsTo setting t b (Surface.exprsSteps d.bases ++ [.createClass d])
      (IR.Expr.makeClass c bases).steps := by
    rw [IR.Expr.steps_makeClass]
    exact (steps_exprs ht d.bases hbases).append
      (StepTo.createClass hclass hbases).single
  refine ⟨_, ?_, gave_binds (gave_bindDefinition hbind)⟩
  simpa [Surface.ClassDef.steps] using
    steps_decorate ht (forall₂_decorators hdecorators) hcreated

theorem gave_stmtCounterpart (h : Gave t b (lowerKind setting b location kind) out)
    (ht : t.WellFormed) : StmtCounterpart setting t b location kind out := by
  match kind, h with
  | .expr _, h =>
    obtain ⟨_, rfl, hvalue⟩ := gave_expr h
    exact .expr hvalue
  | .assign _ value, h =>
    obtain ⟨_, _, rfl, hsource, hbind⟩ := gave_assign h
    exact .binds rfl (steps_expr ht value hsource) (gave_binds hbind)
  | .pass, h =>
    cases gave_pass h
    exact .idle rfl
  | .global _, h =>
    cases gave_global h
    exact .idle rfl
  | .nonlocal _, h =>
    cases gave_nonlocal h
    exact .idle rfl
  | .ret _, h =>
    obtain ⟨hkind, hnone, _, rfl, hvalue⟩ := gave_ret h
    exact .ret hkind hnone hvalue
  | .raise _, h =>
    obtain ⟨_, rfl, hvalue⟩ := gave_raise h
    exact .raise hvalue
  | .branch _ _ _, h =>
    obtain ⟨_, _, _, rfl, htest, hyes, hno⟩ := gave_branch h
    exact .branch htest hyes hno
  | .loop _ _, h =>
    obtain ⟨_, _, rfl, htest, hbody⟩ := gave_loop h
    exact .loop htest hbody
  | .define _, h =>
    obtain ⟨_, rfl, hstatement⟩ := gave_define h
    obtain ⟨_, hsteps, hbinds⟩ := (gave_lowerDef hstatement ht).binds ht
    exact .binds rfl hsteps hbinds
  | .defineClass _, h =>
    obtain ⟨_, rfl, hstatement⟩ := gave_defineClass h
    obtain ⟨_, hsteps, hbinds⟩ := (gave_lowerClassDef hstatement).binds ht
    exact .binds rfl hsteps hbinds

theorem operands_returnStmt (kind : BodyKind) (value : Option IR.Expr) :
    (returnStmt kind value).operands = value.toList := by
  cases value <;> cases kind with
  | callable kind => cases kind <;> rfl
  | _ => rfl

/-- What holds of all four forms of `return` holds of the one that fits a kind of body. -/
theorem returnStmt_of_forms {P : IR.Stmt → Prop} (kind : BodyKind) (value : Option IR.Expr)
    (hret : ∀ v, P (.ret v)) (hretNone : P .retNone) (hobjectRet : ∀ v, P (.objectRet v))
    (hobjectRetNone : P .objectRetNone) : P (returnStmt kind value) := by
  unfold returnStmt
  split
  · exact hret _
  · exact hretNone
  · exact hobjectRet _
  · exact hobjectRetNone

theorem within_returnStmt (kind : BodyKind) (value : Option IR.Expr) :
    (returnStmt kind value).within = [returnStmt kind value] :=
  returnStmt_of_forms (P := fun s => s.within = [s]) kind value (fun _ => rfl) rfl (fun _ => rfl)
    rfl

theorem steps_idle (dialect : Dialect) (h : kind.idle = true) : kind.steps dialect = [] := by
  cases kind <;> first | rfl | cases h

/-- **A lowered statement takes the same steps as the written one.** -/
theorem StmtCounterpart.steps (h : StmtCounterpart setting t b location kind out)
    (ht : t.WellFormed) :
    StepsTo setting t b (kind.steps setting.dialect) (out.toList.flatMap IR.Stmt.steps) := by
  cases h with
  | idle h =>
    rw [steps_idle _ h]
    exact .nil
  | @expr value _ h | @branch value _ _ _ _ _ h | @loop value _ _ _ h =>
    simpa [Surface.StmtKind.steps, IR.Stmt.steps, IR.Stmt.operands] using steps_expr ht value h
  | binds hname hsteps hbinds =>
    rw [Option.toList_some, List.flatMap_singleton, hbinds.steps]
    exact hsteps
  | @ret value _ _ _ hvalue =>
    rw [Option.toList_some, List.flatMap_singleton, IR.Stmt.steps, operands_returnStmt]
    exact steps_option ht value (gave_option hvalue)
  | @raise value _ hvalue =>
    rw [Option.toList_some, List.flatMap_singleton, IR.Stmt.steps, IR.Stmt.operands]
    exact steps_option ht value (gave_option hvalue)

/-! ## Lists of statements -/

/-- Statements and what they were lowered to, one by one: each left at most one behind. -/
inductive StmtsTo (setting : Setting) (t : Store) (b : BodyId) :
    List Surface.Stmt → List IR.Stmt → Prop
  | nil : StmtsTo setting t b [] []
  | cons {first : Surface.Stmt} {rest : List Surface.Stmt} {out : Option IR.Stmt}
    {lowered : List IR.Stmt} (hfirst : StmtCounterpart setting t b first.location first.kind out)
    (hrest : StmtsTo setting t b rest lowered) :
    StmtsTo setting t b (first :: rest) (out.toList ++ lowered)

theorem stmtsTo_of_gave (ht : t.WellFormed) : ∀ {statements : List Surface.Stmt}
    {lowered : List IR.Stmt}, Gave t b (lowerStmts setting b statements) lowered →
      StmtsTo setting t b statements lowered
  | [], _, h => by
    cases gave_stmts_nil h
    exact .nil
  | _ :: _, _, h => by
    obtain ⟨out, rest, rfl, hfirst, hrest⟩ := gave_stmts_cons h
    exact .cons (gave_stmtCounterpart (gave_stmt hfirst) ht) (stmtsTo_of_gave ht hrest)

theorem StmtsTo.append {statements more : List Surface.Stmt} {lowered lowered' : List IR.Stmt}
    (h : StmtsTo setting t b statements lowered) (hmore : StmtsTo setting t b more lowered') :
    StmtsTo setting t b (statements ++ more) (lowered ++ lowered') := by
  induction h with
  | nil => exact hmore
  | cons hfirst _ ih =>
    rw [List.cons_append, List.append_assoc]
    exact .cons hfirst ih

/-- One statement. -/
theorem StmtCounterpart.single {first : Surface.Stmt}
    (h : StmtCounterpart setting t b first.location first.kind out) :
    StmtsTo setting t b [first] out.toList := by
  simpa using StmtsTo.cons h .nil

/-- Every lowered statement comes from a written one. -/
theorem StmtsTo.exists_of_mem {statements : List Surface.Stmt} {lowered : List IR.Stmt}
    (h : StmtsTo setting t b statements lowered) (hmem : statement ∈ lowered) :
    ∃ first ∈ statements, StmtCounterpart setting t b first.location first.kind
      (some statement) := by
  induction h with
  | nil => cases hmem
  | @cons first rest out lowered hfirst _ ih =>
    rcases List.mem_append.1 hmem with hmem | hmem
    · cases out with
      | none => cases hmem
      | some s =>
        cases List.mem_singleton.1 hmem
        exact ⟨first, List.mem_cons_self, hfirst⟩
    · obtain ⟨found, hfound, h⟩ := ih hmem
      exact ⟨found, List.mem_cons_of_mem _ hfound, h⟩

/-- **Lowered statements take the same steps as the written ones.** -/
theorem StmtsTo.steps (ht : t.WellFormed) {statements : List Surface.Stmt} {lowered : List IR.Stmt}
    (h : StmtsTo setting t b statements lowered) :
    StepsTo setting t b (statements.flatMap (Surface.Stmt.steps setting.dialect))
      (lowered.flatMap IR.Stmt.steps) := by
  induction h with
  | nil => exact .nil
  | cons hfirst _ ih =>
    rw [List.flatMap_cons, List.flatMap_append]
    exact (hfirst.steps ht).append ih

/-- A statement without statements inside was lowered to one without. -/
theorem StmtCounterpart.single_within {first : Surface.Stmt}
    (h : StmtCounterpart setting t b first.location first.kind out)
    (hfirst : first.within = [first])
    (hout : IR.stmtsWithin out.toList = out.toList) :
    StmtsTo setting t b first.within (IR.stmtsWithin out.toList) := by
  rw [hfirst, hout]
  exact h.single

theorem within_idle {location : Location} (h : kind.idle = true) :
    (Surface.Stmt.mk kind location).within = [⟨kind, location⟩] := by
  cases kind <;> first | rfl | cases h

theorem within_bound {location : Location} (h : kind.bound? = some name) :
    (Surface.Stmt.mk kind location).within = [⟨kind, location⟩] := by
  cases kind <;> first | rfl | cases h

theorem stmtsWithin_single (h : statement.within = [statement]) :
    IR.stmtsWithin (some statement).toList = (some statement).toList := by
  rw [Option.toList_some, IR.stmtsWithin, h]
  rfl

mutual

theorem StmtCounterpart.within (ht : t.WellFormed) : ∀ (first : Surface.Stmt)
    {out : Option IR.Stmt}, StmtCounterpart setting t b first.location first.kind out →
      StmtsTo setting t b first.within (IR.stmtsWithin out.toList)
  | ⟨kind, location⟩, _, h => by
    have hself := h
    cases h with
    | idle h => exact hself.single_within (within_idle h) rfl
    | expr hvalue => exact hself.single_within rfl rfl
    | binds hname _ hbinds =>
      exact hself.single_within (within_bound hname) (stmtsWithin_single hbinds.within)
    | ret _ _ hvalue =>
      exact hself.single_within rfl (stmtsWithin_single (within_returnStmt _ _))
    | raise hvalue => exact hself.single_within rfl rfl
    | @branch _ body orelse _ _ _ _ hyes hno =>
      rw [Surface.Stmt.within, Option.toList_some, IR.stmtsWithin, IR.stmtsWithin, List.append_nil,
        IR.Stmt.within, IR.optionWithin_ofNonempty, IR.optionWithin_ofNonempty]
      exact .cons hself ((within_stmts ht body hyes).append (within_stmts ht orelse hno))
    | @loop _ body _ _ _ hbody =>
      rw [Surface.Stmt.within, Option.toList_some, IR.stmtsWithin, IR.stmtsWithin, List.append_nil,
        IR.Stmt.within, IR.optionWithin_ofNonempty]
      exact .cons hself (within_stmts ht body hbody)

/-- **The statements at any depth were lowered one by one.** -/
theorem within_stmts (ht : t.WellFormed) : ∀ (statements : List Surface.Stmt)
    {lowered : List IR.Stmt}, Gave t b (lowerStmts setting b statements) lowered →
      StmtsTo setting t b (Surface.stmtsWithin statements) (IR.stmtsWithin lowered)
  | [], _, h => by
    cases gave_stmts_nil h
    exact .nil
  | first :: rest, _, h => by
    obtain ⟨out, rest', rfl, hfirst, hrest⟩ := gave_stmts_cons h
    rw [Surface.stmtsWithin, IR.stmtsWithin_append]
    exact (StmtCounterpart.within ht first (gave_stmtCounterpart (gave_stmt hfirst) ht)).append
      (within_stmts ht rest hrest)

end

end Lowering

end DefinitionLowering
