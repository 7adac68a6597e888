import DefinitionLowering.Proofs.Paths

/-!
# What running code evaluates

`Expr.evaluations` lists the expressions that evaluating one evaluates, in order, itself last; the
code of another body that it creates is not among them.  `Expr.steps` leaves out mappings of
defaults and annotations, behind which nothing written stands.  Nor does anything stand behind
decorators that a definition gets by itself (`Expr.implied`).

`Block.within` lists all statements of a block at any depth, `Stmt.operands` the expressions of a
statement itself, and `Block.variables` all variables that a block mentions, assigns or releases.
-/

namespace DefinitionLowering.IR

/-! ## Expressions -/

mutual

/-- The expressions that are evaluated for an expression, parts first. -/
def Expr.evaluations : Expr → List Expr
  | .constant value => [.constant value]
  | .constantMapping entries =>
    entries.map (fun entry => .constant entry.2) ++ [.constantMapping entries]
  | .var v => [.var v]
  | .freeName name => [.freeName name]
  | .builtin name => [.builtin name]
  | .call callee args => callee.evaluations ++ exprsEvaluations args ++ [.call callee args]
  | .binary left op right => left.evaluations ++ right.evaluations ++ [.binary left op right]
  | .attribute value name => value.evaluations ++ [.attribute value name]
  | .tuple items => exprsEvaluations items ++ [.tuple items]
  | .mapping keys values => exprsEvaluations values ++ [.mapping keys values]
  | .yield value => optionEvaluations value ++ [.yield value]
  | .yieldFrom value => value.evaluations ++ [.yieldFrom value]
  | .await value => value.evaluations ++ [.await value]
  | .makeFunction body code defaults keywordDefaults annotations =>
    exprsEvaluations defaults ++ optionEvaluations keywordDefaults ++
      optionEvaluations annotations ++
      [.makeFunction body code defaults keywordDefaults annotations]
  | .callFunction function values =>
    function.evaluations ++ exprsEvaluations values ++ [.callFunction function values]
  | .makeObject kind body code => [.makeObject kind body code]
  | .makeClass body bases => exprsEvaluations bases ++ [.makeClass body bases]
  | .iterator value => value.evaluations ++ [.iterator value]
  | .unpack source count expected => source.evaluations ++ [.unpack source count expected]

def exprsEvaluations : List Expr → List Expr
  | [] => []
  | first :: rest => first.evaluations ++ exprsEvaluations rest

def optionEvaluations : Option Expr → List Expr
  | none => []
  | some value => value.evaluations

end

theorem exprsEvaluations_eq (es : List Expr) :
    exprsEvaluations es = es.flatMap Expr.evaluations := by
  induction es with
  | nil => rfl
  | cons first rest ih =>
    rw [exprsEvaluations, ih]
    rfl

theorem optionEvaluations_eq (o : Option Expr) :
    optionEvaluations o = exprsEvaluations o.toList := by
  cases o <;> simp [optionEvaluations, exprsEvaluations]

mutual

/-- The variables that an expression mentions are evaluated. -/
theorem Expr.var_mem_evaluations {v : VariableId} : ∀ {e : Expr},
    v ∈ e.mentions → .var v ∈ e.evaluations
  | .var w, h => by
    rw [Expr.mentions, List.mem_singleton] at h
    rw [h]
    exact List.mem_singleton.2 rfl
  | .constant _, h | .constantMapping _, h | .freeName _, h | .builtin _, h
  | .makeObject _ _ _, h => by simp [Expr.mentions] at h
  | .call callee args, h => by
    rw [Expr.mentions, List.mem_append] at h
    rw [Expr.evaluations]
    exact List.mem_append_left _ (List.mem_append.2
      (h.imp Expr.var_mem_evaluations var_mem_exprsEvaluations))
  | .binary left _ right, h => by
    rw [Expr.mentions, List.mem_append] at h
    rw [Expr.evaluations]
    exact List.mem_append_left _ (List.mem_append.2
      (h.imp Expr.var_mem_evaluations Expr.var_mem_evaluations))
  | .attribute value _, h => by
    rw [Expr.mentions] at h
    exact List.mem_append_left _ (Expr.var_mem_evaluations h)
  | .tuple items, h => by
    rw [Expr.mentions] at h
    exact List.mem_append_left _ (var_mem_exprsEvaluations h)
  | .mapping _ values, h => by
    rw [Expr.mentions] at h
    exact List.mem_append_left _ (var_mem_exprsEvaluations h)
  | .yield value, h => by
    rw [Expr.mentions] at h
    exact List.mem_append_left _ (var_mem_optionEvaluations h)
  | .yieldFrom value, h => by
    rw [Expr.mentions] at h
    exact List.mem_append_left _ (Expr.var_mem_evaluations h)
  | .await value, h => by
    rw [Expr.mentions] at h
    exact List.mem_append_left _ (Expr.var_mem_evaluations h)
  | .iterator value, h => by
    rw [Expr.mentions] at h
    exact List.mem_append_left _ (Expr.var_mem_evaluations h)
  | .unpack value _ _, h => by
    rw [Expr.mentions] at h
    exact List.mem_append_left _ (Expr.var_mem_evaluations h)
  | .makeFunction _ _ defaults keywordDefaults annotations, h => by
    rw [Expr.mentions, List.mem_append, List.mem_append] at h
    rw [Expr.evaluations]
    refine List.mem_append_left _ (List.mem_append.2 (h.imp (fun h => List.mem_append.2 ?_)
      var_mem_optionEvaluations))
    exact h.imp var_mem_exprsEvaluations var_mem_optionEvaluations
  | .callFunction function values, h => by
    rw [Expr.mentions, List.mem_append] at h
    rw [Expr.evaluations]
    exact List.mem_append_left _ (List.mem_append.2
      (h.imp Expr.var_mem_evaluations var_mem_exprsEvaluations))
  | .makeClass _ bases, h => by
    rw [Expr.mentions] at h
    exact List.mem_append_left _ (var_mem_exprsEvaluations h)

theorem var_mem_exprsEvaluations {v : VariableId} : ∀ {es : List Expr},
    v ∈ exprsMentions es → .var v ∈ exprsEvaluations es
  | [], h => by simp [exprsMentions] at h
  | first :: rest, h => by
    rw [exprsMentions, List.mem_append] at h
    rw [exprsEvaluations, List.mem_append]
    exact h.imp Expr.var_mem_evaluations var_mem_exprsEvaluations

theorem var_mem_optionEvaluations {v : VariableId} : ∀ {o : Option Expr},
    v ∈ optionMentions o → .var v ∈ optionEvaluations o
  | none, h => by simp [optionMentions] at h
  | some value, h => by
    rw [optionMentions] at h
    exact Expr.var_mem_evaluations h

end

/-! ## Steps -/

/-- Whether an expression is a mapping of defaults or annotations. -/
def Expr.silent : Expr → Bool
  | .constantMapping _ | .mapping _ _ => true
  | _ => false

/-- Whether an expression is a decorator of the runtime or its application. -/
def Expr.implied : Expr → Bool
  | .builtin _ | .call (.builtin _) _ => true
  | _ => false

/-- What is evaluated for an expression, mappings apart. -/
def Expr.steps (e : Expr) : List Expr :=
  e.evaluations.filter fun f => !f.silent

theorem Expr.mem_steps {e f : Expr} : f ∈ e.steps ↔ f ∈ e.evaluations ∧ f.silent = false := by
  simp [Expr.steps]

theorem flatMap_steps (es : List Expr) :
    es.flatMap Expr.steps = (exprsEvaluations es).filter fun f => !f.silent := by
  rw [exprsEvaluations_eq, List.filter_flatMap]
  rfl

/-- The constants of a mapping that is one are its values. -/
theorem constantEntries?_values : ∀ {entries : List (String × Expr)}
    {constants : List (String × Constant)}, Expr.constantEntries? entries = some constants →
      entries.map Prod.snd = constants.map fun entry => .constant entry.2
  | [], constants, h => by
    cases h
    rfl
  | (key, value) :: rest, constants, h => by
    simp only [Expr.constantEntries?, List.mapM_cons, Option.bind_eq_bind, Option.bind_eq_some_iff,
      Option.map_eq_some_iff] at h
    obtain ⟨_, ⟨constant, hconstant, rfl⟩, constants, hrest, heq⟩ := h
    cases heq
    rw [List.map_cons, List.map_cons, constantEntries?_values hrest]
    cases value <;> cases hconstant
    rfl

/-- What is evaluated for a mapping are its values. -/
theorem Expr.steps_ofEntries (entries : List (String × Expr)) :
    (Expr.ofEntries entries).steps = entries.flatMap fun entry => entry.2.steps := by
  have hvalues : entries.flatMap (fun entry => entry.2.steps) =
      (entries.map Prod.snd).flatMap Expr.steps := by
    rw [List.flatMap_map]
  rw [hvalues]
  unfold Expr.ofEntries
  split
  · rename_i constants h
    rw [constantEntries?_values h, Expr.steps, Expr.evaluations, flatMap_steps,
      exprsEvaluations_eq, List.filter_append, List.flatMap_map]
    simp [Expr.evaluations, Expr.silent, List.map_eq_flatMap]
  · rw [flatMap_steps, Expr.steps, Expr.evaluations, List.filter_append]
    simp [Expr.silent]

/-! ## Statements -/

/-- The expressions of a statement, but for those of the statements inside it. -/
def Stmt.operands : Stmt → List Expr
  | .assignVariable _ source | .assignName _ source => [source]
  | .expr value | .ret value | .objectRet value | .checkExhausted value _ => [value]
  | .raise value => value.toList
  | .branch condition _ _ | .loop condition _ => [condition]
  | .retNone | .objectRetNone | .release _ | .tryFinally _ _ => []

/-- The variables that a statement assigns or releases itself. -/
def Stmt.targets : Stmt → List VariableId
  | .assignVariable target _ | .release target => [target]
  | _ => []

mutual

/-- The statement and all statements inside it. -/
def Stmt.within : Stmt → List Stmt
  | .tryFinally tried cleanup => .tryFinally tried cleanup :: (tried.within ++ cleanup.within)
  | .branch condition yes no => .branch condition yes no :: (optionWithin yes ++ optionWithin no)
  | .loop condition body => .loop condition body :: optionWithin body
  | .assignVariable target source => [.assignVariable target source]
  | .assignName target source => [.assignName target source]
  | .expr value => [.expr value]
  | .ret value => [.ret value]
  | .retNone => [.retNone]
  | .objectRet value => [.objectRet value]
  | .objectRetNone => [.objectRetNone]
  | .raise value => [.raise value]
  | .release target => [.release target]
  | .checkExhausted iterator count => [.checkExhausted iterator count]

/-- All statements of a block, at any depth. -/
def Block.within : Block → List Stmt
  | ⟨statements, _⟩ => stmtsWithin statements

def optionWithin : Option Block → List Stmt
  | none => []
  | some block => block.within

def stmtsWithin : List Stmt → List Stmt
  | [] => []
  | first :: rest => first.within ++ stmtsWithin rest

end

theorem Block.within_eq (block : Block) : block.within = stmtsWithin block.statements := by
  obtain ⟨statements, frame⟩ := block
  rw [Block.within]

@[simp] theorem stmtsWithin_append (first rest : List Stmt) :
    stmtsWithin (first ++ rest) = stmtsWithin first ++ stmtsWithin rest := by
  induction first with
  | nil => rfl
  | cons head tail ih => simp [stmtsWithin, ih]

@[simp] theorem optionWithin_ofNonempty (statements : List Stmt) :
    optionWithin (Block.ofNonempty? statements) = stmtsWithin statements := by
  cases statements with
  | nil => rfl
  | cons first rest => simp [Block.ofNonempty?, optionWithin, Block.within_eq, Block.ofStatements]

/-- Statements without statements inside. -/
theorem stmtsWithin_of_simple {statements : List Stmt}
    (h : ∀ statement ∈ statements, statement.within = [statement]) :
    stmtsWithin statements = statements := by
  induction statements with
  | nil => rfl
  | cons first rest ih =>
    rw [stmtsWithin, h first List.mem_cons_self,
      ih fun statement hs => h statement (List.mem_cons_of_mem _ hs)]
    rfl

/-- Releasing variables at the end adds a `try` and the releases. -/
theorem Block.within_releasing (vars : List VariableId) (tried : Block) :
    (tried.releasing vars).within =
      .tryFinally tried (.ofStatements (vars.map .release)) ::
        (tried.within ++ vars.map .release) := by
  have hreleases : stmtsWithin (vars.map .release) = vars.map .release :=
    stmtsWithin_of_simple fun statement h => by
      obtain ⟨v, -, rfl⟩ := List.mem_map.1 h
      rw [Stmt.within]
  rw [Block.releasing, Block.single, Block.within, stmtsWithin, stmtsWithin, List.append_nil,
    Stmt.within, Block.ofStatements, Block.within, hreleases]

/-- The variables that a block mentions, assigns or releases. -/
def Block.variables (block : Block) : List VariableId :=
  block.within.flatMap fun statement =>
    statement.targets ++ statement.operands.flatMap Expr.mentions

/-- All expressions of a block, at any depth of its statements. -/
def Block.terms (block : Block) : List Expr :=
  block.within.flatMap fun statement => statement.operands.flatMap Expr.evaluations

theorem Block.mem_terms {block : Block} {f : Expr} :
    f ∈ block.terms ↔ ∃ statement ∈ block.within, ∃ e ∈ statement.operands, f ∈ e.evaluations := by
  simp only [Block.terms, List.mem_flatMap]

theorem Block.mem_variables {block : Block} {v : VariableId} :
    v ∈ block.variables ↔ ∃ statement ∈ block.within,
      v ∈ statement.targets ∨ ∃ e ∈ statement.operands, v ∈ e.mentions := by
  simp only [Block.variables, List.mem_flatMap, List.mem_append]

/-- Releasing variables adds just these to the variables of a block. -/
theorem Block.mem_variables_releasing {vars : List VariableId} {tried : Block}
    {v : VariableId} : v ∈ (tried.releasing vars).variables ↔ v ∈ tried.variables ∨ v ∈ vars := by
  simp [Block.variables, Block.within_releasing, Stmt.targets, Stmt.operands, List.flatMap_append,
    List.flatMap_map]

/-- Releases evaluate nothing. -/
@[simp] theorem Block.terms_releasing (vars : List VariableId) (tried : Block) :
    (tried.releasing vars).terms = tried.terms := by
  simp [Block.terms, Block.within_releasing, Stmt.operands, List.flatMap_append, List.flatMap_map]

end DefinitionLowering.IR
