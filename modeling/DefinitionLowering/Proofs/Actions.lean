import DefinitionLowering.Proofs.Contents

/-!
# What can be seen of a run

An `Action` is one thing that running code does: evaluating an expression whose parts have been
evaluated, binding a name, or releasing a variable.  Names are as they are spelled in the scope,
and a function or class that is created is known by its name and place, so that written and
lowered code can be compared: the actions of an expression, parts first, tell which it is.

`StepTo.action` says that lowered code acts as the written code it stands for.  Decorators of the
runtime, which nothing written stands behind, are not among the actions.
-/

namespace DefinitionLowering

open IR (BodyId VariableId Store)

/-- One thing that running code does. -/
inductive Action where
  | name (id : String)
  | constant (value : Constant)
  | call (arguments : Nat)
  | binary (op : BinaryOperator)
  | member (name : String)
  | tuple (items : Nat)
  | mapping (keys : List String)
  | yield (hasValue : Bool)
  | yieldFrom
  | await
  /-- Creates a function with some defaults, those of keyword-only parameters and the annotations
  being known by their keys. -/
  | function (name : String) (location : Location) (defaults : Nat)
      (keywords annotations : List String)
  | klass (name : String) (location : Location) (bases : Nat)
  | object (kind : ObjectKind) (name : String) (location : Location)
  | iterator
  | element (count expected : Nat)
  | exhausted (count : Nat)
  | bind (name : String)
  | release (v : VariableId)
  deriving DecidableEq, Repr

/-! ## Written code -/

namespace Surface

variable (dialect : Dialect) (spell : String → String)

/-- The keyword-only parameters that have a default. -/
def Params.keywordKeys (params : Params) : List String :=
  (Lowering.keywordEntries (params.keywordOnly.map fun param => spell param.name)
    params.keywordDefaults).map Prod.fst

/-- The keys of the annotations that a dialect evaluates. -/
def Def.hintKeys (d : Def) : List String :=
  if dialect.annotations then
    (Lowering.annotationsOf d.params d.returns).map fun written =>
      if dialect.privateAnnotationKeys then spell written.1 else written.1
  else []

def Expr.action : Expr → Action
  | .name id => .name (spell id)
  | .constant value => .constant value
  | .call _ args => .call args.length
  | .binary _ op _ => .binary op
  | .attribute _ attr => .member (spell attr)
  | .tuple items => .tuple items.length
  | .yield value => .yield value.isSome
  | .yieldFrom _ => .yieldFrom
  | .await _ => .await
  | .lambda l =>
    .function "<lambda>" l.location l.params.defaults.length (l.params.keywordKeys spell) []

def Step.action : Step → Action
  | .eval e => e.action spell
  | .apply _ => .call 1
  | .create d =>
    .function d.name d.location d.params.defaults.length (d.params.keywordKeys spell)
      (d.hintKeys dialect spell)
  | .createClass d => .klass d.name d.location d.bases.length

/-- What a statement evaluates, but for the statements inside it. -/
def Stmt.actions (statement : Stmt) : List Action :=
  (statement.steps dialect).map (Step.action dialect spell)

/-- What a statement binds when nothing has raised. -/
def Stmt.bindings (statement : Stmt) : List Action :=
  (statement.kind.bound?.map fun name => .bind (spell name)).toList

end Surface

/-! ## Lowered code -/

namespace IR

/-- What is seen of variables and bodies. -/
structure Labels where
  nameOf : VariableId → String
  bodyOf : BodyId → String × Location

def Store.labels (s : Store) : Labels where
  nameOf v := (s.var v).name
  bodyOf b := ((s.body b).name, (s.body b).location)

/-- That an iterator has no element left is found out by asking for one. -/
def Stmt.check : Stmt → List Action
  | .checkExhausted _ count => [.exhausted count]
  | _ => []

/-- The keys of a mapping that may be absent. -/
def keysOf (o : Option Expr) : List String :=
  (o.bind Expr.keys?).getD []

namespace Labels

variable (labels : Labels)

def action : Expr → Action
  | .constant value => .constant value
  | .constantMapping entries => .mapping (entries.map Prod.fst)
  | .var v => .name (labels.nameOf v)
  | .freeName name | .builtin name => .name name
  | .call _ args => .call args.length
  | .binary _ op _ => .binary op
  | .attribute _ name => .member name
  | .tuple items => .tuple items.length
  | .mapping keys _ => .mapping keys
  | .yield value => .yield value.isSome
  | .yieldFrom _ => .yieldFrom
  | .await _ => .await
  | .makeFunction body _ defaults keywords annotations =>
    .function (labels.bodyOf body).1 (labels.bodyOf body).2 defaults.length (keysOf keywords)
      (keysOf annotations)
  | .callFunction _ values => .call values.length
  | .makeObject kind body _ => .object kind (labels.bodyOf body).1 (labels.bodyOf body).2
  | .makeClass body bases => .klass (labels.bodyOf body).1 (labels.bodyOf body).2 bases.length
  | .iterator _ => .iterator
  | .unpack _ count expected => .element count expected

/-- What a statement evaluates, but for the statements inside it. -/
def actions (statement : Stmt) : List Action :=
  (statement.steps.filter fun e => !e.implied).map labels.action ++ statement.check

/-- What a statement does when nothing has raised. -/
def effects : Stmt → List Action
  | .assignVariable v _ => [.bind (labels.nameOf v)]
  | .assignName name _ => [.bind name]
  | .release v => [.release v]
  | _ => []

end Labels

end IR

/-! ## The same actions -/

namespace Lowering

variable {setting : Setting} {t : Store} {b : BodyId} {location : Location}

theorem map_fst_of_forall₂ {α β γ : Type} {f : α → γ} {R : α → γ × β → Prop} {written : List α}
    {entries : List (γ × β)} (h : List.Forall₂ R written entries)
    (hR : ∀ a entry, R a entry → entry.1 = f a) : entries.map Prod.fst = written.map f := by
  induction h with
  | nil => rfl
  | cons hfirst _ ih => rw [List.map_cons, List.map_cons, hR _ _ hfirst, ih]

theorem KeywordsGave.keys {params : Surface.Params} {keywords : Option IR.Expr}
    (h : KeywordsGave setting t b location params keywords) :
    IR.keysOf keywords = params.keywordKeys (t.spell b) := by
  cases h with
  | absent hnone => simp [IR.keysOf, Surface.Params.keywordKeys, hnone, keywordEntries]
  | mapping entries hentries =>
    simp only [IR.keysOf, Option.bind_some, IR.Expr.keys?_ofEntries, Option.getD_some]
    exact map_fst_of_forall₂ (gave_keywordDefaults _ _ hentries) fun _ _ h => h.1

theorem keys_annotations {d : Surface.Def} {annotations : Option IR.Expr}
    (h : Gave t b (lowerAnnotations setting b d.location d.params d.returns) annotations) :
    IR.keysOf annotations = d.hintKeys setting.dialect (t.spell b) := by
  rw [Surface.Def.hintKeys]
  rcases gave_annotations h with ⟨hnone, rfl⟩ | ⟨hsome, entries, rfl, hentries⟩
  · rcases hnone with hnone | hnone <;> simp [hnone, IR.keysOf]
  · simp only [IR.keysOf, Option.bind_some, IR.Expr.keys?_ofEntries, Option.getD_some, hsome,
      if_true]
    exact map_fst_of_forall₂ hentries fun _ _ h => (gave_hint h).1

theorem length_exprs {values : List Surface.Expr} {es : List IR.Expr}
    (h : Gave t b (lowerExprs setting b location values) es) : es.length = values.length :=
  (gave_exprs h).length_eq.symm

theorem isSome_option {value : Option Surface.Expr} {o : Option IR.Expr}
    (h : Gave t b (lowerOption setting b location value) o) : o.isSome = value.isSome := by
  cases gave_option h <;> rfl

/-- A callable is seen as the function it is called through. -/
theorem CallableAt.label {callee : Callee} {made : Callable} {object : Option BodyId}
    (h : CallableAt setting t callee b made object) :
    t.labels.bodyOf made.outer = (callee.name, callee.location) :=
  Prod.ext h.stands.outer.name h.stands.outer.location

/-- **A lowered expression acts as the written one.** -/
theorem Counterpart.action {e : Surface.Expr} {e' : IR.Expr}
    (h : Counterpart setting t b location e e') : t.labels.action e' = e.action (t.spell b) := by
  cases h with
  | var hfind => exact congrArg Action.name (IR.Store.find?_eq_some hfind).2
  | freeName | constant | binary | member | yieldFrom | await => rfl
  | call _ hargs => exact congrArg Action.call (length_exprs hargs)
  | tuple hitems => exact congrArg Action.tuple (length_exprs hitems)
  | yield _ hvalue => exact congrArg Action.yield (isSome_option hvalue)
  | lambda hcallable hdefaults hkeywords =>
    rw [IR.Labels.action, hcallable.label, hkeywords.keys, length_exprs hdefaults]
    rfl

/-- **Lowered code acts as the written code it stands for.** -/
theorem StepTo.action {step : Surface.Step} {e : IR.Expr} (h : StepTo setting t b step e)
    (ht : t.WellFormed) : t.labels.action e = step.action setting.dialect (t.spell b) := by
  cases h with
  | eval location h => exact (gave_counterpart h ht).action
  | apply => rfl
  | create h =>
    obtain ⟨made, object, defaults, keywords, annotations, hcallable, hdefaults, hkeywords,
      hannotations⟩ := h
    rw [creation, IR.Labels.action, hcallable.label, hkeywords.keys, length_exprs hdefaults,
      keys_annotations hannotations]
    rfl
  | @createClass d c bases h hbases =>
    have hlabel : t.labels.bodyOf c = (d.name, d.location) :=
      Prod.ext h.planned.name h.planned.location
    rw [IR.Labels.action, hlabel, length_exprs hbases]
    rfl

theorem StepsTo.actions {steps : List Surface.Step} {es : List IR.Expr}
    (h : StepsTo setting t b steps es) (ht : t.WellFormed) :
    (es.filter fun e => !e.implied).map t.labels.action =
      steps.map (Surface.Step.action setting.dialect (t.spell b)) := by
  induction h with
  | nil => rfl
  | cons hfirst _ ih =>
    rw [List.filter_cons_of_pos (by rw [hfirst.written ht]; rfl), List.map_cons, List.map_cons,
      hfirst.action ht, ih]
  | implied _ _ ih | applied _ _ ih => exact ih

theorem Binds.effects {name : String} {source : IR.Expr} {statement : IR.Stmt}
    (h : Binds t b name source statement) : t.labels.effects statement = [.bind name] := by
  cases h with
  | var hfind => exact congrArg (fun name => [Action.bind name]) (IR.Store.find?_eq_some hfind).2
  | name => rfl

variable {first : Surface.Stmt} {statement : IR.Stmt}

/-- Only what takes arguments apart checks that an iterator is exhausted. -/
theorem StmtCounterpart.check {kind : Surface.StmtKind}
    (h : StmtCounterpart setting t b location kind (some statement)) : statement.check = [] := by
  cases h with
  | binds _ _ hbinds => cases hbinds <;> rfl
  | ret =>
    exact returnStmt_of_forms (P := fun s => s.check = []) _ _ (fun _ => rfl) rfl (fun _ => rfl) rfl
  | _ => rfl

/-- A statement evaluates what the written one does. -/
theorem StmtCounterpart.actions
    (h : StmtCounterpart setting t b first.location first.kind (some statement))
    (ht : t.WellFormed) :
    t.labels.actions statement = first.actions setting.dialect (t.spell b) := by
  have hsteps := (h.steps ht).actions ht
  rw [Option.toList_some, List.flatMap_singleton] at hsteps
  rw [IR.Labels.actions, hsteps, h.check, List.append_nil]
  rfl

/-- A statement binds what the written one does. -/
theorem StmtCounterpart.effects
    (h : StmtCounterpart setting t b first.location first.kind (some statement)) :
    t.labels.effects statement = first.bindings (t.spell b) := by
  rw [Surface.Stmt.bindings]
  generalize first.kind = kind at h ⊢
  cases h with
  | binds hname _ hbinds =>
    rw [hname]
    exact hbinds.effects
  | ret =>
    exact returnStmt_of_forms (P := fun s => t.labels.effects s = []) _ _ (fun _ => rfl) rfl
      (fun _ => rfl) rfl
  | _ => rfl

end Lowering

end DefinitionLowering
