import DefinitionLowering.Proofs.Callees
import DefinitionLowering.Proofs.Identifiers

/-!
# Relations that lowering respects

A relation between the stores before and after a step in a body holds of all lowering as soon as
it holds of looking names up and of the steps that make callables and classes.  `ExprPass` and
`StmtPass` collect what has to be shown; `ExprPass.lowerExpr` and `StmtPass.lowerStmts` are the
inductions over the surface tree, done once for all such relations.

A relation may hold only as long as certain names are not looked up.  So a pass is about allowed
names, and the inductions are about trees whose identifiers are allowed.
-/

namespace DefinitionLowering

open IR (BodyId VariableId Store)

namespace Lowering

variable {α β : Type} {setting : Setting} {allowed : String → Prop}
  {R : BodyId → Store → Store → Prop} {b c : BodyId} {location : Location}

/-- When the step gives a value in a body, the relation holds of the stores. -/
def Obeys (R : BodyId → Store → Store → Prop) (b : BodyId) (x : Lowering α) : Prop :=
  ∀ s a s', s.WellFormed → b.index < s.bodies.size → x s = .ok a s' →
    s'.WellFormed ∧ Store.Grows s.bodies.size s s' ∧ R b s s'

/-- All names are allowed. -/
def AnyName (_ : String) : Prop :=
  True

theorem anyName (names : List String) : ∀ id ∈ names, AnyName id :=
  fun _ _ => trivial

/-- What has to be shown for expressions whose identifiers are allowed. -/
structure ExprPass (setting : Setting) (allowed : String → Prop)
    (R : BodyId → Store → Store → Prop) : Prop where
  spell : ∀ {s : Store} {b name}, allowed name → allowed (s.spell b name)
  refl : ∀ {b s}, s.WellFormed → R b s s
  trans : ∀ {b s s₁ s₂}, s.WellFormed → b.index < s.bodies.size → s₁.WellFormed →
    Store.Grows s.bodies.size s s₁ → Store.Grows s₁.bodies.size s₁ s₂ →
    R b s s₁ → R b s₁ s₂ → R b s s₂
  resolve : ∀ {b s name}, allowed name → s.WellFormed → b.index < s.bodies.size →
    R b s (s.resolve b name).2
  lambda : ∀ {b s e s'} {l : Surface.Lambda},
    (∀ c location, Obeys R c (lowerExprs setting c location l.params.defaults)) →
    (∀ c holder location, Obeys R c (lowerKeywordMapping setting c holder location l.params)) →
    (∀ c location, Obeys R c (lowerExpr setting c location l.body)) →
    s.WellFormed → b.index < s.bodies.size → LambdaRun setting b l s e s' → R b s s'

section Rules

variable {x : Lowering α} {f : α → Lowering β}

theorem ExprPass.pure (h : ExprPass setting allowed R) (a : α) :
    Obeys R b (pure a : Lowering α) := by
  intro s a' s' hs hb hrun
  cases hrun
  exact ⟨hs, Store.Grows.refl _ _, h.refl hs⟩

theorem ExprPass.query (h : ExprPass setting allowed R) (f : Store → α) : Obeys R b (query f) := by
  intro s a' s' hs hb hrun
  cases hrun
  exact ⟨hs, Store.Grows.refl _ _, h.refl hs⟩

theorem obeys_reject {cause : Cause} : Obeys R b (reject cause location : Lowering α) := by
  intro s a' s' hs hb hrun
  cases hrun

theorem ExprPass.bind (h : ExprPass setting allowed R) (hx : Obeys R b x)
    (hf : ∀ a, Obeys R b (f a)) : Obeys R b (x >>= f) := by
  intro s a' s' hs hb hrun
  obtain ⟨a, s₁, hrun₁, hrun₂⟩ := bind_eq_ok hrun
  obtain ⟨hs₁, hg₁, hR₁⟩ := hx _ _ _ hs hb hrun₁
  obtain ⟨hs₂, hg₂, hR₂⟩ := hf a _ _ _ hs₁ (Nat.lt_of_lt_of_le hb hg₁.bodies) hrun₂
  exact ⟨hs₂, hg₁.trans hg₂ hg₁.bodies, h.trans hs hb hs₁ hg₁ hg₂ hR₁ hR₂⟩

theorem obeys_rejected {cause : Cause} : Obeys R b (reject cause location >>= f) := by
  intro s a' s' hs hb hrun
  cases hrun

theorem ExprPass.mapM (h : ExprPass setting allowed R) {step : β → Lowering α} : ∀ {items : List β},
    (∀ item ∈ items, Obeys R b (step item)) → Obeys R b (items.mapM step)
  | [], _ => by
    rw [List.mapM_nil]
    exact h.pure _
  | first :: rest, hstep => by
    rw [List.mapM_cons]
    exact h.bind (hstep first List.mem_cons_self) fun _ =>
      h.bind (h.mapM fun item hitem => hstep item (List.mem_cons_of_mem _ hitem)) fun _ =>
        h.pure _

end Rules

/-! ## Expressions -/

theorem ExprPass.kindOf (h : ExprPass setting allowed R) : Obeys R b (kindOf c) :=
  h.query _

theorem ExprPass.spellName (h : ExprPass setting allowed R) (name : String) :
    Obeys R b (Lowering.spell c name) :=
  h.query _

/-- An allowed name stays so when it is spelled. -/
theorem ExprPass.spelled (h : ExprPass setting allowed R) {name : String} (hname : allowed name)
    {f : String → Lowering α} (hf : ∀ text, allowed text → Obeys R b (f text)) :
    Obeys R b (Lowering.spell c name >>= f) := by
  intro s a s' hs hb hrun
  obtain ⟨text, s₁, hspell, hrest⟩ := bind_eq_ok hrun
  cases hspell
  exact hf _ (h.spell hname) s a s' hs hb hrest

theorem ExprPass.resolveName (h : ExprPass setting allowed R) {name : String}
    (hname : allowed name) : Obeys R b (Lowering.resolve b name) := by
  intro s a s' hs hb hrun
  have hs' : s' = (s.resolve b name).2 := by
    cases hrun
    rfl
  rw [hs']
  exact ⟨hs.resolve b name, Store.Grows.resolve _ s b name, h.resolve hname hs hb⟩

theorem ExprPass.reference (h : ExprPass setting allowed R) {name : String}
    (hname : allowed name) : Obeys R b (reference b name) := by
  unfold Lowering.reference
  refine h.spelled hname fun text htext => h.bind h.kindOf fun kind => ?_
  split
  · exact h.pure _
  · refine h.bind (h.resolveName htext) fun found => ?_
    cases found <;> exact h.pure _

theorem ExprPass.bindName (h : ExprPass setting allowed R) {name : String} (hname : allowed name)
    (source : IR.Expr) : Obeys R b (bindName b name source) := by
  unfold Lowering.bindName
  refine h.bind h.kindOf fun kind => ?_
  split
  · exact h.pure _
  · refine h.bind (h.resolveName hname) fun found => ?_
    cases found <;> exact h.pure _

theorem ExprPass.bindDefinition (h : ExprPass setting allowed R) {name : String}
    (hname : allowed name) (value : IR.Expr) : Obeys R b (bindDefinition b name value) :=
  h.spelled hname fun _ htext => h.bindName htext value

/-- The mapping of keyword-only defaults, given their lowering. -/
theorem ExprPass.keywordMapping (h : ExprPass setting allowed R) (holder : BodyId)
    {params : Surface.Params} (hdefaults : ∀ names,
      Obeys R b (Lowering.lowerKeywordDefaults setting b location names params.keywordDefaults)) :
    Obeys R b (Lowering.lowerKeywordMapping setting b holder location params) := by
  unfold Lowering.lowerKeywordMapping Lowering.keywordMapping
  refine h.bind (h.query _) fun names => ?_
  split
  · exact h.pure _
  · exact h.bind (hdefaults names) fun _ => h.pure _

mutual

theorem ExprPass.lowerExpr (h : ExprPass setting allowed R) : ∀ (e : Surface.Expr) (b : BodyId)
    (location : Location), (∀ id ∈ e.identifiers, allowed id) →
      Obeys R b (lowerExpr setting b location e)
  | .name id, b, location, he => by
    rw [Surface.Expr.identifiers, List.forall_mem_singleton] at he
    rw [Lowering.lowerExpr]
    exact h.reference he
  | .constant value, b, location, _ => by
    rw [Lowering.lowerExpr]
    exact h.pure _
  | .call callee args, b, location, he => by
    rw [Surface.Expr.identifiers, List.forall_mem_append] at he
    rw [Lowering.lowerExpr]
    exact h.bind (h.lowerExpr callee b location he.1) fun _ =>
      h.bind (h.lowerExprs args b location he.2) fun _ => h.pure _
  | .binary left op right, b, location, he => by
    rw [Surface.Expr.identifiers, List.forall_mem_append] at he
    rw [Lowering.lowerExpr]
    exact h.bind (h.lowerExpr left b location he.1) fun _ =>
      h.bind (h.lowerExpr right b location he.2) fun _ => h.pure _
  | .attribute value name, b, location, he => by
    rw [Surface.Expr.identifiers, List.forall_mem_append] at he
    rw [Lowering.lowerExpr]
    exact h.bind (h.lowerExpr value b location he.1) fun _ =>
      h.bind (h.spellName name) fun _ => h.pure _
  | .tuple items, b, location, he => by
    rw [Surface.Expr.identifiers] at he
    rw [Lowering.lowerExpr]
    exact h.bind (h.lowerExprs items b location he) fun _ => h.pure _
  | .yield value, b, location, he => by
    rw [Surface.Expr.identifiers] at he
    rw [Lowering.lowerExpr]
    refine h.bind h.kindOf fun kind => ?_
    split
    · exact h.bind (h.lowerOption value b location he) fun _ => h.pure _
    · exact obeys_rejected
  | .yieldFrom value, b, location, he => by
    rw [Surface.Expr.identifiers] at he
    rw [Lowering.lowerExpr]
    refine h.bind h.kindOf fun kind => ?_
    split
    · refine h.bind h.kindOf fun kind => ?_
      split
      · exact obeys_rejected
      · exact h.bind (h.lowerExpr value b location he) fun _ => h.pure _
    · exact obeys_rejected
  | .await value, b, location, he => by
    rw [Surface.Expr.identifiers] at he
    rw [Lowering.lowerExpr]
    refine h.bind h.kindOf fun kind => ?_
    split
    · exact h.bind (h.lowerExpr value b location he) fun _ => h.pure _
    · exact obeys_rejected
  | .lambda ⟨⟨positional, defaults, star, keywordOnly, keywordDefaults, doubleStar⟩, body, place⟩,
      b, location, he => by
    rw [Surface.Expr.identifiers, Surface.forall_lambda_identifiers,
      Surface.forall_params_identifiers] at he
    obtain ⟨⟨-, hdefaults, -, -, hkeywords, -⟩, hbody⟩ := he
    intro s e s' hs hb hrun
    obtain ⟨hran, -⟩ := sound_ran (fun m => sound_lowerExpr setting (.lambda ⟨⟨positional, defaults,
      star, keywordOnly, keywordDefaults, doubleStar⟩, body, place⟩) m b location) hs hb hrun
    rw [Lowering.lowerExpr] at hrun
    refine ⟨hran.wellFormed, hran.grows, h.lambda ?_ ?_ ?_ hs hb (lambdaRun_of_ok hs hb hrun)⟩
    · exact fun c location => h.lowerExprs defaults c location hdefaults
    · exact fun c holder location => h.keywordMapping holder fun names =>
        h.lowerKeywordDefaults keywordDefaults c location names hkeywords
    · exact fun c location => h.lowerExpr body c location hbody

theorem ExprPass.lowerExprs (h : ExprPass setting allowed R) : ∀ (es : List Surface.Expr)
    (b : BodyId) (location : Location), (∀ id ∈ Surface.exprsIdentifiers es, allowed id) →
      Obeys R b (lowerExprs setting b location es)
  | [], b, location, _ => by
    rw [Lowering.lowerExprs]
    exact h.pure _
  | first :: rest, b, location, hes => by
    rw [Surface.exprsIdentifiers, List.forall_mem_append] at hes
    rw [Lowering.lowerExprs]
    exact h.bind (h.lowerExpr first b location hes.1) fun _ =>
      h.bind (h.lowerExprs rest b location hes.2) fun _ => h.pure _

theorem ExprPass.lowerOption (h : ExprPass setting allowed R) : ∀ (value : Option Surface.Expr)
    (b : BodyId) (location : Location), (∀ id ∈ Surface.optionIdentifiers value, allowed id) →
      Obeys R b (lowerOption setting b location value)
  | none, b, location, _ => by
    rw [Lowering.lowerOption]
    exact h.pure _
  | some value, b, location, hvalue => by
    rw [Surface.optionIdentifiers] at hvalue
    rw [Lowering.lowerOption]
    exact h.bind (h.lowerExpr value b location hvalue) fun _ => h.pure _

theorem ExprPass.lowerKeywordDefaults (h : ExprPass setting allowed R) :
    ∀ (values : List (Option Surface.Expr)) (b : BodyId) (location : Location)
      (names : List String), (∀ id ∈ Surface.optionsIdentifiers values, allowed id) →
        Obeys R b (lowerKeywordDefaults setting b location names values)
  | [], b, location, names, _ => by
    rw [lowerKeywordDefaults.eq_def]
    cases names <;> exact h.pure _
  | none :: rest, b, location, [], _ => by
    rw [lowerKeywordDefaults.eq_def]
    exact h.pure _
  | none :: rest, b, location, name :: names, hvalues => by
    rw [Surface.optionsIdentifiers, List.forall_mem_append] at hvalues
    rw [Lowering.lowerKeywordDefaults]
    exact h.lowerKeywordDefaults rest b location names hvalues.2
  | some value :: rest, b, location, [], _ => by
    rw [lowerKeywordDefaults.eq_def]
    exact h.pure _
  | some value :: rest, b, location, name :: names, hvalues => by
    rw [Surface.optionsIdentifiers, List.forall_mem_append, Surface.optionIdentifiers] at hvalues
    rw [Lowering.lowerKeywordDefaults]
    exact h.bind (h.lowerExpr value b location hvalues.1) fun _ =>
      h.bind (h.lowerKeywordDefaults rest b location names hvalues.2) fun _ => h.pure _

end

theorem ExprPass.lowerKeywordMapping (h : ExprPass setting allowed R) (holder : BodyId)
    {params : Surface.Params} (hparams : ∀ id ∈ params.identifiers, allowed id) :
    Obeys R b (Lowering.lowerKeywordMapping setting b holder location params) := by
  obtain ⟨-, -, -, -, hkeywords, -⟩ := Surface.forall_params_identifiers.1 hparams
  exact h.keywordMapping holder fun names =>
    h.lowerKeywordDefaults params.keywordDefaults b location names hkeywords

theorem ExprPass.lowerDefaults (h : ExprPass setting allowed R) {params : Surface.Params}
    (hparams : ∀ id ∈ params.identifiers, allowed id) :
    Obeys R b (Lowering.lowerExprs setting b location params.defaults) :=
  h.lowerExprs _ _ _ (Surface.forall_params_identifiers.1 hparams).2.1

/-- Decorators are lowered in the order of their application. -/
theorem ExprPass.lowerDecorators (h : ExprPass setting allowed R) {decorators : List Surface.Expr}
    (hdecorators : ∀ id ∈ Surface.exprsIdentifiers decorators, allowed id) :
    Obeys R b (Lowering.lowerDecorators setting b location decorators) := by
  refine h.lowerExprs _ _ _ fun id hid => hdecorators id ?_
  obtain ⟨e, he, hid⟩ := Surface.mem_exprsIdentifiers.1 hid
  exact Surface.mem_exprsIdentifiers.2 ⟨e, List.mem_reverse.1 he, hid⟩

theorem ExprPass.lowerAnnotations (h : ExprPass setting allowed R) {params : Surface.Params}
    {returns : Option Surface.Expr} (hparams : ∀ id ∈ params.identifiers, allowed id)
    (hreturns : ∀ id ∈ Surface.optionIdentifiers returns, allowed id) :
    Obeys R b (Lowering.lowerAnnotations setting b location params returns) := by
  unfold Lowering.lowerAnnotations
  dsimp only
  split
  · exact h.pure _
  · refine h.bind (h.mapM fun written hwritten => ?_) fun _ => h.pure _
    have hvalue : ∀ id ∈ written.2.identifiers, allowed id := fun id hid =>
      (Surface.mem_identifiers_of_hint hwritten hid).elim (hparams id) (hreturns id)
    unfold lowerHint
    split
    · exact h.bind (h.spellName _) fun _ =>
        h.bind (h.lowerExpr _ b location hvalue) fun _ => h.pure _
    · exact h.bind (h.pure _) fun _ => h.bind (h.lowerExpr _ b location hvalue) fun _ => h.pure _

/-! ## Statements -/

/-- What has to be shown for statements as well. -/
structure StmtPass (setting : Setting) (allowed : String → Prop)
    (R : BodyId → Store → Store → Prop) : Prop extends ExprPass setting allowed R where
  plain : ∀ {b s st s'} {d : Surface.Def}, d.isAsync = false →
    (∀ id ∈ d.identifiers, allowed id) →
    (∀ c, Obeys R c (lowerStmts setting c (Surface.undocumented d.body))) →
    s.WellFormed → b.index < s.bodies.size → PlainRun setting b d s st s' → R b s s'
  async : ∀ {b s st s'} {d : Surface.Def}, d.isAsync = true →
    (∀ id ∈ d.identifiers, allowed id) →
    (∀ c, Obeys R c (lowerStmts setting c (Surface.undocumented d.body))) →
    s.WellFormed → b.index < s.bodies.size → AsyncRun setting b d s st s' → R b s s'
  defineClass : ∀ {b s st s'} {d : Surface.ClassDef}, (∀ id ∈ d.identifiers, allowed id) →
    (∀ c, Obeys R c (lowerStmts setting c (Surface.undocumented d.body))) →
    s.WellFormed → b.index < s.bodies.size → ClassRun setting b d s st s' → R b s s'

theorem StmtPass.checkReturn (h : StmtPass setting allowed R) (hasValue : Bool) :
    Obeys R b (checkReturn b location hasValue) := by
  unfold Lowering.checkReturn
  refine h.bind h.kindOf fun kind => ?_
  split
  · exact obeys_reject
  · exact obeys_reject
  · split
    · exact obeys_reject
    · exact h.pure _
  · exact h.pure _

theorem StmtPass.lowerDef (h : StmtPass setting allowed R) {d : Surface.Def} (b : BodyId)
    (hd : ∀ id ∈ d.identifiers, allowed id)
    (hbody : ∀ c, Obeys R c (lowerStmts setting c (Surface.undocumented d.body))) :
    Obeys R b (lowerDef setting b d) := by
  intro s st s' hs hb hrun
  obtain ⟨hran, -⟩ := sound_ran (fun m => sound_lowerDef setting d m b) hs hb hrun
  refine ⟨hran.wellFormed, hran.grows, ?_⟩
  cases hasync : d.isAsync with
  | true => exact h.async hasync hd hbody hs hb (asyncRun_of_ok hs hb hasync hrun)
  | false => exact h.plain hasync hd hbody hs hb (plainRun_of_ok hs hb hasync hrun)

theorem StmtPass.lowerClassDef (h : StmtPass setting allowed R) {d : Surface.ClassDef} (b : BodyId)
    (hd : ∀ id ∈ d.identifiers, allowed id)
    (hbody : ∀ c, Obeys R c (lowerStmts setting c (Surface.undocumented d.body))) :
    Obeys R b (lowerClassDef setting b d) := by
  intro s st s' hs hb hrun
  obtain ⟨hran, -⟩ := sound_ran (fun m => sound_lowerClassDef setting d m b) hs hb hrun
  exact ⟨hran.wellFormed, hran.grows, h.defineClass hd hbody hs hb (classRun_of_ok hs hb hrun)⟩

mutual

theorem StmtPass.lowerStmt (h : StmtPass setting allowed R) : ∀ (statement : Surface.Stmt)
    (b : BodyId), (∀ id ∈ statement.identifiers, allowed id) →
      Obeys R b (lowerStmt setting b statement)
  | ⟨kind, location⟩, b, hall => by
    rw [Surface.Stmt.identifiers] at hall
    rw [Lowering.lowerStmt]
    exact h.lowerKind kind b location hall

theorem StmtPass.lowerKind (h : StmtPass setting allowed R) : ∀ (kind : Surface.StmtKind)
    (b : BodyId) (location : Location), (∀ id ∈ kind.identifiers, allowed id) →
      Obeys R b (lowerKind setting b location kind)
  | .expr value, b, location, hall => by
    rw [Surface.StmtKind.identifiers] at hall
    rw [Lowering.lowerKind]
    exact h.bind (h.lowerExpr value b location hall) fun _ => h.pure _
  | .assign target value, b, location, hall => by
    rw [Surface.StmtKind.identifiers, List.forall_mem_cons] at hall
    rw [Lowering.lowerKind]
    exact h.bind (h.lowerExpr value b location hall.2) fun source =>
      h.spelled hall.1 fun name hname => h.bind (h.bindName hname source) fun _ => h.pure _
  | .pass, b, location, _ => by
    rw [Lowering.lowerKind]
    exact h.pure _
  | .global _, b, location, _ => by
    rw [Lowering.lowerKind]
    exact h.pure _
  | .nonlocal _, b, location, _ => by
    rw [Lowering.lowerKind]
    exact h.pure _
  | .ret value, b, location, hall => by
    rw [Surface.StmtKind.identifiers] at hall
    rw [Lowering.lowerKind]
    exact h.bind (h.checkReturn _) fun _ => h.bind (h.lowerOption value b location hall) fun _ =>
      h.bind h.kindOf fun _ => h.pure _
  | .raise value, b, location, hall => by
    rw [Surface.StmtKind.identifiers] at hall
    rw [Lowering.lowerKind]
    exact h.bind (h.lowerOption value b location hall) fun _ => h.pure _
  | .branch test body orelse, b, location, hall => by
    rw [Surface.StmtKind.identifiers, List.forall_mem_append, List.forall_mem_append] at hall
    obtain ⟨⟨htest, hbody⟩, horelse⟩ := hall
    rw [Lowering.lowerKind]
    exact h.bind (h.lowerExpr test b location htest) fun _ =>
      h.bind (h.lowerStmts body b hbody) fun _ =>
        h.bind (h.lowerStmts orelse b horelse) fun _ => h.pure _
  | .loop test body, b, location, hall => by
    rw [Surface.StmtKind.identifiers, List.forall_mem_append] at hall
    rw [Lowering.lowerKind]
    exact h.bind (h.lowerExpr test b location hall.1) fun _ =>
      h.bind (h.lowerStmts body b hall.2) fun _ => h.pure _
  | .define ⟨name, params, body, decorators, returns, isAsync, place⟩, b, location, hall => by
    rw [Surface.StmtKind.identifiers] at hall
    obtain ⟨-, -, hbody, -⟩ := Surface.forall_def_identifiers.1 hall
    rw [Lowering.lowerKind]
    refine h.bind (h.lowerDef b hall fun c => ?_) fun _ => h.pure _
    rw [← lowerUndocumented_eq]
    exact h.lowerUndocumented body c hbody
  | .defineClass ⟨name, bases, body, decorators, place⟩, b, location, hall => by
    rw [Surface.StmtKind.identifiers] at hall
    obtain ⟨-, -, hbody, -⟩ := Surface.forall_classDef_identifiers.1 hall
    rw [Lowering.lowerKind]
    refine h.bind (h.lowerClassDef b hall fun c => ?_) fun _ => h.pure _
    rw [← lowerUndocumented_eq]
    exact h.lowerUndocumented body c hbody

theorem StmtPass.lowerStmts (h : StmtPass setting allowed R) : ∀ (statements : List Surface.Stmt)
    (b : BodyId), (∀ id ∈ Surface.stmtsIdentifiers statements, allowed id) →
      Obeys R b (lowerStmts setting b statements)
  | [], b, _ => by
    rw [Lowering.lowerStmts]
    exact h.pure _
  | first :: rest, b, hall => by
    rw [Surface.stmtsIdentifiers, List.forall_mem_append] at hall
    rw [Lowering.lowerStmts]
    exact h.bind (h.lowerStmt first b hall.1) fun _ =>
      h.bind (h.lowerStmts rest b hall.2) fun _ => h.pure _

theorem StmtPass.lowerUndocumented (h : StmtPass setting allowed R) :
    ∀ (statements : List Surface.Stmt) (b : BodyId),
      (∀ id ∈ Surface.stmtsIdentifiers statements, allowed id) →
        Obeys R b (lowerUndocumented setting b statements)
  | [], b, _ => by
    rw [Lowering.lowerUndocumented]
    exact h.pure _
  | first :: rest, b, hall => by
    rw [Surface.stmtsIdentifiers, List.forall_mem_append] at hall
    rw [Lowering.lowerUndocumented]
    split
    · exact h.lowerStmts rest b hall.2
    · exact h.bind (h.lowerStmt first b hall.1) fun _ =>
        h.bind (h.lowerStmts rest b hall.2) fun _ => h.pure _

end

end Lowering

end DefinitionLowering
