import DefinitionLowering.Proofs.Bindings
import DefinitionLowering.Proofs.Spelling

/-!
# Names in the bodies of a callable

A callable is split into up to three bodies, and a name of it is spelled in each of them and in the
scope around: a parameter in that scope, a leaf of a tuple in the wrapper, and everything else in
the body with the statements.  None of the three is a class, so they spell names alike
(`CallableAt.spell`).

`IR.Block.references` and `IR.Block.bindings` are the names that code evaluates and binds, whether a
name has become a variable or was left for run time.  They are those of the source in the same
order, as the body spells them (`StepsTo.references`, `StmtsTo.bindings`); so are the names that are
recorded as global and nonlocal (`Declares`).

* `Lowering.spelling_agrees` — spelling is idempotent and keeps names from becoming reserved, a body
  that is no class spells like its provider, and all names of a callable are spelled alike.
-/

namespace DefinitionLowering

open IR (BodyId VariableId Store)

/-! ## What is evaluated and bound -/

/-- The name that a step evaluates, if it is one. -/
def Surface.Step.name? : Surface.Step → Option String
  | .eval (.name id) => some id
  | _ => none

namespace Callee

/-- The names that the statements of a callable evaluate, in order. -/
def references (callee : Callee) (setting : Setting) : List String :=
  (callee.steps setting).filterMap Surface.Step.name?

/-- The names that the statements of a callable bind, in order. -/
def bindings (callee : Callee) : List String :=
  (Surface.stmtsWithin callee.statements).filterMap fun statement => statement.kind.bound?

end Callee

namespace IR

/-- The name that is evaluated, if the expression is one. -/
def Expr.reference? (s : Store) : Expr → Option String
  | .var v => some (s.var v).name
  | .freeName name => some name
  | _ => none

/-- The name that a statement binds. -/
def Stmt.binding? (s : Store) : Stmt → Option String
  | .assignVariable v _ => some (s.var v).name
  | .assignName name _ => some name
  | _ => none

/-- The names that code evaluates, in order. -/
def Block.references (s : Store) (block : Block) : List String :=
  block.steps.filterMap (Expr.reference? s)

/-- The names that code binds, in order. -/
def Block.bindings (s : Store) (block : Block) : List String :=
  block.within.filterMap (Stmt.binding? s)

end IR

namespace Lowering

variable {setting : Setting} {s s' t : Store} {b c : BodyId} {made : Callable}
  {object : Option BodyId} {callee : Callee} {block : IR.Block} {location : Location}

/-- A name is evaluated exactly where one is written, and it is that name as it is spelled. -/
theorem StepTo.reference? {step : Surface.Step} {e : IR.Expr} (h : StepTo setting t b step e)
    (ht : t.WellFormed) : e.reference? t = step.name?.map (t.spell b) := by
  cases h with
  | eval location h =>
    cases gave_counterpart h ht with
    | var hfind => exact congrArg some (IR.Store.find?_eq_some hfind).2
    | _ => rfl
  | create h =>
    cases h
    rfl
  | apply | createClass => rfl

/-- **Lowered code evaluates the names of the source**, as they are spelled. -/
theorem StepsTo.references {steps : List Surface.Step} {steps' : List IR.Expr}
    (h : StepsTo setting t b steps steps') (ht : t.WellFormed) :
    steps'.filterMap (IR.Expr.reference? t) =
      (steps.filterMap Surface.Step.name?).map (t.spell b) := by
  induction h with
  | nil => rfl
  | cons hfirst _ ih =>
    have hfirst := hfirst.reference? ht
    rw [List.filterMap_cons, List.filterMap_cons, hfirst, ih]
    cases Surface.Step.name? _ <;> rfl
  | implied _ _ ih | applied _ _ ih => exact ih

/-- A name is bound exactly where one is written, and it is that name as it is spelled. -/
theorem StmtCounterpart.binding? {kind : Surface.StmtKind} {out : Option IR.Stmt}
    (h : StmtCounterpart setting t b location kind out) :
    out.toList.filterMap (IR.Stmt.binding? t) = (kind.bound?.map (t.spell b)).toList := by
  cases h with
  | idle h => cases kind <;> first | rfl | cases h
  | binds hname _ hbinds =>
    rw [hname]
    cases hbinds with
    | var hfind => exact congrArg (fun name => [name]) (IR.Store.find?_eq_some hfind).2
    | name => rfl
  | ret =>
    unfold returnStmt
    split <;> rfl
  | _ => rfl

/-- **Lowered statements bind the names of the source**, as they are spelled. -/
theorem StmtsTo.bindings {statements : List Surface.Stmt} {lowered : List IR.Stmt}
    (h : StmtsTo setting t b statements lowered) :
    lowered.filterMap (IR.Stmt.binding? t) =
      (statements.filterMap fun statement => statement.kind.bound?).map (t.spell b) := by
  induction h with
  | nil => rfl
  | @cons first rest out lowered hfirst _ ih =>
    rw [List.filterMap_append, ih, hfirst.binding?, List.filterMap_cons]
    cases first.kind.bound? <;> rfl

theorem bindings_definitionCode (isAsync : Bool) (kind : CallableKind) (code : CodeObject)
    (lowered : List IR.Stmt) : (definitionCode isAsync kind code lowered).bindings t =
      (IR.stmtsWithin lowered).filterMap (IR.Stmt.binding? t) := by
  have hclosing : (IR.stmtsWithin (closing isAsync kind).toList).filterMap
      (IR.Stmt.binding? t) = [] := by
    unfold closing
    split
    · rfl
    · split <;> rfl
  rw [IR.Block.bindings, IR.Block.within_eq, statements_definitionCode]
  split
  · rfl
  · rw [IR.stmtsWithin_append, List.filterMap_append, hclosing, List.append_nil]

theorem CodeOf.references (h : CodeOf setting t made object callee block) (ht : t.WellFormed) :
    block.references t = (callee.references setting).map (t.spell (codeBody made object)) :=
  (h.steps ht).references ht

theorem CodeOf.bindings (h : CodeOf setting t made object callee block) (ht : t.WellFormed) :
    block.bindings t = callee.bindings.map (t.spell (codeBody made object)) := by
  cases h with
  | lambda value hvalue =>
    cases object <;> rfl
  | define lowered hbody =>
    rw [bindings_definitionCode]
    exact (within_stmts ht _ hbody).bindings

/-! ## What is declared -/

/-- A body records the `global` and `nonlocal` declarations of some statements and no other. -/
structure Declares (s : Store) (b : BodyId) (spell : String → String)
    (statements : List Surface.Stmt) : Prop where
  globals : (s.body b).globals =
    (Surface.globalNames statements).map fun declared => spell declared.1
  nonlocals : (s.body b).nonlocals =
    (Surface.nonlocalNames statements).map fun declared => ⟨spell declared.1, declared.2⟩

/-- From one store to another a body has come to record some declarations. -/
structure Records (b : BodyId) (globals : List String) (nonlocals : List IR.NonlocalDeclaration)
    (s s' : Store) : Prop where
  wellFormed : s'.WellFormed
  grows : Store.Grows 0 s s'
  globals : (s'.body b).globals = (s.body b).globals ++ globals
  nonlocals : (s'.body b).nonlocals = (s.body b).nonlocals ++ nonlocals

section Records

variable {globals more : List String} {nonlocals further : List IR.NonlocalDeclaration}
  {name : String}

theorem Records.refl (hs : s.WellFormed) : Records b [] [] s s :=
  ⟨hs, Store.Grows.refl 0 s, (List.append_nil _).symm, (List.append_nil _).symm⟩

theorem Records.trans (h : Records b globals nonlocals s s') (h' : Records b more further s' t) :
    Records b (globals ++ more) (nonlocals ++ further) s t where
  wellFormed := h'.wellFormed
  grows := h.grows.trans h'.grows (Nat.le_refl 0)
  globals := by rw [h'.globals, h.globals, List.append_assoc]
  nonlocals := by rw [h'.nonlocals, h.nonlocals, List.append_assoc]

/-- What changes no more than what bodies see records nothing. -/
theorem records_of_grows (hs : s'.WellFormed) (hg : ∀ n, Store.Grows n s s') :
    Records b [] [] s s' where
  wellFormed := hs
  grows := hg 0
  globals := by
    rw [List.append_nil]
    exact (hg (b.index + 1)).globals (Nat.lt_succ_self _)
  nonlocals := by
    rw [List.append_nil]
    exact (hg (b.index + 1)).nonlocals (Nat.lt_succ_self _)

theorem records_addGlobal (hs : s.WellFormed) (hb : b.index < s.bodies.size) :
    Records b [name] [] s (s.addGlobal b name) where
  wellFormed := hs.addGlobal
  grows := Store.Grows.addGlobal (Nat.zero_le _)
  globals := by rw [Store.addGlobal, Store.body_modifyBody_self hb]
  nonlocals := by rw [Store.addGlobal, Store.body_modifyBody_self hb, List.append_nil]

theorem records_addNonlocal (hs : s.WellFormed) (hb : b.index < s.bodies.size)
    {declaration : IR.NonlocalDeclaration} :
    Records b [] [declaration] s (s.addNonlocal b declaration) where
  wellFormed := hs.addNonlocal
  grows := Store.Grows.addNonlocal (Nat.zero_le _)
  globals := by rw [Store.addNonlocal, Store.body_modifyBody_self hb, List.append_nil]
  nonlocals := by rw [Store.addNonlocal, Store.body_modifyBody_self hb]

theorem records_declareGlobal (hs : s.WellFormed) (hb : b.index < s.bodies.size)
    (h : declareGlobal b name location s = .ok () s') : Records b [s.spell b name] [] s s' := by
  unfold declareGlobal at h
  obtain ⟨text, s₁, h₁, h₂⟩ := bind_eq_ok h
  obtain ⟨rfl, rfl⟩ := query_eq_ok h₁
  obtain ⟨_, s₂, h₃, h₄⟩ := bind_eq_ok h₂
  obtain ⟨rfl, -⟩ := refuseParameter_ok h₃
  cases h₄
  exact records_addGlobal hs hb

theorem records_declareNonlocal (hs : s.WellFormed) (hb : b.index < s.bodies.size)
    (h : declareNonlocal b name location s = .ok () s') :
    Records b [] [⟨s.spell b name, location⟩] s s' := by
  unfold declareNonlocal at h
  obtain ⟨text, s₁, h₁, h₂⟩ := bind_eq_ok h
  obtain ⟨rfl, rfl⟩ := query_eq_ok h₁
  obtain ⟨_, s₂, h₃, h₄⟩ := bind_eq_ok h₂
  obtain ⟨rfl, -⟩ := refuseParameter_ok h₃
  obtain ⟨there, s₃, h₅, h₆⟩ := bind_eq_ok h₄
  cases there with
  | false => cases h₆
  | true =>
    cases h₆
    rcases resolveOuter_ok h₅ with ⟨v, -, -, rfl⟩ | ⟨v, -, -, rfl⟩
    · exact records_addNonlocal hs hb
    · have hresolve : Records b [] [] s₂ (s₂.resolve b (s₂.spell b name)).2 :=
        records_of_grows (hs.resolve b _) fun n => Store.Grows.resolve n s₂ b _
      exact hresolve.trans (records_addNonlocal hresolve.wellFormed
        (Nat.lt_of_lt_of_le hb hresolve.grows.bodies))

theorem records_declareBinding (hs : s.WellFormed) (hb : b.index < s.bodies.size)
    (h : declareBinding b name s = .ok () s') : Records b [] [] s s' := by
  unfold declareBinding at h
  obtain ⟨text, s₁, h₁, h₂⟩ := bind_eq_ok h
  obtain ⟨-, rfl⟩ := query_eq_ok h₁
  obtain ⟨isGlobal, s₂, h₃, h₄⟩ := bind_eq_ok h₂
  obtain ⟨-, rfl⟩ := query_eq_ok h₃
  cases isGlobal with
  | true =>
    cases h₄
    exact Records.refl hs
  | false =>
    cases h₄
    exact records_of_grows (hs.declareLocal hb) fun n => Store.Grows.declareLocal n s₂ b text

/-- One declaration after the other. -/
theorem records_forM {α : Type} {f : α → Lowering Unit} {σ : String → String}
    {global : α → List String} {nonlocal : α → List IR.NonlocalDeclaration}
    (hf : ∀ (item : α) (s s' : Store), s.WellFormed → b.index < s.bodies.size → s.spell b = σ →
      f item s = .ok () s' → Records b (global item) (nonlocal item) s s') :
    ∀ {items : List α} {s s' : Store}, s.WellFormed → b.index < s.bodies.size → s.spell b = σ →
      items.forM f s = .ok () s' →
        Records b (items.flatMap global) (items.flatMap nonlocal) s s'
  | [], s, s', hs, _, _, h => by
    cases h
    exact Records.refl hs
  | first :: rest, s, s', hs, hb, hspell, h => by
    have h : (f first >>= fun _ => rest.forM f) s = .ok () s' := h
    obtain ⟨_, s₁, h₁, h₂⟩ := bind_eq_ok h
    have hfirst := hf first s s₁ hs hb hspell h₁
    rw [List.flatMap_cons, List.flatMap_cons]
    exact hfirst.trans (records_forM hf hfirst.wellFormed
      (Nat.lt_of_lt_of_le hb hfirst.grows.bodies)
      ((hfirst.grows.spell hs.ordered hb).trans hspell) h₂)

/-- **Opening a scope records its declarations** as they are spelled there. -/
theorem records_openScope {statements : List Surface.Stmt} (hs : s.WellFormed)
    (hb : b.index < s.bodies.size) (h : openScope b statements s = .ok () s') :
    Records b ((Surface.globalNames statements).map fun declared => s.spell b declared.1)
      ((Surface.nonlocalNames statements).map fun declared => ⟨s.spell b declared.1, declared.2⟩)
      s s' := by
  have hsingle {α β : Type} (f : α → β) (items : List α) :
      items.flatMap (fun item => [f item]) = items.map f := List.map_eq_flatMap.symm
  have hnone {α β : Type} (items : List α) : items.flatMap (fun _ => ([] : List β)) = [] :=
    List.flatMap_eq_nil_iff.2 fun _ _ => rfl
  obtain ⟨s₁, s₂, hglobals, hnonlocals, hbound⟩ := openScope_ok h
  have hfirst := records_forM (fun declared _ _ hs hb hspell h =>
    hspell ▸ records_declareGlobal hs hb h) hs hb rfl hglobals
  have hb₁ := Nat.lt_of_lt_of_le hb hfirst.grows.bodies
  have hsecond := records_forM (fun declared _ _ hs hb hspell h =>
    hspell ▸ records_declareNonlocal hs hb h) hfirst.wellFormed hb₁
      (hfirst.grows.spell hs.ordered hb) hnonlocals
  rw [hsingle, hnone] at hfirst hsecond
  have hdeclared := hfirst.trans hsecond
  rw [List.append_nil, List.nil_append] at hdeclared
  rcases hbound with rfl | hbound
  · exact hdeclared
  · have hthird := records_forM (fun _ _ _ hs hb _ h => records_declareBinding hs hb h)
      hsecond.wellFormed (Nat.lt_of_lt_of_le hb₁ hsecond.grows.bodies) rfl hbound
    rw [hnone, hnone] at hthird
    simpa using hdeclared.trans hthird

end Records

section Declares

variable {spell : String → String} {statements : List Surface.Stmt} {n : Nat}

theorem Declares.congr (h : Declares s b spell statements)
    (hglobals : (s'.body b).globals = (s.body b).globals)
    (hnonlocals : (s'.body b).nonlocals = (s.body b).nonlocals) : Declares s' b spell statements :=
  ⟨hglobals.trans h.globals, hnonlocals.trans h.nonlocals⟩

/-- What lowering does elsewhere leaves the declarations of a body alone. -/
theorem Declares.grow (h : Declares s b spell statements) (hg : Store.Grows n s s')
    (hb : b.index < n) : Declares s' b spell statements :=
  h.congr (hg.globals hb) (hg.nonlocals hb)

theorem Declares.attachCode (h : Declares s b spell statements)
    (hrun : attachCode c block s = .ok () s') : Declares s' b spell statements := by
  rw [(attachCode_ok hrun).2]
  exact h.congr
    (Store.body_modifyBody_of (P := fun body => body.globals = (s.body b).globals) id rfl)
    (Store.body_modifyBody_of (P := fun body => body.nonlocals = (s.body b).nonlocals) id rfl)

/-- A new body declares nothing. -/
theorem declares_createBody (s : Store) (plan : IR.BodyPlan) :
    Declares (s.createBody plan).2 ⟨s.bodies.size⟩ spell [] := by
  constructor <;> rw [IR.Store.body_createBody_self] <;> rfl

theorem declares_openScope (hs : s.WellFormed) (hb : b.index < s.bodies.size)
    (hnone : Declares s b (s.spell b) []) (h : openScope b statements s = .ok () s') :
    Declares s' b (s.spell b) statements := by
  have hrecords := records_openScope hs hb h
  constructor
  · rw [hrecords.globals, hnone.globals]
    rfl
  · rw [hrecords.nonlocals, hnone.nonlocals]
    rfl

/-- The function of a callable declares nothing when it is built. -/
theorem declares_buildCallable {kind : CallableKind} {name : String} {doc : Option String}
    {flags : Flags} {params : Surface.Params} (hs : s.WellFormed) (hb : b.index < s.bodies.size)
    (hrun : buildCallable setting b kind name doc flags params location s = .ok made s') :
    Declares s' made.function spell [] := by
  obtain ⟨hsig, houter, hcases⟩ := (buildCallable_spec hs.ordered hb).of_ok hrun
  obtain ⟨-, hslots⟩ := signature_eq_ok hsig
  rcases hcases with ⟨-, hfunction, rfl⟩ | ⟨-, hdelegate⟩
  · rw [hfunction, houter]
    exact declares_createBody s _
  · have hfresh := isFresh_createBody flags doc location hs.ordered hb hslots
    rw [houter] at hdelegate
    obtain ⟨hfunction, -, hothers, -⟩ := createDelegate_bodies hfresh hdelegate
    have hne : made.function ≠ ⟨s.bodies.size⟩ := by
      rw [hfunction]
      simp
    have hbody := hothers _ hne
    rw [hfunction] at hbody ⊢
    exact (declares_createBody _ _).congr (congrArg IR.Body.globals hbody)
      (congrArg IR.Body.nonlocals hbody)

/-- The object of a callable declares nothing when it is created. -/
theorem declares_createObject {kind : ObjectKind} {name : String} {flags : Flags} {o : BodyId}
    (hrun : createObject made kind name flags location s = .ok o s') :
    Declares s' o spell [] := by
  rw [createObject_run] at hrun
  cases hrun
  exact (declares_createBody s _).congr (Store.body_withObject_view IR.Body.globals fun _ _ => rfl)
    (Store.body_withObject_view IR.Body.nonlocals fun _ _ => rfl)

/-- The body for the statements of a plain definition declares nothing when it is settled. -/
theorem declares_plainCodeBody {kind : CallableKind} {d : Surface.Def} {flags : Flags}
    (h : Declares s made.function spell [])
    (hrun : plainCodeBody made kind d flags s = .ok c s') : Declares s' c spell [] := by
  rcases plainCodeBody_ok hrun with ⟨-, rfl, rfl⟩ | ⟨s₁, -, hcreated, hmaker⟩
  · exact h
  · exact (declares_createObject hcreated).attachCode hmaker

/-- The value of a lambda declares nothing. -/
theorem Declares.lambda (h : Declares s b spell []) (l : Surface.Lambda) :
    Declares s b spell (Callee.lambda l).statements := by
  have hnone : Surface.declarations (Callee.lambda l).statements = [] := by
    simp [Callee.statements, Surface.declarations, Surface.Stmt.declarations]
  constructor
  · rw [Surface.globalNames, hnone]
    exact h.globals
  · rw [Surface.nonlocalNames, hnone]
    exact h.nonlocals

end Declares

/-! ## Callables that have been lowered -/

/-- Lowering a callable in a body has led from one store to another. -/
inductive LowersTo (setting : Setting) (b : BodyId) (s s' : Store) : Callee → Prop
  | lambda {l : Surface.Lambda} (e : IR.Expr) (hrun : lowerLambda setting b l s = .ok e s') :
    LowersTo setting b s s' (.lambda l)
  | define {d : Surface.Def} (statement : IR.Stmt)
    (hrun : lowerDef setting b d s = .ok statement s') : LowersTo setting b s s' (.define d)

/-- A callable has been lowered to the given bodies, and the one with its statements records what
these declare. -/
structure Settles (setting : Setting) (b : BodyId) (s s' : Store) (callee : Callee)
    (made : Callable) (object : Option BodyId) : Prop where
  wellFormed : s'.WellFormed
  grows : Store.Grows 0 s s'
  first : made.outer = ⟨s.bodies.size⟩
  callable : CallableAt setting s' callee b made object
  declares : Declares s' (codeBody made object) (s'.spell (codeBody made object)) callee.statements

theorem LambdaRun.settles {l : Surface.Lambda} {e : IR.Expr} (h : LambdaRun setting b l s e s')
    (hs : s.WellFormed) (hb : b.index < s.bodies.size) (hwf : s'.WellFormed) :
    ∃ made object, Settles setting b s s' (.lambda l) made object := by
  obtain ⟨made, object, defaults, keywords, value, s₁, s₂, s₃, s₄, s₅, hbuild, hplaced, hcreate,
    hcode, hdefaults, hkeywords, hvalue, hattach, rfl⟩ := h
  have h₂ := hdefaults.later (hkeywords.later (hvalue.later (hattach.later
    (Store.Grows.refl 0 s'))))
  have h₁ := hcreate.later h₂
  have hcode₃ := hdefaults.created hcode.2
  have hcode₄ := hkeywords.created hcode₃
  have hcallable := callableAt_of_lambda hs hb hbuild hcreate
    (hvalue.created (hkeywords.created (hdefaults.created (hcreate.created hplaced.function.2))))
    hcode₄ hkeywords.wellFormed hvalue hattach.run h₁ h₂ (Store.Grows.refl 0 s') hwf
  have hfunction : Declares s₁ made.function (s'.spell (codeBody made object)) [] :=
    declares_buildCallable hs hb hbuild.run
  have hnone : Declares s₂ (codeBody made object) (s'.spell (codeBody made object)) [] := by
    rcases lambdaObject_ok hcreate.run with ⟨-, rfl, rfl⟩ | ⟨o, -, rfl, hcreated⟩
    · exact hfunction
    · exact declares_createObject hcreated
  have hvalued := (((hnone.grow hdefaults.grows hcode.2).grow hkeywords.grows hcode₃).grow
    hvalue.grows hcode₄).lambda l
  refine ⟨made, object, hwf, hbuild.later h₁, (buildCallable_bodies hs hb hbuild.run).1, hcallable,
    ?_⟩
  cases object with
  | none => exact hvalued.attachCode hattach.run
  | some o =>
    obtain ⟨_, s₆, hattached, hmaker⟩ := bind_eq_ok hattach.run
    exact (hvalued.attachCode hattached).attachCode hmaker

theorem PlainRun.settles {d : Surface.Def} {statement : IR.Stmt}
    (h : PlainRun setting b d s statement s') (hplain : d.isAsync = false) (hs : s.WellFormed)
    (hb : b.index < s.bodies.size) (hwf : s'.WellFormed) :
    ∃ made object, Settles setting b s s' (.define d) made object := by
  obtain ⟨made, code, decorators, defaults, keywords, annotations, lowered, s₁, s₂, s₃, s₄, s₅, s₆,
    s₇, s₈, s₉, hbuild, hplaced, hcreate, hcode, hdecorators, hdefaults, hkeywords, hopen, hbody,
    hattach, hannotations, hbind⟩ := h
  have h₈ := hannotations.later (hbind.later (Store.Grows.refl 0 s'))
  have h₅ := hopen.later (hbody.later (hattach.later h₈))
  have h₂ := hdecorators.later (hdefaults.later (hkeywords.later h₅))
  have h₁ := hcreate.later h₂
  have hcode₃ := hdecorators.created hcode.2
  have hcode₄ := hdefaults.created hcode₃
  have hcode₅ := hkeywords.created hcode₄
  have hcode₆ := hopen.created hcode₅
  have hcode₈ := hattach.created (hbody.created hcode₆)
  obtain ⟨object, rfl, hcallable, -⟩ := callableAt_of_plain hplain hs hb hbuild hplaced hcreate
    hcode₆ hopen.wellFormed hbody hattach.run h₁ h₂ h₈ hwf
  have hnone : Declares s₂ (codeBody made object) (s₅.spell (codeBody made object)) [] :=
    declares_plainCodeBody (declares_buildCallable hs hb hbuild.run) hcreate.run
  have hopened := declares_openScope hkeywords.wellFormed hcode₅ (((hnone.grow hdecorators.grows
    hcode.2).grow hdefaults.grows hcode₃).grow hkeywords.grows hcode₄) hopen.run
  have hattached := (hopened.grow hbody.grows hcode₆).attachCode hattach.run
  refine ⟨made, object, hwf, hbuild.later h₁, (buildCallable_bodies hs hb hbuild.run).1, hcallable,
    ?_⟩
  rw [h₅.spell hkeywords.wellFormed.ordered hcode₅]
  exact (hattached.grow hannotations.grows hcode₈).grow hbind.grows (hannotations.created hcode₈)

theorem AsyncRun.settles {d : Surface.Def} {statement : IR.Stmt}
    (h : AsyncRun setting b d s statement s') (hasync : d.isAsync = true) (hs : s.WellFormed)
    (hb : b.index < s.bodies.size) (hwf : s'.WellFormed) :
    ∃ made object, Settles setting b s s' (.define d) made object := by
  obtain ⟨kind, made, object, decorators, defaults, keywords, annotations, lowered, s₁, s₂, s₃, s₄,
    s₅, s₆, s₇, s₈, s₉, s₁₀, s₁₁, hkind, hbuild, hplaced, hcreate, hobject, hdecorators, hdefaults,
    hopen, hbody, hattach, hannotations, hkeywords, hmaker, rfl, hbind⟩ := h
  have h₁₀ : Store.Grows 0 s₁₀ s' := (Store.Grows.copyNonlocals (Nat.zero_le _)).trans
    (hbind.later (Store.Grows.refl 0 s')) (Nat.le_refl 0)
  have h₇ := hannotations.later (hkeywords.later (hmaker.later h₁₀))
  have h₄ := hopen.later (hbody.later (hattach.later h₇))
  have h₂ := hdecorators.later (hdefaults.later h₄)
  have h₁ := hcreate.later h₂
  have hobject₃ := hdecorators.created hobject.2
  have hobject₄ := hdefaults.created hobject₃
  have hobject₅ := hopen.created hobject₄
  have hobject₇ := hattach.created (hbody.created hobject₅)
  have hobject₈ := hannotations.created hobject₇
  have hfunction := hkeywords.created (hannotations.created (hattach.created (hbody.created
    (hopen.created (hdefaults.created (hdecorators.created (hcreate.created
      hplaced.function.2)))))))
  have hcallable := callableAt_of_async hasync hkind hs hb hbuild hcreate.run hobject₅
    hopen.wellFormed hbody hattach.run hfunction hmaker.run h₁ h₂ h₇ h₁₀ hwf
  have hnone : Declares s₂ object (s₄.spell object) [] := declares_createObject hcreate.run
  have hopened := declares_openScope hdefaults.wellFormed hobject₄ ((hnone.grow hdecorators.grows
    hobject.2).grow hdefaults.grows hobject₃) hopen.run
  have hattached := (hopened.grow hbody.grows hobject₅).attachCode hattach.run
  have hmade := ((hattached.grow hannotations.grows hobject₇).grow hkeywords.grows
    hobject₈).attachCode hmaker.run
  -- the function gets the nonlocal names of the object, which is another body
  have hne : made.function ≠ object := fun heq => by
    obtain ⟨hself, -⟩ := createObject_planned hcreate.run (Store.Grows.refl 0 s₂)
    have hlt := hplaced.function.2
    rw [heq, hself] at hlt
    exact Nat.lt_irrefl _ hlt
  have hcopied : Declares (s₁₀.copyNonlocals object made.function) object (s₄.spell object)
      (Surface.undocumented d.body) :=
    hmade.congr (by rw [Store.copyNonlocals, Store.body_modifyBody_ne hne])
      (by rw [Store.copyNonlocals, Store.body_modifyBody_ne hne])
  have hobject₁₁ : object.index < (s₁₀.copyNonlocals object made.function).bodies.size := by
    rw [Store.copyNonlocals, Store.size_bodies_modifyBody]
    exact hmaker.created (hkeywords.created hobject₈)
  refine ⟨made, some object, hwf, hbuild.later h₁, (buildCallable_bodies hs hb hbuild.run).1,
    hcallable, ?_⟩
  show Declares s' object (s'.spell object) (Surface.undocumented d.body)
  rw [h₄.spell hdefaults.wellFormed.ordered hobject₄]
  exact hcopied.grow hbind.grows hobject₁₁

/-- **Lowering a callable settles its bodies.** -/
theorem LowersTo.settles (h : LowersTo setting b s s' callee) (hs : s.WellFormed)
    (hb : b.index < s.bodies.size) : ∃ made object, Settles setting b s s' callee made object := by
  cases h with
  | @lambda l e hrun =>
    have hexpr : lowerExpr setting b l.location (.lambda l) s = .ok e s' := by
      rw [lowerExpr]
      exact hrun
    obtain ⟨hran, -⟩ := sound_ran (fun m => sound_lowerExpr setting (.lambda l) m b l.location) hs
      hb hexpr
    exact (lambdaRun_of_ok hs hb hrun).settles hs hb hran.wellFormed
  | @define d statement hrun =>
    obtain ⟨hran, -⟩ := sound_ran (fun m => sound_lowerDef setting d m b) hs hb hrun
    cases hasync : d.isAsync with
    | true => exact (asyncRun_of_ok hs hb hasync hrun).settles hasync hs hb hran.wellFormed
    | false => exact (plainRun_of_ok hs hb hasync hrun).settles hasync hs hb hran.wellFormed

/-! ## One spelling for all bodies -/

/-- The function of a callable spells names like the scope around. -/
theorem Stands.spell {name : String} {doc : Option String} {flags : Flags}
    {params : Surface.Params} (h : Stands t b name doc flags params location made)
    (ht : t.WellFormed) : t.spell made.outer = t.spell b ∧ t.spell made.function = t.spell b := by
  have houter : t.spell made.outer = t.spell b :=
    ht.ordered.spell h.outer.provider (by rw [h.outer.kind]; rfl)
  refine ⟨houter, ?_⟩
  rcases h.function with ⟨-, hsame⟩ | ⟨-, hplanned, -⟩
  · rw [hsame, houter]
  · exact (ht.ordered.spell hplanned.provider (by rw [hplanned.kind]; rfl)).trans houter

/-- **All bodies of a callable spell names like the scope around.** -/
theorem CallableAt.spell (h : CallableAt setting t callee b made object) (ht : t.WellFormed)
    (hc : c ∈ Callable.bodies made object) : t.spell c = t.spell b := by
  obtain ⟨houter, hfunction⟩ := h.stands.spell ht
  rcases Callable.mem_bodies.1 hc with rfl | rfl | rfl
  · exact houter
  · exact hfunction
  · cases hobject : callee.object? setting with
    | none =>
      have hrel := h.manufactured
      rw [hobject] at hrel
      cases hrel
    | some kind =>
      have hrel := h.manufactured
      rw [hobject] at hrel
      cases hrel with
      | some hat =>
        exact (ht.ordered.spell hat.planned.provider (by rw [hat.planned.kind]; rfl)).trans
          hfunction

theorem codeBody_mem_bodies : codeBody made object ∈ Callable.bodies made object := by
  rw [Callable.mem_bodies]
  cases object with
  | none => exact Or.inr (Or.inl rfl)
  | some o => exact Or.inr (Or.inr rfl)

/-- Wherever a name of a callable stands, it is spelled in one way. -/
structure Agrees (setting : Setting) (s : Store) (spell : String → String) (callee : Callee)
    (made : Callable) (object : Option BodyId) : Prop where
  bodies : ∀ c ∈ Callable.bodies made object, s.spell c = spell
  /-- The parameters that a call passes, -/
  outer : (s.body made.outer).signature =
    some (callee.params.rawSignature spell callee.name)
  /-- those of the function, with the leaves of tuples in the tuples' places, -/
  function : ∃ signature, (s.body made.function).signature = some signature ∧
    signature.slots = leafNames spell callee.params.formals
  /-- what the statements evaluate and bind, -/
  code : ∃ block, (s.body (codeBody made object)).code = some block ∧
    block.references s = (callee.references setting).map spell ∧
    block.bindings s = callee.bindings.map spell
  /-- and what they declare. -/
  declares : Declares s (codeBody made object) spell callee.statements

theorem Settles.agrees (h : Settles setting b s s' callee made object) (hs : s.WellFormed)
    (hb : b.index < s.bodies.size) : Agrees setting s' (s.spell b) callee made object := by
  have hspell := h.grows.spell hs.ordered hb
  have hbodies : ∀ c ∈ Callable.bodies made object, s'.spell c = s.spell b := fun c hc =>
    (h.callable.spell h.wellFormed hc).trans hspell
  have hcode := hbodies _ codeBody_mem_bodies
  have houter := h.callable.stands.outer.signature
  rw [hspell] at houter
  refine ⟨hbodies, houter, ?_, ?_, hcode ▸ h.declares⟩
  · rcases h.callable.stands.function with ⟨hplain, hsame⟩ | ⟨-, hplanned, -⟩
    · exact ⟨_, hsame ▸ houter, slots_of_plain hplain⟩
    · refine ⟨_, hplanned.signature, ?_⟩
      rw [hspell]
      exact delegateSignature_slots
  · obtain ⟨block, hblock, hof⟩ := h.callable.code
    refine ⟨block, hblock, ?_, ?_⟩
    · rw [hof.references h.wellFormed, hcode]
    · rw [hof.bindings h.wellFormed, hcode]

/-- **Spelling agrees at every use.** What has been spelled is spelled no further, and is reserved
only if it was written so.  A body that is neither a class nor a module spells names like its
provider.  So the parameters of a callable, the leaves of its tuples and the names that its
statements evaluate, bind and declare are spelled as the scope around spells them, in whichever of
its bodies they end up. -/
theorem spelling_agrees :
    (∀ (s : Store) (b : BodyId) (name : String),
      s.spell b (s.spell b name) = s.spell b name ∧
        (isReserved (s.spell b name) = true → isReserved name = true)) ∧
    (∀ (s : Store) (b provider : BodyId), s.Acyclic → (s.body b).provider = some provider →
      s.isClass b = false → s.isModule b = false →
        ∀ name, s.spell b name = s.spell provider name) ∧
    ∀ (setting : Setting) (s s' : Store) (b : BodyId) (callee : Callee), s.WellFormed →
      b.index < s.bodies.size → LowersTo setting b s s' callee →
        ∃ made object, made.outer = ⟨s.bodies.size⟩ ∧
          CallableAt setting s' callee b made object ∧
          Agrees setting s' (s.spell b) callee made object := by
  refine ⟨fun s b name => ⟨s.spell_spell b name, fun h => ?_⟩, ?_, ?_⟩
  · rwa [s.isReserved_spell] at h
  · intro s b provider hacyclic hprovider hclass hmodule name
    rw [hacyclic.spell hprovider hclass hmodule]
  · intro setting s s' b callee hs hb hlowers
    obtain ⟨made, object, hsettles⟩ := hlowers.settles hs hb
    exact ⟨made, object, hsettles.first, hsettles.callable, hsettles.agrees hs hb⟩

/-- A method with private names:

    def put(self, (__key, value)):
        global __log
        __log = __key
-/
def privateMethod : Surface.Def where
  name := "put"
  params :=
    { positional :=
        [.name ⟨"self", none⟩, .tuple [.name ⟨"__key", none⟩, .name ⟨"value", none⟩]]
      defaults := []
      star := none
      keywordOnly := []
      keywordDefaults := []
      doubleStar := none }
  body := [⟨.global ["__log"], ⟨3, 4⟩⟩, ⟨.assign "__log" (.name "__key"), ⟨4, 4⟩⟩]
  decorators := []
  returns := none
  isAsync := false
  location := ⟨2, 2⟩

/-- The private names of the method are those of its class, in the delegate and its code. -/
theorem privateMethod_agrees :
    ∃ statement s' made object,
      lowerDef (.ofDialect .modern) ⟨1⟩ privateMethod (classStore "put") = .ok statement s' ∧
      CallableAt (.ofDialect .modern) s' (.define privateMethod) ⟨1⟩ made object ∧
      (∃ signature, (s'.body made.function).signature = some signature ∧
        signature.slots = ["self", "_Q__key", "value"]) ∧
      (∃ block, (s'.body (codeBody made object)).code = some block ∧
        block.references s' = ["_Q__key"] ∧ block.bindings s' = ["_Q__log"]) ∧
      (s'.body (codeBody made object)).globals = ["_Q__log"] := by
  have hlowered : givesWith (fun _ _ => true)
      (lowerDef (.ofDialect .modern) ⟨1⟩ privateMethod (classStore "put")) = true := by
    decide +kernel
  obtain ⟨statement, s', hrun, -⟩ := exists_of_givesWith hlowered
  obtain ⟨made, object, -, hcallable, h⟩ :=
    spelling_agrees.2.2 (.ofDialect .modern) (classStore "put") s' ⟨1⟩ (.define privateMethod)
      (wellFormed_classStore "put") (by decide) (.define statement hrun)
  obtain ⟨signature, hsignature, hslots⟩ := h.function
  obtain ⟨block, hblock, hreferences, hbindings⟩ := h.code
  refine ⟨statement, s', made, object, hrun, hcallable, ⟨signature, hsignature, ?_⟩,
    ⟨block, hblock, ?_, ?_⟩, ?_⟩
  · rw [hslots]
    decide +kernel
  · rw [hreferences]
    decide +kernel
  · rw [hbindings]
    decide +kernel
  · rw [h.declares.globals]
    decide +kernel

end Lowering

end DefinitionLowering
