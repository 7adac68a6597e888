import DefinitionLowering.Proofs.Grafting
import DefinitionLowering.Proofs.Statements

/-!
# The tree of bodies

Main result: `bodies_form_tree`.  Every body of a lowered module is created once, in the code of
the body that provides it, and the bodies are, one for one, those of the scopes that the module
evaluates.

The passes over expressions and statements (`grafts_expr`, `grafts_stmts`) say of each form that
it passes on what its parts created.  A definition is taken apart by its run: the bodies of the
callable, those that the scope around it adds beside it, and those that its own statements add
below it (`grown_plain`, `grown_async`, `grown_class`).
-/

namespace DefinitionLowering

open IR (BodyId Store exprsCreations stmtsCreations)
open Surface (Header Part Params exprsParts optionParts keywordParts hintParts stmtsParts
  undocumentedParts partsHeaders)

namespace Lowering

variable {dialect : Dialect} {setting : Setting} {r s s' t : Store} {b c : BodyId} {n : Nat}
  {made : Callable} {location : Location}

/-! ## The expression that creates a definition -/

/-- What the parts of a created function create, and the function. -/
theorem creations_creation (defaults : List IR.Expr) (keywords annotations : Option IR.Expr) :
    (creation made defaults keywords annotations).creations = exprsCreations defaults ++
      exprsCreations keywords.toList ++ exprsCreations annotations.toList ++
        [(.function, made.outer)] := by
  rw [creation, IR.Expr.creations_makeFunction]

/-- Decorators around something that is created. -/
theorem perm_decorate : ∀ (decorators : List IR.Expr) (created : IR.Expr),
    (decorate decorators created).creations.Perm (exprsCreations decorators ++ created.creations)
  | [], _ => .refl _
  | decorator :: rest, created => by
    refine (perm_decorate rest (.call decorator [created])).trans ?_
    refine List.perm_iff_count.2 fun c => ?_
    simp only [IR.Expr.creations_call, IR.exprsCreations_cons, IR.exprsCreations_nil,
      List.count_append, List.count_nil]
    omega

/-- The decorators that a definition gets by itself create nothing. -/
theorem creations_addImplicit (dialect : Dialect) (name : String) (scope : ScopeKind)
    (decorators : List IR.Expr) :
    exprsCreations (dialect.addImplicit name scope decorators) = exprsCreations decorators := by
  unfold Dialect.addImplicit
  induction dialect.decoratorsFor name scope generalizing decorators with
  | nil => rfl
  | cons first rest ih =>
    rw [List.foldl_cons, ih, addDecorator]
    split
    · rfl
    · simp [exprsCreations]

/-! ## Expressions -/

/-- Expressions and what they create. -/
def LowersTree (dialect : Dialect) (location : Location) (e : Surface.Expr) : Prop :=
  ∀ b, Grafts b [] (lowerExpr (.ofDialect dialect) b location e) IR.Expr.creations
    (partsHeaders (e.parts location))

theorem grafts_kindOf : Grafts b [] (kindOf c) (fun _ => []) [] :=
  grafts_query _

/-- The keyword-only defaults of a callable. -/
theorem Grafted.keywords {params : Params} {name : String} {doc : Option String} {flags : Flags}
    {o : Option IR.Expr} {out : List (BodyKind × BodyId)} {headers : List Header}
    (h : Grafted b s t out headers)
    (hran : Ran n (lowerKeywordMapping setting b made.outer location params) t o s')
    (hx : ∀ names : List String, names.length = params.keywordOnly.length →
      Grafts b [] (lowerKeywordDefaults setting b location names params.keywordDefaults)
        (fun entries => exprsCreations (entries.map Prod.snd))
        (partsHeaders (keywordParts location params.keywordOnly params.keywordDefaults)))
    (hstands : Stands r b name doc flags params location made)
    (hlt : made.outer.index < r.bodies.size) (hr : Store.Grows 0 r t) :
    Grafted b s s' (out ++ exprsCreations o.toList)
      (headers ++ partsHeaders (keywordParts location
        params.keywordOnly params.keywordDefaults)) := by
  have hnames : keywordOnlyNames t made.outer = keywordOnlyIn r b params :=
    (keywordOnlyNames_grows hr hlt).trans (hstands.keywordOnlyNames (Store.Grows.refl 0 r) hlt)
  rcases lowerKeywordMapping_ok hran.run with ⟨hnone, rfl, rfl⟩ | ⟨entries, rfl, hrun⟩
  · have hempty : params.keywordOnly = [] := by
      simpa [keywordOnlyIn] using hnames.symm.trans hnone
    rw [hempty, keywordParts.eq_def]
    simpa using h
  · have hlength : (keywordOnlyNames t made.outer).length = params.keywordOnly.length := by
      rw [hnames, keywordOnlyIn, List.length_map]
    simpa using h.ran ⟨hrun, hran.grows, hran.wellFormed⟩ (hx _ hlength)

theorem grafts_lambda {l : Surface.Lambda}
    (hdefaults : ∀ b, Grafts b [] (lowerExprs (.ofDialect dialect) b l.location l.params.defaults)
      exprsCreations (partsHeaders (exprsParts l.location l.params.defaults)))
    (hkeywords : ∀ b, ∀ names : List String, names.length = l.params.keywordOnly.length →
      Grafts b [] (lowerKeywordDefaults (.ofDialect dialect) b l.location names
        l.params.keywordDefaults) (fun entries => exprsCreations (entries.map Prod.snd))
        (partsHeaders (keywordParts l.location l.params.keywordOnly l.params.keywordDefaults)))
    (hvalue : LowersTree dialect l.location l.body) :
    LowersTree dialect location (.lambda l) := by
  intro b s e s' hs hb hrun
  obtain ⟨hran, -⟩ := sound_ran (fun m => sound_lowerExpr (.ofDialect dialect) (.lambda l) m b
    location) hs hb hrun
  rw [lowerExpr] at hrun
  refine ⟨hran.wellFormed, hran.grows, fun t ht hwf => ?_⟩
  obtain ⟨made, object, defaults, keywords, value, s₁, s₂, s₃, s₄, s₅, hbuild, hplaced, hcreate,
    hcode, hrunDefaults, hrunKeywords, hrunValue, hattach, rfl⟩ := lambdaRun_of_ok hs hb hrun
  have hb₂ := hcreate.created (hbuild.created hb)
  have hstands := buildCallable_stands hs hb hbuild (Store.Grows.refl 0 s₁) hbuild.wellFormed
  have beside := (hrunDefaults.grafted (hdefaults b) hcreate.wellFormed hb₂).keywords hrunKeywords
    (hkeywords b) hstands hplaced.outer.2
    ((hcreate.grows.mono (Nat.zero_le _)).trans (hrunDefaults.grows.mono (Nat.zero_le _))
      (Nat.le_refl 0))
  have hcode₄ := hrunKeywords.created (hrunDefaults.created hcode.2)
  have hfunction₄ := hrunKeywords.created (hrunDefaults.created
    (hcreate.created hplaced.function.2))
  have inside := hrunValue.grafted (hvalue _) beside.wellFormed hcode₄
  have h₅ := hattach.later ht
  have h₄ := hrunValue.later h₅
  have h₂ := beside.grown.trans h₄ (Nat.le_refl 0)
  have hcallable := callableAt_of_lambda hs hb hbuild hcreate (hrunValue.created hfunction₄) hcode₄
    hrunKeywords.wellFormed hrunValue hattach.run (hcreate.later h₂) h₂ ht hwf
  obtain ⟨-, hblock, -⟩ := attachedLambda hattach.run (hrunValue.created hcode₄)
    (hrunValue.created hfunction₄) ht
  have hcreations : (IR.Block.ofFrame made.code (lambdaStatements object value)).creations =
      value.creations := by
    rw [IR.Block.creations_eq]
    exact creations_lambdaStatements value
  have gcallable := hcallable.grown hwf.ordered (bodiesFrom_callable hs hb hbuild.run
    hcreate.grows.bodies (lambdaObject_bodies hcreate.run)) hblock
    (hcreations ▸ inside.adds t h₅ hwf) (h := lambdaHeader l.params l.body l.location) rfl rfl rfl
    rfl
  have gall := gcallable.around (beside.adds t h₄ hwf)
    (grown_of_eq t b (attachLambda_size hattach.run)) hwf.ordered
    (Nat.le_trans hbuild.grows.bodies hcreate.grows.bodies) beside.le inside.le hattach.grows.bodies
  refine ⟨_, .of_eq ?_, gall.perm (.refl _) (.refl _) (.of_eq ?_)⟩
  · simp [creation]
  · obtain ⟨⟨positional, defaults, star, keywordOnly, keywordDefaults, doubleStar⟩,
      body, place⟩ := l
    simp [Surface.Lambda.parts, Surface.Expr.parts, Part.headers, Surface.Region.headers]

theorem creations_returnStmt (kind : BodyKind) (value : Option IR.Expr) :
    (returnStmt kind value).creations = exprsCreations value.toList := by
  cases value <;> cases kind with
  | callable kind => cases kind <;> simp [returnStmt]
  | _ => simp [returnStmt]

mutual

theorem grafts_expr : ∀ (e : Surface.Expr) {location : Location}, LowersTree dialect location e
  | .name id, location => fun b => by
    rw [lowerExpr]
    exact grafts_reference id
  | .constant value, location => fun b => by
    rw [lowerExpr]
    exact grafts_pure (.refl _)
  | .call callee args, location => fun b => by
    rw [lowerExpr, Surface.Expr.parts, Surface.partsHeaders_append]
    refine (grafts_expr callee b).bind fun callee' => (grafts_exprs args b).last fun args' => ?_
    exact .of_eq IR.Expr.creations_call
  | .binary left op right, location => fun b => by
    rw [lowerExpr, Surface.Expr.parts, Surface.partsHeaders_append]
    refine (grafts_expr left b).bind fun left' => (grafts_expr right b).last fun right' => ?_
    exact .of_eq IR.Expr.creations_binary
  | .attribute value name, location => fun b => by
    rw [lowerExpr, Surface.Expr.parts]
    have hspell : ∀ value' : IR.Expr, Grafts b ([] ++ value'.creations)
        (do return IR.Expr.attribute value' (← spell b name)) IR.Expr.creations [] := fun value' =>
      (grafts_query _).after fun text => grafts_pure (.of_eq IR.Expr.creations_attribute)
    simpa using (grafts_expr value b).bind hspell
  | .tuple items, location => fun b => by
    rw [lowerExpr, Surface.Expr.parts]
    exact (grafts_exprs items b).last fun items' => .of_eq IR.Expr.creations_tuple
  | .yield value, location => fun b => by
    rw [lowerExpr, Surface.Expr.parts]
    refine grafts_kindOf.after fun kind => ?_
    split
    · exact (grafts_option value b).last fun value' => .of_eq IR.Expr.creations_yield
    · exact grafts_rejected
  | .yieldFrom value, location => fun b => by
    rw [lowerExpr, Surface.Expr.parts]
    refine grafts_kindOf.after fun kind => ?_
    split
    · refine grafts_kindOf.after fun kind => ?_
      split
      · exact grafts_rejected
      · exact (grafts_expr value b).last fun value' => .of_eq IR.Expr.creations_yieldFrom
    · exact grafts_rejected
  | .await value, location => fun b => by
    rw [lowerExpr, Surface.Expr.parts]
    refine grafts_kindOf.after fun kind => ?_
    split
    · exact (grafts_expr value b).last fun value' => .of_eq IR.Expr.creations_await
    · exact grafts_rejected
  | .lambda ⟨⟨positional, defaults, star, keywordOnly, keywordDefaults, doubleStar⟩, body, place⟩,
      location =>
    grafts_lambda (fun b => grafts_exprs defaults b)
      (fun b => grafts_keywordDefaults keywordDefaults keywordOnly b) (grafts_expr body)

theorem grafts_exprs : ∀ (es : List Surface.Expr) {location : Location} (b : BodyId),
    Grafts b [] (lowerExprs (.ofDialect dialect) b location es) exprsCreations
      (partsHeaders (exprsParts location es))
  | [], location, b => by
    rw [lowerExprs]
    exact grafts_pure (.refl _)
  | first :: rest, location, b => by
    rw [lowerExprs, exprsParts, Surface.partsHeaders_append]
    exact (grafts_expr first b).bind fun first' => (grafts_exprs rest b).last fun rest' => .refl _

theorem grafts_option : ∀ (value : Option Surface.Expr) {location : Location} (b : BodyId),
    Grafts b [] (lowerOption (.ofDialect dialect) b location value)
      (fun o => exprsCreations o.toList) (partsHeaders (optionParts location value))
  | none, location, b => by
    rw [lowerOption]
    exact grafts_pure (.refl _)
  | some value, location, b => by
    rw [lowerOption, optionParts]
    exact (grafts_expr value b).last fun value' => .of_eq (List.append_nil _)

theorem grafts_keywordDefaults : ∀ (values : List (Option Surface.Expr))
    (params : List Surface.Param) {location : Location} (b : BodyId) (names : List String),
    names.length = params.length →
      Grafts b [] (lowerKeywordDefaults (.ofDialect dialect) b location names values)
        (fun entries => exprsCreations (entries.map Prod.snd))
        (partsHeaders (keywordParts location params values))
  | [], params, location, b, names, hlength => by
    rw [lowerKeywordDefaults.eq_def, keywordParts.eq_def]
    cases names <;> cases params <;> exact grafts_pure (.refl _)
  | value :: rest, [], location, b, [], hlength => by
    rw [lowerKeywordDefaults.eq_def, keywordParts.eq_def]
    exact grafts_pure (.refl _)
  | none :: rest, param :: params, location, b, name :: names, hlength => by
    rw [lowerKeywordDefaults, keywordParts, optionParts]
    exact grafts_keywordDefaults rest params b names (Nat.succ.inj hlength)
  | some value :: rest, param :: params, location, b, name :: names, hlength => by
    rw [lowerKeywordDefaults, keywordParts, optionParts, Surface.partsHeaders_append]
    exact (grafts_expr value b).bind fun value' =>
      (grafts_keywordDefaults rest params b names (Nat.succ.inj hlength)).last fun rest' => .refl _

end

theorem grafts_annotations (params : Params) (returns : Option Surface.Expr) (b : BodyId) :
    Grafts b [] (lowerAnnotations (.ofDialect dialect) b location params returns)
      (fun o => exprsCreations o.toList)
      (partsHeaders (hintParts dialect location params returns)) := by
  have hhint : ∀ written ∈ annotationsOf params returns,
      Grafts b [] (lowerHint (.ofDialect dialect) b location written)
        (fun entry => entry.2.creations) (partsHeaders (written.2.parts location)) := by
    intro written _
    have hvalue : ∀ key : String, Grafts b [] (do
        let value ← lowerExpr (.ofDialect dialect) b location written.2
        return (key, value)) (fun entry => entry.2.creations)
        (partsHeaders (written.2.parts location)) := fun key =>
      (grafts_expr written.2 b).last fun value => .refl _
    unfold lowerHint
    split
    · exact (grafts_query _).after hvalue
    · exact (grafts_query fun _ => written.1).after hvalue
  have hheaders : ∀ written : List (String × Surface.Expr),
      partsHeaders (written.flatMap fun entry => entry.2.parts location) =
        written.flatMap fun entry => partsHeaders (entry.2.parts location) := by
    intro written
    induction written with
    | nil => rfl
    | cons first rest ih => simp [ih]
  unfold lowerAnnotations hintParts
  dsimp only
  split
  · rename_i hnone
    have hparts : partsHeaders (if dialect.annotations then
        (annotationsOf params returns).flatMap fun written => written.2.parts location
      else []) = [] := by
      split
      · rename_i hsome
        have hempty : annotationsOf params returns = [] := by
          simpa [Setting.ofDialect, hsome] using hnone
        rw [hempty]
        rfl
      · rfl
    rw [hparts]
    exact grafts_pure (.refl _)
  · rename_i hsome
    have hannotations : dialect.annotations = true := by
      by_contra hnone
      exact hsome (by simp [Setting.ofDialect, hnone])
    rw [if_pos hannotations, hheaders]
    refine (grafts_mapM hhint).last fun entries => .of_eq ?_
    simp [exprsCreations, List.flatMap_map]

/-! ## Definitions -/

/-- Statements and what they create. -/
def LowersForest (dialect : Dialect) (statements : List Surface.Stmt) : Prop :=
  ∀ b, Grafts b [] (lowerStmts (.ofDialect dialect) b statements) stmtsCreations
    (partsHeaders (stmtsParts dialect statements))

theorem grafts_decorators (decorators : List Surface.Expr) (b : BodyId) :
    Grafts b [] (lowerDecorators (.ofDialect dialect) b location decorators) exprsCreations
      (partsHeaders (exprsParts location decorators.reverse)) :=
  grafts_exprs decorators.reverse b

/-- Decorators are evaluated from the last to the first. -/
theorem perm_decorators (decorators : List Surface.Expr) :
    (partsHeaders (exprsParts location decorators.reverse)).Perm
      (partsHeaders (exprsParts location decorators)) := by
  have hflat : ∀ es : List Surface.Expr, partsHeaders (exprsParts location es) =
      es.flatMap fun e => partsHeaders (e.parts location) := by
    intro es
    induction es with
    | nil => rfl
    | cons first rest ih => simp [exprsParts, ih]
  rw [hflat, hflat]
  exact (List.reverse_perm decorators).flatMap_right _

theorem undocumentedParts_eq (dialect : Dialect) (body : List Surface.Stmt) :
    undocumentedParts dialect body = stmtsParts dialect (Surface.undocumented body) := by
  cases body with
  | nil => rfl
  | cons first rest =>
    rw [undocumentedParts, Surface.undocumented]
    split <;> rfl

/-- The scopes of a definition: those that the scope around it evaluates, and its own with
those nested in it. -/
theorem headers_def (d : Surface.Def) : partsHeaders (d.parts dialect) =
    partsHeaders (exprsParts d.location d.decorators) ++
      partsHeaders (exprsParts d.location d.params.defaults) ++
      partsHeaders (keywordParts d.location d.params.keywordOnly d.params.keywordDefaults) ++
      partsHeaders (hintParts dialect d.location d.params d.returns) ++
      defHeader d :: partsHeaders (stmtsParts dialect (Surface.undocumented d.body)) := by
  obtain ⟨name, params, body, decorators, returns, isAsync, place⟩ := d
  simp [Surface.Def.parts, Part.headers, Surface.Region.headers, undocumentedParts_eq]

theorem grown_plain {d : Surface.Def} {statement : IR.Stmt} (hplain : d.isAsync = false)
    (hbody : LowersForest dialect (Surface.undocumented d.body))
    (hs : s.WellFormed) (hb : b.index < s.bodies.size)
    (hrun : PlainRun (.ofDialect dialect) b d s statement s') (ht : Store.Grows 0 s' t)
    (hwf : t.WellFormed) :
    Grown t b (Store.bodiesFrom s.bodies.size s'.bodies.size) statement.creations
      (partsHeaders (d.parts dialect)) := by
  obtain ⟨made, code, decorators, defaults, keywords, annotations, lowered, s₁, s₂, s₃, s₄, s₅,
    s₆, s₇, s₈, s₉, hbuild, hplaced, hcreate, hcode, hdecorators, hdefaults, hkeywords, hopen,
    hrunBody, hattach, hannotations, hbind⟩ := hrun
  have hb₂ := hcreate.created (hbuild.created hb)
  have hstands := buildCallable_stands hs hb hbuild (Store.Grows.refl 0 s₁) hbuild.wellFormed
  have evaluated := (hdecorators.grafted (grafts_decorators d.decorators b) hcreate.wellFormed
    hb₂).ran hdefaults (grafts_exprs d.params.defaults b)
  have before := (evaluated.keywords hkeywords (grafts_keywordDefaults d.params.keywordDefaults
    d.params.keywordOnly b) hstands hplaced.outer.2
    ((hcreate.grows.mono (Nat.zero_le _)).trans evaluated.grown (Nat.le_refl 0))).still
    (hopen.grows.mono (Nat.zero_le _)) hopen.wellFormed (openScope_size hopen.run)
  have hcode₆ := hopen.created (hkeywords.created (hdefaults.created
    (hdecorators.created hcode.2)))
  have inside := (hrunBody.grafted (hbody _) hopen.wellFormed hcode₆).still
    (hattach.grows.mono (Nat.zero_le _)) hattach.wellFormed (attachCode_size hattach.run)
  obtain ⟨more, hmore, after⟩ := (hannotations.grafted (grafts_annotations d.params d.returns b)
    hattach.wellFormed (Nat.lt_of_lt_of_le before.here inside.le)).holding hbind
    (grafts_bindDefinition d.name _)
  have h₈ := after.grown.trans ht (Nat.le_refl 0)
  have h₆ := inside.grown.trans h₈ (Nat.le_refl 0)
  have h₂ := before.grown.trans h₆ (Nat.le_refl 0)
  obtain ⟨object, rfl, hcallable, hobject⟩ := callableAt_of_plain hplain hs hb hbuild hplaced
    hcreate hcode₆ hopen.wellFormed hrunBody hattach.run (hcreate.later h₂) h₂ h₈ hwf
  obtain ⟨-, hblock⟩ := attached hattach.run (hrunBody.created hcode₆) h₈
  have ginside := inside.adds t h₈ hwf
  rw [← creations_definitionCode false ((Callee.define d).kind (.ofDialect dialect)) made.code]
    at ginside
  have gcallable := hcallable.grown hwf.ordered (bodiesFrom_callable hs hb hbuild.run
    hcreate.grows.bodies hobject) hblock ginside (h := defHeader d) rfl rfl rfl rfl
  refine (gcallable.around (before.adds t h₆ hwf) (after.adds t ht hwf) hwf.ordered
    (Nat.le_trans hbuild.grows.bodies hcreate.grows.bodies) before.le inside.le after.le).perm
    (.refl _) ?_ ?_
  · refine .trans ?_ hmore.symm
    refine .trans ?_ ((perm_decorate _ _).symm.append_right _)
    rw [creations_addImplicit, creations_creation]
    refine List.perm_iff_count.2 fun c => ?_
    simp only [List.count_append]
    omega
  · rw [headers_def, List.append_nil]
    exact (((perm_decorators d.decorators).append_right _).append_right _).append_right _
      |>.append_right _

theorem grown_async {d : Surface.Def} {statement : IR.Stmt} (hasync : d.isAsync = true)
    (hbody : LowersForest dialect (Surface.undocumented d.body))
    (hs : s.WellFormed) (hb : b.index < s.bodies.size)
    (hrun : AsyncRun (.ofDialect dialect) b d s statement s') (ht : Store.Grows 0 s' t)
    (hwf : t.WellFormed) :
    Grown t b (Store.bodiesFrom s.bodies.size s'.bodies.size) statement.creations
      (partsHeaders (d.parts dialect)) := by
  obtain ⟨kind, made, object, decorators, defaults, keywords, annotations, lowered, s₁, s₂, s₃,
    s₄, s₅, s₆, s₇, s₈, s₉, s₁₀, s₁₁, hkind, hbuild, hplaced, hcreate, hobject, hdecorators,
    hdefaults, hopen, hrunBody, hattach, hannotations, hkeywords, hmaker, rfl, hbind⟩ := hrun
  have hb₂ := hcreate.created (hbuild.created hb)
  have hstands := buildCallable_stands hs hb hbuild (Store.Grows.refl 0 s₁) hbuild.wellFormed
  have before := ((hdecorators.grafted (grafts_decorators d.decorators b) hcreate.wellFormed
    hb₂).ran hdefaults (grafts_exprs d.params.defaults b)).still
    (hopen.grows.mono (Nat.zero_le _)) hopen.wellFormed (openScope_size hopen.run)
  have hobject₅ := hopen.created (hdefaults.created (hdecorators.created hobject.2))
  have inside := (hrunBody.grafted (hbody _) hopen.wellFormed hobject₅).still
    (hattach.grows.mono (Nat.zero_le _)) hattach.wellFormed (attachCode_size hattach.run)
  have evaluated := hannotations.grafted (grafts_annotations d.params d.returns b)
    hattach.wellFormed (Nat.lt_of_lt_of_le before.here inside.le)
  have since : Store.Grows 0 s₁ s₈ := hcreate.later (before.grown.trans (inside.grown.trans
    evaluated.grown (Nat.le_refl 0)) (Nat.le_refl 0))
  have named := evaluated.keywords hkeywords (grafts_keywordDefaults d.params.keywordDefaults
    d.params.keywordOnly b) hstands hplaced.outer.2 since
  have gcopy : Store.Grows 0 s₁₀ (s₁₀.copyNonlocals object made.function) :=
    Store.Grows.copyNonlocals (Nat.zero_le _)
  have copied := (named.still (hmaker.grows.mono (Nat.zero_le _)) hmaker.wellFormed
    (attachCode_size hmaker.run)).still gcopy
    (IR.Store.WellFormed.copyNonlocals hmaker.wellFormed) (Store.size_bodies_modifyBody _ _ _)
  obtain ⟨more, hmore, after⟩ := copied.holding hbind (grafts_bindDefinition d.name _)
  have h₇ := after.grown.trans ht (Nat.le_refl 0)
  have h₅ := inside.grown.trans h₇ (Nat.le_refl 0)
  have h₂ := before.grown.trans h₅ (Nat.le_refl 0)
  have h₁₀ := gcopy.trans (hbind.later ht) (Nat.le_refl 0)
  have hfunction : made.function.index < s₉.bodies.size :=
    Nat.lt_of_lt_of_le hplaced.function.2 (Nat.le_trans since.bodies hkeywords.grows.bodies)
  have hcallable := callableAt_of_async hasync hkind hs hb hbuild hcreate.run hobject₅
    hopen.wellFormed hrunBody hattach.run hfunction hmaker.run (hcreate.later h₂) h₂ h₇ h₁₀ hwf
  obtain ⟨-, hblock⟩ := attached hattach.run (hrunBody.created hobject₅) h₇
  have ginside := inside.adds t h₇ hwf
  rw [← creations_definitionCode true ((Callee.define d).kind (.ofDialect dialect)) made.code]
    at ginside
  have gcallable := hcallable.grown hwf.ordered (bodiesFrom_callable hs hb hbuild.run
    hcreate.grows.bodies (createObject_bodies hcreate.run)) hblock ginside (h := defHeader d)
    rfl rfl rfl rfl
  refine (gcallable.around (before.adds t h₅ hwf) (after.adds t ht hwf) hwf.ordered
    (Nat.le_trans hbuild.grows.bodies hcreate.grows.bodies) before.le inside.le after.le).perm
    (.refl _) ?_ ?_
  · refine .trans ?_ hmore.symm
    refine .trans ?_ ((perm_decorate _ _).symm.append_right _)
    rw [creations_creation]
    refine List.perm_iff_count.2 fun c => ?_
    simp only [List.count_append]
    omega
  · rw [headers_def, List.append_nil, List.append_assoc _ (partsHeaders (keywordParts _ _ _))]
    exact (((perm_decorators d.decorators).append_right _).append
      List.perm_append_comm).append_right _

/-! ## Classes -/

/-- The scopes of a class: those that the scope around it evaluates, and its own with those
nested in it. -/
theorem headers_class (d : Surface.ClassDef) : partsHeaders (d.parts dialect) =
    partsHeaders (exprsParts d.location d.decorators) ++
      partsHeaders (exprsParts d.location d.bases) ++
      classHeader d :: partsHeaders (stmtsParts dialect (Surface.undocumented d.body)) := by
  obtain ⟨name, bases, body, decorators, place⟩ := d
  simp [Surface.ClassDef.parts, Part.headers, Surface.Region.headers, undocumentedParts_eq]

/-- The body of a class is the one that its scope has. -/
theorem ClassAt.contributes {d : Surface.ClassDef} (h : ClassAt setting t d b c) :
    Contributes t (classHeader d) [c] where
  kinds := congrArg (fun kind => [kind]) h.planned.kind
  chained := .singleton _
  named _ hc := Option.some.inj hc ▸ h.planned.name
  located _ hc := List.mem_singleton.1 hc ▸ h.planned.location

theorem grown_class {d : Surface.ClassDef} {statement : IR.Stmt}
    (hbody : LowersForest dialect (Surface.undocumented d.body))
    (hs : s.WellFormed) (hb : b.index < s.bodies.size)
    (hrun : ClassRun (.ofDialect dialect) b d s statement s') (ht : Store.Grows 0 s' t)
    (hwf : t.WellFormed) :
    Grown t b (Store.bodiesFrom s.bodies.size s'.bodies.size) statement.creations
      (partsHeaders (d.parts dialect)) := by
  obtain ⟨decorators, bases, lowered, s₁, s₂, s₄, s₅, s₆, hdecorators, hbases, hcreate, hopen,
    hrunBody, hattach, hbind⟩ := hrun
  have gcreate := Store.Grows.createBody s₂ (DefinitionLowering.classPlan b d)
  have before := (hdecorators.grafted (grafts_decorators d.decorators b) hs hb).ran hbases
    (grafts_exprs d.bases b)
  have hclass : (⟨s₂.bodies.size⟩ : BodyId).index < s₄.bodies.size := hopen.created (by simp)
  have inside := (hrunBody.grafted (hbody _) hopen.wellFormed hclass).still
    (hattach.grows.mono (Nat.zero_le _)) hattach.wellFormed (attachCode_size hattach.run)
  have hb₆ := hattach.created (hrunBody.created (hopen.created (Nat.lt_of_lt_of_le before.here
    gcreate.bodies)))
  obtain ⟨more, hmore, after⟩ := (grafted_nil hattach.wellFormed hb₆).holding hbind
    (grafts_bindDefinition d.name _)
  rw [List.nil_append, List.nil_append] at after
  have h₆ := hbind.later ht
  have h₄ := inside.grown.trans h₆ (Nat.le_refl 0)
  have h₂ := (gcreate.mono (Nat.zero_le _)).trans (hopen.later h₄) (Nat.le_refl 0)
  have hclassAt : ClassAt (.ofDialect dialect) t d b ⟨s₂.bodies.size⟩ := classAt_of_ran
    (hopen.grows.mono (Nat.zero_le _)) hopen.wellFormed hrunBody hattach.run h₆
  obtain ⟨-, hblock⟩ := attached hattach.run (hrunBody.created hclass) h₆
  have hopened : s₄.bodies.size = s₂.bodies.size + 1 := by
    rw [openScope_size hopen.run, Store.size_bodies_createBody]
  have hcreations : (t.creations ⟨s₂.bodies.size⟩).Perm (stmtsCreations lowered) := by
    rw [IR.Store.creations_of_code hblock, IR.Block.creations_eq]
    exact .refl _
  have hinside : s₂.bodies.size + 1 ≤ s₆.bodies.size := hopened ▸ inside.le
  have gclass : Grown t b (Store.bodiesFrom s₂.bodies.size s₆.bodies.size)
      [(.classBody, ⟨s₂.bodies.size⟩)]
      (classHeader d :: partsHeaders (stmtsParts dialect (Surface.undocumented d.body))) := by
    have ginside := inside.adds t h₆ hwf
    rw [hopened] at ginside
    have hnode := ginside.hangs.node hwf.ordered hclassAt.planned.provider hcreations
    rw [hclassAt.planned.kind] at hnode
    rw [← Store.bodiesFrom_append (Nat.le_succ _) hinside, Store.bodiesFrom_succ]
    exact ⟨hnode, hclassAt.contributes.contributed.append ginside.contributed⟩
  have hlow := Nat.le_of_succ_le hinside
  refine (((before.adds t h₂ hwf).trans gclass hwf.ordered before.le hlow).trans
    (after.adds t ht hwf) hwf.ordered (Nat.le_trans before.le hlow) after.le).perm (.refl _) ?_ ?_
  · refine .trans ?_ hmore.symm
    refine .append_right _ (.trans ?_ (perm_decorate _ _).symm)
    rw [IR.Expr.creations_makeClass, List.append_assoc]
  · rw [headers_class, List.append_nil]
    exact ((perm_decorators d.decorators).append_right _).append_right _

/-! ## Statements -/

theorem grafts_def (d : Surface.Def) (hbody : LowersForest dialect (Surface.undocumented d.body))
    (b : BodyId) : Grafts b [] (lowerDef (.ofDialect dialect) b d) IR.Stmt.creations
      (partsHeaders (d.parts dialect)) := by
  intro s statement s' hs hb hrun
  obtain ⟨hran, -⟩ := sound_ran (fun m => sound_lowerDef (.ofDialect dialect) d m b) hs hb hrun
  refine ⟨hran.wellFormed, hran.grows, fun t ht hwf => ⟨_, .refl _, ?_⟩⟩
  cases hasync : d.isAsync with
  | true => exact grown_async hasync hbody hs hb (asyncRun_of_ok hs hb hasync hrun) ht hwf
  | false => exact grown_plain hasync hbody hs hb (plainRun_of_ok hs hb hasync hrun) ht hwf

theorem grafts_classDef (d : Surface.ClassDef)
    (hbody : LowersForest dialect (Surface.undocumented d.body)) (b : BodyId) :
    Grafts b [] (lowerClassDef (.ofDialect dialect) b d) IR.Stmt.creations
      (partsHeaders (d.parts dialect)) := by
  intro s statement s' hs hb hrun
  obtain ⟨hran, -⟩ := sound_ran (fun m => sound_lowerClassDef (.ofDialect dialect) d m b) hs hb hrun
  exact ⟨hran.wellFormed, hran.grows, fun t ht hwf =>
    ⟨_, .refl _, grown_class hbody hs hb (classRun_of_ok hs hb hrun) ht hwf⟩⟩

theorem grafts_checkReturn (hasValue : Bool) :
    Grafts b [] (checkReturn b location hasValue) (fun _ => []) [] := by
  unfold checkReturn
  refine grafts_kindOf.after fun kind => ?_
  split
  · exact grafts_reject
  · exact grafts_reject
  · split
    · exact grafts_reject
    · exact grafts_pure (.refl _)
  · exact grafts_pure (.refl _)

/-- What a statement, if it leaves one, creates. -/
def optionCreations (out : Option IR.Stmt) : List (BodyKind × BodyId) :=
  stmtsCreations out.toList

mutual

theorem grafts_stmt : ∀ (statement : Surface.Stmt) (b : BodyId),
    Grafts b [] (lowerStmt (.ofDialect dialect) b statement) optionCreations
      (partsHeaders (statement.parts dialect))
  | ⟨kind, location⟩, b => by
    rw [lowerStmt, Surface.Stmt.parts]
    exact grafts_kind kind b

theorem grafts_kind : ∀ (kind : Surface.StmtKind) {location : Location} (b : BodyId),
    Grafts b [] (lowerKind (.ofDialect dialect) b location kind) optionCreations
      (partsHeaders (kind.parts dialect location))
  | .expr value, location, b => by
    rw [lowerKind, Surface.StmtKind.parts]
    exact (grafts_expr value b).last fun value' => .of_eq (by simp [optionCreations])
  | .assign target value, location, b => by
    rw [lowerKind, Surface.StmtKind.parts, Surface.partsHeaders_append]
    exact (grafts_expr value b).bind fun source => (grafts_query _).after fun name =>
      (grafts_bindName name source).map fun statement => .of_eq (List.append_nil _)
  | .pass, location, b => by
    rw [lowerKind]
    exact grafts_pure (.refl _)
  | .global _, location, b => by
    rw [lowerKind]
    exact grafts_pure (.refl _)
  | .nonlocal _, location, b => by
    rw [lowerKind]
    exact grafts_pure (.refl _)
  | .ret value, location, b => by
    rw [lowerKind, Surface.StmtKind.parts]
    have hheaders : partsHeaders (.ret value.isSome location :: optionParts location value) =
        partsHeaders (optionParts location value) ++ [] := (List.append_nil _).symm
    rw [hheaders]
    exact (grafts_checkReturn value.isSome).after fun _ =>
      (grafts_option value b).bind fun value' => grafts_kindOf.after fun kind =>
        grafts_pure (.of_eq (by simp [optionCreations, creations_returnStmt]))
  | .raise value, location, b => by
    rw [lowerKind, Surface.StmtKind.parts]
    exact (grafts_option value b).last fun value' => .of_eq (by simp [optionCreations])
  | .branch test body orelse, location, b => by
    rw [lowerKind, Surface.StmtKind.parts, Surface.partsHeaders_append,
      Surface.partsHeaders_append, List.append_assoc]
    exact (grafts_expr test b).bind fun condition => (grafts_stmts body b).bind fun yes =>
      (grafts_stmts orelse b).last fun no => .of_eq (by simp [optionCreations])
  | .loop test body, location, b => by
    rw [lowerKind, Surface.StmtKind.parts, Surface.partsHeaders_append]
    exact (grafts_expr test b).bind fun condition => (grafts_stmts body b).last fun inner =>
      .of_eq (by simp [optionCreations])
  | .define ⟨name, params, body, decorators, returns, isAsync, place⟩, location, b => by
    rw [lowerKind, Surface.StmtKind.parts]
    exact (grafts_def _ (fun c => grafts_undocumented body c) b).last fun statement =>
      .of_eq (List.append_nil _)
  | .defineClass ⟨name, bases, body, decorators, place⟩, location, b => by
    rw [lowerKind, Surface.StmtKind.parts]
    exact (grafts_classDef _ (fun c => grafts_undocumented body c) b).last fun statement =>
      .of_eq (List.append_nil _)

theorem grafts_stmts : ∀ (statements : List Surface.Stmt), LowersForest dialect statements
  | [] => fun b => by
    rw [lowerStmts]
    exact grafts_pure (.refl _)
  | first :: rest => fun b => by
    rw [lowerStmts, stmtsParts, Surface.partsHeaders_append]
    exact (grafts_stmt first b).bind fun out => (grafts_stmts rest b).last fun lowered =>
      .of_eq (IR.stmtsCreations_append _ _)

theorem grafts_undocumented : ∀ (statements : List Surface.Stmt),
    LowersForest dialect (Surface.undocumented statements)
  | [] => fun b => by
    rw [Surface.undocumented, lowerStmts]
    exact grafts_pure (.refl _)
  | first :: rest => fun b => by
    rw [Surface.undocumented]
    split
    · exact grafts_stmts rest b
    · rw [lowerStmts, stmtsParts, Surface.partsHeaders_append]
      exact (grafts_stmt first b).bind fun out => (grafts_stmts rest b).last fun lowered =>
        .of_eq (IR.stmtsCreations_append _ _)

end

end Lowering

/-! ## Modules -/

section Modules

open Lowering

variable {dialect : Dialect} {t : Store} {b : BodyId} {m : Surface.Module}
  {lowered : LoweredModule}

/-- All bodies of a module but its own hang from it. -/
theorem Prepared.grown (h : Prepared (.ofDialect dialect) m t) :
    Grown t ⟨0⟩ (Store.bodiesFrom 1 t.bodies.size) (t.creations ⟨0⟩)
      (partsHeaders (m.region dialect).parts) := by
  obtain ⟨statements, s, s', hs, hsize, hran, ht, hbodies, hcode⟩ := h.ran
  have hb : (⟨0⟩ : BodyId).index < s.bodies.size := by
    rw [hsize]
    exact Nat.one_pos
  have hgrown := (hran.grafted (grafts_stmts (Surface.undocumented m.body) ⟨0⟩) hs hb).adds t ht
    h.valid.wellFormed
  rw [IR.Store.creations_of_code hcode, IR.Block.creations_eq, hbodies, ← hsize]
  exact hgrown

theorem Finished.creations (h : Finished t lowered) (b : BodyId) :
    lowered.store.creations b = t.creations b := by
  rw [IR.Store.creations, IR.Store.creations, h.map_code IR.Block.creations_releasing]

/-- Releasing variables changes nothing about the tree. -/
theorem Finished.grown {ids : List BodyId} {headers : List Header} (h : Finished t lowered)
    (hgrown : Grown t ⟨0⟩ ids (t.creations ⟨0⟩) headers) :
    Grown lowered.store ⟨0⟩ ids (lowered.store.creations ⟨0⟩) headers := by
  rw [h.creations]
  exact ⟨hgrown.hangs.congr h.kind h.provider h.creations, hgrown.contributed.congr h.body_eq⟩

theorem Finished.code_isSome (h : Finished t lowered) (ht : Valid 0 [] t)
    (hb : b.index < t.bodies.size) : (lowered.store.body b).code.isSome = true := by
  have hcode : (lowered.store.body b).code.map (fun _ => ()) = (t.body b).code.map fun _ => () :=
    h.map_code (fun _ _ => rfl) b
  rw [← Option.isSome_map, hcode, Option.isSome_map]
  exact ht.coded b (Nat.zero_le _) hb List.not_mem_nil

end Modules

namespace LoweredModule

variable {dialect : Dialect} {m : Surface.Module} {lowered : LoweredModule}

/-- All creations of a body in a lowered module: in which body each stands, and the kind of body
that its form is for. -/
def creationsOf (lowered : LoweredModule) (b : BodyId) : List (BodyId × BodyKind) :=
  lowered.store.bodyIds.flatMap fun p =>
    ((lowered.store.creations p).filter fun made => made.2 = b).map fun made => (p, made.1)

/-- The bodies of a lowered module form a tree. -/
structure IsTree (lowered : LoweredModule) : Prop where
  /-- Every body has its code. -/
  built : ∀ b ∈ lowered.store.bodyIds, (lowered.store.body b).code.isSome = true
  /-- The module stands in nothing else, and nothing creates it. -/
  root : lowered.root ∈ lowered.store.bodyIds ∧
    (lowered.store.body lowered.root).kind = .moduleBody ∧
      (lowered.store.body lowered.root).provider = none ∧ lowered.creationsOf lowered.root = []
  /-- Every other body is created by its provider alone, once, in the form for its kind. -/
  created : ∀ b ∈ lowered.store.bodyIds, b ≠ lowered.root →
    ∃ p, (lowered.store.body b).provider = some p ∧ p.index < b.index ∧
      lowered.creationsOf b = [(p, (lowered.store.body b).kind)]
  /-- The providers of a body lead to the module. -/
  rooted : ∀ b ∈ lowered.store.bodyIds,
    (b :: lowered.store.ancestors b).getLast? = some lowered.root

/-- One element of a list without repetitions gives something. -/
theorem flatMap_eq_singleton {α β : Type} {f : α → List β} {p : α} {x : β} : ∀ {l : List α},
    l.Nodup → p ∈ l → f p = [x] → (∀ q ∈ l, q ≠ p → f q = []) → l.flatMap f = [x]
  | [], _, hp, _, _ => by cases hp
  | first :: rest, hn, hp, hone, hnone => by
    obtain ⟨hfirst, hrest⟩ := List.nodup_cons.1 hn
    rw [List.flatMap_cons]
    by_cases heq : first = p
    · subst heq
      have hothers : rest.flatMap f = [] := List.flatMap_eq_nil_iff.2 fun q hq =>
        hnone q (List.mem_cons_of_mem _ hq) fun h => hfirst (h ▸ hq)
      rw [hone, hothers, List.append_nil]
    · rw [hnone first List.mem_cons_self heq, List.nil_append]
      exact flatMap_eq_singleton hrest ((List.mem_cons.1 hp).resolve_left (Ne.symm heq)) hone
        fun q hq => hnone q (List.mem_cons_of_mem _ hq)

theorem mem_bodiesFrom_one {s : Store} {b : BodyId} :
    b ∈ Store.bodiesFrom 1 s.bodies.size ↔ b ∈ s.bodyIds ∧ b ≠ ⟨0⟩ := by
  rw [Store.mem_bodiesFrom, Store.mem_bodyIds]
  have hzero : b ≠ ⟨0⟩ ↔ b.index ≠ 0 :=
    not_congr ⟨congrArg BodyId.index, fun h => congrArg BodyId.mk h⟩
  rw [hzero]
  omega

/-- The bodies but for the first. -/
theorem bodyIds_eq_cons {s : Store} (hsize : 0 < s.bodies.size) :
    s.bodyIds = ⟨0⟩ :: Store.bodiesFrom 1 s.bodies.size := by
  rw [Store.bodyIds_eq_bodiesFrom, ← Store.bodiesFrom_append (Nat.zero_le 1) hsize,
    Store.bodiesFrom_succ]
  rfl

section Tree

variable (hroot : lowered.root = ⟨0⟩) (hsize : 0 < lowered.store.bodies.size)
  (hhangs : lowered.store.Hangs ⟨0⟩ (Store.bodiesFrom 1 lowered.store.bodies.size)
    (lowered.store.creations ⟨0⟩))

include hroot hsize hhangs

/-- A body that hangs from the module is created by its provider alone. -/
theorem creationsOf_eq {b p : BodyId} (hb : b ∈ lowered.store.bodyIds) (hne : b ≠ lowered.root)
    (hprovider : (lowered.store.body b).provider = some p) (hp : p ∈ lowered.store.bodyIds) :
    lowered.creationsOf b = [(p, (lowered.store.body b).kind)] := by
  have hnodup := Store.nodup_bodyIds lowered.store
  have hbody : b ∈ Store.bodiesFrom 1 lowered.store.bodies.size :=
    mem_bodiesFrom_one.2 ⟨hb, hroot ▸ hne⟩
  have hfilter : ∀ q ∈ lowered.store.bodyIds,
      ((lowered.store.creations q).filter fun made => made.2 = b) =
        if (lowered.store.body b).provider = some q then [((lowered.store.body b).kind, b)]
        else [] := by
    rw [bodyIds_eq_cons hsize] at hnodup ⊢
    exact fun q hq => hhangs.filter_creations (List.nodup_cons.1 hnodup).2 hbody hq
  refine flatMap_eq_singleton hnodup hp ?_ fun q hq hqp => ?_
  · rw [hfilter p hp, if_pos hprovider]
    rfl
  · rw [hfilter q hq, if_neg fun h => hqp (Option.some.inj (h.symm.trans hprovider))]
    rfl

/-- Nothing creates the module. -/
theorem creationsOf_root : lowered.creationsOf lowered.root = [] := by
  refine List.flatMap_eq_nil_iff.2 fun q hq => ?_
  have hnot : lowered.root ∉ Store.bodiesFrom 1 lowered.store.bodies.size := fun hmem =>
    (mem_bodiesFrom_one.1 hmem).2 hroot
  rw [bodyIds_eq_cons hsize] at hq
  rw [hhangs.filter_creations_of_not_mem hnot hq]
  rfl

/-- The providers of a body lead to the module. -/
theorem getLast?_ancestors (hs : lowered.store.Ordered)
    (hprovider : (lowered.store.body lowered.root).provider = none) :
    ∀ (limit : Nat) (b : BodyId), b.index < limit → b ∈ lowered.store.bodyIds →
      (b :: lowered.store.ancestors b).getLast? = some lowered.root
  | 0, b, hlimit, _ => absurd hlimit (Nat.not_lt_zero _)
  | limit + 1, b, hlimit, hb => by
    by_cases hne : b = lowered.root
    · rw [hne, Store.ancestors_of_no_provider hprovider]
      rfl
    · obtain ⟨p, hp, heq⟩ := hhangs.provided b (mem_bodiesFrom_one.2 ⟨hb, hroot ▸ hne⟩)
      have hlt := hs b p heq
      rw [hs.ancestors heq, List.getLast?_cons_cons]
      rw [← bodyIds_eq_cons hsize] at hp
      exact getLast?_ancestors hs hprovider limit p (by omega) hp

/-- Where all bodies have code and hang from the module, they form a tree. -/
theorem isTree_of_hangs (hs : lowered.store.Ordered)
    (hkind : (lowered.store.body lowered.root).kind = .moduleBody)
    (hprovider : (lowered.store.body lowered.root).provider = none)
    (hbuilt : ∀ b ∈ lowered.store.bodyIds, (lowered.store.body b).code.isSome = true) :
    lowered.IsTree where
  built := hbuilt
  root := ⟨by rw [hroot]; exact Store.mem_bodyIds.2 hsize, hkind, hprovider,
    creationsOf_root hroot hsize hhangs⟩
  created b hb hne := by
    obtain ⟨p, hp, heq⟩ := hhangs.provided b (mem_bodiesFrom_one.2 ⟨hb, hroot ▸ hne⟩)
    rw [← bodyIds_eq_cons hsize] at hp
    exact ⟨p, heq, hs b p heq, creationsOf_eq hroot hsize hhangs hb hne heq hp⟩
  rooted b hb := getLast?_ancestors hroot hsize hhangs hs hprovider _ b (Nat.lt_succ_self _) hb

end Tree

/-- An asynchronous definition has an object. -/
theorem object_mem_bodyKinds {d : Surface.Def} (hasync : d.isAsync = true) :
    ∃ object, .callable (.suspended object) ∈ (Lowering.defHeader d).bodyKinds := by
  obtain ⟨object, hkind, -⟩ := Lowering.suspension_coroutine (Surface.undocumented d.body)
  have hdef : (Lowering.defHeader d).kind = .callable (.suspended object) := by
    show BodyKind.callable (Surface.defKind _ d.isAsync) = _
    rw [Surface.defKind, if_pos hasync, hkind]
  refine ⟨object, ?_⟩
  rw [Header.bodyKinds, hdef]
  simp [CallableKind.object?]

/-- **Every body is built and created once, in the scope that provides it.**  The bodies of a
lowered module form a tree.  Those other than the module's are, one for one, the bodies of the
scopes that the module evaluates: a callable has a function, a delegate if there are tuples among
its parameters, and an object if it suspends, as every asynchronous definition does; a class has
one body. -/
theorem bodies_form_tree (h : LoweredModule.ofSurface (.ofDialect dialect) m = .ok lowered) :
    lowered.IsTree ∧
      Contributed lowered.store (partsHeaders (m.region dialect).parts)
        (lowered.store.bodyIds.erase lowered.root) ∧
      ∀ d : Surface.Def, d.isAsync = true →
        ∃ object, .callable (.suspended object) ∈ (Lowering.defHeader d).bodyKinds := by
  obtain ⟨t, hprepared, hfinished⟩ := LoweredModule.prepared h
  have hgrown := hfinished.grown hprepared.grown
  rw [← hfinished.bodies] at hgrown
  have hroot := hfinished.root
  have hsize : 0 < lowered.store.bodies.size := by
    rw [hfinished.bodies]
    exact hprepared.root.created
  have hs : lowered.store.Ordered := fun b p hp =>
    hprepared.valid.wellFormed.ordered b p (hfinished.provider b ▸ hp)
  refine ⟨isTree_of_hangs hroot hsize hgrown.hangs hs ?_ ?_ fun b hb => ?_, ?_,
    fun d => object_mem_bodyKinds⟩
  · rw [hroot, hfinished.kind]
    exact hprepared.root.kind
  · rw [hroot, hfinished.provider]
    exact hprepared.root.provider
  · refine hfinished.code_isSome hprepared.valid ?_
    rw [← hfinished.bodies]
    exact Store.mem_bodyIds.1 hb
  · rw [bodyIds_eq_cons hsize, hroot, List.erase_cons_head]
    exact hgrown.contributed

/-- A module with callables of all kinds and a class:

    class K:
      async def run(self, (task, limit)): return await task
    make = lambda step: (yield step)
-/
def suspendingModule : Surface.Module where
  name := "m"
  filename := "m.py"
  future := ⟨false, false, false, false, false⟩
  body :=
    [at? (.defineClass
       { name := "K"
         bases := []
         body := [at? (.define
           { name := "run"
             params := params [name "self", .tuple [name "task", name "limit"]]
             body := [at? (.ret (some (.await (.name "task"))))]
             decorators := []
             returns := none
             isAsync := true
             location := .moduleStart })]
         decorators := []
         location := .moduleStart }),
     at? (.assign "make" (.lambda
       { params := params [name "step"]
         body := .yield (some (.name "step"))
         location := .moduleStart }))]
where
  at? (kind : Surface.StmtKind) : Surface.Stmt := ⟨kind, .moduleStart⟩
  name (id : String) : Surface.Pattern := .name ⟨id, none⟩
  params (positional : List Surface.Pattern) : Surface.Params :=
    ⟨positional, [], none, [], [], none⟩

/-- The class, the method with its delegate and its coroutine, and the lambda with its generator
have six bodies in all. -/
theorem suspendingModule_forms_tree :
    ∃ lowered, LoweredModule.ofSurface (.ofDialect .modern) suspendingModule = .ok lowered ∧
      lowered.IsTree ∧
      Contributed lowered.store (partsHeaders (suspendingModule.region .modern).parts)
        (lowered.store.bodyIds.erase lowered.root) ∧
      (partsHeaders (suspendingModule.region .modern).parts).map Header.bodyKinds =
        [[.classBody], [.function, .function, .callable .coroutine],
          [.function, .callable .generator]] ∧
      lowered.store.bodies.size = 7 := by
  have hfacts : succeedsWith (fun l => l.store.bodies.size == 7)
      (LoweredModule.ofSurface (.ofDialect .modern) suspendingModule) = true := by
    decide +kernel
  obtain ⟨lowered, h, hfacts⟩ := exists_of_succeedsWith hfacts
  obtain ⟨htree, hcontributed, -⟩ := bodies_form_tree h
  exact ⟨lowered, h, htree, hcontributed, by decide +kernel, beq_iff_eq.1 hfacts⟩

end LoweredModule

end DefinitionLowering
