import DefinitionLowering.Proofs.Entering

/-!
# What lowering does

Every function of the lowering lowers the parts of what it is given: there is one `lowers_`
theorem for each.  Expressions and statements go by induction; a definition or a lambda builds
its bodies, lets the scope around evaluate its share, enters its scope and attaches the code.
-/

namespace DefinitionLowering

open IR (BodyId VariableId Store)
open Surface (Header Part Params Region Scope exprsParts optionParts keywordParts hintParts
  lambdaKind defKind partsPlain partsViolations stmtsParts undocumentedParts spellAt
  paramViolations_subset_scope innerViolations_subset_scope)

namespace Lowering

variable {dialect : Dialect} {p : Place} {outer : List Place} {s s' : Store} {location : Location}

/-! ## Expressions -/

/-- A `yield`, `yield from` or `await`, which only some kinds of scopes allow. -/
theorem lowers_guarded {α : Type} {part : Part} {cause : Cause} {parts : List Part}
    {Q : α → List Occurrence → Prop} {allowed : Bool} {x : Lowering α} {k : PUnit → Lowering α}
    (hviolations : part.violations dialect (scopesOf (p :: outer)) =
      if allowed then [] else [⟨cause, location⟩])
    (hpart : ∀ s, PartResolved s (p :: outer) part [] [])
    (hx : Lowers dialect (p :: outer) x parts Q) :
    Lowers dialect (p :: outer) (if allowed then x else reject cause location >>= k)
      (part :: parts) Q := by
  cases allowed with
  | true => exact hx.part hviolations hpart
  | false => exact lowers_reject hviolations

theorem lowersFrom_keywordMapping {places : List Place} {holder : BodyId}
    {lower : List String → Lowering (List (String × IR.Expr))} {named : List Surface.Param}
    {values : List (Option Surface.Expr)} (hs : s.WellFormed) (h : AllSettled s places)
    (hlength : (keywordOnlyNames s holder).length = named.length)
    (hlower : ∀ names : List String, names.length = named.length →
      Lowers dialect places (lower names) (keywordParts location named values)
        fun entries occurrences => IR.exprsOccurrences (entries.map Prod.snd) = occurrences) :
    LowersFrom s dialect places (keywordMapping holder lower) (keywordParts location named values)
      fun mapping occurrences => IR.optionOccurrences mapping = occurrences := by
  have hnames : ∀ names : List String, names.length = named.length →
      LowersFrom s dialect places
        (if names.isEmpty then pure none else do return some (.ofEntries (← lower names)))
        (keywordParts location named values)
        fun mapping occurrences => IR.optionOccurrences mapping = occurrences := by
    intro names hlength
    cases names with
    | nil =>
      obtain rfl := List.length_eq_zero_iff.1 hlength.symm
      have hnone : keywordParts location [] values = [] := by cases values <;> simp [keywordParts]
      rw [hnone]
      exact lowersFrom_pure hs h rfl
    | cons name rest =>
      refine (hlower _ hlength).map (fun entries occurrences hoccurrences => ?_) s hs h
      rw [IR.optionOccurrences, IR.Expr.occurrences_ofEntries]
      exact hoccurrences
  exact hnames _ hlength

/-! ## Lambdas -/

section Lambdas

variable {h : Header} {s₀ : Store} {callable : Callable} {shells : List BodyId}

/-- The header of a function that has the parameters of a scope. -/
abbrev functionHeader (h : Header) : Header :=
  { h with kind := .function }

theorem functionHeader_eq (hkind : h.kind = .function) : functionHeader h = h := by
  cases h
  cases hkind
  rfl

/-- A callable is built first.  Of its scope only the parameters may be rejected there. -/
theorem buildCallable_step {α : Type} {kind : CallableKind} {name : String} {doc : Option String}
    {flags : Flags} {params : Params} {inside parts : List Part} {f : Callable → Lowering α}
    {done : α → Store → Prop} (hs : s.WellFormed) (hsettled : AllSettled s (p :: outer))
    (hparams : h.params = some params) (hmem : .scope ⟨h, inside⟩ ∈ parts)
    (hf : ∀ callable s' shells,
      Opened (functionHeader h) (p :: outer) s s' callable.function shells →
      callable.outer ∈ callable.function :: shells →
      (keywordOnlyNames s' callable.outer).length = params.keywordOnly.length →
      h.paramViolations dialect (scopesOf (p :: outer)) = [] →
      Ends (f callable) s' done
        fun failure _ => FailsIn (partsViolations dialect (scopesOf (p :: outer)) parts) failure) :
    Ends (buildCallable (.ofDialect dialect) p.code kind name doc flags params h.location >>= f) s
      done
      fun failure _ => FailsIn (partsViolations dialect (scopesOf (p :: outer)) parts) failure := by
  have hviolations : params.violations dialect (spellAt (scopesOf (p :: outer))) h.location =
      h.paramViolations dialect (scopesOf (p :: outer)) := by
    rw [Header.paramViolations, hparams]
  rw [ends_bind]
  refine (buildCallable_opens (h := functionHeader h) hs hsettled rfl hparams).weaken
    (fun callable s' => ?_) fun _ _ hfail => hfail.mono ?_
  · rintro ⟨shells, ho, houter, hlength, hnone⟩
    exact hf callable s' shells ho houter hlength (hviolations ▸ hnone)
  · show params.violations dialect (spellAt (scopesOf (p :: outer))) h.location ⊆ _
    rw [hviolations]
    exact List.Subset.trans (paramViolations_subset_scope dialect _ h inside)
      (violations_subset_of_mem hmem)

/-- The code body of a lambda: the object's, if there is one. -/
theorem lambdaObject_opens {kind : CallableKind}
    (ho : Opened (functionHeader h) outer s₀ s callable.function shells)
    (hkind : h.kind = .callable kind) (hcases : kind = .function ∨ kind = .generator)
    (flags : Flags) (location : Location) :
    Ends (lambdaObject callable kind flags location) s
      (fun object s' => Store.Grows s.bodies.size s s' ∧
        (s'.body callable.function).code = none ∧ ∃ shells',
        Opened h outer s₀ s' (object.getD callable.function) shells' ∧
          ∀ c ∈ object, callable.function ∈ shells')
      fun _ _ => False := by
  unfold lambdaObject
  rcases hcases with rfl | rfl
  · rw [functionHeader_eq hkind] at ho
    exact ⟨Store.Grows.refl _ _, ho.codeless, shells, ho, fun c hc => by cases hc⟩
  · rw [if_pos (beq_self_eq_true _), ends_bind]
    refine (createObject_opens ho rfl hkind rfl "<lambda>" flags location).weaken
      (fun object s' => ?_) fun _ _ h => h
    rintro ⟨ho', hcode, hg⟩
    exact ⟨hg, hcode, _, ho', fun _ _ => List.mem_cons_self⟩

/-- A lambda gets its code when its body has been lowered. -/
theorem attachLambda_spec {n : Nat} {object : Option BodyId} {value : IR.Expr} {parts : List Part}
    {names : List Occurrence} {trees : List PlaceTree}
    (he : Entered dialect n h outer (object.getD callable.function) shells s s' parts names trees)
    (hparams : h.paramViolations dialect (scopesOf outer) = [])
    (hold : ∀ c ∈ bodiesOf outer, c.index < n)
    (hn : ∀ c ∈ object.getD callable.function :: shells, n ≤ c.index)
    (hlt : ∀ c ∈ object.getD callable.function :: shells, c.index < s.bodies.size)
    (hobject : ∀ c ∈ object, callable.function ∈ shells)
    (hcode : (s.body (object.getD callable.function)).code = none)
    (hfunction : (s.body callable.function).code = none) (hnames : value.occurrences = names) :
    Ends (attachLambda callable object value) s'
      (fun _ s'' => Progress dialect n outer s s'' (treeBodies trees) [.scope ⟨h, parts⟩] []
        [.node ⟨h.scope (scopesOf outer), object.getD callable.function, shells⟩ trees])
      fun _ _ => False := by
  unfold attachLambda
  cases object with
  | none =>
    have hvalue : (IR.Block.ofFrame callable.code [.ret value]).occurrences = names := by
      rw [← hnames]
      exact List.append_nil _
    exact (he.close hparams hold (hn _ List.mem_cons_self) (hlt _ List.mem_cons_self) hcode
      hvalue rfl).weaken (fun _ _ => And.left) fun _ _ h => h
  | some object =>
    have hvalue : (IR.Block.ofFrame callable.code [.expr value, .objectRetNone]).occurrences =
        names := by
      rw [← hnames]
      exact List.append_nil _
    have hmem := hobject object rfl
    have hne : callable.function ≠ object := fun heq => Nat.lt_irrefl _ (heq ▸
      shells_older he.advances.wellFormed.ordered he.settled.1.leads _ hmem)
    rw [ends_bind]
    refine (he.close hparams hold (hn _ List.mem_cons_self) (hlt _ List.mem_cons_self) hcode
      hvalue rfl).weaken (fun _ s₁ => ?_) fun _ _ h => h
    rintro ⟨hclosed, hcodes⟩
    have hmaker := (hcodes _ hne (hlt _ (List.mem_cons_of_mem _ hmem))).trans hfunction
    exact (attachCode_advances hclosed.advances.wellFormed hclosed.advances.settled hold
      (hn _ (List.mem_cons_of_mem _ hmem)) hmaker rfl).weaken
        (fun _ _ h => hclosed.later h.1 (Nat.le_refl _)) fun _ _ h => h

end Lambdas

theorem treeBodies_node (place : Place) (trees : List PlaceTree) :
    treeBodies [.node place trees] = place.bodies ++ treeBodies trees := by
  simp [treeBodies, bodiesOf, forestPlaces, PlaceTree.places]

/-- The header of a lambda. -/
abbrev lambdaHeader (params : Params) (body : Surface.Expr) (location : Location) : Header where
  kind := .callable (lambdaKind body)
  name := "<lambda>"
  params := some params
  declarations := []
  location := location

/-- A lambda, given what its parts do. -/
theorem lowers_lambda {params : Params} {body : Surface.Expr} {flags : Flags}
    (hdefaults : ∀ p outer, Lowers dialect (p :: outer)
      (lowerExprs (.ofDialect dialect) p.code location params.defaults)
      (exprsParts location params.defaults) fun values names => IR.exprsOccurrences values = names)
    (hkeywords : ∀ p outer (named : List Surface.Param) (keys : List String),
      keys.length = named.length → Lowers dialect (p :: outer)
        (lowerKeywordDefaults (.ofDialect dialect) p.code location keys params.keywordDefaults)
        (keywordParts location named params.keywordDefaults)
        fun entries names => IR.exprsOccurrences (entries.map Prod.snd) = names)
    (hbody : ∀ p outer, Lowers dialect (p :: outer)
      (lowerExpr (.ofDialect dialect) p.code location body) (body.parts location)
      fun value names => value.occurrences = names) :
    Lowers dialect (p :: outer) (do
        let callable ← buildCallable (.ofDialect dialect) p.code (lambdaKind body) "<lambda>" none
          flags params location
        let object ← lambdaObject callable (lambdaKind body) flags location
        let defaults ← lowerExprs (.ofDialect dialect) p.code location params.defaults
        let keywordDefaults ← keywordMapping callable.outer fun names =>
          lowerKeywordDefaults (.ofDialect dialect) p.code location names params.keywordDefaults
        let value ← lowerExpr (.ofDialect dialect) (object.getD callable.function) location body
        attachLambda callable object value
        return creation callable defaults keywordDefaults none)
      (exprsParts location params.defaults ++
        keywordParts location params.keywordOnly params.keywordDefaults ++
        [.scope ⟨lambdaHeader params body location, body.parts location⟩])
      fun value names => value.occurrences = names := by
  intro s hs hsettled hplain
  let h := lambdaHeader params body location
  have hold := hsettled.created
  have hmem : Part.scope ⟨h, body.parts location⟩ ∈ exprsParts location params.defaults ++
      keywordParts location params.keywordOnly params.keywordDefaults ++
      [.scope ⟨h, body.parts location⟩] :=
    List.mem_append_right _ (List.mem_singleton_self _)
  have hscope : (Region.mk h (body.parts location)).plain = true :=
    partsPlain_iff.1 hplain (.scope _) hmem
  rw [Region.plain, Bool.and_eq_true] at hscope
  refine buildCallable_step (h := h) hs hsettled rfl hmem
    fun callable s₁ shells ho₁ houter hlength hparams => ?_
  rw [ends_bind]
  refine (lambdaObject_opens ho₁ rfl (Surface.suspension_function _) flags location).weaken
    (fun object s₂ => ?_) fun _ _ h => h.elim
  rintro ⟨hg₂, hfunction, inner, ho₂, hobject⟩
  have hcallable := ho₁.opening.place.created
  refine (hdefaults p outer s₂ ho₂.advances.wellFormed ho₂.advances.settled).step
    (fun part hpart => by simp [hpart]) hplain fun defaults s₃ names₃ trees₃ hdefs h₃ => ?_
  have hg₃ := hg₂.trans h₃.advances.grows hg₂.bodies
  have hlength₃ : (keywordOnlyNames s₃ callable.outer).length = params.keywordOnly.length := by
    rw [keywordOnlyNames_grows hg₃ (hcallable _ houter), hlength]
  refine (lowersFrom_keywordMapping h₃.advances.wellFormed h₃.advances.settled hlength₃
    (hkeywords p outer _)).step (fun part hpart => by simp [hpart]) hplain
    fun keywordDefaults s₄ names₄ trees₄ hkeys h₄ => ?_
  have hshare := h₃.append h₄ h₃.le
  obtain ⟨hopening, hcodes⟩ := ho₂.wait hold hshare.advances
  have hlt := ho₂.opening.place.created
  have hn := fun c hc => (ho₂.advances.new (c := c) hc).1
  rw [ends_bind]
  refine (enter_bare rfl BodyKind.noConfusion hscope.2 hopening hn (hbody _ _)).weaken
    (fun value s₅ => ?_) fun _ _ hf => hf.mono (List.Subset.trans
      (List.Subset.trans (List.subset_append_right _ _)
        (innerViolations_subset_scope dialect _ h _)) (violations_subset_of_mem hmem))
  rintro ⟨names, trees, hnames, he⟩
  rw [ends_bind]
  refine (attachLambda_spec he hparams hold hn
    (fun c hc => Nat.lt_of_lt_of_le (hlt c hc) hshare.le) hobject
    ((hcodes _ (hlt _ List.mem_cons_self)).trans ho₂.codeless)
    ((hcodes _ (Nat.lt_of_lt_of_le (hcallable _ List.mem_cons_self) hg₂.bodies)).trans hfunction)
    hnames).weaken (fun _ s₆ hclosed => ?_) fun _ _ h => h.elim
  have hdone := ((Progress.bare ho₂.advances).append hshare ho₂.advances.grows.bodies).append
    hclosed (Nat.le_refl _)
  refine ends_pure.2 ⟨_, _, ?_, hdone.advances.reorder ?_, hdone.renders⟩
  · show IR.exprsOccurrences defaults ++ IR.optionOccurrences keywordDefaults ++ [] = _
    rw [hdefs, hkeys]
    rfl
  · refine List.perm_iff_count.2 fun c => ?_
    simp only [treeBodies_append, treeBodies_node, Place.bodies, List.count_append, List.nil_append]
    omega

mutual

/-- **Expressions.** -/
theorem lowers_expr (dialect : Dialect) : ∀ (e : Surface.Expr) (p : Place) (outer : List Place)
    (location : Location), Lowers dialect (p :: outer)
      (lowerExpr (.ofDialect dialect) p.code location e) (e.parts location)
      fun value names => value.occurrences = names
  | .name id, p, outer, location => by
    rw [lowerExpr, Surface.Expr.parts]
    exact lowers_reference id
  | .constant value, p, outer, location => by
    rw [lowerExpr, Surface.Expr.parts]
    exact lowers_pure rfl
  | .call callee args, p, outer, location => by
    rw [lowerExpr, Surface.Expr.parts]
    refine (lowers_expr dialect callee p outer location).bind fun callee names hcallee =>
      (lowers_exprs dialect args p outer location).map fun args after hargs => ?_
    rw [IR.Expr.occurrences, hcallee, hargs]
  | .binary left op right, p, outer, location => by
    rw [lowerExpr, Surface.Expr.parts]
    refine (lowers_expr dialect left p outer location).bind fun left names hleft =>
      (lowers_expr dialect right p outer location).map fun right after hright => ?_
    rw [IR.Expr.occurrences, hleft, hright]
  | .attribute value name, p, outer, location => by
    rw [lowerExpr, Surface.Expr.parts]
    refine (lowers_expr dialect value p outer location).bind_nil fun value names hvalue =>
      lowers_query fun name => lowers_pure ?_
    rw [IR.Expr.occurrences, hvalue, List.append_nil]
  | .tuple items, p, outer, location => by
    rw [lowerExpr, Surface.Expr.parts]
    refine (lowers_exprs dialect items p outer location).map fun items names hitems => ?_
    rw [IR.Expr.occurrences, hitems]
  | .yield value, p, outer, location => by
    rw [lowerExpr, Surface.Expr.parts]
    refine lowers_kindOf (lowers_guarded rfl (fun _ => ⟨rfl, rfl⟩) ?_)
    exact (lowers_option dialect value p outer location).map fun value names hvalue => hvalue
  | .yieldFrom value, p, outer, location => by
    rw [lowerExpr, Surface.Expr.parts]
    refine lowers_kindOf ?_
    have hviolations : (Part.yieldFrom location).violations dialect (scopesOf (p :: outer)) =
        Surface.yieldFromViolations p.scope.kind location := rfl
    unfold Surface.yieldFromViolations at hviolations
    cases hfunction : p.scope.kind.isFunctionLike with
    | false => exact lowers_reject (by rw [hviolations, hfunction]; rfl)
    | true =>
      rw [hfunction] at hviolations
      refine lowers_kindOf ?_
      cases hawait : p.scope.kind.allowsAwait with
      | true => exact lowers_reject (by rw [hviolations, hawait]; rfl)
      | false =>
        refine Lowers.part ?_ (by rw [hviolations, hawait]; rfl) fun _ => ⟨rfl, rfl⟩
        exact (lowers_expr dialect value p outer location).map fun value names hvalue => hvalue
  | .await value, p, outer, location => by
    rw [lowerExpr, Surface.Expr.parts]
    refine lowers_kindOf (lowers_guarded rfl (fun _ => ⟨rfl, rfl⟩) ?_)
    exact (lowers_expr dialect value p outer location).map fun value names hvalue => hvalue
  | .lambda ⟨⟨positional, defaults, star, keywordOnly, keywordDefaults, doubleStar⟩, body, place⟩,
      p, outer, location => by
    rw [lowerExpr, lowerLambda, Surface.Expr.parts, Surface.Lambda.parts]
    exact lowers_lambda (lowers_exprs dialect defaults · · place)
      (lowers_keywordDefaults dialect keywordDefaults · · place)
      (lowers_expr dialect body · · place)

theorem lowers_exprs (dialect : Dialect) : ∀ (es : List Surface.Expr) (p : Place)
    (outer : List Place) (location : Location), Lowers dialect (p :: outer)
      (lowerExprs (.ofDialect dialect) p.code location es) (exprsParts location es)
      fun values names => IR.exprsOccurrences values = names
  | [], p, outer, location => by
    rw [lowerExprs, exprsParts]
    exact lowers_pure rfl
  | first :: rest, p, outer, location => by
    rw [lowerExprs, exprsParts]
    refine (lowers_expr dialect first p outer location).bind fun first names hfirst =>
      (lowers_exprs dialect rest p outer location).map fun rest after hrest => ?_
    rw [IR.exprsOccurrences, hfirst, hrest]

theorem lowers_option (dialect : Dialect) : ∀ (value : Option Surface.Expr) (p : Place)
    (outer : List Place) (location : Location), Lowers dialect (p :: outer)
      (lowerOption (.ofDialect dialect) p.code location value) (optionParts location value)
      fun value names => IR.optionOccurrences value = names
  | none, p, outer, location => by
    rw [lowerOption, optionParts]
    exact lowers_pure rfl
  | some value, p, outer, location => by
    rw [lowerOption, optionParts]
    exact (lowers_expr dialect value p outer location).map fun value names hvalue => hvalue

theorem lowers_keywordDefaults (dialect : Dialect) : ∀ (values : List (Option Surface.Expr))
    (p : Place) (outer : List Place) (location : Location) (named : List Surface.Param)
    (keys : List String), keys.length = named.length → Lowers dialect (p :: outer)
      (lowerKeywordDefaults (.ofDialect dialect) p.code location keys values)
      (keywordParts location named values)
      fun entries names => IR.exprsOccurrences (entries.map Prod.snd) = names
  | [], p, outer, location, named, keys, hlength => by
    cases named <;> cases keys <;> exact lowers_pure rfl
  | none :: rest, p, outer, location, named, keys, hlength => by
    cases named with
    | nil =>
      obtain rfl := List.length_eq_zero_iff.1 hlength
      exact lowers_pure rfl
    | cons param named =>
      cases keys with
      | nil => cases hlength
      | cons key keys =>
        rw [lowerKeywordDefaults, keywordParts, optionParts]
        exact lowers_keywordDefaults dialect rest p outer location named keys
          (Nat.succ.inj hlength)
  | some value :: rest, p, outer, location, named, keys, hlength => by
    cases named with
    | nil =>
      obtain rfl := List.length_eq_zero_iff.1 hlength
      exact lowers_pure rfl
    | cons param named =>
      cases keys with
      | nil => cases hlength
      | cons key keys =>
        rw [lowerKeywordDefaults, keywordParts, optionParts]
        refine (lowers_expr dialect value p outer location).bind fun value names hvalue =>
          (lowers_keywordDefaults dialect rest p outer location named keys
            (Nat.succ.inj hlength)).map fun entries after hentries => ?_
        rw [List.map_cons, IR.exprsOccurrences, hvalue, hentries]

end

/-! ## What the scope around a definition evaluates -/

theorem exprsParts_append (first rest : List Surface.Expr) :
    exprsParts location (first ++ rest) =
      exprsParts location first ++ exprsParts location rest := by
  induction first with
  | nil => rfl
  | cons e es ih => rw [List.cons_append, exprsParts, exprsParts, ih, List.append_assoc]

/-- Decorators are lowered from the last to the first. -/
theorem lowers_reversed (es : List Surface.Expr) : Lowers dialect (p :: outer)
    (lowerExprs (.ofDialect dialect) p.code location es) (exprsParts location es.reverse)
    fun values names => IR.exprsOccurrences values.reverse = names := by
  induction es with
  | nil =>
    rw [lowerExprs]
    exact lowers_pure rfl
  | cons first rest ih =>
    rw [lowerExprs, List.reverse_cons, exprsParts_append, exprsParts, exprsParts, List.append_nil]
    refine (lowers_expr dialect first p outer location).bind_front fun first names hfirst =>
      ih.map fun rest before hrest => ?_
    rw [List.reverse_cons, IR.exprsOccurrences_append, hrest, IR.exprsOccurrences, hfirst,
      IR.exprsOccurrences, List.append_nil]

theorem lowers_decorators (decorators : List Surface.Expr) : Lowers dialect (p :: outer)
    (lowerDecorators (.ofDialect dialect) p.code location decorators)
    (exprsParts location decorators) fun values names =>
      IR.exprsOccurrences values.reverse = names := by
  have h : Lowers dialect (p :: outer) (lowerExprs (.ofDialect dialect) p.code location
      decorators.reverse) _ _ := lowers_reversed decorators.reverse
  rw [List.reverse_reverse] at h
  exact h

/-- The last decorator that is applied is evaluated first. -/
theorem decorate_occurrences (decorators : List IR.Expr) (created : IR.Expr) :
    (decorate decorators created).occurrences =
      IR.exprsOccurrences decorators.reverse ++ created.occurrences := by
  induction decorators generalizing created with
  | nil => rfl
  | cons decorator rest ih =>
    show (decorate rest (.call decorator [created])).occurrences = _
    rw [ih, List.reverse_cons, IR.exprsOccurrences_append, List.append_assoc]
    simp [IR.Expr.occurrences, IR.exprsOccurrences]

/-- Decorators that the runtime applies by itself mention no name. -/
theorem addImplicit_occurrences (dialect : Dialect) (name : String) (scope : ScopeKind)
    (decorators : List IR.Expr) :
    IR.exprsOccurrences (dialect.addImplicit name scope decorators).reverse =
      IR.exprsOccurrences decorators.reverse := by
  unfold Dialect.addImplicit
  generalize dialect.decoratorsFor name scope = added
  induction added generalizing decorators with
  | nil => rfl
  | cons first rest ih =>
    rw [List.foldl_cons, ih]
    unfold addDecorator
    split
    · rfl
    · rw [List.reverse_append]
      rfl

theorem lowers_mapM {α β : Type} {step : α → Lowering β} {parts : α → List Part}
    {view : β → IR.Expr} {items : List α}
    (h : ∀ item ∈ items, Lowers dialect (p :: outer) (step item) (parts item)
      fun value names => (view value).occurrences = names) :
    Lowers dialect (p :: outer) (items.mapM step) (items.flatMap parts)
      fun values names => IR.exprsOccurrences (values.map view) = names := by
  induction items with
  | nil => exact lowers_pure rfl
  | cons item rest ih =>
    rw [List.mapM_cons, List.flatMap_cons]
    refine (h item List.mem_cons_self).bind fun value names hvalue =>
      (ih fun other hother => h other (List.mem_cons_of_mem _ hother)).map
        fun values after hvalues => ?_
    rw [List.map_cons, IR.exprsOccurrences, hvalue, hvalues]

theorem lowers_hint (written : String × Surface.Expr) : Lowers dialect (p :: outer)
    (lowerHint (.ofDialect dialect) p.code location written) (written.2.parts location)
    fun entry names => entry.2.occurrences = names := by
  have hvalue : ∀ key : String, Lowers dialect (p :: outer)
      (do
        let value ← lowerExpr (.ofDialect dialect) p.code location written.2
        return (key, value)) (written.2.parts location)
      fun entry names => entry.2.occurrences = names := fun key =>
    (lowers_expr dialect written.2 p outer location).map fun value names hvalue => hvalue
  unfold lowerHint
  split
  · exact lowers_query hvalue
  · exact hvalue written.1

theorem lowers_annotations (params : Params) (returns : Option Surface.Expr) :
    Lowers dialect (p :: outer)
      (lowerAnnotations (.ofDialect dialect) p.code location params returns)
      (hintParts dialect location params returns)
      fun annotations names => IR.optionOccurrences annotations = names := by
  unfold lowerAnnotations hintParts
  dsimp only
  have hsame : (Setting.ofDialect dialect).dialect.annotations = dialect.annotations := rfl
  by_cases hdialect : dialect.annotations = true
  · rw [if_pos hdialect]
    cases hwritten : annotationsOf params returns with
    | nil =>
      rw [if_pos (by simp)]
      exact lowers_pure rfl
    | cons first rest =>
      rw [if_neg (by simp [hsame, hdialect])]
      refine (lowers_mapM fun written _ => lowers_hint written).map fun entries names hentries => ?_
      rw [IR.optionOccurrences, IR.Expr.occurrences_ofEntries]
      exact hentries
  · rw [if_neg hdialect, if_pos (by simp [hsame, hdialect])]
    exact lowers_pure rfl

end Lowering

end DefinitionLowering
