import DefinitionLowering.Proofs.Translation

/-!
# What lowering definitions and statements does

The scope around a definition evaluates decorators, defaults and annotations, and binds the name;
in between, the scope of the definition is entered.  `lowers_plainDef`, `lowers_asyncDef` and
`lowers_class` put this together, given what the statements inside do, and `lowers_stmts` closes
the recursion.
-/

namespace DefinitionLowering

open IR (BodyId VariableId Store)
open Surface (Header Part Params Region Scope exprsParts optionParts keywordParts hintParts
  defKind partsPlain partsViolations stmtsParts undocumentedParts spellAt
  innerViolations_subset_scope)

namespace Lowering

variable {dialect : Dialect} {p : Place} {outer : List Place} {s s' : Store}

/-! ## The code of a definition -/

section Code

variable {h : Header} {s₀ : Store} {callable : Callable} {shells : List BodyId} {code : BodyId}

/-- The scope of a callable can still be opened when a shell has got its code. -/
theorem Opened.attach {shell : BodyId} {block : IR.Block} (ho : Opened h outer s₀ s code shells)
    (hold : ∀ c ∈ bodiesOf outer, c.index < s₀.bodies.size) (hmem : shell ∈ shells)
    (hcode : (s.body shell).code = none) (hq : block.quiet = true) :
    Ends (attachCode shell block) s
      (fun _ s' => Opened h outer s₀ s' code shells ∧ Store.Grows s₀.bodies.size s s')
      fun _ _ => False := by
  have hs := ho.opening.wellFormed
  have hne : shell ≠ code := fun heq => Nat.lt_irrefl _ (heq ▸
    shells_older hs.ordered ho.opening.place.leads _ hmem)
  refine (attachCode_advances hs ho.opening.around hold
    (ho.advances.new (List.mem_cons_of_mem _ hmem)).1 hcode hq).weaken (fun _ s' => ?_)
    fun _ _ h => h
  rintro ⟨ha, rfl⟩
  let f : IR.Body → IR.Body := fun body => { body with code := some block }
  have hvisible : ∀ c, (s.modifyBody shell f).visible c = s.visible c := fun c =>
    IR.Store.visible_modifyBody fun _ => rfl
  have hfind : ∀ name, (s.modifyBody shell f).find? code name = s.find? code name := fun name =>
    IR.Store.find?_modifyBody fun _ => rfl
  have hsame : (s.modifyBody shell f).body code = s.body code := IR.Store.body_modifyBody_ne hne
  refine ⟨⟨ho.opening.later ha.wellFormed ha.grows ha.settled (fun c _ => hvisible c)
    fun c _ => ?_, fun name v hf => ?_, ?_, ?_⟩, ha.grows⟩
  · exact IR.Store.body_modifyBody_of (P := fun body => body.globals = (s.body c).globals)
      (fun h => h) rfl
  · rw [hfind] at hf
    rw [← ho.sees name v hf]
    exact isParameter_congr (hfind name) (fun _ _ => rfl) (congrArg _ hsame) (congrArg _ hsame)
  · have hboth := ho.advances.trans ha (Nat.le_refl _)
    rw [List.append_nil] at hboth
    exact hboth
  · rw [hsame]
    exact ho.codeless

/-- The body that holds the statements of a plain definition. -/
theorem plainCodeBody_opens {kind : CallableKind}
    (ho : Opened (functionHeader h) outer s₀ s callable.function shells)
    (hold : ∀ c ∈ bodiesOf outer, c.index < s₀.bodies.size) (hkind : h.kind = .callable kind)
    (hcases : kind = .function ∨ kind = .generator) (d : Surface.Def) (flags : Flags) :
    Ends (plainCodeBody callable kind d flags) s
      (fun code s' => Store.Grows s₀.bodies.size s s' ∧ ∃ inner, Opened h outer s₀ s' code inner)
      fun _ _ => False := by
  rcases hcases with rfl | rfl
  · rw [functionHeader_eq hkind] at ho
    exact ⟨Store.Grows.refl _ _, shells, ho⟩
  · show Ends (createObject _ _ _ _ _ >>= _) s _ _
    rw [ends_bind]
    refine (createObject_opens ho rfl hkind rfl d.name flags d.location).weaken
      (fun object s₁ => ?_) fun _ _ h => h
    rintro ⟨ho₁, hcode, hg⟩
    rw [ends_bind]
    refine (ho₁.attach hold List.mem_cons_self hcode rfl).weaken (fun _ s₂ => ?_) fun _ _ h => h
    rintro ⟨ho₂, hg₂⟩
    exact ⟨(hg.mono ho.advances.grows.bodies).trans hg₂ (Nat.le_refl _), _, ho₂⟩

/-- The frame of some statements has their names. -/
theorem lowers_frame {x : Lowering (List IR.Stmt)} {parts : List Part} {places : List Place}
    (hx : Lowers dialect places x parts fun lowered names =>
      IR.stmtsOccurrences lowered = names ∧ IR.allQuiet lowered = true) (code : CodeObject) :
    Lowers dialect places
      (x >>= fun lowered =>
        pure (if lowered.isEmpty then none else some (IR.Block.ofFrame code lowered))) parts
      fun frame names => IR.blockOccurrences frame = names ∧ IR.optionQuiet frame = true := by
  refine hx.map fun lowered names hlowered => ?_
  cases lowered with
  | nil => exact ⟨hlowered.1, rfl⟩
  | cons first rest => exact hlowered

theorem plainCode_occurrences (kind : CallableKind) (frame : Option IR.Block) :
    (plainCode kind frame).occurrences = IR.blockOccurrences frame := by
  unfold plainCode
  split
  · exact IR.Block.occurrences_closeWith rfl frame
  · cases frame <;> rfl

theorem lowers_bindDefinition (name : String) (value : IR.Expr) :
    Lowers dialect (p :: outer) (bindDefinition p.code name value) [.name .bind name]
      fun statement names => statement.occurrences = value.occurrences ++ names :=
  lowers_bindName name value

/-- What keeps stores valid can be said of a step that lowers parts as well. -/
theorem Lowers.and_sound {α : Type} {x : Lowering α} {parts : List Part}
    {Q : α → List Occurrence → Prop} {P : α → Prop} (h : Lowers dialect (p :: outer) x parts Q)
    (hx : ∀ m, Sound m p.code x P) :
    Lowers dialect (p :: outer) x parts fun a names => Q a names ∧ P a := by
  intro s hs hsettled hplain
  have hvalid : Valid s.bodies.size [] s :=
    ⟨hs, Nat.le_refl _, fun b h h' => absurd h' (Nat.not_lt.2 h)⟩
  refine ((h s hs hsettled hplain).and (hx _ _ [] s (Nat.le_refl _) hvalid
    (hsettled.1.created _ p.code_mem))).weaken (fun a s' => ?_) fun _ _ h => h.1
  rintro ⟨⟨names, trees, hQ, hrest⟩, -, -, hP⟩
  exact ⟨names, trees, ⟨hQ, hP⟩, hrest⟩

/-- **The scope of a definition** is entered and its code is attached, whatever comes then. -/
theorem lowers_scope {α : Type} {n : Nat} {statements : List Surface.Stmt} {codeObject : CodeObject}
    {x : Lowering (List IR.Stmt)} {f : Lowering α} {done : α → Store → Prop}
    {parts others : List Part} {finish : Option IR.Block → IR.Block}
    (hfinish : ∀ frame, (finish frame).occurrences = IR.blockOccurrences frame)
    (hquiet : ∀ frame, IR.optionQuiet frame = true → (finish frame).quiet = true)
    (ho : Opening s s outer (placeAt h outer code shells (h.paramNames (scopesOf outer)) []) [])
    (hdeclared : h.declarations = Surface.declarations statements)
    (hmem : .scope ⟨h, parts⟩ ∈ others) (hplain : partsPlain others = true)
    (hkind : h.kind ≠ .moduleBody) (hparams : h.paramViolations dialect (scopesOf outer) = [])
    (hold : ∀ c ∈ bodiesOf outer, c.index < n) (hn : ∀ c ∈ code :: shells, n ≤ c.index)
    (hcode : (s.body code).code = none)
    (hx : Lowers dialect (⟨h.scope (scopesOf outer), code, shells⟩ :: outer) x parts
      fun lowered names => IR.stmtsOccurrences lowered = names ∧ IR.allQuiet lowered = true)
    (hf : ∀ s' trees, Progress dialect n outer s s' (treeBodies trees) [.scope ⟨h, parts⟩] []
        [.node ⟨h.scope (scopesOf outer), code, shells⟩ trees] →
      (∀ c : BodyId, c ≠ code → c.index < s.bodies.size →
        (s'.body c).code = (s.body c).code) →
      Ends f s' done
        fun failure _ => FailsIn (partsViolations dialect (scopesOf outer) others) failure) :
    Ends (lowerFrameWith code statements codeObject x >>= fun frame =>
        attachCode code (finish frame) >>= fun _ => f) s done
      fun failure _ => FailsIn (partsViolations dialect (scopesOf outer) others) failure := by
  rw [ends_bind]
  refine (enter_spec hdeclared (partsPlain_iff.1 hplain _ hmem) hkind ho hn
    (lowers_frame hx codeObject)).weaken (fun frame s₁ => ?_) fun _ _ hfail => hfail.mono ?_
  · rintro ⟨names, trees, ⟨hnames, hq⟩, he⟩
    rw [ends_bind]
    refine (he.close hparams hold (hn code List.mem_cons_self)
      (ho.place.created code List.mem_cons_self) hcode ((hfinish frame).trans hnames)
      (hquiet frame hq)).weaken (fun _ s₂ hclosed => ?_) fun _ _ h => h.elim
    exact hf s₂ trees hclosed.1 hclosed.2
  · exact List.Subset.trans (innerViolations_subset_scope dialect _ h parts)
      (violations_subset_of_mem hmem)

end Code

/-! ## Definitions -/

section Definitions

variable {lowerBody : BodyId → Lowering (List IR.Stmt)}

/-- The header of a definition. -/
abbrev defHeader (d : Surface.Def) : Header where
  kind := .callable (defKind (Surface.undocumented d.body) d.isAsync)
  name := d.name
  params := some d.params
  declarations := Surface.declarations (Surface.undocumented d.body)
  location := d.location

/-- The scope of a definition. -/
abbrev defRegion (dialect : Dialect) (d : Surface.Def) : Region :=
  ⟨defHeader d, undocumentedParts dialect d.body⟩

/-- What the scope around a definition evaluates. -/
abbrev defParts (dialect : Dialect) (d : Surface.Def) : List Part :=
  exprsParts d.location d.decorators ++ exprsParts d.location d.params.defaults ++
    keywordParts d.location d.params.keywordOnly d.params.keywordDefaults ++
    hintParts dialect d.location d.params d.returns ++
    [.scope (defRegion dialect d), .name .bind d.name]

/-- The statements of a body are lowered wherever it stands. -/
def LowersStatements (dialect : Dialect) (lowerBody : BodyId → Lowering (List IR.Stmt))
    (parts : List Part) : Prop :=
  ∀ p outer, Lowers dialect (p :: outer) (lowerBody p.code) parts fun lowered names =>
    IR.stmtsOccurrences lowered = names ∧ IR.allQuiet lowered = true

/-- The decorators of a definition come first, and then the defaults, or the bases of a class. -/
theorem lowers_front {α : Type} {location : Location} {decorators es : List Surface.Expr}
    {others : List Part} {f : List IR.Expr → List IR.Expr → Lowering α} {done : α → Store → Prop}
    (hs : s.WellFormed) (hsettled : AllSettled s (p :: outer)) (hplain : partsPlain others = true)
    (hdecorators : exprsParts location decorators ⊆ others) (hes : exprsParts location es ⊆ others)
    (hf : ∀ values more s' names trees,
      IR.exprsOccurrences values.reverse ++ IR.exprsOccurrences more = names →
      Progress dialect s.bodies.size (p :: outer) s s' (treeBodies trees)
        (exprsParts location decorators ++ exprsParts location es) names trees →
      Ends (f values more) s' done
        fun failure _ => FailsIn (partsViolations dialect (scopesOf (p :: outer)) others) failure) :
    Ends (lowerDecorators (.ofDialect dialect) p.code location decorators >>= fun values =>
        lowerExprs (.ofDialect dialect) p.code location es >>= f values) s done
      fun failure _ => FailsIn (partsViolations dialect (scopesOf (p :: outer)) others) failure := by
  refine (lowers_decorators decorators s hs hsettled).step hdecorators hplain
    fun values s₁ names₁ trees₁ hnames₁ h₁ => ?_
  refine (lowers_exprs dialect es p outer location s₁ h₁.advances.wellFormed
    h₁.advances.settled).step hes hplain fun more s₂ names₂ trees₂ hnames₂ h₂ => ?_
  have hfront := h₁.append h₂ h₁.le
  rw [← treeBodies_append] at hfront
  exact hf values more s₂ _ _ (by rw [hnames₁, hnames₂]) hfront

/-- A definition is bound last, when everything else has been lowered. -/
theorem lowers_bound {s₁ : Store} {name : String} {value : IR.Expr} {bodies : List BodyId}
    {parts others : List Part} {names : List Occurrence} {trees : List PlaceTree}
    (h : Progress dialect s.bodies.size (p :: outer) s s₁ bodies parts names trees)
    (hplain : partsPlain others = true) (hparts : parts ++ [.name .bind name] = others)
    (hvalue : value.occurrences = names) (hbodies : bodies.Perm (treeBodies trees)) :
    Ends (bindDefinition p.code name value) s₁
      (fun statement s' => ∃ names trees, statement.occurrences = names ∧
        Advances s.bodies.size (p :: outer) s s' (treeBodies trees) ∧
        Renders dialect s' (p :: outer) others names trees)
      fun failure _ => FailsIn (partsViolations dialect (scopesOf (p :: outer)) others) failure := by
  subst hparts
  refine LowersFrom.last (lowers_bindDefinition name value s₁ h.advances.wellFormed
    h.advances.settled) (List.subset_append_right _ _) hplain
    fun statement s' names' trees' hstatement h' => ?_
  have hdone := h.append h' h.le
  refine ⟨names ++ names', trees ++ trees', by rw [hstatement, hvalue],
    hdone.advances.reorder ?_, hdone.renders⟩
  rw [treeBodies_append]
  exact hbodies.append_right _

/-- **Plain definitions**, given what their statements do. -/
theorem lowers_plainDef (d : Surface.Def) (hasync : d.isAsync = false)
    (hbody : LowersStatements dialect lowerBody (undocumentedParts dialect d.body)) :
    Lowers dialect (p :: outer) (lowerPlainDefWith (.ofDialect dialect) p.code d lowerBody)
      (defParts dialect d) fun statement names => statement.occurrences = names := by
  intro s hs hsettled hplain
  let h := defHeader d
  have hold := hsettled.created
  have hmem : Part.scope (defRegion dialect d) ∈ defParts dialect d := by simp
  let kind := (Surface.Classifier.suspension (Surface.undocumented d.body) .function).1
  have hkind : h.kind = .callable kind := by
    show BodyKind.callable (defKind _ _) = _
    rw [hasync]
    rfl
  unfold lowerPlainDefWith
  dsimp only
  refine buildCallable_step (h := h) hs hsettled rfl hmem
    fun callable s₁ shells ho₁ houter hlength hparams => ?_
  rw [ends_bind]
  refine (plainCodeBody_opens ho₁ hold hkind (Surface.suspension_function _) d _).weaken
    (fun code s₂ => ?_) fun _ _ h => h.elim
  rintro ⟨hg₂, inner, ho₂⟩
  have hcallable := ho₁.opening.place.created
  -- what the scope around evaluates before the statements
  refine lowers_front ho₂.advances.wellFormed ho₂.advances.settled hplain
    (fun part hpart => by simp [hpart]) (fun part hpart => by simp [hpart])
    fun decorators defaults s₄ names₄ trees₄ hnames₄ hfront => ?_
  have hlength₄ : (keywordOnlyNames s₄ callable.outer).length = d.params.keywordOnly.length := by
    have hg := hg₂.trans (hfront.advances.grows.mono ho₂.advances.grows.bodies) (Nat.le_refl _)
    rw [keywordOnlyNames_grows hg (hcallable _ houter), hlength]
  refine (lowersFrom_keywordMapping hfront.advances.wellFormed hfront.advances.settled hlength₄
    (lowers_keywordDefaults dialect d.params.keywordDefaults p outer d.location _)).step
    (fun part hpart => by simp [hpart]) hplain
    fun keywordDefaults s₅ names₅ trees₅ hnames₅ h₅ => ?_
  have hshare := hfront.append h₅ hfront.le
  -- the scope itself
  obtain ⟨hopening, hcodes⟩ := ho₂.wait hold hshare.advances
  have hn := fun c hc => (ho₂.advances.new (c := c) hc).1
  refine lowers_scope (plainCode_occurrences kind) (fun _ => quiet_plainCode kind)
    hopening rfl hmem hplain BodyKind.noConfusion hparams hold hn
    ((hcodes _ (ho₂.opening.place.created _ List.mem_cons_self)).trans ho₂.codeless)
    (hbody _ _) fun s₇ trees hscope _ => ?_
  -- what comes behind
  refine (lowers_annotations d.params d.returns s₇ hscope.advances.wellFormed
    hscope.advances.settled).step (fun part hpart => by simp [hpart]) hplain
    fun annotations s₈ names₈ trees₈ hnames₈ h₈ => ?_
  rw [ends_bind, ends_kindOf]
  have hbuilt := (Progress.bare ho₂.advances).append hshare ho₂.advances.grows.bodies
  have hinner := hscope.append_front h₈ (Nat.le_trans hbuilt.le hscope.le)
  refine lowers_bound (hbuilt.append hinner (Nat.le_refl _)) hplain (by simp [h]) ?_
    (List.perm_iff_count.2 fun c => ?_)
  · rw [decorate_occurrences, addImplicit_occurrences, creation, IR.Expr.occurrences, hnames₅,
      hnames₈, ← hnames₄]
    simp only [List.append_assoc, List.nil_append, List.append_nil]
  · simp only [List.nil_append, treeBodies_append, treeBodies_node, Place.bodies, List.count_append]
    omega

/-- The function gets its code and the object's nonlocal declarations. -/
theorem attachFunction_advances {n : Nat} {places : List Place} {function : BodyId}
    {block : IR.Block} (object : BodyId) (hs : s.WellFormed) (hsettled : AllSettled s places)
    (hold : ∀ c ∈ bodiesOf places, c.index < n) (hn : n ≤ function.index)
    (hcode : (s.body function).code = none) (hq : block.quiet = true) :
    Ends (attachCode function block >>= fun _ =>
        modify fun s => s.copyNonlocals object function) s
      (fun _ s' => Advances n places s s' []) fun _ _ => False := by
  rw [ends_bind]
  refine (attachCode_advances hs hsettled hold hn hcode hq).weaken (fun _ s₁ => ?_) fun _ _ h => h
  rintro ⟨ha, -⟩
  refine ends_modify.2 (ha.trans (.of_visible ha.wellFormed ha.settled ha.wellFormed.copyNonlocals
    (Store.Grows.copyNonlocals hn) hold (fun c => ?_) ?_) (Nat.le_refl _))
  · exact IR.Store.visible_modifyBody fun _ => rfl
  · exact IR.Store.size_bodies_modifyBody _ _ _

/-- **Asynchronous definitions**, given what their statements do. -/
theorem lowers_asyncDef (d : Surface.Def) (hasync : d.isAsync = true)
    (hbody : LowersStatements dialect lowerBody (undocumentedParts dialect d.body)) :
    Lowers dialect (p :: outer) (lowerAsyncDefWith (.ofDialect dialect) p.code d lowerBody)
      (defParts dialect d) fun statement names => statement.occurrences = names := by
  intro s hs hsettled hplain
  let h := defHeader d
  have hold := hsettled.created
  have hmem : Part.scope (defRegion dialect d) ∈ defParts dialect d := by simp
  obtain ⟨objectKind, hsuspended, hobject⟩ :=
    suspension_coroutine (Surface.undocumented d.body)
  have hkind : h.kind = .callable (.suspended objectKind) := by
    show BodyKind.callable (defKind _ _) = _
    rw [hasync, ← hsuspended]
    rfl
  unfold lowerAsyncDefWith
  dsimp only
  rw [show asyncObject? ((Setting.ofDialect dialect).classify (Surface.undocumented d.body)
    .coroutine).1 = some objectKind from hobject]
  dsimp only
  refine buildCallable_step (h := h) hs hsettled rfl hmem
    fun callable s₁ shells ho₁ houter hlength hparams => ?_
  rw [ends_bind]
  refine (createObject_opens ho₁ rfl hkind rfl d.name _ d.location).weaken
    (fun object s₂ => ?_) fun _ _ h => h.elim
  rintro ⟨ho₂, hfunction₂, hg₂⟩
  have hcallable := ho₁.opening.place.created
  have hn := fun c hc => (ho₂.advances.new (c := c) hc).1
  have hlt := ho₂.opening.place.created
  -- what the scope around evaluates before the statements
  refine lowers_front ho₂.advances.wellFormed ho₂.advances.settled hplain
    (fun part hpart => by simp [hpart]) (fun part hpart => by simp [hpart])
    fun decorators defaults s₄ names₄ trees₄ hnames₄ hfront => ?_
  -- the scope itself
  obtain ⟨hopening, hcodes⟩ := ho₂.wait hold hfront.advances
  have hfinish : ∀ frame, (IR.Block.closeWith .objectRetNone frame).occurrences =
      IR.blockOccurrences frame := IR.Block.occurrences_closeWith rfl
  have hquiet : ∀ frame, IR.optionQuiet frame = true →
      (IR.Block.closeWith .objectRetNone frame).quiet = true := fun _ => quiet_closeWith rfl
  refine lowers_scope hfinish hquiet hopening rfl hmem hplain BodyKind.noConfusion hparams hold hn
    ((hcodes _ (hlt _ List.mem_cons_self)).trans ho₂.codeless) (hbody _ _)
    fun s₆ trees hscope hcodes₆ => ?_
  -- what it evaluates behind them
  refine (lowers_annotations d.params d.returns s₆ hscope.advances.wellFormed
    hscope.advances.settled).step (fun part hpart => by simp [hpart]) hplain
    fun annotations s₇ names₇ trees₇ hnames₇ h₇ => ?_
  have hbuilt := (Progress.bare ho₂.advances).append hfront ho₂.advances.grows.bodies
  have hle₆ := Nat.le_trans hbuilt.le hscope.le
  have hlength₇ : (keywordOnlyNames s₇ callable.outer).length = d.params.keywordOnly.length := by
    have hg₄ := (hg₂.mono ho₁.advances.grows.bodies).trans
      (hfront.advances.grows.mono ho₂.advances.grows.bodies) (Nat.le_refl _)
    have hg₇ := hg₄.trans (hscope.append h₇ hle₆).advances.grows (Nat.le_refl _)
    rw [keywordOnlyNames_grows hg₇ (hcallable _ houter), hlength]
  refine (lowersFrom_keywordMapping h₇.advances.wellFormed h₇.advances.settled hlength₇
    (lowers_keywordDefaults dialect d.params.keywordDefaults p outer d.location _)).step
    (fun part hpart => by simp [hpart]) hplain
    fun keywordDefaults s₈ names₈ trees₈ hnames₈ h₈ => ?_
  have hback := h₇.append_front h₈ h₇.le
  -- nobody has given the function code in the meantime
  have hinner : callable.function ∈ callable.function :: shells := List.mem_cons_self
  have hlt₂ := hlt _ (List.mem_cons_of_mem _ hinner)
  have hlt₄ := Nat.lt_of_lt_of_le hlt₂ hfront.le
  have hne : callable.function ≠ object := fun heq => Nat.lt_irrefl _ (heq ▸
    shells_older ho₂.advances.wellFormed.ordered ho₂.opening.place.leads _ hinner)
  have hfunction₈ : (s₈.body callable.function).code = none := by
    rw [hback.advances.grows.code_eq (Nat.lt_of_lt_of_le hlt₄ hscope.le), hcodes₆ _ hne hlt₄,
      hcodes _ hlt₂, hfunction₂]
  rw [ends_bind]
  refine (ends_bind.1 (attachFunction_advances object h₈.advances.wellFormed h₈.advances.settled
    hold (hn _ (List.mem_cons_of_mem _ hinner)) hfunction₈ rfl)).weaken (fun _ s₉ hcopy => ?_)
    fun _ _ h => h.elim
  rw [ends_bind]
  refine hcopy.weaken (fun _ s₁₀ ha₁₀ => ?_) fun _ _ h => h.elim
  have hattached := (hscope.append_front hback hle₆).later ha₁₀ (Nat.le_refl _)
  refine lowers_bound (hbuilt.append hattached (Nat.le_refl _)) hplain (by simp [h]) ?_
    (List.perm_iff_count.2 fun c => ?_)
  · rw [decorate_occurrences, creation, IR.Expr.occurrences, hnames₈, hnames₇, ← hnames₄]
    simp only [List.append_assoc, List.nil_append, List.append_nil]
  · simp only [List.nil_append, treeBodies_append, treeBodies_node, Place.bodies, List.count_append]
    omega

theorem lowers_def (d : Surface.Def)
    (hbody : LowersStatements dialect lowerBody (undocumentedParts dialect d.body)) :
    Lowers dialect (p :: outer) (lowerDefWith (.ofDialect dialect) p.code d lowerBody)
      (defParts dialect d) fun statement names => statement.occurrences = names := by
  unfold lowerDefWith
  cases hasync : d.isAsync with
  | false => exact lowers_plainDef d hasync hbody
  | true => exact lowers_asyncDef d hasync hbody

/-! ## Classes -/

/-- The header of a class. -/
abbrev classHeader (d : Surface.ClassDef) : Header where
  kind := .classBody
  name := d.name
  params := none
  declarations := Surface.declarations (Surface.undocumented d.body)
  location := d.location

/-- What is settled about the body of a class. -/
abbrev classPlan (provider : BodyId) (d : Surface.ClassDef) : IR.BodyPlan where
  kind := .classBody
  name := d.name
  location := d.location
  provider := some provider
  doc := Surface.docstring? d.body

/-- The scope of a new class can be opened. -/
theorem opened_class (hs : s.WellFormed) (hsettled : AllSettled s (p :: outer))
    (d : Surface.ClassDef) :
    Opened (classHeader d) (p :: outer) s (s.createBody (classPlan p.code d)).2 ⟨s.bodies.size⟩
      [] := by
  have hwf : (s.createBody (classPlan p.code d)).2.WellFormed := hs.createBody
    (fun q hq => by cases hq; exact hsettled.created _ (List.mem_append_left _ p.code_mem))
    (by simp) (by simp) List.nodup_nil
  exact opened_createBody hs hsettled hwf rfl (fun _ => rfl) rfl (by simp) rfl fun _ => Iff.rfl

/-- **Classes**, given what their statements do. -/
theorem lowers_class (d : Surface.ClassDef)
    (hbody : LowersStatements dialect lowerBody (undocumentedParts dialect d.body)) :
    Lowers dialect (p :: outer) (lowerClassDefWith (.ofDialect dialect) p.code d lowerBody)
      (exprsParts d.location d.decorators ++ exprsParts d.location d.bases ++
        [.scope ⟨classHeader d, undocumentedParts dialect d.body⟩, .name .bind d.name])
      fun statement names => statement.occurrences = names := by
  intro s hs hsettled hplain
  let h := classHeader d
  let region : Region := ⟨h, undocumentedParts dialect d.body⟩
  have hold := hsettled.created
  have hmem : Part.scope region ∈ exprsParts d.location d.decorators ++
    exprsParts d.location d.bases ++ [.scope region, .name .bind d.name] := by simp
  unfold lowerClassDefWith
  refine lowers_front hs hsettled hplain (fun part hpart => by simp [hpart])
    (fun part hpart => by simp [hpart]) fun decorators bases s₂ names₂ trees₂ hnames₂ hfront => ?_
  rw [ends_bind]
  have ho := opened_class hfront.advances.wellFormed hfront.advances.settled d
  rw [createBody, ends_operate, ends_bind]
  have hentered := enter_spec rfl (partsPlain_iff.1 hplain _ hmem) BodyKind.noConfusion ho.opening
    (fun c hc => Nat.le_trans hfront.le (ho.advances.new hc).1)
    (hbody ⟨_, ⟨s₂.bodies.size⟩, []⟩ _)
  have hviolations := List.Subset.trans
    (innerViolations_subset_scope dialect (scopesOf (p :: outer)) h region.parts)
    (violations_subset_of_mem hmem)
  refine (ends_bind.1 hentered).weaken (fun _ s₃ hlowered => ?_) fun _ _ hf => hf.mono hviolations
  rw [ends_bind]
  refine hlowered.weaken (fun lowered s₄ => ?_) fun _ _ hf => hf.mono hviolations
  rintro ⟨names₄, trees, ⟨hnames₄, hq⟩, he⟩
  rw [ends_bind]
  have hblock : (IR.Block.ofStatements lowered).occurrences = names₄ := hnames₄
  refine (he.close rfl hold hfront.le (ho.opening.place.created _ List.mem_cons_self) ho.codeless
    hblock hq).weaken (fun _ s₅ => ?_) fun _ _ h => h.elim
  rintro ⟨hclosed, -⟩
  have hbuilt := hfront.append (.bare ho.advances) hfront.le
  refine lowers_bound (hbuilt.append hclosed (Nat.le_refl _)) hplain (by simp [h]) ?_
    (List.perm_iff_count.2 fun c => ?_)
  · rw [decorate_occurrences, IR.Expr.occurrences, ← hnames₂]
    simp only [List.append_nil]
  · simp only [List.append_nil, treeBodies_append, treeBodies_node, Place.bodies, List.count_append]
    omega

end Definitions

/-! ## Statements -/

/-- **A `return`** where the innermost scope allows it. -/
theorem lowers_checkReturn {α : Type} {x : Lowering α} {parts : List Part}
    {Q : α → List Occurrence → Prop} (hasValue : Bool) (location : Location)
    (hx : Lowers dialect (p :: outer) x parts Q) :
    Lowers dialect (p :: outer) (checkReturn p.code location hasValue >>= fun _ => x)
      (.ret hasValue location :: parts) Q := by
  have hviolations : (Part.ret hasValue location).violations dialect (scopesOf (p :: outer)) =
      Surface.returnViolations p.scope.kind hasValue location := rfl
  unfold checkReturn
  rw [bind_assoc]
  refine lowers_kindOf ?_
  have hallowed : Surface.returnViolations p.scope.kind hasValue location = [] →
      Lowers dialect (p :: outer) x (.ret hasValue location :: parts) Q := fun hnone =>
    hx.part (hviolations.trans hnone) fun _ => ⟨rfl, rfl⟩
  cases hkind : p.scope.kind with
  | moduleBody => exact lowers_reject (by rw [hviolations, hkind]; rfl)
  | classBody => exact lowers_reject (by rw [hviolations, hkind]; rfl)
  | callable kind =>
    rw [hkind] at hallowed hviolations
    cases kind with
    | function => exact hallowed rfl
    | suspended object =>
      cases object with
      | generator => exact hallowed rfl
      | coroutine => exact hallowed rfl
      | asyncGenerator =>
        cases hasValue with
        | true => exact lowers_reject hviolations
        | false => exact hallowed rfl

theorem returnStmt_occurrences (kind : BodyKind) (value : Option IR.Expr) :
    (returnStmt kind value).occurrences = IR.optionOccurrences value := by
  unfold returnStmt
  split <;> rfl

mutual

theorem lowers_stmt (dialect : Dialect) : ∀ (statement : Surface.Stmt) (p : Place)
    (outer : List Place), Lowers dialect (p :: outer)
      (lowerStmt (.ofDialect dialect) p.code statement) (statement.parts dialect)
      fun lowered names => IR.stmtsOccurrences lowered.toList = names
  | ⟨kind, location⟩, p, outer => by
    rw [lowerStmt, Surface.Stmt.parts]
    exact lowers_kind dialect kind p outer location

/-- **Statements**, each after what it evaluates. -/
theorem lowers_kind (dialect : Dialect) : ∀ (kind : Surface.StmtKind) (p : Place)
    (outer : List Place) (location : Location), Lowers dialect (p :: outer)
      (lowerKind (.ofDialect dialect) p.code location kind) (kind.parts dialect location)
      fun lowered names => IR.stmtsOccurrences lowered.toList = names
  | .expr value, p, outer, location => by
    rw [lowerKind, Surface.StmtKind.parts]
    refine (lowers_expr dialect value p outer location).map fun value names hvalue => ?_
    exact (List.append_nil _).trans hvalue
  | .assign target value, p, outer, location => by
    rw [lowerKind, Surface.StmtKind.parts]
    refine (lowers_expr dialect value p outer location).bind fun source names hsource => ?_
    have hbind := (lowers_bindName target source :
      Lowers dialect (p :: outer) _ _ _).map (g := some)
      (R := fun lowered after => IR.stmtsOccurrences lowered.toList = names ++ after)
      fun statement after hstatement => by
        rw [Option.toList_some, IR.stmtsOccurrences, hstatement, hsource]
        exact List.append_nil _
    simpa only [bind_assoc] using hbind
  | .pass, p, outer, location => by
    rw [lowerKind, Surface.StmtKind.parts]
    exact lowers_pure rfl
  | .global _, p, outer, location => by
    rw [lowerKind, Surface.StmtKind.parts]
    exact lowers_pure rfl
  | .nonlocal _, p, outer, location => by
    rw [lowerKind, Surface.StmtKind.parts]
    exact lowers_pure rfl
  | .ret value, p, outer, location => by
    rw [lowerKind, Surface.StmtKind.parts]
    refine lowers_checkReturn value.isSome location
      ((lowers_option dialect value p outer location).bind_nil fun value names hvalue =>
        lowers_kindOf (lowers_pure ?_))
    rw [Option.toList_some, IR.stmtsOccurrences, returnStmt_occurrences, hvalue]
    rfl
  | .raise value, p, outer, location => by
    rw [lowerKind, Surface.StmtKind.parts]
    refine (lowers_option dialect value p outer location).map fun value names hvalue => ?_
    exact (List.append_nil _).trans hvalue
  | .branch test body orelse, p, outer, location => by
    rw [lowerKind, Surface.StmtKind.parts, List.append_assoc]
    refine (lowers_expr dialect test p outer location).bind fun condition names hcondition =>
      (lowers_stmts dialect body p outer).bind fun yes names₁ hyes =>
        (lowers_stmts dialect orelse p outer).map fun no names₂ hno => ?_
    rw [Option.toList_some, IR.stmtsOccurrences, IR.Stmt.occurrences,
      IR.blockOccurrences_ofNonempty, IR.blockOccurrences_ofNonempty, hcondition, hyes, hno,
      IR.stmtsOccurrences, List.append_nil, List.append_assoc]
  | .loop test body, p, outer, location => by
    rw [lowerKind, Surface.StmtKind.parts]
    refine (lowers_expr dialect test p outer location).bind fun condition names hcondition =>
      (lowers_stmts dialect body p outer).map fun body after hbody => ?_
    rw [Option.toList_some, IR.stmtsOccurrences, IR.Stmt.occurrences,
      IR.blockOccurrences_ofNonempty, hcondition, hbody, IR.stmtsOccurrences, List.append_nil]
  | .define ⟨name, params, body, decorators, returns, isAsync, place⟩, p, outer, location => by
    rw [lowerKind, lowerDef, Surface.StmtKind.parts, Surface.Def.parts]
    refine (lowers_def ⟨name, params, body, decorators, returns, isAsync, place⟩
      (lowers_undocumented dialect body)).map fun statement names hstatement => ?_
    exact (List.append_nil _).trans hstatement
  | .defineClass ⟨name, bases, body, decorators, place⟩, p, outer, location => by
    rw [lowerKind, lowerClassDef, Surface.StmtKind.parts, Surface.ClassDef.parts]
    refine (lowers_class ⟨name, bases, body, decorators, place⟩
      (lowers_undocumented dialect body)).map fun statement names hstatement => ?_
    exact (List.append_nil _).trans hstatement

theorem lowers_stmts (dialect : Dialect) : ∀ (statements : List Surface.Stmt) (p : Place)
    (outer : List Place), Lowers dialect (p :: outer)
      (lowerStmts (.ofDialect dialect) p.code statements) (stmtsParts dialect statements)
      fun lowered names => IR.stmtsOccurrences lowered = names
  | [], p, outer => by
    rw [lowerStmts, stmtsParts]
    exact lowers_pure rfl
  | first :: rest, p, outer => by
    rw [lowerStmts, stmtsParts]
    refine (lowers_stmt dialect first p outer).bind fun first names hfirst =>
      (lowers_stmts dialect rest p outer).map fun rest after hrest => ?_
    rw [IR.stmtsOccurrences_append, hfirst, hrest]

/-- The statements of a body, which have quiet code as well. -/
theorem lowers_undocumented (dialect : Dialect) : ∀ (statements : List Surface.Stmt),
    LowersStatements dialect (fun b => lowerUndocumented (.ofDialect dialect) b statements)
      (undocumentedParts dialect statements)
  | [], p, outer => by
    show Lowers _ _ (lowerUndocumented _ p.code []) _ _
    rw [lowerUndocumented, undocumentedParts]
    exact lowers_pure ⟨rfl, rfl⟩
  | first :: rest, p, outer => by
    refine Lowers.and_sound ?_ fun m => sound_lowerUndocumented _ (first :: rest) m p.code
    show Lowers _ _ (lowerUndocumented _ p.code (first :: rest)) _ _
    rw [lowerUndocumented, undocumentedParts]
    split
    · exact lowers_stmts dialect rest p outer
    · refine (lowers_stmt dialect first p outer).bind fun first names hfirst =>
        (lowers_stmts dialect rest p outer).map fun rest after hrest => ?_
      rw [IR.stmtsOccurrences_append, hfirst, hrest]

end

end Lowering

end DefinitionLowering
