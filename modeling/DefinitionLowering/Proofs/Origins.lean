import DefinitionLowering.Proofs.Declaring
import DefinitionLowering.Proofs.Passes

/-!
# Where bodies come from

`CallableAt` says what holds of a lambda or a definition in any store after it was lowered: its
bodies, the object that it manufactures, and the code of the body with its statements, in terms
of what these gave.  `ClassAt` says the same of a class.  `gave_lowerLambda`, `gave_lowerDef` and
`gave_lowerClassDef` take a lowered definition apart: its bodies and the expressions that the
scope around it evaluates.

`originates` is about the other direction: every body that a lowering creates is one of a
callable or of a class (`Origin`).
-/

namespace DefinitionLowering

open IR (BodyId VariableId Store)

namespace Lowering

variable {setting : Setting} {b c : BodyId} {n : Nat} {s s' t : Store} {made : Callable}
  {object : Option BodyId} {callee : Callee}

/-! ## Callables and classes in later stores -/

/-- What is settled about the body of an object. -/
def objectPlan (made : Callable) (kind : ObjectKind) (name : String) (flags : Flags)
    (location : Location) : IR.BodyPlan where
  kind := .callable (.suspended kind)
  name := name
  location := location
  provider := some made.function
  flags := flags

/-- A callable manufactures an object. -/
structure ObjectAt (setting : Setting) (t : Store) (callee : Callee) (made : Callable)
    (kind : ObjectKind) (object : BodyId) : Prop where
  planned : Planned t object
    (objectPlan made kind callee.name (callee.flags setting) callee.location)
  maker : (t.body made.function).code = some (manufacture made kind object)

/-- The body that holds the statements of a callable. -/
def codeBody (made : Callable) (object : Option BodyId) : BodyId :=
  object.getD made.function

/-- The code of a callable's statements. -/
inductive CodeOf (setting : Setting) (t : Store) (made : Callable) (object : Option BodyId) :
    Callee → IR.Block → Prop
  | lambda {l : Surface.Lambda} (value : IR.Expr)
    (hvalue : Gave t (codeBody made object)
      (lowerExpr setting (codeBody made object) l.location l.body) value) :
    CodeOf setting t made object (.lambda l) (.ofFrame made.code (lambdaStatements object value))
  | define {d : Surface.Def} (lowered : List IR.Stmt)
    (hbody : Gave t (codeBody made object)
      (lowerStmts setting (codeBody made object) (Surface.undocumented d.body)) lowered) :
    CodeOf setting t made object (.define d)
      (definitionCode d.isAsync ((Callee.define d).kind setting) made.code lowered)

/-- What holds of a callable after it was lowered. -/
structure CallableAt (setting : Setting) (t : Store) (callee : Callee) (provider : BodyId)
    (made : Callable) (object : Option BodyId) : Prop where
  stands : Stands t provider callee.name callee.doc (callee.functionFlags setting) callee.params
    callee.location made
  manufactured : Option.Rel (ObjectAt setting t callee made) (callee.object? setting) object
  code : ∃ block, (t.body (codeBody made object)).code = some block ∧
    CodeOf setting t made object callee block
  described : ∃ info, t.moduleInfo provider = .ok info ∧ made.code =
    .ofSignature (callee.kind setting)
      (callee.params.rawSignature (t.spell provider) callee.name) info callee.location.line
  /-- A definition manufactures the object that its kind is about. -/
  fits : ∀ d, callee = .define d → callee.object? setting = (callee.kind setting).object?

/-- What holds of a class after it was lowered. -/
structure ClassAt (setting : Setting) (t : Store) (d : Surface.ClassDef) (provider c : BodyId) :
    Prop where
  planned : Planned t c (classPlan provider d)
  code : ∃ lowered, Gave t c (lowerStmts setting c (Surface.undocumented d.body)) lowered ∧
    (t.body c).code = some (.ofStatements lowered)

/-- The keyword-only parameters of a list, as they are spelled in a scope. -/
def keywordOnlyIn (t : Store) (b : BodyId) (params : Surface.Params) : List String :=
  params.keywordOnly.map fun param => t.spell b param.name

/-- The mapping of keyword-only parameters to defaults, absent when there are no such
parameters. -/
inductive KeywordsGave (setting : Setting) (t : Store) (b : BodyId) (location : Location)
    (params : Surface.Params) : Option IR.Expr → Prop
  | absent (hnone : params.keywordOnly = []) : KeywordsGave setting t b location params none
  | mapping (entries : List (String × IR.Expr))
    (hentries : Gave t b (lowerKeywordDefaults setting b location (keywordOnlyIn t b params)
      params.keywordDefaults) entries) :
    KeywordsGave setting t b location params (some (.ofEntries entries))

/-- The annotations of a callable: a lambda never has any. -/
def AnnotationsGave (setting : Setting) (t : Store) (b : BodyId) (annotations : Option IR.Expr) :
    Callee → Prop
  | .lambda _ => annotations = none
  | .define d => Gave t b (lowerAnnotations setting b d.location d.params d.returns) annotations

/-- The expression that creates a callable, and what the scope around it evaluates. -/
inductive Created (setting : Setting) (t : Store) (b : BodyId) (callee : Callee) : IR.Expr → Prop
  | intro (made : Callable) (object : Option BodyId) (defaults : List IR.Expr)
    (keywords annotations : Option IR.Expr)
    (hcallable : CallableAt setting t callee b made object)
    (hdefaults : Gave t b (lowerExprs setting b callee.location callee.params.defaults) defaults)
    (hkeywords : KeywordsGave setting t b callee.location callee.params keywords)
    (hannotations : AnnotationsGave setting t b annotations callee) :
    Created setting t b callee (creation made defaults keywords annotations)

/-- The decorators that are applied to a definition: an asynchronous one gets none by itself. -/
def appliedDecorators (dialect : Dialect) (scope : ScopeKind) (d : Surface.Def)
    (decorators : List IR.Expr) : List IR.Expr :=
  if d.isAsync then decorators else dialect.addImplicit d.name scope decorators

/-! ## The parts of a lowering -/

theorem Ran.later {α : Type} {x : Lowering α} {a : α} (h : Ran n x s a s')
    (ht : Store.Grows 0 s' t) : Store.Grows 0 s t :=
  (h.grows.mono (Nat.zero_le n)).trans ht (Nat.le_refl 0)

/-- The mapping of keyword-only defaults is absent when there are no such parameters. -/
theorem lowerKeywordMapping_ok {params : Surface.Params} {holder : BodyId} {location : Location}
    {o : Option IR.Expr} (h : lowerKeywordMapping setting b holder location params s = .ok o s') :
    (keywordOnlyNames s holder = [] ∧ o = none ∧ s' = s) ∨
      ∃ entries, o = some (.ofEntries entries) ∧ lowerKeywordDefaults setting b location
        (keywordOnlyNames s holder) params.keywordDefaults s = .ok entries s' := by
  unfold lowerKeywordMapping keywordMapping at h
  obtain ⟨names, s₁, h₁, h₂⟩ := bind_eq_ok h
  obtain ⟨hnames, rfl⟩ := query_eq_ok h₁
  cases names with
  | nil =>
    cases h₂
    exact Or.inl ⟨hnames.symm, rfl, rfl⟩
  | cons name rest =>
    obtain ⟨entries, s₂, h₃, h₄⟩ := bind_eq_ok h₂
    cases h₄
    exact Or.inr ⟨entries, rfl, hnames ▸ h₃⟩

/-- The keyword-only names of a callable are those of its parameters. -/
theorem Stands.keywordOnlyNames {provider : BodyId} {name : String} {doc : Option String}
    {flags : Flags} {params : Surface.Params} {location : Location}
    (h : Stands t provider name doc flags params location made) (hs : Store.Grows 0 s t)
    (hlt : made.outer.index < s.bodies.size) :
    Lowering.keywordOnlyNames s made.outer = keywordOnlyIn t provider params := by
  have hsignature := (hs.signature hlt).symm.trans h.outer.signature
  rw [Lowering.keywordOnlyNames, hsignature]
  rfl

theorem keywordsGave_of_ran {params : Surface.Params} {location : Location} {name : String}
    {doc : Option String} {flags : Flags} {o : Option IR.Expr}
    (hstands : Stands t b name doc flags params location made)
    (h : Ran n (lowerKeywordMapping setting b made.outer location params) s o s')
    (hs : s.WellFormed) (hb : b.index < s.bodies.size) (hlt : made.outer.index < s.bodies.size)
    (ht : Store.Grows 0 s' t) : KeywordsGave setting t b location params o := by
  have hnames := hstands.keywordOnlyNames (h.later ht) hlt
  rcases lowerKeywordMapping_ok h.run with ⟨hnone, rfl, -⟩ | ⟨entries, rfl, hrun⟩
  · exact .absent (by simpa [keywordOnlyIn] using hnames.symm.trans hnone)
  · rw [hnames] at hrun
    exact .mapping entries (Ran.gave ⟨hrun, h.grows, h.wellFormed⟩ hs hb ht)

/-- The object of a callable, once the function's code has been attached. -/
theorem objectAt_of_ran {kind : ObjectKind} {object : BodyId}
    (hcreate : createObject made kind callee.name (callee.flags setting) callee.location s =
      .ok object s') (ht : Store.Grows 0 s' t)
    (hmaker : (t.body made.function).code = some (manufacture made kind object)) :
    ObjectAt setting t callee made kind object := by
  obtain ⟨-, -, h⟩ := createObject_planned hcreate ht
  exact ⟨⟨h.created, h.kind, h.name, h.provider, h.flags, h.doc, h.signature, h.location, h.info⟩,
    hmaker⟩

/-- The object of a lambda is where it was created. -/
theorem lambdaObject_ok {kind : CallableKind} {flags : Flags} {location : Location}
    (h : lambdaObject made kind flags location s = .ok object s') :
    ((kind == .generator) = false ∧ object = none ∧ s' = s) ∨
      ∃ o, kind = .generator ∧ object = some o ∧
        createObject made .generator "<lambda>" flags location s = .ok o s' := by
  unfold lambdaObject at h
  cases hkind : kind == .generator with
  | true =>
    rw [if_pos hkind] at h
    obtain ⟨o, s₁, h₁, h₂⟩ := bind_eq_ok h
    cases h₂
    exact Or.inr ⟨o, eq_of_beq hkind, rfl, h₁⟩
  | false =>
    rw [if_neg (by simp [hkind])] at h
    cases h
    exact Or.inl ⟨rfl, rfl, rfl⟩

/-- The code body of a plain definition is its function, or the object that it manufactures. -/
theorem plainCodeBody_ok {kind : CallableKind} {d : Surface.Def} {flags : Flags}
    (h : plainCodeBody made kind d flags s = .ok c s') :
    (kind = .function ∧ c = made.function ∧ s' = s) ∨
      ∃ s₁, kind = .generator ∧ createObject made .generator d.name flags d.location s = .ok c s₁ ∧
        attachCode made.function (manufacture made .generator c) s₁ = .ok () s' := by
  unfold plainCodeBody at h
  match kind, h with
  | .function, h =>
    cases h
    exact Or.inl ⟨rfl, rfl, rfl⟩
  | .generator, h =>
    obtain ⟨o, s₁, h₁, h₂⟩ := bind_eq_ok h
    obtain ⟨_, s₂, h₃, h₄⟩ := bind_eq_ok h₂
    cases h₄
    exact Or.inr ⟨s₁, rfl, h₁, h₃⟩
  | .coroutine, h => cases h
  | .asyncGenerator, h => cases h

theorem attachCode_ok {block : IR.Block} (h : attachCode b block s = .ok () s') :
    Store.Grows 0 s s' ∧ s' = s.modifyBody b fun body => { body with code := some block } := by
  have hends : Ends (attachCode b block) s (fun _ s' => s.attachCode b block = .ok s')
      fun _ _ => True := ends_tryUpdate.2 ⟨fun _ h => h, fun _ _ => trivial⟩
  have ha := hends.of_ok h
  exact ⟨Store.Grows.attachCode ha (Nat.zero_le _), (Store.attachCode_eq_ok ha).2⟩

theorem attachCode_size {block : IR.Block} (h : attachCode b block s = .ok () s') :
    s'.bodies.size = s.bodies.size := by
  rw [(attachCode_ok h).2, Store.size_bodies_modifyBody]

theorem attachLambda_size {value : IR.Expr} (h : attachLambda made object value s = .ok () s') :
    s'.bodies.size = s.bodies.size := by
  cases object with
  | none => exact attachCode_size h
  | some o =>
    obtain ⟨_, s₁, h₁, h₂⟩ := bind_eq_ok h
    exact (attachCode_size h₂).trans (attachCode_size h₁)

/-- Code that was attached to a body stays there. -/
theorem attached {block : IR.Block} (h : attachCode b block s = .ok () s')
    (hb : b.index < s.bodies.size) (ht : Store.Grows 0 s' t) :
    Store.Grows 0 s t ∧ (t.body b).code = some block := by
  obtain ⟨hg, hs'⟩ := attachCode_ok h
  exact ⟨hg.trans ht (Nat.le_refl 0), code_of_attached hb hs' ht⟩

/-- The code of a lambda that was attached stays there. -/
theorem attachedLambda {value : IR.Expr} (h : attachLambda made object value s = .ok () s')
    (hcode : (codeBody made object).index < s.bodies.size)
    (hfunction : made.function.index < s.bodies.size) (ht : Store.Grows 0 s' t) :
    Store.Grows 0 s t ∧ (t.body (codeBody made object)).code =
        some (.ofFrame made.code (lambdaStatements object value)) ∧
      ∀ o ∈ object, (t.body made.function).code = some (manufacture made .generator o) := by
  cases object with
  | none =>
    obtain ⟨hg, hblock⟩ := attached h hcode ht
    exact ⟨hg, hblock, fun _ ho => nomatch ho⟩
  | some o =>
    obtain ⟨_, s₁, h₁, h₂⟩ := bind_eq_ok h
    obtain ⟨hg₁, hmaker⟩ := attached h₂
      (Nat.lt_of_lt_of_le hfunction (attachCode_ok h₁).1.bodies) ht
    obtain ⟨hg, hblock⟩ := attached h₁ hcode hg₁
    exact ⟨hg, hblock, fun _ ho => Option.some.inj ho ▸ hmaker⟩

/-! ## The bodies of callables and classes -/

variable {location : Location}

/-- The one body that creating an object adds is the object. -/
theorem createObject_bodies {kind : ObjectKind} {name : String} {flags : Flags} {o : BodyId}
    (h : createObject made kind name flags location s = .ok o s') :
    Store.bodiesFrom s.bodies.size s'.bodies.size = [o] := by
  obtain ⟨rfl, hsize, -⟩ := createObject_planned h (Store.Grows.refl 0 s')
  rw [hsize, Store.bodiesFrom_succ]

theorem lambdaObject_bodies {kind : CallableKind} {flags : Flags}
    (h : lambdaObject made kind flags location s = .ok object s') :
    Store.bodiesFrom s.bodies.size s'.bodies.size = object.toList := by
  rcases lambdaObject_ok h with ⟨-, rfl, rfl⟩ | ⟨o, -, rfl, hcreated⟩
  · exact Store.bodiesFrom_self _
  · exact createObject_bodies hcreated

/-- The body that holds a lambda's value. -/
theorem callableAt_of_lambda {l : Surface.Lambda} {value : IR.Expr} {s₁ s₂ s₄ s₅ : Store}
    (hs : s.WellFormed) (hb : b.index < s.bodies.size)
    (hbuild : Ran s.bodies.size (buildCallable setting b ((Callee.lambda l).kind setting)
      "<lambda>" none ((Callee.lambda l).flags setting) l.params l.location) s made s₁)
    (hcreate : Ran s.bodies.size (lambdaObject made ((Callee.lambda l).kind setting)
      ((Callee.lambda l).flags setting) l.location) s₁ object s₂)
    (hfunction : made.function.index < s₅.bodies.size)
    (hcode : (codeBody made object).index < s₄.bodies.size) (h₄ : s₄.WellFormed)
    (hvalue : Ran s₄.bodies.size (lowerExpr setting (codeBody made object) l.location l.body)
      s₄ value s₅)
    (hattach : attachLambda made object value s₅ = .ok () s')
    (h₁ : Store.Grows 0 s₁ t) (h₂ : Store.Grows 0 s₂ t) (ht : Store.Grows 0 s' t)
    (hwf : t.WellFormed) : CallableAt setting t (.lambda l) b made object := by
  have hstands := buildCallable_stands hs hb hbuild h₁ hwf
  have hobject : (Callee.lambda l).object? setting =
      if (Callee.lambda l).kind setting == .generator then some .generator else none := rfl
  obtain ⟨h₅, hblock, hmaker⟩ := attachedLambda hattach (hvalue.created hcode) hfunction ht
  refine ⟨hstands, ?_, ⟨_, hblock, .lambda value (hvalue.gave h₄ hcode h₅)⟩,
    buildCallable_describes hs hb hbuild h₁, fun _ h => nomatch h⟩
  rw [hobject]
  rcases lambdaObject_ok hcreate.run with ⟨hkind, rfl, -⟩ | ⟨o, hkind, rfl, hcreated⟩
  · rw [hkind]
    exact .none
  · rw [hkind]
    exact .some (objectAt_of_ran hcreated h₂ (hmaker o rfl))

/-- The body that holds the statements of a plain definition. -/
theorem callableAt_of_plain {d : Surface.Def} {lowered : List IR.Stmt} {s₁ s₂ s₆ s₇ : Store}
    (hplain : d.isAsync = false) (hs : s.WellFormed) (hb : b.index < s.bodies.size)
    (hbuild : Ran s.bodies.size (buildCallable setting b ((Callee.define d).kind setting)
      d.name (Surface.docstring? d.body) ((Callee.define d).flags setting) d.params d.location)
      s made s₁)
    (hplaced : Placed s.bodies.size s₁ made)
    (hcreate : Ran s.bodies.size (plainCodeBody made ((Callee.define d).kind setting) d
      ((Callee.define d).flags setting)) s₁ c s₂)
    (hcode : c.index < s₆.bodies.size) (h₆ : s₆.WellFormed)
    (hbody : Ran s₆.bodies.size (lowerStmts setting c (Surface.undocumented d.body)) s₆ lowered s₇)
    (hattach : attachCode c (definitionCode false ((Callee.define d).kind setting) made.code
      lowered) s₇ = .ok () s')
    (h₁ : Store.Grows 0 s₁ t) (h₂ : Store.Grows 0 s₂ t) (ht : Store.Grows 0 s' t)
    (hwf : t.WellFormed) :
    ∃ object, c = codeBody made object ∧ CallableAt setting t (.define d) b made object ∧
      Store.bodiesFrom s₁.bodies.size s₂.bodies.size = object.toList := by
  have hstands := buildCallable_stands hs hb hbuild h₁ hwf
  have hflags : (Callee.define d).functionFlags setting = (Callee.define d).flags setting := by
    simp [Callee.functionFlags, Callee.isAsync, hplain]
  have hobject : (Callee.define d).object? setting =
      if (Callee.define d).kind setting == .generator then some .generator else none := by
    simp [Callee.object?, Callee.isAsync, hplain]
  obtain ⟨h₇, hblock⟩ := attached hattach (hbody.created hcode) ht
  rw [← hplain] at hblock
  rw [← hflags] at hstands
  have hgave := hbody.gave h₆ hcode h₇
  have hdescribed := buildCallable_describes hs hb hbuild h₁
  rcases plainCodeBody_ok hcreate.run with ⟨hkind, rfl, hsame⟩ | ⟨s₂', hkind, hcreated, hmaker⟩
  · refine ⟨none, rfl, ⟨hstands, ?_, ⟨_, hblock, .define lowered hgave⟩, hdescribed,
      fun _ _ => by rw [hobject, hkind]; rfl⟩, ?_⟩
    · rw [hobject, hkind]
      exact .none
    · rw [hsame]
      exact Store.bodiesFrom_self _
  · obtain ⟨-, hsize, -⟩ := createObject_planned hcreated (Store.Grows.refl 0 s₂')
    obtain ⟨hg, hmade⟩ := attached hmaker
      (by rw [hsize]; exact Nat.lt_succ_of_lt hplaced.function.2) h₂
    refine ⟨some c, rfl, ⟨hstands, ?_, ⟨_, hblock, .define lowered hgave⟩, hdescribed,
      fun _ _ => by rw [hobject, hkind]; rfl⟩, ?_⟩
    · rw [hobject, hkind]
      exact .some (objectAt_of_ran hcreated hg hmade)
    · rw [attachCode_size hmaker]
      exact createObject_bodies hcreated

theorem object?_of_asyncObject? {kind : CallableKind} {object : ObjectKind}
    (h : asyncObject? kind = some object) : kind.object? = some object := by
  cases kind with
  | function => cases h
  | suspended object => cases object <;> cases h <;> rfl

/-- The body that holds the statements of an asynchronous definition. -/
theorem callableAt_of_async {d : Surface.Def} {kind : ObjectKind} {o : BodyId}
    {lowered : List IR.Stmt} {s₁ s₂ s₅ s₆ s₇ s₉ : Store} (hasync : d.isAsync = true)
    (hkind : asyncObject? ((Callee.define d).kind setting) = some kind)
    (hs : s.WellFormed) (hb : b.index < s.bodies.size)
    (hbuild : Ran s.bodies.size (buildCallable setting b ((Callee.define d).kind setting)
      d.name (Surface.docstring? d.body) {} d.params d.location) s made s₁)
    (hcreate : createObject made kind d.name ((Callee.define d).flags setting) d.location s₁ =
      .ok o s₂)
    (hcode : o.index < s₅.bodies.size) (h₅ : s₅.WellFormed)
    (hbody : Ran s₅.bodies.size (lowerStmts setting o (Surface.undocumented d.body)) s₅ lowered s₆)
    (hattach : attachCode o (definitionCode true ((Callee.define d).kind setting) made.code
      lowered) s₆ = .ok () s₇)
    (hfunction : made.function.index < s₉.bodies.size)
    (hmaker : attachCode made.function (manufacture made kind o) s₉ = .ok () s')
    (h₁ : Store.Grows 0 s₁ t) (h₂ : Store.Grows 0 s₂ t) (h₇ : Store.Grows 0 s₇ t)
    (ht : Store.Grows 0 s' t) (hwf : t.WellFormed) :
    CallableAt setting t (.define d) b made (some o) := by
  have hstands := buildCallable_stands hs hb hbuild h₁ hwf
  have hflags : (Callee.define d).functionFlags setting = {} := by
    simp [Callee.functionFlags, Callee.isAsync, hasync]
  have hobject : (Callee.define d).object? setting = some kind := by
    simp [Callee.object?, Callee.isAsync, hasync, hkind]
  obtain ⟨h₆, hblock⟩ := attached hattach (hbody.created hcode) h₇
  obtain ⟨-, hmade⟩ := attached hmaker hfunction ht
  rw [← hasync] at hblock
  rw [← hflags] at hstands
  refine ⟨hstands, ?_, ⟨_, hblock, .define lowered (hbody.gave h₅ hcode h₆)⟩,
    buildCallable_describes hs hb hbuild h₁, fun _ _ => ?_⟩
  · rw [hobject]
    exact .some (objectAt_of_ran hcreate h₂ hmade)
  · rw [hobject, object?_of_asyncObject? hkind]

/-- The body of a class. -/
theorem classAt_of_ran {d : Surface.ClassDef} {lowered : List IR.Stmt} {s₂ s₄ s₅ : Store}
    (hopen : Store.Grows 0 (s₂.createBody (classPlan b d)).2 s₄) (h₄ : s₄.WellFormed)
    (hbody : Ran s₄.bodies.size (lowerStmts setting ⟨s₂.bodies.size⟩
      (Surface.undocumented d.body)) s₄ lowered s₅)
    (hattach : attachCode ⟨s₂.bodies.size⟩ (.ofStatements lowered) s₅ = .ok () s')
    (ht : Store.Grows 0 s' t) : ClassAt setting t d b ⟨s₂.bodies.size⟩ := by
  have hlt : (⟨s₂.bodies.size⟩ : BodyId).index < s₄.bodies.size :=
    Nat.lt_of_lt_of_le (by simp) hopen.bodies
  obtain ⟨h₅, hblock⟩ := attached hattach (hbody.created hlt) ht
  exact ⟨(planned_createBody s₂ (classPlan b d)).grow (hopen.trans (hbody.later h₅)
    (Nat.le_refl 0)),
    lowered, hbody.gave h₄ hlt h₅, hblock⟩

/-! ## Definitions taken apart -/

theorem LambdaRun.created {l : Surface.Lambda} {e : IR.Expr} (h : LambdaRun setting b l s e s')
    (hs : s.WellFormed) (hb : b.index < s.bodies.size) (ht : Store.Grows 0 s' t)
    (hwf : t.WellFormed) : Created setting t b (.lambda l) e := by
  obtain ⟨made, object, defaults, keywords, value, s₁, s₂, s₃, s₄, s₅, hbuild, hplaced, hcreate,
    hcode, hdefaults, hkeywords, hvalue, hattach, rfl⟩ := h
  have h₅ := hattach.later ht
  have h₄ := hvalue.later h₅
  have h₃ := hkeywords.later h₄
  have h₂ := hdefaults.later h₃
  have h₁ := hcreate.later h₂
  have hb₂ := hcreate.created (hbuild.created hb)
  have hb₃ := hdefaults.created hb₂
  have hcallable := callableAt_of_lambda hs hb hbuild hcreate
    (hvalue.created (hkeywords.created (hdefaults.created (hcreate.created hplaced.function.2))))
    (hkeywords.created (hdefaults.created hcode.2)) hkeywords.wellFormed hvalue hattach.run h₁ h₂ ht
    hwf
  exact .intro made object defaults keywords none hcallable
    (hdefaults.gave hcreate.wellFormed hb₂ h₃)
    (keywordsGave_of_ran hcallable.stands hkeywords hdefaults.wellFormed hb₃
      (hdefaults.created (hcreate.created hplaced.outer.2)) h₄) rfl

/-- **What a lambda was lowered to.** -/
theorem gave_lowerLambda {l : Surface.Lambda} {e : IR.Expr}
    (h : Gave t b (lowerLambda setting b l) e) (ht : t.WellFormed) :
    Created setting t b (.lambda l) e := by
  obtain ⟨n, s, s', hs, hb, hran, hg⟩ := h
  exact (lambdaRun_of_ok hs hb hran.run).created hs hb hg ht

/-- What a definition was lowered to: its decorators are applied to what it creates, and the
result is bound to its name. -/
inductive Defined (setting : Setting) (t : Store) (b : BodyId) (d : Surface.Def) :
    IR.Stmt → Prop
  | intro (decorators : List IR.Expr) (created : IR.Expr) (statement : IR.Stmt)
    (hdecorators : Gave t b (lowerDecorators setting b d.location d.decorators) decorators)
    (hcreated : Created setting t b (.define d) created)
    (hbind : Gave t b (bindDefinition b d.name (decorate
      (appliedDecorators setting.dialect (t.body b).kind.scope d decorators) created)) statement) :
    Defined setting t b d statement

/-- What a class was lowered to. -/
inductive ClassDefined (setting : Setting) (t : Store) (b : BodyId) (d : Surface.ClassDef) :
    IR.Stmt → Prop
  | intro (decorators bases : List IR.Expr) (c : BodyId) (statement : IR.Stmt)
    (hdecorators : Gave t b (lowerDecorators setting b d.location d.decorators) decorators)
    (hbases : Gave t b (lowerExprs setting b d.location d.bases) bases)
    (hclass : ClassAt setting t d b c)
    (hbind : Gave t b (bindDefinition b d.name (decorate decorators (.makeClass c bases)))
      statement) : ClassDefined setting t b d statement

theorem PlainRun.defined {d : Surface.Def} {statement : IR.Stmt}
    (h : PlainRun setting b d s statement s') (hplain : d.isAsync = false) (hs : s.WellFormed)
    (hb : b.index < s.bodies.size) (ht : Store.Grows 0 s' t) (hwf : t.WellFormed) :
    Defined setting t b d statement := by
  obtain ⟨made, code, decorators, defaults, keywords, annotations, lowered, s₁, s₂, s₃, s₄, s₅, s₆,
    s₇, s₈, s₉, hbuild, hplaced, hcreate, hcode, hdecorators, hdefaults, hkeywords, hopen, hbody,
    hattach, hannotations, hbind⟩ := h
  have h₉ := hbind.later ht
  have h₈ := hannotations.later h₉
  have h₇ := hattach.later h₈
  have h₆ := hbody.later h₇
  have h₅ := hopen.later h₆
  have h₄ := hkeywords.later h₅
  have h₃ := hdefaults.later h₄
  have h₂ := hdecorators.later h₃
  have h₁ := hcreate.later h₂
  have hb₂ := hcreate.created (hbuild.created hb)
  have hb₃ := hdecorators.created hb₂
  have hb₄ := hdefaults.created hb₃
  have hb₈ := hattach.created (hbody.created (hopen.created (hkeywords.created hb₄)))
  have hb₉ := hannotations.created hb₈
  have hcode₆ := hopen.created (hkeywords.created (hdefaults.created (hdecorators.created hcode.2)))
  obtain ⟨object, rfl, hcallable, -⟩ := callableAt_of_plain hplain hs hb hbuild hplaced hcreate
    hcode₆
    hopen.wellFormed hbody hattach.run h₁ h₂ h₈ hwf
  have houter := hdefaults.created (hdecorators.created (hcreate.created hplaced.outer.2))
  refine .intro decorators _ statement (hdecorators.gave hcreate.wellFormed hb₂ h₃)
    (.intro made object defaults keywords annotations hcallable
      (hdefaults.gave hdecorators.wellFormed hb₃ h₄)
      (keywordsGave_of_ran hcallable.stands hkeywords hdefaults.wellFormed hb₄ houter h₅)
      (hannotations.gave hattach.wellFormed hb₈ h₉)) ?_
  rw [appliedDecorators, if_neg (by simp [hplain]), h₉.kind hb₉]
  exact hbind.gave hannotations.wellFormed hb₉ ht

theorem AsyncRun.defined {d : Surface.Def} {statement : IR.Stmt}
    (h : AsyncRun setting b d s statement s') (hasync : d.isAsync = true) (hs : s.WellFormed)
    (hb : b.index < s.bodies.size) (ht : Store.Grows 0 s' t) (hwf : t.WellFormed) :
    Defined setting t b d statement := by
  obtain ⟨kind, made, object, decorators, defaults, keywords, annotations, lowered, s₁, s₂, s₃, s₄,
    s₅, s₆, s₇, s₈, s₉, s₁₀, s₁₁, hkind, hbuild, hplaced, hcreate, hobject, hdecorators, hdefaults,
    hopen, hbody, hattach, hannotations, hkeywords, hmaker, rfl, hbind⟩ := h
  have h₁₁ := hbind.later ht
  have h₁₀ : Store.Grows 0 s₁₀ t :=
    (Store.Grows.copyNonlocals (Nat.zero_le _)).trans h₁₁ (Nat.le_refl 0)
  have h₉ := hmaker.later h₁₀
  have h₈ := hkeywords.later h₉
  have h₇ := hannotations.later h₈
  have h₆ := hattach.later h₇
  have h₅ := hbody.later h₆
  have h₄ := hopen.later h₅
  have h₃ := hdefaults.later h₄
  have h₂ := hdecorators.later h₃
  have h₁ := hcreate.later h₂
  have hb₂ := hcreate.created (hbuild.created hb)
  have hb₃ := hdecorators.created hb₂
  have hb₇ := hattach.created (hbody.created (hopen.created (hdefaults.created hb₃)))
  have hb₈ := hannotations.created hb₇
  have hb₁₁ : b.index < (s₁₀.copyNonlocals object made.function).bodies.size := by
    rw [Store.copyNonlocals, Store.size_bodies_modifyBody]
    exact hmaker.created (hkeywords.created hb₈)
  -- the bodies of the callable are there from the start
  have there : ∀ c : BodyId, c.index < s₁.bodies.size → c.index < s₈.bodies.size := fun c hc =>
    hannotations.created (hattach.created (hbody.created (hopen.created (hdefaults.created
      (hdecorators.created (hcreate.created hc))))))
  have hcallable := callableAt_of_async hasync hkind hs hb hbuild hcreate.run
    (hopen.created (hdefaults.created (hdecorators.created hobject.2))) hopen.wellFormed hbody
    hattach.run (hkeywords.created (there _ hplaced.function.2)) hmaker.run h₁ h₂ h₇ h₁₀ hwf
  refine .intro decorators _ statement (hdecorators.gave hcreate.wellFormed hb₂ h₃)
    (.intro made (some object) defaults keywords annotations hcallable
      (hdefaults.gave hdecorators.wellFormed hb₃ h₄)
      (keywordsGave_of_ran hcallable.stands hkeywords hannotations.wellFormed hb₈
        (there _ hplaced.outer.2) h₉)
      (hannotations.gave hattach.wellFormed hb₇ h₈)) ?_
  rw [appliedDecorators, if_pos hasync]
  exact hbind.gave (IR.Store.WellFormed.copyNonlocals hmaker.wellFormed) hb₁₁ ht

/-- **What a definition was lowered to.** -/
theorem gave_lowerDef {d : Surface.Def} {statement : IR.Stmt}
    (h : Gave t b (lowerDef setting b d) statement) (ht : t.WellFormed) :
    Defined setting t b d statement := by
  obtain ⟨n, s, s', hs, hb, hran, hg⟩ := h
  cases hasync : d.isAsync with
  | true => exact (asyncRun_of_ok hs hb hasync hran.run).defined hasync hs hb hg ht
  | false => exact (plainRun_of_ok hs hb hasync hran.run).defined hasync hs hb hg ht

/-- **What a class was lowered to.** -/
theorem gave_lowerClassDef {d : Surface.ClassDef} {statement : IR.Stmt}
    (h : Gave t b (lowerClassDef setting b d) statement) :
    ClassDefined setting t b d statement := by
  obtain ⟨n, s, s', hs, hb, hran, ht⟩ := h
  obtain ⟨decorators, bases, lowered, s₁, s₂, s₄, s₅, s₆, hdecorators, hbases, hcreate, hopen,
    hbody, hattach, hbind⟩ := classRun_of_ok hs hb hran.run
  have h₆ := hbind.later ht
  have h₅ := hattach.later h₆
  have h₄ := hbody.later h₅
  have h₂ := (Store.Grows.createBody s₂ (classPlan b d)).mono (Nat.zero_le _) |>.trans
    (hopen.later h₄) (Nat.le_refl 0)
  have h₁ := hbases.later h₂
  have hb₁ := hdecorators.created hb
  have hb₆ := hattach.created (hbody.created (hopen.created (Nat.lt_of_lt_of_le
    (hbases.created hb₁) (Store.Grows.createBody s₂ (classPlan b d)).bodies)))
  exact .intro decorators bases _ statement (hdecorators.gave hs hb h₁)
    (hbases.gave hdecorators.wellFormed hb₁ h₂)
    (classAt_of_ran (hopen.grows.mono (Nat.zero_le _)) hopen.wellFormed hbody hattach.run h₆)
    (hbind.gave hattach.wellFormed hb₆ ht)

/-! ## All bodies that are created -/

/-- A body is one of a callable or of a class. -/
inductive Origin (setting : Setting) (t : Store) (c : BodyId) : Prop
  | callable (callee : Callee) (provider : BodyId) (made : Callable) (object : Option BodyId)
    (hcallable : CallableAt setting t callee provider made object)
    (hone : c = made.outer ∨ c = made.function ∨ object = some c)
  | classDef (d : Surface.ClassDef) (provider : BodyId) (hclass : ClassAt setting t d provider c)

/-- The bodies with the numbers from `n` to `m` have an origin. -/
def Covered (setting : Setting) (t : Store) (n m : Nat) : Prop :=
  ∀ c : BodyId, n ≤ c.index → c.index < m → Origin setting t c

theorem covered_of_le {m : Nat} (h : m ≤ n) : Covered setting t n m :=
  fun _ hn hm => absurd (Nat.lt_of_le_of_lt hn hm) (Nat.not_lt.2 h)

theorem Covered.trans {m k : Nat} (h : Covered setting t n m) (h' : Covered setting t m k) :
    Covered setting t n k := fun c hn hk =>
  if hm : c.index < m then h c hn hm else h' c (Nat.not_lt.1 hm) hk

/-- All bodies that were created on the way from one store to another have an origin. -/
def Originates (setting : Setting) (s s' : Store) : Prop :=
  ∀ t, Store.Grows 0 s' t → t.WellFormed → Covered setting t s.bodies.size s'.bodies.size

/-- The bodies of a callable, with that of the object that it manufactures. -/
def Callable.bodies (made : Callable) (object : Option BodyId) : List BodyId :=
  made.outer :: ((if made.function = made.outer then [] else [made.function]) ++ object.toList)

/-- A callable has the bodies that were created for it. -/
theorem bodiesFrom_callable {kind : CallableKind} {name : String} {doc : Option String}
    {flags : Flags} {params : Surface.Params} {provider : BodyId} {s₁ s₂ : Store}
    (hs : s.WellFormed) (hp : provider.index < s.bodies.size)
    (hbuild : buildCallable setting provider kind name doc flags params location s = .ok made s₁)
    (hle : s₁.bodies.size ≤ s₂.bodies.size)
    (hobject : Store.bodiesFrom s₁.bodies.size s₂.bodies.size = object.toList) :
    Store.bodiesFrom s.bodies.size s₂.bodies.size = Callable.bodies made object := by
  obtain ⟨houter, hfunction⟩ := buildCallable_bodies hs hp hbuild
  have hbuilt : Store.bodiesFrom s.bodies.size s₁.bodies.size =
      made.outer :: (if made.function = made.outer then [] else [made.function]) := by
    rcases hfunction with ⟨hsame, hsize⟩ | ⟨hfunction, hsize⟩
    · rw [if_pos hsame, hsize, houter, Store.bodiesFrom_succ]
    · rw [if_neg (by rw [hfunction, houter]; simp), hsize, houter, hfunction,
        ← Store.bodiesFrom_append (Nat.le_succ _) (Nat.le_succ _), Store.bodiesFrom_succ,
        Store.bodiesFrom_succ]
      rfl
  have hlow : s.bodies.size ≤ s₁.bodies.size := by omega
  rw [← Store.bodiesFrom_append hlow hle, hbuilt, hobject]
  rfl

theorem Callable.mem_bodies : c ∈ Callable.bodies made object ↔
    c = made.outer ∨ c = made.function ∨ object = some c := by
  rw [Callable.bodies, List.mem_cons, List.mem_append, Option.mem_toList]
  by_cases heq : made.function = made.outer
  · rw [if_pos heq, heq]
    simp
  · rw [if_neg heq, List.mem_singleton]

/-- The bodies of a callable have it for their origin. -/
theorem CallableAt.covered {provider : BodyId} {n m : Nat}
    (h : CallableAt setting t callee provider made object)
    (hbodies : Store.bodiesFrom n m = Callable.bodies made object) : Covered setting t n m :=
  fun _ hlow hhigh => .callable callee provider made object h
    (Callable.mem_bodies.1 (hbodies ▸ Store.mem_bodiesFrom.2 ⟨hlow, hhigh⟩))

/-- A lowering in a body has come from `s` to `t`, and the bodies it created have an origin. -/
structure Traced (setting : Setting) (b : BodyId) (s t : Store) : Prop where
  grown : Store.Grows 0 s t
  wellFormed : t.WellFormed
  here : b.index < t.bodies.size
  originates : Originates setting s t

namespace Traced

variable {α : Type} {x : Lowering α} {a : α}

theorem start (hs : s.WellFormed) (hb : b.index < s.bodies.size) : Traced setting b s s :=
  ⟨Store.Grows.refl 0 s, hs, hb, fun _ _ _ => covered_of_le (Nat.le_refl _)⟩

theorem step (h : Traced setting b s t) (hran : Ran n x t a s')
    (ho : Originates setting t s') : Traced setting b s s' where
  grown := h.grown.trans (hran.grows.mono (Nat.zero_le n)) (Nat.le_refl 0)
  wellFormed := hran.wellFormed
  here := hran.created h.here
  originates r hr hwf := (h.originates r (hran.later hr) hwf).trans (ho r hr hwf)

/-- A step that obeys the pass, in any body. -/
theorem ran (h : Traced setting b s t) (hran : Ran n x t a s')
    (hx : Obeys (fun _ => Originates setting) c x) (hc : c.index < t.bodies.size) :
    Traced setting b s s' :=
  h.step hran (hx t a s' h.wellFormed hc hran.run).2.2

/-- A step that creates nothing. -/
theorem still (h : Traced setting b s t) (hran : Ran n x t a s')
    (hsize : s'.bodies.size = t.bodies.size) : Traced setting b s s' :=
  h.step hran fun _ _ _ => covered_of_le (Nat.le_of_eq hsize)

end Traced

theorem originates_expr (setting : Setting) :
    ExprPass setting AnyName fun _ => Originates setting where
  spell := id
  refl _ := fun t _ _ => covered_of_le (Nat.le_refl _)
  trans _ _ _ _ hg₂ h₁ h₂ := fun t ht hwf =>
    (h₁ t ((hg₂.mono (Nat.zero_le _)).trans ht (Nat.le_refl 0)) hwf).trans (h₂ t ht hwf)
  resolve _ _ _ := fun t _ _ => covered_of_le (Nat.le_of_eq (Store.size_bodies_resolve _ _ _))
  lambda := by
    intro b s e s' l hdefaultsPass hkeywordsPass hvaluePass hs hb hrun t ht hwf
    obtain ⟨made, object, defaults, keywords, value, s₁, s₂, s₃, s₄, s₅, hbuild, hplaced, hcreate,
      hcode, hdefaults, hkeywords, hvalue, hattach, rfl⟩ := hrun
    have u₂ : Traced setting b s₂ s₂ := .start hcreate.wellFormed
      (hcreate.created (hbuild.created hb))
    have u₃ := u₂.ran hdefaults (hdefaultsPass b _) u₂.here
    have u₄ := u₃.ran hkeywords (hkeywordsPass b _ _) u₃.here
    have hcode₄ := hkeywords.created (hdefaults.created hcode.2)
    have u₅ := u₄.ran hvalue (hvaluePass _ _) hcode₄
    have u₆ := u₅.still hattach (attachLambda_size hattach.run)
    have h₂ := u₆.grown.trans ht (Nat.le_refl 0)
    have hcallable := callableAt_of_lambda hs hb hbuild hcreate
      (hvalue.created (hkeywords.created (hdefaults.created (hcreate.created hplaced.function.2))))
      hcode₄ hkeywords.wellFormed hvalue hattach.run (hcreate.later h₂) h₂ ht hwf
    exact (hcallable.covered (bodiesFrom_callable hs hb hbuild.run hcreate.grows.bodies
      (lambdaObject_bodies hcreate.run))).trans (u₆.originates t ht hwf)

theorem originates_plain {d : Surface.Def} {statement : IR.Stmt} (hplain : d.isAsync = false)
    (hpass : ∀ c, Obeys (fun _ => Originates setting) c
      (lowerStmts setting c (Surface.undocumented d.body)))
    (hs : s.WellFormed) (hb : b.index < s.bodies.size)
    (hrun : PlainRun setting b d s statement s') : Originates setting s s' := by
  intro t ht hwf
  obtain ⟨made, code, decorators, defaults, keywords, annotations, lowered, s₁, s₂, s₃, s₄, s₅,
    s₆, s₇, s₈, s₉, hbuild, hplaced, hcreate, hcode, hdecorators, hdefaults, hkeywords, hopen,
    hbody, hattach, hannotations, hbind⟩ := hrun
  have pass := originates_expr setting
  have u₂ : Traced setting b s₂ s₂ := .start hcreate.wellFormed
    (hcreate.created (hbuild.created hb))
  have u₃ := u₂.ran hdecorators (pass.lowerDecorators (anyName _)) u₂.here
  have u₄ := u₃.ran hdefaults (pass.lowerDefaults (anyName _)) u₃.here
  have u₅ := u₄.ran hkeywords (pass.lowerKeywordMapping _ (anyName _)) u₄.here
  have u₆ := u₅.still hopen (openScope_size hopen.run)
  have hcode₆ := hopen.created (hkeywords.created (hdefaults.created
    (hdecorators.created hcode.2)))
  have u₇ := u₆.ran hbody (hpass _) hcode₆
  have u₈ := u₇.still hattach (attachCode_size hattach.run)
  have u₉ := u₈.ran hannotations (pass.lowerAnnotations (anyName _) (anyName _)) u₈.here
  have u₁₀ := u₉.ran hbind (pass.bindDefinition trivial _) u₉.here
  have h₂ := u₁₀.grown.trans ht (Nat.le_refl 0)
  obtain ⟨object, rfl, hcallable, hobject⟩ := callableAt_of_plain hplain hs hb hbuild hplaced
    hcreate hcode₆ hopen.wellFormed hbody hattach.run (hcreate.later h₂) h₂
    (hannotations.later (hbind.later ht)) hwf
  exact (hcallable.covered (bodiesFrom_callable hs hb hbuild.run hcreate.grows.bodies
    hobject)).trans (u₁₀.originates t ht hwf)

theorem originates_async {d : Surface.Def} {statement : IR.Stmt} (hasync : d.isAsync = true)
    (hpass : ∀ c, Obeys (fun _ => Originates setting) c
      (lowerStmts setting c (Surface.undocumented d.body)))
    (hs : s.WellFormed) (hb : b.index < s.bodies.size)
    (hrun : AsyncRun setting b d s statement s') : Originates setting s s' := by
  intro t ht hwf
  obtain ⟨kind, made, object, decorators, defaults, keywords, annotations, lowered, s₁, s₂, s₃,
    s₄, s₅, s₆, s₇, s₈, s₉, s₁₀, s₁₁, hkind, hbuild, hplaced, hcreate, hobject, hdecorators,
    hdefaults, hopen, hbody, hattach, hannotations, hkeywords, hmaker, rfl, hbind⟩ := hrun
  have pass := originates_expr setting
  have u₂ : Traced setting b s₂ s₂ := .start hcreate.wellFormed
    (hcreate.created (hbuild.created hb))
  have u₃ := u₂.ran hdecorators (pass.lowerDecorators (anyName _)) u₂.here
  have u₄ := u₃.ran hdefaults (pass.lowerDefaults (anyName _)) u₃.here
  have u₅ := u₄.still hopen (openScope_size hopen.run)
  have hobject₅ := hopen.created (hdefaults.created (hdecorators.created hobject.2))
  have u₆ := u₅.ran hbody (hpass _) hobject₅
  have u₇ := u₆.still hattach (attachCode_size hattach.run)
  have u₈ := u₇.ran hannotations (pass.lowerAnnotations (anyName _) (anyName _)) u₇.here
  have u₉ := u₈.ran hkeywords (pass.lowerKeywordMapping _ (anyName _)) u₈.here
  have u₁₀ := u₉.still hmaker (attachCode_size hmaker.run)
  have hsize : (s₁₀.copyNonlocals object made.function).bodies.size = s₁₀.bodies.size :=
    Store.size_bodies_modifyBody _ _ _
  have hbound := (pass.bindDefinition trivial _) _ _ _
    (IR.Store.WellFormed.copyNonlocals hmaker.wellFormed) (hsize ▸ u₁₀.here) hbind.run
  have h₁₀ : Store.Grows 0 s₁₀ t :=
    (Store.Grows.copyNonlocals (Nat.zero_le _)).trans (hbind.later ht) (Nat.le_refl 0)
  have h₂ := u₁₀.grown.trans h₁₀ (Nat.le_refl 0)
  have hfunction := hkeywords.created (hannotations.created (hattach.created (hbody.created
    (hopen.created (hdefaults.created (hdecorators.created (hcreate.created
      hplaced.function.2)))))))
  have hcallable := callableAt_of_async hasync hkind hs hb hbuild hcreate.run hobject₅
    hopen.wellFormed hbody hattach.run hfunction hmaker.run (hcreate.later h₂) h₂
    (hannotations.later (hkeywords.later (hmaker.later h₁₀))) h₁₀ hwf
  exact (hcallable.covered (bodiesFrom_callable hs hb hbuild.run hcreate.grows.bodies
    (createObject_bodies hcreate.run))).trans ((u₁₀.originates t h₁₀ hwf).trans
      (hsize ▸ hbound.2.2 t ht hwf))

theorem originates_class {d : Surface.ClassDef} {statement : IR.Stmt}
    (hpass : ∀ c, Obeys (fun _ => Originates setting) c
      (lowerStmts setting c (Surface.undocumented d.body)))
    (hs : s.WellFormed) (hb : b.index < s.bodies.size)
    (hrun : ClassRun setting b d s statement s') : Originates setting s s' := by
  intro t ht hwf
  obtain ⟨decorators, bases, lowered, s₁, s₂, s₄, s₅, s₆, hdecorators, hbases, hcreate, hopen,
    hbody, hattach, hbind⟩ := hrun
  have pass := originates_expr setting
  have hgrows := Store.Grows.createBody s₂ (classPlan b d)
  have u₁ := (Traced.start hs hb).ran hdecorators (pass.lowerDecorators (anyName _)) hb
  have u₂ := u₁.ran hbases (pass.lowerExprs _ _ _ (anyName _)) u₁.here
  have u₄ : Traced setting b s₄ s₄ := .start hopen.wellFormed
    (hopen.created (Nat.lt_of_lt_of_le u₂.here hgrows.bodies))
  have u₅ := u₄.ran hbody (hpass _) (hopen.created (by simp))
  have u₆ := u₅.still hattach (attachCode_size hattach.run)
  have u₇ := u₆.ran hbind (pass.bindDefinition trivial _) u₆.here
  have h₄ := u₇.grown.trans ht (Nat.le_refl 0)
  have h₂ := (hgrows.mono (Nat.zero_le _)).trans (hopen.later h₄) (Nat.le_refl 0)
  have hclass : ClassAt setting t d b ⟨s₂.bodies.size⟩ := classAt_of_ran
    (hopen.grows.mono (Nat.zero_le _)) hopen.wellFormed hbody hattach.run (hbind.later ht)
  have hcreated : Covered setting t s₂.bodies.size s₄.bodies.size := by
    intro c hlow hhigh
    rw [openScope_size hopen.run, Store.size_bodies_createBody] at hhigh
    refine .classDef d b ?_
    rw [show c = ⟨s₂.bodies.size⟩ from congrArg BodyId.mk (by omega)]
    exact hclass
  exact (u₂.originates t h₂ hwf).trans (hcreated.trans (u₇.originates t ht hwf))

/-- **Every body that lowering creates is one of a callable or of a class.** -/
theorem originates (setting : Setting) : StmtPass setting AnyName fun _ => Originates setting where
  toExprPass := originates_expr setting
  plain hplain _ hpass hs hb hrun := originates_plain hplain hpass hs hb hrun
  async hasync _ hpass hs hb hrun := originates_async hasync hpass hs hb hrun
  defineClass _ hpass hs hb hrun := originates_class hpass hs hb hrun

end Lowering

end DefinitionLowering
