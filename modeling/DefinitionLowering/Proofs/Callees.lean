import DefinitionLowering.Proofs.Making

/-!
# Callables and classes as they are written

A `Callee` is what is written as one callable: a lambda or a definition.  `LambdaRun`,
`PlainRun`, `AsyncRun` and `ClassRun` are the steps of lowering one, with the stores in between;
a lowering that succeeds consists of these steps (`lambdaRun_of_ok` and so on).

`CallableAt` is what holds of a callable in any later store, in whatever order its steps were:
its bodies, the object it manufactures, and the code of the body that holds its statements.
-/

namespace DefinitionLowering

open IR (BodyId VariableId Store)
open Lowering
open Surface (Params)

/-- What is written as one callable. -/
inductive Callee where
  | lambda (definition : Surface.Lambda)
  | define (definition : Surface.Def)

namespace Callee

def name : Callee → String
  | .lambda _ => "<lambda>"
  | .define d => d.name

def params : Callee → Params
  | .lambda l => l.params
  | .define d => d.params

def location : Callee → Location
  | .lambda l => l.location
  | .define d => d.location

def doc : Callee → Option String
  | .lambda _ => none
  | .define d => Surface.docstring? d.body

def isAsync : Callee → Bool
  | .lambda _ => false
  | .define d => d.isAsync

/-- The statements that the callable is classified by. -/
def statements : Callee → List Surface.Stmt
  | .lambda l => [⟨.expr l.body, .unknown⟩]
  | .define d => Surface.undocumented d.body

variable (callee : Callee) (setting : Setting)

/-- The kind of the callable if it does not yield. -/
def start : CallableKind :=
  if callee.isAsync then .coroutine else .function

def kind : CallableKind :=
  (setting.classify callee.statements callee.start).1

def flags : Flags :=
  (setting.classify callee.statements callee.start).2

/-- The flags of the function; those of an asynchronous definition describe the object. -/
def functionFlags : Flags :=
  if callee.isAsync then {} else callee.flags setting

/-- The object that a call of the callable manufactures. -/
def object? : Option ObjectKind :=
  if callee.isAsync then asyncObject? (callee.kind setting)
  else if callee.kind setting == .generator then some .generator else none

end Callee

/-- The frame of some statements, absent when there are none. -/
def frameOf (code : CodeObject) (lowered : List IR.Stmt) : Option IR.Block :=
  if lowered.isEmpty then none else some (.ofFrame code lowered)

/-- The code of a definition with its statements. -/
def definitionCode (isAsync : Bool) (kind : CallableKind) (code : CodeObject)
    (lowered : List IR.Stmt) : IR.Block :=
  if isAsync then .closeWith .objectRetNone (frameOf code lowered)
  else plainCode kind (frameOf code lowered)

/-- What is settled about the body of a class. -/
def classPlan (provider : BodyId) (d : Surface.ClassDef) : IR.BodyPlan where
  kind := .classBody
  name := d.name
  location := d.location
  provider := some provider
  doc := Surface.docstring? d.body

/-- The statements of a lambda's code: its value is returned, or evaluated by an object that
then ends. -/
def lambdaStatements (object : Option BodyId) (value : IR.Expr) : List IR.Stmt :=
  match object with
  | none => [.ret value]
  | some _ => [.expr value, .objectRetNone]

namespace Lowering

variable {setting : Setting} {b c : BodyId} {n : Nat} {s s' t : Store} {made : Callable}
  {location : Location}

/-! ## Single steps -/

theorem valid_of_wellFormed (hs : s.WellFormed) (hn : n ≤ s.bodies.size) (c : BodyId) :
    Valid n (c :: s.bodyIds) s :=
  ⟨hs, hn, fun _ _ hlt hd => absurd (List.mem_cons_of_mem _ (Store.mem_bodyIds.2 hlt)) hd⟩

/-- Code is attached to a body that has none. -/
theorem attachCode_ran {block : IR.Block} (hs : s.WellFormed) (hq : block.quiet = true)
    (hn : n ≤ b.index) (hrun : attachCode b block s = .ok () s') :
    Ran n (attachCode b block) s () s' ∧ (s.body b).code = none ∧
      s' = s.modifyBody b fun body => { body with code := some block } := by
  have hrun' : Ends (attachCode b block) s
      (fun _ s' => s.attachCode b block = .ok s') fun _ _ => True :=
    ends_tryUpdate.2 ⟨fun _ h => h, fun _ _ => trivial⟩
  have ha := hrun'.of_ok hrun
  obtain ⟨hcode, rfl⟩ := Store.attachCode_eq_ok ha
  exact ⟨⟨hrun, Store.Grows.attachCode ha hn, hs.attachCode hq ha⟩, hcode, rfl⟩

/-- A body keeps the code that was attached to it. -/
theorem code_of_attached {block : IR.Block} (hb : b.index < s.bodies.size)
    (hs' : s' = s.modifyBody b fun body => { body with code := some block })
    (ht : Store.Grows 0 s' t) : (t.body b).code = some block := by
  refine ht.code b block ?_
  rw [hs', Store.body_modifyBody_self hb]

theorem createObject_ran {kind : ObjectKind} {name : String} {flags : Flags} {object : BodyId}
    (hs : s.WellFormed) (hn : n ≤ s.bodies.size)
    (houter : n ≤ made.outer.index ∧ made.outer.index < s.bodies.size)
    (hfunction : n ≤ made.function.index ∧ made.function.index < s.bodies.size)
    (hrun : createObject made kind name flags location s = .ok object s') :
    Ran n (createObject made kind name flags location) s object s' := by
  have hbuilt : Built n s.bodyIds made s := ⟨valid_of_wellFormed hs hn _, houter, hfunction⟩
  obtain ⟨hg, hv, -⟩ := (createObject_keeps hbuilt kind name flags location).of_ok hrun
  exact ⟨hrun, hg, hv.wellFormed⟩

/-- Where the bodies of a callable are. -/
structure Placed (n : Nat) (s : Store) (made : Callable) : Prop where
  bound : n ≤ s.bodies.size
  outer : n ≤ made.outer.index ∧ made.outer.index < s.bodies.size
  function : n ≤ made.function.index ∧ made.function.index < s.bodies.size

theorem buildCallable_ran {kind : CallableKind} {name : String} {doc : Option String}
    {flags : Flags} {params : Params} (hs : s.WellFormed) (hb : b.index < s.bodies.size)
    (hrun : buildCallable setting b kind name doc flags params location s = .ok made s') :
    Ran s.bodies.size (buildCallable setting b kind name doc flags params location) s made s' ∧
      Placed s.bodies.size s' made := by
  have hvalid := valid_of_wellFormed hs (Nat.le_refl _) b
  obtain ⟨hg, hbuilt⟩ := (buildCallable_keeps hvalid hb).of_ok hrun
  exact ⟨⟨hrun, hg, hbuilt.valid.wellFormed⟩, hg.bodies, hbuilt.outer, hbuilt.function⟩

/-- The code body of a lambda is its object's, if there is one. -/
theorem lambdaObject_ran {kind : CallableKind} {flags : Flags} {object : Option BodyId}
    (hs : s.WellFormed) (hplaced : Placed n s made)
    (hrun : lambdaObject made kind flags location s = .ok object s') :
    Ran n (lambdaObject made kind flags location) s object s' ∧
      n ≤ (object.getD made.function).index ∧
        (object.getD made.function).index < s'.bodies.size := by
  have hbuilt : Built n s.bodyIds made s :=
    ⟨valid_of_wellFormed hs hplaced.bound _, hplaced.outer, hplaced.function⟩
  obtain ⟨hg, hv, hobject⟩ := (lambdaObject_keeps hbuilt kind flags location).of_ok hrun
  refine ⟨⟨hrun, hg, hv.wellFormed⟩, ?_⟩
  cases object with
  | none => exact ⟨hplaced.function.1, Nat.lt_of_lt_of_le hplaced.function.2 hg.bodies⟩
  | some object => exact hobject object rfl

/-- The code body of a plain definition is the generator's, if it is one. -/
theorem plainCodeBody_ran {kind : CallableKind} {d : Surface.Def} {flags : Flags}
    (hs : s.WellFormed) (hplaced : Placed n s made)
    (hrun : plainCodeBody made kind d flags s = .ok c s') :
    Ran n (plainCodeBody made kind d flags) s c s' ∧ n ≤ c.index ∧ c.index < s'.bodies.size := by
  have hbuilt : Built n s.bodyIds made s :=
    ⟨valid_of_wellFormed hs hplaced.bound _, hplaced.outer, hplaced.function⟩
  obtain ⟨hg, hv, hcode⟩ := (plainCodeBody_keeps hbuilt kind d flags).of_ok hrun
  exact ⟨⟨hrun, hg, hv.wellFormed⟩, hcode⟩

/-! ## The steps of lowering -/

inductive LambdaRun (setting : Setting) (b : BodyId) (l : Surface.Lambda) (s : Store)
    (e : IR.Expr) (s' : Store) : Prop
  | intro (made : Callable) (object : Option BodyId) (defaults : List IR.Expr)
    (keywords : Option IR.Expr) (value : IR.Expr) (s₁ s₂ s₃ s₄ s₅ : Store)
    (hbuild : Ran s.bodies.size (buildCallable setting b ((Callee.lambda l).kind setting)
      "<lambda>" none ((Callee.lambda l).flags setting) l.params l.location) s made s₁)
    (hplaced : Placed s.bodies.size s₁ made)
    (hcreate : Ran s.bodies.size (lambdaObject made ((Callee.lambda l).kind setting)
      ((Callee.lambda l).flags setting) l.location) s₁ object s₂)
    (hcode : s.bodies.size ≤ (object.getD made.function).index ∧
      (object.getD made.function).index < s₂.bodies.size)
    (hdefaults : Ran s₂.bodies.size (lowerExprs setting b l.location l.params.defaults) s₂
      defaults s₃)
    (hkeywords : Ran s₃.bodies.size (lowerKeywordMapping setting b made.outer l.location l.params)
      s₃ keywords s₄)
    (hvalue : Ran s₄.bodies.size (lowerExpr setting (object.getD made.function) l.location l.body)
      s₄ value s₅)
    (hattach : Ran s.bodies.size (attachLambda made object value) s₅ () s')
    (hresult : e = creation made defaults keywords none)

inductive PlainRun (setting : Setting) (b : BodyId) (d : Surface.Def) (s : Store)
    (statement : IR.Stmt) (s' : Store) : Prop
  | intro (made : Callable) (code : BodyId) (decorators defaults : List IR.Expr)
    (keywords annotations : Option IR.Expr) (lowered : List IR.Stmt)
    (s₁ s₂ s₃ s₄ s₅ s₆ s₇ s₈ s₉ : Store)
    (hbuild : Ran s.bodies.size (buildCallable setting b ((Callee.define d).kind setting)
      d.name (Surface.docstring? d.body) ((Callee.define d).flags setting) d.params d.location)
      s made s₁)
    (hplaced : Placed s.bodies.size s₁ made)
    (hcreate : Ran s.bodies.size (plainCodeBody made ((Callee.define d).kind setting) d
      ((Callee.define d).flags setting)) s₁ code s₂)
    (hcode : s.bodies.size ≤ code.index ∧ code.index < s₂.bodies.size)
    (hdecorators : Ran s₂.bodies.size (lowerDecorators setting b d.location d.decorators) s₂
      decorators s₃)
    (hdefaults : Ran s₃.bodies.size (lowerExprs setting b d.location d.params.defaults) s₃
      defaults s₄)
    (hkeywords : Ran s₄.bodies.size (lowerKeywordMapping setting b made.outer d.location d.params)
      s₄ keywords s₅)
    (hopen : Ran code.index (openScope code (Surface.undocumented d.body)) s₅ () s₆)
    (hbody : Ran s₆.bodies.size (lowerStmts setting code (Surface.undocumented d.body)) s₆
      lowered s₇)
    (hattach : Ran s.bodies.size (attachCode code (definitionCode false
      ((Callee.define d).kind setting) made.code lowered)) s₇ () s₈)
    (hannotations : Ran s₈.bodies.size
      (lowerAnnotations setting b d.location d.params d.returns) s₈ annotations s₉)
    (hbind : Ran s₉.bodies.size (bindDefinition b d.name
      (decorate (setting.dialect.addImplicit d.name (s₉.body b).kind.scope decorators)
        (creation made defaults keywords annotations))) s₉ statement s')

inductive AsyncRun (setting : Setting) (b : BodyId) (d : Surface.Def) (s : Store)
    (statement : IR.Stmt) (s' : Store) : Prop
  | intro (kind : ObjectKind) (made : Callable) (object : BodyId)
    (decorators defaults : List IR.Expr) (keywords annotations : Option IR.Expr)
    (lowered : List IR.Stmt) (s₁ s₂ s₃ s₄ s₅ s₆ s₇ s₈ s₉ s₁₀ s₁₁ : Store)
    (hkind : asyncObject? ((Callee.define d).kind setting) = some kind)
    (hbuild : Ran s.bodies.size (buildCallable setting b ((Callee.define d).kind setting)
      d.name (Surface.docstring? d.body) {} d.params d.location) s made s₁)
    (hplaced : Placed s.bodies.size s₁ made)
    (hcreate : Ran s.bodies.size (createObject made kind d.name ((Callee.define d).flags setting)
      d.location) s₁ object s₂)
    (hobject : s.bodies.size ≤ object.index ∧ object.index < s₂.bodies.size)
    (hdecorators : Ran s₂.bodies.size (lowerDecorators setting b d.location d.decorators) s₂
      decorators s₃)
    (hdefaults : Ran s₃.bodies.size (lowerExprs setting b d.location d.params.defaults) s₃
      defaults s₄)
    (hopen : Ran object.index (openScope object (Surface.undocumented d.body)) s₄ () s₅)
    (hbody : Ran s₅.bodies.size (lowerStmts setting object (Surface.undocumented d.body)) s₅
      lowered s₆)
    (hattach : Ran s.bodies.size (attachCode object (definitionCode true
      ((Callee.define d).kind setting) made.code lowered)) s₆ () s₇)
    (hannotations : Ran s₇.bodies.size
      (lowerAnnotations setting b d.location d.params d.returns) s₇ annotations s₈)
    (hkeywords : Ran s₈.bodies.size (lowerKeywordMapping setting b made.outer d.location d.params)
      s₈ keywords s₉)
    (hmaker : Ran s.bodies.size (attachCode made.function (manufacture made kind object)) s₉ ()
      s₁₀)
    (hcopy : s₁₁ = s₁₀.copyNonlocals object made.function)
    (hbind : Ran s₁₁.bodies.size (bindDefinition b d.name
      (decorate decorators (creation made defaults keywords annotations))) s₁₁ statement s')

inductive ClassRun (setting : Setting) (b : BodyId) (d : Surface.ClassDef) (s : Store)
    (statement : IR.Stmt) (s' : Store) : Prop
  | intro (decorators bases : List IR.Expr) (lowered : List IR.Stmt) (s₁ s₂ s₄ s₅ s₆ : Store)
    (hdecorators : Ran s.bodies.size (lowerDecorators setting b d.location d.decorators) s
      decorators s₁)
    (hbases : Ran s₁.bodies.size (lowerExprs setting b d.location d.bases) s₁ bases s₂)
    (hcreate : (s₂.createBody (classPlan b d)).2.WellFormed)
    (hopen : Ran s₂.bodies.size (openScope ⟨s₂.bodies.size⟩ (Surface.undocumented d.body))
      (s₂.createBody (classPlan b d)).2 () s₄)
    (hbody : Ran s₄.bodies.size (lowerStmts setting ⟨s₂.bodies.size⟩
      (Surface.undocumented d.body)) s₄ lowered s₅)
    (hattach : Ran s.bodies.size (attachCode ⟨s₂.bodies.size⟩ (.ofStatements lowered)) s₅ () s₆)
    (hbind : Ran s₆.bodies.size (bindDefinition b d.name
      (decorate decorators (.makeClass ⟨s₂.bodies.size⟩ bases))) s₆ statement s')

/-- A sound step that leaves the bodies there are alone. -/
theorem sound_ran {α : Type} {x : Lowering α} {P : α → Prop} {a : α}
    (h : ∀ m, Sound m b x P) (hs : s.WellFormed) (hb : b.index < s.bodies.size)
    (hrun : x s = .ok a s') : Ran s.bodies.size x s a s' ∧ P a :=
  (h s.bodies.size).ran hs hb (Nat.le_refl _) (Nat.le_refl _) hrun

theorem lambdaRun_of_ok {l : Surface.Lambda} {e : IR.Expr} (hs : s.WellFormed)
    (hb : b.index < s.bodies.size) (hrun : lowerLambda setting b l s = .ok e s') :
    LambdaRun setting b l s e s' := by
  obtain ⟨⟨positional, defaultsWritten, star, keywordOnly, keywordDefaults, doubleStar⟩, body,
    place⟩ := l
  rw [lowerLambda] at hrun
  obtain ⟨made, s₁, h₁, hrun⟩ := bind_eq_ok hrun
  obtain ⟨object, s₂, h₂, hrun⟩ := bind_eq_ok hrun
  obtain ⟨defaults, s₃, h₃, hrun⟩ := bind_eq_ok hrun
  obtain ⟨keywords, s₄, h₄, hrun⟩ := bind_eq_ok hrun
  obtain ⟨value, s₅, h₅, hrun⟩ := bind_eq_ok hrun
  obtain ⟨_, s₆, h₆, hrun⟩ := bind_eq_ok hrun
  cases hrun
  obtain ⟨hbuild, hplaced⟩ := buildCallable_ran hs hb h₁
  have hwf₁ := hbuild.wellFormed
  have hb₁ := hbuild.created hb
  obtain ⟨hcreate, hcode⟩ := lambdaObject_ran hwf₁ hplaced h₂
  have hb₂ := hcreate.created hb₁
  obtain ⟨hdefaults, -⟩ := sound_ran (fun m => sound_lowerExprs setting defaultsWritten m b place)
    hcreate.wellFormed hb₂ h₃
  have hb₃ := hdefaults.created hb₂
  obtain ⟨hkeywords, -⟩ := sound_ran (fun m => sound_lowerKeywordMapping (m := m) setting made.outer
    place ⟨positional, defaultsWritten, star, keywordOnly, keywordDefaults, doubleStar⟩)
    hdefaults.wellFormed hb₃ h₄
  have hcode₄ := hkeywords.created (hdefaults.created hcode.2)
  obtain ⟨hvalue, -⟩ := sound_ran (fun m => sound_lowerExpr setting body m _ place)
    hkeywords.wellFormed hcode₄ h₅
  have hattach : Ran s.bodies.size (attachLambda made object value) s₅ () s' := by
    cases object with
    | none => exact (attachCode_ran hvalue.wellFormed rfl hplaced.function.1 h₆).1
    | some object =>
      obtain ⟨_, s₇, h₇, h₈⟩ := bind_eq_ok h₆
      obtain ⟨hran₇, -⟩ := attachCode_ran hvalue.wellFormed rfl hcode.1 h₇
      obtain ⟨hran₈, -⟩ := attachCode_ran hran₇.wellFormed rfl hplaced.function.1 h₈
      exact ⟨h₆, hran₇.grows.trans hran₈.grows (Nat.le_refl _), hran₈.wellFormed⟩
  exact ⟨made, object, defaults, keywords, value, s₁, s₂, s₃, s₄, s₅, hbuild, hplaced, hcreate,
    hcode, hdefaults, hkeywords, hvalue, hattach, rfl⟩

theorem lowerDef_eq (setting : Setting) (b : BodyId) (d : Surface.Def) :
    lowerDef setting b d =
      lowerDefWith setting b d fun c => lowerStmts setting c (Surface.undocumented d.body) := by
  obtain ⟨name, params, body, decorators, returns, isAsync, place⟩ := d
  rw [lowerDef]
  congr 1
  funext c
  exact lowerUndocumented_eq setting c body

theorem lowerClassDef_eq (setting : Setting) (b : BodyId) (d : Surface.ClassDef) :
    lowerClassDef setting b d =
      lowerClassDefWith setting b d fun c =>
        lowerStmts setting c (Surface.undocumented d.body) := by
  obtain ⟨name, bases, body, decorators, place⟩ := d
  rw [lowerClassDef]
  congr 1
  funext c
  exact lowerUndocumented_eq setting c body

/-- Entering a scope: it is opened, and its statements are lowered. -/
theorem frame_of_ok {statements : List Surface.Stmt} {code : CodeObject} {frame : Option IR.Block}
    (hs : s.WellFormed) (hc : c.index < s.bodies.size)
    (hrun : lowerFrameWith c statements code (lowerStmts setting c statements) s = .ok frame s') :
    ∃ lowered s₁, Ran c.index (openScope c statements) s () s₁ ∧
      Ran s₁.bodies.size (lowerStmts setting c statements) s₁ lowered s' ∧
      IR.allQuiet lowered = true ∧ frame = frameOf code lowered := by
  unfold lowerFrameWith at hrun
  obtain ⟨_, s₁, h₁, hrun⟩ := bind_eq_ok hrun
  obtain ⟨lowered, s₂, h₂, hrun⟩ := bind_eq_ok hrun
  cases hrun
  obtain ⟨hopen, -⟩ :=
    (sound_openScope statements).ran hs hc (Nat.le_refl _) (Nat.le_of_lt hc) h₁
  obtain ⟨hbody, hquiet⟩ := sound_ran (fun m => sound_lowerStmts setting statements m c)
    hopen.wellFormed (hopen.created hc) h₂
  exact ⟨lowered, s₁, hopen, hbody, hquiet, rfl⟩

theorem quiet_frameOf {code : CodeObject} {lowered : List IR.Stmt}
    (h : IR.allQuiet lowered = true) : IR.optionQuiet (frameOf code lowered) = true := by
  unfold frameOf
  split
  · rfl
  · exact h

theorem plainRun_of_ok {d : Surface.Def} {statement : IR.Stmt} (hs : s.WellFormed)
    (hb : b.index < s.bodies.size) (hplain : d.isAsync = false)
    (hrun : lowerDef setting b d s = .ok statement s') : PlainRun setting b d s statement s' := by
  rw [lowerDef_eq, lowerDefWith, if_neg (by simp [hplain])] at hrun
  unfold lowerPlainDefWith at hrun
  dsimp only at hrun
  have hstart : (Callee.define d).start = .function := by
    simp [Callee.start, Callee.isAsync, hplain]
  have hkind : (setting.classify (Surface.undocumented d.body) .function).1 =
      (Callee.define d).kind setting := by rw [Callee.kind, hstart]; rfl
  have hflags : (setting.classify (Surface.undocumented d.body) .function).2 =
      (Callee.define d).flags setting := by rw [Callee.flags, hstart]; rfl
  rw [hkind, hflags] at hrun
  obtain ⟨made, s₁, h₁, r₁⟩ := bind_eq_ok hrun
  obtain ⟨code, s₂, h₂, r₂⟩ := bind_eq_ok r₁
  obtain ⟨decorators, s₃, h₃, r₃⟩ := bind_eq_ok r₂
  obtain ⟨defaults, s₄, h₄, r₄⟩ := bind_eq_ok r₃
  obtain ⟨keywords, s₅, h₅, r₅⟩ := bind_eq_ok r₄
  obtain ⟨frame, s₇, h₆, r₆⟩ := bind_eq_ok r₅
  obtain ⟨_, s₈, h₈, r₇⟩ := bind_eq_ok r₆
  obtain ⟨annotations, s₉, h₉, r₈⟩ := bind_eq_ok r₇
  obtain ⟨hbuild, hplaced⟩ := buildCallable_ran hs hb h₁
  have hb₁ := hbuild.created hb
  obtain ⟨hcreate, hcode⟩ := plainCodeBody_ran hbuild.wellFormed hplaced h₂
  have hb₂ := hcreate.created hb₁
  obtain ⟨hdecorators, -⟩ := sound_ran (fun m => sound_lowerExprs setting d.decorators.reverse m b
    d.location) hcreate.wellFormed hb₂ h₃
  have hb₃ := hdecorators.created hb₂
  obtain ⟨hdefaults, -⟩ := sound_ran (fun m => sound_lowerExprs setting d.params.defaults m b
    d.location) hdecorators.wellFormed hb₃ h₄
  have hb₄ := hdefaults.created hb₃
  obtain ⟨hkeywords, -⟩ := sound_ran (fun m => sound_lowerKeywordMapping (m := m) setting made.outer
    d.location d.params) hdefaults.wellFormed hb₄ h₅
  have hcode₅ := hkeywords.created (hdefaults.created (hdecorators.created hcode.2))
  obtain ⟨lowered, s₆, hopen, hbody, hquiet, rfl⟩ := frame_of_ok hkeywords.wellFormed hcode₅ h₆
  have hb₇ := hbody.created (hopen.created (hkeywords.created hb₄))
  obtain ⟨hattach, -⟩ := attachCode_ran hbody.wellFormed
    (quiet_plainCode _ (quiet_frameOf hquiet)) hcode.1 h₈
  have hb₈ := hattach.created hb₇
  obtain ⟨hannotations, -⟩ := sound_ran (fun m => sound_lowerAnnotations (m := m) setting d.location
    d.params d.returns) hattach.wellFormed hb₈ h₉
  obtain ⟨scope, s₁₀, h₁₀, r₉⟩ := bind_eq_ok r₈
  cases h₁₀
  obtain ⟨hbind, -⟩ := sound_ran (fun m => sound_bindDefinition (m := m) d.name _)
    hannotations.wellFormed (hannotations.created hb₈) r₉
  exact ⟨made, code, decorators, defaults, keywords, annotations, lowered, s₁, s₂, s₃, s₄, s₅, s₆,
    s₇, s₈, s₉, hbuild, hplaced, hcreate, hcode, hdecorators, hdefaults, hkeywords, hopen, hbody,
    hattach, hannotations, hbind⟩

theorem asyncRun_of_ok {d : Surface.Def} {statement : IR.Stmt} (hs : s.WellFormed)
    (hb : b.index < s.bodies.size) (hasync : d.isAsync = true)
    (hrun : lowerDef setting b d s = .ok statement s') : AsyncRun setting b d s statement s' := by
  rw [lowerDef_eq, lowerDefWith, if_pos hasync] at hrun
  unfold lowerAsyncDefWith at hrun
  dsimp only at hrun
  have hstart : (Callee.define d).start = .coroutine := by
    simp [Callee.start, Callee.isAsync, hasync]
  have hkind : (setting.classify (Surface.undocumented d.body) .coroutine).1 =
      (Callee.define d).kind setting := by rw [Callee.kind, hstart]; rfl
  have hflags : (setting.classify (Surface.undocumented d.body) .coroutine).2 =
      (Callee.define d).flags setting := by rw [Callee.flags, hstart]; rfl
  rw [hkind, hflags] at hrun
  cases hobjectKind : asyncObject? ((Callee.define d).kind setting) with
  | none =>
    rw [hobjectKind] at hrun
    cases hrun
  | some kind =>
    rw [hobjectKind] at hrun
    obtain ⟨made, s₁, h₁, r₁⟩ := bind_eq_ok hrun
    obtain ⟨object, s₂, h₂, r₂⟩ := bind_eq_ok r₁
    obtain ⟨decorators, s₃, h₃, r₃⟩ := bind_eq_ok r₂
    obtain ⟨defaults, s₄, h₄, r₄⟩ := bind_eq_ok r₃
    obtain ⟨frame, s₆, h₅, r₅⟩ := bind_eq_ok r₄
    obtain ⟨_, s₇, h₇, r₆⟩ := bind_eq_ok r₅
    obtain ⟨annotations, s₈, h₈, r₇⟩ := bind_eq_ok r₆
    obtain ⟨keywords, s₉, h₉, r₈⟩ := bind_eq_ok r₇
    obtain ⟨_, s₁₀, h₁₀, r₉⟩ := bind_eq_ok r₈
    obtain ⟨hbuild, hplaced⟩ := buildCallable_ran hs hb h₁
    have hb₁ := hbuild.created hb
    have hcreate := createObject_ran hbuild.wellFormed hplaced.bound hplaced.outer
      hplaced.function h₂
    obtain ⟨hself, hsize, -⟩ := createObject_planned h₂ (Store.Grows.refl 0 s₂)
    have hobject : s.bodies.size ≤ object.index ∧ object.index < s₂.bodies.size := by
      rw [hself, hsize]
      exact ⟨hplaced.bound, Nat.lt_succ_self _⟩
    have hb₂ := hcreate.created hb₁
    obtain ⟨hdecorators, -⟩ := sound_ran (fun m => sound_lowerExprs setting d.decorators.reverse m b
      d.location) hcreate.wellFormed hb₂ h₃
    have hb₃ := hdecorators.created hb₂
    obtain ⟨hdefaults, -⟩ := sound_ran (fun m => sound_lowerExprs setting d.params.defaults m b
      d.location) hdecorators.wellFormed hb₃ h₄
    have hobject₄ := hdefaults.created (hdecorators.created hobject.2)
    obtain ⟨lowered, s₅, hopen, hbody, hquiet, rfl⟩ := frame_of_ok hdefaults.wellFormed hobject₄ h₅
    obtain ⟨hattach, -⟩ := attachCode_ran hbody.wellFormed
      (quiet_closeWith rfl (quiet_frameOf hquiet)) hobject.1 h₇
    have hb₇ := hattach.created (hbody.created (hopen.created (hdefaults.created hb₃)))
    obtain ⟨hannotations, -⟩ := sound_ran (fun m => sound_lowerAnnotations (m := m) setting
      d.location d.params d.returns) hattach.wellFormed hb₇ h₈
    have hb₈ := hannotations.created hb₇
    obtain ⟨hkeywords, -⟩ := sound_ran (fun m => sound_lowerKeywordMapping (m := m) setting
      made.outer d.location d.params) hannotations.wellFormed hb₈ h₉
    obtain ⟨hmaker, -⟩ := attachCode_ran hkeywords.wellFormed rfl hplaced.function.1 h₁₀
    have hb₁₀ := hmaker.created (hkeywords.created hb₈)
    obtain ⟨hbind, -⟩ := sound_ran (fun m => sound_bindDefinition (m := m) d.name _)
      (IR.Store.WellFormed.copyNonlocals hmaker.wellFormed)
      (by rw [Store.copyNonlocals, Store.size_bodies_modifyBody]; exact hb₁₀) r₉
    exact ⟨kind, made, object, decorators, defaults, keywords, annotations, lowered, s₁, s₂, s₃, s₄,
      s₅, s₆, s₇, s₈, s₉, s₁₀, _, hobjectKind, hbuild, hplaced, hcreate, hobject, hdecorators,
      hdefaults, hopen, hbody, hattach, hannotations, hkeywords, hmaker, rfl, hbind⟩

theorem classRun_of_ok {d : Surface.ClassDef} {statement : IR.Stmt} (hs : s.WellFormed)
    (hb : b.index < s.bodies.size) (hrun : lowerClassDef setting b d s = .ok statement s') :
    ClassRun setting b d s statement s' := by
  rw [lowerClassDef_eq] at hrun
  unfold lowerClassDefWith at hrun
  obtain ⟨decorators, s₁, h₁, r₁⟩ := bind_eq_ok hrun
  obtain ⟨bases, s₂, h₂, r₂⟩ := bind_eq_ok r₁
  obtain ⟨body, s₃, h₃, r₃⟩ := bind_eq_ok r₂
  obtain ⟨_, s₄, h₄, r₄⟩ := bind_eq_ok r₃
  obtain ⟨lowered, s₅, h₅, r₅⟩ := bind_eq_ok r₄
  obtain ⟨_, s₆, h₆, r₆⟩ := bind_eq_ok r₅
  obtain ⟨hdecorators, -⟩ := sound_ran (fun m => sound_lowerExprs setting d.decorators.reverse m b
    d.location) hs hb h₁
  have hb₁ := hdecorators.created hb
  obtain ⟨hbases, -⟩ := sound_ran (fun m => sound_lowerExprs setting d.bases m b d.location)
    hdecorators.wellFormed hb₁ h₂
  have hb₂ := hbases.created hb₁
  cases h₃
  have hcreate : (s₂.createBody (classPlan b d)).2.WellFormed :=
    hbases.wellFormed.createBody (fun p hp => by cases hp; exact hb₂) (by simp [classPlan])
      (by simp [classPlan]) List.nodup_nil
  have hgrows : Store.Grows s₂.bodies.size s₂ (s₂.createBody (classPlan b d)).2 :=
    Store.Grows.createBody s₂ (classPlan b d)
  have hlt : s₂.bodies.size < (s₂.createBody (classPlan b d)).2.bodies.size := by simp
  have hlow : s.bodies.size ≤ s₂.bodies.size :=
    Nat.le_trans hdecorators.grows.bodies hbases.grows.bodies
  obtain ⟨hopen, -⟩ := (sound_openScope (Surface.undocumented d.body)).ran
    (b := ⟨s₂.bodies.size⟩) hcreate hlt (Nat.le_refl _) (Nat.le_of_lt hlt) h₄
  have hlt₄ := hopen.created (b := ⟨s₂.bodies.size⟩) hlt
  obtain ⟨hbody, hquiet⟩ := sound_ran (fun m => sound_lowerStmts setting
    (Surface.undocumented d.body) m ⟨s₂.bodies.size⟩) hopen.wellFormed hlt₄ h₅
  have hquiet : (IR.Block.ofStatements lowered).quiet = true := hquiet
  obtain ⟨hattach, -⟩ := attachCode_ran (n := s.bodies.size) hbody.wellFormed hquiet hlow h₆
  have hb₆ := hattach.created (hbody.created (hopen.created
    (Nat.lt_of_lt_of_le hb₂ hgrows.bodies)))
  obtain ⟨hbind, -⟩ := sound_ran (fun m => sound_bindDefinition (m := m) d.name _)
    hattach.wellFormed hb₆ r₆
  exact ⟨decorators, bases, lowered, s₁, s₂, s₄, s₅, s₆, hdecorators, hbases, hcreate, hopen,
    hbody, hattach, hbind⟩

end Lowering

end DefinitionLowering
