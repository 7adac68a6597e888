import DefinitionLowering.Proofs.Executions
import DefinitionLowering.Proofs.Suspension

/-!
# Lowering preserves control flow

`Surface.Runs` is the run of written statements under an oracle.  `executes_of_runs` is the
simulation: what the statements were lowered to runs under the same oracle, with the same actions,
and leaves in the corresponding way.  The code of a definition adds a last `return` where control
gets to the end, and the releases of its variables; `LoweredModule.preserves_control` says so of
every definition of a module, however deep it stands.
-/

namespace DefinitionLowering

open IR (BodyId VariableId Store)

/-! ## Written code -/

namespace Surface

/-- How control leaves written statements. -/
inductive Leaving where
  /-- By falling off their end. -/
  | falls
  | returns (hasValue : Bool)
  | raises (hasValue : Bool)
  /-- An evaluation raised. -/
  | fails
  deriving DecidableEq, Repr

/-- How a statement leaves when nothing in it has raised, if control does not go on. -/
def StmtKind.leaving? : StmtKind → Option Leaving
  | .ret value => some (.returns value.isSome)
  | .raise value => some (.raises value.isSome)
  | _ => none

/-- The statements inside a statement that run next, given whether its test holds. -/
def Stmt.next (holds : Bool) : Stmt → List Stmt
  | ⟨.branch _ body orelse, _⟩ => if holds then body else orelse
  | ⟨.loop test body, location⟩ => if holds then body ++ [⟨.loop test body, location⟩] else []
  | _ => []

/-- The run of some statements after a history of actions. -/
inductive Runs (dialect : Dialect) (spell : String → String) (o : Oracle) :
    List Action → List Stmt → List Action → Leaving → Prop
  | ends {history} : Runs dialect spell o history [] [] .falls
  | fails {history first rest done}
      (h : o.failure? history (Stmt.actions dialect spell first) = some done) :
      Runs dialect spell o history (first :: rest) done .fails
  | leaves {history first rest leaving}
      (h : o.failure? history (Stmt.actions dialect spell first) = none)
      (hleaves : first.kind.leaving? = some leaving) :
      Runs dialect spell o history (first :: rest) (first.actions dialect spell) leaving
  | goesOn {history first rest more leaving}
      (h : o.failure? history (Stmt.actions dialect spell first) = none)
      (hleaves : first.kind.leaving? = none)
      (hrest : Runs dialect spell o (history ++ first.actions dialect spell ++ first.bindings spell)
        (first.next (o.holds (history ++ first.actions dialect spell)) ++ rest) more leaving) :
      Runs dialect spell o history (first :: rest)
        (first.actions dialect spell ++ first.bindings spell ++ more) leaving

/-- A definition stands in some statements, or in a definition or a class in them. -/
inductive Defines (d : Def) : List Stmt → Prop
  | here {statements location} (h : ⟨.define d, location⟩ ∈ stmtsWithin statements) :
    Defines d statements
  | define {statements outer location} (h : ⟨.define outer, location⟩ ∈ stmtsWithin statements)
    (hin : Defines d outer.body) : Defines d statements
  | defineClass {statements outer location}
    (h : ⟨.defineClass outer, location⟩ ∈ stmtsWithin statements) (hin : Defines d outer.body) :
    Defines d statements

/-- What follows from leaving statements in the body of a callable: a `return` leaves a function
and ends an object. -/
def Leaving.within (kind : CallableKind) : Leaving → IR.Departure
  | .falls => .ends
  | .returns hasValue =>
    match kind with
    | .function => if hasValue then .ret else .retNone
    | .suspended _ => if hasValue then .objectRet else .objectRetNone
  | .raises hasValue => .raises hasValue
  | .fails => .fails

/-- How the code of a callable is left: where control falls off the end, a function returns, an
asynchronous object ends by a `return`, and a generator simply ends. -/
def Leaving.final (kind : CallableKind) : Leaving → IR.Departure
  | .falls =>
    match kind with
    | .function => .retNone
    | .generator => .ends
    | .coroutine | .asyncGenerator => .objectRetNone
  | leaving => leaving.within kind

end Surface

namespace Lowering

variable {setting : Setting} {t : Store} {b : BodyId} {first : Surface.Stmt} {statement : IR.Stmt}
  {kind : CallableKind} {o : Oracle} {history actions : List Action}
  {statements : List Surface.Stmt} {lowered : List IR.Stmt} {leaving : Surface.Leaving}

/-! ## One statement -/

/-- A statement leaves as the written one does. -/
theorem StmtCounterpart.departure
    (h : StmtCounterpart setting t b first.location first.kind (some statement))
    (hkind : (t.body b).kind = .callable kind) :
    statement.departure? = first.kind.leaving?.map (Surface.Leaving.within kind) := by
  generalize first.kind = written at h ⊢
  cases h with
  | @binds written _ _ _ hname _ hbinds =>
    cases hbinds <;> cases written <;> first | rfl | cases hname
  | ret _ _ hvalue =>
    have hsome := isSome_option hvalue
    rw [hkind, Surface.StmtKind.leaving?, ← hsome]
    rename_i value' _ _
    cases value' <;> cases kind <;> rfl
  | raise hvalue =>
    rw [Surface.StmtKind.leaving?, ← isSome_option hvalue]
    rfl
  | _ => rfl

/-- Nothing that is written is a `try`. -/
theorem StmtCounterpart.isTry
    (h : StmtCounterpart setting t b first.location first.kind (some statement)) :
    statement.isTry = false := by
  generalize first.kind = written at h
  cases h with
  | binds _ _ hbinds => cases hbinds <;> rfl
  | ret =>
    exact returnStmt_of_forms (P := fun s => s.isTry = false) _ _ (fun _ => rfl) rfl (fun _ => rfl)
      rfl
  | _ => rfl

theorem statementsOf_ofNonempty (statements : List IR.Stmt) :
    IR.Block.statementsOf (IR.Block.ofNonempty? statements) = statements := by
  cases statements <;> rfl

/-- What runs next inside a statement was lowered from what runs next inside the written one. -/
theorem StmtCounterpart.next
    (h : StmtCounterpart setting t b first.location first.kind (some statement))
    (ht : t.WellFormed) (holds : Bool) :
    StmtsTo setting t b (first.next holds) (statement.next holds) := by
  obtain ⟨written, location⟩ := first
  have hself := h
  cases h with
  | @branch _ body orelse _ yes no _ hyes hno =>
    cases holds
    · show StmtsTo setting t b orelse (IR.Block.statementsOf (IR.Block.ofNonempty? no))
      rw [statementsOf_ofNonempty]
      exact stmtsTo_of_gave ht hno
    · show StmtsTo setting t b body (IR.Block.statementsOf (IR.Block.ofNonempty? yes))
      rw [statementsOf_ofNonempty]
      exact stmtsTo_of_gave ht hyes
  | @loop test body condition inner _ hbody =>
    cases holds
    · exact .nil
    · show StmtsTo setting t b (body ++ [⟨.loop test body, location⟩])
        (IR.Block.statementsOf (IR.Block.ofNonempty? inner) ++ [_])
      rw [statementsOf_ofNonempty]
      exact (stmtsTo_of_gave ht hbody).append hself.single
  | @binds written _ _ _ hname _ hbinds =>
    cases hbinds <;> cases written <;> first | exact .nil | cases hname
  | ret =>
    exact returnStmt_of_forms (P := fun s => StmtsTo setting t b [] (s.next holds)) _ _
      (fun _ => .nil) .nil (fun _ => .nil) .nil
  | _ => exact .nil

/-- A statement that leaves nothing behind does nothing. -/
theorem StmtCounterpart.nothing (h : StmtCounterpart setting t b first.location first.kind none)
    (spell : String → String) (holds : Bool) :
    first.actions setting.dialect spell = [] ∧ first.bindings spell = [] ∧
      first.kind.leaving? = none ∧ first.next holds = [] := by
  obtain ⟨written, location⟩ := first
  cases h with
  | idle h => cases written <;> first | exact ⟨rfl, rfl, rfl, rfl⟩ | cases h

/-! ## Runs -/

/-- **Lowered statements run as the written ones**: under the same oracle they do the same in the
same order, and leave in the corresponding way. -/
theorem executes_of_runs (ht : t.WellFormed) (hkind : (t.body b).kind = .callable kind)
    (h : Surface.Runs setting.dialect (t.spell b) o history statements actions leaving) :
    ∀ {lowered : List IR.Stmt}, StmtsTo setting t b statements lowered →
      IR.Executes t.labels o history lowered actions (leaving.within kind) := by
  induction h with
  | ends =>
    intro lowered hto
    cases hto
    exact .ends
  | fails h =>
    intro lowered hto
    cases hto with
    | @cons _ _ out _ hfirst hrest =>
      cases out with
      | none =>
        rw [(hfirst.nothing _ false).1] at h
        cases h
      | some statement =>
        rw [← hfirst.actions ht] at h
        exact .fails h
  | leaves h hleaves =>
    intro lowered hto
    cases hto with
    | @cons _ _ out _ hfirst hrest =>
      cases out with
      | none =>
        rw [(hfirst.nothing (t.spell b) false).2.2.1] at hleaves
        cases hleaves
      | some statement =>
        rw [← hfirst.actions ht] at h ⊢
        exact .leaves h (by rw [hfirst.departure hkind, hleaves]; rfl)
  | @goesOn history first rest more leaving h hleaves _ ih =>
    intro lowered hto
    cases hto with
    | @cons _ _ out _ hfirst hrest =>
      cases out with
      | none =>
        obtain ⟨hactions, hbindings, -, hnext⟩ := hfirst.nothing (t.spell b)
          (o.holds (history ++ first.actions setting.dialect (t.spell b)))
        rw [hnext, hactions, hbindings] at ih
        rw [hactions, hbindings]
        simpa using ih hrest
      | some statement =>
        rw [← hfirst.actions ht, ← hfirst.effects] at ih ⊢
        rw [← hfirst.actions ht] at h
        exact .goesOn h (by rw [hfirst.departure hkind, hleaves]; rfl) hfirst.isTry
          (ih ((hfirst.next ht _).append hrest))

/-- The last statement of a definition's code is where control falls off the end. -/
theorem executes_closing {labels : IR.Labels} (history : List Action) (kind : CallableKind) :
    IR.Executes labels o history (closing kind.isAsync kind).toList []
      (Surface.Leaving.falls.final kind) := by
  cases kind with
  | function => exact .leaves rfl rfl
  | suspended object =>
    cases object with
    | generator => exact .ends
    | coroutine | asyncGenerator => exact .leaves rfl rfl

/-- **The code of a definition runs as its statements.** -/
theorem executes_definitionCode {labels : IR.Labels} {code : CodeObject} {isAsync : Bool}
    (h : IR.Executes labels o history lowered actions (leaving.within kind))
    (hasync : kind.isAsync = isAsync) :
    IR.Executes labels o history (definitionCode isAsync kind code lowered).statements actions
      (leaving.final kind) := by
  subst hasync
  rw [statements_definitionCode]
  by_cases hfalls : leaving = .falls
  · subst hfalls
    rw [if_neg fun haborts => h.not_ends haborts rfl]
    simpa using h.append rfl (executes_closing _ kind)
  · have hfinal : leaving.final kind = leaving.within kind := by
      cases leaving <;> first | rfl | exact absurd rfl hfalls
    have hleaves : leaving.within kind ≠ .ends := by
      cases leaving with
      | falls => exact absurd rfl hfalls
      | returns hasValue => cases kind <;> cases hasValue <;> exact nofun
      | raises | fails => exact nofun
    rw [hfinal]
    split
    · exact h
    · exact h.append_left hleaves _

/-- The code of a definition runs as its statements, whatever holds it. -/
theorem CodeOf.executes {dialect : Dialect} {d : Surface.Def} {made : Callable}
    {object : Option BodyId} {block : IR.Block}
    (h : CodeOf (.ofDialect dialect) t made object (.define d) block) (ht : t.WellFormed)
    (hkind : (t.body (codeBody made object)).kind =
      .callable ((Callee.define d).kind (.ofDialect dialect)))
    (hrun : Surface.Runs dialect (t.spell (codeBody made object)) o history
      (Surface.undocumented d.body) actions leaving) :
    IR.Executes t.labels o history block.statements actions
      (leaving.final ((Callee.define d).kind (.ofDialect dialect))) := by
  cases h with
  | define lowered hgave =>
    exact executes_definitionCode (executes_of_runs ht hkind hrun (stmtsTo_of_gave ht hgave))
      (Callee.isAsync_kind _)

/-! ## Definitions of a module -/

/-- A documentation string is no definition. -/
theorem mem_within_undocumented {statement : Surface.Stmt}
    (h : statement ∈ Surface.stmtsWithin statements) (hdoc : statement.docstring? = none) :
    statement ∈ Surface.stmtsWithin (Surface.undocumented statements) := by
  cases statements with
  | nil => exact h
  | cons first rest =>
    rw [Surface.undocumented]
    split
    · rename_i hsome
      rw [Surface.stmtsWithin, List.mem_append] at h
      refine h.resolve_left fun hfirst => ?_
      unfold Surface.Stmt.docstring? at hsome
      split at hsome
      · rw [Surface.Stmt.within, List.mem_singleton] at hfirst
        rw [hfirst] at hdoc
        cases hdoc
      · cases hsome
    · exact h

/-- Every step of some statements was lowered. -/
theorem exists_stepTo {step : Surface.Step} (ht : t.WellFormed)
    (h : Gave t b (lowerStmts setting b statements) lowered)
    (hmem : first ∈ Surface.stmtsWithin statements)
    (hstep : step ∈ first.steps setting.dialect) : ∃ e, StepTo setting t b step e := by
  obtain ⟨e, -, he⟩ := ((within_stmts ht statements h).steps ht).exists_of_written
    (List.mem_flatMap.2 ⟨first, hmem, hstep⟩)
  exact ⟨e, he⟩

theorem create_mem_steps (dialect : Dialect) (d : Surface.Def) (location : Location) :
    .create d ∈ (Surface.Stmt.mk (.define d) location).steps dialect := by
  simp [Surface.Stmt.steps, Surface.StmtKind.steps, Surface.Def.steps]

theorem createClass_mem_steps (dialect : Dialect) (d : Surface.ClassDef) (location : Location) :
    .createClass d ∈ (Surface.Stmt.mk (.defineClass d) location).steps dialect := by
  simp [Surface.Stmt.steps, Surface.StmtKind.steps, Surface.ClassDef.steps]

theorem callableAt_of_mem {d : Surface.Def} {location : Location} (ht : t.WellFormed)
    (h : Gave t b (lowerStmts setting b (Surface.undocumented statements)) lowered)
    (hmem : ⟨.define d, location⟩ ∈ Surface.stmtsWithin statements) :
    ∃ made object, CallableAt setting t (.define d) b made object := by
  obtain ⟨e, hcreate⟩ := exists_stepTo ht h (mem_within_undocumented hmem rfl)
    (create_mem_steps setting.dialect d location)
  cases hcreate with
  | create hcreated =>
    obtain ⟨made, object, _, _, _, hcallable, -, -, -⟩ := hcreated
    exact ⟨made, object, hcallable⟩

/-- **Every definition was lowered**, however deep it stands. -/
theorem callableAt_of_defines {d : Surface.Def} (ht : t.WellFormed)
    (hd : Surface.Defines d statements) : ∀ {b : BodyId} {lowered : List IR.Stmt},
      Gave t b (lowerStmts setting b (Surface.undocumented statements)) lowered →
        ∃ provider made object, CallableAt setting t (.define d) provider made object := by
  induction hd with
  | here hmem =>
    intro b lowered h
    exact ⟨b, callableAt_of_mem ht h hmem⟩
  | define hmem _ ih =>
    intro b lowered h
    obtain ⟨made, object, hcallable⟩ := callableAt_of_mem ht h hmem
    obtain ⟨_, _, hcode⟩ := hcallable.code
    cases hcode with
    | define _ hbody => exact ih hbody
  | @defineClass statements outer location hmem _ ih =>
    intro b lowered h
    obtain ⟨e, hcreate⟩ := exists_stepTo ht h (mem_within_undocumented hmem rfl)
      (createClass_mem_steps setting.dialect outer location)
    cases hcreate with
    | createClass hclass =>
      obtain ⟨_, hbody, -⟩ := hclass.code
      exact ih hbody

/-- The body of a callable's statements has its name, or that of a delegate. -/
theorem CallableAt.codeBody_name {callee : Callee} {made : Callable} {object : Option BodyId}
    (h : CallableAt setting t callee b made object) :
    (t.body (codeBody made object)).name = callee.name ∨
      (t.body (codeBody made object)).name = delegateName callee.name := by
  cases object with
  | some o =>
    obtain ⟨_, -, hobject⟩ := h.objectAt
    exact Or.inl hobject.planned.name
  | none =>
    rcases h.stands.function with ⟨-, heq⟩ | ⟨-, hplanned, -⟩
    · rw [codeBody, Option.getD_none, heq]
      exact Or.inl h.stands.outer.name
    · exact Or.inr hplanned.name

theorem CallableAt.codeBody_location {callee : Callee} {made : Callable} {object : Option BodyId}
    (h : CallableAt setting t callee b made object) :
    (t.body (codeBody made object)).location = callee.location := by
  cases object with
  | some o =>
    obtain ⟨_, -, hobject⟩ := h.objectAt
    exact hobject.planned.location
  | none =>
    rcases h.stands.function with ⟨-, heq⟩ | ⟨-, hplanned, -⟩
    · rw [codeBody, Option.getD_none, heq]
      exact h.stands.outer.location
    · exact hplanned.location

end Lowering

variable {dialect : Dialect} {m : Surface.Module} {lowered : LoweredModule} {t : Store}

theorem Finished.labels (h : Finished t lowered) : lowered.store.labels = t.labels := by
  have hbody : ∀ b, (lowered.store.body b).name = (t.body b).name ∧
      (lowered.store.body b).location = (t.body b).location := by
    intro b
    obtain ⟨code, hb⟩ := h.body_eq b
    rw [hb]
    exact ⟨rfl, rfl⟩
  simp only [Store.labels, h.var, hbody]

theorem Finished.spell (h : Finished t lowered) (b : BodyId) :
    lowered.store.spell b = t.spell b :=
  funext fun _ => Store.spell_congr h.bodies h.kind h.provider fun c => by
    obtain ⟨code, hc⟩ := h.body_eq c
    rw [hc]

/-- **Lowering preserves control flow.**  Whatever an oracle decides, the statements of a
definition and the code of its body do the same in the same order and leave in the corresponding
way, but that in the end the body releases its variables.  Decorators of the runtime, which an
oracle is not asked about, come from rules for function scopes only. -/
theorem LoweredModule.preserves_control
    (h : LoweredModule.ofSurface (.ofDialect dialect) m = .ok lowered) {d : Surface.Def}
    (hd : Surface.Defines d m.body) :
    ∃ b block, (lowered.store.body b).code = some block ∧
      ((lowered.store.body b).name = d.name ∨
        (lowered.store.body b).name = delegateName d.name) ∧
      (lowered.store.body b).location = d.location ∧
      (lowered.store.body b).kind = .callable ((Callee.define d).kind (.ofDialect dialect)) ∧
      (∀ (o : Oracle) (actions : List Action) (leaving : Surface.Leaving),
        Surface.Runs dialect (lowered.store.spell b) o [] (Surface.undocumented d.body) actions
          leaving →
        ∀ (actions' : List Action) (departure : IR.Departure),
          IR.Executes lowered.store.labels o [] block.statements actions' departure ↔
            actions' = actions ++ (lowered.store.ownVariables b).map .release ∧
              departure = leaving.final ((Callee.define d).kind (.ofDialect dialect))) ∧
      ∀ name, .builtin name ∈ block.terms → dialect.Implies .functionScope name := by
  obtain ⟨t, hprepared, hfinished⟩ := LoweredModule.prepared h
  have ht := hprepared.valid.wellFormed
  obtain ⟨_, hroot, -⟩ := hprepared.code
  obtain ⟨provider, made, object, hcallable⟩ := Lowering.callableAt_of_defines ht hd hroot
  obtain ⟨block, hcode, hof⟩ := hcallable.code
  have hkind := hcallable.codeBody_kind
  rw [Callee.bodyKind_eq] at hkind
  have hne : Lowering.codeBody made object ≠ ⟨0⟩ := fun hzero => by
    rw [hzero, hprepared.root.kind] at hkind
    cases hkind
  obtain ⟨final, hfinal, hcases⟩ := hfinished.code hne hcode
  obtain ⟨code, hbody⟩ := hfinished.body_eq (Lowering.codeBody made object)
  refine ⟨Lowering.codeBody made object, final, hfinal, ?_, ?_, ?_, ?_, ?_⟩
  · rw [hbody]
    exact hcallable.codeBody_name
  · rw [hbody]
    exact hcallable.codeBody_location
  · rw [hbody]
    exact hkind
  · intro o actions leaving hrun actions' departure
    rw [hfinished.spell] at hrun
    rw [hfinished.labels, hfinished.ownVariables]
    have hexecutes := hof.executes ht hkind hrun
    have hreleased : IR.Executes t.labels o [] final.statements
        (actions ++ (t.ownVariables (Lowering.codeBody made object)).map .release)
        (leaving.final ((Callee.define d).kind (.ofDialect dialect))) := by
      rcases hcases with ⟨rfl, hempty⟩ | rfl
      · rwa [hempty, List.map_nil, List.append_nil]
      · exact IR.executes_releasing hexecutes _
    constructor
    · exact hreleased.unique
    · rintro ⟨rfl, rfl⟩
      exact hreleased
  · intro name hname
    have hname : .builtin name ∈ block.terms := by
      rcases hcases with ⟨rfl, -⟩ | rfl
      · exact hname
      · rwa [IR.Block.terms_releasing] at hname
    have himplies := (hof.steps ht).implies ht (IR.Block.mem_steps.2 ⟨hname, rfl⟩)
    rw [hkind] at himplies
    exact himplies

/-- The function `f` of a module with a loop that a `return` leaves:

    class K:
      def f(x):
        while x:
          pass
          y = g(x)
          if y: return y
-/
def searching : Surface.Def where
  name := "f"
  params := ⟨[.name ⟨"x", none⟩], [], none, [], [], none⟩
  body :=
    [⟨.loop (.name "x")
      [⟨.pass, ⟨4, 6⟩⟩,
       ⟨.assign "y" (.call (.name "g") [.name "x"]), ⟨5, 6⟩⟩,
       ⟨.branch (.name "y") [⟨.ret (some (.name "y")), ⟨6, 12⟩⟩] [], ⟨6, 6⟩⟩], ⟨3, 4⟩⟩]
  decorators := []
  returns := none
  isAsync := false
  location := ⟨2, 2⟩

def searchingModule : Surface.Module where
  name := "m"
  filename := "m.py"
  future := ⟨false, false, false, false, false⟩
  body := [⟨.defineClass ⟨"K", [], [⟨.define searching, ⟨2, 2⟩⟩], [], ⟨1, 0⟩⟩, ⟨1, 0⟩⟩]

/-- What the function does when nothing raises and every test holds. -/
def searchingActions (spell : String → String) : List Action :=
  [.name (spell "x"), .name (spell "g"), .name (spell "x"), .call 1, .bind (spell "y"),
   .name (spell "y"), .name (spell "y")]

theorem runs_searching (spell : String → String) :
    Surface.Runs .modern spell ⟨fun _ => false, fun _ => true⟩ []
      (Surface.undocumented searching.body) (searchingActions spell) (.returns true) :=
  .goesOn rfl rfl (.goesOn rfl rfl (.goesOn rfl rfl (.goesOn rfl rfl (.leaves rfl rfl))))

/-- The function returns from inside the loop, and its variables are released. -/
theorem LoweredModule.searchingModule_preserves_control :
    ∃ lowered b block, LoweredModule.ofSurface (.ofDialect .modern) searchingModule = .ok lowered ∧
      (lowered.store.body b).code = some block ∧
      IR.Executes lowered.store.labels ⟨fun _ => false, fun _ => true⟩ [] block.statements
        (searchingActions (lowered.store.spell b) ++
          (lowered.store.ownVariables b).map .release) .ret := by
  have hsucceeds : succeedsWith (fun _ => true)
      (LoweredModule.ofSurface (.ofDialect .modern) searchingModule) = true := by
    decide +kernel
  obtain ⟨lowered, h, -⟩ := exists_of_succeedsWith hsucceeds
  have hd : Surface.Defines searching searchingModule.body :=
    .defineClass (List.mem_singleton.2 rfl) (.here (List.mem_singleton.2 rfl))
  obtain ⟨b, block, hcode, -, -, -, hruns, -⟩ := LoweredModule.preserves_control h hd
  exact ⟨lowered, b, block, h, hcode,
    (hruns _ _ _ (runs_searching (lowered.store.spell b)) _ _).2 ⟨rfl, rfl⟩⟩

end DefinitionLowering
