import DefinitionLowering.Proofs.Actions

/-!
# Running lowered code under an oracle

An `Oracle` decides, whenever something has been evaluated, whether that raises, and whether it
holds if it is a test; it knows everything that happened before.  `Executes` is the run of
lowered statements under an oracle, with its actions and how control leaves (`Departure`).

A run is the only one (`Executes.unique`).  Code that aborts is never run to its end
(`Executes.not_ends`), and code that releases variables at its end does so however it is left
(`executes_releasing`).
-/

namespace DefinitionLowering

open IR (BodyId VariableId Store)

/-- What happens at the last of some actions. -/
structure Oracle where
  raises : List Action → Bool
  holds : List Action → Bool

/-- The evaluations up to the one that raises, if one of them does. -/
def Oracle.failure? (o : Oracle) (history : List Action) : List Action → Option (List Action)
  | [] => none
  | first :: rest =>
    if o.raises (history ++ [first]) then some [first]
    else (o.failure? (history ++ [first]) rest).map (first :: ·)

namespace IR

/-- How control leaves lowered statements. -/
inductive Departure where
  /-- By reaching their end. -/
  | ends
  | ret
  | retNone
  | objectRet
  | objectRetNone
  | raises (hasValue : Bool)
  /-- An evaluation raised. -/
  | fails
  deriving DecidableEq, Repr

/-- A `finally` part that leaves in its own way takes over. -/
def Departure.or : Departure → Departure → Departure
  | .ends, departure => departure
  | departure, _ => departure

theorem Departure.or_ne_ends {departure : Departure} (h : departure ≠ .ends)
    (cleanup : Departure) : cleanup.or departure ≠ .ends := by
  cases cleanup <;> first | exact h | exact nofun

/-- How a statement leaves when nothing in it has raised, if control does not go on. -/
def Stmt.departure? : Stmt → Option Departure
  | .ret _ => some .ret
  | .retNone => some .retNone
  | .objectRet _ => some .objectRet
  | .objectRetNone => some .objectRetNone
  | .raise value => some (.raises value.isSome)
  | _ => none

theorem Stmt.departure?_ne_ends {statement : Stmt} : statement.departure? ≠ some .ends := by
  cases statement <;> exact nofun

def Stmt.isTry : Stmt → Bool
  | .tryFinally _ _ => true
  | _ => false

/-- The statements inside a statement that run next, given whether its test holds. -/
def Stmt.next (holds : Bool) : Stmt → List Stmt
  | .branch _ yes no => Block.statementsOf (if holds then yes else no)
  | .loop condition body =>
    if holds then Block.statementsOf body ++ [.loop condition body] else []
  | _ => []

/-- The run of some statements after a history of actions. -/
inductive Executes (labels : Labels) (o : Oracle) :
    List Action → List Stmt → List Action → Departure → Prop
  | ends {history} : Executes labels o history [] [] .ends
  | fails {history statement rest done}
      (h : o.failure? history (labels.actions statement) = some done) :
      Executes labels o history (statement :: rest) done .fails
  | leaves {history statement rest departure}
      (h : o.failure? history (labels.actions statement) = none)
      (hleaves : Stmt.departure? statement = some departure) :
      Executes labels o history (statement :: rest) (labels.actions statement) departure
  | goesOn {history statement rest more departure}
      (h : o.failure? history (labels.actions statement) = none)
      (hleaves : Stmt.departure? statement = none) (htry : Stmt.isTry statement = false)
      (hrest : Executes labels o
        (history ++ labels.actions statement ++ labels.effects statement)
        (statement.next (o.holds (history ++ labels.actions statement)) ++ rest) more departure) :
      Executes labels o history (statement :: rest)
        (labels.actions statement ++ labels.effects statement ++ more) departure
  | tryEnds {history tried cleanup rest actions more departure}
      (htried : Executes labels o history (Block.statements tried) actions .ends)
      (hrest : Executes labels o (history ++ actions) (Block.statements cleanup ++ rest) more
        departure) :
      Executes labels o history (.tryFinally tried cleanup :: rest) (actions ++ more) departure
  | tryLeaves {history tried cleanup rest actions more departure last}
      (htried : Executes labels o history (Block.statements tried) actions departure)
      (hleaves : departure ≠ .ends)
      (hcleanup : Executes labels o (history ++ actions) (Block.statements cleanup) more last) :
      Executes labels o history (.tryFinally tried cleanup :: rest) (actions ++ more)
        (last.or departure)

section

variable {labels : Labels} {o : Oracle} {history actions actions' more : List Action}
  {statements rest : List Stmt} {departure departure' : Departure} {vars : List VariableId}
  {tried cleanup : Block}

/-! ## One run only -/

/-- **Under an oracle there is one run.** -/
theorem Executes.unique (h : Executes labels o history statements actions departure) :
    ∀ {actions' : List Action} {departure' : Departure},
      Executes labels o history statements actions' departure' →
        actions' = actions ∧ departure' = departure := by
  induction h with
  | ends =>
    intro _ _ h'
    cases h'
    exact ⟨rfl, rfl⟩
  | fails h =>
    intro _ _ h'
    cases h' with
    | fails hfails =>
      rw [h] at hfails
      exact ⟨(Option.some.inj hfails).symm, rfl⟩
    | leaves hnone | goesOn hnone => simp [h] at hnone
    | tryEnds | tryLeaves => cases h
  | leaves h hleaves =>
    intro _ _ h'
    cases h' with
    | fails hfails => simp [h] at hfails
    | leaves _ hsame =>
      rw [hleaves] at hsame
      exact ⟨rfl, (Option.some.inj hsame).symm⟩
    | goesOn _ hnone => simp [hleaves] at hnone
    | tryEnds | tryLeaves => cases hleaves
  | goesOn h hleaves htry _ ih =>
    intro _ _ h'
    cases h' with
    | fails hfails => simp [h] at hfails
    | leaves _ hsome => simp [hleaves] at hsome
    | goesOn _ _ _ hrest =>
      obtain ⟨rfl, rfl⟩ := ih hrest
      exact ⟨rfl, rfl⟩
    | tryEnds | tryLeaves => cases htry
  | tryEnds _ _ ihtried ih =>
    intro _ _ h'
    cases h' with
    | fails hfails => cases hfails
    | leaves _ hsome => cases hsome
    | goesOn _ _ htry => cases htry
    | tryEnds htried hrest =>
      obtain ⟨rfl, -⟩ := ihtried htried
      obtain ⟨rfl, rfl⟩ := ih hrest
      exact ⟨rfl, rfl⟩
    | tryLeaves htried hleaves => exact absurd (ihtried htried).2 hleaves
  | tryLeaves _ hleaves _ ihtried ih =>
    intro _ _ h'
    cases h' with
    | fails hfails => cases hfails
    | leaves _ hsome => cases hsome
    | goesOn _ _ htry => cases htry
    | tryEnds htried => exact absurd (ihtried htried).2.symm hleaves
    | tryLeaves htried _ hcleanup =>
      obtain ⟨rfl, rfl⟩ := ihtried htried
      obtain ⟨rfl, rfl⟩ := ih hcleanup
      exact ⟨rfl, rfl⟩

/-! ## Runs one after the other -/

/-- Statements that are left are left whatever stands behind them. -/
theorem Executes.append_left (h : Executes labels o history statements actions departure)
    (hleaves : departure ≠ .ends) (rest : List Stmt) :
    Executes labels o history (statements ++ rest) actions departure := by
  induction h with
  | ends => exact absurd rfl hleaves
  | fails h => exact .fails h
  | leaves h hsome => exact .leaves h hsome
  | goesOn h hnone htry _ ih =>
    rw [List.cons_append]
    refine .goesOn h hnone htry ?_
    rw [← List.append_assoc]
    exact ih hleaves
  | tryEnds htried _ _ ih =>
    rw [List.cons_append]
    refine .tryEnds htried ?_
    rw [← List.append_assoc]
    exact ih hleaves
  | tryLeaves htried hne hcleanup => exact .tryLeaves htried hne hcleanup

/-- Statements that are run to their end go on with what stands behind them. -/
theorem Executes.append (h : Executes labels o history statements actions departure)
    (hends : departure = .ends) :
    ∀ {more : List Action} {departure' : Departure},
      Executes labels o (history ++ actions) rest more departure' →
        Executes labels o history (statements ++ rest) (actions ++ more) departure' := by
  induction h with
  | ends =>
    intro more departure' hrest
    rwa [List.append_nil] at hrest
  | fails => cases hends
  | leaves _ hsome =>
    rw [hends] at hsome
    exact absurd hsome Stmt.departure?_ne_ends
  | goesOn h hnone htry _ ih =>
    intro more departure' hrest
    rw [List.cons_append, List.append_assoc _ _ more]
    refine .goesOn h hnone htry ?_
    rw [← List.append_assoc]
    refine ih hends ?_
    simpa only [List.append_assoc] using hrest
  | tryEnds htried _ _ ih =>
    intro more departure' hrest
    rw [List.cons_append, List.append_assoc _ _ more]
    refine .tryEnds htried ?_
    rw [← List.append_assoc]
    refine ih hends ?_
    simpa only [List.append_assoc] using hrest
  | tryLeaves _ hleaves => exact absurd hends (Departure.or_ne_ends hleaves _)

/-! ## Code that aborts -/

theorem Block.aborts_eq (block : Block) : block.aborts = anyAborts block.statements := by
  cases block
  rfl

theorem anyAborts_append (first rest : List Stmt) :
    anyAborts (first ++ rest) = (anyAborts first || anyAborts rest) := by
  simp only [anyAborts_eq_any, List.any_append]

/-- A statement that aborts without leaving by itself is a conditional whose parts both abort. -/
theorem Stmt.aborts_next {statement : Stmt} (h : statement.aborts = true)
    (hnone : statement.departure? = none) (htry : statement.isTry = false) (holds : Bool) :
    anyAborts (statement.next holds) = true := by
  cases statement with
  | branch condition yes no =>
    cases yes with
    | none => cases h
    | some yes =>
      cases no with
      | none => cases h
      | some no =>
        rw [Stmt.aborts, Bool.and_eq_true, Block.aborts_eq, Block.aborts_eq] at h
        cases holds
        · exact h.2
        · exact h.1
  | tryFinally => cases htry
  | ret | retNone | objectRet | objectRetNone | raise => cases hnone
  | _ => cases h

/-- **Code that aborts is not run to its end**: the predicate that decides where a last `return`
is added is right on every run. -/
theorem Executes.not_ends (h : Executes labels o history statements actions departure)
    (haborts : anyAborts statements = true) : departure ≠ .ends := by
  induction h with
  | ends => cases haborts
  | fails => exact nofun
  | leaves _ hsome =>
    rintro rfl
    exact Stmt.departure?_ne_ends hsome
  | goesOn _ hnone htry _ ih =>
    refine ih ?_
    rw [anyAborts, Bool.or_eq_true] at haborts
    rw [anyAborts_append, Bool.or_eq_true]
    exact haborts.imp_left fun h => Stmt.aborts_next h hnone htry _
  | tryEnds _ _ ihtried ih =>
    refine ih ?_
    rw [anyAborts, Stmt.aborts, Bool.or_eq_true, Bool.or_eq_true, Block.aborts_eq,
      Block.aborts_eq] at haborts
    rw [anyAborts_append, Bool.or_eq_true]
    exact haborts.imp_left fun h => h.resolve_left fun htried => ihtried htried rfl
  | tryLeaves _ hleaves => exact Departure.or_ne_ends hleaves _

/-! ## Releases -/

theorem executes_releases (history : List Action) (vars : List VariableId) :
    Executes labels o history (vars.map .release) (vars.map .release) .ends := by
  induction vars generalizing history with
  | nil => exact .ends
  | cons v rest ih =>
    exact @Executes.goesOn labels o history (.release v) _ _ _ rfl rfl rfl (ih _)

/-- **Code that releases variables at its end runs as the code alone, and then releases them**,
however it is left. -/
theorem executes_releasing (h : Executes labels o history tried.statements actions departure)
    (vars : List VariableId) : Executes labels o history (tried.releasing vars).statements
      (actions ++ vars.map .release) departure := by
  have hreleases : Executes labels o (history ++ actions) (vars.map .release) _ .ends :=
    executes_releases _ vars
  by_cases hends : departure = .ends
  · subst hends
    refine .tryEnds h ?_
    rwa [Block.ofStatements, List.append_nil]
  · exact @Executes.tryLeaves labels o _ _ _ _ _ _ _ .ends h hends hreleases

end

end IR

end DefinitionLowering
