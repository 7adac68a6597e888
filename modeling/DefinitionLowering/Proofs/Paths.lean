import DefinitionLowering.IR.Release

/-!
# Paths through lowered code

`Runs statements events exit` says that there is a run of the statements with these events that
leaves them in this way.  A test may go either way whenever it is made, evaluating a statement
may raise anywhere, and the `finally` part of a `try` runs once whenever the `try` part is
left.  Releases do not raise.  The events are the variables that are mentioned and those that
are released, in order.

Code is `quiet` if it has neither a release nor a `try`, at any depth: its runs do nothing but
mention variables (`Runs.quiet`).  A run of code that releases some variables at its end is a
run of the code followed by the releases (`Runs.releasing`).
-/

namespace DefinitionLowering.IR

/-! ## Runs -/

inductive Event where
  | mention (v : VariableId)
  | release (v : VariableId)
  deriving DecidableEq

/-- How control leaves some statements. -/
inductive Exit where
  /-- By reaching their end. -/
  | ends
  | returns
  | raises
  deriving DecidableEq

/-- A `finally` part that leaves in its own way takes over. -/
def Exit.or : Exit → Exit → Exit
  | .ends, exit => exit
  | exit, _ => exit

mutual

/-- The variables that an expression mentions, in the order of evaluation. -/
def Expr.mentions : Expr → List VariableId
  | .var v => [v]
  | .constant _ | .constantMapping _ | .freeName _ | .builtin _ | .makeObject _ _ _ => []
  | .call callee args => callee.mentions ++ exprsMentions args
  | .binary left _ right => left.mentions ++ right.mentions
  | .attribute value _ => value.mentions
  | .tuple items => exprsMentions items
  | .mapping _ values => exprsMentions values
  | .yield value => optionMentions value
  | .yieldFrom value | .await value | .iterator value | .unpack value _ _ => value.mentions
  | .makeFunction _ _ defaults keywordDefaults annotations =>
    exprsMentions defaults ++ optionMentions keywordDefaults ++ optionMentions annotations
  | .callFunction function values => function.mentions ++ exprsMentions values
  | .makeClass _ bases => exprsMentions bases

def exprsMentions : List Expr → List VariableId
  | [] => []
  | first :: rest => first.mentions ++ exprsMentions rest

def optionMentions : Option Expr → List VariableId
  | none => []
  | some value => value.mentions

end

/-- What a statement without parts mentions, and how it leaves when nothing raises. -/
def Stmt.simple? : Stmt → Option (List VariableId × Exit)
  | .assignVariable target source => some (source.mentions ++ [target], .ends)
  | .assignName _ source | .expr source => some (source.mentions, .ends)
  | .checkExhausted iterator _ => some (iterator.mentions, .ends)
  | .ret value | .objectRet value => some (value.mentions, .returns)
  | .retNone | .objectRetNone => some ([], .returns)
  | .raise value => some (optionMentions value, .raises)
  | .release _ | .tryFinally _ _ | .branch _ _ _ | .loop _ _ => none

/-- The test of a conditional or a loop. -/
def Stmt.test? : Stmt → Option Expr
  | .branch condition _ _ | .loop condition _ => some condition
  | _ => none

/-- The statements of a block that may be absent. -/
def Block.statementsOf : Option Block → List Stmt
  | none => []
  | some block => block.statements

/-- The events of mentioning variables. -/
def mentioning (vars : List VariableId) : List Event :=
  vars.map .mention

theorem mentioning_append (vars more : List VariableId) :
    mentioning (vars ++ more) = mentioning vars ++ mentioning more :=
  List.map_append

/-- There is a run of the statements with these events and this exit. -/
inductive Runs : List Stmt → List Event → Exit → Prop
  | nil : Runs [] [] .ends
  | simple {statement rest vars events exit} (h : Stmt.simple? statement = some (vars, .ends))
      (hrest : Runs rest events exit) : Runs (statement :: rest) (mentioning vars ++ events) exit
  | leaves {statement rest vars exit} (h : Stmt.simple? statement = some (vars, exit))
      (hexit : exit ≠ .ends) : Runs (statement :: rest) (mentioning vars) exit
  | fails {statement rest vars exit seen} (h : Stmt.simple? statement = some (vars, exit))
      (hseen : seen <+: vars) : Runs (statement :: rest) (mentioning seen) .raises
  | testFails {statement rest condition seen} (h : Stmt.test? statement = some condition)
      (hseen : seen <+: condition.mentions) : Runs (statement :: rest) (mentioning seen) .raises
  | release {v rest events exit} (hrest : Runs rest events exit) :
      Runs (.release v :: rest) (.release v :: events) exit
  | branch {condition yes no chosen rest events exit} (h : chosen = yes ∨ chosen = no)
      (hrest : Runs (Block.statementsOf chosen ++ rest) events exit) :
      Runs (.branch condition yes no :: rest) (mentioning condition.mentions ++ events) exit
  | loopEnds {condition body rest events exit} (hrest : Runs rest events exit) :
      Runs (.loop condition body :: rest) (mentioning condition.mentions ++ events) exit
  | loopAgain {condition body rest events exit}
      (hrest : Runs (Block.statementsOf body ++ .loop condition body :: rest) events exit) :
      Runs (.loop condition body :: rest) (mentioning condition.mentions ++ events) exit
  | tryEnds {tried cleanup rest events more exit}
      (htried : Runs (Block.statements tried) events .ends)
      (hrest : Runs (Block.statements cleanup ++ rest) more exit) :
      Runs (.tryFinally tried cleanup :: rest) (events ++ more) exit
  | tryLeaves {tried cleanup rest events more exit exit'}
      (htried : Runs (Block.statements tried) events exit) (hexit : exit ≠ .ends)
      (hcleanup : Runs (Block.statements cleanup) more exit') :
      Runs (.tryFinally tried cleanup :: rest) (events ++ more) (exit'.or exit)

/-! ## Quiet code -/

mutual

/-- Whether a statement has neither a release nor a `try`, at any depth. -/
def Stmt.quiet : Stmt → Bool
  | .release _ | .tryFinally _ _ => false
  | .branch _ yes no => optionQuiet yes && optionQuiet no
  | .loop _ body => optionQuiet body
  | _ => true

def Block.quiet : Block → Bool
  | ⟨statements, _⟩ => allQuiet statements

def optionQuiet : Option Block → Bool
  | none => true
  | some block => block.quiet

def allQuiet : List Stmt → Bool
  | [] => true
  | first :: rest => first.quiet && allQuiet rest

end

@[simp] theorem allQuiet_append (first rest : List Stmt) :
    allQuiet (first ++ rest) = (allQuiet first && allQuiet rest) := by
  induction first with
  | nil => rfl
  | cons statement statements ih => simp [allQuiet, ih, Bool.and_assoc]

theorem Block.quiet_eq (block : Block) : block.quiet = allQuiet block.statements := by
  cases block
  rfl

theorem allQuiet_statementsOf (block : Option Block) :
    allQuiet (Block.statementsOf block) = optionQuiet block := by
  cases block with
  | none => rfl
  | some block => exact block.quiet_eq.symm

/-- **Quiet code only mentions variables**, on every path. -/
theorem Runs.quiet {statements : List Stmt} {events : List Event} {exit : Exit}
    (h : Runs statements events exit) (hq : allQuiet statements = true) :
    ∃ vars, events = mentioning vars := by
  induction h with
  | nil => exact ⟨[], rfl⟩
  | simple _ _ ih =>
    rw [allQuiet, Bool.and_eq_true] at hq
    obtain ⟨more, rfl⟩ := ih hq.2
    exact ⟨_, (mentioning_append _ _).symm⟩
  | leaves => exact ⟨_, rfl⟩
  | fails => exact ⟨_, rfl⟩
  | testFails => exact ⟨_, rfl⟩
  | release => cases hq
  | branch hchosen _ ih =>
    rw [allQuiet, Stmt.quiet, Bool.and_eq_true, Bool.and_eq_true] at hq
    obtain ⟨more, rfl⟩ := ih (by
      rw [allQuiet_append, allQuiet_statementsOf, Bool.and_eq_true]
      rcases hchosen with rfl | rfl
      · exact ⟨hq.1.1, hq.2⟩
      · exact ⟨hq.1.2, hq.2⟩)
    exact ⟨_, (mentioning_append _ _).symm⟩
  | loopEnds _ ih =>
    rw [allQuiet, Bool.and_eq_true] at hq
    obtain ⟨more, rfl⟩ := ih hq.2
    exact ⟨_, (mentioning_append _ _).symm⟩
  | loopAgain _ ih =>
    obtain ⟨more, rfl⟩ := ih (by
      rw [allQuiet_append, allQuiet_statementsOf, hq, Bool.and_true]
      rw [allQuiet, Stmt.quiet, Bool.and_eq_true] at hq
      exact hq.1)
    exact ⟨_, (mentioning_append _ _).symm⟩
  | tryEnds => cases hq
  | tryLeaves => cases hq

/-! ## Code that releases variables at its end -/

/-- The events of releasing variables. -/
def releases (vars : List VariableId) : List Event :=
  vars.map .release

/-- Releases run to their end, one after the other. -/
theorem runs_releases {vars : List VariableId} {events : List Event} {exit : Exit}
    (h : Runs (vars.map .release) events exit) : events = releases vars ∧ exit = .ends := by
  induction vars generalizing events with
  | nil =>
    cases h
    exact ⟨rfl, rfl⟩
  | cons v rest ih =>
    cases h with
    | release hrest =>
      obtain ⟨rfl, rfl⟩ := ih hrest
      exact ⟨rfl, rfl⟩
    | simple h => cases h
    | leaves h => cases h
    | fails h => cases h
    | testFails h => cases h

/-- **However code is left that releases variables at its end, they are released then**, in
order and once each, and the run is one of the code without the releases. -/
theorem Runs.releasing {vars : List VariableId} {tried : Block} {events : List Event}
    {exit : Exit} (h : Runs (tried.releasing vars).statements events exit) :
    ∃ before, Runs tried.statements before exit ∧ events = before ++ releases vars := by
  cases h with
  | tryEnds htried hrest =>
    rw [Block.ofStatements, List.append_nil] at hrest
    obtain ⟨rfl, rfl⟩ := runs_releases hrest
    exact ⟨_, htried, rfl⟩
  | tryLeaves htried _ hcleanup =>
    obtain ⟨rfl, rfl⟩ := runs_releases hcleanup
    exact ⟨_, htried, rfl⟩
  | simple h => cases h
  | leaves h => cases h
  | fails h => cases h
  | testFails h => cases h

end DefinitionLowering.IR
