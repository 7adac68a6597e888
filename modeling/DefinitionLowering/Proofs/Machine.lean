import DefinitionLowering.Proofs.Outcome
import DefinitionLowering.Surface.Tree

/-!
# Running unpacking code

A machine for the code that takes parameters apart.  A `Value` is an atom or an iterable of
finitely many values; asking a value for an iterator gives a new one each time, and an iterator
is a position that moves when an element is taken.  `Stop` lists how a run ends other than by
reaching the end of the code: an error is raised, the delegate is called with values, or the
code is not of the kind the machine runs (`stuck`).

The reference is pattern matching without any machine: `Pattern.assign` gives the names inside
a pattern their values from left to right, and `Pattern.Fits` says that a value has the shape
of a pattern at every level (`assign_isSome`).
-/

namespace DefinitionLowering

open IR (BodyId VariableId)
open Surface (Pattern Param)

/-! ## Values -/

/-- A value that is passed to a callable. -/
inductive Value where
  | atom (id : Nat)
  | iterable (items : List Value)

/-- What a variable holds: a value, or an iterator by its number. -/
inductive Cell where
  | value (v : Value)
  | iterator (number : Nat)

inductive RunError where
  | notIterable
  /-- The iterator had no element left for the given place. -/
  | tooFew (count expected : Nat)
  /-- The iterator had an element left after the given number of them. -/
  | tooMany (count : Nat)

inductive Stop where
  | raised (error : RunError)
  | called (delegate : BodyId) (values : List Value)
  | stuck

/-- The variables that hold something, and what each iterator has left. -/
structure Machine where
  cells : VariableId → Option Cell
  iterators : List (List Value)

namespace Machine

def set (m : Machine) (v : VariableId) (cell : Cell) : Machine :=
  { m with cells := fun w => if w = v then some cell else m.cells w }

def forget (m : Machine) (v : VariableId) : Machine :=
  { m with cells := fun w => if w = v then none else m.cells w }

/-- The machine of a call: the parameters hold the arguments. -/
def ofArguments (params : List VariableId) (args : List Value) : Machine where
  cells v := ((params.zip args).lookup v).map .value
  iterators := []

end Machine

/-! ## The machine -/

abbrev Exec := EStateM Stop Machine

namespace Exec

/-- What a variable holds. -/
def read (v : VariableId) : Exec Cell := fun m =>
  match m.cells v with
  | some cell => .ok cell m
  | none => .error .stuck m

/-- A new iterator over a value. -/
def iterate : Cell → Exec Cell
  | .value (.iterable items) => fun m =>
    .ok (.iterator m.iterators.length) { m with iterators := m.iterators ++ [items] }
  | .value (.atom _) => throw (.raised .notIterable)
  | .iterator _ => throw .stuck

/-- Takes the next element of an iterator. -/
def next (count expected : Nat) : Cell → Exec Cell
  | .iterator number => fun m =>
    match m.iterators[number]? with
    | some (item :: rest) =>
      .ok (.value item) { m with iterators := m.iterators.set number rest }
    | some [] => .error (.raised (.tooFew count expected)) m
    | none => .error .stuck m
  | .value _ => throw .stuck

/-- Checks that an iterator has nothing left. -/
def exhausted (count : Nat) : Cell → Exec Unit
  | .iterator number => fun m =>
    match m.iterators[number]? with
    | some [] => .ok () m
    | some (_ :: _) => .error (.raised (.tooMany count)) m
    | none => .error .stuck m
  | .value _ => throw .stuck

/-- A value that may be passed on. -/
def argument : Cell → Exec Value
  | .value v => return v
  | .iterator _ => throw .stuck

/-- Runs the cleanup however the tried part ends; what the cleanup raises comes first. -/
def finallyDo (tried cleanup : Exec Unit) : Exec Unit := fun m =>
  match tried m with
  | .ok _ m => cleanup m
  | .error stop m =>
    match cleanup m with
    | .ok _ m => .error stop m
    | .error stop' m => .error stop' m

end Exec

def evalExpr : IR.Expr → Exec Cell
  | .var v => Exec.read v
  | .iterator source => evalExpr source >>= Exec.iterate
  | .unpack source count expected => evalExpr source >>= Exec.next count expected
  | _ => throw .stuck

def evalArgs : List IR.Expr → Exec (List Value)
  | [] => return []
  | first :: rest => do
    let value ← evalExpr first >>= Exec.argument
    let values ← evalArgs rest
    return value :: values

mutual

def execStmt : IR.Stmt → Exec Unit
  | .assignVariable target source => do
    let cell ← evalExpr source
    modify fun m => m.set target cell
  | .checkExhausted source count => evalExpr source >>= Exec.exhausted count
  | .ret (.callFunction (.makeFunction delegate _ [] none none) args) => do
    throw (.called delegate (← evalArgs args))
  | .release target => modify fun m => m.forget target
  | .tryFinally tried cleanup => Exec.finallyDo (execBlock tried) (execBlock cleanup)
  | _ => throw .stuck

def execBlock : IR.Block → Exec Unit
  | ⟨statements, _⟩ => execStmts statements

def execStmts : List IR.Stmt → Exec Unit
  | [] => return ()
  | first :: rest => do
    execStmt first
    execStmts rest

end

/-- How running a block stops, if it does before its end. -/
def runBlock (block : IR.Block) (m : Machine) : Option Stop :=
  match execBlock block m with
  | .ok _ _ => none
  | .error stop _ => some stop

/-! ## The reference -/

namespace Surface

mutual

/-- Whether a value has the shape of a pattern at every level. -/
def Pattern.Fits : Pattern → Value → Prop
  | .name _, _ => True
  | .tuple elements, .iterable items => PatternsFit elements items
  | .tuple _, .atom _ => False

def PatternsFit : List Pattern → List Value → Prop
  | [], [] => True
  | first :: rest, item :: items => first.Fits item ∧ PatternsFit rest items
  | _, _ => False

end

mutual

/-- The names inside a pattern, spelled, with the values they match. -/
def Pattern.assign (spell : String → String) : Pattern → Value → Option (List (String × Value))
  | .name param, v => some [(spell param.name, v)]
  | .tuple elements, .iterable items => assignAll spell elements items
  | .tuple _, .atom _ => none

def assignAll (spell : String → String) :
    List Pattern → List Value → Option (List (String × Value))
  | [], [] => some []
  | first :: rest, item :: items =>
    match first.assign spell item, assignAll spell rest items with
    | some bindings, some more => some (bindings ++ more)
    | _, _ => none
  | _, _ => none

end

variable (spell : String → String)

mutual

theorem assign_isSome : ∀ (pattern : Pattern) (v : Value),
    (pattern.assign spell v).isSome ↔ pattern.Fits v
  | .name param, v => by simp [Pattern.assign, Pattern.Fits]
  | .tuple elements, .atom id => by simp [Pattern.assign, Pattern.Fits]
  | .tuple elements, .iterable items => by
    rw [Pattern.assign, Pattern.Fits]
    exact assignAll_isSome elements items

theorem assignAll_isSome : ∀ (patterns : List Pattern) (items : List Value),
    (assignAll spell patterns items).isSome ↔ PatternsFit patterns items
  | [], [] => by simp [assignAll, PatternsFit]
  | [], _ :: _ => by simp [assignAll, PatternsFit]
  | _ :: _, [] => by simp [assignAll, PatternsFit]
  | first :: rest, item :: items => by
    rw [PatternsFit, ← assign_isSome first item, ← assignAll_isSome rest items, assignAll]
    cases first.assign spell item <;> cases assignAll spell rest items <;> simp

end

mutual

/-- The reference gives values to exactly the names inside the pattern, in order. -/
theorem assign_names : ∀ (pattern : Pattern) (v : Value) (bindings : List (String × Value)),
    pattern.assign spell v = some bindings →
      bindings.map Prod.fst = pattern.leaves.map fun leaf => spell leaf.name
  | .name param, v, bindings, h => by
    cases h
    rfl
  | .tuple elements, .atom id, bindings, h => by cases h
  | .tuple elements, .iterable items, bindings, h =>
    assignAll_names elements items bindings h

theorem assignAll_names : ∀ (patterns : List Pattern) (items : List Value)
    (bindings : List (String × Value)), assignAll spell patterns items = some bindings →
      bindings.map Prod.fst = (patternLeaves patterns).map fun leaf => spell leaf.name
  | [], [], bindings, h => by
    cases h
    rfl
  | [], _ :: _, bindings, h => by cases h
  | _ :: _, [], bindings, h => by cases h
  | first :: rest, item :: items, bindings, h => by
    rw [assignAll] at h
    split at h
    · rename_i head tail hhead htail
      cases h
      rw [List.map_append, assign_names first item head hhead,
        assignAll_names rest items tail htail, patternLeaves, List.map_append]
    · cases h

end

end Surface

end DefinitionLowering
