import DefinitionLowering.Dialect
import DefinitionLowering.IR.Store
import DefinitionLowering.PrivateName
import DefinitionLowering.Rejection
import DefinitionLowering.Surface.Evidence

/-!
# Lowering steps

A `Lowering` is a step over the store that gives a value or fails. A failure keeps the store
as far as it was filled: bodies that a rejected definition created are still there.

The `Setting` of a lowering is the dialect and the classifier of callables; it never changes.
The steps of this module lift the operations of the store.
-/

namespace DefinitionLowering

open IR (BodyId VariableId Store Fault)

/-- Why a lowering stops. -/
inductive Failure where
  | rejected (rejection : Rejection)
  | fault (fault : Fault)
  deriving DecidableEq, Repr

/-- What every step of one lowering goes by. -/
structure Setting where
  dialect : Dialect
  classify : Surface.Classifier

/-- The setting that goes by the evidence in the code. -/
def Setting.ofDialect (dialect : Dialect) : Setting :=
  ⟨dialect, Surface.Classifier.suspension⟩

abbrev Lowering := EStateM Failure Store

namespace Lowering

/-- Stops because the program is at fault. -/
def reject {α : Type} (cause : Cause) (location : Location) : Lowering α :=
  throw (.rejected ⟨cause, location⟩)

/-- Reads the store. -/
def query {α : Type} (f : Store → α) : Lowering α :=
  return f (← get)

/-- Reads the store where that may fail. -/
def tryQuery {α : Type} (f : Store → Except Fault α) : Lowering α := do
  match f (← get) with
  | .ok value => return value
  | .error fault => throw (.fault fault)

/-- Changes the store where that may fail. -/
def tryUpdate (f : Store → Except Fault Store) : Lowering Unit := do
  set (← tryQuery f)

/-- An operation that gives a value and a new store. -/
def operate {α : Type} (f : Store → α × Store) : Lowering α :=
  modifyGet f

@[simp] theorem reject_run {α : Type} (cause : Cause) (location : Location) (s : Store) :
    (reject cause location : Lowering α) s = .error (.rejected ⟨cause, location⟩) s := rfl

@[simp] theorem query_run {α : Type} (f : Store → α) (s : Store) :
    query f s = .ok (f s) s := rfl

theorem tryQuery_run {α : Type} (f : Store → Except Fault α) (s : Store) :
    tryQuery f s = (match f s with
      | .ok value => (pure value : Lowering α)
      | .error fault => throw (Failure.fault fault)) s := rfl

theorem tryQuery_ok {α : Type} {f : Store → Except Fault α} {s : Store} {value : α}
    (h : f s = .ok value) : tryQuery f s = .ok value s := by
  rw [tryQuery_run, h]
  rfl

theorem tryQuery_error {α : Type} {f : Store → Except Fault α} {s : Store} {fault : Fault}
    (h : f s = .error fault) : tryQuery f s = .error (.fault fault) s := by
  rw [tryQuery_run, h]
  rfl

@[simp] theorem operate_run {α : Type} (f : Store → α × Store) (s : Store) :
    operate f s = .ok (f s).1 (f s).2 := rfl

/-! ## Operations of the store -/

def kindOf (b : BodyId) : Lowering BodyKind :=
  query fun s => (s.body b).kind

def spell (b : BodyId) (name : String) : Lowering String :=
  query fun s => s.spell b name

def createBody (plan : IR.BodyPlan) : Lowering BodyId :=
  operate fun s => s.createBody plan

def attachCode (b : BodyId) (code : IR.Block) : Lowering Unit :=
  tryUpdate fun s => s.attachCode b code

def share (source target : BodyId) : Lowering Unit :=
  modify fun s => s.share source target

def resolve (b : BodyId) (name : String) : Lowering (Option VariableId) :=
  operate fun s => s.resolve b name

def newTemporary (b : BodyId) (name : String) : Lowering VariableId := do
  let (v, s) ← tryQuery fun s => s.addTemporary b name
  set s
  return v

/-! ## Names -/

/-- What a name means where it is read: a variable, or a name left for run time. The names of
a module are always left for run time. -/
def reference (b : BodyId) (name : String) : Lowering IR.Expr := do
  let name ← spell b name
  if (← kindOf b) == .moduleBody then
    return .freeName name
  match ← resolve b name with
  | some v => return .var v
  | none => return .freeName name

/-- The statement that binds a name, already spelled, to a value. -/
def bindName (b : BodyId) (name : String) (source : IR.Expr) : Lowering IR.Stmt := do
  if (← kindOf b) == .moduleBody then
    return .assignName name source
  match ← resolve b name with
  | some v => return .assignVariable v source
  | none => return .assignName name source

end Lowering

end DefinitionLowering
