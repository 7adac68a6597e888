import DefinitionLowering.IR.Listing
import DefinitionLowering.IR.Release
import DefinitionLowering.Lowering.Stmt

/-!
# Compiling a module

A module is lowered into a store of bodies, the module's own body being the first. The first
mistake ends the lowering and is the only diagnostic; then there is no lowered module.
-/

namespace DefinitionLowering

open IR (BodyId Store Fault)

namespace Lowering

/-- Releases the variables of all bodies but one, the last created first. -/
def releaseAllBut (b : BodyId) : Lowering Unit := do
  let nested ← query fun s => s.bodyIds.reverse.filter (· != b)
  nested.forM fun body => tryUpdate fun s => s.releaseVariables body

/-- Lowers a module into the store and gives its body. -/
def lowerModule (setting : Setting) (m : Surface.Module) : Lowering BodyId := do
  let statements := Surface.undocumented m.body
  let b ← createBody
    { kind := .moduleBody
      name := m.name
      location := .moduleStart
      doc := Surface.docstring? m.body
      info := some ⟨m.filename, m.future⟩ }
  openScope b statements
  attachCode b (.ofStatements (← lowerStmts setting b statements))
  releaseAllBut b
  return b

end Lowering

structure LoweredModule where
  store : Store
  root : BodyId

/-- Lowers a module on its own, in a store that holds nothing else. -/
def LoweredModule.ofSurface (setting : Setting) (m : Surface.Module) :
    Except Failure LoweredModule :=
  match (Lowering.lowerModule setting m).run .empty with
  | .ok root store => .ok ⟨store, root⟩
  | .error failure _ => .error failure

structure Compilation where
  lowered : Option LoweredModule
  diagnostics : List Diagnostic

namespace Compilation

def succeeded (c : Compilation) : Bool :=
  c.lowered.isSome

/-- The listing of all bodies; empty when there is no lowered module. -/
def listing (c : Compilation) : String :=
  match c.lowered with
  | none => ""
  | some lowered => lowered.store.list

end Compilation

/-- Compiles a module in a setting, which may break the rules that classifiers keep. -/
def compileIn (setting : Setting) (m : Surface.Module) : Except Fault Compilation :=
  match LoweredModule.ofSurface setting m with
  | .ok lowered => .ok ⟨some lowered, []⟩
  | .error (.rejected rejection) => .ok ⟨none, [rejection.diagnostic]⟩
  | .error (.fault fault) => .error fault

/-- Compiles a module of a dialect. -/
def compile (dialect : Dialect) (m : Surface.Module) : Except Fault Compilation :=
  compileIn (.ofDialect dialect) m

end DefinitionLowering
