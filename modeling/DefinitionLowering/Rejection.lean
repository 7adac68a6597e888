import DefinitionLowering.Location
import DefinitionLowering.Signature

/-!
# Rejections and diagnostics

A program is rejected for one cause at one place. `Cause.message` is the only place where the
wording is fixed. A `Diagnostic` is a rejection as it is reported: an invalid parameter list
belongs to the phase that models parameters, everything else to the lowering.
-/

namespace DefinitionLowering

/-- Which statement declares a name as not being local. -/
inductive OuterDeclaration where
  | global
  | nonlocal
  deriving DecidableEq, Repr

def OuterDeclaration.word : OuterDeclaration → String
  | .global => "global"
  | .nonlocal => "nonlocal"

/-- Why a program is rejected. -/
inductive Cause where
  | invalidSignature (defect : Signature.Defect)
  | keywordOnlyUnsupported
  | returnOutsideFunction
  | returnValueInAsyncGenerator
  | yieldOutsideFunction
  | yieldFromInAsync
  | awaitOutsideAsync
  | nonlocalAtModuleLevel
  | parameterRedeclared (name : String) (declaration : OuterDeclaration)
  | unboundNonlocal (name : String)
  /-- A cause found elsewhere, in its own words. -/
  | other (message : String)
  deriving DecidableEq, Repr

def Cause.message : Cause → String
  | .invalidSignature defect => defect.message
  | .keywordOnlyUnsupported => "keyword-only parameters are not supported"
  | .returnOutsideFunction => "'return' outside function"
  | .returnValueInAsyncGenerator => "'return' with value in async generator"
  | .yieldOutsideFunction => "'yield' outside function"
  | .yieldFromInAsync => "'yield from' inside async function"
  | .awaitOutsideAsync => "'await' outside async function"
  | .nonlocalAtModuleLevel => "nonlocal declaration not allowed at module level"
  | .parameterRedeclared name declaration =>
    "name '" ++ name ++ "' is parameter and " ++ declaration.word
  | .unboundNonlocal name => "no binding for nonlocal '" ++ name ++ "' found"
  | .other message => message

/-- A message with the place it is about. -/
def located (message : String) (location : Location) : String :=
  message ++ " (at " ++ location.text ++ ")"

structure Rejection where
  cause : Cause
  location : Location
  deriving DecidableEq, Repr

namespace Rejection

def message (r : Rejection) : String :=
  r.cause.message

def text (r : Rejection) : String :=
  located r.message r.location

/-- The defect of a parameter list, if that is the cause. -/
def defect? (r : Rejection) : Option Signature.Defect :=
  match r.cause with
  | .invalidSignature defect => some defect
  | _ => none

end Rejection

/-! ## Diagnostics -/

/-- The phase of a compilation that finds a mistake. -/
inductive Phase where
  | parameters
  | lowering
  deriving DecidableEq, Repr

def Phase.word : Phase → String
  | .parameters => "parameters"
  | .lowering => "lowering"

/-- A mistake as it is reported. Every diagnostic is an error. -/
structure Diagnostic where
  message : String
  location : Location
  phase : Phase
  deriving DecidableEq, Repr

namespace Diagnostic

def severityWord : String := "ERROR"

def text (d : Diagnostic) : String :=
  located (severityWord ++ " [" ++ d.phase.word ++ "] " ++ d.message) d.location

end Diagnostic

def Rejection.diagnostic (r : Rejection) : Diagnostic where
  message := r.message
  location := r.location
  phase := if r.defect?.isSome then .parameters else .lowering

end DefinitionLowering
