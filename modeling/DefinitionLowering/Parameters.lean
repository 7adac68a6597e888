import DefinitionLowering.Rejection
import DefinitionLowering.Dialect
import DefinitionLowering.Surface.Tree

/-!
# From parameter lists to signatures

A parameter list becomes a signature: names are spelled for the scope that the definition
stands in, and the k-th tuple-shaped parameter, counted from one, is replaced by the
placeholder `.k`. The placeholders are kept with the patterns they stand for.

A parameter list is rejected when it has keyword-only parameters and the dialect has not, when
a written name is reserved, also inside a pattern, or when the signature is invalid, in this
order.
-/

namespace DefinitionLowering

open Surface (Pattern Params)

/-- A parameter that stands for a tuple of patterns. -/
structure Placeholder where
  name : String
  elements : List Pattern

/-- A positional parameter as a slot of the signature, with its patterns if it is a tuple. -/
structure PositionalSlot where
  name : String
  elements : Option (List Pattern)

namespace PositionalSlot

/-- The slots of positional parameters; the next placeholder gets the given number. -/
def ofPatterns (spell : String → String) : Nat → List Pattern → List PositionalSlot
  | _, [] => []
  | number, .name param :: rest => ⟨spell param.name, none⟩ :: ofPatterns spell number rest
  | number, .tuple elements :: rest =>
    ⟨placeholderName number, some elements⟩ :: ofPatterns spell (number + 1) rest

def placeholder? (slot : PositionalSlot) : Option Placeholder :=
  slot.elements.map fun elements => ⟨slot.name, elements⟩

end PositionalSlot

/-- The patterns that a parameter stands for, if it is a placeholder. -/
def Placeholder.elementsOf? (placeholders : List Placeholder) (name : String) :
    Option (List Pattern) :=
  (placeholders.find? fun p => p.name == name).map Placeholder.elements

/-- All names written in a parameter list: those inside patterns first. -/
def Surface.Params.writtenNames (params : Params) : List String :=
  (Surface.patternLeaves params.positional ++ params.named).map Surface.Param.name

/-- The signature of a definition called `name`, before it is checked. -/
def Surface.Params.rawSignature (params : Params) (spell : String → String) (name : String) :
    Signature where
  name := name
  positional := (PositionalSlot.ofPatterns spell 1 params.positional).map PositionalSlot.name
  keywordOnly := params.keywordOnly.map fun param => spell param.name
  star := params.star.map fun param => spell param.name
  doubleStar := params.doubleStar.map fun param => spell param.name
  defaultCount := params.defaults.length

/-- The placeholders of a parameter list, in the order of their numbers. -/
def Surface.Params.placeholders (params : Params) (spell : String → String) :
    List Placeholder :=
  (PositionalSlot.ofPatterns spell 1 params.positional).filterMap PositionalSlot.placeholder?

/-- The signature of a definition called `name`, or why there is none. -/
def Surface.Params.signature (params : Params) (dialect : Dialect) (spell : String → String)
    (name : String) : Except Cause Signature :=
  if !params.keywordOnly.isEmpty && !dialect.keywordOnly then
    .error .keywordOnlyUnsupported
  else
    match params.writtenNames.find? isReserved with
    | some written => .error (.invalidSignature (.reserved written))
    | none =>
      match (params.rawSignature spell name).check with
      | .error defect => .error (.invalidSignature defect)
      | .ok signature => .ok signature

end DefinitionLowering
