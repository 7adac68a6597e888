import DefinitionLowering.Location
import DefinitionLowering.Signature

/-!
# Code objects

The record that a callable shows to introspection. Every part of one callable carries the same
record: the expression that creates the function, the frame of its statements, the expression
that manufactures its object.
-/

namespace DefinitionLowering

/-- What the code objects of a module have in common. -/
structure ModuleInfo where
  filename : String
  future : FutureFlags
  deriving DecidableEq, Repr, Inhabited

structure CodeObject where
  name : String
  kind : CallableKind
  /-- Parameter names in slot order. -/
  slots : List String
  argumentCount : Nat
  keywordOnlyCount : Nat
  hasStar : Bool
  hasDoubleStar : Bool
  filename : String
  line : UInt32
  future : FutureFlags
  deriving DecidableEq, Repr, Inhabited

/-- The record of a callable of the given kind and signature, defined on the given line. -/
def CodeObject.ofSignature (kind : CallableKind) (signature : Signature) (info : ModuleInfo)
    (line : UInt32) : CodeObject where
  name := signature.name
  kind := kind
  slots := signature.slots
  argumentCount := signature.positional.length
  keywordOnlyCount := signature.keywordOnly.length
  hasStar := signature.star.isSome
  hasDoubleStar := signature.doubleStar.isSome
  filename := info.filename
  line := line
  future := info.future

end DefinitionLowering
