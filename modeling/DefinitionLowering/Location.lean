/-!
# Positions and feature flags of a source file

A `Location` is a line and a column, both 32-bit words. `FutureFlags` are the per-module
language features; they are carried unchanged into every code object of the module.
-/

namespace DefinitionLowering

/-- A position in a source file: lines count from one, columns from zero. -/
structure Location where
  line : UInt32
  column : UInt32
  deriving DecidableEq, Repr, Inhabited

namespace Location

/-- The position of things that were not read from a file. -/
def unknown : Location := ⟨0, 0⟩

/-- Where a module body starts. -/
def moduleStart : Location := ⟨1, 0⟩

/-- The same line at another column. -/
def atColumn (l : Location) (column : UInt32) : Location :=
  { l with column := column }

/-- Line and column in decimal, joined by a colon. -/
def text (l : Location) : String :=
  l.line.toNat.repr ++ ":" ++ l.column.toNat.repr

/-- Reading order: by line, then by column. -/
instance : Ord Location where
  compare a b := (compare a.line b.line).then (compare a.column b.column)

end Location

/-- The features a module switches on for itself. -/
structure FutureFlags where
  division : Bool
  absoluteImport : Bool
  unicodeLiterals : Bool
  generatorStop : Bool
  annotations : Bool
  deriving DecidableEq, Repr, Inhabited

end DefinitionLowering
