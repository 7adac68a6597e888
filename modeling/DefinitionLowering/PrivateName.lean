import DefinitionLowering.IR.Store

/-!
# Class-private names

Inside a class, and in every scope nested in one, a name that starts with two underscores and
does not end with two is private to the class: `__spam` in the class `_Ham` stands for
`_Ham__spam`. Names with a dot are never private. The leading underscores of the class name
are dropped, and a class whose name consists of underscores has no private names.

A spelled-out private name starts with one underscore only, so spelling a name twice is the
same as spelling it once.
-/

namespace DefinitionLowering

/-- Whether a name is private where it is written inside a class. -/
def isPrivate (name : String) : Bool :=
  let cs := name.toList
  ['_', '_'].isPrefixOf cs && !List.isSuffixOf ['_', '_'] cs && !cs.contains '.'

/-- The part of a class name that private names are spelled with. -/
def privateStem (className : String) : String :=
  String.ofList (className.toList.dropWhile (· == '_'))

/-- A name as it is spelled inside the class of the given name. -/
def spellIn (className name : String) : String :=
  if isPrivate name && privateStem className != "" then
    "_" ++ privateStem className ++ name
  else
    name

namespace IR.Store

/-- A name as it is spelled in a body: the innermost class around the body decides. -/
def spell (s : Store) (b : BodyId) (name : String) : String :=
  match s.classOf? b with
  | none => name
  | some c => spellIn (s.body c).name name

end IR.Store

end DefinitionLowering
