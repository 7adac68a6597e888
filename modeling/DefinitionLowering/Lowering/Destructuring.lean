import DefinitionLowering.Lowering.Basic
import DefinitionLowering.Parameters

/-!
# Taking tuple parameters apart

A callable with tuple-shaped parameters becomes two functions. The wrapper has the placeholders
as parameters; it takes each of them apart with an iterator and calls the delegate, whose
parameters are all the names, in order, and which holds the real code.

Every tuple gets an iterator of its own. Its elements are taken from left to right, a nested
tuple where it stands, and afterwards the iterator has to be exhausted. Iterators and elements
are temporaries of the wrapper, which releases them, sorted by name, however it is left.
-/

namespace DefinitionLowering

open IR (BodyId VariableId Store)
open Surface (Pattern)

/-- The name of the delegate of a callable; angle brackets around the name are dropped. -/
def delegateName (name : String) : String :=
  let bracket := fun c => c == '<' || c == '>'
  String.ofList ((name.toList.dropWhile bracket).reverse.dropWhile bracket).reverse ++ "$inner"

/-- The parameters of the delegate: those of the wrapper, with the names inside its patterns in
place of each placeholder. -/
def delegateSlots (spell : String → String) (placeholders : List Placeholder)
    (slots : List String) : List String :=
  slots.flatMap fun slot =>
    match Placeholder.elementsOf? placeholders slot with
    | some elements => (Surface.patternLeaves elements).map fun leaf => spell leaf.name
    | none => [slot]

/-- The signature of the delegate: all its parameters are positional and required. -/
def delegateSignature (name : String) (slots : List String) : Signature where
  name := name
  positional := slots
  keywordOnly := []
  star := none
  doubleStar := none
  defaultCount := 0

namespace Lowering

/-- The code that takes something apart, the expressions for the parts, and how many iterators
the wrapper has from then on. -/
structure Unpacking where
  statements : List IR.Stmt
  accesses : List IR.Expr
  iterators : Nat

mutual

/-- Takes the value of `source` apart by a pattern. -/
def unpack (wrapper : BodyId) (source : IR.Expr) (iterators : Nat) :
    Pattern → Lowering Unpacking
  | .name param => do
    let leaf ← spell wrapper param.name
    let element ← newTemporary wrapper ("tmp_" ++ leaf)
    return ⟨[.assignVariable element source], [.var element], iterators⟩
  | .tuple elements => do
    let iterator ← newTemporary wrapper ("arg_iter_" ++ iterators.repr)
    let inner ← unpackElements wrapper iterator elements.length 1 (iterators + 1) elements
    let start := IR.Stmt.assignVariable iterator (.iterator source)
    let stop := IR.Stmt.checkExhausted (.var iterator) elements.length
    return ⟨start :: inner.statements ++ [stop], inner.accesses, inner.iterators⟩

/-- Takes the elements of a tuple from its iterator, the next one being the `count`-th of
`expected`. -/
def unpackElements (wrapper : BodyId) (iterator : VariableId) (expected count iterators : Nat) :
    List Pattern → Lowering Unpacking
  | [] => return ⟨[], [], iterators⟩
  | first :: rest => do
    let head ← unpack wrapper (.unpack (.var iterator) count expected) iterators first
    let tail ←
      unpackElements wrapper iterator expected (count + 1) head.iterators rest
    return ⟨head.statements ++ tail.statements, head.accesses ++ tail.accesses, tail.iterators⟩

end

/-- The variable of a parameter of the wrapper. -/
def slotVariable (wrapper : BodyId) (slot : String) : Lowering VariableId := do
  match ← query fun s => s.find? wrapper slot with
  | some v => return v
  | none => throw (.fault (.parameterWithoutVariable slot wrapper))

/-- Takes the placeholders among the parameters apart and passes the others on. -/
def unpackSlots (wrapper : BodyId) (placeholders : List Placeholder) (iterators : Nat) :
    List String → Lowering Unpacking
  | [] => return ⟨[], [], iterators⟩
  | slot :: rest => do
    let v ← slotVariable wrapper slot
    let head ←
      match Placeholder.elementsOf? placeholders slot with
      | some elements => unpack wrapper (.var v) iterators (.tuple elements)
      | none => pure ⟨[], [.var v], iterators⟩
    let tail ← unpackSlots wrapper placeholders head.iterators rest
    return ⟨head.statements ++ tail.statements, head.accesses ++ tail.accesses, tail.iterators⟩

/-- Puts a variable in front of the first one with a name that is not smaller. -/
def insertByName (s : Store) (v : VariableId) : List VariableId → List VariableId
  | [] => [v]
  | w :: rest =>
    if (s.var v).name ≤ (s.var w).name then v :: w :: rest else w :: insertByName s v rest

/-- Variables in the order of their names. -/
def sortByName (s : Store) (vars : List VariableId) : List VariableId :=
  vars.foldr (insertByName s) []

/-- Fills the wrapper and creates the delegate. The delegate's signature is checked before the
wrapper gets any code. -/
def createDelegate (wrapper : BodyId) (signature : Signature) (placeholders : List Placeholder)
    (code : CodeObject) (flags : Flags) (doc : Option String) (location : Location) :
    Lowering BodyId := do
  let name := delegateName signature.name
  let slots ← query fun s => delegateSlots (s.spell wrapper) placeholders signature.slots
  match (delegateSignature name slots).check with
  | .error defect => reject (.invalidSignature defect) location
  | .ok inner =>
    let delegate ← createBody
      { kind := .function
        name := name
        location := location
        provider := some wrapper
        flags := flags
        doc := doc
        signature := some inner }
    let unpacking ← unpackSlots wrapper placeholders 0 signature.slots
    let call := IR.Expr.callFunction (.makeFunction delegate code [] none none) unpacking.accesses
    let temporaries ← query fun s => sortByName s (s.temporaries wrapper)
    attachCode wrapper (.single (.tryFinally
      (.ofStatements (unpacking.statements ++ [.ret call]))
      (.ofStatements (temporaries.map .release))))
    return delegate

end Lowering

end DefinitionLowering
