import DefinitionLowering.IR.Store

/-!
# Releases

Every variable is released by the body that owns it, whichever way control leaves the body:
the code is wrapped in a `try` whose `finally` part releases the variables in the order they
were declared. Variables of enclosing bodies are left alone, and so are temporaries, which the
code that makes them releases. A body that owns no variable keeps its code.
-/

namespace DefinitionLowering.IR

/-- A block followed by the releases of some variables. -/
def Block.releasing (vars : List VariableId) (tried : Block) : Block :=
  .single (.tryFinally tried (.ofStatements (vars.map .release)))

namespace Store

/-- Releases the variables of a body when it is left. The names of a module are not
variables. -/
def releaseVariables (s : Store) (b : BodyId) : Except Fault Store :=
  if s.isModule b then
    .error (.releaseInModule b)
  else if (s.ownVariables b).isEmpty then
    .ok s
  else
    .ok (s.wrapCode b (Block.releasing (s.ownVariables b)))

end Store

end DefinitionLowering.IR
