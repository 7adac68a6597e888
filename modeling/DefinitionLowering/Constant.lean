/-!
# Constants and binary operators

The leaves that the surface tree and the lowered code have in common, with their text.
-/

namespace DefinitionLowering

/-- A literal value. Integers are signed 64-bit words. -/
inductive Constant where
  | none
  | bool (value : Bool)
  | int (value : Int64)
  | str (value : String)
  deriving DecidableEq, Repr, Inhabited

/-- How a constant is listed. A string stands between quotes and is not escaped. -/
def Constant.text : Constant → String
  | .none => "None"
  | .bool true => "True"
  | .bool false => "False"
  | .int value => value.toInt.repr
  | .str value => "'" ++ value ++ "'"

inductive BinaryOperator where
  | add
  | sub
  | mul
  | div
  | mod
  deriving DecidableEq, Repr, Inhabited

def BinaryOperator.symbol : BinaryOperator → String
  | .add => "+"
  | .sub => "-"
  | .mul => "*"
  | .div => "/"
  | .mod => "%"

end DefinitionLowering
