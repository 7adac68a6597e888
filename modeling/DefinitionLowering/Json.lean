/-!
# JSON values

The values in which trees and settings are exchanged. Integers are exact and unbounded; a
number written with a fraction or an exponent is a `real` and is kept as written, because no
reader here accepts one. The fields of an object keep their order and have distinct keys.

A type is read by a function to `Option`. An enumeration is written as its tag: a bare string
when the alternative has no data, an object with the tag as its only key otherwise
(`variant?`). `depth` bounds the recursion of the readers.
-/

namespace DefinitionLowering

inductive Json where
  | null
  | bool (value : Bool)
  | int (value : Int)
  | real (written : String)
  | str (value : String)
  | array (items : List Json)
  | object (fields : List (String × Json))

namespace Json

instance : Inhabited Json := ⟨.null⟩

mutual

/-- How deep arrays and objects are nested; scalars have depth zero. -/
def depth : Json → Nat
  | .array items => itemsDepth items + 1
  | .object fields => fieldsDepth fields + 1
  | _ => 0

def itemsDepth : List Json → Nat
  | [] => 0
  | item :: rest => max item.depth (itemsDepth rest)

def fieldsDepth : List (String × Json) → Nat
  | [] => 0
  | (_, value) :: rest => max value.depth (fieldsDepth rest)

end

/-! ## Writing -/

/-- An alternative with data. -/
def tagged (tag : String) (data : Json) : Json :=
  .object [(tag, data)]

def ofNat (n : Nat) : Json :=
  .int n

def strings (texts : List String) : Json :=
  .array (texts.map .str)

/-- An absent value is written as null. -/
def ofOption {α : Type} (encode : α → Json) : Option α → Json
  | none => .null
  | some value => encode value

/-! ## Reading -/

def fields? : Json → Option (List (String × Json))
  | .object fields => some fields
  | _ => none

/-- The value under a key of an object. -/
def field? (json : Json) (key : String) : Option Json :=
  json.fields?.bind fun fields => fields.lookup key

def items? : Json → Option (List Json)
  | .array items => some items
  | _ => none

def str? : Json → Option String
  | .str value => some value
  | _ => none

def bool? : Json → Option Bool
  | .bool value => some value
  | _ => none

/-- An integer below `2 ^ 32` and not negative. -/
def word32? : Json → Option UInt32
  | .int value => if 0 ≤ value ∧ value < 4294967296 then some (UInt32.ofNat value.toNat) else none
  | _ => none

/-- An integer from `-2 ^ 63` up to and not including `2 ^ 63`. -/
def int64? : Json → Option Int64
  | .int value =>
    if -9223372036854775808 ≤ value ∧ value < 9223372036854775808 then some (Int64.ofInt value)
    else none
  | _ => none

/-- A list of values of one type. -/
def list? {α : Type} (decode : Json → Option α) (json : Json) : Option (List α) :=
  json.items?.bind fun items => items.mapM decode

/-- A value or null. -/
def nullable? {α : Type} (decode : Json → Option α) : Json → Option (Option α)
  | .null => some none
  | json => (decode json).map some

/-- A field that may be missing or null. -/
def optionalField? {α : Type} (decode : Json → Option α) (json : Json) (key : String) :
    Option (Option α) :=
  json.fields?.bind fun fields =>
    match fields.lookup key with
    | none => some none
    | some value => nullable? decode value

/-- The value under a key, or a fallback when the key is missing. -/
def fieldOr? {α : Type} (decode : Json → Option α) (fallback : α) (json : Json)
    (key : String) : Option α :=
  json.fields?.bind fun fields =>
    match fields.lookup key with
    | none => some fallback
    | some value => decode value

/-- The tag of an alternative, with its data unless it is written as a bare string. -/
def variant? : Json → Option (String × Option Json)
  | .str tag => some (tag, none)
  | .object [(tag, data)] => some (tag, some data)
  | _ => none

/-- The tag of an alternative without data; null counts as no data. -/
def unitVariant? : Json → Option String
  | .str tag => some tag
  | .object [(tag, .null)] => some tag
  | _ => none

end Json

end DefinitionLowering
