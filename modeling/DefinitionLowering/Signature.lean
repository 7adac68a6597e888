import DefinitionLowering.Kind

/-!
# Signatures

A `Signature` lists the formal parameters of a callable by name. Its `slots` are the names in
the order in which they become variables: positional, keyword-only, star, double star.

A name that starts with a dot is reserved: a positional parameter that is a tuple pattern is
represented by a placeholder `.1`, `.2`, and so on, and nothing else may look like one.
`Signature.defect?` finds what is wrong with a signature. A repeated name is found first, then
a reserved one, then an excess of defaults.
-/

namespace DefinitionLowering

/-! ## Reserved names -/

/-- Whether a name starts with a dot. -/
def isReserved (name : String) : Bool :=
  name.toList.head? == some '.'

/-- The name of a tuple-shaped parameter, counted from one. -/
def placeholderName (number : Nat) : String :=
  "." ++ number.repr

/-- Whether a name is a dot followed by at least one digit and nothing else. -/
def isPlaceholder (name : String) : Bool :=
  match name.toList with
  | '.' :: digits => !digits.isEmpty && digits.all Char.isDigit
  | _ => false

theorem isPlaceholder_placeholderName (number : Nat) :
    isPlaceholder (placeholderName number) = true := by
  have hne : (Nat.toDigits 10 number).isEmpty = false := by
    simp [Nat.toDigits_ne_nil]
  have hdigits : (Nat.toDigits 10 number).all Char.isDigit = true := by
    rw [List.all_eq_true]
    intro c hc
    exact Nat.isDigit_of_mem_toDigits (by decide) (by decide) hc
  simp [isPlaceholder, placeholderName, Nat.repr, hne, hdigits]

theorem isReserved_of_isPlaceholder {name : String} (h : isPlaceholder name = true) :
    isReserved name = true := by
  unfold isPlaceholder at h
  split at h
  · rename_i digits hname
    simp [isReserved, hname]
  · contradiction

/-! ## Signatures -/

structure Signature where
  name : String
  positional : List String
  keywordOnly : List String
  star : Option String
  doubleStar : Option String
  /-- How many of the last positional parameters have a default. -/
  defaultCount : Nat
  deriving DecidableEq, Repr, Inhabited

namespace Signature

/-- All names, in the order of the variables they become. -/
def slots (s : Signature) : List String :=
  s.positional ++ s.keywordOnly ++ s.star.toList ++ s.doubleStar.toList

/-- The positional parameters that have a default: the last ones. -/
def defaulted (s : Signature) : List String :=
  s.positional.drop (s.positional.length - s.defaultCount)

def hasPlaceholder (s : Signature) : Bool :=
  s.positional.any isPlaceholder

/-- The part of the text that stands before the keyword-only parameters: a star alone marks
where they begin when there is no star parameter. -/
def starText (s : Signature) : List String :=
  match s.star with
  | some name => ["*" ++ name]
  | none => if s.keywordOnly.isEmpty then [] else ["*"]

/-- The parameters as they are written in a definition, without defaults. -/
def text (s : Signature) : String :=
  ", ".intercalate
    (s.positional ++ s.starText ++ s.keywordOnly ++ s.doubleStar.toList.map ("**" ++ ·))

/-! ## Validity -/

/-- What makes a signature invalid. -/
inductive Defect where
  | duplicate (name : String)
  | reserved (name : String)
  | excessDefaults (defaults positional : Nat)
  deriving DecidableEq, Repr

def Defect.message : Defect → String
  | .duplicate name => "duplicate argument '" ++ name ++ "' in function definition"
  | .reserved name => "invalid parameter name '" ++ name ++ "'"
  | .excessDefaults defaults positional =>
    defaults.repr ++ " default values given for " ++ positional.repr ++ " positional parameters"

/-- The first name of the list that is in `seen` or stands earlier in the list. -/
def firstRepeated (seen : List String) : List String → Option String
  | [] => none
  | name :: rest => if name ∈ seen then some name else firstRepeated (name :: seen) rest

/-- The first name that may not be used: a reserved name of a parameter that is not
positional, else a reserved positional name that is no placeholder. -/
def firstReserved (s : Signature) : Option String :=
  ((s.keywordOnly ++ s.star.toList ++ s.doubleStar.toList).find? isReserved).or
    (s.positional.find? fun name => isReserved name && !isPlaceholder name)

/-- What is wrong with a signature, if anything is. -/
def defect? (s : Signature) : Option Defect :=
  match firstRepeated [] s.slots with
  | some name => some (.duplicate name)
  | none =>
    match s.firstReserved with
    | some name => some (.reserved name)
    | none =>
      if s.defaultCount > s.positional.length then
        some (.excessDefaults s.defaultCount s.positional.length)
      else
        none

/-- The signature itself if nothing is wrong with it. -/
def check (s : Signature) : Except Defect Signature :=
  match s.defect? with
  | some defect => .error defect
  | none => .ok s

theorem check_eq_ok_iff {s t : Signature} : s.check = .ok t ↔ s.defect? = none ∧ t = s := by
  unfold check
  cases s.defect? with
  | none => simp [eq_comm]
  | some defect => simp

end Signature

end DefinitionLowering
