import DefinitionLowering.Lowering.Definition

/-!
# The scopes of a module

A `Region` is a scope as it is written: a header, which says what the scope is and what its
statements declare, and the parts that the scope evaluates, in order, with the scopes nested in
it.  The scope around a definition, class or lambda evaluates its decorators, defaults,
annotations and bases, as far as the dialect has them.

Seen from the scopes around it, a region becomes a `Scope`, where names are spelled as they are
looked up.  `resolve` and `search` say which scope's variable a name is.  They know nothing of
bodies and variables: they are what the lowering is measured by.
-/

namespace DefinitionLowering.Surface

/-! ## Regions -/

/-- What a scope is, and what its statements declare. -/
structure Header where
  kind : BodyKind
  name : String
  /-- Absent for modules and classes. -/
  params : Option Params
  declarations : List Declaration
  location : Location

/-- What is done with a name. -/
inductive Role where
  | read
  | bind
  deriving DecidableEq, Repr

mutual

/-- What a scope evaluates. -/
inductive Part where
  | name (role : Role) (id : String)
  | yield (location : Location)
  | yieldFrom (location : Location)
  | await (location : Location)
  | ret (hasValue : Bool) (location : Location)
  | scope (inner : Region)

structure Region where
  header : Header
  parts : List Part

end

/-- The kind of a lambda: it goes by the evidence in its body. -/
def lambdaKind (body : Expr) : CallableKind :=
  (Classifier.suspension [⟨.expr body, .unknown⟩] .function).1

/-- The kind of a definition. -/
def defKind (statements : List Stmt) (isAsync : Bool) : CallableKind :=
  (Classifier.suspension statements (if isAsync then .coroutine else .function)).1

mutual

/-- The parts of an expression. Mistakes in it are reported at the given place. -/
def Expr.parts (location : Location) : Expr → List Part
  | .name id => [.name .read id]
  | .constant _ => []
  | .call callee args => callee.parts location ++ exprsParts location args
  | .binary left _ right => left.parts location ++ right.parts location
  | .attribute value _ => value.parts location
  | .tuple items => exprsParts location items
  | .yield value => .yield location :: optionParts location value
  | .yieldFrom value => .yieldFrom location :: value.parts location
  | .await value => .await location :: value.parts location
  | .lambda definition => definition.parts

def exprsParts (location : Location) : List Expr → List Part
  | [] => []
  | first :: rest => first.parts location ++ exprsParts location rest

def optionParts (location : Location) : Option Expr → List Part
  | none => []
  | some value => value.parts location

/-- The defaults of keyword-only parameters, as far as there are parameters for them. -/
def keywordParts (location : Location) : List Param → List (Option Expr) → List Part
  | _ :: named, first :: rest => optionParts location first ++ keywordParts location named rest
  | _, _ => []

/-- The scope around a lambda evaluates its defaults. -/
def Lambda.parts : Lambda → List Part
  | ⟨⟨positional, defaults, star, keywordOnly, keywordDefaults, doubleStar⟩, body, location⟩ =>
    exprsParts location defaults ++ keywordParts location keywordOnly keywordDefaults ++
      [.scope
        { header :=
            { kind := .callable (lambdaKind body)
              name := "<lambda>"
              params :=
                some ⟨positional, defaults, star, keywordOnly, keywordDefaults, doubleStar⟩
              declarations := []
              location := location }
          parts := body.parts location }]

end

/-- The annotations of a definition, in a dialect that has them. -/
def hintParts (dialect : Dialect) (location : Location) (params : Params)
    (returns : Option Expr) : List Part :=
  if dialect.annotations then
    (Lowering.annotationsOf params returns).flatMap fun written => written.2.parts location
  else []

mutual

def Stmt.parts (dialect : Dialect) : Stmt → List Part
  | ⟨kind, location⟩ => kind.parts dialect location

def StmtKind.parts (dialect : Dialect) (location : Location) : StmtKind → List Part
  | .expr value => value.parts location
  | .assign target value => value.parts location ++ [.name .bind target]
  | .pass | .global _ | .nonlocal _ => []
  | .ret value => .ret value.isSome location :: optionParts location value
  | .raise value => optionParts location value
  | .branch test body orelse =>
    test.parts location ++ stmtsParts dialect body ++ stmtsParts dialect orelse
  | .loop test body => test.parts location ++ stmtsParts dialect body
  | .define definition => definition.parts dialect
  | .defineClass definition => definition.parts dialect

/-- The scope around a definition evaluates its decorators, defaults and annotations, and
binds its name. -/
def Def.parts (dialect : Dialect) : Def → List Part
  | ⟨name, params, body, decorators, returns, isAsync, location⟩ =>
    exprsParts location decorators ++ exprsParts location params.defaults ++
      keywordParts location params.keywordOnly params.keywordDefaults ++
      hintParts dialect location params returns ++
      [.scope
        { header :=
            { kind := .callable (defKind (undocumented body) isAsync)
              name := name
              params := some params
              declarations := declarations (undocumented body)
              location := location }
          parts := undocumentedParts dialect body },
       .name .bind name]

/-- The scope around a class evaluates its decorators and bases, and binds its name. -/
def ClassDef.parts (dialect : Dialect) : ClassDef → List Part
  | ⟨name, bases, body, decorators, location⟩ =>
    exprsParts location decorators ++ exprsParts location bases ++
      [.scope
        { header :=
            { kind := .classBody
              name := name
              params := none
              declarations := declarations (undocumented body)
              location := location }
          parts := undocumentedParts dialect body },
       .name .bind name]

def stmtsParts (dialect : Dialect) : List Stmt → List Part
  | [] => []
  | first :: rest => first.parts dialect ++ stmtsParts dialect rest

/-- The parts of a body without its documentation string. -/
def undocumentedParts (dialect : Dialect) : List Stmt → List Part
  | [] => []
  | first :: rest =>
    if first.docstring?.isSome then stmtsParts dialect rest
    else first.parts dialect ++ stmtsParts dialect rest

end

/-- The outermost scope. -/
def Module.region (dialect : Dialect) (m : Module) : Region where
  header :=
    { kind := .moduleBody
      name := m.name
      params := none
      declarations := declarations (undocumented m.body)
      location := .moduleStart }
  parts := stmtsParts dialect (undocumented m.body)

/-! ## Scopes -/

/-- A scope with its names as they are spelled inside it. -/
structure Scope where
  kind : BodyKind
  name : String
  params : List String
  /-- The parameters, and the names that are bound without being declared nonlocal. -/
  own : List String
  globals : List String
  deriving DecidableEq

/-- A name as it is spelled in the first of some scopes, each standing in the next: the
innermost class decides. -/
def spellAt : List Scope → String → String
  | [], name => name
  | scope :: outer, name =>
    if scope.kind = .classBody then spellIn scope.name name else spellAt outer name

namespace Header

def globals (h : Header) : List (String × Location) :=
  h.declarations.filterMap Declaration.global?

def nonlocals (h : Header) : List (String × Location) :=
  h.declarations.filterMap Declaration.nonlocal?

def bound (h : Header) : List String :=
  h.declarations.filterMap Declaration.binding?

/-- A name as it is spelled inside a scope that stands in the given ones. -/
def spell (h : Header) (outer : List Scope) (name : String) : String :=
  if h.kind = .classBody then spellIn h.name name else spellAt outer name

/-- The parameters, also those inside patterns. They are spelled as outside the scope. -/
def paramNames (h : Header) (outer : List Scope) : List String :=
  match h.params with
  | none => []
  | some params => params.writtenNames.map (spellAt outer)

/-- The bound names that are not declared nonlocal. -/
def localNames (h : Header) (outer : List Scope) : List String :=
  (h.bound.map (h.spell outer)).filter
    (· ∉ h.nonlocals.map fun declared => h.spell outer declared.1)

/-- The scope that a region is for its own parts. -/
def scope (h : Header) (outer : List Scope) : Scope where
  kind := h.kind
  name := h.name
  params := h.paramNames outer
  own := h.paramNames outer ++ h.localNames outer
  globals := h.globals.map fun declared => h.spell outer declared.1

end Header

/-! ## Resolving names -/

section Resolve

variable {α : Type} (view : α → Scope) (name : String)

/-- The scope whose variable a name is, found among the scopes around the one that evaluates
it: the nearest callable that has the name. Classes are passed over. A scope that declares the
name global ends the search, and so does the module. -/
def search : List α → Option α
  | [] => none
  | a :: outer =>
    match (view a).kind with
    | .moduleBody => none
    | .classBody => search outer
    | .callable _ =>
      if name ∈ (view a).globals then none
      else if name ∈ (view a).own then some a
      else search outer

/-- The scope whose variable a name is that the first scope evaluates. There is none if the
name is left for run time: in a module, or when it is declared global. -/
def resolve : List α → Option α
  | [] => none
  | a :: outer =>
    if (view a).kind = .moduleBody ∨ name ∈ (view a).globals then none
    else if name ∈ (view a).own then some a
    else search view name outer

variable {view name}

/-- A search gives a callable around that has the name for its own. -/
theorem search_eq_some {outer : List α} {a : α} (h : search view name outer = some a) :
    a ∈ outer ∧ (∃ kind, (view a).kind = .callable kind) ∧ name ∉ (view a).globals ∧
      name ∈ (view a).own := by
  induction outer with
  | nil => cases h
  | cons b rest ih =>
    have hrest : search view name rest = some a → a ∈ b :: rest ∧
        (∃ kind, (view a).kind = .callable kind) ∧ name ∉ (view a).globals ∧
          name ∈ (view a).own := fun h =>
      ⟨List.mem_cons_of_mem _ (ih h).1, (ih h).2⟩
    rw [search] at h
    split at h
    · cases h
    · exact hrest h
    · rename_i kind hkind
      split at h
      · cases h
      · rename_i hglobal
        split at h
        · rename_i hown
          cases h
          exact ⟨List.mem_cons_self, ⟨kind, hkind⟩, hglobal, hown⟩
        · exact hrest h

theorem resolve_eq_some {scopes : List α} {a : α} (h : resolve view name scopes = some a) :
    a ∈ scopes ∧ (view a).kind ≠ .moduleBody ∧ name ∉ (view a).globals ∧
      name ∈ (view a).own := by
  cases scopes with
  | nil => cases h
  | cons b outer =>
    rw [resolve] at h
    split at h
    · cases h
    · rename_i hnot
      rw [not_or] at hnot
      split at h
      · rename_i hown
        cases h
        exact ⟨List.mem_cons_self, hnot.1, hnot.2, hown⟩
      · obtain ⟨hmem, ⟨kind, hkind⟩, hrest⟩ := search_eq_some h
        exact ⟨List.mem_cons_of_mem _ hmem, by rw [hkind]; exact BodyKind.noConfusion, hrest⟩

/-- Searching does not depend on what comes along with the scopes. -/
theorem search_map (outer : List α) :
    search id name (outer.map view) = (search view name outer).map view := by
  induction outer with
  | nil => rfl
  | cons a rest ih =>
    rw [List.map_cons, search, search, id]
    split
    · rfl
    · exact ih
    · split
      · rfl
      · split
        · rfl
        · exact ih

end Resolve

/-! ## Names of nonlocal declarations -/

mutual

/-- Whether no scope declares a reserved name nonlocal. -/
def Region.plain : Region → Bool
  | ⟨header, parts⟩ =>
    header.nonlocals.all (fun declared => !isReserved declared.1) && partsPlain parts

def Part.plain : Part → Bool
  | .scope inner => inner.plain
  | _ => true

def partsPlain : List Part → Bool
  | [] => true
  | first :: rest => first.plain && partsPlain rest

end

@[simp] theorem partsPlain_append (first rest : List Part) :
    partsPlain (first ++ rest) = (partsPlain first && partsPlain rest) := by
  induction first with
  | nil => rfl
  | cons part parts ih => simp [partsPlain, ih, Bool.and_assoc]

end DefinitionLowering.Surface
