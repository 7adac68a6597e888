import DefinitionLowering.Lowering.Definition

/-!
# The identifiers of a module

`Module.identifiers` lists every identifier that is written in a module, at any depth: names that
are evaluated, attributes, parameters, and names that are assigned, declared or defined.

The lemmas say that what lowering looks at on its way — the hints of parameters, the declarations
of a scope, a body without its documentation string — brings no other identifiers.
-/

namespace DefinitionLowering.Surface

/-! ## Lists of identifiers -/

mutual

def Expr.identifiers : Expr → List String
  | .name id => [id]
  | .constant _ => []
  | .call callee args => callee.identifiers ++ exprsIdentifiers args
  | .binary left _ right => left.identifiers ++ right.identifiers
  | .attribute value name => value.identifiers ++ [name]
  | .tuple items => exprsIdentifiers items
  | .yield value => optionIdentifiers value
  | .yieldFrom value | .await value => value.identifiers
  | .lambda definition => definition.identifiers

def exprsIdentifiers : List Expr → List String
  | [] => []
  | first :: rest => first.identifiers ++ exprsIdentifiers rest

def optionIdentifiers : Option Expr → List String
  | none => []
  | some value => value.identifiers

def optionsIdentifiers : List (Option Expr) → List String
  | [] => []
  | first :: rest => optionIdentifiers first ++ optionsIdentifiers rest

def Lambda.identifiers : Lambda → List String
  | ⟨params, body, _⟩ => params.identifiers ++ body.identifiers

def Params.identifiers : Params → List String
  | ⟨positional, defaults, star, keywordOnly, keywordDefaults, doubleStar⟩ =>
    patternsIdentifiers positional ++ exprsIdentifiers defaults ++ optionParamIdentifiers star ++
      paramsIdentifiers keywordOnly ++ optionsIdentifiers keywordDefaults ++
      optionParamIdentifiers doubleStar

def Pattern.identifiers : Pattern → List String
  | .name param => param.identifiers
  | .tuple elements => patternsIdentifiers elements

def patternsIdentifiers : List Pattern → List String
  | [] => []
  | first :: rest => first.identifiers ++ patternsIdentifiers rest

def Param.identifiers : Param → List String
  | ⟨name, hint⟩ => name :: optionIdentifiers hint

def optionParamIdentifiers : Option Param → List String
  | none => []
  | some param => param.identifiers

def paramsIdentifiers : List Param → List String
  | [] => []
  | first :: rest => first.identifiers ++ paramsIdentifiers rest

end

mutual

def Stmt.identifiers : Stmt → List String
  | ⟨kind, _⟩ => kind.identifiers

def StmtKind.identifiers : StmtKind → List String
  | .expr value => value.identifiers
  | .assign target value => target :: value.identifiers
  | .pass => []
  | .ret value | .raise value => optionIdentifiers value
  | .branch test body orelse =>
    test.identifiers ++ stmtsIdentifiers body ++ stmtsIdentifiers orelse
  | .loop test body => test.identifiers ++ stmtsIdentifiers body
  | .global names | .nonlocal names => names
  | .define definition => definition.identifiers
  | .defineClass definition => definition.identifiers

def Def.identifiers : Def → List String
  | ⟨name, params, body, decorators, returns, _, _⟩ =>
    name :: (params.identifiers ++ stmtsIdentifiers body ++ exprsIdentifiers decorators ++
      optionIdentifiers returns)

def ClassDef.identifiers : ClassDef → List String
  | ⟨name, bases, body, decorators, _⟩ =>
    name :: (exprsIdentifiers bases ++ stmtsIdentifiers body ++ exprsIdentifiers decorators)

def stmtsIdentifiers : List Stmt → List String
  | [] => []
  | first :: rest => first.identifiers ++ stmtsIdentifiers rest

end

/-- All identifiers that are written in a module. -/
def Module.identifiers (m : Module) : List String :=
  stmtsIdentifiers m.body

variable {id : String}

theorem mem_exprsIdentifiers {es : List Expr} :
    id ∈ exprsIdentifiers es ↔ ∃ e ∈ es, id ∈ e.identifiers := by
  induction es with
  | nil => simp [exprsIdentifiers]
  | cons first rest ih => simp [exprsIdentifiers, ih]

theorem mem_optionIdentifiers {value : Option Expr} :
    id ∈ optionIdentifiers value ↔ ∃ e ∈ value, id ∈ e.identifiers := by
  cases value <;> simp [optionIdentifiers]

theorem mem_stmtsIdentifiers {statements : List Stmt} :
    id ∈ stmtsIdentifiers statements ↔ ∃ statement ∈ statements, id ∈ statement.identifiers := by
  induction statements with
  | nil => simp [stmtsIdentifiers]
  | cons first rest ih => simp [stmtsIdentifiers, ih]

/-! ## Parts -/

section Parts

variable {allowed : String → Prop}

theorem forall_params_identifiers {params : Params} :
    (∀ id ∈ params.identifiers, allowed id) ↔
      (∀ id ∈ patternsIdentifiers params.positional, allowed id) ∧
      (∀ id ∈ exprsIdentifiers params.defaults, allowed id) ∧
      (∀ id ∈ optionParamIdentifiers params.star, allowed id) ∧
      (∀ id ∈ paramsIdentifiers params.keywordOnly, allowed id) ∧
      (∀ id ∈ optionsIdentifiers params.keywordDefaults, allowed id) ∧
      (∀ id ∈ optionParamIdentifiers params.doubleStar, allowed id) := by
  obtain ⟨positional, defaults, star, keywordOnly, keywordDefaults, doubleStar⟩ := params
  simp only [Params.identifiers, List.forall_mem_append, and_assoc]

theorem forall_lambda_identifiers {l : Lambda} :
    (∀ id ∈ l.identifiers, allowed id) ↔
      (∀ id ∈ l.params.identifiers, allowed id) ∧ (∀ id ∈ l.body.identifiers, allowed id) := by
  obtain ⟨params, body, place⟩ := l
  rw [Lambda.identifiers, List.forall_mem_append]

theorem forall_def_identifiers {d : Def} :
    (∀ id ∈ d.identifiers, allowed id) ↔
      allowed d.name ∧ (∀ id ∈ d.params.identifiers, allowed id) ∧
      (∀ id ∈ stmtsIdentifiers d.body, allowed id) ∧
      (∀ id ∈ exprsIdentifiers d.decorators, allowed id) ∧
      (∀ id ∈ optionIdentifiers d.returns, allowed id) := by
  obtain ⟨name, params, body, decorators, returns, isAsync, place⟩ := d
  simp only [Def.identifiers, List.forall_mem_cons, List.forall_mem_append, and_assoc]

theorem forall_classDef_identifiers {d : ClassDef} :
    (∀ id ∈ d.identifiers, allowed id) ↔
      allowed d.name ∧ (∀ id ∈ exprsIdentifiers d.bases, allowed id) ∧
      (∀ id ∈ stmtsIdentifiers d.body, allowed id) ∧
      (∀ id ∈ exprsIdentifiers d.decorators, allowed id) := by
  obtain ⟨name, bases, body, decorators, place⟩ := d
  simp only [ClassDef.identifiers, List.forall_mem_cons, List.forall_mem_append, and_assoc]

end Parts

/-- Without its documentation string a body has no other identifiers. -/
theorem mem_identifiers_of_undocumented {body : List Stmt}
    (h : id ∈ stmtsIdentifiers (undocumented body)) : id ∈ stmtsIdentifiers body := by
  obtain ⟨statement, hmem, hid⟩ := mem_stmtsIdentifiers.1 h
  refine mem_stmtsIdentifiers.2 ⟨statement, ?_, hid⟩
  cases body with
  | nil => exact hmem
  | cons first rest =>
    rw [undocumented] at hmem
    split at hmem
    · exact List.mem_cons_of_mem _ hmem
    · exact hmem

/-! ## Hints -/

mutual

theorem mem_pattern_of_leaf {param : Param} : ∀ {pattern : Pattern}, param ∈ pattern.leaves →
    id ∈ param.identifiers → id ∈ pattern.identifiers
  | .name leaf, h, hid => by
    rw [Pattern.leaves, List.mem_singleton] at h
    rw [Pattern.identifiers, ← h]
    exact hid
  | .tuple elements, h, hid => by
    rw [Pattern.leaves] at h
    rw [Pattern.identifiers]
    exact mem_patterns_of_leaf h hid

theorem mem_patterns_of_leaf {param : Param} : ∀ {patterns : List Pattern},
    param ∈ patternLeaves patterns → id ∈ param.identifiers → id ∈ patternsIdentifiers patterns
  | [], h, _ => by
    rw [patternLeaves] at h
    cases h
  | first :: rest, h, hid => by
    rw [patternLeaves, List.mem_append] at h
    rw [patternsIdentifiers, List.mem_append]
    exact h.imp (mem_pattern_of_leaf · hid) (mem_patterns_of_leaf · hid)

end

theorem mem_paramsIdentifiers {params : List Param} :
    id ∈ paramsIdentifiers params ↔ ∃ param ∈ params, id ∈ param.identifiers := by
  induction params with
  | nil => simp [paramsIdentifiers]
  | cons first rest ih => simp [paramsIdentifiers, ih]

theorem mem_optionParamIdentifiers {param : Option Param} :
    id ∈ optionParamIdentifiers param ↔ ∃ p ∈ param, id ∈ p.identifiers := by
  cases param <;> simp [optionParamIdentifiers]

/-- The parameters of a list, those in patterns included, have its identifiers. -/
theorem mem_params_of_param {params : Params} {param : Param}
    (h : param ∈ patternLeaves params.positional ++ params.named) (hid : id ∈ param.identifiers) :
    id ∈ params.identifiers := by
  obtain ⟨positional, defaults, star, keywordOnly, keywordDefaults, doubleStar⟩ := params
  simp only [Params.named, List.mem_append, Option.mem_toList] at h
  simp only [Params.identifiers, List.mem_append]
  rcases h with h | (h | h) | h
  · exact Or.inl (Or.inl (Or.inl (Or.inl (Or.inl (mem_patterns_of_leaf h hid)))))
  · exact Or.inl (Or.inl (Or.inl (Or.inr (mem_optionParamIdentifiers.2 ⟨param, h, hid⟩))))
  · exact Or.inl (Or.inl (Or.inr (mem_paramsIdentifiers.2 ⟨param, h, hid⟩)))
  · exact Or.inr (mem_optionParamIdentifiers.2 ⟨param, h, hid⟩)

/-- The annotations of a definition have its identifiers. -/
theorem mem_identifiers_of_hint {params : Params} {returns : Option Expr}
    {written : String × Expr} (h : written ∈ Lowering.annotationsOf params returns)
    (hid : id ∈ written.2.identifiers) :
    id ∈ params.identifiers ∨ id ∈ optionIdentifiers returns := by
  rcases List.mem_append.1 h with h | h
  · obtain ⟨⟨name, hint⟩, hparam, hhint⟩ := List.mem_filterMap.1 h
    obtain ⟨value, rfl, rfl⟩ := Option.map_eq_some_iff.1 hhint
    refine Or.inl (mem_params_of_param hparam ?_)
    rw [Param.identifiers]
    exact List.mem_cons_of_mem _ hid
  · obtain ⟨value, hvalue, rfl⟩ := List.mem_map.1 h
    exact Or.inr (mem_optionIdentifiers.2 ⟨value, Option.mem_toList.1 hvalue, hid⟩)

/-! ## Declarations -/

/-- The name that a declaration is about. -/
def Declaration.name : Declaration → String
  | .global name _ | .nonlocal name _ | .binding name => name

mutual

theorem mem_stmt_of_declaration {declaration : Declaration} : ∀ {statement : Stmt},
    declaration ∈ statement.declarations → declaration.name ∈ statement.identifiers
  | ⟨.global names, _⟩, h => by
    rw [Stmt.declarations] at h
    obtain ⟨name, hname, rfl⟩ := List.mem_map.1 h
    rw [Stmt.identifiers, StmtKind.identifiers]
    exact hname
  | ⟨.nonlocal names, _⟩, h => by
    rw [Stmt.declarations] at h
    obtain ⟨name, hname, rfl⟩ := List.mem_map.1 h
    rw [Stmt.identifiers, StmtKind.identifiers]
    exact hname
  | ⟨.assign target _, _⟩, h => by
    rw [Stmt.declarations] at h
    rw [List.mem_singleton.1 h, Stmt.identifiers, StmtKind.identifiers]
    exact List.mem_cons_self
  | ⟨.define ⟨name, _, _, _, _, _, _⟩, _⟩, h => by
    rw [Stmt.declarations] at h
    rw [List.mem_singleton.1 h, Stmt.identifiers, StmtKind.identifiers, Def.identifiers]
    exact List.mem_cons_self
  | ⟨.defineClass ⟨name, _, _, _, _⟩, _⟩, h => by
    rw [Stmt.declarations] at h
    rw [List.mem_singleton.1 h, Stmt.identifiers, StmtKind.identifiers, ClassDef.identifiers]
    exact List.mem_cons_self
  | ⟨.branch _ body orelse, _⟩, h => by
    rw [Stmt.declarations, List.mem_append] at h
    rw [Stmt.identifiers, StmtKind.identifiers, List.mem_append, List.mem_append]
    rcases h with h | h
    · exact Or.inl (Or.inr (mem_stmts_of_declaration h))
    · exact Or.inr (mem_stmts_of_declaration h)
  | ⟨.loop _ body, _⟩, h => by
    rw [Stmt.declarations] at h
    rw [Stmt.identifiers, StmtKind.identifiers]
    exact List.mem_append_right _ (mem_stmts_of_declaration h)
  | ⟨.expr _, _⟩, h | ⟨.pass, _⟩, h | ⟨.ret _, _⟩, h | ⟨.raise _, _⟩, h => by
    simp [Stmt.declarations] at h

theorem mem_stmts_of_declaration {declaration : Declaration} : ∀ {statements : List Stmt},
    declaration ∈ declarations statements → declaration.name ∈ stmtsIdentifiers statements
  | [], h => by
    rw [declarations] at h
    cases h
  | first :: rest, h => by
    rw [declarations, List.mem_append] at h
    rw [stmtsIdentifiers, List.mem_append]
    exact h.imp mem_stmt_of_declaration mem_stmts_of_declaration

end

variable {statements : List Stmt}

theorem mem_identifiers_of_nonlocal {declared : String × Location}
    (h : declared ∈ nonlocalNames statements) : declared.1 ∈ stmtsIdentifiers statements := by
  obtain ⟨declaration, hmem, hsome⟩ := List.mem_filterMap.1 h
  cases declaration with
  | «nonlocal» name location =>
    cases hsome
    exact mem_stmts_of_declaration hmem
  | _ => cases hsome

theorem mem_identifiers_of_bound (h : id ∈ boundNames statements) :
    id ∈ stmtsIdentifiers statements := by
  obtain ⟨declaration, hmem, hsome⟩ := List.mem_filterMap.1 h
  cases declaration with
  | binding name =>
    cases hsome
    exact mem_stmts_of_declaration hmem
  | _ => cases hsome

end DefinitionLowering.Surface
