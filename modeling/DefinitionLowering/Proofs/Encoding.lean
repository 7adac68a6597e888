import DefinitionLowering.Dialect.Json
import DefinitionLowering.Surface.Json

/-!
# The JSON forms are lossless

A reader is a left inverse of its writer: `Json.Lossless encode decode`. Readers of trees take a
bound for the depth of the value, so what is proved by induction is that a tree written with a
depth below the bound is read back under that bound (`Surface.Expr.ofJsonWithin?_toJson`,
`Surface.Stmt.ofJsonWithin?_toJson`); `ofJson?` takes the bound from the value itself.

* One section collects what the shared pieces of the format read and how deep they are: a tagged
  alternative, an object, a list, a part that may be absent. An absent part is written as null,
  so it matters that no present one is (`Surface.Expr.toJson_ne_null`).
* `Surface.json_lossless` — every tree type of the surface language and every dialect is read
  back from its JSON form, whatever its depth, its integers, its strings and its absent parts.
-/

namespace DefinitionLowering

namespace Json

/-- Whatever `encode` writes, `decode` reads back as the value it was written from. -/
def Lossless {α : Type} (encode : α → Json) (decode : Json → Option α) : Prop :=
  ∀ a, decode (encode a) = some a

/-! ## The pieces of the format -/

section Pieces

variable {α : Type} {encode : α → Json} {decode : Json → Option α}
variable {fields : List (String × Json)} {key tag : String} {data value : Json}

@[simp]
theorem variant?_tagged : (tagged tag data).variant? = some (tag, some data) :=
  rfl

@[simp]
theorem variant?_str : (str tag).variant? = some (tag, none) :=
  rfl

@[simp]
theorem field?_object : (object fields).field? key = fields.lookup key :=
  rfl

@[simp]
theorem str?_str (text : String) : (str text).str? = some text :=
  rfl

@[simp]
theorem bool?_bool (b : Bool) : (bool b).bool? = some b :=
  rfl

@[simp]
theorem word32?_ofNat_toNat (word : UInt32) : (ofNat word.toNat).word32? = some word := by
  have hbound : word.toNat < 4294967296 := word.toNat_lt
  have hlt : ((word.toNat : Nat) : Int) < 4294967296 := by omega
  simp [ofNat, word32?, hlt]

@[simp]
theorem int64?_int_toInt (word : Int64) : (int word.toInt).int64? = some word := by
  have hlow : -9223372036854775808 ≤ word.toInt := word.le_toInt
  have hhigh : word.toInt < 9223372036854775808 := word.toInt_lt
  simp [int64?, hlow, hhigh]

@[simp]
theorem list?_array (items : List Json) : (array items).list? decode = items.mapM decode :=
  rfl

/-- A list is read back when each of its items is. -/
theorem mapM_map_of_forall {items : List α} (h : ∀ a ∈ items, decode (encode a) = some a) :
    (items.map encode).mapM decode = some items := by
  induction items with
  | nil => rfl
  | cons first rest ih =>
    have hfirst := h first List.mem_cons_self
    have hrest := ih fun a ha => h a (List.mem_cons_of_mem _ ha)
    simp [List.mapM_cons, hfirst, hrest]

@[simp]
theorem list?_strings (texts : List String) : (strings texts).list? str? = some texts :=
  mapM_map_of_forall fun text _ => str?_str text

theorem nullable?_of_ne_null (h : value ≠ null) :
    value.nullable? decode = (decode value).map some := by
  cases value <;> first | rfl | exact absurd rfl h

@[simp]
theorem depth_tagged : (tagged tag data).depth = data.depth + 1 := by
  simp [tagged, depth, fieldsDepth]

@[simp]
theorem depth_array (items : List Json) : (array items).depth = itemsDepth items + 1 := by
  simp [depth]

@[simp]
theorem depth_object : (object fields).depth = fieldsDepth fields + 1 := by
  simp [depth]

@[simp]
theorem itemsDepth_cons (first : Json) (rest : List Json) :
    itemsDepth (first :: rest) = max first.depth (itemsDepth rest) := by
  simp [itemsDepth]

@[simp]
theorem fieldsDepth_cons (rest : List (String × Json)) :
    fieldsDepth ((key, value) :: rest) = max value.depth (fieldsDepth rest) := by
  simp [fieldsDepth]

end Pieces

end Json

/-! ## Leaves -/

theorem Location.ofJson?_toJson (l : Location) : Location.ofJson? l.toJson = some l := by
  -- `word32?` compares with a large literal, which the kernel must not evaluate.
  simp -implicitDefEqProofs [toJson, ofJson?, List.lookup_cons]

theorem FutureFlags.ofJson?_toJson (flags : FutureFlags) :
    FutureFlags.ofJson? flags.toJson = some flags := by
  simp [toJson, ofJson?, List.lookup_cons]

theorem Constant.ofJson?_toJson (c : Constant) : Constant.ofJson? c.toJson = some c := by
  cases c <;> simp [toJson, ofJson?]

theorem BinaryOperator.ofJson?_toJson (op : BinaryOperator) :
    BinaryOperator.ofJson? op.toJson = some op := by
  cases op <;> rfl

theorem ScopeKind.ofJson?_toJson (scope : ScopeKind) :
    ScopeKind.ofJson? scope.toJson = some scope := by
  cases scope <;> rfl

theorem ImplicitDecorator.ofJson?_toJson (rule : ImplicitDecorator) :
    ImplicitDecorator.ofJson? rule.toJson = some rule := by
  simp [toJson, ofJson?, List.lookup_cons, ScopeKind.ofJson?_toJson]

theorem Dialect.ofJson?_toJson (dialect : Dialect) :
    Dialect.ofJson? dialect.toJson = some dialect := by
  have hrules : (dialect.implicitDecorators.map ImplicitDecorator.toJson).mapM
      ImplicitDecorator.ofJson? = some dialect.implicitDecorators :=
    Json.mapM_map_of_forall fun rule _ => rule.ofJson?_toJson
  simp [toJson, ofJson?, Json.fieldOr?, Json.fields?, List.lookup_cons, hrules]

/-! ## Expressions and parameter lists -/

namespace Surface

theorem Expr.toJson_ne_null (e : Expr) : e.toJson ≠ .null := by
  cases e <;> simp [Expr.toJson, Json.tagged]

theorem Param.toJson_ne_null (p : Param) : p.toJson ≠ .null := by
  cases p
  simp [Param.toJson]

mutual

/-- **An expression is read back under every bound above the depth of its JSON form.** -/
theorem Expr.ofJsonWithin?_toJson : ∀ (e : Expr) (n : Nat), e.toJson.depth < n →
    Expr.ofJsonWithin? n e.toJson = some e
  | _, 0, h => absurd h (Nat.not_lt_zero _)
  | .name id, n + 1, _ => by
    simp [Expr.toJson, Expr.ofJsonWithin?]
  | .constant c, n + 1, _ => by
    simp -implicitDefEqProofs [Expr.toJson, Expr.ofJsonWithin?, c.ofJson?_toJson]
  | .call callee args, n + 1, h => by
    simp [Expr.toJson] at h
    have hcallee := callee.ofJsonWithin?_toJson n (by omega)
    have hargs := mapM_exprsToJson args n (by omega)
    simp [Expr.toJson, Expr.ofJsonWithin?, List.lookup_cons, hcallee, hargs]
  | .binary left op right, n + 1, h => by
    simp [Expr.toJson] at h
    have hleft := left.ofJsonWithin?_toJson n (by omega)
    have hright := right.ofJsonWithin?_toJson n (by omega)
    simp [Expr.toJson, Expr.ofJsonWithin?, List.lookup_cons, hleft, hright, op.ofJson?_toJson]
  | .attribute value name, n + 1, h => by
    simp [Expr.toJson] at h
    have hvalue := value.ofJsonWithin?_toJson n (by omega)
    simp [Expr.toJson, Expr.ofJsonWithin?, List.lookup_cons, hvalue]
  | .tuple items, n + 1, h => by
    simp [Expr.toJson] at h
    have hitems := mapM_exprsToJson items n (by omega)
    simp [Expr.toJson, Expr.ofJsonWithin?, hitems]
  | .yield value, n + 1, h => by
    simp [Expr.toJson] at h
    have hvalue := nullable?_exprOrNull value n (by omega)
    simp [Expr.toJson, Expr.ofJsonWithin?, hvalue]
  | .yieldFrom value, n + 1, h => by
    simp [Expr.toJson] at h
    have hvalue := value.ofJsonWithin?_toJson n (by omega)
    simp [Expr.toJson, Expr.ofJsonWithin?, hvalue]
  | .await value, n + 1, h => by
    simp [Expr.toJson] at h
    have hvalue := value.ofJsonWithin?_toJson n (by omega)
    simp [Expr.toJson, Expr.ofJsonWithin?, hvalue]
  | .lambda definition, n + 1, h => by
    simp [Expr.toJson] at h
    have hdefinition := definition.ofJsonWithin?_toJson n (by omega)
    simp [Expr.toJson, Expr.ofJsonWithin?, hdefinition]

theorem mapM_exprsToJson : ∀ (es : List Expr) (n : Nat), Json.itemsDepth (exprsToJson es) < n →
    (exprsToJson es).mapM (Expr.ofJsonWithin? n) = some es
  | [], _, _ => rfl
  | first :: rest, n, h => by
    simp [exprsToJson] at h
    have hfirst := first.ofJsonWithin?_toJson n (by omega)
    have hrest := mapM_exprsToJson rest n (by omega)
    simp [exprsToJson, hfirst, hrest]

theorem nullable?_exprOrNull : ∀ (value : Option Expr) (n : Nat), (exprOrNull value).depth < n →
    (exprOrNull value).nullable? (Expr.ofJsonWithin? n) = some value
  | none, _, _ => rfl
  | some e, n, h => by
    simp [exprOrNull] at h
    have he := e.ofJsonWithin?_toJson n h
    simp [exprOrNull, Json.nullable?_of_ne_null e.toJson_ne_null, he]

theorem mapM_exprsOrNulls : ∀ (values : List (Option Expr)) (n : Nat),
    Json.itemsDepth (exprsOrNulls values) < n →
    (exprsOrNulls values).mapM (Json.nullable? (Expr.ofJsonWithin? n)) = some values
  | [], _, _ => rfl
  | first :: rest, n, h => by
    simp [exprsOrNulls] at h
    have hfirst := nullable?_exprOrNull first n (by omega)
    have hrest := mapM_exprsOrNulls rest n (by omega)
    simp [exprsOrNulls, hfirst, hrest]

theorem Lambda.ofJsonWithin?_toJson : ∀ (l : Lambda) (n : Nat), l.toJson.depth < n →
    Lambda.ofJsonWithin? n l.toJson = some l
  | _, 0, h => absurd h (Nat.not_lt_zero _)
  | ⟨params, body, location⟩, n + 1, h => by
    simp [Lambda.toJson] at h
    have hparams := params.ofJsonWithin?_toJson n (by omega)
    have hbody := body.ofJsonWithin?_toJson n (by omega)
    simp -implicitDefEqProofs [Lambda.toJson, Lambda.ofJsonWithin?, List.lookup_cons, hparams,
      hbody, location.ofJson?_toJson]

theorem Params.ofJsonWithin?_toJson : ∀ (p : Params) (n : Nat), p.toJson.depth < n →
    Params.ofJsonWithin? n p.toJson = some p
  | _, 0, h => absurd h (Nat.not_lt_zero _)
  | ⟨positional, defaults, star, keywordOnly, keywordDefaults, doubleStar⟩, n + 1, h => by
    simp [Params.toJson] at h
    have hpositional := mapM_patternsToJson positional n (by omega)
    have hdefaults := mapM_exprsToJson defaults n (by omega)
    have hstar := nullable?_paramOrNull star n (by omega)
    have hkeywordOnly := mapM_paramsToJson keywordOnly n (by omega)
    have hkeywordDefaults := mapM_exprsOrNulls keywordDefaults n (by omega)
    have hdoubleStar := nullable?_paramOrNull doubleStar n (by omega)
    simp [Params.toJson, Params.ofJsonWithin?, Json.optionalField?, Json.fields?, List.lookup_cons,
      hpositional, hdefaults, hstar, hkeywordOnly, hkeywordDefaults, hdoubleStar]

theorem Pattern.ofJsonWithin?_toJson : ∀ (p : Pattern) (n : Nat), p.toJson.depth < n →
    Pattern.ofJsonWithin? n p.toJson = some p
  | _, 0, h => absurd h (Nat.not_lt_zero _)
  | .name param, n + 1, h => by
    simp [Pattern.toJson] at h
    have hparam := param.ofJsonWithin?_toJson n (by omega)
    simp [Pattern.toJson, Pattern.ofJsonWithin?, hparam]
  | .tuple elements, n + 1, h => by
    simp [Pattern.toJson] at h
    have helements := mapM_patternsToJson elements n (by omega)
    simp [Pattern.toJson, Pattern.ofJsonWithin?, helements]

theorem mapM_patternsToJson : ∀ (ps : List Pattern) (n : Nat),
    Json.itemsDepth (patternsToJson ps) < n →
    (patternsToJson ps).mapM (Pattern.ofJsonWithin? n) = some ps
  | [], _, _ => rfl
  | first :: rest, n, h => by
    simp [patternsToJson] at h
    have hfirst := first.ofJsonWithin?_toJson n (by omega)
    have hrest := mapM_patternsToJson rest n (by omega)
    simp [patternsToJson, hfirst, hrest]

theorem Param.ofJsonWithin?_toJson : ∀ (p : Param) (n : Nat), p.toJson.depth < n →
    Param.ofJsonWithin? n p.toJson = some p
  | _, 0, h => absurd h (Nat.not_lt_zero _)
  | ⟨name, hint⟩, n + 1, h => by
    simp [Param.toJson] at h
    have hhint := nullable?_exprOrNull hint n (by omega)
    simp [Param.toJson, Param.ofJsonWithin?, Json.optionalField?, Json.fields?, List.lookup_cons,
      hhint]

theorem nullable?_paramOrNull : ∀ (value : Option Param) (n : Nat),
    (paramOrNull value).depth < n →
    (paramOrNull value).nullable? (Param.ofJsonWithin? n) = some value
  | none, _, _ => rfl
  | some p, n, h => by
    simp [paramOrNull] at h
    have hp := p.ofJsonWithin?_toJson n h
    simp [paramOrNull, Json.nullable?_of_ne_null p.toJson_ne_null, hp]

theorem mapM_paramsToJson : ∀ (ps : List Param) (n : Nat), Json.itemsDepth (paramsToJson ps) < n →
    (paramsToJson ps).mapM (Param.ofJsonWithin? n) = some ps
  | [], _, _ => rfl
  | first :: rest, n, h => by
    simp [paramsToJson] at h
    have hfirst := first.ofJsonWithin?_toJson n (by omega)
    have hrest := mapM_paramsToJson rest n (by omega)
    simp [paramsToJson, hfirst, hrest]

end

/-! ## Statements and definitions -/

mutual

/-- **A statement is read back under every bound above the depth of its JSON form.** -/
theorem Stmt.ofJsonWithin?_toJson : ∀ (s : Stmt) (n : Nat), s.toJson.depth < n →
    Stmt.ofJsonWithin? n s.toJson = some s
  | _, 0, h => absurd h (Nat.not_lt_zero _)
  | ⟨kind, location⟩, n + 1, h => by
    simp [Stmt.toJson] at h
    have hkind := kind.ofJsonWithin?_toJson n (by omega)
    simp -implicitDefEqProofs [Stmt.toJson, Stmt.ofJsonWithin?, List.lookup_cons, hkind,
      location.ofJson?_toJson]

theorem mapM_stmtsToJson : ∀ (statements : List Stmt) (n : Nat),
    Json.itemsDepth (stmtsToJson statements) < n →
    (stmtsToJson statements).mapM (Stmt.ofJsonWithin? n) = some statements
  | [], _, _ => rfl
  | first :: rest, n, h => by
    simp [stmtsToJson] at h
    have hfirst := first.ofJsonWithin?_toJson n (by omega)
    have hrest := mapM_stmtsToJson rest n (by omega)
    simp [stmtsToJson, hfirst, hrest]

theorem StmtKind.ofJsonWithin?_toJson : ∀ (k : StmtKind) (n : Nat), k.toJson.depth < n →
    StmtKind.ofJsonWithin? n k.toJson = some k
  | _, 0, h => absurd h (Nat.not_lt_zero _)
  | .expr value, n + 1, h => by
    simp [StmtKind.toJson] at h
    have hvalue := value.ofJsonWithin?_toJson n (by omega)
    simp [StmtKind.toJson, StmtKind.ofJsonWithin?, hvalue]
  | .assign target value, n + 1, h => by
    simp [StmtKind.toJson] at h
    have hvalue := value.ofJsonWithin?_toJson n (by omega)
    simp [StmtKind.toJson, StmtKind.ofJsonWithin?, List.lookup_cons, hvalue]
  | .pass, n + 1, _ => by
    simp [StmtKind.toJson, StmtKind.ofJsonWithin?]
  | .ret value, n + 1, h => by
    simp [StmtKind.toJson] at h
    have hvalue := nullable?_exprOrNull value n (by omega)
    simp [StmtKind.toJson, StmtKind.ofJsonWithin?, hvalue]
  | .raise value, n + 1, h => by
    simp [StmtKind.toJson] at h
    have hvalue := nullable?_exprOrNull value n (by omega)
    simp [StmtKind.toJson, StmtKind.ofJsonWithin?, hvalue]
  | .branch test body orelse, n + 1, h => by
    simp [StmtKind.toJson] at h
    have htest := test.ofJsonWithin?_toJson n (by omega)
    have hbody := mapM_stmtsToJson body n (by omega)
    have horelse := mapM_stmtsToJson orelse n (by omega)
    simp [StmtKind.toJson, StmtKind.ofJsonWithin?, List.lookup_cons, htest, hbody, horelse]
  | .loop test body, n + 1, h => by
    simp [StmtKind.toJson] at h
    have htest := test.ofJsonWithin?_toJson n (by omega)
    have hbody := mapM_stmtsToJson body n (by omega)
    simp [StmtKind.toJson, StmtKind.ofJsonWithin?, List.lookup_cons, htest, hbody]
  | .global names, n + 1, _ => by
    simp [StmtKind.toJson, StmtKind.ofJsonWithin?]
  | .nonlocal names, n + 1, _ => by
    simp [StmtKind.toJson, StmtKind.ofJsonWithin?]
  | .define definition, n + 1, h => by
    simp [StmtKind.toJson] at h
    have hdefinition := definition.ofJsonWithin?_toJson n (by omega)
    simp [StmtKind.toJson, StmtKind.ofJsonWithin?, hdefinition]
  | .defineClass definition, n + 1, h => by
    simp [StmtKind.toJson] at h
    have hdefinition := definition.ofJsonWithin?_toJson n (by omega)
    simp [StmtKind.toJson, StmtKind.ofJsonWithin?, hdefinition]

theorem Def.ofJsonWithin?_toJson : ∀ (d : Def) (n : Nat), d.toJson.depth < n →
    Def.ofJsonWithin? n d.toJson = some d
  | _, 0, h => absurd h (Nat.not_lt_zero _)
  | ⟨name, params, body, decorators, returns, isAsync, location⟩, n + 1, h => by
    simp [Def.toJson] at h
    have hparams := params.ofJsonWithin?_toJson n (by omega)
    have hbody := mapM_stmtsToJson body n (by omega)
    have hdecorators := mapM_exprsToJson decorators n (by omega)
    have hreturns := nullable?_exprOrNull returns n (by omega)
    simp -implicitDefEqProofs [Def.toJson, Def.ofJsonWithin?, Json.optionalField?, Json.fields?,
      List.lookup_cons, hparams, hbody, hdecorators, hreturns, location.ofJson?_toJson]

theorem ClassDef.ofJsonWithin?_toJson : ∀ (d : ClassDef) (n : Nat), d.toJson.depth < n →
    ClassDef.ofJsonWithin? n d.toJson = some d
  | _, 0, h => absurd h (Nat.not_lt_zero _)
  | ⟨name, bases, body, decorators, location⟩, n + 1, h => by
    simp [ClassDef.toJson] at h
    have hbases := mapM_exprsToJson bases n (by omega)
    have hbody := mapM_stmtsToJson body n (by omega)
    have hdecorators := mapM_exprsToJson decorators n (by omega)
    simp -implicitDefEqProofs [ClassDef.toJson, ClassDef.ofJsonWithin?, List.lookup_cons, hbases,
      hbody, hdecorators, location.ofJson?_toJson]

end

/-! ## Whole values -/

theorem stmtsToJson_eq_map (statements : List Stmt) :
    stmtsToJson statements = statements.map Stmt.toJson := by
  induction statements with
  | nil => rfl
  | cons first rest ih => simp [stmtsToJson, ih]

theorem Stmt.ofJson?_toJson (s : Stmt) : Stmt.ofJson? s.toJson = some s :=
  s.ofJsonWithin?_toJson _ (Nat.lt_succ_self _)

theorem Module.ofJson?_toJson (m : Module) : Module.ofJson? m.toJson = some m := by
  have hbody : (stmtsToJson m.body).mapM Stmt.ofJson? = some m.body := by
    rw [stmtsToJson_eq_map]
    exact Json.mapM_map_of_forall fun s _ => s.ofJson?_toJson
  simp [Module.toJson, Module.ofJson?, List.lookup_cons, hbody, m.future.ofJson?_toJson]

/-- **The JSON forms are lossless.** Modules, statements, expressions, definitions, lambdas,
classes, parameters, parameter patterns, positions and dialects are read back as they were, for
trees of every depth. -/
theorem json_lossless :
    Json.Lossless Module.toJson Module.ofJson? ∧
    Json.Lossless Stmt.toJson Stmt.ofJson? ∧
    Json.Lossless Expr.toJson Expr.ofJson? ∧
    Json.Lossless Def.toJson Def.ofJson? ∧
    Json.Lossless Lambda.toJson Lambda.ofJson? ∧
    Json.Lossless ClassDef.toJson ClassDef.ofJson? ∧
    Json.Lossless Params.toJson Params.ofJson? ∧
    Json.Lossless Pattern.toJson Pattern.ofJson? ∧
    Json.Lossless Location.toJson Location.ofJson? ∧
    Json.Lossless Dialect.toJson Dialect.ofJson? :=
  ⟨Module.ofJson?_toJson, Stmt.ofJson?_toJson,
    fun e => e.ofJsonWithin?_toJson _ (Nat.lt_succ_self _),
    fun d => d.ofJsonWithin?_toJson _ (Nat.lt_succ_self _),
    fun l => l.ofJsonWithin?_toJson _ (Nat.lt_succ_self _),
    fun d => d.ofJsonWithin?_toJson _ (Nat.lt_succ_self _),
    fun p => p.ofJsonWithin?_toJson _ (Nat.lt_succ_self _),
    fun p => p.ofJsonWithin?_toJson _ (Nat.lt_succ_self _),
    Location.ofJson?_toJson, Dialect.ofJson?_toJson⟩

end Surface

end DefinitionLowering
