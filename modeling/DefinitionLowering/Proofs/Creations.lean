import Mathlib.Data.List.Perm.Basic
import Mathlib.Data.List.Count
import DefinitionLowering.Proofs.Steps

/-!
# Bodies that hang from a body

An expression that creates a function, a class or a suspended object refers to a body.
`Expr.creations` lists what an expression creates, with the kind of body that this form of
expression is for, and `Block.creations` what the statements of a block do.

`Store.Hangs s b ids made` says that the bodies `ids` hang from `b`: each of them is created
once, in the code of its provider, which is `b` or one of them, and `made` are those that `b`
has to create.  Bodies that were lowered one after the other hang side by side
(`Store.Hangs.append`); once a body has its code, it hangs from its provider with all that
hangs from it (`Store.Hangs.node`).
-/

namespace DefinitionLowering.IR

/-! ## What code creates -/

/-- The kind of body that an expression creates something of, and the body. -/
def Expr.created? : Expr → Option (BodyKind × BodyId)
  | .makeFunction body _ _ _ _ => some (.function, body)
  | .makeObject kind body _ => some (.callable (.suspended kind), body)
  | .makeClass body _ => some (.classBody, body)
  | _ => none

/-- What evaluating an expression creates. -/
def Expr.creations (e : Expr) : List (BodyKind × BodyId) :=
  e.evaluations.filterMap Expr.created?

def exprsCreations (es : List Expr) : List (BodyKind × BodyId) :=
  es.flatMap Expr.creations

/-- What the expressions of a statement and of the statements inside it create. -/
def Stmt.creations (statement : Stmt) : List (BodyKind × BodyId) :=
  statement.within.flatMap fun inner => exprsCreations inner.operands

def stmtsCreations (statements : List Stmt) : List (BodyKind × BodyId) :=
  statements.flatMap Stmt.creations

def Block.creations (block : Block) : List (BodyKind × BodyId) :=
  block.terms.filterMap Expr.created?

/-- What the code of a body creates. -/
def Store.creations (s : Store) (b : BodyId) : List (BodyKind × BodyId) :=
  ((s.body b).code.map Block.creations).getD []

/-! ### Expressions -/

section Expressions

variable {callee left right value : Expr} {args items values bases : List Expr} {o : Option Expr}

/-- Mappings create nothing themselves. -/
theorem Expr.creations_eq_steps (e : Expr) : e.creations = e.steps.filterMap Expr.created? := by
  have hsilent : ∀ f : Expr, f.silent = true → f.created? = none := fun f hf => by
    cases f <;> first | rfl | cases hf
  rw [creations, steps, List.filterMap_filter]
  refine List.filterMap_congr fun f _ => ?_
  cases hf : f.silent with
  | true => simp [hsilent f hf]
  | false => simp

theorem filterMap_flatMap_steps (es : List Expr) :
    (es.flatMap Expr.steps).filterMap Expr.created? = exprsCreations es := by
  rw [List.filterMap_flatMap, exprsCreations]
  exact congrArg (es.flatMap ·) (funext fun e => (Expr.creations_eq_steps e).symm)

@[simp] theorem exprsCreations_nil : exprsCreations [] = [] := rfl

@[simp] theorem exprsCreations_cons (e : Expr) (es : List Expr) :
    exprsCreations (e :: es) = e.creations ++ exprsCreations es := rfl

@[simp] theorem Expr.creations_constant (value : Constant) : (Expr.constant value).creations = [] :=
  rfl

@[simp] theorem Expr.creations_var (v : VariableId) : (Expr.var v).creations = [] := rfl

@[simp] theorem Expr.creations_freeName (name : String) : (Expr.freeName name).creations = [] := rfl

@[simp] theorem Expr.creations_builtin (name : String) : (Expr.builtin name).creations = [] := rfl

@[simp] theorem Expr.creations_makeObject (kind : ObjectKind) (b : BodyId) (code : CodeObject) :
    (Expr.makeObject kind b code).creations = [(.callable (.suspended kind), b)] := rfl

@[simp] theorem Expr.creations_call :
    (Expr.call callee args).creations = callee.creations ++ exprsCreations args := by
  simp [creations_eq_steps, steps_call, filterMap_flatMap_steps, created?]

@[simp] theorem Expr.creations_binary {op : BinaryOperator} :
    (Expr.binary left op right).creations = left.creations ++ right.creations := by
  simp [creations_eq_steps, steps_binary, created?]

@[simp] theorem Expr.creations_attribute {name : String} :
    (Expr.attribute value name).creations = value.creations := by
  simp [creations_eq_steps, steps_attribute, created?]

@[simp] theorem Expr.creations_tuple : (Expr.tuple items).creations = exprsCreations items := by
  simp [creations_eq_steps, steps_tuple, filterMap_flatMap_steps, created?]

@[simp] theorem Expr.creations_yield : (Expr.yield o).creations = exprsCreations o.toList := by
  simp [creations_eq_steps, steps_yield, filterMap_flatMap_steps, created?]

@[simp] theorem Expr.creations_yieldFrom : (Expr.yieldFrom value).creations = value.creations := by
  simp [creations_eq_steps, steps_yieldFrom, created?]

@[simp] theorem Expr.creations_await : (Expr.await value).creations = value.creations := by
  simp [creations_eq_steps, steps_await, created?]

@[simp] theorem Expr.creations_makeFunction {b : BodyId} {code : CodeObject}
    {keywords annotations : Option Expr} :
    (Expr.makeFunction b code values keywords annotations).creations =
      exprsCreations values ++ exprsCreations keywords.toList ++
        exprsCreations annotations.toList ++ [(.function, b)] := by
  simp [creations_eq_steps, steps_makeFunction, filterMap_flatMap_steps, created?]

@[simp] theorem Expr.creations_makeClass {b : BodyId} :
    (Expr.makeClass b bases).creations = exprsCreations bases ++ [(.classBody, b)] := by
  simp [creations_eq_steps, steps_makeClass, filterMap_flatMap_steps, created?]

/-- A mapping creates what its values do. -/
@[simp] theorem Expr.creations_ofEntries (entries : List (String × Expr)) :
    (Expr.ofEntries entries).creations = exprsCreations (entries.map Prod.snd) := by
  rw [creations_eq_steps, steps_ofEntries, ← List.flatMap_map, filterMap_flatMap_steps]

end Expressions

/-! ### Statements -/

@[simp] theorem stmtsCreations_nil : stmtsCreations [] = [] := rfl

@[simp] theorem stmtsCreations_cons (statement : Stmt) (rest : List Stmt) :
    stmtsCreations (statement :: rest) = statement.creations ++ stmtsCreations rest := rfl

@[simp] theorem stmtsCreations_append (first rest : List Stmt) :
    stmtsCreations (first ++ rest) = stmtsCreations first ++ stmtsCreations rest :=
  List.flatMap_append

section Simple

variable {value : Expr}

@[simp] theorem Stmt.creations_assignVariable (v : VariableId) :
    (Stmt.assignVariable v value).creations = value.creations := by
  simp [Stmt.creations, Stmt.within, Stmt.operands]

@[simp] theorem Stmt.creations_assignName (name : String) :
    (Stmt.assignName name value).creations = value.creations := by
  simp [Stmt.creations, Stmt.within, Stmt.operands]

@[simp] theorem Stmt.creations_expr : (Stmt.expr value).creations = value.creations := by
  simp [Stmt.creations, Stmt.within, Stmt.operands]

@[simp] theorem Stmt.creations_ret : (Stmt.ret value).creations = value.creations := by
  simp [Stmt.creations, Stmt.within, Stmt.operands]

@[simp] theorem Stmt.creations_objectRet : (Stmt.objectRet value).creations = value.creations := by
  simp [Stmt.creations, Stmt.within, Stmt.operands]

@[simp] theorem Stmt.creations_retNone : Stmt.retNone.creations = [] := rfl

@[simp] theorem Stmt.creations_objectRetNone : Stmt.objectRetNone.creations = [] := rfl

@[simp] theorem Stmt.creations_raise (o : Option Expr) :
    (Stmt.raise o).creations = exprsCreations o.toList := by
  simp [Stmt.creations, Stmt.within, Stmt.operands]

end Simple

theorem stmtsCreations_eq (statements : List Stmt) : stmtsCreations statements =
    (stmtsWithin statements).flatMap fun inner => exprsCreations inner.operands := by
  induction statements with
  | nil => rfl
  | cons first rest ih => rw [stmtsCreations_cons, ih, stmtsWithin, List.flatMap_append]; rfl

@[simp] theorem Stmt.creations_branch {condition : Expr} {yes no : List Stmt} :
    (Stmt.branch condition (Block.ofNonempty? yes) (Block.ofNonempty? no)).creations =
      condition.creations ++ (stmtsCreations yes ++ stmtsCreations no) := by
  simp [Stmt.creations, Stmt.within, Stmt.operands, stmtsCreations_eq]

@[simp] theorem Stmt.creations_loop {condition : Expr} {body : List Stmt} :
    (Stmt.loop condition (Block.ofNonempty? body)).creations =
      condition.creations ++ stmtsCreations body := by
  simp [Stmt.creations, Stmt.within, Stmt.operands, stmtsCreations_eq]

theorem Block.creations_eq (block : Block) :
    block.creations = stmtsCreations block.statements := by
  rw [creations, terms, within_eq, stmtsCreations_eq, List.filterMap_flatMap]
  refine congrArg (List.flatMap · _) (funext fun inner => ?_)
  rw [List.filterMap_flatMap]
  rfl

/-- Releases create nothing. -/
@[simp] theorem Block.creations_releasing (vars : List VariableId) (tried : Block) :
    (tried.releasing vars).creations = tried.creations := by
  rw [Block.creations, Block.creations, Block.terms_releasing]

/-- A last statement that creates nothing. -/
theorem Block.creations_closeWith {terminal : Stmt} (h : terminal.creations = [])
    (block : Option Block) :
    (Block.closeWith terminal block).creations = (block.map Block.creations).getD [] := by
  cases block with
  | none => simp [Block.closeWith, Block.single, Block.creations_eq, h]
  | some block =>
    rw [Block.closeWith]
    split
    · rfl
    · simp [Block.push, Block.creations_eq, h]

theorem Store.creations_of_code {s : Store} {b : BodyId} {block : Block}
    (h : (s.body b).code = some block) : s.creations b = block.creations := by
  rw [creations, h]
  rfl

/-! ## Bodies under a body -/

namespace Store

variable {s s' : Store} {b c : BodyId} {ids ids' : List BodyId}
  {made made' : List (BodyKind × BodyId)}

/-- The creations of a body, as far as some bodies say that it provides them. -/
def children (s : Store) (ids : List BodyId) (b : BodyId) : List (BodyKind × BodyId) :=
  (ids.filter fun c => (s.body c).provider = some b).map fun c => ((s.body c).kind, c)

/-- Bodies hang from a body: each one is created once, by its provider. -/
structure Hangs (s : Store) (b : BodyId) (ids : List BodyId) (made : List (BodyKind × BodyId)) :
    Prop where
  own : made.Perm (s.children ids b)
  inner : ∀ c ∈ ids, (s.creations c).Perm (s.children ids c)
  provided : ∀ c ∈ ids, ∃ p ∈ b :: ids, (s.body c).provider = some p

theorem children_append (s : Store) (ids ids' : List BodyId) (b : BodyId) :
    s.children (ids ++ ids') b = s.children ids b ++ s.children ids' b := by
  simp [children]

/-- A body provides nothing that has other providers. -/
theorem children_eq_nil (h : ∀ c ∈ ids, (s.body c).provider ≠ some b) : s.children ids b = [] := by
  rw [children, List.map_eq_nil_iff, List.filter_eq_nil_iff]
  simpa using h

theorem children_perm (h : ids.Perm ids') (b : BodyId) :
    (s.children ids b).Perm (s.children ids' b) :=
  (h.filter _).map _

/-- What hangs from a body comes after it. -/
theorem Hangs.above (h : s.Hangs b ids made) (hs : s.Ordered) :
    ∀ (n : Nat) (c : BodyId), c.index = n → c ∈ ids → b.index < c.index := by
  intro n
  induction n using Nat.strongRecOn with
  | ind n ih =>
    rintro c rfl hc
    obtain ⟨p, hp, hprovider⟩ := h.provided c hc
    have hlt := hs c p hprovider
    rcases List.mem_cons.1 hp with rfl | hp
    · exact hlt
    · exact Nat.lt_trans (ih p.index hlt p rfl hp) hlt

theorem Hangs.lt (h : s.Hangs b ids made) (hs : s.Ordered) (hc : c ∈ ids) : b.index < c.index :=
  h.above hs c.index c rfl hc

theorem Hangs.not_mem (h : s.Hangs b ids made) (hs : s.Ordered) : b ∉ ids := fun hb =>
  Nat.lt_irrefl _ (h.lt hs hb)

theorem hangs_nil (s : Store) (b : BodyId) : s.Hangs b [] [] where
  own := .refl _
  inner _ h := absurd h List.not_mem_nil
  provided _ h := absurd h List.not_mem_nil

theorem Hangs.perm (h : s.Hangs b ids made) (hids : ids.Perm ids') (hmade : made'.Perm made) :
    s.Hangs b ids' made' where
  own := hmade.trans (h.own.trans (children_perm hids b))
  inner c hc := (h.inner c (hids.mem_iff.2 hc)).trans (children_perm hids c)
  provided c hc := by
    obtain ⟨p, hp, hprovider⟩ := h.provided c (hids.mem_iff.2 hc)
    exact ⟨p, (hids.cons b).mem_iff.1 hp, hprovider⟩

/-- A body of one group provides nothing of another. -/
theorem Hangs.children_other (h : s.Hangs b ids made) (hs : s.Ordered)
    (h' : s.Hangs b ids' made') (hdisjoint : ∀ c ∈ ids, c ∉ ids') (hc : c ∈ ids) :
    s.children ids' c = [] :=
  children_eq_nil fun d hd hprovider => by
    obtain ⟨p, hp, heq⟩ := h'.provided d hd
    cases hprovider.symm.trans heq
    rcases List.mem_cons.1 hp with rfl | hp
    · exact h.not_mem hs hc
    · exact hdisjoint c hc hp

/-- Bodies side by side. -/
theorem Hangs.append (h : s.Hangs b ids made) (h' : s.Hangs b ids' made') (hs : s.Ordered)
    (hdisjoint : ∀ c ∈ ids, c ∉ ids') : s.Hangs b (ids ++ ids') (made ++ made') where
  own := by
    rw [children_append]
    exact h.own.append h'.own
  inner c hc := by
    rw [children_append]
    rcases List.mem_append.1 hc with hc | hc
    · rw [h.children_other hs h' hdisjoint hc, List.append_nil]
      exact h.inner c hc
    · rw [h'.children_other hs h (fun d hd hd' => hdisjoint d hd' hd) hc, List.nil_append]
      exact h'.inner c hc
  provided c hc := by
    rcases List.mem_append.1 hc with hc | hc
    · obtain ⟨p, hp, hprovider⟩ := h.provided c hc
      exact ⟨p, by rw [← List.cons_append]; exact List.mem_append_left _ hp, hprovider⟩
    · obtain ⟨p, hp, hprovider⟩ := h'.provided c hc
      refine ⟨p, ?_, hprovider⟩
      rcases List.mem_cons.1 hp with rfl | hp
      · exact List.mem_cons_self
      · exact List.mem_cons_of_mem _ (List.mem_append_right _ hp)

/-- A body whose code creates all that hangs from it hangs from its provider. -/
theorem Hangs.node (h : s.Hangs c ids made) (hs : s.Ordered)
    (hprovider : (s.body c).provider = some b) (hcode : (s.creations c).Perm made) :
    s.Hangs b (c :: ids) [((s.body c).kind, c)] := by
  have hlt : b.index < c.index := hs c b hprovider
  have hself : (s.body c).provider ≠ some c := fun heq => Nat.lt_irrefl _ (hs c c heq)
  -- neither the provider nor what is below it provides the body but itself
  have hhead : ∀ d, s.children (c :: ids) d =
      (if (s.body c).provider = some d then [((s.body c).kind, c)] else []) ++
        s.children ids d := by
    intro d
    rw [show c :: ids = [c] ++ ids from rfl, children_append]
    congr 1
    simp only [children, List.filter_cons, List.filter_nil, decide_eq_true_eq]
    split <;> rfl
  have hnone : s.children ids b = [] := children_eq_nil fun d hd heq => by
    obtain ⟨p, hp, hsome⟩ := h.provided d hd
    cases heq.symm.trans hsome
    rcases List.mem_cons.1 hp with rfl | hp
    · exact Nat.lt_irrefl _ hlt
    · exact Nat.lt_asymm hlt (h.lt hs hp)
  refine ⟨?_, fun d hd => ?_, fun d hd => ?_⟩
  · rw [hhead b, if_pos hprovider, hnone]
    exact .refl _
  · rw [hhead d]
    rcases List.mem_cons.1 hd with rfl | hd
    · rw [if_neg hself, List.nil_append]
      exact hcode.trans h.own
    · have hne : (s.body c).provider ≠ some d := fun heq =>
        Nat.lt_asymm (hs c d heq) (h.lt hs hd)
      rw [if_neg hne, List.nil_append]
      exact h.inner d hd
  · rcases List.mem_cons.1 hd with rfl | hd
    · exact ⟨b, List.mem_cons_self, hprovider⟩
    · obtain ⟨p, hp, heq⟩ := h.provided d hd
      exact ⟨p, List.mem_cons_of_mem _ hp, heq⟩

/-- What hangs from a body depends on kinds, providers and creations only. -/
theorem Hangs.congr (h : s.Hangs b ids made) (hkind : ∀ c, (s'.body c).kind = (s.body c).kind)
    (hprovider : ∀ c, (s'.body c).provider = (s.body c).provider)
    (hcreations : ∀ c, s'.creations c = s.creations c) : s'.Hangs b ids made := by
  have hchildren : ∀ c, s'.children ids c = s.children ids c := fun c => by
    simp only [children, hprovider, hkind]
  refine ⟨?_, fun c hc => ?_, fun c hc => ?_⟩
  · rw [hchildren]
    exact h.own
  · rw [hchildren, hcreations]
    exact h.inner c hc
  · obtain ⟨p, hp, heq⟩ := h.provided c hc
    exact ⟨p, hp, (hprovider c).trans heq⟩

/-- The creations of one body among those that a body provides. -/
theorem children_filter (hn : ids.Nodup) (hc : c ∈ ids) :
    ((s.children ids b).filter fun made => made.2 = c) =
      if (s.body c).provider = some b then [((s.body c).kind, c)] else [] := by
  have hcommute : (s.children ids b).filter (fun made => made.2 = c) =
      s.children (ids.filter fun d => d = c) b := by
    simp only [children, List.filter_map, List.filter_filter]
    congr 1
    refine List.filter_congr fun d _ => ?_
    simp [Bool.and_comm]
  rw [hcommute, List.filter_eq, List.count_eq_one_of_mem hn hc, List.replicate_one, children,
    List.filter_cons, List.filter_nil]
  simp only [decide_eq_true_eq]
  split <;> rfl

/-- A body that is not among those that hang from a body is not created there. -/
theorem children_filter_of_not_mem (hc : c ∉ ids) :
    (s.children ids b).filter (fun made => made.2 = c) = [] := by
  rw [List.filter_eq_nil_iff]
  intro made hmade
  obtain ⟨d, hd, rfl⟩ := List.mem_map.1 hmade
  have hne : d ≠ c := fun heq => hc (heq ▸ (List.mem_filter.1 hd).1)
  simpa using hne

theorem Hangs.creations_perm (h : s.Hangs b ids (s.creations b)) {p : BodyId}
    (hp : p ∈ b :: ids) : (s.creations p).Perm (s.children ids p) := by
  rcases List.mem_cons.1 hp with rfl | hp
  · exact h.own
  · exact h.inner p hp

/-- Whatever hangs from a body is created by its provider. -/
theorem Hangs.mem_creations (h : s.Hangs b ids (s.creations b)) (hc : c ∈ ids) :
    ∃ p ∈ b :: ids, (s.body c).provider = some p ∧ ((s.body c).kind, c) ∈ s.creations p := by
  obtain ⟨p, hp, hprovider⟩ := h.provided c hc
  have hchild : ((s.body c).kind, c) ∈ s.children ids p :=
    List.mem_map.2 ⟨c, List.mem_filter.2 ⟨hc, decide_eq_true hprovider⟩, rfl⟩
  exact ⟨p, hp, hprovider, (h.creations_perm hp).mem_iff.2 hchild⟩

/-- Whatever hangs from a body is created by its provider, once, and by no other body. -/
theorem Hangs.filter_creations (h : s.Hangs b ids (s.creations b)) (hn : ids.Nodup)
    (hc : c ∈ ids) {p : BodyId} (hp : p ∈ b :: ids) :
    ((s.creations p).filter fun made => made.2 = c) =
      if (s.body c).provider = some p then [((s.body c).kind, c)] else [] := by
  have hfiltered := (h.creations_perm hp).filter fun made => made.2 = c
  rw [children_filter hn hc] at hfiltered
  by_cases hprovider : (s.body c).provider = some p
  · rw [if_pos hprovider] at hfiltered ⊢
    exact List.perm_singleton.1 hfiltered
  · rw [if_neg hprovider] at hfiltered ⊢
    exact hfiltered.eq_nil

/-- Nothing else is created. -/
theorem Hangs.filter_creations_of_not_mem (h : s.Hangs b ids (s.creations b)) (hc : c ∉ ids)
    {p : BodyId} (hp : p ∈ b :: ids) : (s.creations p).filter (fun made => made.2 = c) = [] := by
  have hfiltered := (h.creations_perm hp).filter fun made => made.2 = c
  rw [children_filter_of_not_mem hc] at hfiltered
  exact hfiltered.eq_nil

end Store

end DefinitionLowering.IR
