import DefinitionLowering.Proofs.Preservation

/-!
# What has been lowered before a store was reached

`Gave t b x a` says that the step `x`, lowering something in the body `b`, gave `a` at some time
before the store `t` was reached: it ran between two well-formed stores, and `t` is a later one.
What is settled once stays so (`Store.Grows`), so this says what holds of `a` in `t`.

There is one theorem for each form of expression and of statement: what is left of it when
lowering succeeds, in terms of what its parts gave.  Proofs about lowered code go by induction
on the surface tree and use these theorems; none of them opens the lowering.
-/

namespace DefinitionLowering

open IR (BodyId VariableId Store)
open Surface (Params)

/-- A sequence of two steps that gives a value. -/
theorem bind_eq_ok {ε σ α β : Type} {x : EStateM ε σ α} {f : α → EStateM ε σ β} {s s' : σ} {b : β}
    (h : (x >>= f) s = .ok b s') : ∃ a s₁, x s = .ok a s₁ ∧ f a s₁ = .ok b s' := by
  change EStateM.bind x f s = _ at h
  unfold EStateM.bind at h
  cases hx : x s with
  | ok a s₁ =>
    rw [hx] at h
    exact ⟨a, s₁, rfl, h⟩
  | error e s₁ =>
    rw [hx] at h
    cases h

namespace Lowering

variable {α β : Type} {n m : Nat} {s s' t : Store} {b c : BodyId} {setting : Setting}
  {location : Location}

/-- A step gave a value and left a well-formed store in which the first `n` bodies are as
before, but for what they see. -/
structure Ran (n : Nat) (x : Lowering α) (s : Store) (a : α) (s' : Store) : Prop where
  run : x s = .ok a s'
  grows : Store.Grows n s s'
  wellFormed : s'.WellFormed

theorem Ran.created {x : Lowering α} {a : α} (h : Ran n x s a s') (hb : b.index < s.bodies.size) :
    b.index < s'.bodies.size :=
  Nat.lt_of_lt_of_le hb h.grows.bodies

/-- A step gave a value in a body, before the store `t` was reached. -/
def Gave (t : Store) (b : BodyId) (x : Lowering α) (a : α) : Prop :=
  ∃ n s s', s.WellFormed ∧ b.index < s.bodies.size ∧ Ran n x s a s' ∧ Store.Grows 0 s' t

theorem Ran.gave {x : Lowering α} {a : α} (h : Ran n x s a s') (hs : s.WellFormed)
    (hb : b.index < s.bodies.size) (ht : Store.Grows 0 s' t) : Gave t b x a :=
  ⟨n, s, s', hs, hb, h, ht⟩

/-- Any well-formed store will do for a sound step. -/
theorem Sound.ran {x : Lowering α} {P : α → Prop} {a : α} (h : Sound m b x P)
    (hs : s.WellFormed) (hb : b.index < s.bodies.size) (hn : n ≤ m) (hsize : n ≤ s.bodies.size)
    (hrun : x s = .ok a s') : Ran n x s a s' ∧ P a := by
  -- all bodies may be pending
  have hvalid : Valid n s.bodyIds s := ⟨hs, hsize, fun c _ hlt hc =>
    absurd (Store.mem_bodyIds.2 hlt) hc⟩
  obtain ⟨hg, hv, hP⟩ := (h n _ s hn hvalid hb).of_ok hrun
  exact ⟨⟨hrun, hg, hv.wellFormed⟩, hP⟩

section Rules

variable {x : Lowering α} {f : α → Lowering β} {P : α → Prop} {a : α} {d : β}

/-- What two steps gave one after the other. -/
theorem Gave.bind (h : Gave t b (x >>= f) d) (hx : Sound 0 b x P)
    (hf : ∀ a, P a → Sound 0 b (f a) fun _ => True) :
      ∃ a, P a ∧ Gave t b x a ∧ Gave t b (f a) d := by
  obtain ⟨n, s, s', hs, hb, hran, ht⟩ := h
  obtain ⟨a, s₁, hrun₁, hrun₂⟩ := bind_eq_ok hran.run
  obtain ⟨h₁, hP⟩ := hx.ran hs hb (Nat.zero_le _) (Nat.zero_le _) hrun₁
  have hb₁ := h₁.created hb
  have h₂ := ((hf a hP).ran h₁.wellFormed hb₁ (Nat.zero_le _) (Nat.zero_le _) hrun₂).1
  exact ⟨a, hP, h₁.gave hs hb (h₂.grows.trans ht (Nat.le_refl _)), h₂.gave h₁.wellFormed hb₁ ht⟩

theorem gave_pure {a a' : α} (h : Gave t b (pure a) a') : a' = a := by
  obtain ⟨_, _, _, _, _, hran, _⟩ := h
  have hrun := hran.run
  cases hrun
  rfl

theorem not_gave_throw {failure : Failure} : ¬Gave t b (throw failure : Lowering α) a := by
  rintro ⟨_, _, _, _, _, hran, _⟩
  have hrun := hran.run
  cases hrun

/-- Nothing comes of a rejection. -/
theorem not_gave_rejected {cause : Cause} : ¬Gave t b (reject cause location >>= f) d := by
  rintro ⟨_, _, _, _, _, hran, _⟩
  have hrun := hran.run
  cases hrun

/-- The kind of a body is settled. -/
theorem gave_kindOf {kind : BodyKind} (h : Gave t b (kindOf b) kind) : kind = (t.body b).kind := by
  obtain ⟨_, s, s', _, hb, hran, ht⟩ := h
  have hrun := hran.run
  cases hrun
  exact (ht.kind hb).symm

/-- The spelling of names in a body is settled. -/
theorem gave_spell {name text : String} (h : Gave t b (spell b name) text) :
    text = t.spell b name := by
  obtain ⟨_, s, s', hs, hb, hran, ht⟩ := h
  have hrun := hran.run
  cases hrun
  rw [ht.spell hs.ordered hb]

/-- A variable that a name was resolved to is what the body sees under the name. -/
theorem gave_resolve {name : String} {v : VariableId} (h : Gave t b (resolve b name) (some v)) :
    t.find? b name = some v := by
  obtain ⟨_, s, s', hs, hb, hran, ht⟩ := h
  have hrun : EStateM.Result.ok (s.resolve b name).1 (s.resolve b name).2 = .ok (some v) s' :=
    hran.run
  injection hrun with hv hs'
  rw [Store.resolve_fst] at hv
  have hf := hs.ordered.find?_resolve_self s b name hb hv
  rw [hs'] at hf
  exact ht.find? (fun w hw => (hran.wellFormed.seen b w hw).1) hf

end Rules

/-! ## Names -/

/-- A name, already spelled, is looked for unless the body is a module's. -/
theorem gave_sought {γ : Type} {name : String} {found : VariableId → γ} {missing a : γ}
    (h : Gave t b (do
      if (← kindOf b) == .moduleBody then
        return missing
      match ← resolve b name with
      | some v => return found v
      | none => return missing) a) :
    (∃ v, a = found v ∧ t.find? b name = some v) ∨ a = missing := by
  have hfound : ∀ v? : Option VariableId, Sound 0 b (match v? with
      | some v => pure (found v)
      | none => pure missing : Lowering γ) fun _ => True := by
    rintro (_ | v) <;> exact sound_pure trivial
  obtain ⟨kind, -, -, h⟩ := h.bind (sound_kindOf b) fun kind _ => by
    split
    · exact sound_pure trivial
    · exact (sound_resolve b name).bind fun v? _ => hfound v?
  split at h
  · exact Or.inr (gave_pure h)
  · obtain ⟨v?, -, hresolve, h⟩ := h.bind (sound_resolve b name) fun v? _ => hfound v?
    cases v? with
    | some v => exact Or.inl ⟨v, gave_pure h, gave_resolve hresolve⟩
    | none => exact Or.inr (gave_pure h)

/-- What a name was lowered to: the variable that the body sees under the name as it is
spelled there, or the name. -/
theorem gave_reference {name : String} {e : IR.Expr} (h : Gave t b (reference b name) e) :
    (∃ v, e = .var v ∧ t.find? b (t.spell b name) = some v) ∨
      e = .freeName (t.spell b name) := by
  unfold reference at h
  obtain ⟨text, -, hspell, h⟩ := h.bind (sound_spell b name) fun text _ =>
    (sound_kindOf b).bind fun kind _ => by
      split
      · exact sound_pure trivial
      · exact (sound_resolve b text).bind fun _ _ => by split <;> exact sound_pure trivial
  cases gave_spell hspell
  exact gave_sought h

/-- What binding a name, already spelled, was lowered to. -/
theorem gave_bindName {name : String} {source : IR.Expr} {statement : IR.Stmt}
    (h : Gave t b (bindName b name source) statement) :
    (∃ v, statement = .assignVariable v source ∧ t.find? b name = some v) ∨
      statement = .assignName name source := by
  unfold bindName at h
  exact gave_sought h

/-- What a definition was bound by. -/
theorem gave_bindDefinition {name : String} {value : IR.Expr} {statement : IR.Stmt}
    (h : Gave t b (bindDefinition b name value) statement) :
    Gave t b (bindName b (t.spell b name) value) statement := by
  unfold bindDefinition at h
  obtain ⟨text, -, hspell, h⟩ := h.bind (sound_spell b name) fun text _ =>
    (sound_bindName b text _).imp fun _ _ => trivial
  cases gave_spell hspell
  exact h

/-! ## Expressions -/

section Expressions

variable {e : IR.Expr} {es : List IR.Expr} {value : Surface.Expr} {values : List Surface.Expr}

theorem gave_name {id : String} (h : Gave t b (lowerExpr setting b location (.name id)) e) :
    (∃ v, e = .var v ∧ t.find? b (t.spell b id) = some v) ∨ e = .freeName (t.spell b id) := by
  rw [lowerExpr] at h
  exact gave_reference h

theorem gave_constant {c : Constant}
    (h : Gave t b (lowerExpr setting b location (.constant c)) e) : e = .constant c := by
  rw [lowerExpr] at h
  exact gave_pure h

theorem gave_call {callee : Surface.Expr} {args : List Surface.Expr}
    (h : Gave t b (lowerExpr setting b location (.call callee args)) e) :
    ∃ callee' args', e = .call callee' args' ∧
      Gave t b (lowerExpr setting b location callee) callee' ∧
      Gave t b (lowerExprs setting b location args) args' := by
  rw [lowerExpr] at h
  obtain ⟨callee', -, hcallee, h⟩ := h.bind (sound_lowerExpr setting callee 0 b location) fun _ _ =>
    (sound_lowerExprs setting args 0 b location).bind fun _ _ => sound_pure trivial
  obtain ⟨args', -, hargs, h⟩ := h.bind (sound_lowerExprs setting args 0 b location) fun _ _ =>
    sound_pure trivial
  exact ⟨callee', args', gave_pure h, hcallee, hargs⟩

theorem gave_binary {left right : Surface.Expr} {op : BinaryOperator}
    (h : Gave t b (lowerExpr setting b location (.binary left op right)) e) :
    ∃ left' right', e = .binary left' op right' ∧
      Gave t b (lowerExpr setting b location left) left' ∧
      Gave t b (lowerExpr setting b location right) right' := by
  rw [lowerExpr] at h
  obtain ⟨left', -, hleft, h⟩ := h.bind (sound_lowerExpr setting left 0 b location) fun _ _ =>
    (sound_lowerExpr setting right 0 b location).bind fun _ _ => sound_pure trivial
  obtain ⟨right', -, hright, h⟩ := h.bind (sound_lowerExpr setting right 0 b location) fun _ _ =>
    sound_pure trivial
  exact ⟨left', right', gave_pure h, hleft, hright⟩

theorem gave_attribute {name : String}
    (h : Gave t b (lowerExpr setting b location (.attribute value name)) e) :
    ∃ value', e = .attribute value' (t.spell b name) ∧
      Gave t b (lowerExpr setting b location value) value' := by
  rw [lowerExpr] at h
  obtain ⟨value', -, hvalue, h⟩ := h.bind (sound_lowerExpr setting value 0 b location) fun _ _ =>
    (sound_spell b name).bind fun _ _ => sound_pure trivial
  obtain ⟨text, -, hspell, h⟩ := h.bind (sound_spell b name) fun _ _ => sound_pure trivial
  cases gave_spell hspell
  exact ⟨value', gave_pure h, hvalue⟩

theorem gave_tuple (h : Gave t b (lowerExpr setting b location (.tuple values)) e) :
    ∃ values', e = .tuple values' ∧ Gave t b (lowerExprs setting b location values) values' := by
  rw [lowerExpr] at h
  obtain ⟨values', -, hvalues, h⟩ := h.bind (sound_lowerExprs setting values 0 b location)
    fun _ _ => sound_pure trivial
  exact ⟨values', gave_pure h, hvalues⟩

/-- What stands in some kinds of bodies only was lowered in one of them. -/
theorem gave_guarded (allows : BodyKind → Bool) {x : Lowering IR.Expr} {k : PUnit → Lowering IR.Expr}
    {cause : Cause} (hx : Sound 0 b x fun _ => True)
    (h : Gave t b (do
      if allows (← kindOf b) then x else reject cause location >>= k) e) :
    allows (t.body b).kind = true ∧ Gave t b x e := by
  obtain ⟨kind, -, hkind, h⟩ := h.bind (sound_kindOf b) fun kind _ => by
    split
    · exact hx
    · exact sound_rejected
  cases gave_kindOf hkind
  split at h
  · rename_i hallows
    exact ⟨hallows, h⟩
  · exact absurd h not_gave_rejected

/-- A `yield` stands in the body of a callable. -/
theorem gave_yield {value : Option Surface.Expr}
    (h : Gave t b (lowerExpr setting b location (.yield value)) e) :
    (t.body b).kind.isFunctionLike = true ∧ ∃ value', e = .yield value' ∧
      Gave t b (lowerOption setting b location value) value' := by
  rw [lowerExpr] at h
  obtain ⟨hlike, h⟩ := gave_guarded BodyKind.isFunctionLike
    ((sound_lowerOption setting value 0 b location).bind fun _ _ => sound_pure trivial) h
  obtain ⟨value', -, hvalue, h⟩ := h.bind (sound_lowerOption setting value 0 b location)
    fun _ _ => sound_pure trivial
  exact ⟨hlike, value', gave_pure h, hvalue⟩

/-- A `yield from` stands in the body of a callable that is not asynchronous. -/
theorem gave_yieldFrom (h : Gave t b (lowerExpr setting b location (.yieldFrom value)) e) :
    (t.body b).kind.isFunctionLike = true ∧ (t.body b).kind.allowsAwait = false ∧
      ∃ value', e = .yieldFrom value' ∧ Gave t b (lowerExpr setting b location value) value' := by
  rw [lowerExpr] at h
  have hvalue : Sound 0 b (do return IR.Expr.yieldFrom (← lowerExpr setting b location value))
      fun _ => True :=
    (sound_lowerExpr setting value 0 b location).bind fun _ _ => sound_pure trivial
  have hrest : ∀ kind : BodyKind, Sound 0 b (do
      if kind.allowsAwait then
        reject .yieldFromInAsync location
      return IR.Expr.yieldFrom (← lowerExpr setting b location value)) fun _ => True :=
    fun kind => by
      split
      · exact sound_rejected
      · exact hvalue
  obtain ⟨hlike, h⟩ := gave_guarded BodyKind.isFunctionLike
    ((sound_kindOf b).bind fun kind _ => hrest kind) h
  obtain ⟨kind, -, hkind, h⟩ := h.bind (sound_kindOf b) fun kind _ => hrest kind
  cases gave_kindOf hkind
  split at h
  · exact absurd h not_gave_rejected
  · rename_i hasync
    obtain ⟨value', -, hvalue, h⟩ := h.bind (sound_lowerExpr setting value 0 b location)
      fun _ _ => sound_pure trivial
    exact ⟨hlike, by simpa using hasync, value', gave_pure h, hvalue⟩

/-- An `await` stands in the body of an asynchronous callable. -/
theorem gave_await (h : Gave t b (lowerExpr setting b location (.await value)) e) :
    (t.body b).kind.allowsAwait = true ∧ ∃ value', e = .await value' ∧
      Gave t b (lowerExpr setting b location value) value' := by
  rw [lowerExpr] at h
  obtain ⟨hasync, h⟩ := gave_guarded BodyKind.allowsAwait
    ((sound_lowerExpr setting value 0 b location).bind fun _ _ => sound_pure trivial) h
  obtain ⟨value', -, hvalue, h⟩ := h.bind (sound_lowerExpr setting value 0 b location)
    fun _ _ => sound_pure trivial
  exact ⟨hasync, value', gave_pure h, hvalue⟩

theorem gave_lambda {l : Surface.Lambda}
    (h : Gave t b (lowerExpr setting b location (.lambda l)) e) :
    Gave t b (lowerLambda setting b l) e := by
  rw [lowerExpr] at h
  exact h

theorem gave_nil (h : Gave t b (lowerExprs setting b location []) es) : es = [] := by
  rw [lowerExprs] at h
  exact gave_pure h

theorem gave_cons {first : Surface.Expr} {rest : List Surface.Expr}
    (h : Gave t b (lowerExprs setting b location (first :: rest)) es) :
    ∃ first' rest', es = first' :: rest' ∧ Gave t b (lowerExpr setting b location first) first' ∧
      Gave t b (lowerExprs setting b location rest) rest' := by
  rw [lowerExprs] at h
  obtain ⟨first', -, hfirst, h⟩ := h.bind (sound_lowerExpr setting first 0 b location) fun _ _ =>
    (sound_lowerExprs setting rest 0 b location).bind fun _ _ => sound_pure trivial
  obtain ⟨rest', -, hrest, h⟩ := h.bind (sound_lowerExprs setting rest 0 b location) fun _ _ =>
    sound_pure trivial
  exact ⟨first', rest', gave_pure h, hfirst, hrest⟩

/-- Each expression of a list was lowered. -/
theorem gave_exprs : ∀ {values : List Surface.Expr} {es : List IR.Expr},
    Gave t b (lowerExprs setting b location values) es →
      List.Forall₂ (fun value e => Gave t b (lowerExpr setting b location value) e) values es
  | [], _, h => by
    cases gave_nil h
    exact .nil
  | _ :: _, _, h => by
    obtain ⟨first, rest, rfl, hfirst, hrest⟩ := gave_cons h
    exact .cons hfirst (gave_exprs hrest)

theorem gave_option {value : Option Surface.Expr} {o : Option IR.Expr}
    (h : Gave t b (lowerOption setting b location value) o) :
    Option.Rel (fun value e => Gave t b (lowerExpr setting b location value) e) value o := by
  cases value with
  | none =>
    rw [lowerOption] at h
    cases gave_pure h
    exact .none
  | some value =>
    rw [lowerOption] at h
    obtain ⟨e, -, he, h⟩ := h.bind (sound_lowerExpr setting value 0 b location) fun _ _ =>
      sound_pure trivial
    cases gave_pure h
    exact .some he

/-- The defaults of keyword-only parameters that are there, each with its name. -/
def keywordEntries (names : List String) (values : List (Option Surface.Expr)) :
    List (String × Surface.Expr) :=
  (names.zip values).filterMap fun pair => pair.2.map fun value => (pair.1, value)

theorem gave_keywordDefaults : ∀ (names : List String) (values : List (Option Surface.Expr))
    {entries : List (String × IR.Expr)},
    Gave t b (lowerKeywordDefaults setting b location names values) entries →
      List.Forall₂ (fun (written : String × Surface.Expr) (entry : String × IR.Expr) =>
        entry.1 = written.1 ∧ Gave t b (lowerExpr setting b location written.2) entry.2)
        (keywordEntries names values) entries
  | [], values, entries, h => by
    rw [lowerKeywordDefaults.eq_def] at h
    cases gave_pure h
    exact .nil
  | _ :: _, [], entries, h => by
    rw [lowerKeywordDefaults.eq_def] at h
    cases gave_pure h
    exact .nil
  | name :: names, none :: values, entries, h => by
    rw [lowerKeywordDefaults] at h
    exact gave_keywordDefaults names values h
  | name :: names, some value :: values, entries, h => by
    rw [lowerKeywordDefaults] at h
    obtain ⟨e, -, he, h⟩ := h.bind (sound_lowerExpr setting value 0 b location) fun _ _ =>
      (sound_lowerKeywordDefaults setting values 0 b location names).bind fun _ _ =>
        sound_pure trivial
    obtain ⟨rest, -, hrest, h⟩ := h.bind
      (sound_lowerKeywordDefaults setting values 0 b location names) fun _ _ => sound_pure trivial
    cases gave_pure h
    exact .cons ⟨rfl, he⟩ (gave_keywordDefaults names values hrest)

/-- What a step gave for each item of a list. -/
theorem gave_mapM {γ : Type} {step : γ → Lowering β} : ∀ {items : List γ} {results : List β},
    (∀ item ∈ items, Sound 0 b (step item) fun _ => True) → Gave t b (items.mapM step) results →
      List.Forall₂ (fun item result => Gave t b (step item) result) items results
  | [], _, _, h => by
    rw [List.mapM_nil] at h
    cases gave_pure h
    exact .nil
  | first :: rest, _, hstep, h => by
    have hrest : Sound 0 b (rest.mapM step) fun _ => True :=
      sound_mapM fun item hitem => hstep item (List.mem_cons_of_mem _ hitem)
    rw [List.mapM_cons] at h
    obtain ⟨head, -, hhead, h⟩ := h.bind (hstep first List.mem_cons_self) fun _ _ =>
      hrest.bind fun _ _ => sound_pure trivial
    obtain ⟨tail, -, htail, h⟩ := h.bind hrest fun _ _ => sound_pure trivial
    cases gave_pure h
    exact .cons hhead (gave_mapM (fun item hitem => hstep item (List.mem_cons_of_mem _ hitem))
      htail)

/-- An annotation with the key it was recorded under. -/
theorem gave_hint {written : String × Surface.Expr} {entry : String × IR.Expr}
    (h : Gave t b (lowerHint setting b location written) entry) :
    entry.1 = (if setting.dialect.privateAnnotationKeys then t.spell b written.1 else written.1) ∧
      Gave t b (lowerExpr setting b location written.2) entry.2 := by
  have hvalue : ∀ key : String, Sound 0 b (do
      let value ← lowerExpr setting b location written.2
      return (key, value)) fun _ => True := fun key =>
    (sound_lowerExpr setting written.2 0 b location).bind fun _ _ => sound_pure trivial
  have hkey : ∀ key : String, Gave t b (do
      let value ← lowerExpr setting b location written.2
      return (key, value)) entry →
      entry.1 = key ∧ Gave t b (lowerExpr setting b location written.2) entry.2 := by
    intro key h
    obtain ⟨value, -, hvalue, h⟩ := h.bind (sound_lowerExpr setting written.2 0 b location)
      fun _ _ => sound_pure trivial
    cases gave_pure h
    exact ⟨rfl, hvalue⟩
  unfold lowerHint at h
  split at h
  · rename_i hkeys
    obtain ⟨key, -, hspell, h⟩ := h.bind (sound_spell b written.1) fun key _ => hvalue key
    cases gave_spell hspell
    rw [if_pos hkeys]
    exact hkey _ h
  · rename_i hkeys
    rw [if_neg hkeys]
    exact hkey _ h

/-- The mapping of annotations: absent when the dialect has none or none is written. -/
theorem gave_annotations {params : Params} {returns : Option Surface.Expr} {o : Option IR.Expr}
    (h : Gave t b (lowerAnnotations setting b location params returns) o) :
    ((setting.dialect.annotations = false ∨ annotationsOf params returns = []) ∧ o = none) ∨
      setting.dialect.annotations = true ∧ ∃ entries, o = some (.ofEntries entries) ∧
        List.Forall₂ (fun (written : String × Surface.Expr) (entry : String × IR.Expr) =>
          Gave t b (lowerHint setting b location written) entry)
          (annotationsOf params returns) entries := by
  have hhint : ∀ written ∈ annotationsOf params returns,
      Sound 0 b (lowerHint setting b location written) fun _ => True :=
    fun written _ => sound_lowerHint setting location written
  unfold lowerAnnotations at h
  dsimp only at h
  split at h
  · rename_i hnone
    left
    refine ⟨?_, gave_pure h⟩
    simpa using hnone
  · rename_i hsome
    right
    obtain ⟨entries, -, hentries, h⟩ := h.bind (sound_mapM hhint) fun _ _ => sound_pure trivial
    simp only [Bool.or_eq_true, Bool.not_eq_true', not_or, Bool.not_eq_false] at hsome
    exact ⟨hsome.1, entries, gave_pure h, gave_mapM hhint hentries⟩

end Expressions

/-! ## Statements -/

section Statements

variable {statements : List Surface.Stmt} {out : Option IR.Stmt} {lowered : List IR.Stmt}
  {value : Surface.Expr}

theorem gave_stmts_nil (h : Gave t b (lowerStmts setting b []) lowered) : lowered = [] := by
  rw [lowerStmts] at h
  exact gave_pure h

/-- A statement leaves at most one statement behind. -/
theorem gave_stmts_cons {first : Surface.Stmt} {rest : List Surface.Stmt}
    (h : Gave t b (lowerStmts setting b (first :: rest)) lowered) :
    ∃ out rest', lowered = out.toList ++ rest' ∧ Gave t b (lowerStmt setting b first) out ∧
      Gave t b (lowerStmts setting b rest) rest' := by
  rw [lowerStmts] at h
  obtain ⟨out, -, hout, h⟩ := h.bind (sound_lowerStmt setting first 0 b) fun _ _ =>
    (sound_lowerStmts setting rest 0 b).bind fun _ _ => sound_pure trivial
  obtain ⟨rest', -, hrest, h⟩ := h.bind (sound_lowerStmts setting rest 0 b) fun _ _ =>
    sound_pure trivial
  exact ⟨out, rest', gave_pure h, hout, hrest⟩

theorem gave_stmt {first : Surface.Stmt} (h : Gave t b (lowerStmt setting b first) out) :
    Gave t b (lowerKind setting b first.location first.kind) out := by
  obtain ⟨kind, location⟩ := first
  rwa [lowerStmt] at h

theorem gave_expr (h : Gave t b (lowerKind setting b location (.expr value)) out) :
    ∃ value', out = some (.expr value') ∧
      Gave t b (lowerExpr setting b location value) value' := by
  rw [lowerKind] at h
  obtain ⟨value', -, hvalue, h⟩ := h.bind (sound_lowerExpr setting value 0 b location) fun _ _ =>
    sound_pure trivial
  exact ⟨value', gave_pure h, hvalue⟩

theorem gave_assign {target : String}
    (h : Gave t b (lowerKind setting b location (.assign target value)) out) :
    ∃ source statement, out = some statement ∧
      Gave t b (lowerExpr setting b location value) source ∧
      Gave t b (bindName b (t.spell b target) source) statement := by
  rw [lowerKind] at h
  have hbind : ∀ (name : String) (source : IR.Expr), Sound 0 b (do
      return some (← bindName b name source)) fun _ => True := fun name source =>
    (sound_bindName b name source).bind fun _ _ => sound_pure trivial
  obtain ⟨source, -, hsource, h⟩ := h.bind (sound_lowerExpr setting value 0 b location)
    fun source _ => (sound_spell b target).bind fun name _ => hbind name source
  obtain ⟨name, -, hspell, h⟩ := h.bind (sound_spell b target) fun name _ => hbind name source
  cases gave_spell hspell
  obtain ⟨statement, -, hstatement, h⟩ := h.bind (sound_bindName b _ source) fun _ _ =>
    sound_pure trivial
  exact ⟨source, statement, gave_pure h, hsource, hstatement⟩

theorem gave_pass (h : Gave t b (lowerKind setting b location .pass) out) : out = none := by
  rw [lowerKind] at h
  exact gave_pure h

theorem gave_global {names : List String}
    (h : Gave t b (lowerKind setting b location (.global names)) out) : out = none := by
  rw [lowerKind] at h
  exact gave_pure h

theorem gave_nonlocal {names : List String}
    (h : Gave t b (lowerKind setting b location (.nonlocal names)) out) : out = none := by
  rw [lowerKind] at h
  exact gave_pure h

/-- A `return` stands in the body of a callable, and in that of an asynchronous generator it
has no value. -/
theorem gave_checkReturn {hasValue : Bool} (h : Gave t b (checkReturn b location hasValue) ()) :
    (t.body b).kind.isFunctionLike = true ∧
      ((t.body b).kind = .callable .asyncGenerator → hasValue = false) := by
  unfold checkReturn at h
  obtain ⟨kind, -, hkind, h⟩ := h.bind (sound_kindOf b) fun kind _ => by
    split
    · exact sound_reject
    · exact sound_reject
    · split
      · exact sound_reject
      · exact sound_pure trivial
    · exact sound_pure trivial
  cases gave_kindOf hkind
  split at h
  · exact absurd h not_gave_throw
  · exact absurd h not_gave_throw
  · rename_i hk
    rw [hk]
    split at h
    · exact absurd h not_gave_throw
    · rename_i hvalue
      exact ⟨rfl, fun _ => by simpa using hvalue⟩
  · rename_i kind hne hk
    rw [hk]
    exact ⟨rfl, fun he => absurd (BodyKind.callable.inj he) hne⟩

theorem gave_ret {value : Option Surface.Expr}
    (h : Gave t b (lowerKind setting b location (.ret value)) out) :
    (t.body b).kind.isFunctionLike = true ∧
      ((t.body b).kind = .callable .asyncGenerator → value = none) ∧
      ∃ value', out = some (returnStmt (t.body b).kind value') ∧
        Gave t b (lowerOption setting b location value) value' := by
  rw [lowerKind] at h
  have hkind : ∀ value' : Option IR.Expr, Sound 0 b (do
      return some (returnStmt (← kindOf b) value')) fun _ => True := fun value' =>
    (sound_kindOf b).bind fun _ _ => sound_pure trivial
  obtain ⟨_, -, hcheck, h⟩ := h.bind (sound_checkReturn location value.isSome) fun _ _ =>
    (sound_lowerOption setting value 0 b location).bind fun value' _ => hkind value'
  obtain ⟨value', -, hvalue, h⟩ := h.bind (sound_lowerOption setting value 0 b location)
    fun value' _ => hkind value'
  obtain ⟨kind, -, hkind, h⟩ := h.bind (sound_kindOf b) fun _ _ => sound_pure trivial
  cases gave_kindOf hkind
  obtain ⟨hlike, hnone⟩ := gave_checkReturn hcheck
  exact ⟨hlike, fun he => by simpa using hnone he, value', gave_pure h, hvalue⟩

theorem gave_raise {value : Option Surface.Expr}
    (h : Gave t b (lowerKind setting b location (.raise value)) out) :
    ∃ value', out = some (.raise value') ∧
      Gave t b (lowerOption setting b location value) value' := by
  rw [lowerKind] at h
  obtain ⟨value', -, hvalue, h⟩ := h.bind (sound_lowerOption setting value 0 b location) fun _ _ =>
    sound_pure trivial
  exact ⟨value', gave_pure h, hvalue⟩

theorem gave_branch {test : Surface.Expr} {body orelse : List Surface.Stmt}
    (h : Gave t b (lowerKind setting b location (.branch test body orelse)) out) :
    ∃ condition yes no,
      out = some (.branch condition (IR.Block.ofNonempty? yes) (IR.Block.ofNonempty? no)) ∧
      Gave t b (lowerExpr setting b location test) condition ∧
      Gave t b (lowerStmts setting b body) yes ∧ Gave t b (lowerStmts setting b orelse) no := by
  rw [lowerKind] at h
  obtain ⟨condition, -, hcondition, h⟩ := h.bind (sound_lowerExpr setting test 0 b location)
    fun _ _ => (sound_lowerStmts setting body 0 b).bind fun _ _ =>
      (sound_lowerStmts setting orelse 0 b).bind fun _ _ => sound_pure trivial
  obtain ⟨yes, -, hyes, h⟩ := h.bind (sound_lowerStmts setting body 0 b) fun _ _ =>
    (sound_lowerStmts setting orelse 0 b).bind fun _ _ => sound_pure trivial
  obtain ⟨no, -, hno, h⟩ := h.bind (sound_lowerStmts setting orelse 0 b) fun _ _ =>
    sound_pure trivial
  exact ⟨condition, yes, no, gave_pure h, hcondition, hyes, hno⟩

theorem gave_loop {test : Surface.Expr} {body : List Surface.Stmt}
    (h : Gave t b (lowerKind setting b location (.loop test body)) out) :
    ∃ condition inner, out = some (.loop condition (IR.Block.ofNonempty? inner)) ∧
      Gave t b (lowerExpr setting b location test) condition ∧
      Gave t b (lowerStmts setting b body) inner := by
  rw [lowerKind] at h
  obtain ⟨condition, -, hcondition, h⟩ := h.bind (sound_lowerExpr setting test 0 b location)
    fun _ _ => (sound_lowerStmts setting body 0 b).bind fun _ _ => sound_pure trivial
  obtain ⟨inner, -, hinner, h⟩ := h.bind (sound_lowerStmts setting body 0 b) fun _ _ =>
    sound_pure trivial
  exact ⟨condition, inner, gave_pure h, hcondition, hinner⟩

theorem sound_lowerDef (setting : Setting) (d : Surface.Def) (m : Nat) (b : BodyId) :
    Sound m b (lowerDef setting b d) fun statement => statement.quiet = true := by
  obtain ⟨name, params, body, decorators, returns, isAsync, place⟩ := d
  rw [lowerDef]
  exact sound_lowerDefWith setting _ (sound_lowerUndocumented setting body)

theorem sound_lowerClassDef (setting : Setting) (d : Surface.ClassDef) (m : Nat) (b : BodyId) :
    Sound m b (lowerClassDef setting b d) fun statement => statement.quiet = true := by
  obtain ⟨name, bases, body, decorators, place⟩ := d
  rw [lowerClassDef]
  exact sound_lowerClassDefWith setting _ (sound_lowerUndocumented setting body)

theorem gave_define {d : Surface.Def}
    (h : Gave t b (lowerKind setting b location (.define d)) out) :
    ∃ statement, out = some statement ∧ Gave t b (lowerDef setting b d) statement := by
  rw [lowerKind] at h
  obtain ⟨statement, -, hstatement, h⟩ := h.bind (sound_lowerDef setting d 0 b) fun _ _ =>
    sound_pure trivial
  exact ⟨statement, gave_pure h, hstatement⟩

theorem gave_defineClass {d : Surface.ClassDef}
    (h : Gave t b (lowerKind setting b location (.defineClass d)) out) :
    ∃ statement, out = some statement ∧ Gave t b (lowerClassDef setting b d) statement := by
  rw [lowerKind] at h
  obtain ⟨statement, -, hstatement, h⟩ := h.bind (sound_lowerClassDef setting d 0 b) fun _ _ =>
    sound_pure trivial
  exact ⟨statement, gave_pure h, hstatement⟩

end Statements

end Lowering

end DefinitionLowering
