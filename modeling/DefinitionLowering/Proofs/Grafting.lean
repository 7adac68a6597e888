import Mathlib.Data.List.Chain
import DefinitionLowering.Proofs.Creations
import DefinitionLowering.Proofs.Suspension

/-!
# What lowering adds to the tree of bodies

`Grown t b ids made headers` says of bodies that were created while something was lowered in `b`:
they hang from `b`, whose code has to create `made`, and they are the bodies of the scopes
`headers`, each with the bodies that a scope of its kind has (`Contributes`).

`Grafts b held x out headers` is about a step: the creations that it was handed (`held`), with
those of the bodies that it adds, are all in what it gives (`out`).  No creation is dropped or
used twice on the way, so a step that is made of steps hands what the first one gave to the next
(`Grafts.bind`).
-/

namespace DefinitionLowering

open IR (BodyId Store exprsCreations stmtsCreations)
/-! ## The scopes that are evaluated -/

namespace Surface

mutual

/-- The scopes that a part makes when it is evaluated, the nested ones included. -/
def Part.headers : Part → List Header
  | .scope inner => inner.headers
  | _ => []

def Region.headers : Region → List Header
  | ⟨header, parts⟩ => header :: partsHeaders parts

def partsHeaders : List Part → List Header
  | [] => []
  | first :: rest => first.headers ++ partsHeaders rest

end

@[simp] theorem partsHeaders_nil : partsHeaders [] = [] := rfl

@[simp] theorem partsHeaders_cons (first : Part) (rest : List Part) :
    partsHeaders (first :: rest) = first.headers ++ partsHeaders rest := rfl

@[simp] theorem partsHeaders_append (first rest : List Part) :
    partsHeaders (first ++ rest) = partsHeaders first ++ partsHeaders rest := by
  induction first with
  | nil => rfl
  | cons part parts ih => simp [ih]

/-- Whether a parameter list has to be taken apart. -/
def Header.hasPatterns (h : Header) : Bool :=
  h.params.any fun params => params.positional.any Pattern.isTuple

/-- The kinds of the bodies that a scope has, each body providing the next: a callable has its
function, a delegate if parameters are taken apart, and the object that it manufactures. -/
def Header.bodyKinds (h : Header) : List BodyKind :=
  match h.kind with
  | .callable kind =>
    .function :: ((if h.hasPatterns then [.function] else []) ++
      (kind.object?.map fun object => .callable (.suspended object)).toList)
  | kind => [kind]

end Surface

open Surface (Header Part partsHeaders)

/-! ## Bodies of scopes -/

/-- A scope has these bodies. -/
structure Contributes (t : Store) (h : Header) (bodies : List BodyId) : Prop where
  kinds : bodies.map (fun c => (t.body c).kind) = h.bodyKinds
  chained : bodies.IsChain fun p c => (t.body c).provider = some p
  named : ∀ c ∈ bodies.head?, (t.body c).name = h.name
  located : ∀ c ∈ bodies, (t.body c).location = h.location

/-- Some bodies are, one for one, those that some scopes have. -/
def Contributed (t : Store) (headers : List Header) (ids : List BodyId) : Prop :=
  ∃ scopes : List (Header × List BodyId),
    (∀ scope ∈ scopes, Contributes t scope.1 scope.2) ∧
      (scopes.map Prod.fst).Perm headers ∧ (scopes.flatMap Prod.snd).Perm ids

section Contributed

variable {t : Store} {headers headers' : List Header} {ids ids' : List BodyId}

theorem contributed_nil (t : Store) : Contributed t [] [] :=
  ⟨[], fun _ h => absurd h List.not_mem_nil, .refl _, .refl _⟩

theorem Contributed.append (h : Contributed t headers ids) (h' : Contributed t headers' ids') :
    Contributed t (headers ++ headers') (ids ++ ids') := by
  obtain ⟨scopes, hscopes, hheaders, hids⟩ := h
  obtain ⟨scopes', hscopes', hheaders', hids'⟩ := h'
  refine ⟨scopes ++ scopes', fun scope hmem => ?_, ?_, ?_⟩
  · exact (List.mem_append.1 hmem).elim (hscopes scope) (hscopes' scope)
  · rw [List.map_append]
    exact hheaders.append hheaders'
  · rw [List.flatMap_append]
    exact hids.append hids'

theorem Contributed.perm (h : Contributed t headers ids) (hheaders : headers.Perm headers')
    (hids : ids.Perm ids') : Contributed t headers' ids' := by
  obtain ⟨scopes, hscopes, hh, hi⟩ := h
  exact ⟨scopes, hscopes, hh.trans hheaders, hi.trans hids⟩

theorem Contributes.contributed {h : Header} {bodies : List BodyId} (hc : Contributes t h bodies) :
    Contributed t [h] bodies := by
  refine ⟨[(h, bodies)], fun scope hmem => ?_, .refl _, ?_⟩
  · rw [List.mem_singleton.1 hmem]
    exact hc
  · simp

/-- The bodies of scopes may get other code. -/
theorem Contributed.congr {t' : Store} (h : Contributed t headers ids)
    (hbody : ∀ c, ∃ code, t'.body c = { t.body c with code := code }) :
    Contributed t' headers ids := by
  have hview : ∀ {α : Type} (view : IR.Body → α),
      (∀ body code, view { body with code := code } = view body) →
        ∀ c, view (t'.body c) = view (t.body c) := by
    intro α view hf c
    obtain ⟨code, hc⟩ := hbody c
    rw [hc, hf]
  have hkind := hview IR.Body.kind fun _ _ => rfl
  have hname := hview IR.Body.name fun _ _ => rfl
  have hprovider := hview IR.Body.provider fun _ _ => rfl
  have hlocation := hview IR.Body.location fun _ _ => rfl
  obtain ⟨scopes, hscopes, hheaders, hids⟩ := h
  refine ⟨scopes, fun scope hmem => ?_, hheaders, hids⟩
  obtain ⟨hkinds, hchained, hnamed, hlocated⟩ := hscopes scope hmem
  refine ⟨?_, ?_, fun c hc => ?_, fun c hc => ?_⟩
  · simpa only [hkind] using hkinds
  · simpa only [hprovider] using hchained
  · rw [hname, hnamed c hc]
  · rw [hlocation, hlocated c hc]

end Contributed

/-! ## Bodies that were added in a body -/

/-- Bodies hang from a body, and they are those of some scopes. -/
structure Grown (t : Store) (b : BodyId) (ids : List BodyId) (made : List (BodyKind × BodyId))
    (headers : List Header) : Prop where
  hangs : t.Hangs b ids made
  contributed : Contributed t headers ids

section Grown

variable {t : Store} {b c : BodyId} {ids ids' : List BodyId}
  {made made' : List (BodyKind × BodyId)} {headers headers' : List Header} {n m k l : Nat}

theorem grown_nil (t : Store) (b : BodyId) : Grown t b [] [] [] :=
  ⟨IR.Store.hangs_nil t b, contributed_nil t⟩

theorem Grown.perm (h : Grown t b ids made headers) (hids : ids.Perm ids')
    (hmade : made.Perm made') (hheaders : headers.Perm headers') : Grown t b ids' made' headers' :=
  ⟨h.hangs.perm hids hmade.symm, h.contributed.perm hheaders hids⟩

theorem Grown.append (h : Grown t b ids made headers) (h' : Grown t b ids' made' headers')
    (ht : t.Ordered) (hdisjoint : ∀ c ∈ ids, c ∉ ids') :
    Grown t b (ids ++ ids') (made ++ made') (headers ++ headers') :=
  ⟨h.hangs.append h'.hangs ht hdisjoint, h.contributed.append h'.contributed⟩

/-- No bodies were added. -/
theorem grown_of_eq (t : Store) (b : BodyId) (h : m = n) :
    Grown t b (Store.bodiesFrom n m) [] [] := by
  rw [h, Store.bodiesFrom_self]
  exact grown_nil t b

/-- Bodies that were added one after the other. -/
theorem Grown.trans (h : Grown t b (Store.bodiesFrom n m) made headers)
    (h' : Grown t b (Store.bodiesFrom m k) made' headers') (ht : t.Ordered) (hnm : n ≤ m)
    (hmk : m ≤ k) : Grown t b (Store.bodiesFrom n k) (made ++ made') (headers ++ headers') := by
  rw [← Store.bodiesFrom_append hnm hmk]
  refine h.append h' ht fun c hc hc' => ?_
  rw [Store.mem_bodiesFrom] at hc hc'
  omega

/-- A callable was begun, something was lowered beside it, then its statements, and again
something beside it. -/
theorem Grown.around {own own' : List (BodyKind × BodyId)} {around around' : List Header}
    {size : Nat}
    (h : Grown t b (Store.bodiesFrom n m ++ Store.bodiesFrom k l) made headers)
    (hbefore : Grown t b (Store.bodiesFrom m k) own around)
    (hafter : Grown t b (Store.bodiesFrom l size) own' around')
    (ht : t.Ordered) (hnm : n ≤ m) (hmk : m ≤ k) (hkl : k ≤ l) (hl : l ≤ size) :
    Grown t b (Store.bodiesFrom n size) (own ++ own' ++ made) (around ++ around' ++ headers) := by
  have hmem : ∀ c ∈ Store.bodiesFrom m k ++ Store.bodiesFrom l size,
      c ∉ Store.bodiesFrom n m ++ Store.bodiesFrom k l := by
    simp only [List.mem_append, Store.mem_bodiesFrom]
    omega
  have hbeside := hbefore.append hafter ht fun c hc hc' => by
    rw [Store.mem_bodiesFrom] at hc hc'
    omega
  refine (hbeside.append h ht hmem).perm ?_ (.refl _) (.refl _)
  rw [← Store.bodiesFrom_append hnm (Nat.le_trans hmk (Nat.le_trans hkl hl)),
    ← Store.bodiesFrom_append hmk (Nat.le_trans hkl hl), ← Store.bodiesFrom_append hkl hl]
  refine List.perm_iff_count.2 fun c => ?_
  simp only [List.count_append]
  omega

end Grown

/-! ## Callables and classes -/

namespace Lowering

variable {dialect : Dialect} {t : Store} {b c : BodyId} {made : Callable}
  {object : Option BodyId} {callee : Callee} {ids : List BodyId}

/-- What a wrapper creates is its delegate. -/
theorem creations_forwarding {u : Unpacking} {delegate : BodyId} {code : CodeObject}
    {known : IR.VariableId → Prop} (h : u.Within known) :
    (forwarding u delegate code).creations = [(.function, delegate)] :=
  filterMap_forwarding (fun _ => rfl) (fun _ => rfl) (fun _ _ _ => rfl) (fun _ _ => rfl) h

theorem creations_manufacture (kind : ObjectKind) (o : BodyId) :
    (manufacture made kind o).creations = [(.callable (.suspended kind), o)] := rfl

/-- The code of a definition creates what its statements do. -/
theorem creations_definitionCode (isAsync : Bool) (kind : CallableKind) (code : CodeObject)
    (lowered : List IR.Stmt) :
    (definitionCode isAsync kind code lowered).creations = stmtsCreations lowered := by
  have hframe : ((frameOf code lowered).map IR.Block.creations).getD [] =
      stmtsCreations lowered := by
    unfold frameOf
    split
    · rename_i hempty
      rw [List.isEmpty_iff.1 hempty]
      rfl
    · exact IR.Block.creations_eq _
  unfold definitionCode plainCode
  split
  · rw [IR.Block.creations_closeWith rfl, hframe]
  · split
    · rw [IR.Block.creations_closeWith rfl, hframe]
    · rw [← hframe]
      cases frameOf code lowered <;> rfl

/-- A lambda's code creates what its value does. -/
theorem creations_lambdaStatements (value : IR.Expr) :
    stmtsCreations (lambdaStatements object value) = value.creations := by
  cases object <;> simp [lambdaStatements]

/-- The bodies of a callable hang from its provider. -/
theorem CallableAt.hangs {block : IR.Block}
    (h : CallableAt (.ofDialect dialect) t callee b made object) (ht : t.Ordered)
    (hcode : (t.body (codeBody made object)).code = some block)
    (hinner : t.Hangs (codeBody made object) ids block.creations) :
    t.Hangs b (Callable.bodies made object ++ ids) [(.function, made.outer)] := by
  have hcreations := IR.Store.creations_of_code hcode
  have hkind := h.stands.function_kind
  -- the object with its statements hangs from the function, if there is one
  obtain ⟨made', hfunction, hmaker⟩ : ∃ made', t.Hangs made.function (object.toList ++ ids) made' ∧
      (t.creations made.function).Perm made' := by
    cases object with
    | none => exact ⟨_, hinner, .of_eq hcreations⟩
    | some o =>
      obtain ⟨kind, -, hobject⟩ := h.objectAt
      have hkind : (t.body o).kind = .callable (.suspended kind) := hobject.planned.kind
      refine ⟨_, hinner.node ht hobject.planned.provider (.of_eq hcreations), .of_eq ?_⟩
      rw [IR.Store.creations_of_code hobject.maker, creations_manufacture, ← hkind]
      rfl
  have houter := h.stands.outer
  rcases h.stands.function with ⟨-, heq⟩ | ⟨-, hplanned, u, vars, hwrapper, hwithin, -⟩
  · rw [Callable.bodies, if_pos heq, List.nil_append]
    rw [heq] at hfunction hmaker
    have hnode := hfunction.node ht houter.provider hmaker
    rwa [houter.kind] at hnode
  · have hlt : made.outer.index < made.function.index := ht _ _ hplanned.provider
    have hne : made.function ≠ made.outer := fun heq => Nat.lt_irrefl _ (heq ▸ hlt)
    rw [Callable.bodies, if_neg hne]
    have hnode := (hfunction.node ht hplanned.provider hmaker).node ht houter.provider (by
      rw [IR.Store.creations_of_code hwrapper, IR.Block.creations_releasing,
        creations_forwarding hwithin, hkind])
    rwa [houter.kind] at hnode

/-- What is known of the bodies of a callable, whether or not there are a delegate and an
object. -/
theorem contributes_callable {h : Header} {shell : List BodyId}
    (hbodies : Callable.bodies made object = made.outer :: (shell ++ object.toList))
    (hkinds : h.bodyKinds = .function :: (shell.map (fun c => (t.body c).kind) ++
      object.toList.map fun c => (t.body c).kind))
    (hchained : (made.outer :: shell).IsChain fun p c => (t.body c).provider = some p)
    (hlast : ∀ o ∈ object, ∀ p ∈ (made.outer :: shell).getLast?, (t.body o).provider = some p)
    (houter : (t.body made.outer).kind = .function ∧ (t.body made.outer).name = h.name)
    (hlocated : ∀ c ∈ Callable.bodies made object, (t.body c).location = h.location) :
    Contributes t h (Callable.bodies made object) := by
  refine ⟨?_, ?_, ?_, hlocated⟩
  · rw [hbodies, hkinds, List.map_cons, List.map_append, houter.1]
  · rw [hbodies, ← List.cons_append]
    refine List.isChain_append.2 ⟨hchained, ?_, fun p hp o ho => ?_⟩
    · cases object <;> simp
    · exact hlast o (by cases object <;> simp_all) p hp
  · intro c hc
    rw [hbodies] at hc
    cases hc
    exact houter.2

/-- A callable has an object if its kind does, which is of that kind and comes from its function. -/
theorem CallableAt.object_kinds
    (hcallable : CallableAt (.ofDialect dialect) t callee b made object) :
    ((callee.kind (.ofDialect dialect)).object?.map
        fun o => BodyKind.callable (.suspended o)).toList =
      object.toList.map (fun c => (t.body c).kind) ∧
    ∀ o ∈ object, (t.body o).provider = some made.function ∧
      (t.body o).location = callee.location := by
  have hmanufactured := hcallable.manufactured
  rw [← Callee.bodyKind_eq, Callee.bodyKind]
  generalize callee.object? (.ofDialect dialect) = kind at hmanufactured
  cases hmanufactured with
  | none =>
    refine ⟨rfl, fun o ho => ?_⟩
    cases ho
  | some hobject =>
    refine ⟨congrArg (fun k => [k]) hobject.planned.kind.symm, fun o ho => ?_⟩
    cases ho
    exact ⟨hobject.planned.provider, hobject.planned.location⟩

/-- The bodies of a callable are those of the scope that it is where it is written. -/
theorem CallableAt.contributes {h : Header}
    (hcallable : CallableAt (.ofDialect dialect) t callee b made object) (ht : t.Ordered)
    (hkind : h.kind = .callable (callee.kind (.ofDialect dialect)))
    (hparams : h.params = some callee.params) (hname : h.name = callee.name)
    (hlocation : h.location = callee.location) :
    Contributes t h (Callable.bodies made object) := by
  have houter := hcallable.stands.outer
  obtain ⟨hobjectKinds, hobject⟩ := hcallable.object_kinds
  have hpatterns : h.hasPatterns = callee.params.positional.any Surface.Pattern.isTuple := by
    rw [Header.hasPatterns, hparams]
    rfl
  have hobjectLocated : ∀ o ∈ object.toList, (t.body o).location = h.location := fun o ho =>
    (hobject o (Option.mem_toList.1 ho)).2.trans hlocation.symm
  have hkinds : h.bodyKinds = .function :: ((if h.hasPatterns then [.function] else []) ++
      object.toList.map fun c => (t.body c).kind) := by
    rw [Header.bodyKinds, hkind, ← hobjectKinds]
  have hfirst : (t.body made.outer).kind = .function ∧ (t.body made.outer).name = h.name :=
    ⟨houter.kind, houter.name.trans hname.symm⟩
  rcases hcallable.stands.function with ⟨hplain, heq⟩ | ⟨htuple, hplanned, -⟩
  · have hbodies : Callable.bodies made object = made.outer :: ([] ++ object.toList) := by
      rw [Callable.bodies, if_pos heq]
    refine contributes_callable hbodies ?_ (.singleton _) ?_ hfirst ?_
    · rw [hkinds, hpatterns, hplain]
      rfl
    · intro o ho p hp
      cases hp
      rw [← heq]
      exact (hobject o ho).1
    · rw [hbodies]
      intro c hc
      rcases List.mem_cons.1 hc with rfl | hc
      · exact houter.location.trans hlocation.symm
      · exact hobjectLocated c hc
  · have hlt : made.outer.index < made.function.index := ht _ _ hplanned.provider
    have hne : made.function ≠ made.outer := fun heq => Nat.lt_irrefl _ (heq ▸ hlt)
    have hbodies : Callable.bodies made object =
        made.outer :: ([made.function] ++ object.toList) := by
      rw [Callable.bodies, if_neg hne]
    refine contributes_callable hbodies ?_ (.cons_cons hplanned.provider (.singleton _))
      ?_ hfirst ?_
    · rw [hkinds, hpatterns, if_pos htuple, List.map_singleton, hcallable.stands.function_kind]
    · intro o ho p hp
      cases hp
      exact (hobject o ho).1
    · rw [hbodies]
      intro c hc
      rcases List.mem_cons.1 hc with rfl | hc
      · exact houter.location.trans hlocation.symm
      · rcases List.mem_append.1 hc with hc | hc
        · rw [List.mem_singleton.1 hc]
          exact hplanned.location.trans hlocation.symm
        · exact hobjectLocated c hc

/-- The bodies of a callable, with those that were added in the one that holds its statements. -/
theorem CallableAt.grown {h : Header} {headers : List Header} {block : IR.Block} {n m : Nat}
    (hcallable : CallableAt (.ofDialect dialect) t callee b made object) (ht : t.Ordered)
    (hbodies : Store.bodiesFrom n m = Callable.bodies made object)
    (hcode : (t.body (codeBody made object)).code = some block)
    (hinner : Grown t (codeBody made object) ids block.creations headers)
    (hkind : h.kind = .callable (callee.kind (.ofDialect dialect)))
    (hparams : h.params = some callee.params) (hname : h.name = callee.name)
    (hlocation : h.location = callee.location) :
    Grown t b (Store.bodiesFrom n m ++ ids) [(.function, made.outer)] (h :: headers) := by
  rw [hbodies]
  exact ⟨hcallable.hangs ht hcode hinner.hangs,
    (hcallable.contributes ht hkind hparams hname hlocation).contributed.append hinner.contributed⟩

/-! ## Steps that pass creations on -/

variable {α β : Type} {n : Nat} {s s' : Store} {location : Location}
  {held made : List (BodyKind × BodyId)} {headers headers' : List Header}

/-- When the step gives a value in a body, what the value creates is what was held, and what the
body has to create for the bodies that the step adds. -/
def Grafts (b : BodyId) (held : List (BodyKind × BodyId)) (x : Lowering α)
    (out : α → List (BodyKind × BodyId)) (headers : List Header) : Prop :=
  ∀ s a s', s.WellFormed → b.index < s.bodies.size → x s = .ok a s' →
    s'.WellFormed ∧ Store.Grows s.bodies.size s s' ∧
      ∀ t, Store.Grows 0 s' t → t.WellFormed → ∃ made, (out a).Perm (held ++ made) ∧
        Grown t b (Store.bodiesFrom s.bodies.size s'.bodies.size) made headers

section Rules

variable {x : Lowering α} {f : α → Lowering β} {out : α → List (BodyKind × BodyId)}
  {out' : β → List (BodyKind × BodyId)}

theorem grafts_pure {a : α} (h : (out a).Perm held) :
    Grafts b held (pure a : Lowering α) out [] := by
  intro s a' s' hs hb hrun
  cases hrun
  exact ⟨hs, Store.Grows.refl _ _, fun t _ _ =>
    ⟨[], by rw [List.append_nil]; exact h, grown_of_eq t b rfl⟩⟩

theorem grafts_query (f : Store → α) : Grafts b [] (query f) (fun _ => []) [] := by
  intro s a s' hs hb hrun
  cases hrun
  exact ⟨hs, Store.Grows.refl _ _, fun t _ _ => ⟨[], .refl _, grown_of_eq t b rfl⟩⟩

theorem grafts_reject {cause : Cause} :
    Grafts b held (reject cause location : Lowering α) out headers := by
  intro s a s' hs hb hrun
  cases hrun

theorem grafts_rejected {cause : Cause} :
    Grafts b held (reject cause location >>= f) out' headers := by
  intro s a s' hs hb hrun
  cases hrun

/-- The second step is handed what the first one gave. -/
theorem Grafts.bind (hx : Grafts b [] x out headers)
    (hf : ∀ a, Grafts b (held ++ out a) (f a) out' headers') :
    Grafts b held (x >>= f) out' (headers ++ headers') := by
  intro s d s' hs hb hrun
  obtain ⟨a, s₁, hrun₁, hrun₂⟩ := bind_eq_ok hrun
  obtain ⟨hs₁, hg₁, grown₁⟩ := hx _ _ _ hs hb hrun₁
  obtain ⟨hs₂, hg₂, grown₂⟩ := hf a _ _ _ hs₁ (Nat.lt_of_lt_of_le hb hg₁.bodies) hrun₂
  refine ⟨hs₂, hg₁.trans hg₂ hg₁.bodies, fun t ht hwf => ?_⟩
  obtain ⟨made₁, hperm₁, hgrown₁⟩ :=
    grown₁ t ((hg₂.mono (Nat.zero_le _)).trans ht (Nat.le_refl 0)) hwf
  obtain ⟨made₂, hperm₂, hgrown₂⟩ := grown₂ t ht hwf
  refine ⟨made₁ ++ made₂, hperm₂.trans ?_, hgrown₁.trans hgrown₂ hwf.ordered hg₁.bodies hg₂.bodies⟩
  rw [← List.append_assoc]
  exact (hperm₁.append_left held).append_right made₂

/-- A first step that only looks at the store, or at the scopes around. -/
theorem Grafts.after (hx : Grafts b [] x (fun _ => []) [])
    (hf : ∀ a, Grafts b held (f a) out' headers) : Grafts b held (x >>= f) out' headers :=
  hx.bind fun a => by
    rw [List.append_nil]
    exact hf a

/-- A last step that only puts a value in its place. -/
theorem Grafts.map {g : α → β} (hx : Grafts b held x out headers)
    (hg : ∀ a, (out' (g a)).Perm (out a)) :
    Grafts b held (x >>= fun a => pure (g a)) out' headers := by
  intro s d s' hs hb hrun
  obtain ⟨a, s₁, hrun₁, hrun₂⟩ := bind_eq_ok hrun
  cases hrun₂
  obtain ⟨hs', hg', hgrown⟩ := hx _ _ _ hs hb hrun₁
  refine ⟨hs', hg', fun t ht hwf => ?_⟩
  obtain ⟨made, hperm, hmade⟩ := hgrown t ht hwf
  exact ⟨made, (hg a).trans hperm, hmade⟩

/-- What was held is passed by a step that does not need it. -/
theorem Grafts.frame (hx : Grafts b [] x out headers) :
    Grafts b held x (fun a => held ++ out a) headers := by
  intro s a s' hs hb hrun
  obtain ⟨hs', hg', hgrown⟩ := hx _ _ _ hs hb hrun
  refine ⟨hs', hg', fun t ht hwf => ?_⟩
  obtain ⟨made, hperm, hmade⟩ := hgrown t ht hwf
  exact ⟨made, hperm.append_left held, hmade⟩

theorem Grafts.last {g : α → β} (hx : Grafts b [] x out headers)
    (hg : ∀ a, (out' (g a)).Perm (held ++ out a)) :
    Grafts b held (x >>= fun a => pure (g a)) out' headers :=
  hx.frame.map hg

theorem grafts_mapM {step : β → Lowering α} {scopes : β → List Header} : ∀ {items : List β},
    (∀ item ∈ items, Grafts b [] (step item) out (scopes item)) →
      Grafts b [] (items.mapM step) (List.flatMap out) (items.flatMap scopes)
  | [], _ => by
    rw [List.mapM_nil]
    exact grafts_pure (.refl _)
  | first :: rest, hstep => by
    rw [List.mapM_cons]
    exact (hstep first List.mem_cons_self).bind fun a =>
      (grafts_mapM fun item hitem => hstep item (List.mem_cons_of_mem _ hitem)).last
        fun values => .refl _

end Rules

theorem grafts_resolve (name : String) :
    Grafts b [] (Lowering.resolve b name) (fun _ => []) [] := by
  intro s a s' hs hb hrun
  have hs' : s' = (s.resolve b name).2 := by
    cases hrun
    rfl
  rw [hs']
  exact ⟨hs.resolve b name, Store.Grows.resolve _ s b name, fun t _ _ =>
    ⟨[], .refl _, grown_of_eq t b (Store.size_bodies_resolve _ _ _)⟩⟩

theorem grafts_reference (name : String) :
    Grafts b [] (reference b name) IR.Expr.creations [] := by
  unfold reference
  refine (grafts_query _).after fun text => (grafts_query _).after fun kind => ?_
  split
  · exact grafts_pure (.refl _)
  · refine (grafts_resolve text).after fun found => ?_
    cases found <;> exact grafts_pure (.refl _)

theorem grafts_bindName (name : String) (source : IR.Expr) :
    Grafts b source.creations (bindName b name source) IR.Stmt.creations [] := by
  unfold bindName
  refine (grafts_query _).after fun kind => ?_
  split
  · exact grafts_pure (.of_eq (IR.Stmt.creations_assignName name))
  · refine (grafts_resolve name).after fun found => ?_
    cases found with
    | some v => exact grafts_pure (.of_eq (IR.Stmt.creations_assignVariable v))
    | none => exact grafts_pure (.of_eq (IR.Stmt.creations_assignName name))

theorem grafts_bindDefinition (name : String) (value : IR.Expr) :
    Grafts b value.creations (bindDefinition b name value) IR.Stmt.creations [] :=
  (grafts_query _).after fun text => grafts_bindName text value

/-! ## Steps one after the other -/

/-- What was lowered in a body between two stores: the bodies that were added, and all that it
creates. -/
structure Grafted (b : BodyId) (s s' : Store) (made : List (BodyKind × BodyId))
    (headers : List Header) : Prop where
  grown : Store.Grows 0 s s'
  wellFormed : s'.WellFormed
  here : b.index < s'.bodies.size
  adds : ∀ t, Store.Grows 0 s' t → t.WellFormed →
    Grown t b (Store.bodiesFrom s.bodies.size s'.bodies.size) made headers

section Grafted

variable {x : Lowering α} {a : α} {out : α → List (BodyKind × BodyId)}

theorem Grafted.le (h : Grafted b s t made headers) : s.bodies.size ≤ t.bodies.size :=
  h.grown.bodies

theorem grafted_nil (hs : s.WellFormed) (hb : b.index < s.bodies.size) : Grafted b s s [] [] :=
  ⟨Store.Grows.refl 0 s, hs, hb, fun t _ _ => grown_of_eq t b rfl⟩

/-- A step that adds no bodies. -/
theorem Grafted.still (h : Grafted b s t made headers) (hg : Store.Grows 0 t s')
    (hwf : s'.WellFormed) (hsize : s'.bodies.size = t.bodies.size) :
    Grafted b s s' made headers where
  grown := h.grown.trans hg (Nat.le_refl 0)
  wellFormed := hwf
  here := hsize ▸ h.here
  adds r hr hr' := hsize ▸ h.adds r (hg.trans hr (Nat.le_refl 0)) hr'

/-- A step that uses what is in hand. -/
theorem Grafted.holding (h : Grafted b s t made headers) (hran : Ran n x t a s')
    (hx : Grafts b held x out headers') :
    ∃ more, (out a).Perm (held ++ more) ∧ Grafted b s s' (made ++ more) (headers ++ headers') := by
  obtain ⟨hwf, hg, hgrown⟩ := hx t a s' h.wellFormed h.here hran.run
  have hg₀ := hg.mono (Nat.zero_le _)
  -- what the value creates is known in the store after the step already
  obtain ⟨more, hperm, -⟩ := hgrown s' (Store.Grows.refl 0 s') hwf
  refine ⟨more, hperm, h.grown.trans hg₀ (Nat.le_refl 0), hwf, hran.created h.here,
    fun r hr hr' => ?_⟩
  obtain ⟨made', hperm', hmade⟩ := hgrown r hr hr'
  have hsame : made'.Perm more := (List.perm_append_left_iff held).1 (hperm'.symm.trans hperm)
  exact (h.adds r (hg₀.trans hr (Nat.le_refl 0)) hr').trans
    (hmade.perm (.refl _) hsame (.refl _)) hr'.ordered h.le hg.bodies

theorem Grafted.ran (h : Grafted b s t made headers) (hran : Ran n x t a s')
    (hx : Grafts b [] x out headers') :
    Grafted b s s' (made ++ out a) (headers ++ headers') := by
  obtain ⟨more, hperm, hgrafted⟩ := h.holding hran hx
  exact ⟨hgrafted.grown, hgrafted.wellFormed, hgrafted.here, fun r hr hwf =>
    (hgrafted.adds r hr hwf).perm (.refl _) (hperm.symm.append_left made) (.refl _)⟩

theorem Ran.grafted (h : Ran n x s a s') (hx : Grafts b [] x out headers) (hs : s.WellFormed)
    (hb : b.index < s.bodies.size) : Grafted b s s' (out a) headers :=
  (grafted_nil hs hb).ran h hx

end Grafted

end Lowering

end DefinitionLowering
