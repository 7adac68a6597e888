import DefinitionLowering.Proofs.Origins
import DefinitionLowering.Proofs.Threading

/-!
# Lowering threads captured variables

Main result: `captures`, lowering in a body keeps the store threaded.  `Changes` is what
has to be known besides: of the bodies there were, only those on the search path of the body
come to see more, and new variables belong to new bodies.  A scope is opened while its body sees
nothing but parameters (`OnlyParams`); nothing that is lowered in between changes that.
-/

namespace DefinitionLowering

open IR (BodyId VariableId Store)
open Lowering (isParameter GlobalStep DeclareStep)

namespace IR.Store

variable {n m : Nat} {path : List BodyId} {s s₁ s' : Store} {b c p : BodyId} {name : String}

/-! ## What changes for the bodies there were -/

/-- The store stays threaded; of the first `n` bodies only those of a path come to see more, and
new variables belong to other bodies. -/
structure Changes (n : Nat) (path : List BodyId) (s s' : Store) : Prop where
  threaded : s.Threaded → s'.Threaded
  frame : ∀ c : BodyId, c.index < n → c ∉ path → s'.visible c = s.visible c
  owners : OwnersFrom n s s'

theorem Changes.refl (n : Nat) (path : List BodyId) (s : Store) : Changes n path s s :=
  ⟨id, fun _ _ _ => rfl, ownersFrom_of_size rfl⟩

theorem Changes.trans (h : Changes n path s s₁) (h' : Changes n path s₁ s')
    (hg : Grows m s₁ s') : Changes n path s s' where
  threaded hs := h'.threaded (h.threaded hs)
  frame c hc hpath := (h'.frame c hc hpath).trans (h.frame c hc hpath)
  owners := h.owners.trans h'.owners hg

/-- A change within some bodies is one for fewer bodies on a shorter path. -/
theorem Changes.weaken {path' : List BodyId} (h : Changes m path' s s') (hn : n ≤ m)
    (hpath : ∀ d ∈ path', d.index < n → d ∈ path) : Changes n path s s' where
  threaded := h.threaded
  frame c hc hnot := h.frame c (Nat.lt_of_lt_of_le hc hn) fun hmem => hnot (hpath c hmem hc)
  owners := h.owners.mono hn

/-- Of the first `n` bodies, a search from a body goes through those of a path only. -/
def Nested (n : Nat) (path : List BodyId) (s : Store) (c : BodyId) : Prop :=
  ∀ d ∈ s.lookupPath c, d.index < n → d ∈ path

theorem Nested.grow (h : Nested n path s c) (hg : Grows m s s') (hs : s.Ordered)
    (hc : c.index < s.bodies.size) : Nested n path s' c := by
  rw [Nested, hg.lookupPath hs hc]
  exact h

/-- A search from a new body goes on from its provider. -/
theorem Nested.child (h : Nested n path s p) (hs : s.Ordered)
    (hp : (s.body c).provider = some p) (hc : n ≤ c.index) : Nested n path s c := by
  intro d hd hlt
  rcases List.mem_cons.1 hd with rfl | hd
  · omega
  · exact h d (hs.outerPath_subset hp hd) hlt

/-! ## Single operations -/

theorem changes_resolve (hs : s.WellFormed) (hb : b.index < s.bodies.size) :
    Changes n (s.lookupPath b) s (s.resolve b name).2 where
  threaded h := h.resolve hs hb
  frame c _ hpath := by
    rcases hs.ordered.resolve_visible s b name c with hsame | ⟨v, hmem, -⟩
    · exact hsame
    · exact absurd hmem hpath
  owners := ownersFrom_of_size (by simp)

/-- A new body that is not an object's. -/
theorem changes_createBody {plan : BodyPlan} (hs : s.WellFormed)
    (hkind : plan.kind.isObject = false) (hn : n ≤ s.bodies.size) :
    Changes n path s (s.createBody plan).2 where
  threaded h := h.createBody hs hkind
  frame c hc _ := by rw [visible, body_createBody_of_lt s plan (Nat.lt_of_lt_of_le hc hn), visible]
  owners v hlow hhigh := by
    obtain ⟨slot, -, hvar⟩ := var_createBody_new hlow hhigh
    rw [hvar]
    exact hn

/-- A wrapper gets its temporaries and its code. -/
theorem changes_wrap {names : List String} {block : Option Block} (hs : s.WellFormed)
    (hn : n ≤ b.index) (hb : b.index < s.bodies.size) (hcode : (s.body b).code = none) :
    Changes n path s ((s.withTemporaries b names).modifyBody b fun body =>
      { body with code := block }) := by
  let filled := s.withTemporaries b names
  have hview : ∀ {α : Type} (view : Body → α),
      (∀ body code more, view { body with code := code, temporaries := more } = view body) →
      ∀ c, view ((filled.modifyBody b fun body => { body with code := block }).body c) =
        view (s.body c) := by
    intro α view hv c
    exact body_modifyBody_of (P := fun body => view body = view (s.body c))
      (fun h => (hv _ _ _).trans h) (body_withTemporaries_view view fun body more => hv body _ more)
  have hg : Grows 0 s (filled.modifyBody b fun body => { body with code := block }) := by
    refine (Grows.withTemporaries (Nat.zero_le _)).trans (Grows.modifyBody (fun _ => rfl)
      (fun _ => List.prefix_rfl) (fun code hc => ?_) (.inl (Nat.zero_le _))) (Nat.le_refl 0)
    rw [body_withTemporaries_self hb, hcode] at hc
    cases hc
  have hnew : ParamsAreNew s (filled.modifyBody b fun body => { body with code := block }) :=
    fun v hlow hhigh hkind => by
      obtain ⟨name, -, hvar⟩ := var_withTemporaries_of_le hlow hhigh
      have hscratch : (filled.var v).kind = .temporary := congrArg Variable.kind hvar
      exact absurd (hscratch.symm.trans hkind) VariableKind.noConfusion
  refine ⟨fun h => h.of_same hs hg (by simp) hnew (hview Body.visible fun _ _ _ => rfl)
    (hview Body.globals fun _ _ _ => rfl) (hview Body.nonlocals fun _ _ _ => rfl),
    fun c _ _ => hview Body.visible (fun _ _ _ => rfl) c, fun v hlow hhigh => ?_⟩
  obtain ⟨name, -, hvar⟩ := var_withTemporaries_of_le hlow hhigh
  have howner : (filled.var v).owner = b := congrArg Variable.owner hvar
  show n ≤ (filled.var v).owner.index
  rw [howner]
  exact hn

/-! ## Parameters -/

/-- A body sees nothing but parameters of one callable. -/
def OnlyParams (s : Store) (c p : BodyId) : Prop :=
  ∀ v ∈ s.visible c, (s.var v).kind = .parameter ∧ (s.var v).owner = p

theorem OnlyParams.grow (h : OnlyParams s c p) (hs : s.WellFormed) (hg : Grows m s s')
    (hvisible : s'.visible c = s.visible c) : OnlyParams s' c p := by
  intro v hv
  rw [hvisible] at hv
  rw [hg.var v (hs.seen c v hv).1]
  exact h v hv

/-- Whether a parameter that a body sees is one of the callable whose statements it holds. -/
def ParamsOf (s : Store) (c p : BodyId) : Prop :=
  p = c ∨ (s.body c).kind.isObject = true ∧ (s.body c).provider = some p

/-- Where a body sees nothing but parameters of its callable, a name that is no parameter is not
seen at all. -/
theorem OnlyParams.find?_eq_none (h : OnlyParams s c p) (hp : s.ParamsOf c p)
    (hparam : isParameter s c name = false) : s.find? c name = none := by
  cases hf : s.find? c name with
  | none => rfl
  | some v =>
    obtain ⟨hkind, howner⟩ := h v (find?_eq_some hf).1
    rw [isParameter, hf] at hparam
    rcases hp with rfl | ⟨hobject, hprovider⟩
    · simp [hkind, howner] at hparam
    · simp [hkind, howner, hobject, hprovider] at hparam

/-- The names that are recorded as global are not seen. -/
theorem globalSteps_changes (hs : s.WellFormed) (h : OnlyParams s c p) (hp : s.ParamsOf c p)
    (hsteps : Relation.ReflTransGen (GlobalStep c) s s') :
    s'.WellFormed ∧ Grows 0 s s' ∧ OnlyParams s' c p ∧ s'.ParamsOf c p ∧
      ∀ n path, Changes n path s s' := by
  induction hsteps with
  | refl => exact ⟨hs, Grows.refl _ _, h, hp, fun n path => Changes.refl n path s⟩
  | @tail s₁ s₂ _ hlast ih =>
    obtain ⟨hs₁, hg₁, h₁, hp₁, hchanges⟩ := ih
    obtain ⟨name, hparam⟩ := hlast
    have hg : Grows 0 s₁ (s₁.addGlobal c name) := Grows.addGlobal (Nat.zero_le _)
    have hvisible : ∀ d, (s₁.addGlobal c name).visible d = s₁.visible d := fun d =>
      body_modifyBody_of (P := fun body => body.visible = s₁.visible d) id rfl
    have hp₂ : (s₁.addGlobal c name).ParamsOf c p := by
      refine hp₁.imp_right fun hobject => ?_
      rw [addGlobal, body_modifyBody]
      split <;> exact hobject
    refine ⟨hs₁.addGlobal, hg₁.trans hg (Nat.le_refl 0), h₁.grow hs₁ hg (hvisible c), hp₂,
      fun n path => (hchanges n path).trans ⟨fun ht => ?_, fun d _ _ => hvisible d,
        ownersFrom_of_size (by simp [addGlobal])⟩ hg⟩
    exact ht.addGlobal hs₁ (h₁.find?_eq_none hp₁ hparam)

/-! ## Declarations -/

/-- A variable that a search from a body finds further out belongs to a scope around it, and is no
parameter of the callable whose statements the body holds. -/
theorem Threaded.seesOuter_resolve (h : s.Threaded) (hs : s.WellFormed)
    (hc : c.index < s.bodies.size) {v : VariableId} (hfind : s.find? c name = none)
    (hlookup : s.lookup c name = some v) : (s.resolve c name).2.SeesOuter c name := by
  have hg := Grows.resolve 0 s c name
  obtain ⟨hlt, hscratch, hname⟩ := hs.known_of_lookup hlookup
  have hself := hs.ordered.find?_resolve_self s c name hc hlookup
  have hlisted := hs.listed v hlt
  rw [if_neg hscratch] at hlisted
  have hunseen : v ∉ s.visible c := fun hv => find?_eq_none.1 hfind v hv hname
  have howner : (s.var v).owner ≠ c := fun he => hunseen (he ▸ hlisted)
  have howner' : ((s.resolve c name).2.var v).owner ≠ c := by
    rw [hg.var v hlt]
    exact howner
  refine ⟨v, hself, (h.resolve hs hc).owner_mem_outerPath (hs.resolve c name).ordered
    (find?_eq_some hself).1 howner', ?_⟩
  rw [isParameter, hself]
  dsimp only
  rw [hg.var v hlt, hg.kind hc, hg.provider hc]
  by_contra hparam
  simp only [Bool.not_eq_false, Bool.and_eq_true, beq_iff_eq, Bool.or_eq_true] at hparam
  obtain ⟨hkind, hsame | ⟨hobject, hprovider⟩⟩ := hparam
  · exact howner hsame
  · exact hunseen ((h c hc).inherits hobject _ hprovider v hlt rfl hkind)

theorem DeclareStep.changes (h : DeclareStep c name s s') (hs : s.WellFormed)
    (hc : c.index < s.bodies.size) (hn : n ≤ c.index) (hnested : Nested n path s c) :
    s'.WellFormed ∧ Grows 0 s s' ∧ Changes n path s s' := by
  cases h with
  | seen location v hparam hfind howner =>
    have hg : Grows 0 s (s.addNonlocal c ⟨name, location⟩) := Grows.addNonlocal (Nat.zero_le _)
    refine ⟨hs.addNonlocal, hg, fun ht => ?_, fun d _ _ => ?_,
      ownersFrom_of_size (by simp [addNonlocal])⟩
    · exact ht.addNonlocal hs ⟨v, hfind,
        ht.owner_mem_outerPath hs.ordered (find?_eq_some hfind).1 howner, hparam⟩
    · exact body_modifyBody_of (P := fun body => body.visible = s.visible d) id rfl
  | found location v hfind hlookup =>
    have hg₁ := Grows.resolve 0 s c name
    have hs₁ := hs.resolve c name
    have hg₂ : Grows 0 (s.resolve c name).2 ((s.resolve c name).2.addNonlocal c ⟨name, location⟩) :=
      Grows.addNonlocal (Nat.zero_le _)
    have hresolve : Changes n path s (s.resolve c name).2 :=
      (changes_resolve hs hc).weaken (Nat.le_refl n) hnested
    refine ⟨hs₁.addNonlocal, hg₁.trans hg₂ (Nat.le_refl 0), ?_, fun d hd hpath => ?_, ?_⟩
    · exact fun ht => (ht.resolve hs hc).addNonlocal hs₁ (ht.seesOuter_resolve hs hc hfind hlookup)
    · rw [← hresolve.frame d hd hpath]
      exact body_modifyBody_of
        (P := fun body => body.visible = (s.resolve c name).2.visible d) id rfl
    · exact ownersFrom_of_size (by simp [addNonlocal])
  | bound hglobal =>
    have hg := Grows.declareLocal 0 s c name
    refine ⟨hs.declareLocal hc, hg, fun ht => ht.declareLocal hs hc hglobal, fun d hd _ => ?_,
      ownersFrom_declareLocal hc hn⟩
    exact visible_declareLocal_ne hc fun he => by rw [he] at hn; omega

/-- **Opening a scope** whose body sees nothing but parameters keeps the store threaded. -/
theorem openScope_changes {statements : List Surface.Stmt}
    (hrun : Lowering.openScope c statements s = .ok () s') (hs : s.WellFormed)
    (hc : c.index < s.bodies.size) (h : OnlyParams s c p) (hp : s.ParamsOf c p) (hn : n ≤ c.index)
    (hnested : Nested n path s c) : Changes n path s s' := by
  obtain ⟨s₁, hglobals, hdeclares⟩ := Lowering.openScope_steps hrun
  obtain ⟨hs₁, hg₁, -, -, hchanges⟩ := globalSteps_changes hs h hp hglobals
  clear hrun
  have hall : s'.WellFormed ∧ Grows 0 s₁ s' ∧ Changes n path s₁ s' := by
    induction hdeclares with
    | refl => exact ⟨hs₁, Grows.refl _ _, Changes.refl n path s₁⟩
    | tail _ hlast ih =>
      obtain ⟨hs₂, hg₂, hc₂⟩ := ih
      obtain ⟨_, _, hlast⟩ := hlast
      have hg := hg₁.trans hg₂ (Nat.le_refl 0)
      obtain ⟨hs₃, hg₃, hc₃⟩ := DeclareStep.changes hlast hs₂ (Nat.lt_of_lt_of_le hc hg.bodies) hn
        (hnested.grow hg hs.ordered hc)
      exact ⟨hs₃, hg₂.trans hg₃ (Nat.le_refl 0), hc₂.trans hc₃ hg₃⟩
  exact (hchanges n path).trans hall.2.2 hall.2.1

end IR.Store

namespace Lowering

open IR.Store (Changes Nested OnlyParams OwnersFrom)

variable {setting : Setting} {n : Nat} {path : List BodyId} {b c : BodyId} {s s₁ s' t : Store}
  {made : Callable} {name : String} {doc : Option String} {flags : Flags} {params : Surface.Params}
  {location : Location}

/-! ## Bodies of callables -/

/-- Creating a delegate leaves it with its parameters only. -/
theorem createDelegate_changes {wrapper delegate : BodyId} {signature : Signature}
    {placeholders : List Placeholder} {spell : String → String} {formals : List Surface.Pattern}
    {code : CodeObject} (hs : s.WellFormed) (hn : n ≤ wrapper.index)
    (h : IsFresh s wrapper signature placeholders spell formals)
    (hrun : createDelegate wrapper signature placeholders code flags doc location s =
      .ok delegate s') :
    Changes n path s s' ∧ Store.Grows 0 s s' ∧ OnlyParams s' delegate delegate := by
  let plan := delegatePlan wrapper signature.name (leafNames spell formals) flags doc location
  obtain ⟨hdelegate, -, hothers, -, hvars⟩ := createDelegate_bodies h hrun
  obtain ⟨hleaves, -, u, -, hs'⟩ := (createDelegate_spec h).of_ok hrun
  have hbound : n ≤ s.bodies.size := Nat.le_trans hn (Nat.le_of_lt h.created)
  have hs₁ : (s.createBody plan).2.WellFormed := by
    refine hs.createBody (fun p hp => by cases hp; exact h.created) (by simp [plan, delegatePlan])
      (by simp [plan, delegatePlan]) ?_
    show (delegateSignature _ _).slots.Nodup
    rw [delegateSignature_slots]
    exact hleaves
  have hcode : ((s.createBody plan).2.body wrapper).code = none := by
    rw [Store.body_createBody_of_lt _ _ h.created]
    exact h.codeless
  have hcreate : Changes n path s (s.createBody plan).2 :=
    IR.Store.changes_createBody hs rfl hbound
  have hgrows : Store.Grows 0 (s.createBody plan).2 s' := by
    rw [hs']
    refine (Store.Grows.withTemporaries (Nat.zero_le _)).trans (Store.Grows.modifyBody
      (fun _ => rfl) (fun _ => List.prefix_rfl) (fun block hc => ?_) (.inl (Nat.zero_le _)))
      (Nat.le_refl 0)
    rw [Store.body_withTemporaries_self (h.createBody plan).1.created, hcode] at hc
    cases hc
  refine ⟨hcreate.trans ?_ hgrows, ((Store.Grows.createBody s plan).mono (Nat.zero_le _)).trans
    hgrows (Nat.le_refl 0), fun v hv => ?_⟩
  · rw [hs']
    exact IR.Store.changes_wrap hs₁ hn (h.createBody plan).1.created hcode
  · have hne : delegate ≠ wrapper := fun he => by
      have := h.created
      rw [← he, hdelegate] at this
      exact Nat.lt_irrefl _ this
    rw [Store.visible, hothers delegate hne, hdelegate] at hv
    rw [hvars v (hs₁.seen _ v hv).1, hdelegate]
    exact IR.Store.param_of_createBody hv

/-- Building a callable leaves a function that sees its parameters only. -/
theorem buildCallable_changes {kind : CallableKind} (hs : s.WellFormed)
    (hb : b.index < s.bodies.size) (hn : n ≤ s.bodies.size)
    (hrun : buildCallable setting b kind name doc flags params location s = .ok made s') :
    Changes n path s s' ∧ OnlyParams s' made.function made.function := by
  obtain ⟨hsig, houter, hcases⟩ := (buildCallable_spec hs.ordered hb).of_ok hrun
  obtain ⟨-, hslots⟩ := signature_eq_ok hsig
  let plan := functionPlan b name (params.rawSignature (s.spell b) name) flags doc location
  have hcreate : Changes n path s (s.createBody plan).2 := IR.Store.changes_createBody hs rfl hn
  rcases hcases with ⟨-, hfunction, rfl⟩ | ⟨-, hrun⟩
  · rw [hfunction, houter]
    exact ⟨hcreate, fun v hv => IR.Store.param_of_createBody hv⟩
  · have hs₁ : (s.createBody plan).2.WellFormed :=
      hs.createBody (fun p hp => by cases hp; exact hb) (by simp [plan, functionPlan])
        (by simp [plan, functionPlan]) hslots
    have hfresh := isFresh_createBody flags doc location hs.ordered hb hslots
    rw [houter] at hrun
    obtain ⟨hdelegate, hg, hparams⟩ := createDelegate_changes hs₁ hn hfresh hrun
    exact ⟨hcreate.trans hdelegate hg, hparams⟩

/-- The object of a callable sees what its function sees. -/
theorem createObject_changes {kind : ObjectKind} {object : BodyId} (hs : s.WellFormed)
    (hfunction : made.function.index < s.bodies.size)
    (hkind : (s.body made.function).kind = .function) (hn : n ≤ s.bodies.size)
    (hrun : createObject made kind name flags location s = .ok object s') :
    Changes n path s s' ∧ s'.visible object = s.visible made.function := by
  rw [createObject_run] at hrun
  cases hrun
  refine ⟨⟨fun h => ?_, fun c hc _ => ?_, IR.Store.ownersFrom_of_size ?_⟩, ?_⟩
  · exact h.withObject hs rfl hfunction hkind (by simp [manufacturedPlan]) rfl
  · exact IR.Store.visible_withObject_of_lt (Nat.lt_of_lt_of_le hc hn)
  · exact IR.Store.size_vars_withObject rfl
  · exact hs.visible_withObject_self hfunction rfl

/-! ## Nesting of the bodies of a callable -/

/-- A search from the function of a callable goes on in the scope around the callable. -/
theorem Stands.nested (h : Stands t b name doc flags params location made)
    (hb : Nested n path t b) (ht : t.Ordered) (houter : n ≤ made.outer.index)
    (hfunction : n ≤ made.function.index) : Nested n path t made.function := by
  have hnested := hb.child ht h.outer.provider houter
  rcases h.function with ⟨-, heq⟩ | ⟨-, hplanned, -⟩
  · rw [heq]
    exact hnested
  · exact hnested.child ht hplanned.provider hfunction

/-- A callable before its statements are lowered: the function sees its parameters only, and so
does the object. -/
structure Empty (n : Nat) (path : List BodyId) (s : Store) (made : Callable)
    (object : Option BodyId) : Prop where
  nested : Nested n path s (codeBody made object)
  params : OnlyParams s (codeBody made object) made.function
  paramsOf : s.ParamsOf (codeBody made object) made.function

/-- The function of a callable that has just been built. -/
theorem empty_of_function (hb : Nested n path s b) (hs : s.WellFormed)
    (hstands : Stands s b name doc flags params location made) (houter : n ≤ made.outer.index)
    (hfunction : n ≤ made.function.index) (hparams : OnlyParams s made.function made.function) :
    Empty n path s made none where
  nested := hstands.nested hb hs.ordered houter hfunction
  params := hparams
  paramsOf := Or.inl rfl

/-- The object of a callable that has just been built. -/
theorem Empty.createObject {kind : ObjectKind} {o : BodyId} (h : Empty n path s made none)
    (hs : s.WellFormed) (hs' : s'.WellFormed) (hfunction : made.function.index < s.bodies.size)
    (hkind : (s.body made.function).kind = .function) (hn : n ≤ s.bodies.size)
    (hrun : Lowering.createObject made kind name flags location s = .ok o s')
    (hg : Store.Grows 0 s s') : Empty n path s' made (some o) := by
  obtain ⟨ho, -, hplanned⟩ := createObject_planned hrun (Store.Grows.refl 0 s')
  obtain ⟨-, hvisible⟩ : Changes n path s s' ∧ _ :=
    createObject_changes hs hfunction hkind hn hrun
  refine ⟨?_, fun v hv => ?_, Or.inr ⟨?_, hplanned.provider⟩⟩
  · exact (h.nested.grow hg hs.ordered hfunction).child hs'.ordered hplanned.provider
      (by rw [ho]; exact hn)
  · have hv : v ∈ s'.visible o := hv
    rw [hvisible] at hv
    rw [hg.var v (hs.seen _ v hv).1]
    exact h.params v hv
  · show (s'.body o).kind.isObject = true
    rw [hplanned.kind]
    rfl

/-! ## The pass -/

/-- What lowering in a body changes. -/
def Captures (b : BodyId) (s s' : Store) : Prop :=
  Changes s.bodies.size (s.lookupPath b) s s'

theorem Ran.changes {α : Type} {m : Nat} {x : Lowering α} {a : α} (h : Ran m x s a s')
    (hx : Obeys Captures c x) (hs : s.WellFormed) (hc : c.index < s.bodies.size)
    (hn : n ≤ s.bodies.size) (hnested : Nested n path s c) : Changes n path s s' :=
  (hx s a s' hs hc h.run).2.2.weaken hn hnested

theorem changes_attachCode {block : IR.Block} (hs : s.WellFormed)
    (hrun : attachCode b block s = .ok () s') : Changes n path s s' := by
  obtain ⟨hg, rfl⟩ := attachCode_ok hrun
  exact ⟨fun h => h.setCode hs hg, fun c _ _ => IR.Store.body_modifyBody_of
    (P := fun body => body.visible = s.visible c) id rfl,
    IR.Store.ownersFrom_of_size (by simp)⟩

theorem attachLambda_changes {object : Option BodyId} {value : IR.Expr} (hs : s.WellFormed)
    (hrun : attachLambda made object value s = .ok () s') : Changes n path s s' := by
  cases object with
  | none => exact changes_attachCode hs hrun
  | some o =>
    obtain ⟨_, s₁, h₁, h₂⟩ := bind_eq_ok hrun
    obtain ⟨hran, -⟩ := attachCode_ran (n := 0) hs rfl (Nat.zero_le _) h₁
    exact (changes_attachCode hs h₁).trans (changes_attachCode hran.wellFormed h₂)
      (attachCode_ok h₂).1

/-! ## On the way -/

/-- A lowering in a body that began in `s` has come to `t`. -/
structure Underway (n : Nat) (path : List BodyId) (b : BodyId) (s t : Store) : Prop where
  grown : Store.Grows 0 s t
  wellFormed : t.WellFormed
  bound : n ≤ t.bodies.size
  here : b.index < t.bodies.size
  nested : Nested n path t b
  changes : Changes n path s t

namespace Underway

variable {α : Type} {m : Nat} {x : Lowering α} {a : α}

theorem start (hs : s.WellFormed) (hb : b.index < s.bodies.size) (hn : n ≤ s.bodies.size)
    (hnested : Nested n path s b) : Underway n path b s s :=
  ⟨Store.Grows.refl 0 s, hs, hn, hb, hnested, Changes.refl n path s⟩

theorem after (h : Underway n path b s t) (hg : Store.Grows 0 t s') (hwf : s'.WellFormed)
    (hc : Changes n path t s') : Underway n path b s s' where
  grown := h.grown.trans hg (Nat.le_refl 0)
  wellFormed := hwf
  bound := Nat.le_trans h.bound hg.bodies
  here := Nat.lt_of_lt_of_le h.here hg.bodies
  nested := h.nested.grow hg h.wellFormed.ordered h.here
  changes := h.changes.trans hc hg

/-- A step for which it was shown what it changes. -/
theorem step (h : Underway n path b s t) (hran : Ran m x t a s') (hc : Changes n path t s') :
    Underway n path b s s' :=
  h.after (hran.grows.mono (Nat.zero_le m)) hran.wellFormed hc

/-- A step that obeys the pass, in the body itself. -/
theorem ran (h : Underway n path b s t) (hran : Ran m x t a s') (hx : Obeys Captures b x) :
    Underway n path b s s' :=
  h.step hran (hran.changes hx h.wellFormed h.here h.bound h.nested)

theorem attached {block : IR.Block} (h : Underway n path b s t)
    (hran : Ran m (attachCode c block) t () s') : Underway n path b s s' :=
  h.step hran (changes_attachCode h.wellFormed hran.run)

end Underway

theorem captures_expr (setting : Setting) : ExprPass setting AnyName Captures where
  spell := id
  refl _ := Changes.refl _ _ _
  trans {b s s₁ s₂} hs hb _ hg₁ hg₂ h₁ h₂ := by
    refine Changes.trans h₁ (Changes.weaken h₂ hg₁.bodies fun d hd _ => ?_) hg₂
    rw [hg₁.lookupPath hs.ordered hb] at hd
    exact hd
  resolve _ hs hb := IR.Store.changes_resolve hs hb
  lambda := by
    intro b s e s' l hdefaultsPass hkeywordsPass hvaluePass hs hb hrun
    obtain ⟨made, object, defaults, keywords, value, s₁, s₂, s₃, s₄, s₅, hbuild, hplaced, hcreate,
      hcode, hdefaults, hkeywords, hvalue, hattach, rfl⟩ := hrun
    have hstands := buildCallable_stands hs hb hbuild (Store.Grows.refl 0 s₁) hbuild.wellFormed
    obtain ⟨hbuilt, hparams⟩ := buildCallable_changes hs hb (Nat.le_refl _) hbuild.run
    have u₁ := (Underway.start hs hb (Nat.le_refl _) fun _ hd _ => hd).step hbuild hbuilt
    have hempty := empty_of_function u₁.nested u₁.wellFormed hstands hplaced.outer.1
      hplaced.function.1 hparams
    obtain ⟨hcreated, hobject⟩ : Changes s.bodies.size (s.lookupPath b) s₁ s₂ ∧
        Empty s.bodies.size (s.lookupPath b) s₂ made object := by
      rcases lambdaObject_ok hcreate.run with ⟨-, rfl, rfl⟩ | ⟨o, -, rfl, hcreated⟩
      · exact ⟨Changes.refl _ _ _, hempty⟩
      · exact ⟨(createObject_changes u₁.wellFormed hplaced.function.2 hstands.function_kind
          u₁.bound hcreated).1, hempty.createObject u₁.wellFormed hcreate.wellFormed
          hplaced.function.2 hstands.function_kind u₁.bound hcreated
          (hcreate.grows.mono (Nat.zero_le _))⟩
    have u₂ := u₁.step hcreate hcreated
    have u₃ := u₂.ran hdefaults (hdefaultsPass b _)
    have u₄ := u₃.ran hkeywords (hkeywordsPass b _ _)
    have hnested := hobject.nested.grow ((hdefaults.grows.mono (Nat.zero_le _)).trans
      (hkeywords.grows.mono (Nat.zero_le _)) (Nat.le_refl 0)) u₂.wellFormed.ordered hcode.2
    have u₅ := u₄.step hvalue (hvalue.changes (hvaluePass _ _) u₄.wellFormed
      (hkeywords.created (hdefaults.created hcode.2)) u₄.bound hnested)
    exact (u₅.step hattach (attachLambda_changes u₅.wellFormed hattach.run)).changes

/-- Lowering in a body does not show newer bodies anything. -/
theorem Ran.kept {α : Type} {m : Nat} {x : Lowering α} {a : α} (h : Ran m x s a s')
    (hx : Obeys Captures b x) (hs : s.WellFormed) (hb : b.index < s.bodies.size)
    (hc : c.index < s.bodies.size) (hlt : b.index < c.index) : s'.visible c = s.visible c := by
  refine (hx s a s' hs hb h.run).2.2.frame c hc fun hmem => ?_
  rcases List.mem_cons.1 ((IR.Store.lookupPath_sublist s b).subset hmem) with rfl | hmem
  · exact Nat.lt_irrefl _ hlt
  · exact Nat.lt_asymm hlt (hs.ordered.lt_of_mem_ancestors hmem)

theorem Empty.grow {object : Option BodyId} (h : Empty n path s made object) (hs : s.WellFormed)
    (hg : Store.Grows 0 s s') (hc : (codeBody made object).index < s.bodies.size)
    (hvisible : s'.visible (codeBody made object) = s.visible (codeBody made object)) :
    Empty n path s' made object where
  nested := h.nested.grow hg hs.ordered hc
  params := h.params.grow hs hg hvisible
  paramsOf := h.paramsOf.imp_right fun hobject => by rwa [hg.kind hc, hg.provider hc]

/-- What the scope around a callable evaluates does not fill it. -/
theorem Empty.ran {α : Type} {m : Nat} {x : Lowering α} {a : α} {object : Option BodyId}
    (h : Empty n path s made object) (hran : Ran m x s a s') (hx : Obeys Captures b x)
    (hs : s.WellFormed) (hlt : b.index < (codeBody made object).index)
    (hc : (codeBody made object).index < s.bodies.size) : Empty n path s' made object :=
  h.grow hs (hran.grows.mono (Nat.zero_le m)) hc
    (hran.kept hx hs (Nat.lt_trans hlt hc) hc hlt)

/-- Entering an empty callable: its scope is opened, and its statements are lowered. -/
theorem Underway.entered {object : Option BodyId} {statements : List Surface.Stmt}
    {lowered : List IR.Stmt} {k m : Nat} (h : Underway n path b s t)
    (hempty : Empty n path t made object) (hn : n ≤ (codeBody made object).index)
    (hc : (codeBody made object).index < t.bodies.size)
    (hopen : Ran k (openScope (codeBody made object) statements) t () s₁)
    (hbody : Ran m (lowerStmts setting (codeBody made object) statements) s₁ lowered s')
    (hpass : Obeys Captures (codeBody made object)
      (lowerStmts setting (codeBody made object) statements)) : Underway n path b s s' := by
  have hopened := h.step hopen (IR.Store.openScope_changes hopen.run h.wellFormed hc hempty.params
    hempty.paramsOf hn hempty.nested)
  exact hopened.step hbody (hbody.changes hpass hopened.wellFormed (hopen.created hc)
    hopened.bound (hempty.nested.grow (hopen.grows.mono (Nat.zero_le _)) h.wellFormed.ordered hc))

/-- The function of an asynchronous callable owns nothing but its parameters. -/
theorem params_of_ownersFrom {p : BodyId} (h : OnlyParams s p p) (hs : s.WellFormed)
    (hp : p.index < n) (hs' : s'.WellFormed) (hg : Store.Grows 0 s s')
    (hnew : OwnersFrom n s s') :
    ∀ v ∈ s'.visible p, (s'.var v).owner = p → (s'.var v).kind = .parameter := by
  intro v hv howner
  obtain ⟨hlt, hscratch⟩ := hs'.seen p v hv
  by_cases hold : v.index < s.vars.size
  · rw [hg.var v hold] at howner hscratch ⊢
    have hlisted := hs.listed v hold
    rw [if_neg hscratch, howner] at hlisted
    exact (h v hlisted).1
  · have := hnew v (Nat.le_of_not_lt hold) hlt
    rw [howner] at this
    omega

/-- The body with the statements of a plain definition starts empty. -/
theorem plainCodeBody_changes {kind : CallableKind} {d : Surface.Def} {code : BodyId}
    (h : Empty n path s made none) (hs : s.WellFormed) (hn : n ≤ s.bodies.size)
    (hplaced : Placed m s made) (hkind : (s.body made.function).kind = .function)
    (hrun : plainCodeBody made kind d flags s = .ok code s') :
    ∃ object, code = codeBody made object ∧ Changes n path s s' ∧ Empty n path s' made object := by
  rcases plainCodeBody_ok hrun with ⟨-, rfl, rfl⟩ | ⟨s₁, -, hcreated, hmaker⟩
  · exact ⟨none, rfl, Changes.refl _ _ _, h⟩
  · have hran := createObject_ran hs hplaced.bound hplaced.outer hplaced.function hcreated
    have hg := hran.grows.mono (Nat.zero_le _)
    obtain ⟨hgm, rfl⟩ := attachCode_ok hmaker
    have hempty := h.createObject hs hran.wellFormed hplaced.function.2 hkind hn hcreated hg
    obtain ⟨hobject, -, hplanned⟩ := createObject_planned hcreated (Store.Grows.refl 0 s₁)
    refine ⟨some code, rfl, (createObject_changes hs hplaced.function.2 hkind hn hcreated).1.trans
      (changes_attachCode hran.wellFormed hmaker) hgm, hempty.grow hran.wellFormed hgm
      hplanned.created ?_⟩
    exact IR.Store.body_modifyBody_of
      (P := fun body => body.visible = s₁.visible (codeBody made (some code))) id rfl

theorem captures_plain {d : Surface.Def} {statement : IR.Stmt}
    (hpass : ∀ c, Obeys Captures c (lowerStmts setting c (Surface.undocumented d.body)))
    (hs : s.WellFormed) (hb : b.index < s.bodies.size)
    (hrun : PlainRun setting b d s statement s') : Captures b s s' := by
  obtain ⟨made, code, decorators, defaults, keywords, annotations, lowered, s₁, s₂, s₃, s₄, s₅,
    s₆, s₇, s₈, s₉, hbuild, hplaced, hcreate, hcode, hdecorators, hdefaults, hkeywords, hopen,
    hbody, hattach, hannotations, hbind⟩ := hrun
  have pass := captures_expr setting
  have hstands := buildCallable_stands hs hb hbuild (Store.Grows.refl 0 s₁) hbuild.wellFormed
  obtain ⟨hbuilt, hparams⟩ := buildCallable_changes hs hb (Nat.le_refl _) hbuild.run
  have u₁ := (Underway.start hs hb (Nat.le_refl _) fun _ hd _ => hd).step hbuild hbuilt
  obtain ⟨object, rfl, hcreated, hempty⟩ := plainCodeBody_changes
    (empty_of_function u₁.nested u₁.wellFormed hstands hplaced.outer.1 hplaced.function.1 hparams)
    u₁.wellFormed u₁.bound hplaced hstands.function_kind hcreate.run
  have u₂ := u₁.step hcreate hcreated
  have u₃ := u₂.ran hdecorators (pass.lowerDecorators (anyName _))
  have u₄ := u₃.ran hdefaults (pass.lowerDefaults (anyName _))
  have u₅ := u₄.ran hkeywords (pass.lowerKeywordMapping _ (anyName _))
  have hlt : b.index < (codeBody made object).index := Nat.lt_of_lt_of_le hb hcode.1
  have hcode₃ := hdecorators.created hcode.2
  have hcode₄ := hdefaults.created hcode₃
  have hempty₃ := hempty.ran hdecorators (pass.lowerDecorators (anyName _)) u₂.wellFormed hlt
    hcode.2
  have hempty₄ := hempty₃.ran hdefaults (pass.lowerDefaults (anyName _)) u₃.wellFormed hlt hcode₃
  have hempty₅ := hempty₄.ran hkeywords (pass.lowerKeywordMapping _ (anyName _)) u₄.wellFormed hlt
    hcode₄
  have u₇ := u₅.entered hempty₅ hcode.1 (hkeywords.created hcode₄) hopen hbody (hpass _)
  have u₈ := u₇.attached hattach
  have u₉ := u₈.ran hannotations (pass.lowerAnnotations (anyName _) (anyName _))
  exact (u₉.ran hbind (pass.bindDefinition trivial _)).changes

/-- The object of an asynchronous callable takes over what its function declared. -/
theorem changes_copyNonlocals {o f : BodyId} (hs : s.WellFormed)
    (hobject : (s.body o).kind.isObject = true) (hprovider : (s.body o).provider = some f)
    (hfunction : (s.body f).kind = .function)
    (hown : ∀ v ∈ s.visible f, (s.var v).owner = f → (s.var v).kind = .parameter) :
    Changes n path s (s.copyNonlocals o f) :=
  ⟨fun h => h.copyNonlocals hobject hprovider hfunction hown hs, fun c _ _ =>
    IR.Store.body_modifyBody_of (P := fun body => body.visible = s.visible c) id rfl,
    IR.Store.ownersFrom_of_size (by simp [Store.copyNonlocals])⟩

theorem captures_async {d : Surface.Def} {statement : IR.Stmt}
    (hpass : ∀ c, Obeys Captures c (lowerStmts setting c (Surface.undocumented d.body)))
    (hs : s.WellFormed) (hb : b.index < s.bodies.size)
    (hrun : AsyncRun setting b d s statement s') : Captures b s s' := by
  obtain ⟨kind, made, object, decorators, defaults, keywords, annotations, lowered, s₁, s₂, s₃,
    s₄, s₅, s₆, s₇, s₈, s₉, s₁₀, s₁₁, hkind, hbuild, hplaced, hcreate, hobject, hdecorators,
    hdefaults, hopen, hbody, hattach, hannotations, hkeywords, hmaker, rfl, hbind⟩ := hrun
  have pass := captures_expr setting
  have hstands := buildCallable_stands hs hb hbuild (Store.Grows.refl 0 s₁) hbuild.wellFormed
  obtain ⟨hbuilt, hparams⟩ := buildCallable_changes hs hb (Nat.le_refl _) hbuild.run
  have u₁ := (Underway.start hs hb (Nat.le_refl _) fun _ hd _ => hd).step hbuild hbuilt
  obtain ⟨hself, -, hplanned⟩ := createObject_planned hcreate.run (Store.Grows.refl 0 s₂)
  have hbound : s₁.bodies.size ≤ object.index := by rw [hself]
  have hg₂ := hcreate.grows.mono (Nat.zero_le _)
  have hcreated : ∀ {n path}, n ≤ s₁.bodies.size → Changes n path s₁ s₂ := fun hn =>
    (createObject_changes u₁.wellFormed hplaced.function.2 hstands.function_kind hn hcreate.run).1
  have hcreated_empty : ∀ {n path}, n ≤ s₁.bodies.size → Empty n path s₁ made none →
      Empty n path s₂ made (some object) := fun hn h =>
    h.createObject u₁.wellFormed hcreate.wellFormed hplaced.function.2 hstands.function_kind hn
      hcreate.run hg₂
  -- what the scope around it evaluates, and the code of both bodies, wherever the way began
  have hrest : ∀ {n path r}, Underway n path b r s₂ → Empty n path s₂ made (some object) →
      n ≤ object.index → Underway n path b r s₁₀ := by
    intro n path r u₂ hempty hn
    have hlt : b.index < object.index := Nat.lt_of_lt_of_le hb hobject.1
    have hobject₃ := hdecorators.created hobject.2
    have u₃ := u₂.ran hdecorators (pass.lowerDecorators (anyName _))
    have u₄ := u₃.ran hdefaults (pass.lowerDefaults (anyName _))
    have hempty₃ := hempty.ran hdecorators (pass.lowerDecorators (anyName _)) u₂.wellFormed hlt
      hobject.2
    have hempty₄ := hempty₃.ran hdefaults (pass.lowerDefaults (anyName _)) u₃.wellFormed hlt
      hobject₃
    have u₆ := u₄.entered hempty₄ hn (hdefaults.created hobject₃) hopen hbody (hpass _)
    have u₇ := u₆.attached hattach
    have u₈ := u₇.ran hannotations (pass.lowerAnnotations (anyName _) (anyName _))
    exact (u₈.ran hkeywords (pass.lowerKeywordMapping _ (anyName _))).attached hmaker
  have u₁₀ := hrest (u₁.step hcreate (hcreated u₁.bound)) (hcreated_empty u₁.bound
    (empty_of_function u₁.nested u₁.wellFormed hstands hplaced.outer.1 hplaced.function.1 hparams))
    hobject.1
  -- since the function was built, no variable of its own has been added
  have hsince : Underway s₁.bodies.size (s₂.lookupPath b ++ s₁.lookupPath made.function) b s₂ s₁₀ :=
    hrest (.start hcreate.wellFormed (hcreate.created u₁.here) hcreate.grows.bodies
      fun _ hd _ => List.mem_append_left _ hd)
      (hcreated_empty (Nat.le_refl _)
        ⟨fun _ hd _ => List.mem_append_right _ hd, hparams, Or.inl rfl⟩) hbound
  have hobjectOnly : Changes s₁.bodies.size [] s₁ s₂ := hcreated (Nat.le_refl _)
  have hparams₂ : OnlyParams s₂ made.function made.function := hparams.grow u₁.wellFormed hg₂
    (hobjectOnly.frame _ hplaced.function.2 List.not_mem_nil)
  have hown := params_of_ownersFrom hparams₂ hcreate.wellFormed hplaced.function.2
    hmaker.wellFormed hsince.grown hsince.changes.owners
  have hcode : (s₁₀.body object).kind.isObject = true := by
    rw [hsince.grown.kind hobject.2, hplanned.kind]
    rfl
  have hfunction : (s₁₀.body made.function).kind = .function :=
    ((hg₂.trans hsince.grown (Nat.le_refl 0)).kind hplaced.function.2).trans hstands.function_kind
  have u₁₁ := u₁₀.after (Store.Grows.copyNonlocals (Nat.zero_le _))
    (IR.Store.WellFormed.copyNonlocals hmaker.wellFormed) (changes_copyNonlocals hmaker.wellFormed
      hcode ((hsince.grown.provider hobject.2).trans hplanned.provider) hfunction hown)
  exact (u₁₁.ran hbind (pass.bindDefinition trivial _)).changes

theorem captures_class {d : Surface.ClassDef} {statement : IR.Stmt}
    (hpass : ∀ c, Obeys Captures c (lowerStmts setting c (Surface.undocumented d.body)))
    (hs : s.WellFormed) (hb : b.index < s.bodies.size)
    (hrun : ClassRun setting b d s statement s') : Captures b s s' := by
  obtain ⟨decorators, bases, lowered, s₁, s₂, s₄, s₅, s₆, hdecorators, hbases, hcreate, hopen,
    hbody, hattach, hbind⟩ := hrun
  have pass := captures_expr setting
  let c : BodyId := ⟨s₂.bodies.size⟩
  let created := (s₂.createBody (classPlan b d)).2
  have gcreate : Store.Grows 0 s₂ created :=
    (Store.Grows.createBody s₂ (classPlan b d)).mono (Nat.zero_le _)
  have hlt : c.index < created.bodies.size := by simp [c, created]
  have hprovider : (created.body c).provider = some b :=
    (planned_createBody s₂ (classPlan b d)).provider
  have u₁ := (Underway.start hs hb (Nat.le_refl _) fun _ hd _ => hd).ran hdecorators
    (pass.lowerDecorators (anyName _))
  have u₂ := u₁.ran hbases (pass.lowerExprs _ _ _ (anyName _))
  have u₃ := u₂.after gcreate hcreate (IR.Store.changes_createBody u₂.wellFormed rfl u₂.bound)
  have hnested : Nested s.bodies.size (s.lookupPath b) created c :=
    u₃.nested.child hcreate.ordered hprovider u₂.bound
  have u₄ := u₃.step hopen (IR.Store.openScope_changes hopen.run hcreate hlt
    (fun v hv => IR.Store.param_of_createBody hv) (Or.inl rfl) u₂.bound hnested)
  have u₅ := u₄.step hbody (hbody.changes (hpass _) u₄.wellFormed (hopen.created hlt) u₄.bound
    (hnested.grow (hopen.grows.mono (Nat.zero_le _)) hcreate.ordered hlt))
  exact ((u₅.attached hattach).ran hbind (pass.bindDefinition trivial _)).changes

/-- **Lowering keeps the store threaded**, and changes what other bodies see on the search path
only. -/
theorem captures (setting : Setting) : StmtPass setting AnyName Captures where
  toExprPass := captures_expr setting
  plain _ _ hpass hs hb hrun := captures_plain hpass hs hb hrun
  async _ _ hpass hs hb hrun := captures_async hpass hs hb hrun
  defineClass _ hpass hs hb hrun := captures_class hpass hs hb hrun

end Lowering

end DefinitionLowering
