import DefinitionLowering.Proofs.Callees
import DefinitionLowering.Proofs.Declaring
import DefinitionLowering.Proofs.Operations

/-!
# Lowering performs operations

Lowering something in a body performs single operations of the store and nothing else, also when
it fails (`Operates`), and it never fails by a fault, unless the classifier answers with a kind
that does not fit (`Setting.Excuses`).  There is one `operates_` theorem for each function of the
lowering.  A body is filled at most once because it is `Pending`, new and without code, until
then; what is lowered in between leaves it alone.
-/

namespace DefinitionLowering

open IR (BodyId VariableId Store)
open IR.Store (Active Becomes Coherent Operation)
open Surface (Pattern Params)

/-- A failure is no fault, unless the classifier is not the one that goes by the evidence. -/
def Setting.Excuses (setting : Setting) (failure : Failure) : Prop :=
  setting.classify = Surface.Classifier.suspension → ∃ rejection, failure = .rejected rejection

theorem Setting.excuses_rejected (setting : Setting) (rejection : Rejection) :
    setting.Excuses (.rejected rejection) :=
  fun _ => ⟨rejection, rfl⟩

namespace Lowering

variable {α β : Type} {setting : Setting} {m n : Nat} {p c provider : BodyId} {s s' : Store}
  {location : Location} {name : String}

/-- However a step ends, the store went through operations in the body `p`, before which there
were `n` bodies; `done` holds when it gives a value. -/
def Performs (setting : Setting) (n : Nat) (p : BodyId) (x : Lowering α) (s : Store)
    (done : α → Store → Prop) : Prop :=
  Ends x s (fun a s' => Becomes p n s s' ∧ done a s')
    fun failure s' => Becomes p n s s' ∧ setting.Excuses failure

/-- A coherent store with the body `p`, among at least `n` bodies. -/
structure Amid (n : Nat) (p : BodyId) (s : Store) : Prop where
  coherent : s.Coherent
  bound : n ≤ s.bodies.size
  created : p.index < s.bodies.size

/-- A step performs operations in the body `p`, as long as the first `n ≤ m` bodies are not to
be filled by it; `Q` holds of its value. -/
def Operates (setting : Setting) (m : Nat) (p : BodyId) (x : Lowering α) (Q : α → Prop) : Prop :=
  ∀ n s, n ≤ m → Amid n p s → Performs setting n p x s fun a _ => Q a

section Rules

variable {x : Lowering α} {f : α → Lowering β} {P : α → Prop} {Q : β → Prop}
  {mid : α → Store → Prop} {done : β → Store → Prop}

theorem Amid.becomes (hs : Amid n p s) (h : Becomes p n s s') :
    Amid n p s' ∧ Store.Grows n s s' := by
  obtain ⟨hs', hg⟩ := IR.Store.Becomes.coherent h hs.coherent hs.bound
  exact ⟨⟨hs', Nat.le_trans hs.bound hg.bodies, Nat.lt_of_lt_of_le hs.created hg.bodies⟩, hg⟩

theorem Performs.bind (h : Performs setting n p x s mid) (hs : Amid n p s)
    (hf : ∀ a s', Amid n p s' → Store.Grows n s s' → mid a s' →
      Performs setting n p (f a) s' done) : Performs setting n p (x >>= f) s done := by
  refine ends_bind.2 (h.weaken (fun a s' => ?_) fun _ _ h => h)
  rintro ⟨hbecomes, hmid⟩
  obtain ⟨hs', hg⟩ := hs.becomes hbecomes
  exact (hf a s' hs' hg hmid).weaken (fun _ _ h => ⟨hbecomes.trans h.1, h.2⟩)
    fun _ _ h => ⟨hbecomes.trans h.1, h.2⟩

/-- What is lowered in an active body leaves all bodies alone that there are before it. -/
theorem Performs.within {c : BodyId} (h : Performs setting m c x s mid) (hc : Active p n c)
    (hn : n ≤ m) : Performs setting n p x s mid :=
  h.weaken (fun _ _ h => ⟨IR.Store.Becomes.within h.1 hc hn, h.2⟩)
    fun _ _ h => ⟨IR.Store.Becomes.within h.1 hc hn, h.2⟩

/-- A step in an active body, and what comes after it. -/
theorem Operates.andThen {c : BodyId} (h : ∀ m, Operates setting m c x P) (hs : Amid n p s)
    (hc : Active p n c) (hlt : c.index < s.bodies.size)
    (hf : ∀ a s', Amid n p s' → Store.Grows s.bodies.size s s' → P a →
      Performs setting n p (f a) s' done) : Performs setting n p (x >>= f) s done := by
  have hself : Amid s.bodies.size c s := ⟨hs.coherent, Nat.le_refl _, hlt⟩
  have hx : Performs setting n p x s fun a s' => Store.Grows s.bodies.size s s' ∧ P a :=
    Performs.within ((h _ _ s (Nat.le_refl _) hself).weaken
      (fun a s' h => ⟨h.1, (hself.becomes h.1).2, h.2⟩) fun _ _ h => h) hc hs.bound
  exact hx.bind hs fun a s' hs' _ hmid => hf a s' hs' hmid.1 hmid.2

/-- A step in the body itself, and what comes after it. -/
theorem Operates.next (h : ∀ m, Operates setting m p x P) (hs : Amid n p s)
    (hf : ∀ a s', Amid n p s' → Store.Grows s.bodies.size s s' → P a →
      Performs setting n p (f a) s' done) : Performs setting n p (x >>= f) s done :=
  Operates.andThen h hs (Or.inl rfl) hs.created hf

theorem Performs.imp {mid' : α → Store → Prop} (h : Performs setting n p x s mid)
    (hd : ∀ a s', mid a s' → mid' a s') : Performs setting n p x s mid' :=
  h.weaken (fun a s' h => ⟨h.1, hd a s' h.2⟩) fun _ _ h => h

theorem Performs.recall (h : Performs setting n p x s mid) :
    Performs setting n p x s fun a s' => x s = .ok a s' ∧ mid a s' :=
  (Ends.recall h).weaken (fun _ _ h => ⟨h.2.1, h.1, h.2.2⟩) fun _ _ h => h.2

theorem performs_pure {a : α} (h : mid a s) : Performs setting n p (pure a) s mid :=
  ⟨.refl, h⟩

theorem performs_throw {failure : Failure} (h : setting.Excuses failure) :
    Performs setting n p (throw failure : Lowering α) s mid :=
  ⟨.refl, h⟩

theorem performs_modify {f : Store → Store} {mid : Unit → Store → Prop}
    (h : Operation p n s (f s)) (hd : mid () (f s)) : Performs setting n p (modify f) s mid :=
  ⟨.single h, hd⟩

theorem Operates.bind (h : Operates setting m p x P)
    (hf : ∀ a, P a → Operates setting m p (f a) Q) :
    Operates setting m p (x >>= f) Q := fun n s hm hs =>
  (h n s hm hs).bind hs fun a s' hs' _ hP => hf a hP n s' hm hs'

theorem operates_pure {a : α} (h : P a) : Operates setting m p (pure a) P :=
  fun _ _ _ _ => performs_pure h

theorem operates_reject {cause : Cause} :
    Operates setting m p (reject cause location : Lowering α) P :=
  fun _ _ _ _ => performs_throw (setting.excuses_rejected _)

/-- Nothing runs behind a rejection. -/
theorem operates_rejected {cause : Cause} :
    Operates setting m p (reject cause location >>= f) Q :=
  operates_reject.bind (P := fun _ => False) fun _ h => h.elim

theorem operates_query (f : Store → α) : Operates setting m p (query f) fun _ => True :=
  fun _ _ _ _ => ⟨.refl, trivial⟩

theorem operates_modify {f : Store → Store}
    (h : ∀ n s, n ≤ m → p.index < s.bodies.size → Operation p n s (f s)) :
    Operates setting m p (modify f) fun _ => True :=
  fun n s hm hs => performs_modify (h n s hm hs.created) trivial

theorem operates_forM {γ : Type} {step : γ → Lowering Unit} : ∀ {items : List γ},
    (∀ item ∈ items, Operates setting m p (step item) fun _ => True) →
      Operates setting m p (items.forM step) fun _ => True
  | [], _ => operates_pure trivial
  | first :: rest, h => by
    show Operates setting m p (step first >>= fun _ => rest.forM step) _
    exact (h first List.mem_cons_self).bind fun _ _ =>
      operates_forM fun item hitem => h item (List.mem_cons_of_mem _ hitem)

theorem operates_mapM {γ : Type} {step : γ → Lowering α} {check : α → Bool} : ∀ {items : List γ},
    (∀ item ∈ items, Operates setting m p (step item) fun a => check a = true) →
      Operates setting m p (items.mapM step) fun results => results.all check = true
  | [], _ => operates_pure rfl
  | first :: rest, h => by
    rw [List.mapM_cons]
    refine (h first List.mem_cons_self).bind fun a ha =>
      (operates_mapM fun item hitem => h item (List.mem_cons_of_mem _ hitem)).bind fun more hmore =>
        operates_pure ?_
    rw [List.all_cons, ha, hmore]
    rfl

end Rules

/-! ## Names -/

theorem operates_kindOf (c : BodyId) : Operates setting m p (kindOf c) fun _ => True :=
  operates_query _

theorem operates_spell (c : BodyId) (name : String) :
    Operates setting m p (spell c name) fun _ => True :=
  operates_query _

theorem operates_resolve (name : String) : Operates setting m p (resolve p name) fun _ => True :=
  fun _ _ _ hs => ⟨.single (.resolve p name (Or.inl rfl) hs.created), trivial⟩

theorem operates_reference (name : String) :
    Operates setting m p (reference p name) fun e => e.allPaired = true := by
  unfold reference
  refine (operates_spell p name).bind fun name _ => (operates_kindOf p).bind fun kind _ => ?_
  split
  · exact operates_pure rfl
  · refine (operates_resolve name).bind fun found _ => ?_
    cases found <;> exact operates_pure rfl

theorem allPaired_single {statement : IR.Stmt} (hwithin : statement.within = [statement])
    (h : statement.operands.all IR.Expr.allPaired = true) : statement.allPaired = true := by
  rw [IR.Stmt.allPaired, hwithin]
  simpa using h

theorem operates_bindName (name : String) {source : IR.Expr} (h : source.allPaired = true) :
    Operates setting m p (bindName p name source) fun statement => statement.allPaired = true := by
  unfold bindName
  refine (operates_kindOf p).bind fun kind _ => ?_
  split
  · exact operates_pure (allPaired_single rfl (by simpa [IR.Stmt.operands] using h))
  · refine (operates_resolve name).bind fun found _ => ?_
    cases found <;>
      exact operates_pure (allPaired_single rfl (by simpa [IR.Stmt.operands] using h))

theorem operates_bindDefinition (name : String) {value : IR.Expr} (h : value.allPaired = true) :
    Operates setting m p (bindDefinition p name value)
      fun statement => statement.allPaired = true := by
  unfold bindDefinition
  exact (operates_spell p name).bind fun name _ => operates_bindName name h

/-! ## Opening a scope -/

theorem operates_refuseParameter (name : String) (declaration : OuterDeclaration)
    (location : Location) :
    Operates setting m p (refuseParameter p name declaration location) fun _ => True := by
  unfold refuseParameter
  refine (operates_query _).bind fun refused _ => ?_
  split
  · exact operates_reject
  · exact operates_pure trivial

theorem operates_declareGlobal (name : String) (location : Location) :
    Operates setting p.index p (declareGlobal p name location) fun _ => True := by
  unfold declareGlobal
  exact (operates_spell p name).bind fun name _ =>
    (operates_refuseParameter name .global location).bind fun _ _ =>
      operates_modify fun _ _ hm _ => .addGlobal p name hm

theorem operates_resolveOuter (name : String) :
    Operates setting m p (resolveOuter p name) fun _ => True := by
  unfold resolveOuter
  refine (operates_query _).bind fun found _ => ?_
  cases found with
  | some owner => exact operates_pure trivial
  | none => exact (operates_resolve name).bind fun _ _ => operates_pure trivial

theorem operates_declareNonlocal (name : String) (location : Location) :
    Operates setting p.index p (declareNonlocal p name location) fun _ => True := by
  unfold declareNonlocal
  refine (operates_spell p name).bind fun name _ =>
    (operates_refuseParameter name .nonlocal location).bind fun _ _ =>
      (operates_resolveOuter name).bind fun found _ => ?_
  split
  · exact operates_modify fun _ _ hm _ => .addNonlocal p _ hm
  · exact operates_reject

theorem operates_declareBinding (name : String) :
    Operates setting p.index p (declareBinding p name) fun _ => True := by
  unfold declareBinding
  refine (operates_spell p name).bind fun name _ => (operates_query _).bind fun isGlobal _ => ?_
  split
  · exact operates_pure trivial
  · exact operates_modify fun _ _ hm hp => .declareLocal p name hm hp

theorem operates_openScope (statements : List Surface.Stmt) :
    Operates setting p.index p (openScope p statements) fun _ => True := by
  have hglobals : Operates setting p.index p ((Surface.globalNames statements).forM fun declared =>
      declareGlobal p declared.1 declared.2) fun _ => True :=
    operates_forM fun declared _ => operates_declareGlobal declared.1 declared.2
  have hnonlocals : Operates setting p.index p
      ((Surface.nonlocalNames statements).forM fun declared =>
        declareNonlocal p declared.1 declared.2) fun _ => True :=
    operates_forM fun declared _ => operates_declareNonlocal declared.1 declared.2
  have hbindings : Operates setting p.index p
      ((Surface.boundNames statements).forM fun name => declareBinding p name) fun _ => True :=
    operates_forM fun name _ => operates_declareBinding name
  unfold openScope
  refine (operates_kindOf p).bind fun kind _ => ?_
  dsimp only
  split
  · split
    · exact operates_rejected
    · exact hglobals.bind fun _ _ => hnonlocals.bind fun _ _ => operates_pure trivial
  · exact hglobals.bind fun _ _ => hnonlocals.bind fun _ _ => hbindings

/-! ## Bodies that are still to be filled -/

/-- New bodies without code. -/
def Pending (n : Nat) (s : Store) (bodies : List BodyId) : Prop :=
  bodies.Nodup ∧ ∀ c ∈ bodies, n ≤ c.index ∧ c.index < s.bodies.size ∧ (s.body c).code = none

section Pending

variable {bodies : List BodyId} {block : IR.Block}

/-- What is lowered later leaves them alone. -/
theorem Pending.grow (h : Pending n s bodies) (hg : Store.Grows s.bodies.size s s') :
    Pending n s' bodies := by
  refine ⟨h.1, fun c hc => ?_⟩
  obtain ⟨hn, hlt, hcode⟩ := h.2 c hc
  exact ⟨hn, Nat.lt_of_lt_of_le hlt hg.bodies, (hg.code_eq hlt).trans hcode⟩

theorem Pending.openScope {statements : List Surface.Stmt} (h : Pending n s bodies)
    (hrun : openScope c statements s = .ok () s') : Pending n s' bodies := by
  refine ⟨h.1, fun d hd => ?_⟩
  obtain ⟨hn, hlt, hcode⟩ := h.2 d hd
  exact ⟨hn, openScope_size hrun ▸ hlt, (openScope_code hrun d).trans hcode⟩

/-- The first of them is filled. -/
theorem Pending.attachCode (h : Pending n s (c :: bodies)) (hpaired : block.allPaired = true) :
    Performs setting n p (attachCode c block) s fun _ s' => Pending n s' bodies := by
  obtain ⟨hn, hlt, hcode⟩ := h.2 c List.mem_cons_self
  refine ends_tryUpdate.2 ⟨fun s' hattach => ?_, fun fault hfault => ?_⟩
  · refine ⟨.single (.attachCode c block s' hn hpaired hattach), (List.nodup_cons.1 h.1).2,
      fun d hd => ?_⟩
    obtain ⟨-, rfl⟩ := Store.attachCode_eq_ok hattach
    obtain ⟨hnd, hltd, hcoded⟩ := h.2 d (List.mem_cons_of_mem _ hd)
    have hne : c ≠ d := fun he => (List.nodup_cons.1 h.1).1 (he ▸ hd)
    exact ⟨hnd, by simpa using hltd, by rw [Store.body_modifyBody_ne hne]; exact hcoded⟩
  · rw [Store.attachCode_ok hcode] at hfault
    cases hfault

end Pending

/-! ## Callables -/

/-- Accesses of variables are no mappings. -/
theorem allPaired_of_accesses {known : VariableId → Prop} {e : IR.Expr} (h : e.Accesses known) :
    e.allPaired = true := by
  induction h with
  | var h => rfl
  | unpack count expected h ih =>
    simpa [IR.Expr.allPaired, IR.Expr.evaluations, IR.Expr.paired] using ih
  | iterator h ih => simpa [IR.Expr.allPaired, IR.Expr.evaluations, IR.Expr.paired] using ih

theorem allPaired_releasing {vars : List VariableId} {tried : IR.Block}
    (h : tried.allPaired = true) : (tried.releasing vars).allPaired = true := by
  have hreleases : (vars.map IR.Stmt.release).all (fun part =>
      part.operands.all IR.Expr.allPaired) = true := by
    simp [IR.Stmt.operands]
  rw [IR.Block.allPaired, IR.Block.within_releasing, List.all_cons, List.all_append, hreleases,
    show (tried.within.all fun part => part.operands.all IR.Expr.allPaired) = true from h]
  rfl

/-- There are no mappings in the code of a wrapper. -/
theorem allPaired_forwarding {u : Unpacking} {known : VariableId → Prop} (h : u.Within known)
    (delegate : BodyId) (code : CodeObject) : (forwarding u delegate code).allPaired = true := by
  have hcall : (IR.Expr.callFunction (.makeFunction delegate code [] none none)
      u.accesses).allPaired = true := by
    have haccesses : u.accesses.all IR.Expr.allPaired = true := by
      rw [List.all_eq_true]
      intro e he
      obtain ⟨v, rfl, hv⟩ := h.accesses e he
      rfl
    simp [IR.Expr.allPaired, IR.Expr.evaluations, IR.exprsEvaluations, IR.optionEvaluations,
      IR.Expr.paired, IR.all_paired_exprsEvaluations, haccesses]
  rw [IR.Block.allPaired_eq]
  show (u.statements ++ [_]).all IR.Stmt.allPaired = true
  rw [List.all_append, List.all_eq_true.2 fun statement hst => ?_]
  · simpa [IR.Stmt.allPaired, IR.Stmt.within, IR.Stmt.operands] using hcall
  · rcases h.statements statement hst with ⟨v, e, rfl, -, haccess⟩ | ⟨v, count, rfl, -⟩
    · exact allPaired_single rfl (by simpa [IR.Stmt.operands] using allPaired_of_accesses haccess)
    · rfl

/-- Creating a delegate for a new wrapper fills the wrapper. -/
theorem createDelegate_performs {wrapper : BodyId} {signature : Signature}
    {placeholders : List Placeholder} {spell : String → String} {formals : List Pattern}
    (code : CodeObject) (flags : Flags) (doc : Option String) (location : Location)
    (h : IsFresh s wrapper signature placeholders spell formals) (hn : n ≤ wrapper.index) :
    Performs setting n p (createDelegate wrapper signature placeholders code flags doc location) s
      fun delegate s' => Pending n s' [delegate] ∧ wrapper.index < s'.bodies.size := by
  refine (createDelegate_spec h).recall.weaken ?_ ?_
  · rintro delegate s' ⟨hrun, hleaves, rfl, u, hunpack, hs'⟩
    let plan := delegatePlan wrapper signature.name (leafNames spell formals) flags doc location
    let filled := (s.createBody plan).2.withTemporaries wrapper (scratchNames spell formals)
    obtain ⟨hscratch, hnames, -⟩ := h.createBody plan
    obtain ⟨hwithin, -⟩ := (unpackSlots_within signature.slots 0 hscratch).of_ok hunpack
    obtain ⟨-, hsize, hothers, -⟩ := createDelegate_bodies h hrun
    have hne : (⟨s.bodies.size⟩ : BodyId) ≠ wrapper := fun he =>
      Nat.lt_irrefl _ (he ▸ h.created)
    have hcodeless : (filled.body wrapper).code = none := by
      rw [Store.body_withTemporaries_self hscratch.created,
        Store.body_createBody_of_lt s plan h.created]
      exact h.codeless
    have hcreate : Operation p n s (s.createBody plan).2 :=
      .createBody plan wrapper rfl (Or.inr hn) h.created (by simp [plan, delegatePlan])
        fun signature hsignature => by
          cases hsignature
          exact Nat.zero_le _
    have hfill : Becomes p n (s.createBody plan).2 filled :=
      IR.Store.becomes_withTemporaries hn _ hscratch (by
        rw [hnames]
        exact scratchNames_nodup hleaves)
    have hattach : Operation p n filled s' :=
      .attachCode wrapper _ s' hn (allPaired_releasing (allPaired_forwarding hwithin _ code))
        (by rw [hs']; exact Store.attachCode_ok hcodeless _)
    refine ⟨.head hcreate (hfill.tail hattach), ⟨List.nodup_singleton _, fun c hc => ?_⟩, ?_⟩
    · rw [List.mem_singleton] at hc
      subst hc
      refine ⟨Nat.le_trans hn (Nat.le_of_lt h.created), by rw [hsize]; exact Nat.lt_succ_self _, ?_⟩
      rw [hothers _ hne, Store.body_createBody_self]
    · rw [hsize]
      exact Nat.lt_succ_of_lt h.created
  · rintro failure s' ⟨-, rfl, defect, -, rfl⟩
    exact ⟨.refl, setting.excuses_rejected _⟩

/-- Building a callable leaves its function to be filled. -/
theorem buildCallable_performs {kind : CallableKind} {doc : Option String} {flags : Flags}
    {params : Params} (hs : Amid n p s) :
    Performs setting n p (buildCallable setting p kind name doc flags params location) s
      fun made s' => Pending n s' [made.function] := by
  obtain ⟨hs, hn, hp⟩ := hs
  let signature := params.rawSignature (s.spell p) name
  let plan := functionPlan p name signature flags doc location
  have hcreate : params.signature setting.dialect (s.spell p) name = .ok signature →
      Operation p n s (s.createBody plan).2 := fun hsig =>
    .createBody plan p rfl (Or.inl rfl) hp (by simp [plan, functionPlan]) fun t ht => by
      cases ht
      exact Signature.defaultCount_le_of_defect?_eq_none (signature_checked hsig).2
  refine (buildCallable_spec hs.ordered hp).weaken ?_ ?_
  · rintro ⟨outer, function, code⟩ s' ⟨hsig, rfl, hcases⟩
    rcases hcases with ⟨-, hfunction, rfl⟩ | ⟨-, hrun⟩
    · dsimp only at hfunction
      subst hfunction
      refine ⟨.single (hcreate hsig), List.nodup_singleton _, fun c hc => ?_⟩
      rw [List.mem_singleton] at hc
      subst hc
      exact ⟨hn, by simp, by rw [Store.body_createBody_self]⟩
    · have hdelegate : Performs setting n p _ (s.createBody plan).2 _ :=
        createDelegate_performs code flags doc location
          (isFresh_createBody flags doc location hs.ordered hp (signature_eq_ok hsig).2) hn
      obtain ⟨hsteps, hpending, -⟩ := Ends.of_ok hdelegate hrun
      exact ⟨.head (hcreate hsig) hsteps, hpending⟩
  · rintro failure s' (⟨rfl, cause, -, rfl⟩ | ⟨rfl, fault, hfault, rfl⟩ |
      ⟨rfl, hsig, -, defect, -, rfl⟩)
    · exact ⟨.refl, setting.excuses_rejected _⟩
    · obtain ⟨info, hinfo⟩ := hs.ordered.moduleInfo_ok hs.rooted
        (fun b hb hm => (hs.module b hb hm).2) hp
      rw [hinfo] at hfault
      cases hfault
    · exact ⟨.single (hcreate hsig), setting.excuses_rejected _⟩

/-- The object of a callable is to be filled, too. -/
theorem createObject_performs {made : Callable} (h : Pending n s [made.function])
    (kind : ObjectKind) (name : String) (flags : Flags) (location : Location) :
    Performs setting n p (createObject made kind name flags location) s fun object s' =>
      Pending n s' [object, made.function] := by
  obtain ⟨hn, hlt, hcode⟩ := h.2 _ List.mem_cons_self
  let plan := manufacturedPlan s made kind name flags location
  have hbound : n ≤ s.bodies.size := Nat.le_trans hn (Nat.le_of_lt hlt)
  have hne : made.function ≠ ⟨s.bodies.size⟩ := fun he => Nat.lt_irrefl _ (he ▸ hlt)
  have hcreate : Operation p n s (s.createBody plan).2 :=
    .createBody plan made.function rfl (Or.inr hn) hlt (by simp [plan, manufacturedPlan])
      fun _ h => by cases h
  have hprovider : ((s.createBody plan).2.body ⟨s.bodies.size⟩).provider = some made.function := by
    rw [Store.body_createBody_self]
    rfl
  unfold Performs Ends
  rw [createObject_run]
  dsimp only
  refine ⟨.head hcreate (.single (.share made.function _ hbound hprovider)), ?_, fun c hc => ?_⟩
  · exact List.nodup_cons.2 ⟨fun h => hne (List.mem_singleton.1 h).symm, List.nodup_singleton _⟩
  · rw [Store.size_bodies_withObject]
    rcases List.mem_cons.1 hc with rfl | hc
    · refine ⟨hbound, Nat.lt_succ_self _, ?_⟩
      rw [Store.body_withObject_view IR.Body.code fun _ _ => rfl, Store.body_createBody_self]
    · rw [List.mem_singleton] at hc
      subst hc
      exact ⟨hn, Nat.lt_succ_of_lt hlt,
        ((Store.Grows.withObject s plan made.function).code_eq hlt).trans hcode⟩

theorem lambdaObject_performs {made : Callable} (h : Pending n s [made.function])
    (hs : Amid n p s) (kind : CallableKind) (flags : Flags) (location : Location) :
    Performs setting n p (lambdaObject made kind flags location) s fun object s' =>
      Pending n s' (object.toList ++ [made.function]) := by
  unfold lambdaObject
  refine ends_ite.2 ⟨fun _ => ?_, fun _ => ?_⟩
  · exact (createObject_performs h .generator "<lambda>" flags location).bind hs
      fun object s' _ _ hpending => performs_pure hpending
  · exact performs_pure h

/-- The code body of a lambda is one of those that are to be filled. -/
theorem Pending.codeBody {object : Option BodyId} {made : Callable}
    (h : Pending n s (object.toList ++ [made.function])) :
    Active p n (object.getD made.function) ∧
      (object.getD made.function).index < s.bodies.size := by
  have hmem : object.getD made.function ∈ object.toList ++ [made.function] := by
    cases object <;> simp
  obtain ⟨hn, hlt, -⟩ := h.2 _ hmem
  exact ⟨Or.inr hn, hlt⟩

theorem attachLambda_performs {made : Callable} {object : Option BodyId} {value : IR.Expr}
    (h : Pending n s (object.toList ++ [made.function])) (hs : Amid n p s)
    (hvalue : value.allPaired = true) :
    Performs setting n p (attachLambda made object value) s fun _ _ => True := by
  cases object with
  | none =>
    refine (h.attachCode ?_).imp fun _ _ _ => trivial
    simpa [IR.Block.allPaired_eq, IR.Block.ofFrame, IR.Stmt.allPaired, IR.Stmt.within,
      IR.Stmt.operands] using hvalue
  | some object =>
    refine (h.attachCode ?_).bind hs fun _ s₁ _ _ h₁ =>
      (h₁.attachCode rfl).imp fun _ _ _ => trivial
    simpa [IR.Block.allPaired_eq, IR.Block.ofFrame, IR.Stmt.allPaired, IR.Stmt.within,
      IR.Stmt.operands] using hvalue

theorem allPaired_creation {made : Callable} {defaults : List IR.Expr}
    {keywordDefaults annotations : Option IR.Expr}
    (hdefaults : defaults.all IR.Expr.allPaired = true)
    (hkeywords : keywordDefaults.all IR.Expr.allPaired = true)
    (hannotations : annotations.all IR.Expr.allPaired = true) :
    (creation made defaults keywordDefaults annotations).allPaired = true := by
  rw [creation, IR.Expr.allPaired, IR.Expr.evaluations, List.all_append, List.all_append,
    List.all_append, IR.all_paired_exprsEvaluations, IR.all_paired_optionEvaluations,
    IR.all_paired_optionEvaluations, hdefaults, hkeywords, hannotations]
  rfl

theorem operates_keywordMapping {holder : BodyId}
    {lower : List String → Lowering (List (String × IR.Expr))}
    (h : ∀ names, Operates setting m p (lower names)
      fun entries => entries.all (fun entry => entry.2.allPaired) = true) :
    Operates setting m p (keywordMapping holder lower)
      fun o => o.all IR.Expr.allPaired = true := by
  unfold keywordMapping
  refine (operates_query _).bind fun names _ => ?_
  split
  · exact operates_pure rfl
  · exact (h names).bind fun _ hentries => operates_pure (IR.Expr.allPaired_ofEntries hentries)

/-! ## Expressions -/

/-- A lambda, given its parts. -/
theorem operates_lambda {params : Params} {body : Surface.Expr} {kind : CallableKind}
    {flags : Flags}
    (hdefaults : ∀ m p, Operates setting m p (lowerExprs setting p location params.defaults)
      fun es => es.all IR.Expr.allPaired = true)
    (hkeywords : ∀ m p names,
      Operates setting m p (lowerKeywordDefaults setting p location names params.keywordDefaults)
        fun entries => entries.all (fun entry => entry.2.allPaired) = true)
    (hbody : ∀ m p, Operates setting m p (lowerExpr setting p location body)
      fun e => e.allPaired = true) :
    Operates setting m p (do
      let callable ← buildCallable setting p kind "<lambda>" none flags params location
      let object ← lambdaObject callable kind flags location
      let defaults ← lowerExprs setting p location params.defaults
      let keywordDefaults ← keywordMapping callable.outer fun names =>
        lowerKeywordDefaults setting p location names params.keywordDefaults
      let value ← lowerExpr setting (object.getD callable.function) location body
      attachLambda callable object value
      return creation callable defaults keywordDefaults none) fun e => e.allPaired = true := by
  intro n s _ hs
  refine (buildCallable_performs hs).bind hs fun made s₁ hs₁ _ hpending₁ => ?_
  refine (lambdaObject_performs hpending₁ hs₁ kind flags location).bind hs₁
    fun object s₂ hs₂ _ hpending₂ => ?_
  refine Operates.next (hdefaults · p) hs₂ fun defaults s₃ hs₃ hg₃ hpaired₃ => ?_
  refine Operates.next (fun m => operates_keywordMapping (hkeywords m p)) hs₃
    fun keywordDefaults s₄ hs₄ hg₄ hpaired₄ => ?_
  have hpending₄ := (hpending₂.grow hg₃).grow hg₄
  obtain ⟨hactive, hlt⟩ := hpending₄.codeBody (p := p)
  refine Operates.andThen (hbody · _) hs₄ hactive hlt fun value s₅ hs₅ hg₅ hvalue => ?_
  refine (attachLambda_performs (hpending₄.grow hg₅) hs₅ hvalue).bind hs₅ fun _ _ _ _ _ => ?_
  exact performs_pure (allPaired_creation hpaired₃ hpaired₄ rfl)

mutual

theorem operates_lowerExpr (setting : Setting) : ∀ (e : Surface.Expr) (m : Nat) (p : BodyId)
    (location : Location),
    Operates setting m p (lowerExpr setting p location e) fun e => e.allPaired = true
  | .name id, m, p, location => by
    rw [lowerExpr]
    exact operates_reference id
  | .constant value, m, p, location => by
    rw [lowerExpr]
    exact operates_pure rfl
  | .call callee args, m, p, location => by
    rw [lowerExpr]
    refine (operates_lowerExpr setting callee m p location).bind fun callee hcallee =>
      (operates_lowerExprs setting args m p location).bind fun args hargs => operates_pure ?_
    rw [IR.Expr.allPaired, IR.Expr.evaluations, List.all_append, List.all_append,
      IR.all_paired_exprsEvaluations, hargs, show callee.evaluations.all IR.Expr.paired = true from
        hcallee]
    rfl
  | .binary left op right, m, p, location => by
    rw [lowerExpr]
    refine (operates_lowerExpr setting left m p location).bind fun left hleft =>
      (operates_lowerExpr setting right m p location).bind fun right hright => operates_pure ?_
    simp_all [IR.Expr.allPaired, IR.Expr.evaluations, IR.Expr.paired]
  | .attribute value name, m, p, location => by
    rw [lowerExpr]
    refine (operates_lowerExpr setting value m p location).bind fun value hvalue =>
      (operates_spell p name).bind fun _ _ => operates_pure ?_
    simp_all [IR.Expr.allPaired, IR.Expr.evaluations, IR.Expr.paired]
  | .tuple items, m, p, location => by
    rw [lowerExpr]
    refine (operates_lowerExprs setting items m p location).bind fun items hitems =>
      operates_pure ?_
    rw [IR.Expr.allPaired, IR.Expr.evaluations, List.all_append, IR.all_paired_exprsEvaluations,
      hitems]
    rfl
  | .yield value, m, p, location => by
    rw [lowerExpr]
    refine (operates_kindOf p).bind fun kind _ => ?_
    split
    · refine (operates_lowerOption setting value m p location).bind fun value hvalue =>
        operates_pure ?_
      simp_all [IR.Expr.allPaired, IR.Expr.evaluations, IR.Expr.paired,
        IR.all_paired_optionEvaluations]
    · exact operates_rejected
  | .yieldFrom value, m, p, location => by
    rw [lowerExpr]
    refine (operates_kindOf p).bind fun kind _ => ?_
    split
    · refine (operates_kindOf p).bind fun kind _ => ?_
      split
      · exact operates_rejected
      · refine (operates_lowerExpr setting value m p location).bind fun value hvalue =>
          operates_pure ?_
        simp_all [IR.Expr.allPaired, IR.Expr.evaluations, IR.Expr.paired]
    · exact operates_rejected
  | .await value, m, p, location => by
    rw [lowerExpr]
    refine (operates_kindOf p).bind fun kind _ => ?_
    split
    · refine (operates_lowerExpr setting value m p location).bind fun value hvalue =>
        operates_pure ?_
      simp_all [IR.Expr.allPaired, IR.Expr.evaluations, IR.Expr.paired]
    · exact operates_rejected
  | .lambda ⟨⟨positional, defaults, star, keywordOnly, keywordDefaults, doubleStar⟩, body, place⟩,
      m, p, location => by
    rw [lowerExpr, lowerLambda]
    exact operates_lambda (operates_lowerExprs setting defaults · · place)
      (operates_lowerKeywordDefaults setting keywordDefaults · · place)
      (operates_lowerExpr setting body · · place)

theorem operates_lowerExprs (setting : Setting) : ∀ (es : List Surface.Expr) (m : Nat)
    (p : BodyId) (location : Location),
    Operates setting m p (lowerExprs setting p location es)
      fun es => es.all IR.Expr.allPaired = true
  | [], m, p, location => by
    rw [lowerExprs]
    exact operates_pure rfl
  | first :: rest, m, p, location => by
    rw [lowerExprs]
    refine (operates_lowerExpr setting first m p location).bind fun first hfirst =>
      (operates_lowerExprs setting rest m p location).bind fun rest hrest => operates_pure ?_
    rw [List.all_cons, hfirst, hrest]
    rfl

theorem operates_lowerOption (setting : Setting) : ∀ (value : Option Surface.Expr) (m : Nat)
    (p : BodyId) (location : Location),
    Operates setting m p (lowerOption setting p location value)
      fun o => o.all IR.Expr.allPaired = true
  | none, m, p, location => by
    rw [lowerOption]
    exact operates_pure rfl
  | some value, m, p, location => by
    rw [lowerOption]
    exact (operates_lowerExpr setting value m p location).bind fun _ hvalue => operates_pure hvalue

theorem operates_lowerKeywordDefaults (setting : Setting) :
    ∀ (values : List (Option Surface.Expr)) (m : Nat) (p : BodyId) (location : Location)
      (names : List String),
      Operates setting m p (lowerKeywordDefaults setting p location names values)
        fun entries => entries.all (fun entry => entry.2.allPaired) = true
  | [], m, p, location, names => by
    cases names <;> exact operates_pure rfl
  | none :: rest, m, p, location, names => by
    cases names with
    | nil => exact operates_pure rfl
    | cons name names =>
      rw [lowerKeywordDefaults]
      exact operates_lowerKeywordDefaults setting rest m p location names
  | some value :: rest, m, p, location, names => by
    cases names with
    | nil => exact operates_pure rfl
    | cons name names =>
      rw [lowerKeywordDefaults]
      refine (operates_lowerExpr setting value m p location).bind fun value hvalue =>
        (operates_lowerKeywordDefaults setting rest m p location names).bind fun rest hrest =>
          operates_pure ?_
      rw [List.all_cons, hvalue, hrest]
      rfl

end

/-! ## Definitions -/

theorem operates_lowerHint (location : Location) (written : String × Surface.Expr) :
    Operates setting m p (lowerHint setting p location written)
      fun entry => entry.2.allPaired = true := by
  unfold lowerHint
  split
  · exact (operates_spell p _).bind fun _ _ =>
      (operates_lowerExpr setting _ m p location).bind fun _ hvalue => operates_pure hvalue
  · exact (operates_pure trivial).bind fun _ (_ : True) =>
      (operates_lowerExpr setting _ m p location).bind fun _ hvalue => operates_pure hvalue

theorem operates_lowerAnnotations (location : Location) (params : Params)
    (returns : Option Surface.Expr) :
    Operates setting m p (lowerAnnotations setting p location params returns)
      fun o => o.all IR.Expr.allPaired = true := by
  unfold lowerAnnotations
  dsimp only
  split
  · exact operates_pure rfl
  · exact (operates_mapM fun written _ => operates_lowerHint location written).bind
      fun _ hentries => operates_pure (IR.Expr.allPaired_ofEntries hentries)

theorem operates_lowerKeywordMapping (holder : BodyId) (location : Location) (params : Params) :
    Operates setting m p (lowerKeywordMapping setting p holder location params)
      fun o => o.all IR.Expr.allPaired = true :=
  operates_keywordMapping (operates_lowerKeywordDefaults setting
    params.keywordDefaults m p location)

/-- Applying decorators makes no mappings. -/
theorem allPaired_decorate {decorators : List IR.Expr} {created : IR.Expr}
    (hdecorators : decorators.all IR.Expr.allPaired = true) (h : created.allPaired = true) :
    (decorate decorators created).allPaired = true := by
  unfold decorate
  induction decorators generalizing created with
  | nil => exact h
  | cons first rest ih =>
    rw [List.all_cons, Bool.and_eq_true] at hdecorators
    refine ih hdecorators.2 ?_
    have hfirst := hdecorators.1
    simp_all [IR.Expr.allPaired, IR.Expr.evaluations, IR.exprsEvaluations, IR.Expr.paired]

theorem allPaired_addImplicit (dialect : Dialect) (name : String) (scope : ScopeKind)
    {decorators : List IR.Expr} (h : decorators.all IR.Expr.allPaired = true) :
    (dialect.addImplicit name scope decorators).all IR.Expr.allPaired = true := by
  unfold Dialect.addImplicit
  generalize dialect.decoratorsFor name scope = names
  induction names generalizing decorators with
  | nil => exact h
  | cons first rest ih =>
    refine ih ?_
    unfold addDecorator
    split
    · exact h
    · rw [List.all_append, h]
      rfl

/-- The statements of a body are lowered by operations in it. -/
def OperatesStatements (setting : Setting) (lowerBody : BodyId → Lowering (List IR.Stmt)) : Prop :=
  ∀ m c, Operates setting m c (lowerBody c) fun lowered => lowered.all IR.Stmt.allPaired = true

section Definitions

variable {lowerBody : BodyId → Lowering (List IR.Stmt)} {bodies : List BodyId}

/-- The statements of a new body: its scope is opened, and they are lowered in it. -/
theorem scope_performs (h : OperatesStatements setting lowerBody) (hs : Amid n p s)
    (hpending : Pending n s (c :: bodies)) (statements : List Surface.Stmt)
    {f : List IR.Stmt → Lowering α} {done : α → Store → Prop}
    (hf : ∀ lowered s', Amid n p s' → Pending n s' (c :: bodies) →
      lowered.all IR.Stmt.allPaired = true → Performs setting n p (f lowered) s' done) :
    Performs setting n p (do
      openScope c statements
      let lowered ← lowerBody c
      f lowered) s done := by
  obtain ⟨hn, hlt, -⟩ := hpending.2 c List.mem_cons_self
  have hopen : Performs setting n c (openScope c statements) s fun _ s' =>
      openScope c statements s = .ok () s' ∧ True :=
    (operates_openScope statements n s hn ⟨hs.coherent, hs.bound, hlt⟩).recall
  refine (hopen.within (Or.inr hn) (Nat.le_refl n)).bind hs fun _ s₁ hs₁ _ ⟨hrun, _⟩ => ?_
  have hpending₁ := hpending.openScope hrun
  refine Operates.andThen (h · c) hs₁ (Or.inr hn) (hpending₁.2 c List.mem_cons_self).2.1
    fun lowered s₂ hs₂ hg₂ hlowered => ?_
  exact hf lowered s₂ hs₂ (hpending₁.grow hg₂) hlowered

/-- The frame of a definition's statements. -/
theorem frame_performs (h : OperatesStatements setting lowerBody) (hs : Amid n p s)
    (hpending : Pending n s (c :: bodies)) (statements : List Surface.Stmt) (code : CodeObject) :
    Performs setting n p (lowerFrameWith c statements code (lowerBody c)) s fun frame s' =>
      Pending n s' (c :: bodies) ∧ frame.all IR.Block.allPaired = true := by
  unfold lowerFrameWith
  refine scope_performs h hs hpending statements fun lowered s' _ hpending' hlowered =>
    performs_pure ⟨hpending', ?_⟩
  split
  · rfl
  · simpa [IR.Block.allPaired_eq, IR.Block.ofFrame] using hlowered

theorem allPaired_closeWith {terminal : IR.Stmt} (ht : terminal.allPaired = true)
    {block : Option IR.Block} (h : block.all IR.Block.allPaired = true) :
    (IR.Block.closeWith terminal block).allPaired = true := by
  cases block with
  | none => simpa [IR.Block.closeWith, IR.Block.single, IR.Block.allPaired_eq] using ht
  | some block =>
    unfold IR.Block.closeWith
    dsimp only
    split
    · exact h
    · have hblock : block.statements.all IR.Stmt.allPaired = true := block.allPaired_eq ▸ h
      rw [IR.Block.allPaired_eq, IR.Block.push, List.all_append, hblock]
      simpa using ht

theorem allPaired_plainCode (kind : CallableKind) {frame : Option IR.Block}
    (h : frame.all IR.Block.allPaired = true) : (plainCode kind frame).allPaired = true := by
  unfold plainCode
  split
  · exact allPaired_closeWith rfl h
  · cases frame with
    | none => rfl
    | some block => exact h

/-- The code body of a plain definition is to be filled; a generator's function is filled. -/
theorem plainCodeBody_performs {made : Callable} (h : Pending n s [made.function])
    (hs : Amid n p s) {kind : CallableKind} (hkind : setting.classify =
      Surface.Classifier.suspension → kind = .function ∨ kind = .generator)
    (d : Surface.Def) (flags : Flags) :
    Performs setting n p (plainCodeBody made kind d flags) s fun c s' => Pending n s' [c] := by
  unfold plainCodeBody
  split
  · exact performs_pure h
  · refine (createObject_performs h .generator d.name flags d.location).bind hs
      fun object s₁ hs₁ _ h₁ => ?_
    have hswap : Pending n s₁ [made.function, object] :=
      ⟨h₁.1.perm (List.Perm.swap _ _ _), fun c hc => h₁.2 c ((List.Perm.swap _ _ _).subset hc)⟩
    exact (hswap.attachCode rfl).bind hs₁ fun _ s₂ _ _ h₂ => performs_pure h₂
  · rename_i hfunction hgenerator
    exact performs_throw fun hclassify => (hkind hclassify).elim (absurd · hfunction)
      (absurd · hgenerator)

theorem operates_lowerPlainDefWith (d : Surface.Def) (h : OperatesStatements setting lowerBody) :
    Operates setting m p (lowerPlainDefWith setting p d lowerBody)
      fun statement => statement.allPaired = true := by
  unfold lowerPlainDefWith
  intro n s _ hs
  have hkind : setting.classify = Surface.Classifier.suspension →
      (setting.classify (Surface.undocumented d.body) .function).1 = .function ∨
        (setting.classify (Surface.undocumented d.body) .function).1 = .generator :=
    fun hclassify => hclassify ▸ Surface.suspension_function _
  dsimp only
  refine (buildCallable_performs hs).bind hs fun made s₁ hs₁ _ h₁ => ?_
  refine (plainCodeBody_performs h₁ hs₁ hkind d _).bind hs₁ fun c s₂ hs₂ _ h₂ => ?_
  refine Operates.next (operates_lowerExprs setting _ · p _) hs₂
    fun decorators s₃ hs₃ hg₃ hdecorators => ?_
  refine Operates.next (operates_lowerExprs setting _ · p _) hs₃
    fun defaults s₄ hs₄ hg₄ hdefaults => ?_
  refine Operates.next (fun _ => operates_lowerKeywordMapping _ _ _) hs₄
    fun keywordDefaults s₅ hs₅ hg₅ hkeywords => ?_
  refine (frame_performs h hs₅ (((h₂.grow hg₃).grow hg₄).grow hg₅) _ _).bind hs₅
    fun frame s₆ hs₆ _ ⟨h₆, hframe⟩ => ?_
  refine (h₆.attachCode (allPaired_plainCode _ hframe)).bind hs₆ fun _ s₇ hs₇ _ _ => ?_
  refine Operates.next (fun _ => operates_lowerAnnotations _ _ _) hs₇
    fun annotations s₈ hs₈ _ hannotations => ?_
  refine Operates.next (fun _ => operates_kindOf p) hs₈ fun kind s₉ hs₉ _ _ => ?_
  exact operates_bindDefinition d.name (allPaired_decorate (allPaired_addImplicit _ _ _ hdecorators)
    (allPaired_creation hdefaults hkeywords hannotations)) n s₉ (Nat.le_refl n) hs₉

theorem operates_lowerAsyncDefWith (d : Surface.Def) (h : OperatesStatements setting lowerBody) :
    Operates setting m p (lowerAsyncDefWith setting p d lowerBody)
      fun statement => statement.allPaired = true := by
  unfold lowerAsyncDefWith
  intro n s _ hs
  dsimp only
  split
  · rename_i hnone
    refine performs_throw fun hclassify => ?_
    have hnone : asyncObject? (setting.classify (Surface.undocumented d.body) .coroutine).1
        = none :=
      hnone
    obtain ⟨object, -, hobject⟩ := suspension_coroutine (Surface.undocumented d.body)
    rw [hclassify, hobject] at hnone
    cases hnone
  · rename_i objectKind _
    refine (buildCallable_performs hs).bind hs fun made s₁ hs₁ _ h₁ => ?_
    refine (createObject_performs h₁ objectKind d.name _ d.location).bind hs₁
      fun object s₂ hs₂ _ h₂ => ?_
    refine Operates.next (operates_lowerExprs setting _ · p _) hs₂
      fun decorators s₃ hs₃ hg₃ hdecorators => ?_
    refine Operates.next (operates_lowerExprs setting _ · p _) hs₃
      fun defaults s₄ hs₄ hg₄ hdefaults => ?_
    refine (frame_performs h hs₄ ((h₂.grow hg₃).grow hg₄) _ _).bind hs₄
      fun frame s₅ hs₅ _ ⟨h₅, hframe⟩ => ?_
    refine (h₅.attachCode (allPaired_closeWith rfl hframe)).bind hs₅ fun _ s₆ hs₆ _ h₆ => ?_
    refine Operates.next (fun _ => operates_lowerAnnotations _ _ _) hs₆
      fun annotations s₇ hs₇ hg₇ hannotations => ?_
    refine Operates.next (fun _ => operates_lowerKeywordMapping _ _ _) hs₇
      fun keywordDefaults s₈ hs₈ hg₈ hkeywords => ?_
    have h₈ := (h₆.grow hg₇).grow hg₈
    refine (h₈.attachCode rfl).bind hs₈ fun _ s₉ hs₉ _ _ => ?_
    have hcopy : Performs setting n p
        (modify fun s => s.copyNonlocals object made.function : Lowering Unit) s₉ fun _ _ => True :=
      performs_modify (.copyNonlocals object made.function (h₈.2 _ List.mem_cons_self).1) trivial
    refine hcopy.bind hs₉ fun _ s₁₀ hs₁₀ _ _ => ?_
    exact operates_bindDefinition d.name (allPaired_decorate hdecorators
      (allPaired_creation hdefaults hkeywords hannotations)) n s₁₀ (Nat.le_refl n) hs₁₀

theorem operates_lowerDefWith (d : Surface.Def) (h : OperatesStatements setting lowerBody) :
    Operates setting m p (lowerDefWith setting p d lowerBody)
      fun statement => statement.allPaired = true := by
  unfold lowerDefWith
  split
  · exact operates_lowerAsyncDefWith d h
  · exact operates_lowerPlainDefWith d h

theorem operates_lowerClassDefWith (d : Surface.ClassDef)
    (h : OperatesStatements setting lowerBody) :
    Operates setting m p (lowerClassDefWith setting p d lowerBody)
      fun statement => statement.allPaired = true := by
  unfold lowerClassDefWith
  intro n s _ hs
  refine Operates.next (operates_lowerExprs setting _ · p _) hs
    fun decorators s₁ hs₁ _ hdecorators => ?_
  refine Operates.next (operates_lowerExprs setting _ · p _) hs₁ fun bases s₂ hs₂ _ hbases => ?_
  have hcreate : Performs setting n p (createBody (classPlan p d)) s₂ fun c s' =>
      Pending n s' [c] := by
    refine ⟨.single (.createBody _ p rfl (Or.inl rfl) hs₂.created (by simp [classPlan])
      fun _ h => by cases h), List.nodup_singleton _, fun c hc => ?_⟩
    rw [List.mem_singleton] at hc
    subst hc
    refine ⟨hs₂.bound, by simp, ?_⟩
    show ((s₂.createBody (classPlan p d)).2.body ⟨s₂.bodies.size⟩).code = none
    rw [Store.body_createBody_self]
  refine hcreate.bind hs₂ fun c s₃ hs₃ _ h₃ => ?_
  refine scope_performs h hs₃ h₃ _ fun lowered s₄ hs₄ h₄ hlowered => ?_
  have hcode : (IR.Block.ofStatements lowered).allPaired = true := by
    rw [IR.Block.allPaired_eq]
    exact hlowered
  refine (h₄.attachCode hcode).bind hs₄ fun _ s₅ hs₅ _ _ => ?_
  have hclass : (IR.Expr.makeClass c bases).allPaired = true := by
    rw [IR.Expr.allPaired, IR.Expr.evaluations, List.all_append, IR.all_paired_exprsEvaluations,
      hbases]
    rfl
  exact operates_bindDefinition d.name (allPaired_decorate hdecorators hclass) n s₅
    (Nat.le_refl n) hs₅

end Definitions

/-! ## Statements -/

theorem operates_checkReturn (location : Location) (hasValue : Bool) :
    Operates setting m p (checkReturn p location hasValue) fun _ => True := by
  unfold checkReturn
  refine (operates_kindOf p).bind fun kind _ => ?_
  split
  · exact operates_reject
  · exact operates_reject
  · split
    · exact operates_reject
    · exact operates_pure trivial
  · exact operates_pure trivial

theorem allPaired_returnStmt (kind : BodyKind) {value : Option IR.Expr}
    (h : value.all IR.Expr.allPaired = true) : (returnStmt kind value).allPaired = true := by
  unfold returnStmt
  split
  · exact allPaired_single rfl (by simpa [IR.Stmt.operands] using h)
  · rfl
  · exact allPaired_single rfl (by simpa [IR.Stmt.operands] using h)
  · rfl

theorem all_append_toList {check : α → Bool} {head : Option α} {tail : List α}
    (hhead : head.all check = true) (htail : tail.all check = true) :
    (head.toList ++ tail).all check = true := by
  cases head with
  | none => exact htail
  | some first =>
    rw [Option.toList_some, List.singleton_append, List.all_cons, htail, Bool.and_true]
    exact hhead

mutual

theorem operates_lowerStmt (setting : Setting) : ∀ (statement : Surface.Stmt) (m : Nat)
    (p : BodyId), Operates setting m p (lowerStmt setting p statement)
      fun lowered => lowered.all IR.Stmt.allPaired = true
  | ⟨kind, location⟩, m, p => by
    rw [lowerStmt]
    exact operates_lowerKind setting kind m p location

theorem operates_lowerKind (setting : Setting) : ∀ (kind : Surface.StmtKind) (m : Nat)
    (p : BodyId) (location : Location), Operates setting m p (lowerKind setting p location kind)
      fun lowered => lowered.all IR.Stmt.allPaired = true
  | .expr value, m, p, location => by
    rw [lowerKind]
    exact (operates_lowerExpr setting value m p location).bind fun value hvalue =>
      operates_pure (allPaired_single rfl (by simpa [IR.Stmt.operands] using hvalue))
  | .assign target value, m, p, location => by
    rw [lowerKind]
    exact (operates_lowerExpr setting value m p location).bind fun source hsource =>
      (operates_spell p target).bind fun name _ =>
        (operates_bindName name hsource).bind fun statement h => operates_pure h
  | .pass, m, p, location => by
    rw [lowerKind]
    exact operates_pure rfl
  | .global _, m, p, location => by
    rw [lowerKind]
    exact operates_pure rfl
  | .nonlocal _, m, p, location => by
    rw [lowerKind]
    exact operates_pure rfl
  | .ret value, m, p, location => by
    rw [lowerKind]
    exact (operates_checkReturn location _).bind fun _ _ =>
      (operates_lowerOption setting value m p location).bind fun value hvalue =>
        (operates_kindOf p).bind fun kind _ => operates_pure (allPaired_returnStmt kind hvalue)
  | .raise value, m, p, location => by
    rw [lowerKind]
    refine (operates_lowerOption setting value m p location).bind fun value hvalue =>
      operates_pure (allPaired_single rfl ?_)
    cases value with
    | none => rfl
    | some value => simpa [IR.Stmt.operands] using hvalue
  | .branch test body orelse, m, p, location => by
    rw [lowerKind]
    refine (operates_lowerExpr setting test m p location).bind fun condition hcondition =>
      (operates_lowerStmts setting body m p).bind fun yes hyes =>
        (operates_lowerStmts setting orelse m p).bind fun no hno => operates_pure ?_
    rw [Option.all_some, IR.Stmt.allPaired, IR.Stmt.within, List.all_cons, List.all_append,
      IR.optionWithin_ofNonempty, IR.optionWithin_ofNonempty, IR.all_paired_stmtsWithin,
      IR.all_paired_stmtsWithin, hyes, hno]
    simpa [IR.Stmt.operands] using hcondition
  | .loop test body, m, p, location => by
    rw [lowerKind]
    refine (operates_lowerExpr setting test m p location).bind fun condition hcondition =>
      (operates_lowerStmts setting body m p).bind fun body hbody => operates_pure ?_
    rw [Option.all_some, IR.Stmt.allPaired, IR.Stmt.within, List.all_cons,
      IR.optionWithin_ofNonempty, IR.all_paired_stmtsWithin, hbody]
    simpa [IR.Stmt.operands] using hcondition
  | .define ⟨name, params, body, decorators, returns, isAsync, place⟩, m, p, location => by
    rw [lowerKind, lowerDef]
    exact (operates_lowerDefWith _ (operates_lowerUndocumented setting body)).bind
      fun statement h => operates_pure h
  | .defineClass ⟨name, bases, body, decorators, place⟩, m, p, location => by
    rw [lowerKind, lowerClassDef]
    exact (operates_lowerClassDefWith _ (operates_lowerUndocumented setting body)).bind
      fun statement h => operates_pure h

theorem operates_lowerStmts (setting : Setting) : ∀ (statements : List Surface.Stmt) (m : Nat)
    (p : BodyId), Operates setting m p (lowerStmts setting p statements)
      fun lowered => lowered.all IR.Stmt.allPaired = true
  | [], m, p => by
    rw [lowerStmts]
    exact operates_pure rfl
  | first :: rest, m, p => by
    rw [lowerStmts]
    refine (operates_lowerStmt setting first m p).bind fun head hhead =>
      (operates_lowerStmts setting rest m p).bind fun tail htail => operates_pure ?_
    exact all_append_toList hhead htail

theorem operates_lowerUndocumented (setting : Setting) : ∀ (statements : List Surface.Stmt)
    (m : Nat) (p : BodyId), Operates setting m p (lowerUndocumented setting p statements)
      fun lowered => lowered.all IR.Stmt.allPaired = true
  | [], m, p => by
    rw [lowerUndocumented]
    exact operates_pure rfl
  | first :: rest, m, p => by
    rw [lowerUndocumented]
    split
    · exact operates_lowerStmts setting rest m p
    · refine (operates_lowerStmt setting first m p).bind fun head hhead =>
        (operates_lowerStmts setting rest m p).bind fun tail htail => operates_pure ?_
      exact all_append_toList hhead htail

end

end Lowering

end DefinitionLowering
