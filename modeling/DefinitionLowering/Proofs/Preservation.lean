import DefinitionLowering.Lowering.Stmt
import DefinitionLowering.Proofs.WellFormed
import DefinitionLowering.Proofs.Wrapper

/-!
# Lowering keeps the store well formed

`Valid n pending s` says that a store is well formed and that all its bodies from number `n` on
have their code, but for the pending ones.  A step is `Sound m b` if it keeps this in a body `b`,
for all pending bodies and every `n` up to `m`, and leaves the first `n` bodies alone but for
what they see, also when it fails.  Most steps are so for every `m`; one that opens a scope
changes the body itself.

There is one `sound_` theorem for each function of the lowering; the bodies of a callable are
pending from their creation until their code is attached.
-/

namespace DefinitionLowering

open IR (BodyId VariableId Store)
open Surface (Pattern Params)

/-- A well-formed store whose bodies from `n` on have code, but for the pending ones. -/
structure Valid (n : Nat) (pending : List BodyId) (s : Store) : Prop where
  wellFormed : s.WellFormed
  bound : n ≤ s.bodies.size
  coded : ∀ b : BodyId, n ≤ b.index → b.index < s.bodies.size → b ∉ pending →
    (s.body b).code.isSome = true

namespace Lowering

variable {α β : Type} {n m : Nat} {pending : List BodyId} {s s' : Store} {b : BodyId}

/-- However a step ends, the store has grown; `done` holds when it gives a value. -/
def Keeps (n : Nat) (x : Lowering α) (s : Store) (done : α → Store → Prop) : Prop :=
  Ends x s (fun a s' => Store.Grows n s s' ∧ done a s') (fun _ s' => Store.Grows n s s')

/-- A step in a body that keeps stores valid and leaves the first `m` bodies alone; `Q` holds of
its value. -/
def Sound (m : Nat) (b : BodyId) (x : Lowering α) (Q : α → Prop) : Prop :=
  ∀ n pending s, n ≤ m → Valid n pending s → b.index < s.bodies.size →
    Keeps n x s fun a s' => Valid n pending s' ∧ Q a

section Rules

variable {x : Lowering α} {f : α → Lowering β} {P : α → Prop} {Q : β → Prop}

theorem Keeps.bind {mid : α → Store → Prop} {done : β → Store → Prop} (h : Keeps n x s mid)
    (hf : ∀ a s', Store.Grows n s s' → mid a s' → Keeps n (f a) s' done) :
    Keeps n (x >>= f) s done := by
  refine ends_bind.2 (h.weaken (fun a s' => ?_) fun _ _ hg => hg)
  rintro ⟨hg, hmid⟩
  exact (hf a s' hg hmid).weaken (fun _ _ h => ⟨hg.trans h.1 (Nat.le_refl _), h.2⟩)
    fun _ _ h => hg.trans h (Nat.le_refl _)

theorem Keeps.imp {done done' : α → Store → Prop} (h : Keeps n x s done)
    (hd : ∀ a s', Store.Grows n s s' → done a s' → done' a s') : Keeps n x s done' :=
  h.weaken (fun a s' h => ⟨h.1, hd a s' h.1 h.2⟩) fun _ _ h => h

theorem keeps_pure {a : α} {done : α → Store → Prop} (h : done a s) :
    Keeps n (pure a) s done :=
  ⟨Store.Grows.refl n s, h⟩

theorem keeps_throw {failure : Failure} {done : α → Store → Prop} :
    Keeps n (throw failure) s done :=
  Store.Grows.refl n s

theorem Sound.bind (h : Sound m b x P) (hf : ∀ a, P a → Sound m b (f a) Q) :
    Sound m b (x >>= f) Q :=
  fun n pending s hn hs hb => (h n pending s hn hs hb).bind fun a s' hg ⟨hs', hP⟩ =>
    hf a hP n pending s' hn hs' (Nat.lt_of_lt_of_le hb hg.bodies)

theorem Sound.imp {P' : α → Prop} (h : Sound m b x P) (hP : ∀ a, P a → P' a) : Sound m b x P' :=
  fun n pending s hn hs hb => (h n pending s hn hs hb).imp fun a _ _ h => ⟨h.1, hP a h.2⟩

theorem sound_pure {a : α} (h : P a) : Sound m b (pure a) P :=
  fun _ _ _ _ hs _ => keeps_pure ⟨hs, h⟩

theorem sound_throw {failure : Failure} : Sound m b (throw failure : Lowering α) P :=
  fun _ _ _ _ _ _ => keeps_throw

theorem sound_query (f : Store → α) : Sound m b (query f) fun _ => True :=
  fun n _ s _ hs _ => ⟨Store.Grows.refl n s, hs, trivial⟩

/-- A change of the store that keeps it valid. -/
theorem sound_of_store {f : Store → Store}
    (hwf : ∀ s, s.WellFormed → b.index < s.bodies.size → (f s).WellFormed)
    (hg : ∀ n s, n ≤ m → Store.Grows n s (f s)) (hsize : ∀ s, (f s).bodies.size = s.bodies.size)
    {g : Store → α × Store} (hfg : ∀ s, (g s).2 = f s) : Sound m b (operate g) fun _ => True := by
  intro n pending s hn hs hb
  have hgrows := hg n s hn
  refine ⟨hfg s ▸ hgrows, ?_, trivial⟩
  rw [hfg]
  refine ⟨hwf s hs.wellFormed hb, Nat.le_trans hs.bound hgrows.bodies, fun c hn hc hp => ?_⟩
  have := hs.coded c hn (hsize s ▸ hc) hp
  obtain ⟨block, hblock⟩ := Option.isSome_iff_exists.1 this
  rw [hgrows.code c block hblock]
  rfl

theorem sound_forM {γ : Type} {step : γ → Lowering Unit} {items : List γ}
    (h : ∀ item ∈ items, Sound m b (step item) fun _ => True) :
    Sound m b (items.forM step) fun _ => True := by
  induction items with
  | nil => exact sound_pure trivial
  | cons item rest ih =>
    show Sound m b (step item >>= fun _ => rest.forM step) _
    exact (h item List.mem_cons_self).bind fun _ _ =>
      ih fun other hother => h other (List.mem_cons_of_mem _ hother)

theorem sound_mapM {γ : Type} {step : γ → Lowering α} {items : List γ}
    (h : ∀ item ∈ items, Sound m b (step item) fun _ => True) :
    Sound m b (items.mapM step) fun _ => True := by
  induction items with
  | nil => exact sound_pure trivial
  | cons item rest ih =>
    rw [List.mapM_cons]
    exact (h item List.mem_cons_self).bind fun _ _ =>
      (ih fun other hother => h other (List.mem_cons_of_mem _ hother)).bind fun _ _ =>
        sound_pure trivial

end Rules

/-! ## Single steps -/

theorem sound_kindOf (c : BodyId) : Sound m b (kindOf c) fun _ => True :=
  sound_query _

theorem sound_spell (c : BodyId) (name : String) : Sound m b (spell c name) fun _ => True :=
  sound_query _

theorem sound_reject {cause : Cause} {location : Location} {P : α → Prop} :
    Sound m b (reject cause location : Lowering α) P :=
  sound_throw

/-- Nothing runs behind a rejection. -/
theorem sound_rejected {cause : Cause} {location : Location} {f : α → Lowering β}
    {Q : β → Prop} : Sound m b (reject cause location >>= f) Q :=
  sound_reject.bind (P := fun _ => False) fun _ h => h.elim

theorem sound_resolve (c : BodyId) (name : String) : Sound m b (resolve c name) fun _ => True :=
  sound_of_store (f := fun s => (s.resolve c name).2) (fun _ h _ => h.resolve c name)
    (fun n s _ => Store.Grows.resolve n s c name) (fun s => Store.size_bodies_resolve s c name)
    fun _ => rfl

theorem sound_reference (c : BodyId) (name : String) :
    Sound m b (reference c name) fun _ => True := by
  unfold reference
  refine (sound_spell c name).bind fun name _ => (sound_kindOf c).bind fun kind _ => ?_
  split
  · exact sound_pure trivial
  · refine (sound_resolve c name).bind fun found _ => ?_
    cases found <;> exact sound_pure trivial

theorem sound_bindName (c : BodyId) (name : String) (source : IR.Expr) :
    Sound m b (bindName c name source) fun statement => statement.quiet = true := by
  unfold bindName
  refine (sound_kindOf c).bind fun kind _ => ?_
  split
  · exact sound_pure rfl
  · refine (sound_resolve c name).bind fun found _ => ?_
    cases found <;> exact sound_pure rfl

/-- Code without releases is attached to a new body. -/
theorem keeps_attachCode {block : IR.Block} (hs : Valid n (b :: pending) s) (hn : n ≤ b.index)
    (hq : block.quiet = true) :
    Keeps n (attachCode b block) s fun _ s' => Valid n pending s' := by
  refine ends_tryUpdate.2 ⟨fun s' ha => ?_, fun fault _ => Store.Grows.refl n s⟩
  have hg : Store.Grows n s s' := Store.Grows.attachCode ha hn
  refine ⟨hg, hs.wellFormed.attachCode hq ha, Nat.le_trans hs.bound hg.bodies,
    fun c hc hlt hp => ?_⟩
  obtain ⟨-, rfl⟩ := Store.attachCode_eq_ok ha
  rw [Store.size_bodies_modifyBody] at hlt
  by_cases hbc : b = c
  · subst hbc
    rw [Store.body_modifyBody_self hlt]
    rfl
  · rw [Store.body_modifyBody_ne hbc]
    refine hs.coded c hc hlt fun hmem => ?_
    rcases List.mem_cons.1 hmem with rfl | hmem
    · exact hbc rfl
    · exact hp hmem

/-- A new body has no code yet. -/
theorem valid_createBody (hs : Valid n pending s) {plan : IR.BodyPlan}
    (hprovider : ∀ p, plan.provider = some p → p.index < s.bodies.size)
    (hroot : plan.provider = none ↔ plan.kind = .moduleBody)
    (hfirst : plan.provider = none → plan.info.isSome = true ∧ s.bodies.size = 0)
    (hslots : plan.slots.Nodup) : Valid n (⟨s.bodies.size⟩ :: pending) (s.createBody plan).2 := by
  refine ⟨hs.wellFormed.createBody hprovider hroot hfirst hslots, ?_, fun c hc hlt hp => ?_⟩
  · rw [Store.size_bodies_createBody]
    exact Nat.le_succ_of_le hs.bound
  · have hne : c ≠ ⟨s.bodies.size⟩ := fun he => hp (he ▸ List.mem_cons_self)
    have hold : c.index < s.bodies.size := by
      have hne' : c.index ≠ s.bodies.size := fun he => hne (by cases c; simp_all)
      rw [Store.size_bodies_createBody] at hlt
      omega
    rw [Store.body_createBody_ne hne]
    exact hs.coded c hc hold fun hmem => hp (List.mem_cons_of_mem _ hmem)

/-! ## Code of wrappers -/

mutual

/-- The code that takes a pattern apart releases nothing. -/
theorem unpack_quiet : ∀ (pattern : Pattern) (source : IR.Expr) (number : Nat) (s : Store),
    Ends (unpack b source number pattern) s (fun u _ => IR.allQuiet u.statements = true)
      (fun _ _ => True)
  | .name param, source, number, s => by
    rw [unpack, ends_bind, ends_spell, ends_bind]
    refine (newTemporary_store _).weaken (fun _ _ _ => ?_) fun _ _ _ => trivial
    rfl
  | .tuple elements, source, number, s => by
    rw [unpack, ends_bind]
    refine (newTemporary_store _).weaken (fun _ s' _ => ?_) fun _ _ _ => trivial
    rw [ends_bind]
    refine (unpackElements_quiet elements _ _ _ _ s').weaken (fun u _ hu => ?_)
      fun _ _ _ => trivial
    show IR.allQuiet (_ :: u.statements ++ _) = true
    rw [IR.allQuiet_append, IR.allQuiet, hu]
    rfl

theorem unpackElements_quiet : ∀ (patterns : List Pattern) (iterator : VariableId)
    (expected count number : Nat) (s : Store),
    Ends (unpackElements b iterator expected count number patterns) s
      (fun u _ => IR.allQuiet u.statements = true) (fun _ _ => True)
  | [], _, _, _, _, _ => rfl
  | first :: rest, iterator, expected, count, number, s => by
    rw [unpackElements, ends_bind]
    refine (unpack_quiet first _ number s).weaken (fun head s₁ hhead => ?_) fun _ _ _ => trivial
    rw [ends_bind]
    refine (unpackElements_quiet rest iterator expected _ _ s₁).weaken (fun tail _ htail => ?_)
      fun _ _ _ => trivial
    show IR.allQuiet (head.statements ++ tail.statements) = true
    rw [IR.allQuiet_append, hhead, htail]
    rfl

end

theorem unpackSlots_quiet {placeholders : List Placeholder} :
    ∀ (slots : List String) (number : Nat) (s : Store),
      Ends (unpackSlots b placeholders number slots) s
        (fun u _ => IR.allQuiet u.statements = true) (fun _ _ => True)
  | [], _, _ => rfl
  | slot :: rest, number, s => by
    rw [unpackSlots, ends_bind, slotVariable, ends_bind, ends_query]
    cases s.find? b slot with
    | none => trivial
    | some v =>
      dsimp only
      rw [ends_pure]
      cases Placeholder.elementsOf? placeholders slot with
      | none =>
        dsimp only
        rw [ends_bind, ends_pure, ends_bind]
        exact unpackSlots_quiet rest number s
      | some elements =>
        dsimp only
        rw [ends_bind]
        refine (unpack_quiet (.tuple elements) _ number s).weaken (fun head s₁ hhead => ?_)
          fun _ _ _ => trivial
        rw [ends_bind]
        refine (unpackSlots_quiet rest _ s₁).weaken (fun tail _ htail => ?_) fun _ _ _ => trivial
        show IR.allQuiet (head.statements ++ tail.statements) = true
        rw [IR.allQuiet_append, hhead, htail]
        rfl

theorem insertByName_perm (s : Store) (v : VariableId) (vars : List VariableId) :
    (insertByName s v vars).Perm (v :: vars) := by
  induction vars with
  | nil => exact List.Perm.refl _
  | cons w rest ih =>
    rw [insertByName]
    split
    · exact List.Perm.refl _
    · exact (ih.cons w).trans (List.Perm.swap v w rest)

/-- Sorting by name keeps the variables. -/
theorem sortByName_perm (s : Store) (vars : List VariableId) : (sortByName s vars).Perm vars := by
  induction vars with
  | nil => exact List.Perm.refl _
  | cons v rest ih => exact (insertByName_perm s v _).trans (ih.cons v)

/-! ## Callables -/

/-- A callable in a valid store: its bodies are new, and the function's code is pending. -/
structure Built (n : Nat) (pending : List BodyId) (callable : Callable) (s : Store) : Prop where
  valid : Valid n (callable.function :: pending) s
  outer : n ≤ callable.outer.index ∧ callable.outer.index < s.bodies.size
  function : n ≤ callable.function.index ∧ callable.function.index < s.bodies.size

variable {setting : Setting} {provider : BodyId} {kind : CallableKind} {name : String}
  {doc : Option String} {flags : Flags} {params : Params} {location : Location}

theorem createDelegate_keeps {wrapper : BodyId} {signature : Signature}
    {placeholders : List Placeholder} {spell : String → String} {formals : List Pattern}
    (code : CodeObject) (flags : Flags) (doc : Option String) (location : Location)
    (hs : Valid n (wrapper :: pending) s) (hn : n ≤ wrapper.index)
    (h : IsFresh s wrapper signature placeholders spell formals)
    (htuple : formals.any Pattern.isTuple = true) :
    Keeps n (createDelegate wrapper signature placeholders code flags doc location) s
      fun delegate s' => Valid n (delegate :: pending) s' ∧ delegate = ⟨s.bodies.size⟩ ∧
        s'.bodies.size = s.bodies.size + 1 := by
  refine (createDelegate_spec h).weaken ?_ ?_
  · rintro delegate s' ⟨hleaves, rfl, u, hunpack, rfl⟩
    let plan := delegatePlan wrapper signature.name (leafNames spell formals) flags doc location
    let created := (s.createBody plan).2
    let filled := created.withTemporaries wrapper (scratchNames spell formals)
    have hcreated : Valid n (⟨s.bodies.size⟩ :: wrapper :: pending) created := by
      refine valid_createBody hs (fun p hp => ?_) (by simp [plan, delegatePlan])
        (by simp [plan, delegatePlan]) ?_
      · cases hp
        exact h.created
      · show (delegateSignature _ _).slots.Nodup
        rw [delegateSignature_slots]
        exact hleaves
    have hlt : wrapper.index < created.bodies.size := (h.createBody plan).1.created
    have hcode : (created.body wrapper).code = none := by
      rw [Store.body_createBody_of_lt s plan h.created]
      exact h.codeless
    have hquiet : (forwarding u ⟨s.bodies.size⟩ code).quiet = true := by
      have hu := (unpackSlots_quiet signature.slots 0 created).of_ok hunpack
      show IR.allQuiet (u.statements ++ _) = true
      rw [IR.allQuiet_append, hu]
      rfl
    have hwf := hcreated.wellFormed.wrap hlt hcode (scratchNames_ne_nil htuple) hquiet
      (sortByName_perm filled (filled.temporaries wrapper))
    have hgrows : Store.Grows n s (filled.modifyBody wrapper fun body =>
        { body with code := some (wrapperCode filled wrapper ⟨s.bodies.size⟩ code u) }) := by
      refine ((Store.Grows.createBody s plan).mono hs.bound).trans
        ((Store.Grows.withTemporaries hn).trans (Store.Grows.modifyBody (fun _ => rfl)
          (fun _ => List.prefix_rfl) (fun block hc => ?_) (.inl hn)) (Nat.le_refl _))
        (Nat.le_refl _)
      rw [Store.body_withTemporaries_self hlt, hcode] at hc
      cases hc
    have hsize : (filled.modifyBody wrapper fun body =>
        { body with code := some (wrapperCode filled wrapper ⟨s.bodies.size⟩ code u) }).bodies.size
          = s.bodies.size + 1 := by simp [filled, created]
    refine ⟨hgrows, ⟨hwf, Nat.le_trans hs.bound hgrows.bodies, fun c hc hlt' hp => ?_⟩, rfl, hsize⟩
    by_cases hwc : wrapper = c
    · subst hwc
      rw [Store.body_modifyBody_self (by rw [Store.size_bodies_withTemporaries]; exact hlt)]
      rfl
    · rw [Store.body_modifyBody_ne hwc, Store.body_withTemporaries_ne hwc]
      refine hcreated.coded c hc (by rw [hsize] at hlt'; simpa [created] using hlt') fun hmem => ?_
      rcases List.mem_cons.1 hmem with rfl | hmem
      · exact hp List.mem_cons_self
      · rcases List.mem_cons.1 hmem with rfl | hmem
        · exact hwc rfl
        · exact hp (List.mem_cons_of_mem _ hmem)
  · rintro failure s' ⟨rfl, -⟩
    exact Store.Grows.refl n _

/-- Building a callable leaves its function without code. -/
theorem buildCallable_keeps (hs : Valid n pending s) (hp : provider.index < s.bodies.size) :
    Keeps n (buildCallable setting provider kind name doc flags params location) s
      fun callable s' => Built n pending callable s' := by
  let signature := params.rawSignature (s.spell provider) name
  let plan := functionPlan provider name signature flags doc location
  have hcreated : signature.slots.Nodup →
      Valid n (⟨s.bodies.size⟩ :: pending) (s.createBody plan).2 := by
    intro hslots
    refine valid_createBody hs (fun p h => ?_) (by simp [plan, functionPlan])
      (by simp [plan, functionPlan]) hslots
    cases h
    exact hp
  have hgrows : Store.Grows n s (s.createBody plan).2 :=
    (Store.Grows.createBody s plan).mono hs.bound
  unfold Keeps
  refine (buildCallable_spec hs.wellFormed.ordered hp).weaken ?_ ?_
  · rintro ⟨outer, function, code⟩ s' ⟨hsig, rfl, hcases⟩
    obtain ⟨-, hn⟩ := signature_eq_ok hsig
    rcases hcases with ⟨-, hfunction, rfl⟩ | ⟨htuple, hrun⟩
    · dsimp only at hfunction
      subst hfunction
      exact ⟨hgrows, hcreated hn, ⟨hs.bound, by simp⟩, hs.bound, by simp⟩
    · have hfresh := isFresh_createBody flags doc location hs.wellFormed.ordered hp hn
      obtain ⟨hgrows', hvalid, hfunction, hsize⟩ :=
        Ends.of_ok (createDelegate_keeps code flags doc location (hcreated hn) hs.bound hfresh
          (Params.any_formals htuple)) hrun
      refine ⟨hgrows.trans hgrows' (Nat.le_refl _), hvalid, ⟨hs.bound, ?_⟩, ?_, ?_⟩
      · rw [hsize, Store.size_bodies_createBody]
        exact Nat.lt_of_lt_of_le (Nat.lt_succ_self _) (Nat.le_succ _)
      · rw [hfunction]
        simp
        have := hs.bound
        omega
      · rw [hfunction, hsize]
        simp
  · rintro failure s' (⟨rfl, -⟩ | ⟨rfl, -⟩ | ⟨rfl, -⟩)
    · exact Store.Grows.refl n _
    · exact Store.Grows.refl n _
    · exact hgrows

/-- The plan of the object that a callable manufactures. -/
def manufacturedPlan (s : Store) (callable : Callable) (kind : ObjectKind) (name : String)
    (flags : Flags) (location : Location) : IR.BodyPlan where
  kind := .callable (.suspended kind)
  name := name
  location := location
  provider := some callable.function
  qualifiedName := some (s.body callable.outer).qualifiedName
  flags := flags

theorem createObject_run (callable : Callable) (kind : ObjectKind) (name : String) (flags : Flags)
    (location : Location) (s : Store) :
    createObject callable kind name flags location s = .ok ⟨s.bodies.size⟩
      (s.withObject (manufacturedPlan s callable kind name flags location) callable.function) :=
  rfl

/-- The object of a callable shares what the function sees, and its code is pending, too. -/
theorem createObject_keeps {callable : Callable} (hs : Built n pending callable s)
    (kind : ObjectKind) (name : String) (flags : Flags) (location : Location) :
    Keeps n (createObject callable kind name flags location) s fun object s' =>
      Valid n (object :: callable.function :: pending) s' ∧ n ≤ object.index ∧
        object.index < s'.bodies.size := by
  unfold Keeps Ends
  rw [createObject_run]
  dsimp only
  let plan := manufacturedPlan s callable kind name flags location
  have hg := Store.Grows.withObject s plan callable.function
  have hlt : s.bodies.size < (s.withObject plan callable.function).bodies.size := by simp
  refine ⟨hg.mono hs.valid.bound, ⟨?wellFormed, ?bound, fun c hc hclt hp => ?coded⟩,
    hs.valid.bound, hlt⟩
  case wellFormed =>
    exact hs.valid.wellFormed.withObject hs.function.2 rfl (by simp [manufacturedPlan]) rfl
  case bound => exact Nat.le_trans hs.valid.bound hg.bodies
  case coded =>
    have hne : c ≠ ⟨s.bodies.size⟩ := fun he => hp (he ▸ List.mem_cons_self)
    have hold : c.index < s.bodies.size := by
      have hindex : c.index ≠ s.bodies.size := fun he => hne (congrArg BodyId.mk he)
      rw [Store.size_bodies_withObject] at hclt
      omega
    obtain ⟨block, hblock⟩ := Option.isSome_iff_exists.1
      (hs.valid.coded c hc hold fun hmem => hp (List.mem_cons_of_mem _ hmem))
    exact Option.isSome_iff_exists.2 ⟨block, hg.code c block hblock⟩

/-- The code body of a callable: the object's, if there is one. -/
theorem lambdaObject_keeps {callable : Callable} (hs : Built n pending callable s)
    (kind : CallableKind) (flags : Flags) (location : Location) :
    Keeps n (lambdaObject callable kind flags location) s fun object s' =>
      Valid n (object.toList ++ callable.function :: pending) s' ∧
        ∀ c ∈ object, n ≤ c.index ∧ c.index < s'.bodies.size := by
  unfold lambdaObject
  refine ends_ite.2 ⟨fun _ => ?_, fun _ => ?_⟩
  · refine (createObject_keeps hs .generator "<lambda>" flags location).bind
      fun object s' _ ⟨hvalid, hn, hlt⟩ => ?_
    refine keeps_pure ⟨hvalid, fun c hc => ?_⟩
    cases hc
    exact ⟨hn, hlt⟩
  · exact keeps_pure ⟨hs.valid, fun c hc => by cases hc⟩

theorem attachLambda_keeps {callable : Callable} {object : Option BodyId} (value : IR.Expr)
    (hs : Valid n (object.toList ++ callable.function :: pending) s)
    (hfunction : n ≤ callable.function.index) (hobject : ∀ c ∈ object, n ≤ c.index) :
    Keeps n (attachLambda callable object value) s fun _ s' => Valid n pending s' := by
  cases object with
  | none => exact keeps_attachCode hs hfunction rfl
  | some object =>
    exact (keeps_attachCode hs (hobject object rfl) rfl).bind fun _ _ _ hs' =>
      keeps_attachCode hs' hfunction rfl

theorem sound_keywordMapping {holder : BodyId}
    {lower : List String → Lowering (List (String × IR.Expr))}
    (h : ∀ names, Sound m b (lower names) fun _ => True) :
    Sound m b (keywordMapping holder lower) fun _ => True := by
  unfold keywordMapping
  refine (sound_query _).bind fun names _ => ?_
  split
  · exact sound_pure trivial
  · exact (h names).bind fun _ _ => sound_pure trivial

/-! ## Expressions -/

/-- A lambda, given that its parts are sound. -/
theorem sound_lambda {setting : Setting} {params : Params} {body : Surface.Expr}
    {location : Location} {kind : CallableKind} {flags : Flags}
    (hdefaults : ∀ m b, Sound m b (lowerExprs setting b location params.defaults) fun _ => True)
    (hkeywords : ∀ m b names,
      Sound m b (lowerKeywordDefaults setting b location names params.keywordDefaults)
        fun _ => True)
    (hbody : ∀ m b, Sound m b (lowerExpr setting b location body) fun _ => True) :
    Sound m b (do
      let callable ← buildCallable setting b kind "<lambda>" none flags params location
      let object ← lambdaObject callable kind flags location
      let defaults ← lowerExprs setting b location params.defaults
      let keywordDefaults ← keywordMapping callable.outer fun names =>
        lowerKeywordDefaults setting b location names params.keywordDefaults
      let value ← lowerExpr setting (object.getD callable.function) location body
      attachLambda callable object value
      return creation callable defaults keywordDefaults none) fun _ => True := by
  intro n pending s hn hs hb
  refine (buildCallable_keeps hs hb).bind fun callable s₁ hg₁ hbuilt => ?_
  refine (lambdaObject_keeps hbuilt kind flags location).bind fun object s₂ hg₂ ⟨hs₂, hobject⟩ => ?_
  have hb₂ := Nat.lt_of_lt_of_le hb (Nat.le_trans hg₁.bodies hg₂.bodies)
  refine (hdefaults m b n _ s₂ hn hs₂ hb₂).bind fun defaults s₃ hg₃ ⟨hs₃, _⟩ => ?_
  have hb₃ := Nat.lt_of_lt_of_le hb₂ hg₃.bodies
  refine (sound_keywordMapping (hkeywords m b) n _ s₃ hn hs₃ hb₃).bind
    fun keywordDefaults s₄ hg₄ ⟨hs₄, _⟩ => ?_
  have hcode : (object.getD callable.function).index < s₄.bodies.size := by
    have := hg₃.bodies
    have := hg₄.bodies
    cases object with
    | none =>
      have := hbuilt.function.2
      have := hg₂.bodies
      show callable.function.index < _
      omega
    | some object =>
      have := (hobject object rfl).2
      show object.index < _
      omega
  refine (hbody m _ n _ s₄ hn hs₄ hcode).bind fun value s₅ _ ⟨hs₅, _⟩ => ?_
  refine (attachLambda_keeps value hs₅ hbuilt.function.1 fun c hc => (hobject c hc).1).bind
    fun _ s₆ _ hs₆ => ?_
  exact keeps_pure ⟨hs₆, trivial⟩

mutual

theorem sound_lowerExpr (setting : Setting) : ∀ (e : Surface.Expr) (m : Nat) (b : BodyId)
    (location : Location), Sound m b (lowerExpr setting b location e) fun _ => True
  | .name id, m, b, location => by
    rw [lowerExpr]
    exact sound_reference b id
  | .constant value, m, b, location => by
    rw [lowerExpr]
    exact sound_pure trivial
  | .call callee args, m, b, location => by
    rw [lowerExpr]
    exact (sound_lowerExpr setting callee m b location).bind fun _ _ =>
      (sound_lowerExprs setting args m b location).bind fun _ _ => sound_pure trivial
  | .binary left op right, m, b, location => by
    rw [lowerExpr]
    exact (sound_lowerExpr setting left m b location).bind fun _ _ =>
      (sound_lowerExpr setting right m b location).bind fun _ _ => sound_pure trivial
  | .attribute value name, m, b, location => by
    rw [lowerExpr]
    exact (sound_lowerExpr setting value m b location).bind fun _ _ =>
      (sound_spell b name).bind fun _ _ => sound_pure trivial
  | .tuple items, m, b, location => by
    rw [lowerExpr]
    exact (sound_lowerExprs setting items m b location).bind fun _ _ => sound_pure trivial
  | .yield value, m, b, location => by
    rw [lowerExpr]
    refine (sound_kindOf b).bind fun kind _ => ?_
    split
    · exact (sound_lowerOption setting value m b location).bind fun _ _ => sound_pure trivial
    · exact sound_rejected
  | .yieldFrom value, m, b, location => by
    rw [lowerExpr]
    refine (sound_kindOf b).bind fun kind _ => ?_
    split
    · refine (sound_kindOf b).bind fun kind _ => ?_
      split
      · exact sound_rejected
      · exact (sound_lowerExpr setting value m b location).bind fun _ _ => sound_pure trivial
    · exact sound_rejected
  | .await value, m, b, location => by
    rw [lowerExpr]
    refine (sound_kindOf b).bind fun kind _ => ?_
    split
    · exact (sound_lowerExpr setting value m b location).bind fun _ _ => sound_pure trivial
    · exact sound_rejected
  | .lambda ⟨⟨positional, defaults, star, keywordOnly, keywordDefaults, doubleStar⟩, body, place⟩,
      m, b, location => by
    rw [lowerExpr, lowerLambda]
    exact sound_lambda (sound_lowerExprs setting defaults · · place)
      (sound_lowerKeywordDefaults setting keywordDefaults · · place)
      (sound_lowerExpr setting body · · place)

theorem sound_lowerExprs (setting : Setting) : ∀ (es : List Surface.Expr) (m : Nat) (b : BodyId)
    (location : Location), Sound m b (lowerExprs setting b location es) fun _ => True
  | [], m, b, location => by
    rw [lowerExprs]
    exact sound_pure trivial
  | first :: rest, m, b, location => by
    rw [lowerExprs]
    exact (sound_lowerExpr setting first m b location).bind fun _ _ =>
      (sound_lowerExprs setting rest m b location).bind fun _ _ => sound_pure trivial

theorem sound_lowerOption (setting : Setting) : ∀ (value : Option Surface.Expr) (m : Nat)
    (b : BodyId) (location : Location),
    Sound m b (lowerOption setting b location value) fun _ => True
  | none, m, b, location => by
    rw [lowerOption]
    exact sound_pure trivial
  | some value, m, b, location => by
    rw [lowerOption]
    exact (sound_lowerExpr setting value m b location).bind fun _ _ => sound_pure trivial

theorem sound_lowerKeywordDefaults (setting : Setting) :
    ∀ (values : List (Option Surface.Expr)) (m : Nat) (b : BodyId) (location : Location)
      (names : List String),
      Sound m b (lowerKeywordDefaults setting b location names values) fun _ => True
  | [], m, b, location, names => by
    cases names <;> exact sound_pure trivial
  | none :: rest, m, b, location, names => by
    cases names with
    | nil => exact sound_pure trivial
    | cons name names =>
      rw [lowerKeywordDefaults]
      exact sound_lowerKeywordDefaults setting rest m b location names
  | some value :: rest, m, b, location, names => by
    cases names with
    | nil => exact sound_pure trivial
    | cons name names =>
      rw [lowerKeywordDefaults]
      exact (sound_lowerExpr setting value m b location).bind fun _ _ =>
        (sound_lowerKeywordDefaults setting rest m b location names).bind fun _ _ =>
          sound_pure trivial

end

/-! ## Scopes -/

/-- A change of the store is a step. -/
theorem sound_modify {f : Store → Store}
    (hwf : ∀ s, s.WellFormed → b.index < s.bodies.size → (f s).WellFormed)
    (hg : ∀ n s, n ≤ m → Store.Grows n s (f s)) (hsize : ∀ s, (f s).bodies.size = s.bodies.size) :
    Sound m b (modify f) fun _ => True :=
  sound_of_store (g := fun s => ((), f s)) hwf hg hsize fun _ => rfl

theorem sound_refuseParameter (name : String) (declaration : OuterDeclaration)
    (location : Location) :
      Sound m b (refuseParameter b name declaration location) fun _ => True := by
  unfold refuseParameter
  refine (sound_query _).bind fun refused _ => ?_
  split
  · exact sound_reject
  · exact sound_pure trivial

theorem sound_declareGlobal (name : String) (location : Location) :
    Sound b.index b (declareGlobal b name location) fun _ => True := by
  unfold declareGlobal
  refine (sound_spell b name).bind fun name _ =>
    (sound_refuseParameter name .global location).bind fun _ _ => ?_
  exact sound_modify (fun s hs _ => hs.addGlobal) (fun n s hn => Store.Grows.addGlobal hn)
    fun s => Store.size_bodies_modifyBody s b _

theorem sound_resolveOuter (name : String) :
    Sound m b (resolveOuter b name) fun _ => True := by
  unfold resolveOuter
  refine (sound_query _).bind fun found _ => ?_
  cases found with
  | some owner => exact sound_pure trivial
  | none => exact (sound_resolve b name).bind fun _ _ => sound_pure trivial

theorem sound_declareNonlocal (name : String) (location : Location) :
    Sound b.index b (declareNonlocal b name location) fun _ => True := by
  unfold declareNonlocal
  refine (sound_spell b name).bind fun name _ =>
    (sound_refuseParameter name .nonlocal location).bind fun _ _ =>
      (sound_resolveOuter name).bind fun found _ => ?_
  split
  · exact sound_modify (fun s hs _ => hs.addNonlocal) (fun n s hn => Store.Grows.addNonlocal hn)
      fun s => Store.size_bodies_modifyBody s b _
  · exact sound_reject

theorem sound_declareBinding (name : String) :
    Sound m b (declareBinding b name) fun _ => True := by
  unfold declareBinding
  refine (sound_spell b name).bind fun name _ => (sound_query _).bind fun isGlobal _ => ?_
  split
  · exact sound_pure trivial
  · exact sound_modify (fun s hs hb => hs.declareLocal hb)
      (fun n s _ => Store.Grows.declareLocal n s b name) fun s =>
        Store.size_bodies_declareLocal s b name

theorem sound_openScope (statements : List Surface.Stmt) :
    Sound b.index b (openScope b statements) fun _ => True := by
  have hglobals : Sound b.index b ((Surface.globalNames statements).forM fun declared =>
      declareGlobal b declared.1 declared.2) fun _ => True :=
    sound_forM fun declared _ => sound_declareGlobal declared.1 declared.2
  have hnonlocals : Sound b.index b ((Surface.nonlocalNames statements).forM fun declared =>
      declareNonlocal b declared.1 declared.2) fun _ => True :=
    sound_forM fun declared _ => sound_declareNonlocal declared.1 declared.2
  have hbindings : Sound b.index b
      ((Surface.boundNames statements).forM fun name => declareBinding b name) fun _ => True :=
    sound_forM fun name _ => sound_declareBinding name
  unfold openScope
  refine (sound_kindOf b).bind fun kind _ => ?_
  dsimp only
  split
  · split
    · exact sound_rejected
    · exact hglobals.bind fun _ _ => hnonlocals.bind fun _ _ => sound_pure trivial
  · exact hglobals.bind fun _ _ => hnonlocals.bind fun _ _ => hbindings

/-! ## Definitions -/

/-- The statements of a body are lowered to code without releases. -/
def SoundStatements (lowerBody : BodyId → Lowering (List IR.Stmt)) : Prop :=
  ∀ m b, Sound m b (lowerBody b) fun lowered => IR.allQuiet lowered = true

variable {lowerBody : BodyId → Lowering (List IR.Stmt)}

theorem sound_lowerFrameWith (h : SoundStatements lowerBody) (statements : List Surface.Stmt)
    (code : CodeObject) :
    Sound b.index b (lowerFrameWith b statements code (lowerBody b))
      fun frame => IR.optionQuiet frame = true := by
  unfold lowerFrameWith
  refine (sound_openScope statements).bind fun _ _ =>
    (h b.index b).bind fun lowered hlowered => sound_pure ?_
  split
  · rfl
  · exact hlowered

theorem quiet_closeWith {terminal : IR.Stmt} (ht : terminal.quiet = true) {block : Option IR.Block}
    (hq : IR.optionQuiet block = true) : (IR.Block.closeWith terminal block).quiet = true := by
  cases block with
  | none =>
    show (terminal.quiet && true) = true
    rw [ht]
    rfl
  | some block =>
    show (if block.aborts then block else block.push terminal).quiet = true
    split
    · exact hq
    · show IR.allQuiet (block.statements ++ [terminal]) = true
      have hblock : IR.allQuiet block.statements = true := block.quiet_eq ▸ hq
      rw [IR.allQuiet_append, hblock, IR.allQuiet, ht]
      rfl

theorem sound_lowerHint (setting : Setting) (location : Location)
    (written : String × Surface.Expr) :
    Sound m b (lowerHint setting b location written) fun _ => True := by
  unfold lowerHint
  split
  · exact (sound_spell b _).bind fun _ _ =>
      (sound_lowerExpr setting _ m b location).bind fun _ _ => sound_pure trivial
  · exact (sound_pure trivial).bind fun _ (_ : True) =>
      (sound_lowerExpr setting _ m b location).bind fun _ _ => sound_pure trivial

theorem sound_lowerAnnotations (setting : Setting) (location : Location) (params : Params)
    (returns : Option Surface.Expr) :
    Sound m b (lowerAnnotations setting b location params returns) fun _ => True := by
  unfold lowerAnnotations
  dsimp only
  split
  · exact sound_pure trivial
  · exact (sound_mapM fun written _ => sound_lowerHint setting location written).bind
      fun _ _ => sound_pure trivial

theorem sound_lowerKeywordMapping (setting : Setting) (holder : BodyId) (location : Location)
    (params : Params) :
    Sound m b (lowerKeywordMapping setting b holder location params) fun _ => True :=
  sound_keywordMapping (sound_lowerKeywordDefaults setting params.keywordDefaults m b location)

theorem sound_bindDefinition (name : String) (value : IR.Expr) :
    Sound m b (bindDefinition b name value) fun statement => statement.quiet = true := by
  unfold bindDefinition
  exact (sound_spell b name).bind fun name _ => sound_bindName b name value

/-- The code body of a plain definition: a generator's function has its code by then. -/
theorem plainCodeBody_keeps {callable : Callable} (hs : Built n pending callable s)
    (kind : CallableKind) (d : Surface.Def) (flags : Flags) :
    Keeps n (plainCodeBody callable kind d flags) s fun c s' =>
      Valid n (c :: pending) s' ∧ n ≤ c.index ∧ c.index < s'.bodies.size := by
  unfold plainCodeBody
  split
  · exact keeps_pure ⟨hs.valid, hs.function⟩
  · refine (createObject_keeps hs .generator d.name flags d.location).bind
      fun object s₁ _ ⟨hs₁, hn, hlt⟩ => ?_
    have hswap : Valid n (callable.function :: object :: pending) s₁ :=
      ⟨hs₁.wellFormed, hs₁.bound, fun c hc hclt hp => hs₁.coded c hc hclt fun hmem =>
        hp (List.Perm.swap _ _ _ |>.subset hmem)⟩
    refine (keeps_attachCode hswap hs.function.1 rfl).bind fun _ s₂ hg₂ hs₂ => ?_
    exact keeps_pure ⟨hs₂, hn, Nat.lt_of_lt_of_le hlt hg₂.bodies⟩
  · exact keeps_throw

theorem quiet_plainCode (kind : CallableKind) {frame : Option IR.Block}
    (h : IR.optionQuiet frame = true) : (plainCode kind frame).quiet = true := by
  unfold plainCode
  split
  · exact quiet_closeWith rfl h
  · cases frame with
    | none => rfl
    | some block => exact h

theorem sound_lowerPlainDefWith (setting : Setting) (d : Surface.Def)
    (h : SoundStatements lowerBody) :
    Sound m b (lowerPlainDefWith setting b d lowerBody)
      fun statement => statement.quiet = true := by
  unfold lowerPlainDefWith
  intro n pending s hn hs hb
  dsimp only
  refine (buildCallable_keeps hs hb).bind fun callable s₁ hg₁ hbuilt => ?_
  refine (plainCodeBody_keeps hbuilt _ d _).bind fun c s₂ hg₂ ⟨hs₂, hnc, hc₂⟩ => ?_
  have hb₂ := Nat.lt_of_lt_of_le hb (Nat.le_trans hg₁.bodies hg₂.bodies)
  refine (sound_lowerExprs setting _ m b _ n _ s₂ hn hs₂ hb₂).bind
    fun decorators s₃ hg₃ ⟨hs₃, _⟩ => ?_
  have hb₃ := Nat.lt_of_lt_of_le hb₂ hg₃.bodies
  refine (sound_lowerExprs setting _ m b _ n _ s₃ hn hs₃ hb₃).bind
    fun defaults s₄ hg₄ ⟨hs₄, _⟩ => ?_
  have hb₄ := Nat.lt_of_lt_of_le hb₃ hg₄.bodies
  refine (sound_lowerKeywordMapping setting _ _ _ n _ s₄ hn hs₄ hb₄).bind
    fun keywordDefaults s₅ hg₅ ⟨hs₅, _⟩ => ?_
  have hb₅ := Nat.lt_of_lt_of_le hb₄ hg₅.bodies
  have hc₅ := Nat.lt_of_lt_of_le hc₂
    (Nat.le_trans hg₃.bodies (Nat.le_trans hg₄.bodies hg₅.bodies))
  refine (sound_lowerFrameWith h _ _ n _ s₅ hnc hs₅ hc₅).bind fun frame s₆ hg₆ ⟨hs₆, hframe⟩ => ?_
  refine (keeps_attachCode hs₆ hnc (quiet_plainCode _ hframe)).bind fun _ s₇ hg₇ hs₇ => ?_
  have hb₇ := Nat.lt_of_lt_of_le hb₅ (Nat.le_trans hg₆.bodies hg₇.bodies)
  have hrest : Sound m b (do
      let annotations ← lowerAnnotations setting b d.location d.params d.returns
      let scope := (← kindOf b).scope
      bindDefinition b d.name (decorate (setting.dialect.addImplicit d.name scope decorators)
        (creation callable defaults keywordDefaults annotations)))
      fun statement => statement.quiet = true :=
    (sound_lowerAnnotations setting d.location d.params d.returns).bind fun _ _ =>
      (sound_kindOf b).bind fun _ _ => sound_bindDefinition d.name _
  exact hrest n pending s₇ hn hs₇ hb₇

theorem sound_lowerAsyncDefWith (setting : Setting) (d : Surface.Def)
    (h : SoundStatements lowerBody) :
    Sound m b (lowerAsyncDefWith setting b d lowerBody)
      fun statement => statement.quiet = true := by
  unfold lowerAsyncDefWith
  intro n pending s hn hs hb
  dsimp only
  split
  · exact keeps_throw
  · rename_i objectKind _
    refine (buildCallable_keeps hs hb).bind fun callable s₁ hg₁ hbuilt => ?_
    refine (createObject_keeps hbuilt objectKind d.name _ d.location).bind
      fun object s₂ hg₂ ⟨hs₂, hno, ho₂⟩ => ?_
    have hb₂ := Nat.lt_of_lt_of_le hb (Nat.le_trans hg₁.bodies hg₂.bodies)
    refine (sound_lowerExprs setting _ m b _ n _ s₂ hn hs₂ hb₂).bind
      fun decorators s₃ hg₃ ⟨hs₃, _⟩ => ?_
    have hb₃ := Nat.lt_of_lt_of_le hb₂ hg₃.bodies
    refine (sound_lowerExprs setting _ m b _ n _ s₃ hn hs₃ hb₃).bind
      fun defaults s₄ hg₄ ⟨hs₄, _⟩ => ?_
    have ho₄ := Nat.lt_of_lt_of_le ho₂ (Nat.le_trans hg₃.bodies hg₄.bodies)
    refine (sound_lowerFrameWith h _ _ n _ s₄ hno hs₄ ho₄).bind
      fun frame s₅ hg₅ ⟨hs₅, hframe⟩ => ?_
    refine (keeps_attachCode hs₅ hno (quiet_closeWith rfl hframe)).bind fun _ s₆ hg₆ hs₆ => ?_
    have hb₆ := Nat.lt_of_lt_of_le hb₃
      (Nat.le_trans hg₄.bodies (Nat.le_trans hg₅.bodies hg₆.bodies))
    refine (sound_lowerAnnotations setting _ _ _ n _ s₆ hn hs₆ hb₆).bind
      fun annotations s₇ hg₇ ⟨hs₇, _⟩ => ?_
    have hb₇ := Nat.lt_of_lt_of_le hb₆ hg₇.bodies
    refine (sound_lowerKeywordMapping setting _ _ _ n _ s₇ hn hs₇ hb₇).bind
      fun keywordDefaults s₈ hg₈ ⟨hs₈, _⟩ => ?_
    refine (keeps_attachCode hs₈ hbuilt.function.1 rfl).bind fun _ s₉ hg₉ hs₉ => ?_
    have hb₉ := Nat.lt_of_lt_of_le hb₇ (Nat.le_trans hg₈.bodies hg₉.bodies)
    have hcopy : Sound callable.function.index b
        (modify fun s => s.copyNonlocals object callable.function) fun _ => True :=
      sound_modify (fun s hs _ => hs.copyNonlocals) (fun n s hn => Store.Grows.copyNonlocals hn)
        fun s => Store.size_bodies_modifyBody s _ _
    refine (hcopy n _ s₉ hbuilt.function.1 hs₉ hb₉).bind fun _ s₁₀ hg₁₀ ⟨hs₁₀, _⟩ => ?_
    exact sound_bindDefinition d.name _ n pending s₁₀ hn hs₁₀
      (Nat.lt_of_lt_of_le hb₉ hg₁₀.bodies)

theorem sound_lowerDefWith (setting : Setting) (d : Surface.Def) (h : SoundStatements lowerBody) :
    Sound m b (lowerDefWith setting b d lowerBody) fun statement => statement.quiet = true := by
  unfold lowerDefWith
  split
  · exact sound_lowerAsyncDefWith setting d h
  · exact sound_lowerPlainDefWith setting d h

theorem sound_lowerClassDefWith (setting : Setting) (d : Surface.ClassDef)
    (h : SoundStatements lowerBody) :
    Sound m b (lowerClassDefWith setting b d lowerBody)
      fun statement => statement.quiet = true := by
  unfold lowerClassDefWith
  intro n pending s hn hs hb
  refine (sound_lowerExprs setting _ m b _ n _ s hn hs hb).bind
    fun decorators s₁ hg₁ ⟨hs₁, _⟩ => ?_
  have hb₁ := Nat.lt_of_lt_of_le hb hg₁.bodies
  refine (sound_lowerExprs setting _ m b _ n _ s₁ hn hs₁ hb₁).bind fun bases s₂ hg₂ ⟨hs₂, _⟩ => ?_
  have hb₂ := Nat.lt_of_lt_of_le hb₁ hg₂.bodies
  let plan : IR.BodyPlan :=
    { kind := .classBody
      name := d.name
      location := d.location
      provider := some b
      doc := Surface.docstring? d.body }
  have hcreate : Keeps n (createBody plan) s₂ fun c s' =>
      Valid n (c :: pending) s' ∧ n ≤ c.index ∧ c.index < s'.bodies.size := by
    refine ⟨(Store.Grows.createBody s₂ plan).mono hs₂.bound, ?_, hs₂.bound, by simp⟩
    exact valid_createBody hs₂ (fun p hp => by cases hp; exact hb₂) (by simp [plan])
      (by simp [plan]) List.nodup_nil
  refine hcreate.bind fun c s₃ hg₃ ⟨hs₃, hnc, hc₃⟩ => ?_
  refine (sound_openScope _ n _ s₃ hnc hs₃ hc₃).bind fun _ s₄ hg₄ ⟨hs₄, _⟩ => ?_
  refine (h m c n _ s₄ hn hs₄ (Nat.lt_of_lt_of_le hc₃ hg₄.bodies)).bind
    fun lowered s₅ hg₅ ⟨hs₅, hlowered⟩ => ?_
  have hquiet : (IR.Block.ofStatements lowered).quiet = true := hlowered
  refine (keeps_attachCode hs₅ hnc hquiet).bind fun _ s₆ hg₆ hs₆ => ?_
  have hb₆ := Nat.lt_of_lt_of_le hb₂ (Nat.le_trans hg₃.bodies
    (Nat.le_trans hg₄.bodies (Nat.le_trans hg₅.bodies hg₆.bodies)))
  exact sound_bindDefinition d.name _ n pending s₆ hn hs₆ hb₆

/-! ## Statements -/

theorem sound_checkReturn (location : Location) (hasValue : Bool) :
    Sound m b (checkReturn b location hasValue) fun _ => True := by
  unfold checkReturn
  refine (sound_kindOf b).bind fun kind _ => ?_
  split
  · exact sound_reject
  · exact sound_reject
  · split
    · exact sound_reject
    · exact sound_pure trivial
  · exact sound_pure trivial

theorem quiet_returnStmt (kind : BodyKind) (value : Option IR.Expr) :
    (returnStmt kind value).quiet = true := by
  unfold returnStmt
  split <;> rfl

theorem quiet_ofNonempty {statements : List IR.Stmt} (h : IR.allQuiet statements = true) :
    IR.optionQuiet (IR.Block.ofNonempty? statements) = true := by
  unfold IR.Block.ofNonempty?
  split
  · rfl
  · exact h

mutual

theorem sound_lowerStmt (setting : Setting) : ∀ (statement : Surface.Stmt) (m : Nat) (b : BodyId),
    Sound m b (lowerStmt setting b statement) fun lowered => IR.allQuiet lowered.toList = true
  | ⟨kind, location⟩, m, b => by
    rw [lowerStmt]
    exact sound_lowerKind setting kind m b location

theorem sound_lowerKind (setting : Setting) : ∀ (kind : Surface.StmtKind) (m : Nat) (b : BodyId)
    (location : Location),
    Sound m b (lowerKind setting b location kind) fun lowered => IR.allQuiet lowered.toList = true
  | .expr value, m, b, location => by
    rw [lowerKind]
    exact (sound_lowerExpr setting value m b location).bind fun _ _ => sound_pure rfl
  | .assign target value, m, b, location => by
    rw [lowerKind]
    refine (sound_lowerExpr setting value m b location).bind fun source _ =>
      (sound_spell b target).bind fun name _ =>
        (sound_bindName b name source).bind fun statement hquiet => sound_pure ?_
    show (statement.quiet && true) = true
    rw [hquiet]
    rfl
  | .pass, m, b, location => by
    rw [lowerKind]
    exact sound_pure rfl
  | .global _, m, b, location => by
    rw [lowerKind]
    exact sound_pure rfl
  | .nonlocal _, m, b, location => by
    rw [lowerKind]
    exact sound_pure rfl
  | .ret value, m, b, location => by
    rw [lowerKind]
    refine (sound_checkReturn location _).bind fun _ _ =>
      (sound_lowerOption setting value m b location).bind fun value _ =>
        (sound_kindOf b).bind fun kind _ => sound_pure ?_
    show ((returnStmt kind value).quiet && true) = true
    rw [quiet_returnStmt]
    rfl
  | .raise value, m, b, location => by
    rw [lowerKind]
    exact (sound_lowerOption setting value m b location).bind fun _ _ => sound_pure rfl
  | .branch test body orelse, m, b, location => by
    rw [lowerKind]
    refine (sound_lowerExpr setting test m b location).bind fun condition _ =>
      (sound_lowerStmts setting body m b).bind fun yes hyes =>
        (sound_lowerStmts setting orelse m b).bind fun no hno => sound_pure ?_
    show (IR.optionQuiet _ && IR.optionQuiet _ && true) = true
    rw [quiet_ofNonempty hyes, quiet_ofNonempty hno]
    rfl
  | .loop test body, m, b, location => by
    rw [lowerKind]
    refine (sound_lowerExpr setting test m b location).bind fun condition _ =>
      (sound_lowerStmts setting body m b).bind fun body hbody => sound_pure ?_
    show (IR.optionQuiet _ && true) = true
    rw [quiet_ofNonempty hbody]
    rfl
  | .define ⟨name, params, body, decorators, returns, isAsync, place⟩, m, b, location => by
    rw [lowerKind, lowerDef]
    refine (sound_lowerDefWith setting _ (sound_lowerUndocumented setting body)).bind
      fun statement hquiet => sound_pure ?_
    show (statement.quiet && true) = true
    rw [hquiet]
    rfl
  | .defineClass ⟨name, bases, body, decorators, place⟩, m, b, location => by
    rw [lowerKind, lowerClassDef]
    refine (sound_lowerClassDefWith setting _ (sound_lowerUndocumented setting body)).bind
      fun statement hquiet => sound_pure ?_
    show (statement.quiet && true) = true
    rw [hquiet]
    rfl

theorem sound_lowerStmts (setting : Setting) : ∀ (statements : List Surface.Stmt) (m : Nat)
    (b : BodyId),
    Sound m b (lowerStmts setting b statements) fun lowered => IR.allQuiet lowered = true
  | [], m, b => by
    rw [lowerStmts]
    exact sound_pure rfl
  | first :: rest, m, b => by
    rw [lowerStmts]
    refine (sound_lowerStmt setting first m b).bind fun head hhead =>
      (sound_lowerStmts setting rest m b).bind fun tail htail => sound_pure ?_
    rw [IR.allQuiet_append, hhead, htail]
    rfl

theorem sound_lowerUndocumented (setting : Setting) : ∀ (statements : List Surface.Stmt) (m : Nat)
    (b : BodyId),
    Sound m b (lowerUndocumented setting b statements) fun lowered => IR.allQuiet lowered = true
  | [], m, b => by
    rw [lowerUndocumented]
    exact sound_pure rfl
  | first :: rest, m, b => by
    rw [lowerUndocumented]
    split
    · exact sound_lowerStmts setting rest m b
    · refine (sound_lowerStmt setting first m b).bind fun head hhead =>
        (sound_lowerStmts setting rest m b).bind fun tail htail => sound_pure ?_
      rw [IR.allQuiet_append, hhead, htail]
      rfl

end

end Lowering

end DefinitionLowering
