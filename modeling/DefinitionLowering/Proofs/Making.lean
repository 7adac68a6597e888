import DefinitionLowering.Proofs.Entering
import DefinitionLowering.Proofs.Stages

/-!
# The bodies of a callable

Building a callable creates its outer body and, when there are tuples among its parameters, a
delegate.  `Stands` says what is left of that in any later store: what is settled about the two
bodies (`Planned`) and, for a wrapper, its code, which takes variables of the wrapper apart and
calls the delegate (`Unpacking.Within`).  `buildCallable_stands` is the theorem about it.
-/

namespace DefinitionLowering

open IR (BodyId VariableId Store)
open Surface (Pattern Params)

/-! ## What is settled about a body -/

/-- A body was created from a plan. -/
structure Planned (s : Store) (b : BodyId) (plan : IR.BodyPlan) : Prop where
  created : b.index < s.bodies.size
  kind : (s.body b).kind = plan.kind
  name : (s.body b).name = plan.name
  provider : (s.body b).provider = plan.provider
  flags : (s.body b).flags = plan.flags
  doc : (s.body b).doc = plan.doc
  signature : (s.body b).signature = plan.signature
  location : (s.body b).location = plan.location
  info : (s.body b).info = plan.info

section Planned

variable {n : Nat} {s s' : Store} {b : BodyId} {plan : IR.BodyPlan}

theorem Planned.congr (h : Planned s b plan) (hb : b.index < s'.bodies.size)
    (hplan : (s'.body b).plan = (s.body b).plan) : Planned s' b plan := by
  have hview : ∀ {α : Type} (view : IR.Body → α), (∀ body, view body.plan = view body) →
      view (s'.body b) = view (s.body b) := by
    intro α view hf
    rw [← hf, ← hf (s.body b), hplan]
  exact ⟨hb, (hview IR.Body.kind fun _ => rfl).trans h.kind,
    (hview IR.Body.name fun _ => rfl).trans h.name,
    (hview IR.Body.provider fun _ => rfl).trans h.provider,
    (hview IR.Body.flags fun _ => rfl).trans h.flags,
    (hview IR.Body.doc fun _ => rfl).trans h.doc,
    (hview IR.Body.signature fun _ => rfl).trans h.signature,
    (hview IR.Body.location fun _ => rfl).trans h.location,
    (hview IR.Body.info fun _ => rfl).trans h.info⟩

theorem Planned.grow (h : Planned s b plan) (hg : Store.Grows n s s') : Planned s' b plan :=
  h.congr (Nat.lt_of_lt_of_le h.created hg.bodies) (hg.plan b h.created)

theorem planned_createBody (s : Store) (plan : IR.BodyPlan) :
    Planned (s.createBody plan).2 ⟨s.bodies.size⟩ plan := by
  refine ⟨by simp, ?_, ?_, ?_, ?_, ?_, ?_, ?_, ?_⟩ <;> rw [Store.body_createBody_self]

end Planned

/-! ## Variables that belong to a body -/

namespace IR

/-- An expression that reads a variable, at most taking an element or an iterator. -/
inductive Expr.Accesses (known : VariableId → Prop) : Expr → Prop
  | var {v : VariableId} (h : known v) : Accesses known (.var v)
  | unpack {source : Expr} (count expected : Nat) (h : Accesses known source) :
    Accesses known (.unpack source count expected)
  | iterator {source : Expr} (h : Accesses known source) : Accesses known (.iterator source)

theorem Expr.Accesses.mono {known known' : VariableId → Prop} (hk : ∀ v, known v → known' v)
    {e : Expr} (h : e.Accesses known) : e.Accesses known' := by
  induction h with
  | var h => exact .var (hk _ h)
  | unpack count expected _ ih => exact .unpack count expected ih
  | iterator _ ih => exact .iterator ih

/-- A variable that a body sees or has for a temporary. -/
def Store.Knows (s : Store) (b : BodyId) (v : VariableId) : Prop :=
  v ∈ s.visible b ∨ v ∈ s.temporaries b

/-- A body keeps its temporaries. -/
theorem Store.mem_temporaries_grow {n : Nat} {s t : Store} {b : BodyId} {v : VariableId}
    (hv : v ∈ s.temporaries b) (hs : s.WellFormed) (hg : Store.Grows n s t) (ht : t.WellFormed) :
    v ∈ t.temporaries b := by
  obtain ⟨hlt, howner, hkind⟩ := hs.scratch b v hv
  have hlisted := ht.listed v (Nat.lt_of_lt_of_le hlt hg.vars)
  rw [hg.var v hlt, if_pos hkind, howner] at hlisted
  exact hlisted

/-- A body goes on knowing a variable. -/
theorem Store.Knows.grow {n : Nat} {s t : Store} {b : BodyId} {v : VariableId} (h : s.Knows b v)
    (hs : s.WellFormed) (hg : Store.Grows n s t) (ht : t.WellFormed) : t.Knows b v :=
  h.imp (fun hv => (hg.visible b).subset hv) fun hv => mem_temporaries_grow hv hs hg ht

theorem Store.Knows.withTemporaries {s : Store} {b : BodyId} {v : VariableId} (h : s.Knows b v)
    (hb : b.index < s.bodies.size) (names : List String) :
      (s.withTemporaries b names).Knows b v := by
  rcases h with hv | hv
  · exact Or.inl (by rw [Store.visible_withTemporaries]; exact hv)
  · right
    rw [Store.temporaries, Store.body_withTemporaries_self hb]
    exact List.mem_append_left _ hv

theorem Store.knows_newTemporary {s : Store} {b : BodyId} (hb : b.index < s.bodies.size)
    (name : String) : (s.withTemporaries b [name]).Knows b ⟨s.vars.size⟩ := by
  right
  rw [Store.temporaries, Store.body_withTemporaries_self hb]
  exact List.mem_append_right _ List.mem_cons_self

end IR

namespace Lowering

/-! ## The code of a wrapper -/

/-- Unpacking code reads and assigns known variables only, and does nothing else. -/
structure Unpacking.Within (u : Unpacking) (known : VariableId → Prop) : Prop where
  statements : ∀ statement ∈ u.statements,
    (∃ v e, statement = .assignVariable v e ∧ known v ∧ e.Accesses known) ∨
      ∃ v count, statement = .checkExhausted (.var v) count ∧ known v
  accesses : ∀ e ∈ u.accesses, ∃ v, e = .var v ∧ known v

theorem Unpacking.Within.mono {u : Unpacking} {known known' : VariableId → Prop}
    (h : u.Within known) (hk : ∀ v, known v → known' v) : u.Within known' where
  statements statement hs := (h.statements statement hs).imp
    (fun ⟨v, e, he, hv, ha⟩ => ⟨v, e, he, hk v hv, ha.mono hk⟩)
    (fun ⟨v, count, he, hv⟩ => ⟨v, count, he, hk v hv⟩)
  accesses e he := by
    obtain ⟨v, hev, hv⟩ := h.accesses e he
    exact ⟨v, hev, hk v hv⟩

/-- Unpacking code in sequence. -/
theorem Unpacking.Within.append {u u' : Unpacking} {known : VariableId → Prop} {iterators : Nat}
    (h : u.Within known) (h' : u'.Within known) :
    (Unpacking.mk (u.statements ++ u'.statements) (u.accesses ++ u'.accesses) iterators).Within
      known where
  statements statement hs :=
    (List.mem_append.1 hs).elim (h.statements statement) (h'.statements statement)
  accesses e he := (List.mem_append.1 he).elim (h.accesses e) (h'.accesses e)

section Wrapper

variable {b : BodyId} {known : Store → VariableId → Prop}

/-- What is known of variables of a body stays known when the body gets temporaries, and these are
known, too. -/
structure Scratches (b : BodyId) (known : Store → VariableId → Prop) : Prop where
  more : ∀ {s : Store} {v}, s.CanScratch b → known s v →
    ∀ names, known (s.withTemporaries b names) v
  new : ∀ {s : Store}, s.CanScratch b → ∀ name, known (s.withTemporaries b [name]) ⟨s.vars.size⟩

theorem scratches_knows (b : BodyId) : Scratches b fun s => s.Knows b :=
  ⟨fun hs hv => hv.withTemporaries hs.created, fun hs => IR.Store.knows_newTemporary hs.created⟩

/-- A step that takes something apart gives code within known variables; all it adds are
temporaries. -/
def UnpacksIn (b : BodyId) (known : Store → VariableId → Prop) (x : Lowering Unpacking)
    (s : Store) : Prop :=
  Ends x s (fun u s' => u.Within (known s') ∧ ∃ names, s' = s.withTemporaries b names)
    fun _ _ => True

mutual

theorem unpack_within (hk : Scratches b known) : ∀ (pattern : Pattern) {source : IR.Expr}
    {s : Store} (number : Nat), s.CanScratch b → source.Accesses (known s) →
      UnpacksIn b known (unpack b source number pattern) s
  | .name param, source, s, number, hs, hsource => by
    unfold UnpacksIn
    rw [unpack, ends_bind, ends_spell, ends_bind]
    refine (newTemporary_store _).weaken ?_ fun _ _ _ => trivial
    rintro v s' ⟨rfl, rfl⟩
    have hknown := hk.new hs ("tmp_" ++ s.spell b param.name)
    have hmore := fun v (hv : known s v) => hk.more hs hv ["tmp_" ++ s.spell b param.name]
    refine ⟨⟨fun statement hst => Or.inl ?_, fun e he => ?_⟩, _, rfl⟩
    · exact ⟨_, source, List.mem_singleton.1 hst, hknown, hsource.mono hmore⟩
    · exact ⟨_, List.mem_singleton.1 he, hknown⟩
  | .tuple elements, source, s, number, hs, hsource => by
    unfold UnpacksIn
    rw [unpack, ends_bind]
    refine (newTemporary_store _).weaken ?_ fun _ _ _ => trivial
    rintro iterator s₁ ⟨rfl, rfl⟩
    have hs₁ := hs.withTemporaries ["arg_iter_" ++ number.repr]
    have hknown := hk.new hs ("arg_iter_" ++ number.repr)
    have hmore := fun v (hv : known s v) => hk.more hs hv ["arg_iter_" ++ number.repr]
    rw [ends_bind]
    refine (unpackElements_within hk elements _ _ _ hs₁ hknown).weaken ?_ fun _ _ _ => trivial
    rintro inner s₂ ⟨hinner, names, rfl⟩
    have hmore₂ := fun v hv => hk.more (v := v) hs₁ hv names
    have hiterator := hmore₂ _ hknown
    refine ⟨⟨fun statement hst => ?_, hinner.accesses⟩, _, IR.Store.withTemporaries_append⟩
    rcases List.mem_append.1 hst with hst | hst
    · rcases List.mem_cons.1 hst with rfl | hst
      · exact Or.inl ⟨_, _, rfl, hiterator, .iterator ((hsource.mono hmore).mono hmore₂)⟩
      · exact hinner.statements statement hst
    · exact Or.inr ⟨_, _, List.mem_singleton.1 hst, hiterator⟩

theorem unpackElements_within (hk : Scratches b known) : ∀ (patterns : List Pattern)
    {iterator : VariableId} {s : Store} (expected count number : Nat), s.CanScratch b →
      known s iterator →
      UnpacksIn b known (unpackElements b iterator expected count number patterns) s
  | [], iterator, s, expected, count, number, _, _ => by
    unfold UnpacksIn
    rw [unpackElements, ends_pure]
    exact ⟨⟨fun _ h => absurd h List.not_mem_nil, fun _ h => absurd h List.not_mem_nil⟩,
      [], IR.Store.withTemporaries_nil.symm⟩
  | first :: rest, iterator, s, expected, count, number, hs, hiterator => by
    unfold UnpacksIn
    rw [unpackElements, ends_bind]
    have hsource : (IR.Expr.unpack (.var iterator) count expected).Accesses (known s) :=
      .unpack _ _ (.var hiterator)
    refine (unpack_within hk first _ hs hsource).weaken ?_ fun _ _ _ => trivial
    rintro head s₁ ⟨hhead, names, rfl⟩
    have hs₁ := hs.withTemporaries names
    rw [ends_bind]
    refine (unpackElements_within hk rest _ _ _ hs₁ (hk.more hs hiterator names)).weaken ?_
      fun _ _ _ => trivial
    rintro tail s₂ ⟨htail, more, rfl⟩
    exact ⟨(hhead.mono fun v hv => hk.more hs₁ hv more).append htail, _,
      IR.Store.withTemporaries_append⟩

end

/-- **A wrapper takes its own variables apart and touches nothing else.** -/
theorem unpackSlots_within {placeholders : List Placeholder} : ∀ (slots : List String) {s : Store}
    (number : Nat), s.CanScratch b →
      UnpacksIn b (fun s => s.Knows b) (unpackSlots b placeholders number slots) s
  | [], s, number, _ => by
    unfold UnpacksIn
    rw [unpackSlots, ends_pure]
    exact ⟨⟨fun _ h => absurd h List.not_mem_nil, fun _ h => absurd h List.not_mem_nil⟩,
      [], IR.Store.withTemporaries_nil.symm⟩
  | slot :: rest, s, number, hs => by
    unfold UnpacksIn
    rw [unpackSlots, ends_bind, slotVariable, ends_bind, ends_query]
    cases hf : s.find? b slot with
    | none => trivial
    | some v =>
      have hv : s.Knows b v := Or.inl (IR.Store.find?_eq_some hf).1
      have hrest : ∀ x, UnpacksIn b (fun s => s.Knows b) x s →
          UnpacksIn b (fun s => s.Knows b) (do
            let head ← x
            let tail ← unpackSlots b placeholders head.iterators rest
            return ⟨head.statements ++ tail.statements, head.accesses ++ tail.accesses,
              tail.iterators⟩) s := by
        intro x hx
        unfold UnpacksIn
        rw [ends_bind]
        refine hx.weaken ?_ fun _ _ _ => trivial
        rintro head s₁ ⟨hhead, names, rfl⟩
        have hs₁ := hs.withTemporaries names
        rw [ends_bind]
        refine (unpackSlots_within rest _ hs₁).weaken ?_ fun _ _ _ => trivial
        rintro tail s₂ ⟨htail, more, rfl⟩
        exact ⟨(hhead.mono fun v hv => hv.withTemporaries hs₁.created more).append htail, _,
          IR.Store.withTemporaries_append⟩
      dsimp only
      rw [ends_pure]
      cases Placeholder.elementsOf? placeholders slot with
      | some elements =>
        exact hrest _ (unpack_within (scratches_knows b) (.tuple elements) number hs (.var hv))
      | none =>
        refine hrest _ ⟨⟨fun _ h => absurd h List.not_mem_nil, fun e he => ?_⟩, [],
          IR.Store.withTemporaries_nil.symm⟩
        exact ⟨v, List.mem_singleton.1 he, hv⟩

end Wrapper

/-! ## Building a callable -/

variable {setting : Setting} {provider : BodyId} {kind : CallableKind} {name : String}
  {doc : Option String} {flags : Flags} {params : Params} {location : Location}
  {made : Callable} {s s' t : Store}

/-- The bodies of a callable in a later store. -/
structure Stands (t : Store) (provider : BodyId) (name : String) (doc : Option String)
    (flags : Flags) (params : Params) (location : Location) (made : Callable) : Prop where
  outer : Planned t made.outer (functionPlan provider name
    (params.rawSignature (t.spell provider) name) flags doc location)
  function : (params.positional.any Pattern.isTuple = false ∧ made.function = made.outer) ∨
    params.positional.any Pattern.isTuple = true ∧
      Planned t made.function (delegatePlan made.outer name
        (leafNames (t.spell provider) params.formals) flags doc location) ∧
      ∃ u vars, (t.body made.outer).code =
          some ((forwarding u made.function made.code).releasing vars) ∧
        u.Within (t.Knows made.outer) ∧ ∀ v ∈ vars, v ∈ t.temporaries made.outer

theorem Stands.function_kind (h : Stands t provider name doc flags params location made) :
    (t.body made.function).kind = .function := by
  rcases h.function with ⟨-, heq⟩ | ⟨-, hplanned, -⟩
  · rw [heq]
    exact h.outer.kind
  · exact hplanned.kind

/-- The bodies of a callable where it is built. -/
theorem buildCallable_bodies (hs : s.WellFormed) (hp : provider.index < s.bodies.size)
    (hrun : buildCallable setting provider kind name doc flags params location s = .ok made s') :
    made.outer = ⟨s.bodies.size⟩ ∧
      ((made.function = made.outer ∧ s'.bodies.size = s.bodies.size + 1) ∨
        made.function = ⟨s.bodies.size + 1⟩ ∧ s'.bodies.size = s.bodies.size + 2) := by
  obtain ⟨hsig, houter, hcases⟩ := (buildCallable_spec hs.ordered hp).of_ok hrun
  obtain ⟨-, hn⟩ := signature_eq_ok hsig
  refine ⟨houter, ?_⟩
  rcases hcases with ⟨-, hfunction, rfl⟩ | ⟨-, hrun⟩
  · exact Or.inl ⟨hfunction, by simp⟩
  · have hfresh := isFresh_createBody flags doc location hs.ordered hp hn
    rw [houter] at hrun
    obtain ⟨hfunction, hsize, -⟩ := createDelegate_bodies hfresh hrun
    refine Or.inr ⟨by rw [hfunction]; simp, by rw [hsize]; simp⟩

/-- **What building a callable leaves.** -/
theorem buildCallable_stands (hs : s.WellFormed) (hp : provider.index < s.bodies.size)
    (h : Ran s.bodies.size (buildCallable setting provider kind name doc flags params location) s
      made s') (hg : Store.Grows 0 s' t) (ht : t.WellFormed) :
    Stands t provider name doc flags params location made := by
  obtain ⟨outer, function, code⟩ := made
  obtain ⟨hsig, rfl, hcases⟩ := (buildCallable_spec hs.ordered hp).of_ok h.run
  obtain ⟨-, hn⟩ := signature_eq_ok hsig
  have hspell : t.spell provider = s.spell provider :=
    ((h.grows.mono (Nat.zero_le _)).trans hg (Nat.le_refl _)).spell hs.ordered hp
  let plan := functionPlan provider name (params.rawSignature (s.spell provider) name) flags doc
    location
  have hplanned := planned_createBody s plan
  rcases hcases with ⟨htuple, hfunction, rfl⟩ | ⟨htuple, hrun⟩
  · refine ⟨?_, Or.inl ⟨htuple, hfunction⟩⟩
    rw [hspell]
    exact hplanned.grow hg
  · have hfresh := isFresh_createBody flags doc location hs.ordered hp hn
    obtain ⟨-, -, u, hunpack, hs'⟩ := (createDelegate_spec hfresh).of_ok hrun
    obtain ⟨hfunction, hsize, hothers, ⟨temporaries, block, hwrapper⟩, -⟩ :=
      createDelegate_bodies hfresh hrun
    let inner := delegatePlan ⟨s.bodies.size⟩ name
      (leafNames (s.spell provider) params.formals) flags doc location
    let filled := ((s.createBody plan).2.createBody inner).2.withTemporaries ⟨s.bodies.size⟩
      (scratchNames (s.spell provider) params.formals)
    have hcan := (hfresh.createBody inner).1
    have hscratch : filled.CanScratch ⟨s.bodies.size⟩ := hcan.withTemporaries _
    obtain ⟨hwithin, -⟩ := (unpackSlots_within (params.rawSignature (s.spell provider) name).slots
      0 hcan).of_ok hunpack
    have hself : s'.body ⟨s.bodies.size⟩ = { filled.body ⟨s.bodies.size⟩ with
        code := some (wrapperCode filled ⟨s.bodies.size⟩ function code u) } := by
      rw [hs']
      exact IR.Store.body_modifyBody_self hscratch.created
    have hne : function ≠ ⟨s.bodies.size⟩ := by
      dsimp only at hfunction
      rw [hfunction]
      simp
    refine ⟨?_, Or.inr ⟨htuple, ?_, u, sortByName filled (filled.temporaries ⟨s.bodies.size⟩), ?_,
      ?_, fun v hv => ?_⟩⟩
    · rw [hspell]
      refine (hplanned.congr ?_ ?_).grow hg
      · rw [hsize, IR.Store.size_bodies_createBody]
        exact Nat.lt_of_lt_of_le (Nat.lt_succ_self _) (Nat.le_succ _)
      · rw [hwrapper]
        rfl
    · rw [hspell]
      refine Planned.grow (s := s') ?_ hg
      have hdelegate := planned_createBody (s.createBody plan).2 inner
      dsimp only at hfunction ⊢
      rw [← hfunction] at hdelegate
      refine hdelegate.congr (by rw [hsize, hfunction]; simp) ?_
      rw [hothers _ hne]
      rfl
    · exact hg.code _ _ (by rw [hself]; rfl)
    · -- giving the wrapper its code changes nothing that it knows
      refine hwithin.mono fun v hv => IR.Store.Knows.grow ?_ h.wellFormed hg ht
      rw [IR.Store.Knows, IR.Store.visible, IR.Store.temporaries, hself]
      exact hv
    · refine IR.Store.mem_temporaries_grow ?_ h.wellFormed hg ht
      rw [IR.Store.temporaries, hself]
      exact (sortByName_perm _ _).subset hv

/-- The code object of a callable describes its parameters. -/
theorem buildCallable_describes (hs : s.WellFormed) (hp : provider.index < s.bodies.size)
    (h : Ran s.bodies.size (buildCallable setting provider kind name doc flags params location) s
      made s') (hg : Store.Grows 0 s' t) :
    ∃ info, t.moduleInfo provider = .ok info ∧ made.code =
      .ofSignature kind (params.rawSignature (t.spell provider) name) info location.line := by
  have hlater := (h.grows.mono (Nat.zero_le _)).trans hg (Nat.le_refl _)
  rw [hlater.spell hs.ordered hp, hlater.moduleInfo hs.ordered hp]
  exact buildCallable_code.of_ok h.run

/-- The object of a callable in a later store. -/
theorem createObject_planned {kind : ObjectKind} {object : BodyId}
    (hrun : createObject made kind name flags location s = .ok object s')
    (hg : Store.Grows 0 s' t) :
    object = ⟨s.bodies.size⟩ ∧ s'.bodies.size = s.bodies.size + 1 ∧
      Planned t object
        { kind := .callable (.suspended kind)
          name := name
          location := location
          provider := some made.function
          qualifiedName := some (s.body made.outer).qualifiedName
          flags := flags } := by
  rw [createObject_run] at hrun
  cases hrun
  exact ⟨rfl, Store.size_bodies_withObject,
    ((planned_createBody s _).grow (Store.Grows.share 0 _ _ _)).grow hg⟩

end Lowering

end DefinitionLowering
