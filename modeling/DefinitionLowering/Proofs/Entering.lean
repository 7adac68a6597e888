import DefinitionLowering.Proofs.Preservation
import DefinitionLowering.Proofs.Rendering

/-!
# Entering a scope

The bodies of a callable are created before the scope around it evaluates defaults and the like,
and its statements are lowered later still.  `buildCallable_opens` and `createObject_opens` say
that the code body of a new callable sees its parameters only, so that its scope can be opened;
`Opening.later` says that it can be opened later as well.

`enter_spec` says what lowering the statements of a scope leaves: they are rendered at the place
of the scope.  `Entered.close` makes this a part of the scope around, once the code is attached.
-/

namespace DefinitionLowering

open IR (BodyId VariableId Store)
open Surface (Header Part Params Scope partsPlain partsViolations spellAt)

variable {n : Nat} {outer : List Place} {p : Place} {s s' : Store} {b c : BodyId}
  {name : String} {v : VariableId}

/-! ## Modules of bodies -/

/-- Every body is in a module. -/
theorem moduleInfo_ok (hs : s.WellFormed) (hb : b.index < s.bodies.size) :
    ∃ info, s.moduleInfo b = .ok info :=
  hs.ordered.moduleInfo_ok (fun b hb hp => (hs.rooted b hb hp).1)
    (fun b hb hm => (hs.rooted b hb (hs.root b hm)).2) hb

namespace Lowering

/-! ## Scopes that can be opened -/

/-- A scope can still be opened when other things have been done first. -/
theorem Opening.later (h : Opening s s outer p []) (hwf : s'.WellFormed)
    (hg : Store.Grows n s s') (haround : AllSettled s' outer)
    (hvisible : ∀ c ∈ p.bodies, s'.visible c = s.visible c)
    (hglobals : ∀ c ∈ p.bodies, (s'.body c).globals = (s.body c).globals) :
    Opening s' s' outer p [] := by
  have hfind : ∀ name, s'.find? p.code name = s.find? p.code name := fun name =>
    IR.Store.find?_congr (hvisible _ p.code_mem) fun w hw =>
      hg.var w (h.wellFormed.seen p.code w hw).1
  refine ⟨hwf, haround, h.place.grow h.wellFormed hg hglobals
    (fun c hc => seesMore_of_visible h.wellFormed hg (hvisible c hc)) h.around, h.object,
    fun name => ?_, fun name v hname hf => h.seen name v hname ((hfind name).symm.trans hf),
    fun _ hmem => absurd hmem List.not_mem_nil, Store.Grows.refl _ _, fun _ _ => rfl, rfl,
    fun _ => rfl⟩
  rw [← h.params name]
  have hlt := h.place.created _ p.code_mem
  exact iff_of_eq (congrArg (· = true) (isParameter_congr (hfind name)
    (fun v hv => (find?_mono h.wellFormed hg hv).2) (hg.kind hlt) (hg.provider hlt)))

/-- A place whose code sees the parameters only can be opened. -/
theorem opening_of_params {own : List String} {h : Header} {code : BodyId}
    {shells : List BodyId} (hs : s.WellFormed) (haround : AllSettled s outer)
    (hp : (placeAt h outer code shells own []).Planned s outer)
    (hobject : h.kind.isObject = true → shells ≠ [])
    (hglobals : ∀ c ∈ code :: shells, (s.body c).globals = [])
    (hown : own = h.paramNames (scopesOf outer))
    (hfound : ∀ name ∈ own, (s.find? code name).isSome = true)
    (hcode : ∀ name v, s.find? code name = some v →
      name ∈ own ∧ (s.var v).owner ∈ code :: shells ∧ isParameter s code name = true)
    (hshells : ∀ c ∈ shells, ∀ name v, isReserved name = false → s.find? c name = some v →
      name ∈ own ∨ meaning s name outer = some v) :
    Opening s s outer (placeAt h outer code shells own []) [] := by
  refine ⟨hs, haround,
    { hp with
      globals := hglobals code List.mem_cons_self
      clear := fun c hc => hglobals c (List.mem_cons_of_mem _ hc)
      owns := fun name hname hk hglobal hmem => ?_
      sees := fun c hc name v hname hf => ?_
      hides := fun name hmem => absurd hmem List.not_mem_nil },
    hobject, fun name => ?_, fun name v _ hf => .inl (hcode name v hf).1,
    fun _ hmem => absurd hmem List.not_mem_nil, Store.Grows.refl _ _, fun _ _ => rfl, rfl,
    fun _ => rfl⟩
  · obtain ⟨v, hv⟩ := Option.isSome_iff_exists.1 (hfound name hmem)
    exact ⟨v, hv, (hcode name v hv).2.1⟩
  · rcases List.mem_cons.1 hc with rfl | hc
    · exact .inl (hcode name v hf).1
    · exact hshells c hc name v hname hf
  · show isParameter s code name = true ↔ name ∈ h.paramNames (scopesOf outer)
    rw [← hown]
    refine ⟨fun hparam => ?_, fun hmem => ?_⟩
    · cases hf : s.find? code name with
      | none =>
        rw [isParameter_of_none hf] at hparam
        cases hparam
      | some v => exact (hcode name v hf).1
    · obtain ⟨v, hv⟩ := Option.isSome_iff_exists.1 (hfound name hmem)
      exact (hcode name v hv).2.2

/-! ## New callables -/

/-- The bodies that a delegate leaves: its own, and its wrapper with code and temporaries. -/
theorem createDelegate_bodies {wrapper delegate : BodyId} {signature : Signature}
    {placeholders : List Placeholder} {spell : String → String} {formals : List Surface.Pattern}
    {code : CodeObject} {flags : Flags} {doc : Option String} {location : Location}
    (h : IsFresh s wrapper signature placeholders spell formals)
    (hrun : createDelegate wrapper signature placeholders code flags doc location s =
      .ok delegate s') :
    let created := (s.createBody (delegatePlan wrapper signature.name (leafNames spell formals)
      flags doc location)).2
    delegate = ⟨s.bodies.size⟩ ∧ s'.bodies.size = s.bodies.size + 1 ∧
      (∀ c, c ≠ wrapper → s'.body c = created.body c) ∧
      (∃ temporaries block, s'.body wrapper =
        { s.body wrapper with temporaries := temporaries, code := block }) ∧
      ∀ v : VariableId, v.index < created.vars.size → s'.var v = created.var v := by
  intro created
  obtain ⟨-, rfl, u, -, rfl⟩ := (createDelegate_spec h).of_ok hrun
  have hlt : wrapper.index < created.bodies.size := by
    rw [IR.Store.size_bodies_createBody]
    exact Nat.lt_succ_of_lt h.created
  refine ⟨rfl, by simp, fun c hc => ?_, ?_, fun v hv => ?_⟩
  · rw [IR.Store.body_modifyBody_ne hc.symm, IR.Store.body_withTemporaries_ne hc.symm]
  · rw [IR.Store.body_modifyBody_self (by rw [IR.Store.size_bodies_withTemporaries]; exact hlt),
      IR.Store.body_withTemporaries_self hlt, IR.Store.body_createBody_of_lt s _ h.created]
    exact ⟨_, _, rfl⟩
  · rw [IR.Store.var_modifyBody, IR.Store.var_withTemporaries_of_lt hv]

/-- A new body sees nothing but its parameters. -/
theorem param_of_mem_visible {plan : IR.BodyPlan}
    (hv : v ∈ (s.createBody plan).2.visible ⟨s.bodies.size⟩) :
    v.index < (s.createBody plan).2.vars.size ∧
      ((s.createBody plan).2.var v).name ∈ plan.slots ∧
      ((s.createBody plan).2.var v).owner = ⟨s.bodies.size⟩ ∧
      ((s.createBody plan).2.var v).kind = .parameter := by
  obtain ⟨hlow, hhigh⟩ := IR.Store.mem_visible_createBody_self.1 hv
  obtain ⟨slot, hslot, hvar⟩ := IR.Store.var_createBody_new hlow hhigh
  rw [hvar]
  exact ⟨hhigh, hslot, rfl, rfl⟩

/-- A slot that is not reserved is one of the leaves. -/
theorem mem_leafNames_of_slot {params : Params} {spell : String → String} {text : String}
    (hname : isReserved text = false) (h : text ∈ (params.rawSignature spell name).slots) :
    text ∈ leafNames spell params.formals := by
  rw [slots_rawSignature] at h
  exact List.count_pos_iff.1 (Nat.lt_of_lt_of_le (List.count_pos_iff.2 h)
    (PositionalSlot.count_le hname params.formals))

/-- A parameter of the body itself. -/
theorem isParameter_of_owner (hf : s.find? b name = some v)
    (hkind : (s.var v).kind = .parameter) (howner : (s.var v).owner = b) :
    isParameter s b name = true := by
  unfold isParameter
  rw [hf]
  simp [hkind, howner]

theorem keywordOnlyNames_grows (hg : Store.Grows n s s') (hb : b.index < s.bodies.size) :
    keywordOnlyNames s' b = keywordOnlyNames s b := by
  rw [keywordOnlyNames, hg.signature hb, keywordOnlyNames]

/-- The bodies of a callable have been created since the store `s`, and its scope can be
opened. -/
structure Opened (h : Header) (outer : List Place) (s s' : Store) (code : BodyId)
    (shells : List BodyId) : Prop where
  opening : Opening s' s' outer (placeAt h outer code shells (h.paramNames (scopesOf outer)) []) []
  sees : ∀ name v, s'.find? code name = some v → isParameter s' code name = true
  advances : Advances s.bodies.size outer s s' (code :: shells)
  codeless : (s'.body code).code = none

/-- The scope of a callable can still be opened when the places around have done their share. -/
theorem Opened.wait {h : Header} {code : BodyId} {shells bodies : List BodyId} {s₀ : Store}
    (ho : Opened h outer s₀ s code shells) (hold : ∀ c ∈ bodiesOf outer, c.index < s₀.bodies.size)
    (ha : Advances s.bodies.size outer s s' bodies) :
    Opening s' s' outer (placeAt h outer code shells (h.paramNames (scopesOf outer)) []) [] ∧
      ∀ c : BodyId, c.index < s.bodies.size → (s'.body c).code = (s.body c).code :=
  ⟨ho.opening.later ha.wellFormed ha.grows ha.settled
    (fun c hc => ha.frame c (ho.opening.place.created c hc) fun hmem =>
      Nat.not_lt.2 (ho.advances.new hc).1 (hold c hmem))
    fun c hc => ha.grows.globals (ho.opening.place.created c hc),
    fun _ hc => ha.grows.code_eq hc⟩

/-- New bodies, when the ones there were see what they saw. -/
theorem advances_of_visible {bodies : List BodyId} (hs : s.WellFormed)
    (hsettled : AllSettled s outer) (hwf : s'.WellFormed) (hg : Store.Grows s.bodies.size s s')
    (hvisible : ∀ c : BodyId, c.index < s.bodies.size → s'.visible c = s.visible c)
    (hbodies : bodies.Perm (Store.bodiesFrom s.bodies.size s'.bodies.size)) :
    Advances s.bodies.size outer s s' bodies where
  wellFormed := hwf
  grows := hg
  settled := hsettled.grow hs hg hsettled.created fun c hc =>
    seesMore_of_visible hs hg (hvisible c (hsettled.created c hc))
  frame c hc _ := hvisible c hc
  covers c := (hbodies.count_eq c).trans (Store.count_bodiesFrom c)

/-- The scope of a new body can be opened, if the body has the parameters of the scope. -/
theorem opened_createBody {h : Header} {plan : IR.BodyPlan} (hs : s.WellFormed)
    (hsettled : AllSettled s outer) (hwf : (s.createBody plan).2.WellFormed)
    (hkind : plan.kind = h.kind) (hname : h.kind = .classBody → plan.name = h.name)
    (hprovider : plan.provider = innermost? outer) (hroot : h.kind = .moduleBody ↔ outer = [])
    (hobject : h.kind.isObject = false)
    (hparams : ∀ text, text ∈ h.paramNames (scopesOf outer) ↔ text ∈ plan.slots) :
    Opened h outer s (s.createBody plan).2 ⟨s.bodies.size⟩ [] := by
  set created := (s.createBody plan).2
  have hbody : created.body ⟨s.bodies.size⟩ = _ := IR.Store.body_createBody_self
  have hadvances : Advances s.bodies.size outer s created [⟨s.bodies.size⟩] := by
    refine advances_of_visible hs hsettled hwf (Store.Grows.createBody s plan) (fun c hc =>
      congrArg IR.Body.visible (IR.Store.body_createBody_of_lt s plan hc)) ?_
    rw [IR.Store.size_bodies_createBody, Store.bodiesFrom_succ]
  have hplanned : (placeAt h outer ⟨s.bodies.size⟩ [] (h.paramNames (scopesOf outer))
      []).Planned created outer := by
    refine ⟨fun c hc => ?created, ?kind, fun hc => ?name, hroot, ?leads, fun _ => rfl⟩
    case created =>
      rw [List.mem_singleton.1 hc]
      simp [created, placeAt]
    case kind => exact (congrArg IR.Body.kind hbody).trans hkind
    case name => exact (congrArg IR.Body.name hbody).trans (hname hc)
    case leads => exact (congrArg IR.Body.provider hbody).trans hprovider
  have hcode : ∀ text v, created.find? ⟨s.bodies.size⟩ text = some v →
      text ∈ h.paramNames (scopesOf outer) ∧
        (created.var v).owner ∈ [(⟨s.bodies.size⟩ : BodyId)] ∧
        isParameter created ⟨s.bodies.size⟩ text = true := by
    intro text v hf
    obtain ⟨hv, rfl⟩ := IR.Store.find?_eq_some hf
    obtain ⟨-, hslot, howner, hparam⟩ := param_of_mem_visible hv
    exact ⟨(hparams _).2 hslot, List.mem_singleton.2 howner, isParameter_of_owner hf hparam howner⟩
  refine ⟨opening_of_params hwf hadvances.settled hplanned (fun hc => ?object)
    (fun c hc => ?globals)
    rfl (fun text htext => ?found) hcode fun c hc => absurd hc List.not_mem_nil,
    fun text v hf => (hcode text v hf).2.2, hadvances, congrArg IR.Body.code hbody⟩
  case object => exact absurd (hobject.symm.trans hc) Bool.noConfusion
  case globals => rw [List.mem_singleton.1 hc, hbody]
  case found =>
    have hmem : text ∈ (created.visible ⟨s.bodies.size⟩).map fun v => (created.var v).name := by
      rw [IR.Store.visibleNames_createBody_self]
      exact (hparams text).1 htext
    obtain ⟨v, hv, hfound⟩ := List.mem_map.1 hmem
    exact Option.isSome_iff_exists.2 ⟨v, hwf.find?_eq_some_iff.2 ⟨hv, hfound⟩⟩

section Building

variable {q : Place} {h : Header} {params : Params} {setting : Setting} {kind : CallableKind}
  {doc : Option String} {flags : Flags} {location : Location}

/-- The names of the parameters, as they are spelled outside, are the leaves. -/
theorem mem_paramNames (hs : s.WellFormed) (hsettled : AllSettled s (q :: outer))
    (hparams : h.params = some params) {text : String} :
    text ∈ h.paramNames (scopesOf (q :: outer)) ↔
      text ∈ leafNames (s.spell q.code) params.formals := by
  have hspell : s.spell q.code = spellAt (scopesOf (q :: outer)) :=
    funext fun text => spell_settled hs.ordered text q outer hsettled
  rw [(leafNames_perm params _).mem_iff, hspell, Header.paramNames, hparams]

/-- A function without a wrapper. -/
theorem opened_function (hs : s.WellFormed) (hsettled : AllSettled s (q :: outer))
    (hkind : h.kind = .function) (hparams : h.params = some params)
    (hwf : (s.createBody (functionPlan q.code name (params.rawSignature (s.spell q.code) name)
      flags doc location)).2.WellFormed)
    (hplain : params.positional.any Surface.Pattern.isTuple = false) :
    Opened h (q :: outer) s (s.createBody (functionPlan q.code name
      (params.rawSignature (s.spell q.code) name) flags doc location)).2 ⟨s.bodies.size⟩ [] := by
  refine opened_createBody hs hsettled hwf hkind.symm (fun hc => ?_) rfl ?_ ?_ fun text => ?_
  · rw [hkind] at hc
    cases hc
  · rw [hkind]
    simp
  · rw [hkind]
    rfl
  · rw [mem_paramNames hs hsettled hparams, ← slots_of_plain hplain]
    rfl

/-- A wrapper was created and then its delegate; the wrapper has got its temporaries and code. -/
structure Wrapped (s s' : Store) (plan inner : IR.BodyPlan) : Prop where
  size : s'.bodies.size = s.bodies.size + 2
  wrapper : ∃ temporaries block, s'.body ⟨s.bodies.size⟩ =
    { (s.createBody plan).2.body ⟨s.bodies.size⟩ with
      temporaries := temporaries, code := block }
  others : ∀ c, c ≠ ⟨s.bodies.size⟩ →
    s'.body c = ((s.createBody plan).2.createBody inner).2.body c
  var : ∀ v : VariableId, v.index < ((s.createBody plan).2.createBody inner).2.vars.size →
    s'.var v = ((s.createBody plan).2.createBody inner).2.var v

namespace Wrapped

variable {plan inner : IR.BodyPlan} {text : String}

theorem delegate (hw : Wrapped s s' plan inner) : s'.body ⟨(s.createBody plan).2.bodies.size⟩ =
    ((s.createBody plan).2.createBody inner).2.body ⟨(s.createBody plan).2.bodies.size⟩ := by
  refine hw.others _ fun he => ?_
  have hindex := congrArg IR.BodyId.index he
  rw [IR.Store.size_bodies_createBody] at hindex
  exact absurd hindex (Nat.succ_ne_self _)

theorem visible_of_lt (hw : Wrapped s s' plan inner) (hc : c.index < s.bodies.size) :
    s'.visible c = s.visible c := by
  have hlt : c.index < (s.createBody plan).2.bodies.size := by
    rw [IR.Store.size_bodies_createBody]
    exact Nat.lt_succ_of_lt hc
  unfold Store.visible
  rw [hw.others c fun he => Nat.lt_irrefl _ (he ▸ hc), IR.Store.body_createBody_of_lt _ inner hlt,
    IR.Store.body_createBody_of_lt s plan hc]

theorem advances (hw : Wrapped s s' plan inner) (hs : s.WellFormed) (hsettled : AllSettled s outer)
    (hwf : s'.WellFormed) (hg : Store.Grows s.bodies.size s s') :
    Advances s.bodies.size outer s s' [⟨(s.createBody plan).2.bodies.size⟩, ⟨s.bodies.size⟩] := by
  refine advances_of_visible hs hsettled hwf hg (fun c hc => hw.visible_of_lt hc) ?_
  rw [hw.size, ← Store.bodiesFrom_append (Nat.le_succ _) (Nat.le_succ _),
    IR.Store.size_bodies_createBody, Store.bodiesFrom_succ, Store.bodiesFrom_succ]
  exact .swap _ _ _

/-- The place of a callable with a wrapper. -/
theorem planned (hw : Wrapped s s' plan inner) (hkind : h.kind = .function)
    (hplan : plan.kind = .function ∧ plan.provider = some q.code)
    (hinner : inner.kind = .function ∧ inner.provider = some ⟨s.bodies.size⟩) (own : List String) :
    (placeAt h (q :: outer) ⟨(s.createBody plan).2.bodies.size⟩ [⟨s.bodies.size⟩] own []).Planned
      s' (q :: outer) := by
  obtain ⟨temporaries, block, hwrapper⟩ := hw.wrapper
  have hself := hw.delegate.trans IR.Store.body_createBody_self
  refine ⟨fun c hc => ?created, ?kind, fun hc => ?name, ?root, ⟨?delegate, ?wrapper, ?outside⟩,
    fun hbare => ?bare⟩
  case created =>
    rw [hw.size]
    rcases List.mem_cons.1 hc with rfl | hc
    · show (s.createBody plan).2.bodies.size < _
      rw [IR.Store.size_bodies_createBody]
      exact Nat.lt_succ_self _
    · rw [List.mem_singleton.1 hc]
      exact Nat.lt_succ_of_lt (Nat.lt_succ_self _)
  case kind => exact (congrArg IR.Body.kind hself).trans (hinner.1.trans hkind.symm)
  case name => exact absurd (hkind.symm.trans hc) BodyKind.noConfusion
  case root =>
    show h.kind = .moduleBody ↔ _
    rw [hkind]
    simp
  case delegate => exact (congrArg IR.Body.provider hself).trans hinner.2
  case wrapper =>
    rw [hwrapper, IR.Store.body_createBody_self]
    exact hplan.1
  case outside =>
    show (s'.body ⟨s.bodies.size⟩).provider = some q.code
    rw [hwrapper, IR.Store.body_createBody_self]
    exact hplan.2
  case bare =>
    have hlike : h.kind.isFunctionLike = true := by
      rw [hkind]
      rfl
    exact absurd (hlike.symm.trans hbare) Bool.noConfusion

theorem visible_delegate (hw : Wrapped s s' plan inner) :
    s'.visible ⟨(s.createBody plan).2.bodies.size⟩ =
      ((s.createBody plan).2.createBody inner).2.visible ⟨(s.createBody plan).2.bodies.size⟩ :=
  congrArg IR.Body.visible hw.delegate

/-- The delegate sees its parameters. -/
theorem param_of_find? (hw : Wrapped s s' plan inner)
    (hf : s'.find? ⟨(s.createBody plan).2.bodies.size⟩ text = some v) : text ∈ inner.slots ∧
      (s'.var v).owner = ⟨(s.createBody plan).2.bodies.size⟩ ∧ (s'.var v).kind = .parameter := by
  obtain ⟨hv, rfl⟩ := IR.Store.find?_eq_some hf
  rw [hw.visible_delegate] at hv
  obtain ⟨hlt, hslot, howner, hparam⟩ := param_of_mem_visible hv
  rw [hw.var v hlt]
  exact ⟨hslot, howner, hparam⟩

theorem find?_isSome (hw : Wrapped s s' plan inner) (hwf : s'.WellFormed)
    (htext : text ∈ inner.slots) :
    (s'.find? ⟨(s.createBody plan).2.bodies.size⟩ text).isSome = true := by
  rw [← IR.Store.visibleNames_createBody_self (s := (s.createBody plan).2)] at htext
  obtain ⟨v, hv, hname⟩ := List.mem_map.1 htext
  refine Option.isSome_iff_exists.2 ⟨v, hwf.find?_eq_some_iff.2 ⟨hw.visible_delegate ▸ hv, ?_⟩⟩
  rw [hw.var v (param_of_mem_visible hv).1]
  exact hname

/-- The wrapper sees its slots. -/
theorem slot_of_find? (hw : Wrapped s s' plan inner)
    (hf : s'.find? ⟨s.bodies.size⟩ text = some v) : text ∈ plan.slots := by
  obtain ⟨temporaries, block, hwrapper⟩ := hw.wrapper
  obtain ⟨hv, rfl⟩ := IR.Store.find?_eq_some hf
  have hv : v ∈ (s.createBody plan).2.visible ⟨s.bodies.size⟩ := by
    unfold Store.visible at hv ⊢
    rw [hwrapper] at hv
    exact hv
  obtain ⟨hlt, hslot, -⟩ := param_of_mem_visible hv
  rw [hw.var v (Nat.lt_of_lt_of_le hlt (Store.Grows.createBody _ inner).vars),
    IR.Store.var_createBody_of_lt _ _ hlt]
  exact hslot

end Wrapped

/-- Creating the delegate of a new wrapper. -/
theorem wrapped_createDelegate {plan : IR.BodyPlan} {signature : Signature}
    {placeholders : List Placeholder} {spell : String → String} {formals : List Surface.Pattern}
    {code : CodeObject} {delegate : BodyId}
    (h : IsFresh (s.createBody plan).2 ⟨s.bodies.size⟩ signature placeholders spell formals)
    (hrun : createDelegate ⟨s.bodies.size⟩ signature placeholders code flags doc location
      (s.createBody plan).2 = .ok delegate s') :
    delegate = ⟨(s.createBody plan).2.bodies.size⟩ ∧
      Wrapped s s' plan (delegatePlan ⟨s.bodies.size⟩ signature.name (leafNames spell formals)
        flags doc location) := by
  obtain ⟨hdelegate, hsize, hbodies, hwrapper, hvars⟩ := createDelegate_bodies h hrun
  exact ⟨hdelegate, ⟨by rw [hsize, IR.Store.size_bodies_createBody], hwrapper, hbodies, hvars⟩⟩

/-- A delegate with the wrapper around it. -/
theorem opened_delegate (hs : s.WellFormed) (hsettled : AllSettled s (q :: outer))
    (hkind : h.kind = .function) (hparams : h.params = some params) {delegate : BodyId}
    {code : CodeObject} (hwf : s'.WellFormed)
    (hslots : (params.rawSignature (s.spell q.code) name).slots.Nodup)
    (hrun : createDelegate ⟨s.bodies.size⟩ (params.rawSignature (s.spell q.code) name)
      (params.placeholders (s.spell q.code)) code flags doc location
      (s.createBody (functionPlan q.code name (params.rawSignature (s.spell q.code) name)
        flags doc location)).2 = .ok delegate s') (hg : Store.Grows s.bodies.size s s') :
    Opened h (q :: outer) s s' delegate [⟨s.bodies.size⟩] := by
  let plan := functionPlan q.code name (params.rawSignature (s.spell q.code) name)
    flags doc location
  let inner := delegatePlan ⟨s.bodies.size⟩ name (leafNames (s.spell q.code) params.formals) flags
    doc location
  have hfresh := isFresh_createBody flags doc location hs.ordered
    (hsettled.created q.code (List.mem_append_left _ q.code_mem)) hslots
  obtain ⟨hdelegate, hwrapped⟩ := wrapped_createDelegate hfresh hrun
  have hw : Wrapped s s' plan inner := hwrapped
  obtain rfl : delegate = ⟨(s.createBody plan).2.bodies.size⟩ := hdelegate
  have hself := hw.delegate.trans IR.Store.body_createBody_self
  have hadvances := hw.advances hs hsettled hwf hg
  have hinner : inner.slots = leafNames (s.spell q.code) params.formals := delegateSignature_slots
  have hcode : ∀ text v, s'.find? ⟨(s.createBody plan).2.bodies.size⟩ text = some v →
      text ∈ h.paramNames (scopesOf (q :: outer)) ∧
        (s'.var v).owner ∈ [(⟨(s.createBody plan).2.bodies.size⟩ : BodyId), ⟨s.bodies.size⟩] ∧
        isParameter s' ⟨(s.createBody plan).2.bodies.size⟩ text = true := by
    intro text v hf
    obtain ⟨hslot, howner, hparam⟩ := hw.param_of_find? hf
    refine ⟨?_, howner ▸ List.mem_cons_self, isParameter_of_owner hf hparam howner⟩
    exact (mem_paramNames hs hsettled hparams).2 (hinner ▸ hslot)
  refine ⟨opening_of_params hwf hadvances.settled (hw.planned hkind ⟨rfl, rfl⟩ ⟨rfl, rfl⟩ _)
    (fun _ => List.cons_ne_nil _ _) (fun c hc => ?globals) rfl (fun text htext => ?found) hcode
    fun c hc text v htext hf => Or.inl ?shells,
    fun text v hf => (hcode text v hf).2.2, hadvances, congrArg IR.Body.code hself⟩
  case globals =>
    rcases List.mem_cons.1 hc with rfl | hc
    · exact congrArg IR.Body.globals hself
    · obtain ⟨temporaries, block, hbody⟩ := hw.wrapper
      rw [List.mem_singleton.1 hc, hbody, IR.Store.body_createBody_self]
  case found =>
    exact hw.find?_isSome hwf (hinner.symm ▸ (mem_paramNames hs hsettled hparams).1 htext)
  case shells =>
    rw [List.mem_singleton.1 hc] at hf
    rw [mem_paramNames hs hsettled hparams]
    exact mem_leafNames_of_slot htext (hw.slot_of_find? hf)

/-- **Building a callable** gives a scope that can be opened, or its parameter list has a
violation. -/
theorem buildCallable_opens (hs : s.WellFormed) (hsettled : AllSettled s (q :: outer))
    (hkind : h.kind = .function) (hparams : h.params = some params) :
    Ends (buildCallable setting q.code kind name doc flags params location) s
      (fun callable s' => ∃ shells,
        Opened h (q :: outer) s s' callable.function shells ∧
          callable.outer ∈ callable.function :: shells ∧
          (keywordOnlyNames s' callable.outer).length = params.keywordOnly.length ∧
          params.violations setting.dialect (spellAt (scopesOf (q :: outer))) location = [])
      fun failure _ => FailsIn
        (params.violations setting.dialect (spellAt (scopesOf (q :: outer))) location) failure := by
  have hp := hsettled.created q.code (List.mem_append_left _ q.code_mem)
  have hvalid : Valid s.bodies.size [] s :=
    ⟨hs, Nat.le_refl _, fun b h h' => absurd h' (Nat.not_lt.2 h)⟩
  have hspell : spellAt (scopesOf (q :: outer)) = s.spell q.code :=
    funext fun text => (spell_settled hs.ordered text q outer hsettled).symm
  have hreserved : ∀ text, isReserved (s.spell q.code text) = isReserved text := fun text => by
    rw [← hspell]
    exact isReserved_spellAt _ _
  rw [hspell]
  refine ((buildCallable_spec hs.ordered hp).and (buildCallable_keeps hvalid hp)).weaken ?_ ?_
  · rintro ⟨wrapper, function, code⟩ s' ⟨⟨hsig, hwrapper, hcases⟩, hg, hbuilt⟩
    dsimp only at hwrapper hcases ⊢
    subst hwrapper
    have hn := (signature_eq_ok hsig).2
    have hsignature : ((s.createBody (functionPlan q.code name
        (params.rawSignature (s.spell q.code) name) flags doc location)).2.body
          ⟨s.bodies.size⟩).signature = some (params.rawSignature (s.spell q.code) name) := by
      rw [IR.Store.body_createBody_self]
      rfl
    rcases hcases with ⟨hplain, rfl, rfl⟩ | ⟨htuple, hrun⟩
    · refine ⟨[], opened_function hs hsettled hkind hparams hbuilt.valid.wellFormed hplain,
        List.mem_cons_self, ?_, violations_eq_nil hsig (slots_of_plain hplain ▸ hn)⟩
      rw [keywordOnlyNames, hsignature]
      exact List.length_map _
    · have hfresh := isFresh_createBody flags doc location hs.ordered hp hn
      refine ⟨[⟨s.bodies.size⟩], opened_delegate hs hsettled hkind hparams
        hbuilt.valid.wellFormed hn hrun hg, List.mem_cons_of_mem _ List.mem_cons_self, ?_,
        violations_eq_nil hsig ((createDelegate_spec hfresh).of_ok hrun).1⟩
      obtain ⟨-, -, -, ⟨temporaries, block, hbody⟩, -⟩ := createDelegate_bodies hfresh hrun
      rw [keywordOnlyNames, hbody]
      dsimp only
      rw [hsignature]
      exact List.length_map _
  · rintro failure s' ⟨⟨-, cause, hsig, rfl⟩ | ⟨-, fault, hfault, -⟩ |
      ⟨-, hsig, -, defect, hdefect, rfl⟩, -⟩
    · exact ⟨_, signature_error_mem hreserved hsig, rfl⟩
    · obtain ⟨info, hinfo⟩ := moduleInfo_ok hs hp
      rw [hinfo] at hfault
      cases hfault
    · exact ⟨_, delegate_error_mem hreserved hsig hdefect, rfl⟩

end Building

/-- A parameter of a function belongs to the function. -/
theorem owner_of_isParameter (hf : s.find? b name = some v) (hkind : (s.body b).kind = .function)
    (h : isParameter s b name = true) : (s.var v).kind = .parameter ∧ (s.var v).owner = b := by
  unfold isParameter at h
  rw [hf, hkind] at h
  simpa [BodyKind.isObject] using h

section Manufacturing

variable {h h' : Header} {callable : Callable} {shells : List BodyId} {kind : ObjectKind}
  {s₀ : Store} {flags : Flags} {location : Location}

/-- The object of a callable stands in the function that manufactures it. -/
theorem Opened.planned_object (ho : Opened h outer s₀ s callable.function shells)
    (hkind : h.kind = .function) (hkind' : h'.kind = .callable (.suspended kind))
    (own : List String) :
    (placeAt h' outer ⟨s.bodies.size⟩ (callable.function :: shells) own []).Planned
      (s.withObject (manufacturedPlan s callable kind name flags location) callable.function)
      outer := by
  set s' := s.withObject (manufacturedPlan s callable kind name flags location) callable.function
  have hplace := ho.opening.place
  have hlt : ∀ c ∈ callable.function :: shells, c.index < s.bodies.size := hplace.created
  have hg : Store.Grows s.bodies.size s s' := Store.Grows.withObject s _ _
  have hfunction := hlt _ List.mem_cons_self
  refine ⟨fun c hc => ?created, ?kind, fun hc => ?name, ?root, ⟨?provider, ?outside, ?leads⟩,
    fun hbare => ?bare⟩
  case created =>
    rcases List.mem_cons.1 hc with rfl | hc
    · exact Store.size_bodies_withObject ▸ Nat.lt_succ_self _
    · exact Nat.lt_of_lt_of_le (hlt c hc) hg.bodies
  case kind =>
    show (s'.body ⟨s.bodies.size⟩).kind = h'.kind
    rw [Store.body_withObject_view IR.Body.kind fun _ _ => rfl,
      IR.Store.body_createBody_self, hkind']
    rfl
  case name => exact absurd (hkind'.symm.trans hc) BodyKind.noConfusion
  case root =>
    have hroot : h.kind = .moduleBody ↔ outer = [] := hplace.root
    show h'.kind = .moduleBody ↔ _
    rw [← hroot, hkind, hkind']
    simp
  case provider =>
    show (s'.body ⟨s.bodies.size⟩).provider = some callable.function
    rw [Store.body_withObject_view IR.Body.provider fun _ _ => rfl, IR.Store.body_createBody_self]
    rfl
  case outside => exact (hg.kind hfunction).trans (hplace.kind.trans hkind)
  case leads => exact leads_mono hg hlt hplace.leads
  case bare =>
    have hlike : h'.kind.isFunctionLike = true := by rw [hkind']; rfl
    exact absurd (hlike.symm.trans hbare) Bool.noConfusion

/-- What the object of a callable sees are parameters of the function, which it has for its
own. -/
theorem Opened.object_sees (ho : Opened h outer s₀ s callable.function shells)
    (hkind : h.kind = .function) (hparams : h'.params = h.params) {text : String}
    {s' : Store} (hs' : s' = s.withObject (manufacturedPlan s callable kind name flags location)
      callable.function) (hf : s'.find? ⟨s.bodies.size⟩ text = some v) :
    text ∈ h'.paramNames (scopesOf outer) ∧
      (s'.var v).owner ∈ (⟨s.bodies.size⟩ : BodyId) :: callable.function :: shells ∧
      isParameter s' ⟨s.bodies.size⟩ text = true := by
  have hs := ho.opening.wellFormed
  have hfunction : callable.function.index < s.bodies.size :=
    ho.opening.place.created _ List.mem_cons_self
  have hg : Store.Grows s.bodies.size s s' := hs' ▸ Store.Grows.withObject s _ callable.function
  have hfound : s'.find? ⟨s.bodies.size⟩ text = s.find? callable.function text :=
    hs' ▸ hs.find?_withObject_self hfunction rfl text
  have hfs := hfound.symm.trans hf
  have hparam := ho.sees text v hfs
  obtain ⟨hpk, howner⟩ :=
    owner_of_isParameter hfs (ho.opening.place.kind.trans hkind) hparam
  have hvar := hg.var v (hs.seen _ v (IR.Store.find?_eq_some hfs).1).1
  refine ⟨?own, ?owner, ?param⟩
  case own =>
    rw [Header.paramNames, hparams]
    exact (ho.opening.params text).1 hparam
  case owner =>
    rw [hvar, howner]
    exact List.mem_cons_of_mem _ List.mem_cons_self
  case param =>
    unfold isParameter
    rw [hf]
    dsimp only
    rw [hvar, hpk, howner, hs', Store.body_withObject_view IR.Body.kind fun _ _ => rfl,
      Store.body_withObject_view IR.Body.provider fun _ _ => rfl, IR.Store.body_createBody_self]
    simp [manufacturedPlan, BodyKind.isObject]

/-- **The object of a callable** has the function's parameters for its own. -/
theorem createObject_opens (ho : Opened h outer s₀ s callable.function shells)
    (hkind : h.kind = .function) (hkind' : h'.kind = .callable (.suspended kind))
    (hparams : h'.params = h.params) (name : String) (flags : Flags) (location : Location) :
    Ends (createObject callable kind name flags location) s
      (fun object s' => Opened h' outer s₀ s' object (callable.function :: shells) ∧
        (s'.body callable.function).code = none ∧ Store.Grows s.bodies.size s s')
      fun _ _ => False := by
  unfold Ends
  rw [createObject_run]
  dsimp only
  let plan := manufacturedPlan s callable kind name flags location
  have hs := ho.opening.wellFormed
  have hplace := ho.opening.place
  have hlt : ∀ c ∈ callable.function :: shells, c.index < s.bodies.size := hplace.created
  have hfunction := hlt _ List.mem_cons_self
  have hg := Store.Grows.withObject s plan callable.function
  have hwf : (s.withObject plan callable.function).WellFormed :=
    hs.withObject hfunction rfl (by simp [plan, manufacturedPlan]) rfl
  have hadvance : Advances s.bodies.size outer s (s.withObject plan callable.function)
      [⟨s.bodies.size⟩] := by
    refine advances_of_visible hs ho.opening.around hwf hg
      (fun c hc => Store.visible_withObject_of_lt hc) ?_
    rw [Store.size_bodies_withObject, Store.bodiesFrom_succ]
  have hnames : h'.paramNames (scopesOf outer) = h.paramNames (scopesOf outer) := by
    rw [Header.paramNames, hparams, Header.paramNames]
  refine ⟨⟨opening_of_params hwf hadvance.settled (ho.planned_object hkind hkind' _)
    (fun _ => List.cons_ne_nil _ _) (fun c hc => ?globals) rfl (fun text htext => ?found)
    (fun text v hf => ho.object_sees hkind hparams rfl hf) fun c hc text v htext hf => ?shells,
    fun text v hf => (ho.object_sees hkind hparams rfl hf).2.2, ?advances, ?codeless⟩,
    (hg.code_eq hfunction).trans ho.codeless, hg⟩
  case globals =>
    rcases List.mem_cons.1 hc with rfl | hc
    · rw [Store.body_withObject_view IR.Body.globals fun _ _ => rfl, IR.Store.body_createBody_self]
    · rw [hg.globals (hlt c hc)]
      rcases List.mem_cons.1 hc with rfl | hc
      · exact hplace.globals
      · exact hplace.clear c hc
  case found =>
    rw [hs.find?_withObject_self hfunction rfl]
    rw [hnames] at htext
    have hparam : isParameter s callable.function text = true := (ho.opening.params text).2 htext
    cases hf : s.find? callable.function text with
    | some v => rfl
    | none =>
      rw [isParameter_of_none hf] at hparam
      cases hparam
  case shells =>
    have hfind : (s.withObject plan callable.function).find? c text = s.find? c text :=
      IR.Store.find?_congr (Store.visible_withObject_of_lt (hlt c hc))
        fun w hw => hg.var w (hs.seen c w hw).1
    rw [hfind] at hf
    rw [hnames]
    exact (hplace.sees c hc text v htext hf).imp_right (meaning_mono hs hg)
  case advances =>
    exact (ho.advances.trans hadvance ho.advances.grows.bodies).reorder
      (List.perm_append_singleton _ _)
  case codeless =>
    rw [Store.body_withObject_view IR.Body.code fun _ _ => rfl, IR.Store.body_createBody_self]

end Manufacturing

/-! ## The statements of a scope -/

/-- The parts of a scope have been lowered in its code since the store `s`. -/
structure Entered (dialect : Dialect) (n : Nat) (h : Header) (outer : List Place) (code : BodyId)
    (shells : List BodyId) (s s' : Store) (parts : List Part) (names : List Occurrence)
    (trees : List PlaceTree) : Prop where
  advances : Advances n outer s s' (treeBodies trees)
  settled : AllSettled s' (⟨h.scope (scopesOf outer), code, shells⟩ :: outer)
  declared : h.declarationViolations (scopesOf outer) = []
  renders : Renders dialect s' (⟨h.scope (scopesOf outer), code, shells⟩ :: outer) parts names trees
  codes : ∀ c : BodyId, c.index < s.bodies.size → (s'.body c).code = (s.body c).code

section Scopes

variable {α : Type} {dialect : Dialect} {h : Header} {code : BodyId} {shells : List BodyId}
  {parts : List Part} {names : List Occurrence} {trees : List PlaceTree} {x : Lowering α}
  {Q : α → List Occurrence → Prop}

/-- Lowering the parts of a scope that is settled. -/
theorem enter_of_settled {s₁ : Store} (ha : Advances n outer s s₁ [])
    (hsettled : AllSettled s₁ (⟨h.scope (scopesOf outer), code, shells⟩ :: outer))
    (hcodes : ∀ c, (s₁.body c).code = (s.body c).code)
    (hdeclared : h.declarationViolations (scopesOf outer) = [])
    (hn : ∀ c ∈ code :: shells, n ≤ c.index) (hplain : partsPlain parts = true)
    (hx : Lowers dialect (⟨h.scope (scopesOf outer), code, shells⟩ :: outer) x parts Q) :
    Ends x s₁
      (fun a s' => ∃ names trees, Q a names ∧
        Entered dialect n h outer code shells s s' parts names trees)
      fun failure _ => FailsIn
        (partsViolations dialect (h.scope (scopesOf outer) :: scopesOf outer) parts) failure := by
  refine (hx s₁ ha.wellFormed hsettled hplain).weaken (fun a s' => ?_) fun _ _ hf => hf
  rintro ⟨names, trees, hQ, hadvance, hrenders⟩
  have hcode : code.index < s₁.bodies.size := hsettled.1.created code List.mem_cons_self
  have hle : n ≤ s₁.bodies.size :=
    Nat.le_trans (hn code List.mem_cons_self) (Nat.le_of_lt hcode)
  refine ⟨names, trees, hQ, ?_, hadvance.settled, hdeclared, hrenders, fun c hc => ?_⟩
  · exact ha.trans (hadvance.leave hle hn) (Nat.le_refl _)
  · rw [← hcodes c]
    exact hadvance.grows.code_eq (Nat.lt_of_lt_of_le hc ha.grows.bodies)

/-- **Entering a scope** settles its place and lowers its parts there, unless there is a
violation. -/
theorem enter_spec {statements : List Surface.Stmt}
    (hdeclared : h.declarations = Surface.declarations statements)
    (hplain : (Surface.Region.mk h parts).plain = true) (hkind : h.kind ≠ .moduleBody)
    (ho : Opening s s outer (placeAt h outer code shells (h.paramNames (scopesOf outer)) []) [])
    (hn : ∀ c ∈ code :: shells, n ≤ c.index)
    (hx : Lowers dialect (⟨h.scope (scopesOf outer), code, shells⟩ :: outer) x parts Q) :
    Ends (openScope code statements >>= fun _ => x) s
      (fun a s' => ∃ names trees, Q a names ∧
        Entered dialect n h outer code shells s s' parts names trees)
      fun failure _ => FailsIn (h.declarationViolations (scopesOf outer) ++
        partsViolations dialect (h.scope (scopesOf outer) :: scopesOf outer) parts) failure := by
  rw [Surface.Region.plain, Bool.and_eq_true, List.all_eq_true] at hplain
  rw [ends_bind]
  refine (openScope_spec hdeclared (fun declared hd => by simpa using hplain.1 declared hd) hkind
    ho).weaken (fun _ s₁ => ?_) fun _ _ hf => hf.mono (List.subset_append_left _ _)
  rintro ⟨⟨nonlocals, ho₁⟩, hvalid⟩
  refine (enter_of_settled ?_ ho₁.settled ho₁.codes hvalid hn hplain.2 hx).weaken
    (fun _ _ h => h) fun _ _ hf => hf.mono (List.subset_append_right _ _)
  refine ⟨ho₁.wellFormed, ho₁.grows.mono (hn code List.mem_cons_self), ho₁.around,
    fun c hc hmem => ho₁.frame c fun hin => ?_, fun c => ?_⟩
  · rcases List.mem_append.1 hin with hin | hin
    · exact Nat.not_lt.2 (hn c hin) hc
    · exact hmem hin
  · rw [ho₁.size, List.count_nil, if_neg]
    omega

/-- **Entering a scope that declares nothing** besides its parameters. -/
theorem enter_bare (hdeclared : h.declarations = []) (hkind : h.kind ≠ .moduleBody)
    (hplain : partsPlain parts = true)
    (ho : Opening s s outer (placeAt h outer code shells (h.paramNames (scopesOf outer)) []) [])
    (hn : ∀ c ∈ code :: shells, n ≤ c.index)
    (hx : Lowers dialect (⟨h.scope (scopesOf outer), code, shells⟩ :: outer) x parts Q) :
    Ends x s
      (fun a s' => ∃ names trees, Q a names ∧
        Entered dialect n h outer code shells s s' parts names trees)
      fun failure _ => FailsIn
        (partsViolations dialect (h.scope (scopesOf outer) :: scopesOf outer) parts) failure := by
  have hscope : (placeAt h outer code shells (h.paramNames (scopesOf outer)) []) =
      ⟨h.scope (scopesOf outer), code, shells⟩ := by
    simp [placeAt, Header.scope, Header.localNames, Header.bound, Header.globals, hdeclared]
  refine enter_of_settled (.refl ho.wellFormed ho.around) (hscope ▸ ho.settled) (fun _ => rfl) ?_ hn
    hplain hx
  rw [Header.declarationViolations, if_neg hkind]
  simp [Header.globals, Header.nonlocals, hdeclared]

/-- Code without releases is attached to a body that has none. -/
theorem attachCode_advances {places : List Place} {block : IR.Block} (hs : s.WellFormed)
    (hsettled : AllSettled s places) (hold : ∀ c ∈ bodiesOf places, c.index < n)
    (hn : n ≤ b.index) (hcode : (s.body b).code = none) (hq : block.quiet = true) :
    Ends (attachCode b block) s
      (fun _ s' => Advances n places s s' [] ∧
        s' = s.modifyBody b fun body => { body with code := some block })
      fun _ _ => False := by
  refine ends_tryUpdate.2 ⟨fun s' ha => ?_, fun fault ha => ?_⟩
  · have hg : Store.Grows n s s' := Store.Grows.attachCode ha hn
    have hwf := hs.attachCode hq ha
    obtain ⟨-, rfl⟩ := IR.Store.attachCode_eq_ok ha
    exact ⟨.of_visible hs hsettled hwf hg hold
      (fun c => IR.Store.visible_modifyBody fun _ => rfl) (IR.Store.size_bodies_modifyBody _ _ _),
      rfl⟩
  · rw [IR.Store.attachCode_ok hcode] at ha
    cases ha

/-- **Attaching the code of a scope** makes the scope a part of the one around it. -/
theorem Entered.close (he : Entered dialect n h outer code shells s s' parts names trees)
    (hparams : h.paramViolations dialect (scopesOf outer) = [])
    (hold : ∀ c ∈ bodiesOf outer, c.index < n) (hn : n ≤ code.index)
    (hcode : code.index < s.bodies.size) (hcodeless : (s.body code).code = none)
    {block : IR.Block} (hnames : block.occurrences = names) (hq : block.quiet = true) :
    Ends (attachCode code block) s'
      (fun _ s'' => Progress dialect n outer s s'' (treeBodies trees) [.scope ⟨h, parts⟩] []
          [.node ⟨h.scope (scopesOf outer), code, shells⟩ trees] ∧
        ∀ c : BodyId, c ≠ code → c.index < s.bodies.size →
          (s''.body c).code = (s.body c).code)
      fun _ _ => False := by
  have hplanned := he.settled.1.toPlanned
  refine (attachCode_advances he.advances.wellFormed he.advances.settled hold hn
    ((he.codes code hcode).trans hcodeless) hq).weaken ?_ fun _ _ h => h
  rintro - s'' ⟨ha, rfl⟩
  have hcarry := carries_of_grows he.advances.wellFormed ha.grows
  have hlt : code.index < s'.bodies.size := hplanned.created code List.mem_cons_self
  have hadvances := he.advances.trans ha (Nat.le_refl _)
  rw [List.append_nil] at hadvances
  refine ⟨⟨hadvances, .single ?_ ⟨rfl, _, rfl, rfl, ?_, ?_, names, ?_, ?_⟩⟩, fun c hc hlt => ?_⟩
  · rw [Part.violations, Surface.Region.violations, hparams, he.declared]
    exact he.renders.valid
  · exact (hcarry.kind _ hlt).trans hplanned.kind
  · exact hcarry.leads hlt hplanned.leads
  · unfold Store.codeOccurrences
    rw [IR.Store.body_modifyBody_self hlt]
    exact congrArg some hnames
  · exact PartsResolved.carry hcarry _ _ _ _ he.renders.resolved
  · rw [IR.Store.body_modifyBody_ne hc.symm]
    exact he.codes c hlt

end Scopes

end Lowering

end DefinitionLowering
