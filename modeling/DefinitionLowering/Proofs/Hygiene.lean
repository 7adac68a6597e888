import DefinitionLowering.Proofs.Independence
import DefinitionLowering.Proofs.Spelling
import DefinitionLowering.Proofs.Wrapping

/-!
# Synthesized variables are hygienic

Main result: `synthesized_hygienic`.  In a module without reserved identifiers, a variable with a
reserved name is a placeholder: only the wrapper that owns it sees and mentions it, once where it
takes an iterator over it and once where it releases it.  A temporary is seen by no body and
mentioned only by the wrapper that owns it.

Wrappers stand between a body and the scopes around it, so names are searched in them.  But a search
for a name that is not reserved never ends at a placeholder; `GrowsPlainly` says of a step that it
makes no reserved names known.  `Hygienic` is what all steps of lowering preserve.
-/

namespace DefinitionLowering

open IR (BodyId VariableId Store)

/-! ## Names that come to be known -/

namespace IR.Store

variable {s s₁ s' : Store} {b c : BodyId} {v : VariableId} {name : String} {plan : BodyPlan}

/-- The store has grown, and only names that are not reserved came to be known. -/
structure GrowsPlainly (s s' : Store) : Prop where
  grows : Grows 0 s s'
  wellFormed : s'.WellFormed
  vars : ∀ v : VariableId, s.vars.size ≤ v.index → v.index < s'.vars.size →
    isReserved (s'.var v).name = false
  visible : ∀ c, ∀ v ∈ s'.visible c, v ∈ s.visible c ∨ isReserved (s'.var v).name = false

theorem GrowsPlainly.trans (h : GrowsPlainly s s₁) (h' : GrowsPlainly s₁ s') :
    GrowsPlainly s s' where
  grows := h.grows.trans h'.grows (Nat.le_refl 0)
  wellFormed := h'.wellFormed
  vars v hlow hhigh := by
    by_cases hmid : v.index < s₁.vars.size
    · rw [h'.grows.var v hmid]
      exact h.vars v hlow hmid
    · exact h'.vars v (Nat.not_lt.1 hmid) hhigh
  visible c v hv := by
    rcases h'.visible c v hv with hv | hplain
    · rw [h'.grows.var v (h.wellFormed.seen c v hv).1]
      exact h.visible c v hv
    · exact Or.inr hplain

/-- A step that makes no names known. -/
theorem growsPlainly_of_same (hg : Grows 0 s s') (hs' : s'.WellFormed)
    (hvars : s'.vars.size = s.vars.size) (hvisible : ∀ c, s'.visible c = s.visible c) :
    GrowsPlainly s s' :=
  ⟨hg, hs', fun _ hlow hhigh => absurd hhigh (by omega), fun c _ hv => Or.inl (hvisible c ▸ hv)⟩

theorem growsPlainly_refl (hs : s.WellFormed) : GrowsPlainly s s :=
  growsPlainly_of_same (Grows.refl 0 s) hs rfl fun _ => rfl

/-- A change to a body that leaves alone what it sees. -/
theorem growsPlainly_modifyBody {f : Body → Body} (hg : Grows 0 s (s.modifyBody b f))
    (hs' : (s.modifyBody b f).WellFormed) (hf : ∀ body, (f body).visible = body.visible) :
    GrowsPlainly s (s.modifyBody b f) :=
  growsPlainly_of_same hg hs' rfl fun c =>
    body_modifyBody_of (P := fun body => body.visible = s.visible c) (hf _ |>.trans ·) rfl

/-- Searching a name that is not reserved finds no reserved one. -/
theorem growsPlainly_resolve (hs : s.WellFormed) (hname : isReserved name = false) :
    GrowsPlainly s (s.resolve b name).2 where
  grows := Grows.resolve 0 s b name
  wellFormed := hs.resolve b name
  vars v hlow hhigh := absurd hhigh (by rw [vars_resolve]; omega)
  visible c v hv := by
    rcases hs.ordered.resolve_visible s b name c with hsame | ⟨w, -, -, hlookup, hnew⟩
    · exact Or.inl (hsame ▸ hv)
    · rw [hnew] at hv
      refine (List.mem_append.1 hv).imp_right fun hv => ?_
      rw [var, vars_resolve, ← var, List.mem_singleton.1 hv, (hs.known_of_lookup hlookup).2.2]
      exact hname

theorem growsPlainly_declareLocal (hs : s.WellFormed) (hb : b.index < s.bodies.size)
    (hname : isReserved name = false) : GrowsPlainly s (s.declareLocal b name).2 := by
  rcases declareLocal_cases hb name with ⟨w, -, hsame⟩ | hnew
  · rw [hsame]
    exact growsPlainly_refl hs
  · refine ⟨hnew.grows 0, hs.declareLocal hb, fun v hlow hhigh => ?_, fun c v hv => ?_⟩
    · rw [hnew.eq_new hlow hhigh, hnew.var]
      exact hname
    · refine (hnew.mem_visible hv).imp_right fun hv => ?_
      rw [hv.2, hnew.var]
      exact hname

/-- A new body whose parameters have no reserved names. -/
theorem growsPlainly_createBody (hs' : (s.createBody plan).2.WellFormed)
    (hslots : ∀ slot ∈ plan.slots, isReserved slot = false) :
    GrowsPlainly s (s.createBody plan).2 := by
  have hnew : ∀ v : VariableId, s.vars.size ≤ v.index →
      v.index < (s.createBody plan).2.vars.size →
      isReserved ((s.createBody plan).2.var v).name = false := by
    intro v hlow hhigh
    obtain ⟨slot, hslot, hvar⟩ := var_createBody_new hlow hhigh
    rw [hvar]
    exact hslots slot hslot
  refine ⟨(Grows.createBody s plan).mono (Nat.zero_le _), hs', hnew, fun c v hv => ?_⟩
  by_cases hc : c = ⟨s.bodies.size⟩
  · subst hc
    obtain ⟨hlow, hhigh⟩ := mem_visible_createBody_self.1 hv
    exact Or.inr (hnew v hlow hhigh)
  · rw [visible, body_createBody_ne hc] at hv
    exact Or.inl hv

/-- A new object, which sees what its function sees. -/
theorem growsPlainly_withObject (hs : s.WellFormed) (hb : b.index < s.bodies.size)
    (hslots : plan.slots = []) (hs' : (s.withObject plan b).WellFormed)
    (hplain : ∀ v ∈ s.visible b, isReserved (s.var v).name = false) :
    GrowsPlainly s (s.withObject plan b) := by
  have hg : Grows 0 s (s.withObject plan b) := (Grows.withObject s plan b).mono (Nat.zero_le _)
  refine ⟨hg, hs', fun v hlow hhigh => absurd hhigh (by rw [size_vars_withObject hslots]; omega),
    fun c v hv => ?_⟩
  have hlt := lt_of_mem_visible hv
  rw [size_bodies_withObject] at hlt
  by_cases hold : c.index < s.bodies.size
  · exact Or.inl (visible_withObject_of_lt hold ▸ hv)
  · rw [show c = ⟨s.bodies.size⟩ from congrArg BodyId.mk (by omega),
      hs.visible_withObject_self hb hslots] at hv
    right
    rw [hg.var v (hs.seen b v hv).1]
    exact hplain v hv

/-! ## Placeholders -/

/-- A parameter that the body it belongs to takes apart: the body assigns an iterator over it to a
temporary and mentions it nowhere else. -/
structure Unpacked (s : Store) (v : VariableId) : Prop where
  placeholder : isPlaceholder (s.var v).name = true
  parameter : (s.var v).kind = .parameter
  code : ∃ block, (s.body (s.var v).owner).code = some block ∧
    ∃ iterator ∈ s.temporaries (s.var v).owner,
      block.uses v = [.assignVariable iterator (.iterator (.var v))]

theorem Unpacked.grow (h : s.Unpacked v) (hs : s.WellFormed) (hg : Grows 0 s s')
    (hs' : s'.WellFormed) (hv : v.index < s.vars.size) : s'.Unpacked v := by
  obtain ⟨block, hcode, iterator, hiterator, huses⟩ := h.code
  have hvar := hg.var v hv
  exact ⟨hvar ▸ h.placeholder, hvar ▸ h.parameter, block, hvar ▸ hg.code _ block hcode, iterator,
    hvar ▸ mem_temporaries_grow hiterator hs hg hs', huses⟩

/-- Only its owner sees a variable with a reserved name, and takes it apart. -/
structure Hygienic (s : Store) : Prop where
  seen : ∀ c, ∀ v ∈ s.visible c, isReserved (s.var v).name = true → (s.var v).owner = c
  unpacked : ∀ v : VariableId, v.index < s.vars.size → isReserved (s.var v).name = true →
    s.Unpacked v

/-- What makes no reserved names known keeps a store hygienic. -/
theorem Hygienic.grow (h : s.Hygienic) (hs : s.WellFormed) (hg : GrowsPlainly s s') :
    s'.Hygienic where
  seen c v hv hreserved := by
    rcases hg.visible c v hv with hv | hplain
    · rw [hg.grows.var v (hs.seen c v hv).1] at hreserved ⊢
      exact h.seen c v hv hreserved
    · rw [hplain] at hreserved
      cases hreserved
  unpacked v hlt hreserved := by
    by_cases hold : v.index < s.vars.size
    · rw [hg.grows.var v hold] at hreserved
      exact (h.unpacked v hold hreserved).grow hs hg.grows hg.wellFormed hold
    · rw [hg.vars v (Nat.not_lt.1 hold) hlt] at hreserved
      cases hreserved

end IR.Store

open IR.Store (GrowsPlainly)

namespace Lowering

variable {setting : Setting} {b c : BodyId} {n : Nat} {s s₁ s' : Store} {made : Callable}
  {name : String} {doc : Option String} {flags : Flags} {params : Surface.Params}
  {location : Location} {v : VariableId}

/-! ## Opening a scope -/

theorem DeclareStep.growsPlainly (h : DeclareStep c name s s') (hs : s.WellFormed)
    (hc : c.index < s.bodies.size) (hname : isReserved name = false) : GrowsPlainly s s' := by
  cases h with
  | seen location w =>
    exact IR.Store.growsPlainly_modifyBody (Store.Grows.addNonlocal (Nat.zero_le _))
      hs.addNonlocal fun _ => rfl
  | found location w =>
    exact (IR.Store.growsPlainly_resolve hs hname).trans (IR.Store.growsPlainly_modifyBody
      (Store.Grows.addNonlocal (Nat.zero_le _)) (hs.resolve c name).addNonlocal fun _ => rfl)
  | bound => exact IR.Store.growsPlainly_declareLocal hs hc hname

/-- **Opening a scope** makes no reserved names known when none are written. -/
theorem growsPlainly_openScope {statements : List Surface.Stmt} (hs : s.WellFormed)
    (hc : c.index < s.bodies.size) (hrun : openScope c statements s = .ok () s')
    (hnames : ∀ id ∈ Surface.stmtsIdentifiers statements, isReserved id = false) :
    GrowsPlainly s s' := by
  obtain ⟨s₁, hglobals, hdeclares⟩ := openScope_steps hrun
  have hfirst : GrowsPlainly s s₁ := by
    clear hdeclares
    induction hglobals with
    | refl => exact IR.Store.growsPlainly_refl hs
    | tail _ hlast ih =>
      obtain ⟨text, -⟩ := hlast
      exact ih.trans (IR.Store.growsPlainly_modifyBody (Store.Grows.addGlobal (Nat.zero_le _))
        ih.wellFormed.addGlobal fun _ => rfl)
  clear hrun
  induction hdeclares with
  | refl => exact hfirst
  | tail _ hlast ih =>
    obtain ⟨written, hwritten, hstep⟩ := hlast
    refine ih.trans (hstep.growsPlainly ih.wellFormed (Nat.lt_of_lt_of_le hc ih.grows.bodies) ?_)
    rw [IR.Store.isReserved_spell]
    exact hnames written hwritten

/-! ## Attaching code -/

/-- Attaching code makes no names known. -/
theorem attachCode_same {block : IR.Block} (h : attachCode c block s = .ok () s') :
    s'.vars.size = s.vars.size ∧ ∀ d, s'.visible d = s.visible d := by
  rw [(attachCode_ok h).2]
  exact ⟨rfl, fun d =>
    IR.Store.body_modifyBody_of (P := fun body => body.visible = s.visible d) id rfl⟩

theorem attachLambda_same {object : Option BodyId} {value : IR.Expr}
    (h : attachLambda made object value s = .ok () s') :
    s'.vars.size = s.vars.size ∧ ∀ d, s'.visible d = s.visible d := by
  cases object with
  | none => exact attachCode_same h
  | some o =>
    obtain ⟨_, s₁, h₁, h₂⟩ := bind_eq_ok h
    obtain ⟨hvars₁, hvisible₁⟩ := attachCode_same h₁
    obtain ⟨hvars₂, hvisible₂⟩ := attachCode_same h₂
    exact ⟨hvars₂.trans hvars₁, fun d => (hvisible₂ d).trans (hvisible₁ d)⟩

section Ran

variable {α : Type} {x : Lowering α} {a : α}

theorem Ran.growsPlainly (h : Ran n x s a s')
    (hsame : s'.vars.size = s.vars.size ∧ ∀ d, s'.visible d = s.visible d) : GrowsPlainly s s' :=
  IR.Store.growsPlainly_of_same (h.grows.mono (Nat.zero_le n)) h.wellFormed hsame.1 hsame.2

end Ran

/-! ## Callables -/

/-- A body that sees no variable with a reserved name. -/
def SeesPlain (s : Store) (b : BodyId) : Prop :=
  ∀ v ∈ s.visible b, isReserved (s.var v).name = false

/-- The object of a callable sees what the function sees. -/
theorem growsPlainly_createObject {kind : ObjectKind} {object : BodyId} (hs : s.WellFormed)
    (hfunction : made.function.index < s.bodies.size) (hplain : SeesPlain s made.function)
    (h : Ran n (createObject made kind name flags location) s object s') : GrowsPlainly s s' := by
  have hrun := h.run
  have hs' := h.wellFormed
  rw [createObject_run] at hrun
  cases hrun
  exact IR.Store.growsPlainly_withObject hs hfunction rfl hs' hplain

theorem growsPlainly_lambdaObject {kind : CallableKind} {object : Option BodyId}
    (hs : s.WellFormed) (hfunction : made.function.index < s.bodies.size)
    (hplain : SeesPlain s made.function)
    (h : Ran n (lambdaObject made kind flags location) s object s') : GrowsPlainly s s' := by
  rcases lambdaObject_ok h.run with ⟨-, -, rfl⟩ | ⟨o, -, -, hcreate⟩
  · exact IR.Store.growsPlainly_refl hs
  · exact growsPlainly_createObject hs hfunction hplain ⟨hcreate, h.grows, h.wellFormed⟩

/-- The names of the temporaries of a wrapper are not reserved. -/
theorem isReserved_scratchNames {spell : String → String} {formals : List Surface.Pattern}
    (h : name ∈ scratchNames spell formals) : isReserved name = false := by
  rcases List.mem_append.1 ((Surface.patternsScratch_perm _ _ _).subset h) with h | h
  · obtain ⟨number, -, rfl⟩ := List.mem_map.1 h
    simp [isReserved]
  · obtain ⟨leaf, -, rfl⟩ := List.mem_map.1 h
    simp [isReserved]

theorem growsPlainly_plainCodeBody {kind : CallableKind} {d : Surface.Def} (hs : s.WellFormed)
    (hplaced : Placed n s made) (hplain : SeesPlain s made.function)
    (h : Ran n (plainCodeBody made kind d flags) s c s') : GrowsPlainly s s' := by
  rcases plainCodeBody_ok h.run with ⟨-, -, rfl⟩ | ⟨s₁, -, hcreate, hmaker⟩
  · exact IR.Store.growsPlainly_refl hs
  · have hran := createObject_ran hs hplaced.bound hplaced.outer hplaced.function hcreate
    obtain ⟨hvars, hvisible⟩ := attachCode_same hmaker
    exact (growsPlainly_createObject hs hplaced.function.2 hplain hran).trans
      (IR.Store.growsPlainly_of_same (attachCode_ok hmaker).1 h.wellFormed hvars hvisible)

/-- A new body without reserved parameters sees no reserved names. -/
theorem seesPlain_createBody {plan : IR.BodyPlan}
    (hslots : ∀ slot ∈ plan.slots, isReserved slot = false) :
    SeesPlain (s.createBody plan).2 ⟨s.bodies.size⟩ :=
  fun _ hv => hslots _ (param_of_mem_visible hv).2.1

section Wrapped

variable {plan inner : IR.BodyPlan}

/-- The delegate sees its parameters. -/
theorem Wrapped.seesPlain_delegate (hw : Wrapped s s' plan inner)
    (hslots : ∀ slot ∈ inner.slots, isReserved slot = false) :
    SeesPlain s' ⟨(s.createBody plan).2.bodies.size⟩ := by
  intro v hv
  rw [hw.visible_delegate] at hv
  rw [hw.var v (param_of_mem_visible hv).1]
  exact seesPlain_createBody hslots v hv

/-- What the bodies see after a wrapper was created: old bodies what they saw, the wrapper and the
delegate their parameters. -/
theorem Wrapped.visible_cases (hw : Wrapped s s' plan inner) (hv : v ∈ s'.visible c) :
    v ∈ s.visible c ∨
      (c = ⟨s.bodies.size⟩ ∧ v ∈ (s.createBody plan).2.visible ⟨s.bodies.size⟩) ∨
      c = ⟨(s.createBody plan).2.bodies.size⟩ := by
  have hlt := IR.Store.lt_of_mem_visible hv
  rw [hw.size] at hlt
  by_cases hold : c.index < s.bodies.size
  · exact Or.inl (hw.visible_of_lt hold ▸ hv)
  by_cases hwrapper : c = ⟨s.bodies.size⟩
  · obtain ⟨temporaries, block, hbody⟩ := hw.wrapper
    rw [hwrapper, Store.visible, hbody] at hv
    exact Or.inr (Or.inl ⟨hwrapper, hv⟩)
  · have hindex : c.index ≠ s.bodies.size := fun he => hwrapper (congrArg BodyId.mk he)
    rw [IR.Store.size_bodies_createBody]
    exact Or.inr (Or.inr (congrArg BodyId.mk (by omega)))

end Wrapped

/-- A new wrapper with its delegate. -/
theorem hygienic_createDelegate {delegate : BodyId} {plan : IR.BodyPlan} {signature : Signature}
    {placeholders : List Placeholder} {spell : String → String} {formals : List Surface.Pattern}
    {code : CodeObject} (hs : s.WellFormed) (h : s.Hygienic) (hg : Store.Grows 0 s s')
    (hs' : s'.WellFormed)
    (hfresh : IsFresh (s.createBody plan).2 ⟨s.bodies.size⟩ signature placeholders spell formals)
    (hrun : createDelegate ⟨s.bodies.size⟩ signature placeholders code flags doc location
      (s.createBody plan).2 = .ok delegate s')
    (hplain : ∀ name ∈ leafNames spell formals, isReserved name = false) :
    s'.Hygienic ∧ SeesPlain s' delegate := by
  obtain ⟨rfl, hw⟩ := wrapped_createDelegate hfresh hrun
  let created := (s.createBody plan).2
  let inner := delegatePlan ⟨s.bodies.size⟩ signature.name (leafNames spell formals) flags doc
    location
  have hdelegate := hw.seesPlain_delegate (by rwa [show inner.slots = _ from
    delegateSignature_slots])
  have hwrapper : ∀ v ∈ created.visible ⟨s.bodies.size⟩, s'.var v = created.var v := fun v hv => by
    rw [hw.var v (Nat.lt_of_lt_of_le (param_of_mem_visible hv).1
      (Store.Grows.createBody created inner).vars)]
    exact IR.Store.var_createBody_of_lt _ _ (param_of_mem_visible hv).1
  refine ⟨⟨fun c v hv hreserved => ?seen, fun v hlt hreserved => ?unpacked⟩, hdelegate⟩
  case seen =>
    rcases hw.visible_cases hv with hold | ⟨rfl, hparam⟩ | rfl
    · rw [hg.var v (hs.seen c v hold).1] at hreserved ⊢
      exact h.seen c v hold hreserved
    · rw [hwrapper v hparam]
      exact (param_of_mem_visible hparam).2.2.1
    · rw [hdelegate v hv] at hreserved
      cases hreserved
  case unpacked =>
    -- the variables there were, the wrapper's parameters, the delegate's, and the temporaries
    by_cases hold : v.index < s.vars.size
    · rw [hg.var v hold] at hreserved
      exact (h.unpacked v hold hreserved).grow hs hg hs' hold
    by_cases hparam : v.index < created.vars.size
    · have hv : v ∈ created.visible ⟨s.bodies.size⟩ :=
        IR.Store.mem_visible_createBody_self.2 ⟨Nat.not_lt.1 hold, hparam⟩
      obtain ⟨-, -, howner, hkind⟩ := param_of_mem_visible hv
      have hvar := hwrapper v hv
      rw [hvar] at hreserved
      obtain ⟨hplaceholder, hcode⟩ := createDelegate_uses hfresh hrun hs' hv hplain hreserved
      constructor
      · rwa [hvar]
      · rwa [hvar]
      · rwa [hvar, howner]
    exfalso
    by_cases hleaf : v.index < (created.createBody inner).2.vars.size
    · have hv : v ∈ (created.createBody inner).2.visible ⟨created.bodies.size⟩ :=
        IR.Store.mem_visible_createBody_self.2 ⟨Nat.not_lt.1 hparam, hleaf⟩
      rw [hdelegate v (hw.visible_delegate ▸ hv)] at hreserved
      cases hreserved
    · obtain ⟨-, -, u, -, hstore⟩ := (createDelegate_spec hfresh).of_ok hrun
      rw [hstore] at hlt hreserved
      obtain ⟨text, htext, hvar⟩ := IR.Store.var_withTemporaries_of_le (Nat.not_lt.1 hleaf) hlt
      rw [IR.Store.var_modifyBody, hvar, isReserved_scratchNames htext] at hreserved
      cases hreserved

/-- **Building a callable** keeps the store hygienic, and the function sees no reserved names. -/
theorem hygienic_buildCallable {kind : CallableKind} (hs : s.WellFormed)
    (hb : b.index < s.bodies.size) (h : s.Hygienic)
    (hran : Ran n (buildCallable setting b kind name doc flags params location) s made s') :
    s'.Hygienic ∧ SeesPlain s' made.function := by
  have hg : Store.Grows 0 s s' := hran.grows.mono (Nat.zero_le n)
  have hs' := hran.wellFormed
  obtain ⟨hsig, houter, hcases⟩ := (buildCallable_spec hs.ordered hb).of_ok hran.run
  have hplain : ∀ text ∈ leafNames (s.spell b) params.formals, isReserved text = false :=
    fun text htext => leaf_not_reserved (s.isReserved_spell b) (checks_of_signature hsig).2.1 htext
  obtain ⟨-, hnodup⟩ := signature_eq_ok hsig
  rcases hcases with ⟨htuple, hfunction, rfl⟩ | ⟨-, hrun⟩
  · have hslots : ∀ slot ∈ (functionPlan b name (params.rawSignature (s.spell b) name) flags doc
        location).slots, isReserved slot = false := fun slot hslot =>
      hplain slot (slots_of_plain htuple ▸ hslot)
    rw [hfunction, houter]
    exact ⟨h.grow hs (IR.Store.growsPlainly_createBody hs' hslots), seesPlain_createBody hslots⟩
  · rw [houter] at hrun
    exact hygienic_createDelegate hs h hg hs'
      (isFresh_createBody flags doc location hs.ordered hb hnodup) hrun hplain

/-! ## The pass -/

/-- A step that keeps a store hygienic. -/
def KeepsHygienic (s s' : Store) : Prop :=
  s.Hygienic → s'.Hygienic

/-- On the way, in a hygienic store. -/
structure Clean (b : BodyId) (s : Store) : Prop where
  wellFormed : s.WellFormed
  here : b.index < s.bodies.size
  hygienic : s.Hygienic

namespace Clean

variable {α : Type} {x : Lowering α} {a : α}

theorem plainly (h : Clean b s) (hg : GrowsPlainly s s') : Clean b s' :=
  ⟨hg.wellFormed, Nat.lt_of_lt_of_le h.here hg.grows.bodies, h.hygienic.grow h.wellFormed hg⟩

/-- A step that obeys the pass, in any body. -/
theorem ran (h : Clean b s) (hran : Ran n x s a s') (hx : Obeys (fun _ => KeepsHygienic) c x)
    (hc : c.index < s.bodies.size) : Clean b s' :=
  ⟨hran.wellFormed, hran.created h.here, (hx s a s' h.wellFormed hc hran.run).2.2 h.hygienic⟩

/-- A callable is built. -/
theorem built {kind : CallableKind} (h : Clean b s)
    (hran : Ran n (buildCallable setting b kind name doc flags params location) s made s') :
    Clean b s' ∧ SeesPlain s' made.function :=
  (hygienic_buildCallable h.wellFormed h.here h.hygienic hran).imp_left
    (⟨hran.wellFormed, hran.created h.here, ·⟩)

/-- A scope is opened, in any body. -/
theorem opened {statements : List Surface.Stmt} (h : Clean b s)
    (hran : Ran n (openScope c (Surface.undocumented statements)) s () s')
    (hc : c.index < s.bodies.size)
    (hnames : ∀ id ∈ Surface.stmtsIdentifiers statements, isReserved id = false) : Clean b s' :=
  h.plainly (growsPlainly_openScope h.wellFormed hc hran.run fun id hid =>
    hnames id (Surface.mem_identifiers_of_undocumented hid))

/-- Code is attached to some body. -/
theorem attached {block : IR.Block} (h : Clean b s) (hran : Ran n (attachCode c block) s () s') :
    Clean b s' :=
  h.plainly (hran.growsPlainly (attachCode_same hran.run))

end Clean

/-- A name that is not reserved. -/
def Unreserved (name : String) : Prop :=
  isReserved name = false

theorem hygienic_expr (setting : Setting) :
    ExprPass setting Unreserved fun _ => KeepsHygienic where
  spell hname := (IR.Store.isReserved_spell _ _ _).trans hname
  refl _ := id
  trans _ _ _ _ _ h₁ h₂ := fun h => h₂ (h₁ h)
  resolve hname hs _ := fun h => h.grow hs (IR.Store.growsPlainly_resolve hs hname)
  lambda := by
    intro b s e s' l hdefaultsPass hkeywordsPass hvaluePass hs hb hrun h
    obtain ⟨made, object, defaults, keywords, value, s₁, s₂, s₃, s₄, s₅, hbuild, hplaced, hcreate,
      hcode, hdefaults, hkeywords, hvalue, hattach, rfl⟩ := hrun
    obtain ⟨u₁, hplain⟩ := Clean.built ⟨hs, hb, h⟩ hbuild
    have u₂ := u₁.plainly
      (growsPlainly_lambdaObject u₁.wellFormed hplaced.function.2 hplain hcreate)
    have u₃ := u₂.ran hdefaults (hdefaultsPass b _) u₂.here
    have u₄ := u₃.ran hkeywords (hkeywordsPass b _ _) u₃.here
    have u₅ := u₄.ran hvalue (hvaluePass _ _) (hkeywords.created (hdefaults.created hcode.2))
    exact (u₅.plainly (hattach.growsPlainly (attachLambda_same hattach.run))).hygienic

section Definitions

variable {d : Surface.Def} {statement : IR.Stmt}

theorem hygienic_plain (hd : ∀ id ∈ d.identifiers, Unreserved id)
    (hpass : ∀ c, Obeys (fun _ => KeepsHygienic) c
      (lowerStmts setting c (Surface.undocumented d.body)))
    (hs : s.WellFormed) (hb : b.index < s.bodies.size)
    (hrun : PlainRun setting b d s statement s') : KeepsHygienic s s' := by
  intro h
  obtain ⟨made, code, decorators, defaults, keywords, annotations, lowered, s₁, s₂, s₃, s₄, s₅,
    s₆, s₇, s₈, s₉, hbuild, hplaced, hcreate, hcode, hdecorators, hdefaults, hkeywords, hopen,
    hbody, hattach, hannotations, hbind⟩ := hrun
  obtain ⟨hname, hparams, hstatements, happlied, hreturns⟩ := Surface.forall_def_identifiers.1 hd
  have pass := hygienic_expr setting
  obtain ⟨u₁, hplain⟩ := Clean.built ⟨hs, hb, h⟩ hbuild
  have u₂ := u₁.plainly (growsPlainly_plainCodeBody u₁.wellFormed hplaced hplain hcreate)
  have u₃ := u₂.ran hdecorators (pass.lowerDecorators happlied) u₂.here
  have u₄ := u₃.ran hdefaults (pass.lowerDefaults hparams) u₃.here
  have u₅ := u₄.ran hkeywords (pass.lowerKeywordMapping _ hparams) u₄.here
  have hcode₅ := hkeywords.created (hdefaults.created (hdecorators.created hcode.2))
  have u₆ := u₅.opened hopen hcode₅ hstatements
  have u₇ := u₆.ran hbody (hpass _) (hopen.created hcode₅)
  have u₈ := u₇.attached hattach
  have u₉ := u₈.ran hannotations (pass.lowerAnnotations hparams hreturns) u₈.here
  exact (u₉.ran hbind (pass.bindDefinition hname _) u₉.here).hygienic

theorem hygienic_async (hd : ∀ id ∈ d.identifiers, Unreserved id)
    (hpass : ∀ c, Obeys (fun _ => KeepsHygienic) c
      (lowerStmts setting c (Surface.undocumented d.body)))
    (hs : s.WellFormed) (hb : b.index < s.bodies.size)
    (hrun : AsyncRun setting b d s statement s') : KeepsHygienic s s' := by
  intro h
  obtain ⟨kind, made, object, decorators, defaults, keywords, annotations, lowered, s₁, s₂, s₃,
    s₄, s₅, s₆, s₇, s₈, s₉, s₁₀, s₁₁, hkind, hbuild, hplaced, hcreate, hobject, hdecorators,
    hdefaults, hopen, hbody, hattach, hannotations, hkeywords, hmaker, rfl, hbind⟩ := hrun
  obtain ⟨hname, hparams, hstatements, happlied, hreturns⟩ := Surface.forall_def_identifiers.1 hd
  have pass := hygienic_expr setting
  obtain ⟨u₁, hplain⟩ := Clean.built ⟨hs, hb, h⟩ hbuild
  have u₂ := u₁.plainly
    (growsPlainly_createObject u₁.wellFormed hplaced.function.2 hplain hcreate)
  have u₃ := u₂.ran hdecorators (pass.lowerDecorators happlied) u₂.here
  have u₄ := u₃.ran hdefaults (pass.lowerDefaults hparams) u₃.here
  have hobject₄ := hdefaults.created (hdecorators.created hobject.2)
  have u₅ := u₄.opened hopen hobject₄ hstatements
  have u₆ := u₅.ran hbody (hpass _) (hopen.created hobject₄)
  have u₇ := u₆.attached hattach
  have u₈ := u₇.ran hannotations (pass.lowerAnnotations hparams hreturns) u₇.here
  have u₉ := u₈.ran hkeywords (pass.lowerKeywordMapping _ hparams) u₈.here
  have u₁₀ := u₉.attached hmaker
  have hcopy : GrowsPlainly s₁₀ (s₁₀.copyNonlocals object made.function) :=
    IR.Store.growsPlainly_modifyBody (Store.Grows.copyNonlocals (Nat.zero_le _))
      (IR.Store.WellFormed.copyNonlocals hmaker.wellFormed) fun _ => rfl
  have u₁₁ := u₁₀.plainly hcopy
  exact (u₁₁.ran hbind (pass.bindDefinition hname _) u₁₁.here).hygienic

theorem hygienic_class {d : Surface.ClassDef} (hd : ∀ id ∈ d.identifiers, Unreserved id)
    (hpass : ∀ c, Obeys (fun _ => KeepsHygienic) c
      (lowerStmts setting c (Surface.undocumented d.body)))
    (hs : s.WellFormed) (hb : b.index < s.bodies.size)
    (hrun : ClassRun setting b d s statement s') : KeepsHygienic s s' := by
  intro h
  obtain ⟨decorators, bases, lowered, s₁, s₂, s₄, s₅, s₆, hdecorators, hbases, hcreate, hopen,
    hbody, hattach, hbind⟩ := hrun
  obtain ⟨hname, hbased, hstatements, happlied⟩ := Surface.forall_classDef_identifiers.1 hd
  have pass := hygienic_expr setting
  have u₁ := Clean.ran ⟨hs, hb, h⟩ hdecorators (pass.lowerDecorators happlied) hb
  have u₂ := u₁.ran hbases (pass.lowerExprs _ _ _ hbased) u₁.here
  have u₃ := u₂.plainly (IR.Store.growsPlainly_createBody hcreate nofun)
  have hcode : s₂.bodies.size < (s₂.createBody (classPlan b d)).2.bodies.size := by simp
  have u₄ := u₃.opened hopen hcode hstatements
  have u₅ := u₄.ran hbody (hpass _) (hopen.created hcode)
  have u₆ := u₅.attached hattach
  exact (u₆.ran hbind (pass.bindDefinition hname _) u₆.here).hygienic

end Definitions

/-- **Lowering keeps a store hygienic** when the identifiers are not reserved. -/
theorem hygienic (setting : Setting) : StmtPass setting Unreserved fun _ => KeepsHygienic where
  toExprPass := hygienic_expr setting
  plain _ hd hpass hs hb hrun := hygienic_plain hd hpass hs hb hrun
  async _ hd hpass hs hb hrun := hygienic_async hd hpass hs hb hrun
  defineClass hd hpass hs hb hrun := hygienic_class hd hpass hs hb hrun

end Lowering

/-! ## Lowered modules -/

namespace IR.Store

variable {s : Store} {v : VariableId}

/-- A variable that only the body it belongs to mentions. -/
def Private (s : Store) (v : VariableId) : Prop :=
  ∀ c block, (s.body c).code = some block → v ∈ block.variables → c = (s.var v).owner

/-- A placeholder is private to the wrapper that it is a parameter of, and no other body sees it.
The wrapper assigns an iterator over it to a temporary, releases it, and mentions it nowhere
else. -/
structure PlaceholderHygienic (s : Store) (v : VariableId) : Prop where
  placeholder : isPlaceholder (s.var v).name = true
  parameter : (s.var v).kind = .parameter
  seen : ∀ c, v ∈ s.visible c ↔ c = (s.var v).owner
  confined : s.Private v
  uses : ∃ block, (s.body (s.var v).owner).code = some block ∧
    ∃ iterator ∈ s.temporaries (s.var v).owner,
      block.uses v = [.assignVariable iterator (.iterator (.var v)), .release v]

/-- A temporary is private to the wrapper that has it, and no body sees it. -/
structure TemporaryHygienic (s : Store) (v : VariableId) : Prop where
  listed : v ∈ s.temporaries (s.var v).owner
  unseen : ∀ c, v ∉ s.visible c
  confined : s.Private v

end IR.Store

section Module

variable {setting : Setting} {m : Surface.Module} {statements : List IR.Stmt} {t : Store}
  {lowered : LoweredModule} {v : VariableId}

/-- The statements of a module leave a hygienic store, since they start without variables. -/
theorem TopRun.hygienic (h : TopRun setting m statements t)
    (hnames : ∀ id ∈ m.identifiers, isReserved id = false) : t.Hygienic := by
  have hopened := (Lowering.valid_opened h.global).wellFormed
  have hstart : (Lowering.opened m).Hygienic :=
    ⟨fun c v hv => absurd (hopened.seen c v hv).1 (Nat.not_lt_zero _),
      fun v hv => absurd hv (Nat.not_lt_zero _)⟩
  exact ((Lowering.hygienic setting).lowerStmts (Surface.undocumented m.body) ⟨0⟩ (fun id hid =>
    hnames id (Surface.mem_identifiers_of_undocumented hid)) _ _ _ hopened Nat.one_pos
    h.run).2.2 hstart

/-- Completing a module changes nothing but code. -/
theorem Completed.body_eq (h : Completed t statements lowered) (b : BodyId) :
    ∃ code, lowered.store.body b = { t.body b with code := code } := by
  by_cases hb : b = ⟨0⟩
  · exact ⟨_, hb ▸ h.module⟩
  · exact ⟨_, h.others b hb⟩

theorem Completed.var (h : Completed t statements lowered) (v : VariableId) :
    lowered.store.var v = t.var v := by
  rw [Store.var, Store.var, h.vars]

theorem Completed.visible (h : Completed t statements lowered) (b : BodyId) :
    lowered.store.visible b = t.visible b := by
  obtain ⟨code, hb⟩ := h.body_eq b
  rw [Store.visible, hb, Store.visible]

theorem Completed.temporaries (h : Completed t statements lowered) (b : BodyId) :
    lowered.store.temporaries b = t.temporaries b := by
  obtain ⟨code, hb⟩ := h.body_eq b
  rw [Store.temporaries, hb, Store.temporaries]

/-- What only its owner sees, only its owner mentions. -/
theorem LoweredModule.private_of_unseen (h : LoweredModule.ofSurface setting m = .ok lowered)
    (hunseen : ∀ c, v ∈ lowered.store.visible c → c = (lowered.store.var v).owner) :
    lowered.store.Private v := by
  intro c block hcode hmem
  obtain ⟨⟨found, hfound, hknown⟩, -⟩ := LoweredModule.closed h (IR.Store.lt_of_code hcode)
  cases hcode.symm.trans hfound
  rcases hknown v hmem with hseen | ⟨-, howner⟩
  · exact hunseen c hseen
  · exact howner.symm

/-- Releasing the variables of a body releases each of them once. -/
theorem IR.Store.Unpacked.uses_released (h : t.Unpacked v) (ht : t.WellFormed)
    (hseen : v ∈ t.visible (t.var v).owner) :
    ∃ block, t.releasedCode (t.var v).owner = some block ∧
      ∃ iterator ∈ t.temporaries (t.var v).owner,
        block.uses v = [.assignVariable iterator (.iterator (.var v)), .release v] := by
  obtain ⟨block, hcode, iterator, hiterator, huses⟩ := h.code
  have hown : v ∈ t.ownVariables (t.var v).owner := IR.Store.mem_ownVariables.2 ⟨hseen, rfl⟩
  have hnodup : (t.ownVariables (t.var v).owner).Nodup :=
    (ht.nodup_visible _).filter _
  have honce : (t.ownVariables (t.var v).owner).filter (· = v) = [v] := by
    rw [List.filter_eq, List.count_eq_one_of_mem hnodup hown]
    rfl
  refine ⟨block.releasing (t.ownVariables (t.var v).owner), ?_, iterator, hiterator, ?_⟩
  · rw [Store.releasedCode, if_neg (by simpa using List.ne_nil_of_mem hown), hcode]
    rfl
  · rw [IR.Block.uses_releasing, huses, honce]
    rfl

/-- **Synthesized variables are hygienic.** When no identifier of a module is reserved, whatever
else they look like, a variable with a reserved name is a placeholder that only its wrapper sees and
mentions, once to take an iterator over it and once to release it; and a temporary is seen by no
body and mentioned only by the wrapper that has it. -/
theorem LoweredModule.synthesized_hygienic (hnames : ∀ id ∈ m.identifiers, isReserved id = false)
    (h : LoweredModule.ofSurface setting m = .ok lowered)
    (hv : v.index < lowered.store.vars.size) :
    (isReserved (lowered.store.var v).name = true → lowered.store.PlaceholderHygienic v) ∧
      ((lowered.store.var v).kind = .temporary → lowered.store.TemporaryHygienic v) := by
  obtain ⟨statements, t, hrun, hdone⟩ := LoweredModule.topRun h
  have ht : t.WellFormed := hrun.valid.wellFormed
  have hlt : v.index < t.vars.size := hdone.vars ▸ hv
  have hvar := hdone.var v
  constructor
  · intro hreserved
    have hunseen : ∀ c, v ∈ lowered.store.visible c → c = (lowered.store.var v).owner := by
      intro c hseen
      rw [hdone.visible] at hseen
      rw [hvar] at hreserved ⊢
      exact ((hrun.hygienic hnames).seen c v hseen hreserved).symm
    have hunpacked := (hrun.hygienic hnames).unpacked v hlt (hvar ▸ hreserved)
    have hroot : (t.var v).owner ≠ ⟨0⟩ := by
      intro hzero
      obtain ⟨block, hcode, -⟩ := hunpacked.code
      rw [hzero, hrun.follows.root] at hcode
      cases hcode
    have hseen := ht.listed v hlt
    rw [if_neg (by rw [hunpacked.parameter]; decide)] at hseen
    refine ⟨hvar ▸ hunpacked.placeholder, hvar ▸ hunpacked.parameter,
      fun c => ⟨hunseen c, fun hc => ?_⟩, LoweredModule.private_of_unseen h hunseen, ?_⟩
    · rw [hc, hdone.visible, hvar]
      exact hseen
    · rw [hvar, hdone.temporaries, hdone.others _ hroot]
      exact hunpacked.uses_released ht hseen
  · intro hkind
    have hunseen : ∀ c, v ∉ lowered.store.visible c := by
      intro c hseen
      rw [hdone.visible] at hseen
      exact (ht.seen c v hseen).2 (hvar ▸ hkind)
    have hlisted := ht.listed v hlt
    rw [if_pos (hvar ▸ hkind)] at hlisted
    refine ⟨?_, hunseen, LoweredModule.private_of_unseen h fun c hseen =>
      absurd hseen (hunseen c)⟩
    rw [hvar, hdone.temporaries]
    exact hlisted

/-- A module whose identifiers look like synthesized ones: the leaves of a tuple are called like
temporaries, and a function in the delegate is called like the delegate. -/
def lookalikeModule : Surface.Module where
  name := "m"
  filename := "m.py"
  future := ⟨false, false, false, false, false⟩
  body :=
    [at? (.define (function "f" [.tuple [name "x", .tuple [name "tmp_x", name "arg_iter_0"]],
        name "y"]
      [at? (.define (function "f$inner" [] [at? (.ret (some (.name "tmp_x")))])),
        at? (.ret (some (.call (.name "f$inner") [.name "arg_iter_0"])))]))]
where
  at? (kind : Surface.StmtKind) : Surface.Stmt := ⟨kind, .moduleStart⟩
  name (id : String) : Surface.Pattern := .name ⟨id, none⟩
  function (name : String) (positional : List Surface.Pattern) (body : List Surface.Stmt) :
      Surface.Def :=
    { name := name
      params := ⟨positional, [], none, [], [], none⟩
      body := body
      decorators := []
      returns := none
      isAsync := false
      location := .moduleStart }

/-- The wrapper in `lookalikeModule` has a placeholder, and a temporary that is called like a leaf
of the tuple. -/
theorem LoweredModule.lookalikeModule_hygienic :
    ∃ lowered, LoweredModule.ofSurface (.ofDialect .modern) lookalikeModule = .ok lowered ∧
      (lowered.store.var ⟨0⟩).name = ".1" ∧ lowered.store.PlaceholderHygienic ⟨0⟩ ∧
      (lowered.store.var ⟨6⟩).name = "arg_iter_0" ∧ lowered.store.TemporaryHygienic ⟨6⟩ := by
  have hfacts : succeedsWith (fun l => decide (6 < l.store.vars.size ∧
      (l.store.var ⟨0⟩).name = ".1" ∧ (l.store.var ⟨6⟩).name = "arg_iter_0" ∧
      (l.store.var ⟨6⟩).kind = .temporary))
      (LoweredModule.ofSurface (.ofDialect .modern) lookalikeModule) = true := by
    decide +kernel
  have hnames : ∀ id ∈ lookalikeModule.identifiers, isReserved id = false := by
    decide +kernel
  obtain ⟨lowered, h, hfacts⟩ := exists_of_succeedsWith hfacts
  obtain ⟨hsize, hplaceholder, htemporary, hkind⟩ := of_decide_eq_true hfacts
  have hfirst := LoweredModule.synthesized_hygienic (v := ⟨0⟩) hnames h
    (Nat.lt_trans (by decide) hsize)
  have hscratch := LoweredModule.synthesized_hygienic (v := ⟨6⟩) hnames h hsize
  exact ⟨lowered, h, hplaceholder, hfirst.1 (by rw [hplaceholder]; decide), htemporary,
    hscratch.2 hkind⟩

end Module

end DefinitionLowering
