import DefinitionLowering.Proofs.Lookup
import DefinitionLowering.Proofs.Paths
import DefinitionLowering.Proofs.Temporaries

/-!
# Well-formed stores

`WellFormed` is what holds of the store all the time while a module is lowered: providers are
older than the bodies they serve and only modules have none, every variable is in its owner's
list of variables or of temporaries and in no other list of temporaries, a body sees no two
variables of one name, and the code of a body releases nothing but, at its very end, the
body's own temporaries (`Body.Shaped`).

There is one preservation theorem for each operation of the store.
-/

namespace DefinitionLowering.IR

/-- What the code of a body looks like before variables are released. -/
inductive Body.Shaped (body : Body) : Prop
  | codeless (hcode : body.code = none) (hscratch : body.temporaries = [])
  | plain (block : Block) (hcode : body.code = some block) (hquiet : block.quiet = true)
      (hscratch : body.temporaries = [])
  | wrapper (vars : List VariableId) (tried : Block)
      (hcode : body.code = some (tried.releasing vars)) (hquiet : tried.quiet = true)
      (hscratch : vars.Perm body.temporaries) (hsome : body.temporaries ≠ [])

theorem Body.Shaped.congr {body body' : Body} (h : body.Shaped) (hcode : body'.code = body.code)
    (hscratch : body'.temporaries = body.temporaries) : body'.Shaped := by
  cases h with
  | codeless hc ht => exact .codeless (hcode.trans hc) (hscratch.trans ht)
  | plain block hc hq ht => exact .plain block (hcode.trans hc) hq (hscratch.trans ht)
  | wrapper vars tried hc hq ht hsome =>
    exact .wrapper vars tried (hcode.trans hc) hq (by rw [hscratch]; exact ht)
      (by rw [hscratch]; exact hsome)

namespace Store

structure WellFormed (s : Store) : Prop where
  ordered : s.Ordered
  rooted : ∀ b : BodyId, b.index < s.bodies.size → (s.body b).provider = none →
    s.isModule b = true ∧ (s.body b).info.isSome = true
  root : ∀ b, s.isModule b = true → (s.body b).provider = none
  single : ∀ b : BodyId, b.index < s.bodies.size → s.isModule b = true → b.index = 0
  owner : ∀ v : VariableId, v.index < s.vars.size → (s.var v).owner.index < s.bodies.size
  listed : ∀ v : VariableId, v.index < s.vars.size →
    v ∈ if (s.var v).kind = .temporary then s.temporaries (s.var v).owner
      else s.visible (s.var v).owner
  seen : ∀ b, ∀ v ∈ s.visible b, v.index < s.vars.size ∧ (s.var v).kind ≠ .temporary
  names : ∀ b, ((s.visible b).map fun v => (s.var v).name).Nodup
  scratch : ∀ b, ∀ v ∈ s.temporaries b,
    v.index < s.vars.size ∧ (s.var v).owner = b ∧ (s.var v).kind = .temporary
  distinct : ∀ b, (s.temporaries b).Nodup
  shaped : ∀ b, (s.body b).Shaped

section Consequences

variable {s : Store} {b c : BodyId} {v w : VariableId} {name : String}

theorem WellFormed.nodup_visible (h : s.WellFormed) (b : BodyId) : (s.visible b).Nodup :=
  List.Nodup.of_map _ (h.names b)

theorem WellFormed.find?_eq_some_iff (h : s.WellFormed) :
    s.find? b name = some v ↔ v ∈ s.visible b ∧ (s.var v).name = name := by
  refine ⟨find?_eq_some, ?_⟩
  rintro ⟨hv, rfl⟩
  exact find?_of_mem (h.names b) hv

theorem WellFormed.known_of_lookup (h : s.WellFormed) (hl : s.lookup b name = some v) :
    v.index < s.vars.size ∧ (s.var v).kind ≠ .temporary ∧ (s.var v).name = name := by
  obtain ⟨c, -, hv, hname⟩ := lookupAlong_name hl
  exact ⟨(h.seen c v hv).1, (h.seen c v hv).2, hname⟩

/-- A body without code has no temporaries. -/
theorem WellFormed.codeless (h : s.WellFormed) (hc : (s.body b).code = none) :
    s.temporaries b = [] := by
  cases h.shaped b with
  | codeless _ ht => exact ht
  | plain block hcode => rw [hc] at hcode; cases hcode
  | wrapper vars tried hcode => rw [hc] at hcode; cases hcode

end Consequences

section Preservation

variable {s s' : Store} {b c : BodyId} {v : VariableId} {name : String}

theorem wellFormed_empty : WellFormed empty := by
  have hbody : ∀ b, empty.body b = default := fun b => body_of_size_le (Nat.zero_le _)
  refine ⟨ordered_empty, fun b hb => absurd hb (Nat.not_lt_zero _), fun b _ => by rw [hbody]; rfl,
    fun b hb => absurd hb (Nat.not_lt_zero _),
    fun v hv => absurd hv (Nat.not_lt_zero _), fun v hv => absurd hv (Nat.not_lt_zero _),
    fun b v hv => ?_, fun b => ?_, fun b v hv => ?_, fun b => ?_, fun b => ?_⟩
  · rw [visible, hbody] at hv
    cases hv
  · rw [visible, hbody]
    exact List.nodup_nil
  · rw [temporaries, hbody] at hv
    cases hv
  · rw [temporaries, hbody]
    exact List.nodup_nil
  · rw [hbody]
    exact .codeless rfl rfl

/-- Variables are added to a store, each in a list of its owner, and bodies come to see more. -/
structure Adds (s s' : Store) : Prop where
  vars : s.vars.size ≤ s'.vars.size
  bodies : s.bodies.size ≤ s'.bodies.size
  var : ∀ v : VariableId, v.index < s.vars.size → s'.var v = s.var v
  visible : ∀ b, s.visible b <+: s'.visible b
  temporaries : ∀ b, s.temporaries b ⊆ s'.temporaries b
  owner : ∀ v : VariableId, s.vars.size ≤ v.index → v.index < s'.vars.size →
    (s'.var v).owner.index < s'.bodies.size
  listed : ∀ v : VariableId, s.vars.size ≤ v.index → v.index < s'.vars.size →
    v ∈ if (s'.var v).kind = .temporary then s'.temporaries (s'.var v).owner
      else s'.visible (s'.var v).owner
  seen : ∀ b, ∀ v ∈ s'.visible b,
    (∃ c, v ∈ s.visible c) ∨ v.index < s'.vars.size ∧ (s'.var v).kind ≠ .temporary
  scratch : ∀ b, ∀ v ∈ s'.temporaries b, v ∈ s.temporaries b ∨
    v.index < s'.vars.size ∧ (s'.var v).owner = b ∧ (s'.var v).kind = .temporary
  names : ∀ b, ((s'.visible b).map fun v => (s'.var v).name).Nodup
  distinct : ∀ b, (s'.temporaries b).Nodup

/-- What is added is read off the variables and what bodies see and keep. -/
theorem Adds.congr {t : Store} (ha : Adds s s') (hvars : t.vars = s'.vars)
    (hsize : t.bodies.size = s'.bodies.size) (hvisible : ∀ b, t.visible b = s'.visible b)
    (hscratch : ∀ b, t.temporaries b = s'.temporaries b) : Adds s t := by
  have hvar : ∀ v, t.var v = s'.var v := fun v => by rw [Store.var, Store.var, hvars]
  constructor
  case vars => exact hvars ▸ ha.vars
  case bodies => exact hsize ▸ ha.bodies
  case var => exact fun v hv => (hvar v).trans (ha.var v hv)
  case visible => exact fun b => hvisible b ▸ ha.visible b
  case temporaries => exact fun b => hscratch b ▸ ha.temporaries b
  case owner =>
    intro v hlow hhigh
    rw [hvar, hsize]
    exact ha.owner v hlow (hvars ▸ hhigh)
  case listed =>
    intro v hlow hhigh
    rw [hvar, hscratch, hvisible]
    exact ha.listed v hlow (hvars ▸ hhigh)
  case seen =>
    intro b v hv
    rw [hvar, hvars]
    exact ha.seen b v (hvisible b ▸ hv)
  case scratch =>
    intro b v hv
    rw [hvar, hvars]
    exact ha.scratch b v (hscratch b ▸ hv)
  case names =>
    intro b
    simp only [hvisible, hvar]
    exact ha.names b
  case distinct => exact fun b => hscratch b ▸ ha.distinct b

/-- A store stays well-formed when variables are added, if its bodies are in order. -/
theorem WellFormed.of_adds (h : s.WellFormed) (ha : Adds s s') (hordered : s'.Ordered)
    (hrooted : ∀ b : BodyId, b.index < s'.bodies.size → (s'.body b).provider = none →
      s'.isModule b = true ∧ (s'.body b).info.isSome = true)
    (hroot : ∀ b, s'.isModule b = true → (s'.body b).provider = none)
    (hsingle : ∀ b : BodyId, b.index < s'.bodies.size → s'.isModule b = true → b.index = 0)
    (hshaped : ∀ b, (s'.body b).Shaped) : s'.WellFormed where
  ordered := hordered
  rooted := hrooted
  root := hroot
  single := hsingle
  owner v hv := by
    by_cases hold : v.index < s.vars.size
    · rw [ha.var v hold]
      exact Nat.lt_of_lt_of_le (h.owner v hold) ha.bodies
    · exact ha.owner v (Nat.le_of_not_lt hold) hv
  listed v hv := by
    by_cases hold : v.index < s.vars.size
    · have hlisted := h.listed v hold
      rw [ha.var v hold]
      by_cases hkind : (s.var v).kind = .temporary
      · rw [if_pos hkind] at hlisted ⊢
        exact ha.temporaries _ hlisted
      · rw [if_neg hkind] at hlisted ⊢
        exact (ha.visible _).subset hlisted
    · exact ha.listed v (Nat.le_of_not_lt hold) hv
  seen b v hv := by
    rcases ha.seen b v hv with ⟨c, hc⟩ | hnew
    · obtain ⟨hlt, hkind⟩ := h.seen c v hc
      rw [ha.var v hlt]
      exact ⟨Nat.lt_of_lt_of_le hlt ha.vars, hkind⟩
    · exact hnew
  names := ha.names
  scratch b v hv := by
    rcases ha.scratch b v hv with hold | hnew
    · obtain ⟨hlt, hmine⟩ := h.scratch b v hold
      rw [ha.var v hlt]
      exact ⟨Nat.lt_of_lt_of_le hlt ha.vars, hmine⟩
    · exact hnew
  distinct := ha.distinct
  shaped := hshaped

/-- What is settled about bodies when they are created keeps them in order. -/
theorem WellFormed.of_plans (h : s.WellFormed) (ha : Adds s s')
    (hsize : s'.bodies.size = s.bodies.size) (hplan : ∀ b, (s'.body b).plan = (s.body b).plan)
    (hshaped : ∀ b, (s'.body b).Shaped) : s'.WellFormed := by
  have hprovider : ∀ b, (s'.body b).provider = (s.body b).provider := fun b =>
    Body.view_of_plan Body.provider (fun _ => rfl) (hplan b)
  have hinfo : ∀ b, (s'.body b).info = (s.body b).info := fun b =>
    Body.view_of_plan Body.info (fun _ => rfl) (hplan b)
  have hmodule : ∀ b, s'.isModule b = s.isModule b := fun b =>
    congrArg (· == .moduleBody) (Body.view_of_plan Body.kind (fun _ => rfl) (hplan b))
  refine h.of_adds ha ?ordered ?rooted ?root ?single hshaped
  case ordered => exact fun b p hp => h.ordered b p (hprovider b ▸ hp)
  case rooted =>
    intro b hb hp
    rw [hmodule, hinfo]
    exact h.rooted b (hsize ▸ hb) (hprovider b ▸ hp)
  case root =>
    intro b hm
    rw [hprovider]
    exact h.root b (hmodule b ▸ hm)
  case single => exact fun b hb hm => h.single b (hsize ▸ hb) (hmodule b ▸ hm)

/-- Bodies may come to see more known variables, as long as no two of one name, and code may
change, as long as it keeps its shape. -/
theorem WellFormed.of_same (h : s.WellFormed) (hvars : s'.vars = s.vars)
    (hsize : s'.bodies.size = s.bodies.size) (hplan : ∀ b, (s'.body b).plan = (s.body b).plan)
    (hscratch : ∀ b, s'.temporaries b = s.temporaries b)
    (hleading : ∀ b, s.visible b <+: s'.visible b)
    (hseen : ∀ b, ∀ v ∈ s'.visible b, ∃ c, v ∈ s.visible c)
    (hnames : ∀ b, ((s'.visible b).map fun v => (s.var v).name).Nodup)
    (hshaped : ∀ b, (s'.body b).Shaped) : s'.WellFormed := by
  have hvar : ∀ v, s'.var v = s.var v := fun v => by rw [var, var, hvars]
  have hnone : ∀ v : VariableId, s.vars.size ≤ v.index → ¬v.index < s'.vars.size := fun v hv =>
    Nat.not_lt.2 (hvars ▸ hv)
  refine h.of_plans
    { vars := Nat.le_of_eq (congrArg Array.size hvars.symm)
      bodies := Nat.le_of_eq hsize.symm
      var := fun v _ => hvar v
      visible := hleading
      temporaries := fun b => hscratch b ▸ List.Subset.refl _
      owner := fun v hv hv' => absurd hv' (hnone v hv)
      listed := fun v hv hv' => absurd hv' (hnone v hv)
      seen := fun b v hv => Or.inl (hseen b v hv)
      scratch := fun b v hv => Or.inl (hscratch b ▸ hv)
      names := fun b => ?names
      distinct := fun b => hscratch b ▸ h.distinct b } hsize hplan hshaped
  case names =>
    simp only [hvar]
    exact hnames b

/-- The names that a body sees are the same as long as its variables are. -/
theorem WellFormed.names_eq (h : s.WellFormed)
    (hvar : ∀ v : VariableId, v.index < s.vars.size → s'.var v = s.var v) (b : BodyId) :
    ((s.visible b).map fun v => (s'.var v).name) = (s.visible b).map fun v => (s.var v).name :=
  List.map_congr_left fun v hv => by rw [hvar v (h.seen b v hv).1]

/-- A change of one body that keeps what it sees, its temporaries and the shape of its code. -/
theorem WellFormed.modifyBody (h : s.WellFormed) {f : Body → Body}
    (hplan : ∀ body, (f body).plan = body.plan) (hvisible : ∀ body, (f body).visible = body.visible)
    (hscratch : ∀ body, (f body).temporaries = body.temporaries)
    (hshaped : (f (s.body b)).Shaped) : (s.modifyBody b f).WellFormed := by
  have hview : ∀ {α : Type} (view : Body → α), (∀ body, view (f body) = view body) →
      ∀ c, view ((s.modifyBody b f).body c) = view (s.body c) := by
    intro α view hf c
    rw [body_modifyBody]
    split
    · exact hf _
    · rfl
  have hvisible' : ∀ c, (s.modifyBody b f).visible c = s.visible c := hview Body.visible hvisible
  refine h.of_same rfl (by simp) (hview Body.plan hplan) (hview Body.temporaries hscratch)
    (fun c => ?_) (fun c v hv => ?_) (fun c => ?_) (fun c => ?_)
  · exact hvisible' c ▸ List.prefix_rfl
  · rw [hvisible'] at hv
    exact ⟨c, hv⟩
  · rw [hvisible']
    exact h.names c
  · rw [body_modifyBody]
    split
    · rename_i hc
      rw [← hc.1]
      exact hshaped
    · exact h.shaped c

/-- Code without releases may be attached. -/
theorem WellFormed.attachCode (h : s.WellFormed) {block : Block} (hq : block.quiet = true)
    (ha : s.attachCode b block = .ok s') : s'.WellFormed := by
  obtain ⟨hcode, rfl⟩ := attachCode_eq_ok ha
  exact h.modifyBody (fun _ => rfl) (fun _ => rfl) (fun _ => rfl)
    (.plain block rfl hq (h.codeless hcode))

theorem WellFormed.addGlobal (h : s.WellFormed) : (s.addGlobal b name).WellFormed :=
  h.modifyBody (fun _ => rfl) (fun _ => rfl) (fun _ => rfl)
    ((h.shaped b).congr rfl rfl)

theorem WellFormed.addNonlocal (h : s.WellFormed) {declaration : NonlocalDeclaration} :
    (s.addNonlocal b declaration).WellFormed :=
  h.modifyBody (fun _ => rfl) (fun _ => rfl) (fun _ => rfl)
    ((h.shaped b).congr rfl rfl)

theorem WellFormed.copyNonlocals (h : s.WellFormed) : (s.copyNonlocals c b).WellFormed :=
  h.modifyBody (fun _ => rfl) (fun _ => rfl) (fun _ => rfl)
    ((h.shaped b).congr rfl rfl)

/-- A later store that differs in what bodies see only. -/
theorem WellFormed.of_unseen (h : s.WellFormed) (hg : ∀ n, Grows n s s')
    (hvars : s'.vars = s.vars) (hsize : s'.bodies.size = s.bodies.size)
    (hseen : ∀ b, ∀ v ∈ s'.visible b, ∃ c, v ∈ s.visible c)
    (hnames : ∀ b, ((s'.visible b).map fun v => (s.var v).name).Nodup) : s'.WellFormed := by
  have hscratch : ∀ b, s'.temporaries b = s.temporaries b :=
    view_of_grows hg Body.temporaries fun _ => rfl
  have hcode := view_of_grows hg Body.code fun _ => rfl
  refine h.of_same hvars hsize (view_of_grows hg Body.plan fun _ => rfl) hscratch
    (hg 0).visible hseen hnames fun b => ?_
  exact (h.shaped b).congr (hcode b) (hscratch b)

theorem WellFormed.resolve (h : s.WellFormed) (b : BodyId) (name : String) :
    (s.resolve b name).2.WellFormed := by
  have hvisible := h.ordered.resolve_visible s b name
  refine h.of_unseen (fun n => Grows.resolve n s b name) (vars_resolve s b name)
    (size_bodies_resolve s b name) (fun c v hv => ?_) fun c => ?_
  · rcases hvisible c with hsame | ⟨w, -, -, hl, hnew⟩
    · exact ⟨c, hsame ▸ hv⟩
    · rw [hnew, List.mem_append, List.mem_singleton] at hv
      rcases hv with hv | rfl
      · exact ⟨c, hv⟩
      · obtain ⟨d, -, hd, -⟩ := lookupAlong_name hl
        exact ⟨d, hd⟩
  · rcases hvisible c with hsame | ⟨w, -, hf, hl, hnew⟩
    · rw [hsame]
      exact h.names c
    · rw [hnew, List.map_append, List.map_singleton]
      refine (h.names c).append (List.nodup_singleton _) fun x hx hw => ?_
      rw [List.mem_singleton] at hw
      subst hw
      obtain ⟨u, hu, hname⟩ := List.mem_map.1 hx
      rw [(h.known_of_lookup hl).2.2] at hname
      exact find?_eq_none.1 hf u hu hname

/-- A body that sees nothing yet may share what another one sees. -/
theorem WellFormed.share (h : s.WellFormed) (hb : b.index < s.bodies.size)
    (hempty : s.visible b = []) : (s.share c b).WellFormed := by
  have hself := visible_share hb hempty (h.nodup_visible c)
  obtain ⟨hvars, hsize, hothers⟩ := share_frame s b c
  refine h.of_unseen (fun n => Grows.share n s c b) hvars hsize (fun d v hv => ?_) fun d => ?_
  · by_cases hd : b = d
    · subst hd
      exact ⟨c, hself ▸ hv⟩
    · exact ⟨d, hothers d hd ▸ hv⟩
  · by_cases hd : b = d
    · subst hd
      rw [hself]
      exact h.names c
    · rw [hothers d hd]
      exact h.names d

theorem temporaries_createBody {plan : BodyPlan} (c : BodyId) :
    (s.createBody plan).2.temporaries c =
      if c = ⟨s.bodies.size⟩ then [] else s.temporaries c := by
  split
  · rename_i hc
    rw [hc, temporaries, body_createBody_self]
  · rename_i hc
    rw [temporaries, body_createBody_ne hc, temporaries]

/-- A new body sees its parameters; it has no temporaries. -/
theorem WellFormed.adds_createBody (h : s.WellFormed) {plan : BodyPlan}
    (hslots : plan.slots.Nodup) : Adds s (s.createBody plan).2 := by
  have hg := Grows.createBody s plan
  have hvisible : ∀ c, c ≠ ⟨s.bodies.size⟩ → (s.createBody plan).2.visible c = s.visible c :=
    fun c hc => by rw [visible, body_createBody_ne hc, visible]
  refine
    { vars := hg.vars
      bodies := hg.bodies
      var := hg.var
      visible := hg.visible
      temporaries := fun b => ?temporaries
      owner := fun v hlow hhigh => ?owner
      listed := fun v hlow hhigh => ?listed
      seen := fun b v hv => ?seen
      scratch := fun b v hv => ?scratch
      names := fun b => ?names
      distinct := fun b => ?distinct }
  case temporaries =>
    rw [temporaries_createBody]
    split
    · rename_i hb
      have hnone : s.temporaries b = [] :=
        hb ▸ congrArg Body.temporaries (body_of_size_le (Nat.le_refl _))
      rw [hnone]
      exact List.Subset.refl _
    · exact List.Subset.refl _
  case owner =>
    obtain ⟨slot, -, hvar⟩ := var_createBody_new hlow hhigh
    rw [hvar, size_bodies_createBody]
    exact Nat.lt_succ_self _
  case listed =>
    obtain ⟨slot, -, hvar⟩ := var_createBody_new hlow hhigh
    rw [hvar]
    exact mem_visible_createBody_self.2 ⟨hlow, hhigh⟩
  case seen =>
    by_cases hnb : b = ⟨s.bodies.size⟩
    · subst hnb
      obtain ⟨hlow, hhigh⟩ := mem_visible_createBody_self.1 hv
      obtain ⟨slot, -, hvar⟩ := var_createBody_new hlow hhigh
      rw [hvar]
      exact Or.inr ⟨hhigh, VariableKind.noConfusion⟩
    · exact Or.inl ⟨b, hvisible b hnb ▸ hv⟩
  case scratch =>
    rw [temporaries_createBody] at hv
    split at hv
    · cases hv
    · exact Or.inl hv
  case names =>
    by_cases hnb : b = ⟨s.bodies.size⟩
    · subst hnb
      rw [visibleNames_createBody_self]
      exact hslots
    · rw [hvisible b hnb, h.names_eq hg.var]
      exact h.names b
  case distinct =>
    rw [temporaries_createBody]
    split
    · exact List.nodup_nil
    · exact h.distinct b

theorem WellFormed.createBody (h : s.WellFormed) {plan : BodyPlan}
    (hprovider : ∀ p, plan.provider = some p → p.index < s.bodies.size)
    (hroot : plan.provider = none ↔ plan.kind = .moduleBody)
    (hfirst : plan.provider = none → plan.info.isSome = true ∧ s.bodies.size = 0)
    (hslots : plan.slots.Nodup) : (s.createBody plan).2.WellFormed := by
  have hlt : ∀ b : BodyId, b ≠ ⟨s.bodies.size⟩ → b.index < (s.createBody plan).2.bodies.size →
      b.index < s.bodies.size := by
    intro b hb hlt
    have hne : b.index ≠ s.bodies.size := fun he => hb (congrArg BodyId.mk he)
    rw [size_bodies_createBody] at hlt
    omega
  refine h.of_adds (h.adds_createBody hslots) (h.ordered.createBody hprovider) ?rooted ?root
    ?single ?shaped
  case rooted =>
    intro b hb hp
    by_cases hnb : b = ⟨s.bodies.size⟩
    · subst hnb
      rw [body_createBody_self] at hp ⊢
      rw [isModule, body_createBody_self]
      exact ⟨by simp [hroot.1 hp], (hfirst hp).1⟩
    · rw [body_createBody_ne hnb] at hp ⊢
      rw [isModule, body_createBody_ne hnb]
      exact h.rooted b (hlt b hnb hb) hp
  case root =>
    intro b hm
    by_cases hnb : b = ⟨s.bodies.size⟩
    · subst hnb
      rw [isModule, body_createBody_self] at hm
      rw [body_createBody_self]
      exact hroot.2 (by simpa using hm)
    · rw [isModule, body_createBody_ne hnb] at hm
      rw [body_createBody_ne hnb]
      exact h.root b hm
  case single =>
    intro b hb hm
    by_cases hnb : b = ⟨s.bodies.size⟩
    · subst hnb
      rw [isModule, body_createBody_self] at hm
      exact (hfirst (hroot.2 (by simpa using hm))).2
    · rw [isModule, body_createBody_ne hnb] at hm
      exact h.single b (hlt b hnb hb) hm
  case shaped =>
    intro b
    by_cases hnb : b = ⟨s.bodies.size⟩
    · subst hnb
      rw [body_createBody_self]
      exact .codeless rfl rfl
    · rw [body_createBody_ne hnb]
      exact h.shaped b

/-- A new body, which sees what another body sees. -/
def withObject (s : Store) (plan : BodyPlan) (p : BodyId) : Store :=
  (s.createBody plan).2.share p ⟨s.bodies.size⟩

section Objects

variable {plan : BodyPlan} {p : BodyId}

@[simp] theorem size_bodies_withObject :
    (s.withObject plan p).bodies.size = s.bodies.size + 1 :=
  (share_frame _ _ _).2.1.trans size_bodies_createBody

theorem size_vars_withObject (hslots : plan.slots = []) :
    (s.withObject plan p).vars.size = s.vars.size := by
  rw [withObject, (share_frame _ _ _).1, size_vars_createBody, hslots]
  rfl

theorem Grows.withObject (s : Store) (plan : BodyPlan) (p : BodyId) :
    Grows s.bodies.size s (s.withObject plan p) :=
  (Grows.createBody s plan).trans (Grows.share _ _ _ _) (Nat.le_refl _)

theorem visible_withObject_of_lt (hb : b.index < s.bodies.size) :
    (s.withObject plan p).visible b = s.visible b := by
  have hne : (⟨s.bodies.size⟩ : BodyId) ≠ b := fun he => Nat.lt_irrefl _ (he ▸ hb)
  rw [withObject, (share_frame _ _ _).2.2 b hne, visible, body_createBody_of_lt s plan hb, visible]

/-- The new body is as it was planned, but for what it sees. -/
theorem body_withObject_view {α : Type} (view : Body → α)
    (h : ∀ body visible, view { body with visible := visible } = view body) :
    view ((s.withObject plan p).body ⟨s.bodies.size⟩) =
      view ((s.createBody plan).2.body ⟨s.bodies.size⟩) := by
  have hunseen := congrArg view ((Grows.share (s.bodies.size + 1) (s.createBody plan).2 p
    ⟨s.bodies.size⟩).unseen ⟨s.bodies.size⟩ (Nat.lt_succ_self _))
  exact ((h _ _).symm.trans hunseen).trans (h _ _)

theorem WellFormed.visible_withObject_self (h : s.WellFormed) (hp : p.index < s.bodies.size)
    (hslots : plan.slots = []) :
    (s.withObject plan p).visible ⟨s.bodies.size⟩ = s.visible p := by
  have hold : (s.createBody plan).2.visible p = s.visible p := by
    rw [visible, body_createBody_of_lt s plan hp, visible]
  have hempty : (s.createBody plan).2.visible ⟨s.bodies.size⟩ = [] := by
    rw [visible_createBody_self, hslots]
    rfl
  rw [withObject, visible_share (by simp) hempty (hold ▸ h.nodup_visible p), hold]

/-- The new body finds what the other body finds. -/
theorem WellFormed.find?_withObject_self (h : s.WellFormed) (hp : p.index < s.bodies.size)
    (hslots : plan.slots = []) (name : String) :
    (s.withObject plan p).find? ⟨s.bodies.size⟩ name = s.find? p name := by
  rw [find?, h.visible_withObject_self hp hslots, find?]
  exact List.find?_congr fun w hw => by
    rw [(Grows.withObject s plan p).var w (h.seen p w hw).1]

theorem WellFormed.withObject (h : s.WellFormed) (hp : p.index < s.bodies.size)
    (hprovider : plan.provider = some p) (hkind : plan.kind ≠ .moduleBody)
    (hslots : plan.slots = []) : (s.withObject plan p).WellFormed := by
  have hcreated : (s.createBody plan).2.WellFormed := by
    refine h.createBody (fun q hq => ?_) ⟨fun hnone => ?_, fun hm => absurd hm hkind⟩
      (fun hnone => ?_) (hslots ▸ List.nodup_nil)
    · cases hprovider.symm.trans hq
      exact hp
    · cases hprovider.symm.trans hnone
    · cases hprovider.symm.trans hnone
  refine hcreated.share (by simp) ?_
  rw [visible_createBody_self, hslots]
  rfl

end Objects

namespace NewLocal

variable {name : String} (hnew : NewLocal b name s s')

include hnew

/-- A new local is one more variable that the body sees. -/
theorem adds (h : s.WellFormed) (hb : b.index < s.bodies.size) : Adds s s' := by
  have hvar := (hnew.grows 0).var
  have hscratch : ∀ c, s'.temporaries c = s.temporaries c :=
    view_of_grows hnew.grows Body.temporaries fun _ => rfl
  refine
    { vars := (hnew.grows 0).vars
      bodies := (hnew.grows 0).bodies
      var := hvar
      visible := (hnew.grows 0).visible
      temporaries := fun c => hscratch c ▸ List.Subset.refl _
      owner := fun v hlow hhigh => ?owner
      listed := fun v hlow hhigh => ?listed
      seen := fun c v hv => ?seen
      scratch := fun c v hv => Or.inl (hscratch c ▸ hv)
      names := fun c => ?names
      distinct := fun c => hscratch c ▸ h.distinct c }
  case owner =>
    rw [hnew.eq_new hlow hhigh, hnew.var]
    exact hnew.bodies ▸ hb
  case listed =>
    rw [hnew.eq_new hlow hhigh, hnew.var, if_neg VariableKind.noConfusion, hnew.visible]
    exact List.mem_append_right _ (List.mem_singleton_self _)
  case seen =>
    rcases hnew.mem_visible hv with hv | ⟨-, rfl⟩
    · exact Or.inl ⟨c, hv⟩
    · rw [hnew.var, hnew.vars]
      exact Or.inr ⟨Nat.lt_succ_self _, VariableKind.noConfusion⟩
  case names =>
    by_cases hbc : b = c
    · subst hbc
      rw [hnew.visible, List.map_append, List.map_singleton, h.names_eq hvar, hnew.var]
      refine (h.names b).append (List.nodup_singleton _) fun x hx hw => ?_
      obtain ⟨u, hu, hname⟩ := List.mem_map.1 hx
      exact find?_eq_none.1 hnew.fresh u hu (hname.trans (List.mem_singleton.1 hw))
    · rw [hnew.others c hbc, h.names_eq hvar]
      exact h.names c

theorem wellFormed (h : s.WellFormed) (hb : b.index < s.bodies.size) : s'.WellFormed :=
  h.of_plans (hnew.adds h hb) hnew.bodies (view_of_grows hnew.grows Body.plan fun _ => rfl) fun c =>
    (h.shaped c).congr (view_of_grows hnew.grows Body.code (fun _ => rfl) c)
      (view_of_grows hnew.grows Body.temporaries (fun _ => rfl) c)

/-- The body finds the new local under its name. -/
theorem find?_self (h : s.WellFormed) (hb : b.index < s.bodies.size) :
    s'.find? b name = some ⟨s.vars.size⟩ := by
  refine (hnew.wellFormed h hb).find?_eq_some_iff.2 ⟨?_, by rw [hnew.var]⟩
  rw [hnew.visible]
  exact List.mem_append_right _ (List.mem_singleton_self _)

/-- Other names, and names in other bodies, are found as before. -/
theorem find?_ne (h : s.WellFormed) {text : String} (hne : c ≠ b ∨ text ≠ name) :
    s'.find? c text = s.find? c text := by
  have hold : ∀ w ∈ s.visible c, s'.var w = s.var w := fun w hw =>
    (hnew.grows 0).var w (h.seen c w hw).1
  by_cases hbc : b = c
  · subst hbc
    have htext : ((name == text) = true) = False := by
      simp [(hne.resolve_left (fun h => h rfl)).symm]
    rw [find?, hnew.visible, List.find?_append, List.find?_singleton, hnew.var, find?,
      List.find?_congr fun w hw => by rw [hold w hw]]
    simp [htext]
  · exact find?_congr (hnew.others c hbc) hold

end NewLocal

theorem WellFormed.declareLocal (h : s.WellFormed) (hb : b.index < s.bodies.size) :
    (s.declareLocal b name).2.WellFormed := by
  rcases declareLocal_cases hb name with ⟨v, -, hsame⟩ | hnew
  · rw [hsame]
    exact h
  · exact hnew.wellFormed h hb

/-- The temporaries of a body that had none. -/
theorem temporaries_withTemporaries_self (hb : b.index < s.bodies.size)
    (hnone : s.temporaries b = []) (names : List String) :
    (s.withTemporaries b names).temporaries b =
      (List.range' s.vars.size names.length).map .mk := by
  rw [temporaries, body_withTemporaries_self hb, hnone, List.nil_append]

theorem temporaries_withTemporaries_ne (hbc : b ≠ c) (names : List String) :
    (s.withTemporaries b names).temporaries c = s.temporaries c := by
  rw [temporaries, body_withTemporaries_ne hbc, temporaries]

/-- A body that has no temporaries gets some. -/
theorem WellFormed.adds_withTemporaries (h : s.WellFormed) (hb : b.index < s.bodies.size)
    (hnone : s.temporaries b = []) (names : List String) :
    Adds s (s.withTemporaries b names) := by
  have hvisible : ∀ c, (s.withTemporaries b names).visible c = s.visible c := fun c =>
    body_withTemporaries_view Body.visible fun _ _ => rfl
  have hvar : ∀ v : VariableId, v.index < s.vars.size →
      (s.withTemporaries b names).var v = s.var v := fun v hv => var_withTemporaries_of_lt hv
  refine
    { vars := size_vars_le_withTemporaries
      bodies := Nat.le_of_eq size_bodies_withTemporaries.symm
      var := hvar
      visible := fun c => hvisible c ▸ List.prefix_rfl
      temporaries := fun c => ?temporaries
      owner := fun v hlow hhigh => ?owner
      listed := fun v hlow hhigh => ?listed
      seen := fun c v hv => Or.inl ⟨c, hvisible c ▸ hv⟩
      scratch := fun c v hv => ?scratch
      names := fun c => ?names
      distinct := fun c => ?distinct }
  case temporaries =>
    by_cases hbc : b = c
    · subst hbc
      exact fun v hv => (mem_temporaries_withTemporaries hb).2 (Or.inl hv)
    · rw [temporaries_withTemporaries_ne hbc]
      exact List.Subset.refl _
  case owner =>
    obtain ⟨_, -, hnew⟩ := var_withTemporaries_of_le hlow hhigh
    rw [size_bodies_withTemporaries, hnew]
    exact hb
  case listed =>
    obtain ⟨_, -, hnew⟩ := var_withTemporaries_of_le hlow hhigh
    rw [hnew, if_pos rfl]
    exact (mem_temporaries_withTemporaries hb).2 (Or.inr ⟨hlow, hhigh⟩)
  case scratch =>
    by_cases hbc : b = c
    · subst hbc
      rcases (mem_temporaries_withTemporaries hb).1 hv with hold | ⟨hlow, hhigh⟩
      · exact Or.inl hold
      · obtain ⟨_, -, hnew⟩ := var_withTemporaries_of_le hlow hhigh
        rw [hnew]
        exact Or.inr ⟨hhigh, rfl, rfl⟩
    · exact Or.inl (temporaries_withTemporaries_ne hbc names ▸ hv)
  case names =>
    rw [hvisible, h.names_eq hvar]
    exact h.names c
  case distinct =>
    by_cases hbc : b = c
    · subst hbc
      rw [temporaries_withTemporaries_self hb hnone]
      exact (List.nodup_range' 1).map fun _ _ he => VariableId.mk.inj he
    · rw [temporaries_withTemporaries_ne hbc]
      exact h.distinct c

/-- A body without code may get temporaries and code that releases them at its end. -/
theorem WellFormed.wrap (h : s.WellFormed) (hb : b.index < s.bodies.size)
    (hcode : (s.body b).code = none) {names : List String} (hsome : names ≠ [])
    {vars : List VariableId} {tried : Block} (hq : tried.quiet = true)
    (hvars : vars.Perm ((s.withTemporaries b names).temporaries b)) :
    ((s.withTemporaries b names).modifyBody b fun body =>
      { body with code := some (tried.releasing vars) }).WellFormed := by
  have hnone := h.codeless hcode
  let filled := s.withTemporaries b names
  let wrapped := filled.modifyBody b fun body => { body with code := some (tried.releasing vars) }
  have hview : ∀ {α : Type} (view : Body → α),
      (∀ body code, view { body with code := code } = view body) →
      ∀ c, view (wrapped.body c) = view (filled.body c) := fun view hv c =>
    body_modifyBody_of (P := fun body => view body = view (filled.body c))
      (fun h => (hv _ _).trans h) rfl
  have hplan : ∀ c, (wrapped.body c).plan = (s.body c).plan := fun c =>
    (hview Body.plan (fun _ _ => rfl) c).trans (body_withTemporaries_view Body.plan fun _ _ => rfl)
  have hsize : wrapped.bodies.size = filled.bodies.size := size_bodies_modifyBody _ _ _
  have hadds : Adds s wrapped := (h.adds_withTemporaries hb hnone names).congr rfl hsize
    (hview Body.visible fun _ _ => rfl) (hview Body.temporaries fun _ _ => rfl)
  refine h.of_plans hadds (hsize.trans size_bodies_withTemporaries) hplan fun c => ?_
  by_cases hbc : b = c
  · subst hbc
    rw [body_modifyBody_self (size_bodies_withTemporaries.symm ▸ hb)]
    refine .wrapper vars tried rfl hq hvars fun hempty => hsome ?_
    have hlength := congrArg List.length
      ((temporaries_withTemporaries_self hb hnone names).symm.trans hempty)
    rw [List.length_map, List.length_range'] at hlength
    exact List.length_eq_zero_iff.1 hlength
  · rw [body_modifyBody_ne hbc, body_withTemporaries_ne hbc]
    exact h.shaped c

end Preservation

end Store

end DefinitionLowering.IR
