import DefinitionLowering.Proofs.Providers
import DefinitionLowering.PrivateName

/-!
# Growing stores

While a module is lowered, its store grows: bodies and variables are added, a body comes to see
more variables, and a body without code gets its code once.  `Grows n s s'` says that `s'` is
such a later store, and that the first `n` bodies have not changed but for what they see.

Providers are older than the bodies they serve (`Ordered`), so the scopes around a body are
settled when it is created, and so are the spelling of names in it and the scopes where a name
of it is searched (`Grows.ancestors`, `Grows.spell`, `Grows.lookupPath`).
-/

namespace DefinitionLowering.IR

/-- What is settled when a body is created. -/
def Body.plan (body : Body) : Body :=
  { body with nonlocals := [], globals := [], code := none, visible := [], temporaries := [] }

/-- A body but for what it sees. -/
def Body.unseen (body : Body) : Body :=
  { body with visible := [] }

section Views

variable {α : Type} {body body' : Body} (view : Body → α)

theorem Body.view_of_plan (hview : ∀ body : Body, view body.plan = view body)
    (h : body'.plan = body.plan) : view body' = view body :=
  (hview body').symm.trans ((congrArg view h).trans (hview body))

theorem Body.view_of_unseen (hview : ∀ body : Body, view body.unseen = view body)
    (h : body'.unseen = body.unseen) : view body' = view body :=
  (hview body').symm.trans ((congrArg view h).trans (hview body))

end Views

namespace Store

/-- Every provider was created before the bodies it serves. -/
def Ordered (s : Store) : Prop :=
  ∀ b p, (s.body b).provider = some p → p.index < b.index

/-- A later store; the first `n` bodies have changed in what they see only. -/
structure Grows (n : Nat) (s s' : Store) : Prop where
  bodies : s.bodies.size ≤ s'.bodies.size
  vars : s.vars.size ≤ s'.vars.size
  var : ∀ v : VariableId, v.index < s.vars.size → s'.var v = s.var v
  plan : ∀ b : BodyId, b.index < s.bodies.size → (s'.body b).plan = (s.body b).plan
  visible : ∀ b, s.visible b <+: s'.visible b
  code : ∀ b block, (s.body b).code = some block → (s'.body b).code = some block
  unseen : ∀ b : BodyId, b.index < n → (s'.body b).unseen = (s.body b).unseen

section Grows

variable {n m : Nat} {s s' s'' : Store} {b c p : BodyId} {v : VariableId} {text : String}

theorem Grows.refl (n : Nat) (s : Store) : Grows n s s :=
  ⟨Nat.le_refl _, Nat.le_refl _, fun _ _ => rfl, fun _ _ => rfl, fun _ => List.prefix_rfl,
    fun _ _ h => h, fun _ _ => rfl⟩

theorem Grows.trans (h : Grows n s s') (h' : Grows m s' s'') (hn : n ≤ m) : Grows n s s'' where
  bodies := Nat.le_trans h.bodies h'.bodies
  vars := Nat.le_trans h.vars h'.vars
  var v hv := (h'.var v (Nat.lt_of_lt_of_le hv h.vars)).trans (h.var v hv)
  plan b hb := (h'.plan b (Nat.lt_of_lt_of_le hb h.bodies)).trans (h.plan b hb)
  visible b := (h.visible b).trans (h'.visible b)
  code b block hb := h'.code b block (h.code b block hb)
  unseen b hb := (h'.unseen b (Nat.lt_of_lt_of_le hb hn)).trans (h.unseen b hb)

theorem Grows.mono (h : Grows m s s') (hn : n ≤ m) : Grows n s s' :=
  (Grows.refl n s).trans h hn

theorem Grows.kind (h : Grows n s s') (hb : b.index < s.bodies.size) :
    (s'.body b).kind = (s.body b).kind :=
  Body.view_of_plan Body.kind (fun _ => rfl) (h.plan b hb)

theorem Grows.name (h : Grows n s s') (hb : b.index < s.bodies.size) :
    (s'.body b).name = (s.body b).name :=
  Body.view_of_plan Body.name (fun _ => rfl) (h.plan b hb)

theorem Grows.provider (h : Grows n s s') (hb : b.index < s.bodies.size) :
    (s'.body b).provider = (s.body b).provider :=
  Body.view_of_plan Body.provider (fun _ => rfl) (h.plan b hb)

theorem Grows.signature (h : Grows n s s') (hb : b.index < s.bodies.size) :
    (s'.body b).signature = (s.body b).signature :=
  Body.view_of_plan Body.signature (fun _ => rfl) (h.plan b hb)

theorem Grows.info (h : Grows n s s') (hb : b.index < s.bodies.size) :
    (s'.body b).info = (s.body b).info :=
  Body.view_of_plan Body.info (fun _ => rfl) (h.plan b hb)

theorem Grows.globals (h : Grows n s s') (hb : b.index < n) :
    (s'.body b).globals = (s.body b).globals :=
  Body.view_of_unseen Body.globals (fun _ => rfl) (h.unseen b hb)

theorem Grows.code_eq (h : Grows n s s') (hb : b.index < n) :
    (s'.body b).code = (s.body b).code :=
  Body.view_of_unseen Body.code (fun _ => rfl) (h.unseen b hb)

/-- A change of what bodies see leaves the rest of every body alone. -/
theorem view_of_grows {α : Type} (hg : ∀ n, Grows n s s') (view : Body → α)
    (hview : ∀ body : Body, view body.unseen = view body) (c : BodyId) :
    view (s'.body c) = view (s.body c) :=
  Body.view_of_unseen view hview ((hg (c.index + 1)).unseen c (Nat.lt_succ_self _))

/-- What a body finds it finds again later. -/
theorem Grows.find? (h : Grows n s s') (hvis : ∀ w ∈ s.visible b, w.index < s.vars.size)
    (hf : s.find? b text = some v) : s'.find? b text = some v :=
  find?_of_isPrefix (h.visible b) (fun w hw => h.var w (hvis w hw)) hf

/-! ### Single operations -/

theorem Grows.createBody (s : Store) (plan : BodyPlan) :
    Grows s.bodies.size s (s.createBody plan).2 where
  bodies := by simp
  vars := by simp
  var v hv := var_createBody_of_lt s plan hv
  plan b hb := by rw [body_createBody_of_lt s plan hb]
  visible b := by
    by_cases hb : b.index < s.bodies.size
    · have hbody : (s.createBody plan).2.visible b = s.visible b :=
        congrArg Body.visible (body_createBody_of_lt s plan hb)
      exact hbody ▸ List.prefix_rfl
    · rw [Store.visible, body_of_size_le (Nat.le_of_not_lt hb)]
      exact List.nil_prefix
  code b block hb := by
    rw [body_createBody_of_lt s plan (lt_of_code hb)]
    exact hb
  unseen b hb := by rw [body_createBody_of_lt s plan hb]

/-- A change of one body that keeps what is settled about it. -/
theorem Grows.modifyBody {f : Body → Body} (hplan : ∀ body, (f body).plan = body.plan)
    (hvisible : ∀ body, body.visible <+: (f body).visible)
    (hcode : ∀ block, (s.body b).code = some block → (f (s.body b)).code = some block)
    (hb : n ≤ b.index ∨ ∀ body, (f body).unseen = body.unseen) :
    Grows n s (s.modifyBody b f) where
  bodies := by simp
  vars := Nat.le_refl _
  var _ _ := rfl
  plan c _ := by
    rw [body_modifyBody]
    split
    · exact hplan _
    · rfl
  visible c := by
    rw [Store.visible, Store.visible, body_modifyBody]
    split
    · exact hvisible _
    · exact List.prefix_rfl
  code c block hc := by
    rw [body_modifyBody]
    split
    · rename_i h
      obtain ⟨rfl, -⟩ := h
      exact hcode block hc
    · exact hc
  unseen c hc := by
    rw [body_modifyBody]
    split
    · rename_i h
      rcases hb with hb | hb
      · obtain ⟨rfl, -⟩ := h
        omega
      · exact hb _
    · rfl

theorem Grows.attachCode {block : Block} (h : s.attachCode b block = .ok s') (hb : n ≤ b.index) :
    Grows n s s' := by
  obtain ⟨hnone, rfl⟩ := attachCode_eq_ok h
  refine Grows.modifyBody (fun _ => rfl) (fun _ => List.prefix_rfl) (fun block hc => ?_) (.inl hb)
  rw [hnone] at hc
  cases hc

theorem Grows.addGlobal (hb : n ≤ b.index) : Grows n s (s.addGlobal b text) :=
  Grows.modifyBody (fun _ => rfl) (fun _ => List.prefix_rfl) (fun _ hc => hc) (.inl hb)

theorem Grows.addNonlocal {declaration : NonlocalDeclaration} (hb : n ≤ b.index) :
    Grows n s (s.addNonlocal b declaration) :=
  Grows.modifyBody (fun _ => rfl) (fun _ => List.prefix_rfl) (fun _ hc => hc) (.inl hb)

theorem Grows.copyNonlocals (hb : n ≤ b.index) : Grows n s (s.copyNonlocals c b) :=
  Grows.modifyBody (fun _ => rfl) (fun _ => List.prefix_rfl) (fun _ hc => hc) (.inl hb)

theorem Grows.reveal (n : Nat) (s : Store) (b : BodyId) (v : VariableId) :
    Grows n s (s.reveal b v) :=
  Grows.modifyBody (fun _ => rfl) (fun _ => List.prefix_append _ _) (fun _ hc => hc)
    (.inr fun _ => rfl)

theorem Grows.pushVariable (n : Nat) (s : Store) (declared : Variable) :
    Grows n s (s.pushVariable declared).2 :=
  ⟨Nat.le_refl _, by simp, fun _ hv => var_pushVariable_of_lt hv, fun _ _ => rfl,
    fun _ => List.prefix_rfl, fun _ _ h => h, fun _ _ => rfl⟩

theorem Grows.declareLocal (n : Nat) (s : Store) (b : BodyId) (name : String) :
    Grows n s (s.declareLocal b name).2 := by
  cases hf : s.find? b name with
  | some v =>
    rw [declareLocal_of_find hf]
    exact Grows.refl n s
  | none =>
    rw [declareLocal_of_none hf]
    exact (Grows.pushVariable n s _).trans (Grows.reveal n _ _ _) (Nat.le_refl _)

theorem Grows.share (n : Nat) (s : Store) (b c : BodyId) : Grows n s (s.share b c) := by
  suffices h : ∀ (vars : List VariableId) (s : Store), Grows n s
      (vars.foldl (fun s v => if v ∈ s.visible c then s else s.reveal c v) s) from h _ s
  intro vars
  induction vars with
  | nil => exact Grows.refl n
  | cons v rest ih =>
    intro s
    rw [List.foldl_cons]
    refine Grows.trans ?_ (ih _) (Nat.le_refl _)
    split
    · exact Grows.refl n s
    · exact Grows.reveal n s c v

theorem Grows.resolveAlong (n : Nat) (name : String) : ∀ (path : List BodyId) (s : Store),
    Grows n s (s.resolveAlong name path).2
  | [], s => Grows.refl n s
  | b :: outer, s => by
    have ih := Grows.resolveAlong n name outer s
    rw [Store.resolveAlong]
    cases s.find? b name with
    | some v => exact Grows.refl n s
    | none =>
      dsimp only
      split
      · exact Grows.refl n s
      · rcases hr : s.resolveAlong name outer with ⟨found, s'⟩
        rw [hr] at ih
        cases found with
        | none => exact ih
        | some v => exact ih.trans (Grows.reveal n s' b v) (Nat.le_refl _)

theorem Grows.resolve (n : Nat) (s : Store) (b : BodyId) (name : String) :
    Grows n s (s.resolve b name).2 :=
  Grows.resolveAlong n name _ s

end Grows

/-! ## New variables -/

section OwnersFrom

variable {n m : Nat} {s s₁ s' : Store} {b c : BodyId} {v : VariableId} {name : String}

/-- New variables belong to bodies from the number `n` on. -/
def OwnersFrom (n : Nat) (s s' : Store) : Prop :=
  ∀ v : VariableId, s.vars.size ≤ v.index → v.index < s'.vars.size → n ≤ (s'.var v).owner.index

theorem ownersFrom_of_size (h : s'.vars.size = s.vars.size) : OwnersFrom n s s' :=
  fun _ hlow hhigh => absurd hhigh (by omega)

theorem OwnersFrom.mono (h : OwnersFrom m s s') (hn : n ≤ m) : OwnersFrom n s s' :=
  fun v hlow hhigh => Nat.le_trans hn (h v hlow hhigh)

theorem OwnersFrom.trans (h : OwnersFrom n s s₁) (h' : OwnersFrom n s₁ s')
    (hg : Grows m s₁ s') : OwnersFrom n s s' := by
  intro v hlow hhigh
  by_cases hold : v.index < s₁.vars.size
  · rw [hg.var v hold]
    exact h v hlow hold
  · exact h' v (Nat.le_of_not_lt hold) hhigh

/-- A body gets a local that it did not see: the newest variable of the store, which the body sees
last.  Nothing else changes. -/
structure NewLocal (b : BodyId) (name : String) (s s' : Store) : Prop where
  fresh : s.find? b name = none
  bodies : s'.bodies.size = s.bodies.size
  vars : s'.vars.size = s.vars.size + 1
  var : s'.var ⟨s.vars.size⟩ = ⟨name, b, .localName⟩
  visible : s'.visible b = s.visible b ++ [⟨s.vars.size⟩]
  others : ∀ c, b ≠ c → s'.visible c = s.visible c
  grows : ∀ n, Grows n s s'

/-- **Declaring a local** changes nothing if the body sees the name, and adds it otherwise. -/
theorem declareLocal_cases (hb : b.index < s.bodies.size) (name : String) :
    (∃ v, s.find? b name = some v ∧ s.declareLocal b name = (v, s)) ∨
      NewLocal b name s (s.declareLocal b name).2 := by
  cases hf : s.find? b name with
  | some v => exact Or.inl ⟨v, rfl, declareLocal_of_find hf⟩
  | none =>
    have hg := fun n => Grows.declareLocal n s b name
    rw [declareLocal_of_none hf] at hg ⊢
    exact Or.inr ⟨hf, size_bodies_reveal, size_vars_pushVariable, var_pushVariable_self,
      visible_reveal_self hb, fun c hc => visible_reveal_ne hc, hg⟩

namespace NewLocal

theorem eq_new (h : NewLocal b name s s') (hlow : s.vars.size ≤ v.index)
    (hhigh : v.index < s'.vars.size) : v = ⟨s.vars.size⟩ := by
  have hsize := h.vars
  exact congrArg VariableId.mk (by omega)

theorem mem_visible (h : NewLocal b name s s') (hv : v ∈ s'.visible c) :
    v ∈ s.visible c ∨ b = c ∧ v = ⟨s.vars.size⟩ := by
  by_cases hbc : b = c
  · subst hbc
    rw [h.visible, List.mem_append, List.mem_singleton] at hv
    exact hv.imp_right fun hv => ⟨rfl, hv⟩
  · exact Or.inl (h.others c hbc ▸ hv)

theorem owners (h : NewLocal b name s s') (hn : n ≤ b.index) : OwnersFrom n s s' := by
  intro v hlow hhigh
  rw [h.eq_new hlow hhigh, h.var]
  exact hn

end NewLocal

/-- New variables belong to the body that declares them. -/
theorem ownersFrom_declareLocal (hb : b.index < s.bodies.size) (hn : n ≤ b.index) :
    OwnersFrom n s (s.declareLocal b name).2 := by
  rcases declareLocal_cases hb name with ⟨v, -, hsame⟩ | hnew
  · rw [hsame]
    exact ownersFrom_of_size rfl
  · exact hnew.owners hn

/-- The other bodies see what they saw. -/
theorem visible_declareLocal_ne (hb : b.index < s.bodies.size) (hbc : b ≠ c) :
    (s.declareLocal b name).2.visible c = s.visible c := by
  rcases declareLocal_cases hb name with ⟨v, -, hsame⟩ | hnew
  · rw [hsame]
  · exact hnew.others c hbc

@[simp] theorem size_bodies_declareLocal (s : Store) (b : BodyId) (name : String) :
    (s.declareLocal b name).2.bodies.size = s.bodies.size := by
  cases hf : s.find? b name with
  | some v => rw [declareLocal_of_find hf]
  | none =>
    rw [declareLocal_of_none hf]
    exact size_bodies_reveal

end OwnersFrom

/-! ## The scopes around a body -/

section Ordered

variable {n : Nat} {s s' : Store} {b p : BodyId}

/-- More steps than there are bodies before a body lead no further. -/
theorem Ordered.providers (h : s.Ordered) (limit : Nat) (b : BodyId) : b.index ≤ limit →
    s.providers limit b = s.providers b.index b := by
  suffices hmain : ∀ (limit : Nat) (b : BodyId), b.index ≤ limit →
      s.providers (limit + 1) b = s.providers limit b by
    intro hb
    induction hb with
    | refl => rfl
    | step hle ih => rw [hmain _ b hle, ih]
  intro limit
  induction limit with
  | zero =>
    intro b hb
    cases hp : (s.body b).provider with
    | none => simp [Store.providers, hp]
    | some p =>
      have := h b p hp
      omega
  | succ limit ih =>
    intro b hb
    rw [Store.providers, Store.providers]
    cases hp : (s.body b).provider with
    | none => rfl
    | some p =>
      have := h b p hp
      dsimp only
      rw [ih p (by omega)]

theorem Ordered.acyclic (h : s.Ordered) : s.Acyclic :=
  acyclic_of_measure BodyId.index h

/-- The scopes around a body are its provider and the scopes around that. -/
theorem Ordered.ancestors (h : s.Ordered) (hp : (s.body b).provider = some p) :
    s.ancestors b = p :: s.ancestors p :=
  h.acyclic.ancestors hp

/-- Every scope around a body is older. -/
theorem Ordered.lt_of_mem_ancestors (h : s.Ordered) {a : BodyId} (ha : a ∈ s.ancestors b) :
    a.index < b.index := by
  suffices hmain : ∀ (limit : Nat) (b : BodyId), a ∈ s.providers limit b → a.index < b.index from
    hmain _ b ha
  intro limit
  induction limit with
  | zero => simp [Store.providers]
  | succ limit ih =>
    intro b ha
    rw [Store.providers] at ha
    cases hp : (s.body b).provider with
    | none => simp [hp] at ha
    | some p =>
      have hpb := h b p hp
      rw [hp] at ha
      rcases List.mem_cons.1 ha with rfl | ha
      · exact hpb
      · have := ih p ha
        omega

/-- A scope around one that is around a body is around the body. -/
theorem Ordered.mem_ancestors_trans (h : s.Ordered) {a c : BodyId} (hc : c ∈ s.ancestors a) :
    ∀ {b : BodyId}, a ∈ s.ancestors b → c ∈ s.ancestors b := by
  suffices hmain : ∀ (limit : Nat) (b : BodyId), b.index < limit → a ∈ s.ancestors b →
      c ∈ s.ancestors b from fun {b} => hmain (b.index + 1) b (Nat.lt_succ_self _)
  intro limit
  induction limit with
  | zero => exact fun b hb => absurd hb (Nat.not_lt_zero _)
  | succ limit ih =>
    intro b hb ha
    cases hp : (s.body b).provider with
    | none =>
      rw [ancestors_of_no_provider hp] at ha
      cases ha
    | some p =>
      have hpb := h b p hp
      rw [h.ancestors hp] at ha ⊢
      rcases List.mem_cons.1 ha with rfl | ha
      · exact List.mem_cons_of_mem _ hc
      · exact List.mem_cons_of_mem _ (ih p (by omega) ha)

/-- A body and those around it were created. -/
theorem Ordered.lt_of_mem_scopes (h : s.Ordered) {a : BodyId} (hb : b.index < s.bodies.size)
    (ha : a ∈ b :: s.ancestors b) : a.index < s.bodies.size := by
  rcases List.mem_cons.1 ha with rfl | ha
  · exact hb
  · exact Nat.lt_trans (h.lt_of_mem_ancestors ha) hb

/-- Where only modules have no provider and know their file, every body is in a module. -/
theorem Ordered.moduleInfo_ok (h : s.Ordered)
    (hrooted : ∀ b : BodyId, b.index < s.bodies.size → (s.body b).provider = none →
      s.isModule b = true)
    (hinfo : ∀ b : BodyId, b.index < s.bodies.size → s.isModule b = true →
      (s.body b).info.isSome = true) (hb : b.index < s.bodies.size) :
    ∃ info, s.moduleInfo b = .ok info := by
  have hmodule : ∀ (limit : Nat) (b : BodyId), b.index < limit → b.index < s.bodies.size →
      ∃ a ∈ b :: s.ancestors b, s.isModule a = true := by
    intro limit
    induction limit with
    | zero => exact fun b h => absurd h (Nat.not_lt_zero _)
    | succ limit ih =>
      intro b hlimit hb
      cases hp : (s.body b).provider with
      | none => exact ⟨b, List.mem_cons_self, hrooted b hb hp⟩
      | some provider =>
        have hlt := h b provider hp
        obtain ⟨a, ha, hm⟩ := ih provider (by omega) (by omega)
        rw [h.ancestors hp]
        exact ⟨a, List.mem_cons_of_mem _ ha, hm⟩
  obtain ⟨a, ha, hm⟩ := hmodule _ b (Nat.lt_succ_self _) hb
  obtain ⟨found, hfound⟩ : ∃ found, (b :: s.ancestors b).find? s.isModule = some found :=
    Option.isSome_iff_exists.1 (List.find?_isSome.2 ⟨a, ha, hm⟩)
  have hlt := h.lt_of_mem_scopes hb (List.mem_of_find?_eq_some hfound)
  obtain ⟨info, hfile⟩ := Option.isSome_iff_exists.1 (hinfo found hlt (List.find?_some hfound))
  refine ⟨info, ?_⟩
  unfold Store.moduleInfo Store.moduleOf
  rw [hfound]
  dsimp only
  rw [hfile]

theorem ordered_empty : Ordered empty := by
  intro b p h
  rw [body_of_size_le (Nat.zero_le _)] at h
  cases h

theorem Ordered.createBody (h : s.Ordered) {plan : BodyPlan}
    (hp : ∀ p, plan.provider = some p → p.index < s.bodies.size) :
    (s.createBody plan).2.Ordered := by
  intro b p hbp
  by_cases hb : b = ⟨s.bodies.size⟩
  · subst hb
    rw [body_createBody_self] at hbp
    exact hp p hbp
  · rw [body_createBody_ne hb] at hbp
    exact h b p hbp

/-- The scopes around a body stay the same. -/
theorem Grows.ancestors (hg : Grows n s s') (h : s.Ordered) (hb : b.index < s.bodies.size) :
    s'.ancestors b = s.ancestors b := by
  have hsame : ∀ (limit : Nat) (b : BodyId), b.index < s.bodies.size →
      s'.providers limit b = s.providers limit b := by
    intro limit
    induction limit with
    | zero => intro b _; rfl
    | succ limit ih =>
      intro b hb
      rw [Store.providers, Store.providers, hg.provider hb]
      cases hp : (s.body b).provider with
      | none => rfl
      | some p =>
        have := h b p hp
        dsimp only
        rw [ih p (by omega)]
  have hle := hg.bodies
  unfold Store.ancestors
  rw [hsame _ b hb, h.providers _ b (Nat.le_of_lt (Nat.lt_of_lt_of_le hb hle)),
    h.providers _ b (Nat.le_of_lt hb)]

theorem Grows.isClass (hg : Grows n s s') (hb : b.index < s.bodies.size) :
    s'.isClass b = s.isClass b := by
  rw [Store.isClass, Store.isClass, hg.kind hb]

theorem Grows.isModule (hg : Grows n s s') (hb : b.index < s.bodies.size) :
    s'.isModule b = s.isModule b := by
  rw [Store.isModule, Store.isModule, hg.kind hb]

theorem Grows.classOf? (hg : Grows n s s') (h : s.Ordered) (hb : b.index < s.bodies.size) :
    s'.classOf? b = s.classOf? b := by
  have hold : ∀ a ∈ b :: s.ancestors b, a.index < s.bodies.size :=
    fun _ ha => h.lt_of_mem_scopes hb ha
  unfold Store.classOf?
  rw [hg.ancestors h hb]
  have hfind : (b :: s.ancestors b).find? (fun a => s'.isClass a || s'.isModule a) =
      (b :: s.ancestors b).find? fun a => s.isClass a || s.isModule a :=
    List.find?_congr fun a ha => by rw [hg.isClass (hold a ha), hg.isModule (hold a ha)]
  rw [hfind]
  cases hf : (b :: s.ancestors b).find? fun a => s.isClass a || s.isModule a with
  | none => rfl
  | some a => rw [Option.filter_some, Option.filter_some,
      hg.isClass (hold a (List.mem_of_find?_eq_some hf))]

/-- The class that spells the names of a body was created before. -/
theorem Ordered.lt_of_classOf? (h : s.Ordered) {c : BodyId} (hb : b.index < s.bodies.size)
    (hc : s.classOf? b = some c) : c.index < s.bodies.size := by
  unfold Store.classOf? at hc
  obtain ⟨hf, -⟩ := Option.filter_eq_some_iff.1 hc
  rcases List.mem_cons.1 (List.mem_of_find?_eq_some hf) with rfl | ha
  · exact hb
  · exact Nat.lt_trans (h.lt_of_mem_ancestors ha) hb

/-- Names are spelled as before. -/
theorem Grows.spell (hg : Grows n s s') (h : s.Ordered) (hb : b.index < s.bodies.size) :
    s'.spell b = s.spell b := by
  funext name
  unfold Store.spell
  rw [hg.classOf? h hb]
  cases hc : s.classOf? b with
  | none => rfl
  | some c =>
    dsimp only
    rw [hg.name (h.lt_of_classOf? hb hc)]

theorem Grows.moduleInfo (hg : Grows n s s') (h : s.Ordered) (hb : b.index < s.bodies.size) :
    s'.moduleInfo b = s.moduleInfo b := by
  have hold : ∀ a ∈ b :: s.ancestors b, a.index < s.bodies.size :=
    fun _ ha => h.lt_of_mem_scopes hb ha
  have hfind : (b :: s.ancestors b).find? s'.isModule = (b :: s.ancestors b).find? s.isModule :=
    List.find?_congr fun a ha => hg.isModule (hold a ha)
  unfold Store.moduleInfo Store.moduleOf
  rw [hg.ancestors h hb, hfind]
  cases hf : (b :: s.ancestors b).find? s.isModule with
  | none => rfl
  | some found =>
    dsimp only
    rw [hg.info (hold found (List.mem_of_find?_eq_some hf))]

theorem takeWhile_congr {l : List BodyId} {p q : BodyId → Bool} (h : ∀ a ∈ l, p a = q a) :
    l.takeWhile p = l.takeWhile q := by
  induction l with
  | nil => rfl
  | cons a rest ih =>
    rw [List.takeWhile_cons, List.takeWhile_cons, h a List.mem_cons_self,
      ih fun c hc => h c (List.mem_cons_of_mem _ hc)]

/-- The scopes where a name is searched stay the same. -/
theorem Grows.lookupPath (hg : Grows n s s') (h : s.Ordered) (hb : b.index < s.bodies.size) :
    s'.lookupPath b = s.lookupPath b := by
  have hold : ∀ a ∈ s.ancestors b, a.index < s.bodies.size := fun a ha =>
    Nat.lt_trans (h.lt_of_mem_ancestors ha) hb
  unfold Store.lookupPath
  rw [hg.ancestors h hb]
  congr 1
  have htake : (s.ancestors b).takeWhile (fun a => !s'.isModule a) =
      (s.ancestors b).takeWhile fun a => !s.isModule a :=
    takeWhile_congr fun a ha => by rw [hg.isModule (hold a ha)]
  rw [htake]
  refine List.filter_congr fun a ha => ?_
  rw [hg.isClass (hold a ((List.takeWhile_sublist _).subset ha))]

/-- A body that is neither a class nor a module spells names like the scope it stands in. -/
theorem Acyclic.spell (h : s.Acyclic) (hp : (s.body b).provider = some p)
    (hclass : s.isClass b = false) (hmodule : s.isModule b = false) : s.spell b = s.spell p := by
  have hsame : s.classOf? b = s.classOf? p := by
    unfold Store.classOf?
    rw [h.ancestors hp, List.find?_cons_of_neg (by simp [hclass, hmodule])]
  funext name
  unfold Store.spell
  rw [hsame]

/-- The body of a callable spells names like the scope it stands in. -/
theorem Ordered.spell (h : s.Ordered) (hp : (s.body b).provider = some p)
    (hk : (s.body b).kind.isFunctionLike = true) : s.spell b = s.spell p := by
  refine h.acyclic.spell hp ?_ ?_
  · unfold Store.isClass
    cases hkind : (s.body b).kind <;> simp_all [BodyKind.isFunctionLike]
  · unfold Store.isModule
    cases hkind : (s.body b).kind <;> simp_all [BodyKind.isFunctionLike]

end Ordered

end Store

end DefinitionLowering.IR
