import DefinitionLowering.Proofs.Lookup

/-!
# The bookkeeping of a store

A `Command` is one call of the interface of the store, with the bodies that the caller hands in.
`RunsTo s commands s'` is a sequence of commands about bodies that exist, none of which ends with a
fault; the order is free, so a name may be resolved before it is declared, and a body may be
shared with itself.

* `Invariant` is what every command keeps (`Performs.invariant`): the variables that a body owns
  and sees are those that were created for it, in the order of creation, and so are its
  temporaries; what is seen exists and is no temporary, and nothing is seen twice.
* `runs_bookkept` — after every run, every variable is listed once where it belongs and nowhere
  else, and a further command changes neither a variable nor the code of a body that it does not
  name.
-/

namespace DefinitionLowering.IR

namespace Store

variable {s s' : Store} {b c : BodyId} {v w : VariableId} {name : String} {plan : BodyPlan}

/-! ## Commands -/

/-- A call of the interface of the store. -/
inductive Command where
  | createBody (plan : BodyPlan)
  | attachCode (b : BodyId) (code : Block)
  | wrapCode (b : BodyId) (wrap : Block → Block)
  | declareLocal (b : BodyId) (name : String)
  | addTemporary (b : BodyId) (name : String)
  | share (source target : BodyId)
  | resolve (b : BodyId) (name : String)
  | addGlobal (b : BodyId) (name : String)
  | addNonlocal (b : BodyId) (declaration : NonlocalDeclaration)

namespace Command

/-- The bodies that the caller hands in. -/
def mentions : Command → List BodyId
  | .createBody plan => plan.provider.toList
  | .share source target => [source, target]
  | .attachCode b _ | .wrapCode b _ | .declareLocal b _ | .addTemporary b _ | .resolve b _
  | .addGlobal b _ | .addNonlocal b _ => [b]

/-- The body whose code the command is about. -/
def coded? : Command → Option BodyId
  | .attachCode b _ | .wrapCode b _ => some b
  | _ => none

/-- The store after the command, or the fault that it ends with. -/
def perform (s : Store) : Command → Except Fault Store
  | .createBody plan => .ok (s.createBody plan).2
  | .attachCode b code => s.attachCode b code
  | .wrapCode b wrap => .ok (s.wrapCode b wrap)
  | .declareLocal b name => .ok (s.declareLocal b name).2
  | .addTemporary b name => (s.addTemporary b name).map Prod.snd
  | .share source target => .ok (s.share source target)
  | .resolve b name => .ok (s.resolve b name).2
  | .addGlobal b name => .ok (s.addGlobal b name)
  | .addNonlocal b declaration => .ok (s.addNonlocal b declaration)

end Command

/-- The command is about bodies of the store and turns it into another one. -/
structure Performs (command : Command) (s s' : Store) : Prop where
  known : ∀ b ∈ command.mentions, b.index < s.bodies.size
  result : command.perform s = .ok s'

/-- Commands performed one after the other. -/
inductive RunsTo : Store → List Command → Store → Prop
  | nil (s : Store) : RunsTo s [] s
  | cons {s s₁ s' : Store} {command : Command} {rest : List Command}
    (first : Performs command s s₁) (then_ : RunsTo s₁ rest s') : RunsTo s (command :: rest) s'

/-- The store after some commands, unless one is about a body that does not exist or ends with
a fault. -/
def performAll? (s : Store) : List Command → Option Store
  | [] => some s
  | command :: rest =>
    if command.mentions.all fun b => b.index < s.bodies.size then
      match command.perform s with
      | .ok s₁ => s₁.performAll? rest
      | .error _ => none
    else none

theorem runs_of_performAll? : ∀ {commands : List Command} {s : Store},
    s.performAll? commands = some s' → RunsTo s commands s'
  | [], s, h => by
    cases h
    exact .nil _
  | command :: rest, s, h => by
    unfold performAll? at h
    split at h
    · rename_i hknown
      split at h
      · rename_i s₁ hresult
        exact .cons ⟨by simpa using hknown, hresult⟩ (runs_of_performAll? h)
      · cases h
    · cases h

/-! ## Variables by owner -/

/-- All variables in the order of creation. -/
def variableIds (s : Store) : List VariableId :=
  (List.range s.vars.size).map VariableId.mk

/-- The variables of a body that are of some kinds, in the order of creation. -/
def owned (s : Store) (b : BodyId) (kinds : VariableKind → Bool) : List VariableId :=
  s.variableIds.filter fun v => (s.var v).owner == b && kinds (s.var v).kind

/-- The next `n` variables to be created. -/
def nextVariables (s : Store) (n : Nat) : List VariableId :=
  (List.range' s.vars.size n).map VariableId.mk

theorem mem_variableIds : v ∈ s.variableIds ↔ v.index < s.vars.size := by
  rw [variableIds, List.mem_map]
  constructor
  · rintro ⟨i, hi, rfl⟩
    exact List.mem_range.1 hi
  · exact fun h => ⟨v.index, List.mem_range.2 h, rfl⟩

theorem nodup_variableIds (s : Store) : s.variableIds.Nodup :=
  List.nodup_range.map fun _ _ h => congrArg VariableId.index h

theorem mem_nextVariables {n : Nat} :
    v ∈ s.nextVariables n ↔ s.vars.size ≤ v.index ∧ v.index < s.vars.size + n := by
  rw [nextVariables, List.mem_map]
  constructor
  · rintro ⟨i, hi, rfl⟩
    exact List.mem_range'_1.1 hi
  · exact fun h => ⟨v.index, List.mem_range'_1.2 h, rfl⟩

theorem nodup_nextVariables (s : Store) (n : Nat) : (s.nextVariables n).Nodup :=
  (List.nodup_range' 1).map fun _ _ h => congrArg VariableId.index h

section Owned

variable {kinds : VariableKind → Bool} {n : Nat}

theorem mem_owned :
    v ∈ s.owned b kinds ↔
      v.index < s.vars.size ∧ (s.var v).owner = b ∧ kinds (s.var v).kind = true := by
  simp [owned, mem_variableIds]

theorem nodup_owned (s : Store) (b : BodyId) (kinds : VariableKind → Bool) :
    (s.owned b kinds).Nodup :=
  (nodup_variableIds s).filter _

/-- New variables come after the old ones. -/
theorem owned_append (hsize : s'.vars.size = s.vars.size + n)
    (hvar : ∀ v : VariableId, v.index < s.vars.size → s'.var v = s.var v) :
    s'.owned b kinds = s.owned b kinds ++
      (s.nextVariables n).filter fun v => (s'.var v).owner == b && kinds (s'.var v).kind := by
  have hids : s'.variableIds = s.variableIds ++ s.nextVariables n := by
    rw [variableIds, hsize, List.range_add, List.map_append, ← List.range'_eq_map_range]
    rfl
  rw [owned, hids, List.filter_append, owned]
  congr 1
  exact List.filter_congr fun v hv => by rw [hvar v (mem_variableIds.1 hv)]

theorem owned_congr (hvars : s'.vars = s.vars) : s'.owned b kinds = s.owned b kinds := by
  simp [owned, variableIds, var, hvars]

end Owned

/-! ## What every command keeps -/

/-- Which variables the bodies of a store list, and in which order. -/
structure Invariant (s : Store) : Prop where
  ordered : s.Ordered
  owner : ∀ v : VariableId, v.index < s.vars.size → (s.var v).owner.index < s.bodies.size
  seen : ∀ b, ∀ v ∈ s.visible b, v.index < s.vars.size ∧ (s.var v).kind ≠ .temporary
  nodup : ∀ b, (s.visible b).Nodup
  own : ∀ b, s.ownVariables b = s.owned b (· != .temporary)
  temporaries : ∀ b, s.temporaries b = s.owned b (· == .temporary)
  names : ∀ b, ((s.temporaries b).map fun v => (s.var v).name).Nodup

theorem invariant_empty : Invariant empty := by
  have hbody : ∀ b, empty.body b = default := fun b => body_of_size_le (Nat.zero_le _)
  have hvisible : ∀ b, empty.visible b = [] := fun b => by rw [visible, hbody]; rfl
  have htemporaries : ∀ b, empty.temporaries b = [] := fun b => by rw [temporaries, hbody]; rfl
  refine ⟨ordered_empty, fun v hv => absurd hv (Nat.not_lt_zero _), fun b v hv => ?_, fun b => ?_,
    fun b => ?_, fun b => ?_, fun b => ?_⟩
  · rw [hvisible] at hv
    cases hv
  · rw [hvisible]
    exact List.nodup_nil
  · rw [ownVariables, hvisible]
    rfl
  · rw [htemporaries]
    rfl
  · rw [htemporaries]
    exact List.nodup_nil

section Preservation

/-- A body sees the parameters and locals that it owns. -/
theorem Invariant.mem_visible_owner (h : s.Invariant) (hv : v.index < s.vars.size)
    (hkind : (s.var v).kind ≠ .temporary) : v ∈ s.visible (s.var v).owner := by
  have hown : v ∈ s.ownVariables (s.var v).owner := by
    rw [h.own, mem_owned]
    exact ⟨hv, rfl, by simpa using hkind⟩
  exact (List.mem_filter.1 hown).1

theorem Invariant.names_of_temporaries (h : s.Invariant)
    (hold : ∀ v : VariableId, v.index < s.vars.size → s'.var v = s.var v)
    (htemporaries : s'.temporaries b = s.temporaries b) :
    ((s'.temporaries b).map fun v => (s'.var v).name).Nodup := by
  rw [htemporaries, List.map_congr_left fun v hv => ?_]
  · exact h.names b
  · rw [h.temporaries] at hv
    rw [hold v (mem_owned.1 hv).1]

/-- Bodies may come to see what other bodies see. -/
theorem Invariant.reveals (h : s.Invariant) (hvars : s'.vars = s.vars)
    (hsize : s'.bodies.size = s.bodies.size)
    (hprovider : ∀ b, (s'.body b).provider = (s.body b).provider)
    (htemporaries : ∀ b, s'.temporaries b = s.temporaries b)
    (hvisible : ∀ b, ∃ more, s'.visible b = s.visible b ++ more ∧ more.Nodup ∧
      ∀ v ∈ more, v ∉ s.visible b ∧ ∃ c, v ∈ s.visible c) : s'.Invariant := by
  have hvar : ∀ v, s'.var v = s.var v := fun v => by rw [var, hvars, var]
  refine ⟨fun b p hp => h.ordered b p (by rw [← hprovider, hp]), fun v hv => ?_, fun b v hv => ?_,
    fun b => ?_, fun b => ?_, fun b => ?_, fun b => ?_⟩
  · rw [hvar, hsize]
    exact h.owner v (by rwa [hvars] at hv)
  · rw [hvar, hvars]
    obtain ⟨more, heq, -, hmore⟩ := hvisible b
    rw [heq, List.mem_append] at hv
    rcases hv with hv | hv
    · exact h.seen b v hv
    · obtain ⟨c, hc⟩ := (hmore v hv).2
      exact h.seen c v hc
  · obtain ⟨more, heq, hn, hmore⟩ := hvisible b
    rw [heq]
    exact (h.nodup b).append hn fun v hv hnew => (hmore v hnew).1 hv
  · obtain ⟨more, heq, -, hmore⟩ := hvisible b
    -- a variable of the body's own is in its list already
    have hnone : more.filter (fun v => (s'.var v).owner == b) = [] := by
      refine List.filter_eq_nil_iff.2 fun v hv howner => (hmore v hv).1 ?_
      obtain ⟨c, hc⟩ := (hmore v hv).2
      obtain ⟨hlt, hkind⟩ := h.seen c v hc
      rw [hvar, beq_iff_eq] at howner
      exact howner ▸ h.mem_visible_owner hlt hkind
    have hsame : (s.visible b).filter (fun v => (s'.var v).owner == b) = s.ownVariables b :=
      List.filter_congr fun v _ => by rw [hvar]
    rw [ownVariables, heq, List.filter_append, hnone, List.append_nil, hsame, h.own,
      owned_congr hvars]
  · rw [htemporaries, h.temporaries, owned_congr hvars]
  · exact h.names_of_temporaries (fun v _ => hvar v) (htemporaries b)

theorem Invariant.modifyBody (h : s.Invariant) {f : Body → Body}
    (hprovider : ∀ body, (f body).provider = body.provider)
    (hvisible : ∀ body, (f body).visible = body.visible)
    (htemporaries : ∀ body, (f body).temporaries = body.temporaries) :
    (s.modifyBody b f).Invariant := by
  refine h.reveals rfl (by simp) (fun c => ?_) (fun c => ?_) fun c =>
    ⟨[], ?_, List.nodup_nil, fun _ hv => by cases hv⟩
  · rw [body_modifyBody]
    split
    · exact hprovider _
    · rfl
  · rw [Store.temporaries, body_modifyBody]
    split
    · exact htemporaries _
    · rfl
  · rw [Store.visible, body_modifyBody, List.append_nil]
    split
    · exact hvisible _
    · rfl

theorem Invariant.reveal (h : s.Invariant) (hnew : v ∉ s.visible b) (hv : v ∈ s.visible c) :
    (s.reveal b v).Invariant := by
  have hgrows := fun n => Grows.reveal n s b v
  refine h.reveals rfl (by simp) (view_of_grows hgrows Body.provider fun _ => rfl)
    (view_of_grows hgrows Body.temporaries fun _ => rfl) fun d => ?_
  by_cases hd : b = d ∧ d.index < s.bodies.size
  · obtain ⟨rfl, hlt⟩ := hd
    refine ⟨[v], visible_reveal_self hlt, List.nodup_singleton v, fun w hw => ?_⟩
    rw [List.mem_singleton.1 hw]
    exact ⟨hnew, c, hv⟩
  · refine ⟨[], ?_, List.nodup_nil, fun _ hw => by cases hw⟩
    rw [Store.visible, body_reveal, if_neg hd, List.append_nil, Store.visible]

theorem Invariant.share (h : s.Invariant) (source target : BodyId) :
    (s.share source target).Invariant := by
  suffices hmain : ∀ (vars : List VariableId) (s : Store), s.Invariant →
      (∀ v ∈ vars, ∃ c, v ∈ s.visible c) →
      (vars.foldl (fun s v => if v ∈ s.visible target then s else s.reveal target v) s).Invariant
    from hmain _ s h fun v hv => ⟨source, hv⟩
  intro vars
  induction vars with
  | nil => exact fun s h _ => h
  | cons v rest ih =>
    intro s h hseen
    rw [List.foldl_cons]
    obtain ⟨c, hc⟩ := hseen v List.mem_cons_self
    have hrest : ∀ w ∈ rest, ∃ c, w ∈ s.visible c := fun w hw =>
      hseen w (List.mem_cons_of_mem _ hw)
    split
    · exact ih s h hrest
    · rename_i hnew
      refine ih _ (h.reveal hnew hc) fun w hw => ?_
      obtain ⟨d, hd⟩ := hrest w hw
      exact ⟨d, ((Grows.reveal 0 s target v).visible d).subset hd⟩

theorem Invariant.resolve (h : s.Invariant) (b : BodyId) (name : String) :
    (s.resolve b name).2.Invariant := by
  have hgrows := fun n => Grows.resolve n s b name
  refine h.reveals (vars_resolve s b name) (size_bodies_resolve s b name)
    (view_of_grows hgrows Body.provider fun _ => rfl)
    (view_of_grows hgrows Body.temporaries fun _ => rfl) fun c => ?_
  rcases h.ordered.resolve_visible s b name c with hsame | ⟨v, -, hfind, hlookup, hmore⟩
  · exact ⟨[], by rw [hsame, List.append_nil], List.nodup_nil, fun _ hv => by cases hv⟩
  · obtain ⟨d, -, hd, hname⟩ := lookupAlong_name hlookup
    refine ⟨[v], hmore, List.nodup_singleton v, fun w hw => ?_⟩
    rw [List.mem_singleton.1 hw]
    exact ⟨fun hv => find?_eq_none.1 hfind v hv hname, d, hd⟩

/-- The next variables may be created for one body, which lists them at the end. -/
theorem Invariant.adds (h : s.Invariant) {n : Nat} (owner : BodyId) (kind : VariableKind)
    (hordered : s'.Ordered) (howner : owner.index < s'.bodies.size)
    (hbodies : s.bodies.size ≤ s'.bodies.size) (hsize : s'.vars.size = s.vars.size + n)
    (hold : ∀ v : VariableId, v.index < s.vars.size → s'.var v = s.var v)
    (hnew : ∀ v ∈ s.nextVariables n, (s'.var v).owner = owner ∧ (s'.var v).kind = kind)
    (hvisible : ∀ b, s'.visible b =
      s.visible b ++ if owner = b ∧ kind ≠ .temporary then s.nextVariables n else [])
    (htemporaries : ∀ b, s'.temporaries b =
      s.temporaries b ++ if owner = b ∧ kind = .temporary then s.nextVariables n else [])
    (hnames : ∀ b, ((s'.temporaries b).map fun v => (s'.var v).name).Nodup) : s'.Invariant := by
  have howned : ∀ b kinds, s'.owned b kinds =
      s.owned b kinds ++ if owner = b ∧ kinds kind = true then s.nextVariables n else [] := by
    intro b kinds
    rw [owned_append hsize hold]
    congr 1
    split
    · rename_i hb
      exact List.filter_eq_self.2 fun v hv => by simp [hnew v hv, hb]
    · rename_i hb
      exact List.filter_eq_nil_iff.2 fun v hv => by simpa [hnew v hv] using hb
  have hcases : ∀ v : VariableId, v.index < s'.vars.size →
      v.index < s.vars.size ∨ v ∈ s.nextVariables n := fun v hv => by
    rw [mem_nextVariables]
    omega
  refine ⟨hordered, fun v hv => ?_, fun b v hv => ?_, fun b => ?_, fun b => ?_, fun b => ?_, hnames⟩
  · rcases hcases v hv with hlt | hmem
    · rw [hold v hlt]
      exact Nat.lt_of_lt_of_le (h.owner v hlt) hbodies
    · rw [(hnew v hmem).1]
      exact howner
  · rw [hvisible, List.mem_append] at hv
    rcases hv with hv | hv
    · obtain ⟨hlt, hkind⟩ := h.seen b v hv
      rw [hold v hlt]
      exact ⟨by omega, hkind⟩
    · split at hv
      · rename_i hb
        rw [(hnew v hv).2, hsize]
        exact ⟨(mem_nextVariables.1 hv).2, hb.2⟩
      · cases hv
  · rw [hvisible]
    refine (h.nodup b).append ?_ fun v hv hmem => ?_
    · split
      · exact nodup_nextVariables s n
      · exact List.nodup_nil
    · have hlt := (h.seen b v hv).1
      split at hmem
      · have := (mem_nextVariables.1 hmem).1
        omega
      · cases hmem
  · have hsame : (s.visible b).filter (fun v => (s'.var v).owner == b) = s.ownVariables b :=
      List.filter_congr fun v hv => by rw [hold v (h.seen b v hv).1]
    rw [ownVariables, hvisible, List.filter_append, hsame, h.own, howned]
    congr 1
    by_cases hb : owner = b ∧ kind ≠ .temporary
    · rw [if_pos hb, if_pos (by simpa using hb)]
      exact List.filter_eq_self.2 fun v hv => by simp [hnew v hv, hb]
    · rw [if_neg hb, if_neg (by simpa using hb)]
      rfl
  · rw [htemporaries, h.temporaries, howned]
    simp only [beq_iff_eq]

theorem nextVariables_one (s : Store) : s.nextVariables 1 = [⟨s.vars.size⟩] := rfl

theorem Invariant.createBody (h : s.Invariant)
    (hp : ∀ p, plan.provider = some p → p.index < s.bodies.size) :
    (s.createBody plan).2.Invariant := by
  have hfresh : s.body ⟨s.bodies.size⟩ = default := body_of_size_le (Nat.le_refl _)
  have hvar : ∀ v : VariableId, v.index < s.vars.size → (s.createBody plan).2.var v = s.var v :=
    fun v hv => var_createBody_of_lt s plan hv
  have htemporaries : ∀ b, (s.createBody plan).2.temporaries b = s.temporaries b := by
    intro b
    by_cases hb : b = ⟨s.bodies.size⟩
    · rw [Store.temporaries, Store.temporaries, hb, body_createBody_self, hfresh]
      rfl
    · rw [Store.temporaries, Store.temporaries, body_createBody_ne hb]
  refine h.adds ⟨s.bodies.size⟩ .parameter (h.ordered.createBody hp) (by simp) (by simp)
    size_vars_createBody hvar (fun v hv => ?_) (fun b => ?_) (fun b => ?_) fun b => ?_
  · obtain ⟨hlow, hhigh⟩ := mem_nextVariables.1 hv
    obtain ⟨slot, -, hslot⟩ := var_createBody_new hlow (by rwa [size_vars_createBody])
    rw [hslot]
    exact ⟨rfl, rfl⟩
  · by_cases hb : b = ⟨s.bodies.size⟩
    · subst hb
      rw [if_pos ⟨rfl, by decide⟩, visible_createBody_self, visible, hfresh]
      rfl
    · rw [if_neg fun he => hb he.1.symm, List.append_nil, visible, visible, body_createBody_ne hb]
  · rw [htemporaries, if_neg (by simp), List.append_nil]
  · exact h.names_of_temporaries hvar (htemporaries b)

theorem Invariant.declareLocal (h : s.Invariant) (hb : b.index < s.bodies.size) (name : String) :
    (s.declareLocal b name).2.Invariant := by
  rcases declareLocal_cases hb name with ⟨v, -, hsame⟩ | hnew
  · rwa [hsame]
  · have htemporaries := view_of_grows hnew.grows Body.temporaries fun _ => rfl
    refine h.adds (n := 1) b .localName (fun c p hp => ?_) (hnew.bodies ▸ hb)
      (Nat.le_of_eq hnew.bodies.symm) hnew.vars (hnew.grows 0).var (fun v hv => ?_) (fun c => ?_)
      (fun c => ?_) fun c => h.names_of_temporaries (hnew.grows 0).var (htemporaries c)
    · exact h.ordered c p ((view_of_grows hnew.grows Body.provider (fun _ => rfl) c).symm.trans hp)
    · rw [nextVariables_one, List.mem_singleton] at hv
      rw [hv, hnew.var]
      exact ⟨rfl, rfl⟩
    · by_cases hc : b = c
      · subst hc
        rw [if_pos ⟨rfl, by decide⟩, hnew.visible, nextVariables_one]
      · rw [if_neg fun he => hc he.1, List.append_nil, hnew.others c hc]
    · rw [if_neg (by simp), List.append_nil]
      exact htemporaries c

theorem Invariant.addTemporary (h : s.Invariant) (hb : b.index < s.bodies.size)
    (ha : s.addTemporary b name = .ok (v, s')) : s'.Invariant := by
  obtain ⟨hfresh, -, rfl⟩ := addTemporary_eq_ok ha
  have hold : ∀ w : VariableId, w.index < s.vars.size →
      (s.pushVariable ⟨name, b, .temporary⟩).2.var w = s.var w :=
    fun w hw => var_pushVariable_of_lt hw
  have htemporaries : ∀ c, ((s.pushVariable ⟨name, b, .temporary⟩).2.modifyBody b fun body =>
      { body with temporaries := body.temporaries ++ [⟨s.vars.size⟩] }).temporaries c =
        s.temporaries c ++ if b = c then [⟨s.vars.size⟩] else [] := by
    intro c
    by_cases hc : b = c
    · subst hc
      rw [if_pos rfl, Store.temporaries, body_modifyBody_self (by simpa using hb)]
      rfl
    · rw [if_neg hc, List.append_nil, Store.temporaries, body_modifyBody_ne hc]
      rfl
  refine h.adds (n := 1) b .temporary (fun c p hp => h.ordered c p ?_) (by simpa using hb)
    (by simp) (by simp) hold (fun w hw => ?_) (fun c => ?_) (fun c => ?_) fun c => ?_
  · rw [body_modifyBody] at hp
    split at hp <;> exact hp
  · rw [nextVariables_one, List.mem_singleton] at hw
    rw [hw, var_modifyBody, var_pushVariable_self]
    exact ⟨rfl, rfl⟩
  · rw [if_neg (fun he => he.2 rfl), List.append_nil, Store.visible, body_modifyBody]
    split <;> rfl
  · rw [htemporaries, nextVariables_one]
    simp only [and_true]
  · have hmap : (s.temporaries c).map
        (fun w => ((s.pushVariable ⟨name, b, .temporary⟩).2.var w).name) =
          (s.temporaries c).map fun w => (s.var w).name :=
      List.map_congr_left fun w hw => by
        rw [h.temporaries] at hw
        rw [hold w (mem_owned.1 hw).1]
    rw [htemporaries, List.map_append]
    simp only [var_modifyBody]
    rw [hmap]
    by_cases hc : b = c
    · subst hc
      rw [if_pos rfl, List.map_singleton, var_pushVariable_self]
      refine (h.names b).append (List.nodup_singleton _) fun text hold hnew => ?_
      obtain ⟨w, hw, hname⟩ := List.mem_map.1 hold
      rw [List.mem_singleton.1 hnew] at hname
      simp only [hasTemporary, List.any_eq_false, beq_iff_eq] at hfresh
      exact hfresh w hw hname
    · rw [if_neg hc, List.map_nil, List.append_nil]
      exact h.names c

theorem perform_addTemporary (h : (Command.addTemporary b name).perform s = .ok s') :
    ∃ v, s.addTemporary b name = .ok (v, s') := by
  simp only [Command.perform] at h
  cases ha : s.addTemporary b name with
  | error fault =>
    rw [ha] at h
    cases h
  | ok added =>
    rw [ha] at h
    cases h
    exact ⟨added.1, rfl⟩

/-- **Every command keeps the invariant.** -/
theorem Performs.invariant {command : Command} (h : s.Invariant) (hc : Performs command s s') :
    s'.Invariant := by
  obtain ⟨hknown, hresult⟩ := hc
  cases command with
  | createBody plan =>
    cases hresult
    exact h.createBody fun p hp => hknown p (by simp [Command.mentions, hp])
  | attachCode b code =>
    obtain ⟨-, rfl⟩ := attachCode_eq_ok hresult
    exact h.modifyBody (fun _ => rfl) (fun _ => rfl) fun _ => rfl
  | wrapCode b wrap =>
    cases hresult
    exact h.modifyBody (fun _ => rfl) (fun _ => rfl) fun _ => rfl
  | declareLocal b name =>
    cases hresult
    exact h.declareLocal (hknown b List.mem_cons_self) name
  | addTemporary b name =>
    obtain ⟨v, hadded⟩ := perform_addTemporary hresult
    exact h.addTemporary (hknown b List.mem_cons_self) hadded
  | share source target =>
    cases hresult
    exact h.share source target
  | resolve b name =>
    cases hresult
    exact h.resolve b name
  | addGlobal b name =>
    cases hresult
    exact h.modifyBody (fun _ => rfl) (fun _ => rfl) fun _ => rfl
  | addNonlocal b declaration =>
    cases hresult
    exact h.modifyBody (fun _ => rfl) (fun _ => rfl) fun _ => rfl

/-- **Every run keeps the invariant.** -/
theorem RunsTo.invariant {commands : List Command} (hr : RunsTo s commands s') (h : s.Invariant) :
    s'.Invariant := by
  induction hr with
  | nil => exact h
  | cons first _ ih => exact ih (first.invariant h)

end Preservation

/-! ## What a command leaves alone -/

theorem code_modifyBody {f : Body → Body} (hf : ∀ body, (f body).code = body.code) (c : BodyId) :
    ((s.modifyBody b f).body c).code = (s.body c).code := by
  rw [body_modifyBody]
  split
  · exact hf _
  · rfl

/-- A command that changes at most what bodies see leaves variables and code alone. -/
theorem frame_of_grows {codes : BodyId → Prop} (hg : ∀ n, Grows n s s') :
    (∀ v : VariableId, v.index < s.vars.size → s'.var v = s.var v) ∧
      ∀ b, codes b → (s'.body b).code = (s.body b).code :=
  ⟨(hg 0).var, fun b _ => view_of_grows hg Body.code (fun _ => rfl) b⟩

/-- **A command changes no variable that exists, and the code of no body but the one that it
attaches code to or whose code it wraps.** -/
theorem Performs.frame {command : Command} (h : Performs command s s') :
    (∀ v : VariableId, v.index < s.vars.size → s'.var v = s.var v) ∧
      ∀ b, command.coded? ≠ some b → (s'.body b).code = (s.body b).code := by
  obtain ⟨-, hresult⟩ := h
  cases command with
  | createBody plan =>
    cases hresult
    refine ⟨fun v hv => var_createBody_of_lt s plan hv, fun b _ => ?_⟩
    by_cases hb : b = ⟨s.bodies.size⟩
    · have hfresh : s.body ⟨s.bodies.size⟩ = default := body_of_size_le (Nat.le_refl _)
      rw [hb, body_createBody_self, hfresh]
      rfl
    · rw [body_createBody_ne hb]
  | attachCode b code =>
    obtain ⟨-, rfl⟩ := attachCode_eq_ok hresult
    refine ⟨fun _ _ => rfl, fun c hc => ?_⟩
    rw [body_modifyBody_ne fun he => hc (congrArg some he)]
  | wrapCode b wrap =>
    cases hresult
    refine ⟨fun _ _ => rfl, fun c hc => ?_⟩
    rw [wrapCode, body_modifyBody_ne fun he => hc (congrArg some he)]
  | declareLocal b name =>
    cases hresult
    exact frame_of_grows fun n => Grows.declareLocal n s b name
  | addTemporary b name =>
    obtain ⟨v, hadded⟩ := perform_addTemporary hresult
    obtain ⟨-, -, rfl⟩ := addTemporary_eq_ok hadded
    refine ⟨fun v hv => var_pushVariable_of_lt hv, fun c _ => ?_⟩
    rw [code_modifyBody, body_pushVariable]
    exact fun _ => rfl
  | share source target =>
    cases hresult
    exact frame_of_grows fun n => Grows.share n s source target
  | resolve b name =>
    cases hresult
    exact frame_of_grows fun n => Grows.resolve n s b name
  | addGlobal b name =>
    cases hresult
    refine ⟨fun _ _ => rfl, fun c _ => ?_⟩
    rw [addGlobal, code_modifyBody]
    exact fun _ => rfl
  | addNonlocal b declaration =>
    cases hresult
    refine ⟨fun _ _ => rfl, fun c _ => ?_⟩
    rw [addNonlocal, code_modifyBody]
    exact fun _ => rfl

/-! ## Every variable in its place -/

/-- Every variable is listed once where it belongs and nowhere else. -/
structure Bookkept (s : Store) : Prop where
  /-- The owner of a variable exists. -/
  owner : ∀ v : VariableId, v.index < s.vars.size → (s.var v).owner.index < s.bodies.size
  /-- Parameters and locals are seen once by their owner and are no temporaries. -/
  listed : ∀ v : VariableId, v.index < s.vars.size → (s.var v).kind ≠ .temporary →
    (s.visible (s.var v).owner).count v = 1 ∧ ∀ b, v ∉ s.temporaries b
  /-- Temporaries are listed once by their owner and are in no other list. -/
  scratch : ∀ v : VariableId, v.index < s.vars.size → (s.var v).kind = .temporary →
    (s.temporaries (s.var v).owner).count v = 1 ∧
      (∀ b, b ≠ (s.var v).owner → v ∉ s.temporaries b) ∧ ∀ b, v ∉ s.visible b
  /-- No body sees a variable twice. -/
  nodup : ∀ b, (s.visible b).Nodup
  /-- The temporaries of a body have distinct names. -/
  names : ∀ b, ((s.temporaries b).map fun v => (s.var v).name).Nodup
  /-- The variables that a body calls its own are its parameters and locals, as created. -/
  own : ∀ b, s.ownVariables b = s.variableIds.filter fun v =>
    (s.var v).owner == b && (s.var v).kind != .temporary
  /-- Providers are older than the bodies they serve. -/
  ordered : ∀ b p, (s.body b).provider = some p → p.index < b.index

theorem Invariant.bookkept (h : s.Invariant) : s.Bookkept where
  owner := h.owner
  listed v hv hkind := by
    refine ⟨List.count_eq_one_of_mem (h.nodup _) (h.mem_visible_owner hv hkind), fun b hb => ?_⟩
    rw [h.temporaries, mem_owned] at hb
    exact hkind (beq_iff_eq.1 hb.2.2)
  scratch v hv hkind := by
    refine ⟨?_, fun b hne hb => ?_, fun b hb => (h.seen b v hb).2 hkind⟩
    · rw [h.temporaries]
      exact List.count_eq_one_of_mem (nodup_owned _ _ _)
        (mem_owned.2 ⟨hv, rfl, beq_iff_eq.2 hkind⟩)
    · rw [h.temporaries, mem_owned] at hb
      exact hne hb.2.1.symm
  nodup := h.nodup
  names := h.names
  own := h.own
  ordered := h.ordered

/-- **The bookkeeping is right after every run.** Commands in any order, from the empty store and
about bodies that exist, leave every variable listed where it belongs; and each further command
changes neither a variable that exists nor the code of a body that it does not name. -/
theorem runs_bookkept {commands : List Command} (h : RunsTo empty commands s) :
    s.Bookkept ∧ ∀ (command : Command) (s' : Store), Performs command s s' →
      (∀ v : VariableId, v.index < s.vars.size → s'.var v = s.var v) ∧
        ∀ b, command.coded? ≠ some b → (s'.body b).code = (s.body b).code :=
  ⟨(h.invariant invariant_empty).bookkept, fun _ _ hc => hc.frame⟩

/-- A name is resolved before and after it is declared, a body is shared with itself, and two
bodies are shared with each other. -/
theorem runs_bookkept_crossed :
    ∃ s, RunsTo empty
      [.createBody { kind := .moduleBody, name := "m", location := .moduleStart },
        .createBody
          { kind := .callable .function, name := "f", location := .unknown, provider := some ⟨0⟩,
            signature := some ⟨"f", ["x"], [], none, none, 0⟩ },
        .createBody
          { kind := .callable .generator, name := "g", location := .unknown,
            provider := some ⟨1⟩ },
        .resolve ⟨2⟩ "y", .declareLocal ⟨1⟩ "y", .resolve ⟨2⟩ "y", .declareLocal ⟨2⟩ "z",
        .addTemporary ⟨2⟩ "z", .addTemporary ⟨1⟩ "z", .share ⟨1⟩ ⟨1⟩, .share ⟨2⟩ ⟨1⟩,
        .share ⟨1⟩ ⟨2⟩, .addNonlocal ⟨2⟩ ⟨"y", .unknown⟩, .addGlobal ⟨2⟩ "x",
        .attachCode ⟨2⟩ ⟨[.retNone], none⟩, .wrapCode ⟨2⟩ fun block => block.releasing [⟨3⟩]] s ∧
      s.visible ⟨1⟩ = [⟨0⟩, ⟨1⟩, ⟨2⟩] ∧ s.visible ⟨2⟩ = [⟨1⟩, ⟨2⟩, ⟨0⟩] ∧ s.Bookkept := by
  have hcomputed : ∀ {commands : List Command}, ((performAll? empty commands).any fun s =>
      s.visible ⟨1⟩ == [⟨0⟩, ⟨1⟩, ⟨2⟩] && s.visible ⟨2⟩ == [⟨1⟩, ⟨2⟩, ⟨0⟩]) = true →
      ∃ s, RunsTo empty commands s ∧
        s.visible ⟨1⟩ = [⟨0⟩, ⟨1⟩, ⟨2⟩] ∧ s.visible ⟨2⟩ = [⟨1⟩, ⟨2⟩, ⟨0⟩] ∧ s.Bookkept := by
    intro commands h
    obtain ⟨s, hs, hvisible⟩ := (Option.any_eq_true _ _).1 h
    rw [Bool.and_eq_true, beq_iff_eq, beq_iff_eq] at hvisible
    have hruns := runs_of_performAll? hs
    exact ⟨s, hruns, hvisible.1, hvisible.2, (runs_bookkept hruns).1⟩
  exact hcomputed (by decide +kernel)

end Store

end DefinitionLowering.IR
