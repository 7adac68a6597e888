import Mathlib.Data.List.TakeWhile
import DefinitionLowering.Proofs.Lookup
import DefinitionLowering.Proofs.Shifting

/-!
# A store behind another

`host.adjoin guest` is the store with the bodies and variables of `guest` behind those of `host`,
their numbers shifted by `host.offset`.  The module's body is the host's; what is recorded about
it in the guest is left out.

The operations of the store do not tell whether they run in the guest or behind the host: done
to the shifted body, each gives the shifted result and the guest's new store behind the host.
There is one law for each operation.  Changes of the module itself are excepted, and names are
never looked up there: every `lookupPath` ends before the module.
-/

namespace DefinitionLowering.IR.Store

/-- How far the numbers of a store are moved that comes behind another. -/
def offset (host : Store) : Shift :=
  ⟨host.bodies.size - 1, host.vars.size⟩

/-- The bodies and variables of a guest, but for the module, behind those of a host. -/
def adjoin (host guest : Store) : Store where
  bodies := host.bodies ++ (guest.bodies.extract 1).map (Body.shift host.offset)
  vars := host.vars ++ guest.vars.map (Variable.shift host.offset)

/-- A guest may come behind a host: both are stores of one and the same module. -/
structure Fits (host guest : Store) : Prop where
  hosted : 0 < host.bodies.size
  rooted : 0 < guest.bodies.size
  ordered : guest.Ordered
  outermost : (host.body ⟨0⟩).provider = none
  hostModule : (host.body ⟨0⟩).kind = .moduleBody
  guestModule : (guest.body ⟨0⟩).kind = .moduleBody
  info : (host.body ⟨0⟩).info = (guest.body ⟨0⟩).info

variable {host s s' : Store} {b c p : BodyId} {v w : VariableId} {name : String}
  {path : List BodyId} {plan : BodyPlan}

/-! ## What is recorded -/

section Recorded

theorem getElem?_bodies_adjoin (i : Nat) :
    (host.adjoin s).bodies[i]? =
      if i < host.bodies.size then host.bodies[i]?
      else s.bodies[i - host.bodies.size + 1]?.map (Body.shift host.offset) := by
  rw [adjoin, Array.getElem?_append]
  split
  · rfl
  · rw [Array.getElem?_map, Array.getElem?_extract]
    split
    · rw [Nat.add_comm]
    · rw [Array.getElem?_eq_none (by omega)]

theorem getElem?_vars_adjoin (i : Nat) :
    (host.adjoin s).vars[i]? =
      if i < host.vars.size then host.vars[i]?
      else s.vars[i - host.vars.size]?.map (Variable.shift host.offset) := by
  rw [adjoin, Array.getElem?_append, Array.getElem?_map]

theorem size_bodies_adjoin (host s : Store) :
    (host.adjoin s).bodies.size = host.bodies.size + (s.bodies.size - 1) := by
  simp [adjoin]

theorem size_vars_adjoin (host s : Store) :
    (host.adjoin s).vars.size = host.vars.size + s.vars.size := by
  simp [adjoin]

/-- The bodies of the host stay as they are. -/
theorem body_adjoin_of_lt (hb : b.index < host.bodies.size) :
    (host.adjoin s).body b = host.body b := by
  rw [body, body, Array.getD_eq_getD_getElem?, getElem?_bodies_adjoin, if_pos hb,
    Array.getD_eq_getD_getElem?]

theorem var_adjoin_of_lt (hv : v.index < host.vars.size) :
    (host.adjoin s).var v = host.var v := by
  rw [var, var, Array.getD_eq_getD_getElem?, getElem?_vars_adjoin, if_pos hv,
    Array.getD_eq_getD_getElem?]

/-- The bodies of the guest stay as they are but for numbers. -/
theorem body_adjoin (hn : 0 < host.bodies.size) (hb : b ≠ ⟨0⟩) :
    (host.adjoin s).body (host.offset.body b) = (s.body b).shift host.offset := by
  have hpos : b.index ≠ 0 := fun hzero => hb (congrArg BodyId.mk hzero)
  have hback : b.index + (host.bodies.size - 1) - host.bodies.size + 1 = b.index := by omega
  rw [Shift.body_of_ne hb, body, body, Array.getD_eq_getD_getElem?, getElem?_bodies_adjoin,
    Array.getD_eq_getD_getElem?, offset]
  dsimp only
  rw [if_neg (by omega), hback]
  cases s.bodies[b.index]? <;> rfl

theorem var_adjoin (host s : Store) (v : VariableId) :
    (host.adjoin s).var (host.offset.var v) = (s.var v).shift host.offset := by
  have hback : v.index + host.vars.size - host.vars.size = v.index := by omega
  rw [Shift.var, var, var, Array.getD_eq_getD_getElem?, getElem?_vars_adjoin,
    Array.getD_eq_getD_getElem?, offset]
  dsimp only
  rw [if_neg (by omega), hback]
  cases s.vars[v.index]? <;> rfl

/-- A body behind the host is one of the host or a shifted one of the guest. -/
theorem lt_or_offset (hn : 0 < host.bodies.size) (b : BodyId) :
    b.index < host.bodies.size ∨ ∃ c, c ≠ ⟨0⟩ ∧ b = host.offset.body c := by
  by_cases hb : b.index < host.bodies.size
  · exact .inl hb
  · have hc : (⟨b.index - (host.bodies.size - 1)⟩ : BodyId) ≠ ⟨0⟩ := fun he => by
      have := congrArg BodyId.index he
      dsimp only at this
      omega
    refine .inr ⟨_, hc, ?_⟩
    rw [Shift.body_of_ne hc, offset]
    exact congrArg BodyId.mk (by dsimp only; omega)

end Recorded

/-! ## Scopes around a body -/

section Scopes

theorem Fits.ne_root_of_kind (h : Fits host s) (hb : (s.body b).kind ≠ .moduleBody) :
    b ≠ ⟨0⟩ :=
  fun he => hb (he ▸ h.guestModule)

theorem Fits.kind (h : Fits host s) (b : BodyId) :
    ((host.adjoin s).body (host.offset.body b)).kind = (s.body b).kind := by
  by_cases hb : b = ⟨0⟩
  · subst hb
    rw [Shift.body_root, body_adjoin_of_lt h.hosted, h.hostModule, h.guestModule]
  · rw [body_adjoin h.hosted hb]
    rfl

theorem Fits.isModule (h : Fits host s) (b : BodyId) :
    (host.adjoin s).isModule (host.offset.body b) = s.isModule b := by
  rw [Store.isModule, Store.isModule, h.kind]

theorem Fits.isClass (h : Fits host s) (b : BodyId) :
    (host.adjoin s).isClass (host.offset.body b) = s.isClass b := by
  rw [Store.isClass, Store.isClass, h.kind]

theorem Fits.provider (h : Fits host s) (b : BodyId) :
    ((host.adjoin s).body (host.offset.body b)).provider =
      (s.body b).provider.map host.offset.body := by
  by_cases hb : b = ⟨0⟩
  · subst hb
    have hnone : (s.body ⟨0⟩).provider = none := by
      cases hp : (s.body ⟨0⟩).provider with
      | none => rfl
      | some p => exact absurd (h.ordered _ _ hp) (Nat.not_lt_zero _)
    rw [Shift.body_root, body_adjoin_of_lt h.hosted, h.outermost, hnone]
    rfl
  · rw [body_adjoin h.hosted hb]
    rfl

theorem Fits.providers (h : Fits host s) : ∀ (limit : Nat) (b : BodyId),
    (host.adjoin s).providers limit (host.offset.body b) =
      (s.providers limit b).map host.offset.body
  | 0, _ => rfl
  | limit + 1, b => by
    rw [Store.providers, Store.providers, h.provider]
    cases (s.body b).provider with
    | none => rfl
    | some p => exact congrArg (host.offset.body p :: ·) (h.providers limit p)

theorem Fits.ancestors (h : Fits host s) (b : BodyId) :
    (host.adjoin s).ancestors (host.offset.body b) = (s.ancestors b).map host.offset.body := by
  have hlimit : s.providers (host.adjoin s).bodies.size b = s.providers s.bodies.size b := by
    by_cases hb : b.index < s.bodies.size
    · have hle : b.index ≤ (host.adjoin s).bodies.size := by
        have := h.hosted
        rw [size_bodies_adjoin]
        omega
      rw [h.ordered.providers _ b hle, h.ordered.providers _ b (Nat.le_of_lt hb)]
    · have hnone : (s.body b).provider = none := by
        rw [body_of_size_le (Nat.le_of_not_lt hb)]
        rfl
      have hnil : ∀ limit, s.providers limit b = [] := fun limit => by
        cases limit with
        | zero => rfl
        | succ limit => rw [Store.providers, hnone]
      rw [hnil, hnil]
  rw [Store.ancestors, Store.ancestors, h.providers, hlimit]

theorem Fits.cons_ancestors (h : Fits host s) (b : BodyId) :
    host.offset.body b :: (host.adjoin s).ancestors (host.offset.body b) =
      (b :: s.ancestors b).map host.offset.body := by
  rw [h.ancestors, List.map_cons]

theorem Fits.classOf? (h : Fits host s) (b : BodyId) :
    (host.adjoin s).classOf? (host.offset.body b) = (s.classOf? b).map host.offset.body := by
  have hstop : (fun a => (host.adjoin s).isClass a || (host.adjoin s).isModule a) ∘
      host.offset.body = fun a => s.isClass a || s.isModule a :=
    funext fun a => congrArg₂ or (h.isClass a) (h.isModule a)
  have hclass : (host.adjoin s).isClass ∘ host.offset.body = s.isClass := funext h.isClass
  rw [Store.classOf?, Store.classOf?, h.cons_ancestors, List.find?_map, hstop, Option.filter_map,
    hclass]

/-- Names are spelled alike. -/
theorem Fits.spell (h : Fits host s) (b : BodyId) (name : String) :
    (host.adjoin s).spell (host.offset.body b) name = s.spell b name := by
  unfold Store.spell
  rw [h.classOf?]
  cases hc : s.classOf? b with
  | none => rfl
  | some c =>
    have hkind : s.isClass c = true := (Option.filter_eq_some_iff.1 hc).2
    have hne : c ≠ ⟨0⟩ := h.ne_root_of_kind fun hmodule => by
      rw [Store.isClass, hmodule] at hkind
      cases hkind
    dsimp only [Option.map_some]
    rw [body_adjoin h.hosted hne]
    rfl

/-- No name is looked up in the module from a body in it. -/
theorem Fits.root_not_mem_lookupPath (h : Fits host s) (hb : b ≠ ⟨0⟩) :
    (⟨0⟩ : BodyId) ∉ s.lookupPath b := by
  intro hmem
  rcases List.mem_cons.1 hmem with he | hmem
  · exact hb he.symm
  · have hmodule := List.mem_takeWhile_imp (List.mem_filter.1 hmem).1
    rw [Store.isModule, h.guestModule] at hmodule
    cases hmodule

theorem Fits.lookupPath (h : Fits host s) (b : BodyId) :
    (host.adjoin s).lookupPath (host.offset.body b) =
      (s.lookupPath b).map host.offset.body := by
  have hmodule : (fun a => !(host.adjoin s).isModule a) ∘ host.offset.body =
      fun a => !s.isModule a := funext fun a => congrArg (! ·) (h.isModule a)
  have hclass : (fun a => !(host.adjoin s).isClass a) ∘ host.offset.body =
      fun a => !s.isClass a := funext fun a => congrArg (! ·) (h.isClass a)
  rw [Store.lookupPath, Store.lookupPath, List.map_cons, h.ancestors, List.takeWhile_map, hmodule,
    List.filter_map, hclass]

end Scopes

/-! ## Variables that a body sees -/

section Variables

theorem visible_adjoin (hn : 0 < host.bodies.size) (hb : b ≠ ⟨0⟩) :
    (host.adjoin s).visible (host.offset.body b) = (s.visible b).map host.offset.var := by
  rw [visible, body_adjoin hn hb]
  rfl

theorem find?_adjoin (hn : 0 < host.bodies.size) (hb : b ≠ ⟨0⟩) (name : String) :
    (host.adjoin s).find? (host.offset.body b) name =
      (s.find? b name).map host.offset.var := by
  have hname : (fun v => ((host.adjoin s).var v).name == name) ∘ host.offset.var =
      fun v => (s.var v).name == name := funext fun v => by
    rw [Function.comp, var_adjoin]
    rfl
  rw [find?, find?, visible_adjoin hn hb, List.find?_map, hname]

theorem hasTemporary_adjoin (hn : 0 < host.bodies.size) (hb : b ≠ ⟨0⟩) (name : String) :
    (host.adjoin s).hasTemporary (host.offset.body b) name = s.hasTemporary b name := by
  have hname : (fun v => ((host.adjoin s).var v).name == name) ∘ host.offset.var =
      fun v => (s.var v).name == name := funext fun v => by
    rw [Function.comp, var_adjoin]
    rfl
  rw [hasTemporary, hasTemporary, temporaries, temporaries, body_adjoin hn hb]
  rw [Body.shift, List.any_map, hname]

theorem ownVariables_adjoin (hn : 0 < host.bodies.size) (hb : b ≠ ⟨0⟩) :
    (host.adjoin s).ownVariables (host.offset.body b) =
      (s.ownVariables b).map host.offset.var := by
  have howner : (fun v => ((host.adjoin s).var v).owner == host.offset.body b) ∘
      host.offset.var = fun v => (s.var v).owner == b := funext fun v => by
    rw [Function.comp, var_adjoin]
    exact host.offset.body_injective.beq_eq
  rw [ownVariables, ownVariables, visible_adjoin hn hb, List.filter_map, howner]

end Variables

/-! ## Changes -/

section Changes

theorem adjoin_modifyBody (hn : 0 < host.bodies.size) (hb : b ≠ ⟨0⟩) {f f' : Body → Body}
    (hf : ∀ body, (f body).shift host.offset = f' (body.shift host.offset)) :
    host.adjoin (s.modifyBody b f) = (host.adjoin s).modifyBody (host.offset.body b) f' := by
  have hpos : b.index ≠ 0 := fun hzero => hb (congrArg BodyId.mk hzero)
  have hbodies : (host.adjoin (s.modifyBody b f)).bodies =
      (host.adjoin s).bodies.modify (b.index + (host.bodies.size - 1)) f' := by
    refine Array.ext_getElem? fun i => ?_
    rw [getElem?_bodies_adjoin, Array.getElem?_modify, getElem?_bodies_adjoin, modifyBody,
      Array.getElem?_modify]
    by_cases hi : i < host.bodies.size
    · rw [if_pos hi, if_neg (by omega), if_pos hi]
    · rw [if_neg hi, if_neg hi]
      by_cases he : b.index = i - host.bodies.size + 1
      · rw [if_pos he, if_pos (by omega)]
        cases s.bodies[i - host.bodies.size + 1]? with
        | none => rfl
        | some body => exact congrArg some (hf body)
      · rw [if_neg he, if_neg (by omega)]
  rw [modifyBody, Shift.body_of_ne hb]
  exact congrArg (Store.mk · _) hbodies

theorem adjoin_pushVariable (host s : Store) (declared : Variable) :
    (host.adjoin s).pushVariable (declared.shift host.offset) =
      (host.offset.var (s.pushVariable declared).1,
        host.adjoin (s.pushVariable declared).2) := by
  have hid : (⟨(host.adjoin s).vars.size⟩ : VariableId) = host.offset.var ⟨s.vars.size⟩ := by
    rw [size_vars_adjoin, Shift.var, offset, Nat.add_comm]
  have hvars : (host.adjoin s).vars.push (declared.shift host.offset) =
      (host.adjoin (s.pushVariable declared).2).vars := by
    simp [adjoin, pushVariable]
  rw [pushVariable, hid, hvars]
  rfl

theorem adjoin_reveal (hn : 0 < host.bodies.size) (hb : b ≠ ⟨0⟩) (v : VariableId) :
    host.adjoin (s.reveal b v) =
      (host.adjoin s).reveal (host.offset.body b) (host.offset.var v) :=
  adjoin_modifyBody hn hb fun body => by simp [Body.shift]

theorem adjoin_push (host : Store) (hrooted : 0 < s.bodies.size) (body : Body)
    (vars : Array Variable) :
    (host.adjoin ⟨s.bodies.push body, vars⟩).bodies =
      (host.adjoin s).bodies.push (body.shift host.offset) := by
  refine Array.ext_getElem? fun i => ?_
  rw [getElem?_bodies_adjoin, Array.getElem?_push, Array.getElem?_push, getElem?_bodies_adjoin,
    size_bodies_adjoin]
  by_cases hi : i < host.bodies.size
  · rw [if_pos hi, if_neg (by omega), if_pos hi]
  · rw [if_neg hi, if_neg hi]
    by_cases he : i - host.bodies.size + 1 = s.bodies.size
    · rw [if_pos he, if_pos (by omega)]
      rfl
    · rw [if_neg he, if_neg (by omega)]

theorem Fits.qualifiedName (h : Fits host s) (plan : BodyPlan) :
    (host.adjoin s).qualifiedName (plan.shift host.offset) = s.qualifiedName plan := by
  have hchild : ∀ p text, (host.adjoin s).childName (host.offset.body p) text =
      s.childName p text := by
    intro p text
    unfold Store.childName
    dsimp only
    rw [h.kind]
    cases hkind : (s.body p).kind with
    | moduleBody => rfl
    | classBody | callable _ =>
      have hp : p ≠ ⟨0⟩ := h.ne_root_of_kind fun hmodule => by
        rw [hkind] at hmodule
        cases hmodule
      rw [body_adjoin h.hosted hp]
      rfl
  unfold Store.qualifiedName BodyPlan.shift
  cases plan.qualifiedName with
  | some text => rfl
  | none =>
    cases plan.provider with
    | none => rfl
    | some p => exact hchild p plan.name

theorem Fits.createBody (h : Fits host s) (plan : BodyPlan) :
    (host.adjoin s).createBody (plan.shift host.offset) =
      (host.offset.body (s.createBody plan).1, host.adjoin (s.createBody plan).2) := by
  have hhosted := h.hosted
  have hrooted := h.rooted
  have hne : (⟨s.bodies.size⟩ : BodyId) ≠ ⟨0⟩ := fun he =>
    absurd (congrArg BodyId.index he) (Nat.ne_of_gt hrooted)
  have hid : (⟨(host.adjoin s).bodies.size⟩ : BodyId) = host.offset.body ⟨s.bodies.size⟩ := by
    rw [Shift.body_of_ne hne, size_bodies_adjoin, offset]
    exact congrArg BodyId.mk (by dsimp only; omega)
  have hvisible : (List.range' (host.adjoin s).vars.size plan.slots.length).map VariableId.mk =
      ((List.range' s.vars.size plan.slots.length).map VariableId.mk).map host.offset.var := by
    rw [size_vars_adjoin, List.map_map]
    refine List.ext_getElem (by simp) fun i hi hi' => ?_
    simp [Shift.var, offset]
    omega
  unfold Store.createBody
  dsimp only
  rw [h.qualifiedName, hid, show (plan.shift host.offset).slots = plan.slots from rfl, hvisible]
  refine congrArg (Prod.mk _) (congrArg₂ Store.mk ?_ ?_)
  · show _ = (host.adjoin ⟨s.bodies.push _, _⟩).bodies
    rw [adjoin_push host hrooted]
    rfl
  · simp [adjoin, Variable.shift, Function.comp_def]

theorem adjoin_declareLocal (hn : 0 < host.bodies.size) (hb : b ≠ ⟨0⟩) (name : String) :
    (host.adjoin s).declareLocal (host.offset.body b) name =
      (host.offset.var (s.declareLocal b name).1, host.adjoin (s.declareLocal b name).2) := by
  unfold declareLocal
  rw [find?_adjoin hn hb]
  cases s.find? b name with
  | some v => rfl
  | none =>
    have hpush := adjoin_pushVariable host s ⟨name, b, .localName⟩
    dsimp only [Option.map_none]
    rw [show (⟨name, host.offset.body b, .localName⟩ : Variable) =
      Variable.shift host.offset ⟨name, b, .localName⟩ from rfl, hpush]
    exact congrArg (Prod.mk _) (adjoin_reveal hn hb _).symm

theorem adjoin_share (hn : 0 < host.bodies.size) {source target : BodyId} (hsource : source ≠ ⟨0⟩)
    (htarget : target ≠ ⟨0⟩) : host.adjoin (s.share source target) =
      (host.adjoin s).share (host.offset.body source) (host.offset.body target) := by
  unfold share
  rw [visible_adjoin hn hsource]
  generalize s.visible source = vars
  induction vars generalizing s with
  | nil => rfl
  | cons v rest ih =>
    rw [List.map_cons, List.foldl_cons, List.foldl_cons, ih]
    congr 1
    have hmem : host.offset.var v ∈ (host.adjoin s).visible (host.offset.body target) ↔
        v ∈ s.visible target := by
      rw [visible_adjoin hn htarget, List.mem_map_of_injective host.offset.var_injective]
    by_cases hv : v ∈ s.visible target
    · rw [if_pos hv, if_pos (hmem.2 hv)]
    · rw [if_neg hv, if_neg (hmem.not.2 hv)]
      exact adjoin_reveal hn htarget v

/-- Searching the scopes of a path gives the same variable and reveals it to the same scopes. -/
theorem adjoin_resolveAlong (hn : 0 < host.bodies.size) (name : String) :
    ∀ {path : List BodyId} (s : Store), ⟨0⟩ ∉ path →
      (host.adjoin s).resolveAlong name (path.map host.offset.body) =
        ((s.resolveAlong name path).1.map host.offset.var,
          host.adjoin (s.resolveAlong name path).2)
  | [], s, _ => rfl
  | b :: outer, s, hp => by
    have hb : b ≠ ⟨0⟩ := fun he => hp (he ▸ List.mem_cons_self)
    rw [List.map_cons, resolveAlong, resolveAlong, find?_adjoin hn hb, body_adjoin hn hb]
    cases s.find? b name with
    | some v => rfl
    | none =>
      dsimp only [Option.map_none]
      rw [show ((s.body b).shift host.offset).globals = (s.body b).globals from rfl]
      by_cases hglobal : name ∈ (s.body b).globals
      · rw [if_pos hglobal, if_pos hglobal]
        rfl
      · rw [if_neg hglobal, if_neg hglobal,
          adjoin_resolveAlong hn name s fun h => hp (List.mem_cons_of_mem _ h)]
        obtain ⟨found, s'⟩ := s.resolveAlong name outer
        cases found with
        | none => rfl
        | some v => exact congrArg (Prod.mk _) (adjoin_reveal hn hb v).symm

theorem Fits.resolve (h : Fits host s) (hb : b ≠ ⟨0⟩) (name : String) :
    (host.adjoin s).resolve (host.offset.body b) name =
      ((s.resolve b name).1.map host.offset.var, host.adjoin (s.resolve b name).2) := by
  rw [Store.resolve, h.lookupPath, adjoin_resolveAlong h.hosted name s
    (h.root_not_mem_lookupPath hb)]
  rfl

end Changes

/-! ## Changes that may fail -/

/-- Two results correspond: one is what `r` makes of the other, or both are failures. -/
def Corresponds {ε α β : Type} (r : α → β) : Except ε α → Except ε β → Prop
  | .ok a, result => result = .ok (r a)
  | .error _, result => ∃ failure, result = .error failure

section Failing

theorem Fits.moduleInfo (h : Fits host s) (b : BodyId) :
    Corresponds id (s.moduleInfo b) ((host.adjoin s).moduleInfo (host.offset.body b)) := by
  have hfind : (host.offset.body b :: (host.adjoin s).ancestors (host.offset.body b)).find?
      (host.adjoin s).isModule = ((b :: s.ancestors b).find? s.isModule).map host.offset.body := by
    rw [h.cons_ancestors, List.find?_map]
    exact congrArg (Option.map _) (congrArg (List.find? · _) (funext h.isModule))
  have hinfo : ∀ c, ((host.adjoin s).body (host.offset.body c)).info = (s.body c).info := by
    intro c
    by_cases hc : c = ⟨0⟩
    · subst hc
      rw [Shift.body_root, body_adjoin_of_lt h.hosted, h.info]
    · rw [body_adjoin h.hosted hc]
      rfl
  unfold Store.moduleInfo Store.moduleOf
  rw [hfind]
  cases (b :: s.ancestors b).find? s.isModule with
  | none => exact ⟨_, rfl⟩
  | some found =>
    dsimp only [Option.map_some]
    rw [hinfo]
    cases (s.body found).info with
    | none => exact ⟨_, rfl⟩
    | some info => exact rfl

theorem corresponds_attachCode (hn : 0 < host.bodies.size) (hb : b ≠ ⟨0⟩) (code : Block) :
    Corresponds host.adjoin (s.attachCode b code)
      ((host.adjoin s).attachCode (host.offset.body b) (code.shift host.offset)) := by
  unfold attachCode
  rw [body_adjoin hn hb]
  dsimp only [Body.shift]
  cases (s.body b).code with
  | some _ => exact ⟨_, rfl⟩
  | none =>
    refine congrArg Except.ok (Eq.symm ?_)
    exact adjoin_modifyBody hn hb fun _ => rfl

theorem corresponds_addTemporary (hn : 0 < host.bodies.size) (hb : b ≠ ⟨0⟩) (name : String) :
    Corresponds (fun made => (host.offset.var made.1, host.adjoin made.2)) (s.addTemporary b name)
      ((host.adjoin s).addTemporary (host.offset.body b) name) := by
  unfold addTemporary
  rw [hasTemporary_adjoin hn hb]
  split
  · exact ⟨_, rfl⟩
  · have hpush := adjoin_pushVariable host s ⟨name, b, .temporary⟩
    rw [show (⟨name, host.offset.body b, .temporary⟩ : Variable) =
      Variable.shift host.offset ⟨name, b, .temporary⟩ from rfl, hpush]
    refine congrArg (Except.ok ∘ Prod.mk _) (adjoin_modifyBody hn hb fun body => ?_).symm
    simp [Body.shift]

end Failing

/-! ## What is kept -/

/-- A later guest still fits, and its module is as it was. -/
structure Follows (host s s' : Store) : Prop where
  fits : Fits host s'
  root : s'.body ⟨0⟩ = s.body ⟨0⟩
  bodies : s.bodies.size ≤ s'.bodies.size

section Follows

theorem Fits.refl (h : Fits host s) : Follows host s s :=
  ⟨h, rfl, Nat.le_refl _⟩

theorem Follows.trans {s'' : Store} (h : Follows host s s') (h' : Follows host s' s'') :
    Follows host s s'' :=
  ⟨h'.fits, h'.root.trans h.root, Nat.le_trans h.bodies h'.bodies⟩

theorem Fits.follows (h : Fits host s) (hroot : s'.body ⟨0⟩ = s.body ⟨0⟩)
    (hbodies : s.bodies.size ≤ s'.bodies.size) (hordered : s'.Ordered) : Follows host s s' :=
  ⟨⟨h.hosted, Nat.lt_of_lt_of_le h.rooted hbodies, hordered, h.outermost, h.hostModule,
    hroot ▸ h.guestModule, hroot ▸ h.info⟩, hroot, hbodies⟩

/-- A change of another body than the module. -/
theorem Fits.follows_modifyBody (h : Fits host s) (hb : b ≠ ⟨0⟩) {f : Body → Body}
    (hf : ∀ body, (f body).provider = body.provider) : Follows host s (s.modifyBody b f) := by
  refine h.follows (body_modifyBody_ne hb) (by simp) ?_
  intro c p hp
  refine h.ordered c p ?_
  rw [body_modifyBody] at hp
  split at hp
  · exact (hf _).symm.trans hp
  · exact hp

theorem Fits.follows_pushVariable (h : Fits host s) (declared : Variable) :
    Follows host s (s.pushVariable declared).2 :=
  h.follows rfl (Nat.le_refl _) h.ordered

theorem Fits.follows_createBody (h : Fits host s)
    (hp : ∀ p, plan.provider = some p → p.index < s.bodies.size) :
    Follows host s (s.createBody plan).2 :=
  h.follows (body_createBody_of_lt s plan h.rooted) (by simp) (h.ordered.createBody hp)

theorem Fits.follows_reveal (h : Fits host s) (hb : b ≠ ⟨0⟩) (v : VariableId) :
    Follows host s (s.reveal b v) :=
  h.follows_modifyBody hb fun _ => rfl

theorem Fits.follows_declareLocal (h : Fits host s) (hb : b ≠ ⟨0⟩) (name : String) :
    Follows host s (s.declareLocal b name).2 := by
  unfold declareLocal
  split
  · exact h.refl
  · have hpush := h.follows_pushVariable ⟨name, b, .localName⟩
    exact hpush.trans (hpush.fits.follows_reveal hb _)

theorem Fits.follows_share (h : Fits host s) {source target : BodyId} (htarget : target ≠ ⟨0⟩) :
    Follows host s (s.share source target) := by
  unfold share
  generalize s.visible source = vars
  induction vars generalizing s with
  | nil => exact h.refl
  | cons v rest ih =>
    rw [List.foldl_cons]
    split
    · exact ih h
    · have hreveal := h.follows_reveal htarget v
      exact hreveal.trans (ih hreveal.fits)

theorem Fits.follows_resolveAlong (h : Fits host s) (name : String) :
    ∀ {path : List BodyId}, ⟨0⟩ ∉ path → Follows host s (s.resolveAlong name path).2
  | [], _ => h.refl
  | b :: outer, hp => by
    have hb : b ≠ ⟨0⟩ := fun he => hp (he ▸ List.mem_cons_self)
    have houter := h.follows_resolveAlong name fun hmem => hp (List.mem_cons_of_mem b hmem)
    rw [resolveAlong]
    generalize s.resolveAlong name outer = found at houter
    cases s.find? b name with
    | some v => exact h.refl
    | none =>
      dsimp only
      split
      · exact h.refl
      · obtain ⟨found, s'⟩ := found
        cases found with
        | none => exact houter
        | some v => exact houter.trans (houter.fits.follows_reveal hb v)

theorem Fits.follows_resolve (h : Fits host s) (hb : b ≠ ⟨0⟩) (name : String) :
    Follows host s (s.resolve b name).2 :=
  h.follows_resolveAlong name (h.root_not_mem_lookupPath hb)

end Follows

end DefinitionLowering.IR.Store
