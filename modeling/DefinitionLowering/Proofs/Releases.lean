import DefinitionLowering.Compilation
import DefinitionLowering.Proofs.Stages
import Mathlib.Data.List.Count

/-!
# Variables are released once

The releases are the last step of lowering a module (`lowerModule_eq`).  `lowerUnreleased` is
all that comes before; what it leaves is valid (`UnreleasedRun.attached`), and the releases only
put a `try` around the code of the other bodies that own variables (`Finished`).

Main result: `releases_once`.  On every path through the code of a body of a lowered module,
the variables that the body owns are released exactly once each, no other variable is released,
and nothing is mentioned after its release.  What the releases are put around is the code that the
body had before, and a body that owns no variable still has just that.
-/

namespace DefinitionLowering

open IR (BodyId VariableId Store Event Exit Runs)

/-! ## Wrapping releases around the code -/

namespace IR.Store

/-- The code of a body with the releases of its variables around it. -/
def releasedCode (s : Store) (b : BodyId) : Option Block :=
  if (s.ownVariables b).isEmpty then (s.body b).code
  else (s.body b).code.map (Block.releasing (s.ownVariables b))

theorem releasedCode_of_eq_nil {s : Store} {b : BodyId} (h : s.ownVariables b = []) :
    s.releasedCode b = (s.body b).code := by
  rw [releasedCode, h, List.isEmpty_nil, if_pos rfl]

theorem releasedCode_of_ne_nil {s : Store} {b : BodyId} (h : s.ownVariables b ≠ []) :
    s.releasedCode b = (s.body b).code.map (Block.releasing (s.ownVariables b)) := by
  rw [releasedCode, if_neg (by rwa [List.isEmpty_iff])]

/-- The code is as it was, or the releases are around it. -/
theorem exists_releasedCode {s : Store} {b : BodyId} {before : Block}
    (h : (s.body b).code = some before) :
    ∃ block, s.releasedCode b = some block ∧
      (s.ownVariables b = [] → block = before) ∧
        (s.ownVariables b ≠ [] → block = before.releasing (s.ownVariables b)) := by
  by_cases hown : s.ownVariables b = []
  · exact ⟨before, (releasedCode_of_eq_nil hown).trans h, fun _ => rfl, fun hne => absurd hown hne⟩
  · refine ⟨before.releasing (s.ownVariables b), ?_, fun heq => absurd heq hown, fun _ => rfl⟩
    rw [releasedCode_of_ne_nil hown, h]
    rfl

/-- What releases around a block leave alone, they leave alone in all code. -/
theorem map_releasedCode {α : Type} {view : Block → α}
    (h : ∀ vars tried, view (Block.releasing vars tried) = view tried) (s : Store) (b : BodyId) :
    (s.releasedCode b).map view = (s.body b).code.map view := by
  rw [releasedCode]
  split
  · rfl
  · rw [Option.map_map]
    exact congrArg (fun f => (s.body b).code.map f) (funext fun block => h _ block)

/-- The store after the variables of some bodies have been released. -/
structure IsReleased (s s' : Store) (released : List BodyId) : Prop where
  vars : s'.vars = s.vars
  bodies : s'.bodies.size = s.bodies.size
  body : ∀ b : BodyId, b.index < s.bodies.size → s'.body b =
    if b ∈ released then { s.body b with code := s.releasedCode b } else s.body b

variable {s s' : Store} {b c : BodyId} {v : VariableId}

/-- The variables of one body are released unless it is a module. -/
theorem releaseVariables_eq (h : s.isModule b = false) :
    ∃ s', s.releaseVariables b = .ok s' ∧ IsReleased s s' [b] := by
  unfold releaseVariables
  rw [if_neg (by simp [h])]
  by_cases hown : (s.ownVariables b).isEmpty = true
  · rw [if_pos hown]
    refine ⟨s, rfl, rfl, rfl, fun c _ => ?_⟩
    split
    · rename_i hc
      obtain rfl := List.mem_singleton.1 hc
      rw [releasedCode, if_pos hown]
    · rfl
  · rw [if_neg hown]
    refine ⟨_, rfl, rfl, by simp [wrapCode], fun c hlt => ?_⟩
    rw [wrapCode, body_modifyBody]
    by_cases hc : c = b
    · subst hc
      rw [if_pos ⟨rfl, hlt⟩, if_pos (List.mem_singleton_self c), releasedCode, if_neg hown]
    · rw [if_neg fun hbc => hc hbc.1.symm, if_neg fun hmem => hc (List.mem_singleton.1 hmem)]

/-- Releasing the variables of other bodies does not change what a body releases. -/
theorem IsReleased.trans {s'' : Store} {released more : List BodyId} (h : IsReleased s s' released)
    (h' : IsReleased s' s'' more) (hd : ∀ b ∈ more, b ∉ released) :
    IsReleased s s'' (released ++ more) where
  vars := h'.vars.trans h.vars
  bodies := h'.bodies.trans h.bodies
  body b hb := by
    rw [h'.body b (h.bodies ▸ hb), h.body b hb]
    by_cases hmore : b ∈ more
    · rw [if_pos hmore, if_neg (hd b hmore), if_pos (List.mem_append_right _ hmore)]
      have hbody := h.body b hb
      rw [if_neg (hd b hmore)] at hbody
      have hown : s'.ownVariables b = s.ownVariables b := by
        unfold ownVariables visible var
        rw [hbody, h.vars]
      rw [releasedCode, releasedCode, hown, hbody]
    · rw [if_neg hmore]
      by_cases hrel : b ∈ released
      · rw [if_pos hrel, if_pos (List.mem_append_left _ hrel)]
      · rw [if_neg hrel, if_neg fun hmem => (List.mem_append.1 hmem).elim hrel hmore]

theorem IsReleased.isModule {released : List BodyId} (h : IsReleased s s' released)
    (hb : b.index < s.bodies.size) : s'.isModule b = s.isModule b := by
  rw [Store.isModule, Store.isModule, h.body b hb]
  split <;> rfl

end IR.Store

/-- What is settled about the body of a module. -/
def modulePlan (m : Surface.Module) : IR.BodyPlan where
  kind := .moduleBody
  name := m.name
  location := .moduleStart
  doc := Surface.docstring? m.body
  info := some ⟨m.filename, m.future⟩

namespace Lowering

variable {s : Store}

/-- The body of a module is the first one, and has no code yet. -/
theorem valid_module (m : Surface.Module) :
    Valid 0 [⟨0⟩] (Store.createBody .empty (modulePlan m)).2 :=
  valid_createBody
    ⟨Store.wellFormed_empty, Nat.zero_le _, fun b _ hb => absurd hb (Nat.not_lt_zero _)⟩
    (fun _ hp => by cases hp) ⟨fun _ => rfl, fun _ => rfl⟩ (fun _ => ⟨rfl, rfl⟩) List.nodup_nil

/-- Releasing the variables of bodies that are no modules never fails. -/
theorem releaseVariables_spec : ∀ (bodies : List BodyId) (s : Store), bodies.Nodup →
    (∀ b ∈ bodies, b.index < s.bodies.size ∧ s.isModule b = false) →
    Ends (bodies.forM fun b => tryUpdate fun s => s.releaseVariables b) s
      (fun _ s' => s.IsReleased s' bodies) (fun _ _ => False)
  | [], s, _, _ => ⟨rfl, rfl, fun _ _ => by simp⟩
  | b :: rest, s, hn, hbodies => by
    obtain ⟨hb, hn⟩ := List.nodup_cons.1 hn
    obtain ⟨s₁, hrelease, hreleased⟩ :=
      Store.releaseVariables_eq (hbodies b List.mem_cons_self).2
    show Ends (tryUpdate _ >>= fun _ => rest.forM _) s _ _
    rw [ends_bind]
    refine ends_tryUpdate.2 ⟨fun s' h => ?_, fun fault h => ?_⟩
    · rw [hrelease] at h
      cases h
      refine (releaseVariables_spec rest s₁ hn fun c hc => ?_).weaken (fun _ s₂ h => ?_)
        fun _ _ h => h
      · obtain ⟨hlt, hmodule⟩ := hbodies c (List.mem_cons_of_mem _ hc)
        exact ⟨hreleased.bodies ▸ hlt, (hreleased.isModule hlt).trans hmodule⟩
      · refine hreleased.trans h fun c hc hmem => ?_
        rw [List.mem_singleton] at hmem
        exact hb (hmem ▸ hc)
    · rw [hrelease] at h
      cases h

/-- Nothing keeps the variables of the bodies in a module from being released. -/
theorem releaseAllBut_spec (hs : s.WellFormed) :
    Ends (releaseAllBut ⟨0⟩) s
      (fun _ s' => s.IsReleased s' (s.bodyIds.reverse.filter (· != (⟨0⟩ : BodyId))))
      fun _ _ => False := by
  unfold releaseAllBut
  refine ends_bind.2 (ends_query.2 (releaseVariables_spec _ s
    ((List.nodup_reverse.2 (Store.nodup_bodyIds s)).filter _) fun c hc => ?_))
  rw [List.mem_filter, List.mem_reverse, Store.mem_bodyIds] at hc
  refine ⟨hc.1, Bool.eq_false_iff.2 fun hm => ?_⟩
  have hzero := hs.single c hc.1 hm
  exact absurd (congrArg BodyId.mk hzero) (bne_iff_ne.1 hc.2)

/-! ## The module before the releases -/

/-- Lowers a module, but for the releases of its variables. -/
def lowerUnreleased (setting : Setting) (m : Surface.Module) : Lowering BodyId := do
  let root ← createBody (modulePlan m)
  openScope root (Surface.undocumented m.body)
  attachCode root (.ofStatements (← lowerStmts setting root (Surface.undocumented m.body)))
  return root

/-- The variables are released last. -/
theorem lowerModule_eq (setting : Setting) (m : Surface.Module) :
    lowerModule setting m = (do
      let root ← lowerUnreleased setting m
      releaseAllBut root
      return root) := by
  simp only [lowerModule, lowerUnreleased, bind_assoc, pure_bind]
  rfl

/-- The run that lowers a module, but for the releases: the scope is opened, the statements are
lowered, and the body gets them as its code. -/
structure UnreleasedRun (setting : Setting) (m : Surface.Module) (statements : List IR.Stmt)
    (s₁ s₂ t : Store) : Prop where
  opens : openScope ⟨0⟩ (Surface.undocumented m.body)
    (Store.createBody .empty (modulePlan m)).2 = .ok () s₁
  lowers : lowerStmts setting ⟨0⟩ (Surface.undocumented m.body) s₁ = .ok statements s₂
  attaches : attachCode ⟨0⟩ (.ofStatements statements) s₂ = .ok () t

section Unreleased

variable {setting : Setting} {m : Surface.Module} {statements : List IR.Stmt} {s₁ s₂ t : Store}
  {root : BodyId}

theorem lowerUnreleased_eq_ok : lowerUnreleased setting m .empty = .ok root t ↔
    root = ⟨0⟩ ∧ ∃ statements s₁ s₂, UnreleasedRun setting m statements s₁ s₂ t := by
  have hcreate : createBody (modulePlan m) .empty =
      .ok ⟨0⟩ (Store.createBody .empty (modulePlan m)).2 := rfl
  rw [lowerUnreleased, bind_ok _ hcreate]
  constructor
  · intro h
    obtain ⟨_, s₁, h₁, h⟩ := bind_eq_ok h
    obtain ⟨statements, s₂, h₂, h⟩ := bind_eq_ok h
    obtain ⟨_, s₃, h₃, h⟩ := bind_eq_ok h
    cases h
    exact ⟨rfl, statements, s₁, s₂, h₁, h₂, h₃⟩
  · rintro ⟨rfl, statements, s₁, s₂, h⟩
    exact (bind_ok _ h.opens).trans ((bind_ok _ h.lowers).trans (bind_ok _ h.attaches))

/-- The scope of the module has been opened. -/
theorem UnreleasedRun.opened (h : UnreleasedRun setting m statements s₁ s₂ t) :
    Store.Grows 0 (Store.createBody .empty (modulePlan m)).2 s₁ ∧ Valid 0 [⟨0⟩] s₁ := by
  obtain ⟨hg, hv, -⟩ := (sound_openScope (Surface.undocumented m.body) 0 _ _ (Nat.le_refl _)
    (valid_module m) (Nat.lt_succ_self _)).of_ok h.opens
  exact ⟨hg, hv⟩

theorem UnreleasedRun.created (h : UnreleasedRun setting m statements s₁ s₂ t) :
    0 < s₁.bodies.size :=
  Nat.lt_of_lt_of_le (Nat.lt_succ_self _) h.opened.1.bodies

/-- The statements of the module have been lowered. -/
theorem UnreleasedRun.lowered (h : UnreleasedRun setting m statements s₁ s₂ t) :
    Ran 0 (lowerStmts setting ⟨0⟩ (Surface.undocumented m.body)) s₁ statements s₂ ∧
      Valid 0 [⟨0⟩] s₂ ∧ IR.allQuiet statements = true := by
  obtain ⟨hg, hv, hquiet⟩ := (sound_lowerStmts setting (Surface.undocumented m.body) 0 ⟨0⟩ 0 _ s₁
    (Nat.le_refl _) h.opened.2 h.created).of_ok h.lowers
  exact ⟨⟨h.lowers, hg, hv.wellFormed⟩, hv, hquiet⟩

/-- The module has its code, and with it all bodies have. -/
theorem UnreleasedRun.attached (h : UnreleasedRun setting m statements s₁ s₂ t) :
    Store.Grows 0 s₂ t ∧ Valid 0 [] t ∧ (t.body ⟨0⟩).code = some (.ofStatements statements) := by
  obtain ⟨hran, hv, hquiet⟩ := h.lowered
  have hblock : (IR.Block.ofStatements statements).quiet = true := hquiet
  have hkeeps : Keeps 0 (attachCode ⟨0⟩ (.ofStatements statements)) s₂ fun _ s' => Valid 0 [] s' :=
    keeps_attachCode hv (Nat.le_refl _) hblock
  obtain ⟨hg, hvalid⟩ := hkeeps.of_ok h.attaches
  have hends : Ends (attachCode ⟨0⟩ (.ofStatements statements)) s₂
      (fun _ s' => s₂.attachCode ⟨0⟩ (.ofStatements statements) = .ok s') fun _ _ => True :=
    ends_tryUpdate.2 ⟨fun _ h => h, fun _ _ => trivial⟩
  obtain ⟨-, rfl⟩ := Store.attachCode_eq_ok (hends.of_ok h.attaches)
  refine ⟨hg, hvalid, ?_⟩
  rw [Store.body_modifyBody_self (hran.created h.created)]

theorem UnreleasedRun.rooted (h : UnreleasedRun setting m statements s₁ s₂ t) :
    0 < t.bodies.size :=
  Nat.lt_of_lt_of_le (h.lowered.1.created h.created) h.attached.1.bodies

end Unreleased

end Lowering

/-! ## The module after the releases -/

/-- The variables of all bodies but the module's are released. -/
structure Finished (t : Store) (lowered : LoweredModule) : Prop where
  root : lowered.root = ⟨0⟩
  vars : lowered.store.vars = t.vars
  bodies : lowered.store.bodies.size = t.bodies.size
  module : lowered.store.body ⟨0⟩ = t.body ⟨0⟩
  others : ∀ b : BodyId, b ≠ ⟨0⟩ →
    lowered.store.body b = { t.body b with code := t.releasedCode b }

section Finished

variable {t : Store} {lowered : LoweredModule}

/-- The releases change nothing but code. -/
theorem Finished.body_eq (h : Finished t lowered) (b : BodyId) :
    ∃ code, lowered.store.body b = { t.body b with code := code } := by
  by_cases hb : b = ⟨0⟩
  · exact ⟨_, hb ▸ h.module⟩
  · exact ⟨_, h.others b hb⟩

theorem Finished.var (h : Finished t lowered) (v : VariableId) :
    lowered.store.var v = t.var v := by
  rw [Store.var, Store.var, h.vars]

theorem Finished.visible (h : Finished t lowered) (b : BodyId) :
    lowered.store.visible b = t.visible b := by
  obtain ⟨code, hb⟩ := h.body_eq b
  rw [Store.visible, hb]
  rfl

theorem Finished.ownVariables (h : Finished t lowered) (b : BodyId) :
    lowered.store.ownVariables b = t.ownVariables b := by
  simp only [Store.ownVariables, h.visible, h.var]

theorem Finished.kind (h : Finished t lowered) (b : BodyId) :
    (lowered.store.body b).kind = (t.body b).kind := by
  obtain ⟨code, hb⟩ := h.body_eq b
  rw [hb]

theorem Finished.provider (h : Finished t lowered) (b : BodyId) :
    (lowered.store.body b).provider = (t.body b).provider := by
  obtain ⟨code, hb⟩ := h.body_eq b
  rw [hb]

theorem Finished.map_code {α : Type} {view : IR.Block → α} (h : Finished t lowered)
    (hview : ∀ vars tried, view (IR.Block.releasing vars tried) = view tried) (b : BodyId) :
    (lowered.store.body b).code.map view = (t.body b).code.map view := by
  by_cases hb : b = ⟨0⟩
  · rw [hb, h.module]
  · rw [h.others b hb]
    exact Store.map_releasedCode hview t b

theorem Finished.ancestors (h : Finished t lowered) (b : BodyId) :
    lowered.store.ancestors b = t.ancestors b := by
  have hproviders : ∀ limit b, lowered.store.providers limit b = t.providers limit b := by
    intro limit
    induction limit with
    | zero => exact fun _ => rfl
    | succ limit ih =>
      intro b
      rw [Store.providers, Store.providers, h.provider]
      cases (t.body b).provider with
      | none => rfl
      | some p => exact congrArg (p :: ·) (ih p)
  rw [Store.ancestors, Store.ancestors, h.bodies, hproviders]

end Finished

/-- All other bodies are released. -/
theorem finished_of_isReleased {t s' : Store} (h : t.IsReleased s'
    (t.bodyIds.reverse.filter (· != (⟨0⟩ : BodyId)))) (hroot : 0 < t.bodies.size) :
    Finished t ⟨s', ⟨0⟩⟩ where
  root := rfl
  vars := h.vars
  bodies := h.bodies
  module := by
    have hnot : (⟨0⟩ : BodyId) ∉ t.bodyIds.reverse.filter (· != (⟨0⟩ : BodyId)) :=
      fun hmem => absurd rfl (bne_iff_ne.1 (List.mem_filter.1 hmem).2)
    rw [h.body ⟨0⟩ hroot, if_neg hnot]
  others b hb := by
    by_cases hlt : b.index < t.bodies.size
    · have hmem : b ∈ t.bodyIds.reverse.filter (· != (⟨0⟩ : BodyId)) :=
        List.mem_filter.2 ⟨List.mem_reverse.2 (Store.mem_bodyIds.2 hlt), bne_iff_ne.2 hb⟩
      rw [h.body b hlt, if_pos hmem]
    · have hle := Nat.le_of_not_lt hlt
      rw [Store.body_of_size_le (h.bodies ▸ hle), Store.releasedCode, Store.ownVariables,
        Store.visible, Store.body_of_size_le hle]
      rfl

section Completes

variable {setting : Setting} {m : Surface.Module} {t : Store} {lowered : LoweredModule}

/-- Once everything else is done, the releases do not fail. -/
theorem LoweredModule.finishes {root : BodyId}
    (h : Lowering.lowerUnreleased setting m .empty = .ok root t) :
    ∃ lowered, LoweredModule.ofSurface setting m = .ok lowered ∧ lowered.root = root ∧
      Finished t lowered := by
  obtain ⟨rfl, statements, s₁, s₂, hrun⟩ := Lowering.lowerUnreleased_eq_ok.1 h
  have hrelease := Lowering.releaseAllBut_spec hrun.attached.2.1.wellFormed
  cases hs : Lowering.releaseAllBut ⟨0⟩ t with
  | error failure s' => exact (hrelease.of_error hs).elim
  | ok _ s' =>
    have hlower : Lowering.lowerModule setting m .empty = .ok ⟨0⟩ s' := by
      rw [Lowering.lowerModule_eq, bind_ok _ h, bind_ok _ hs]
      rfl
    refine ⟨⟨s', ⟨0⟩⟩, ?_, rfl, finished_of_isReleased (hrelease.of_ok hs) hrun.rooted⟩
    rw [LoweredModule.ofSurface, EStateM.run, hlower]

/-- **What the lowering of a module leaves** before the releases, and what they change. -/
theorem LoweredModule.unreleased (h : LoweredModule.ofSurface setting m = .ok lowered) :
    ∃ t, Lowering.lowerUnreleased setting m .empty = .ok lowered.root t ∧
      Finished t lowered := by
  have hrun : ∃ root t, Lowering.lowerUnreleased setting m .empty = .ok root t := by
    have hlower := h
    unfold LoweredModule.ofSurface at hlower
    split at hlower
    · rename_i root s' hmodule
      change Lowering.lowerModule setting m .empty = _ at hmodule
      rw [Lowering.lowerModule_eq] at hmodule
      obtain ⟨root, t, hrun, -⟩ := bind_eq_ok hmodule
      exact ⟨root, t, hrun⟩
    · cases hlower
  obtain ⟨root, t, hrun⟩ := hrun
  obtain ⟨found, hfound, rfl, hfinished⟩ := LoweredModule.finishes hrun
  rw [h] at hfound
  cases hfound
  exact ⟨t, hrun, hfinished⟩

end Completes

/-! ## The releases of a body -/

namespace IR

/-- The events of a run release the variables of a body once each, and no others, and mention
no variable after its release. -/
structure ReleasesOwn (s : Store) (b : BodyId) (events : List Event) : Prop where
  once : ∀ v : VariableId, v.index < s.vars.size → (s.var v).owner = b →
    events.count (.release v) = 1
  own : ∀ v : VariableId, .release v ∈ events → v.index < s.vars.size ∧ (s.var v).owner = b
  last : ∀ before after v, events = before ++ .release v :: after → .mention v ∉ after

theorem release_not_mem_mentioning {vars : List VariableId} {v : VariableId} :
    Event.release v ∉ mentioning vars := by
  simp [mentioning]

theorem mention_not_mem_releases {vars : List VariableId} {v : VariableId} :
    Event.mention v ∉ releases vars := by
  simp [releases]

/-- Mentions followed by the releases of just the variables of a body. -/
theorem releasesOwn_of_eq {s : Store} {b : BodyId} {mentioned released : List VariableId}
    (hn : released.Nodup)
    (hr : ∀ v, v ∈ released ↔ v.index < s.vars.size ∧ (s.var v).owner = b) :
    ReleasesOwn s b (mentioning mentioned ++ releases released) where
  once v hv hb := by
    have hinj : Function.Injective Event.release := fun _ _ h => Event.release.inj h
    rw [List.count_append, List.count_eq_zero_of_not_mem release_not_mem_mentioning, releases,
      List.count_map_of_injective _ _ hinj, List.count_eq_one_of_mem hn ((hr v).2 ⟨hv, hb⟩)]
  own v hv := by
    rcases List.mem_append.1 hv with hv | hv
    · exact absurd hv release_not_mem_mentioning
    · obtain ⟨w, hw, h⟩ := List.mem_map.1 hv
      cases h
      exact (hr v).1 hw
  last before after v h hmem := by
    rcases List.append_eq_append_iff.1 h with ⟨front, rfl, hreleases⟩ | ⟨back, hm, hafter⟩
    · refine (mention_not_mem_releases : Event.mention v ∉ releases released) ?_
      rw [hreleases]
      exact List.mem_append_right _ (List.mem_cons_of_mem _ hmem)
    · cases back with
      | nil =>
        refine (mention_not_mem_releases : Event.mention v ∉ releases released) ?_
        rw [List.nil_append] at hafter
        exact hafter ▸ List.mem_cons_of_mem _ hmem
      | cons event back =>
        rw [List.cons_append, List.cons.injEq] at hafter
        refine (release_not_mem_mentioning : Event.release v ∉ mentioning mentioned) ?_
        rw [hm, ← hafter.1]
        exact List.mem_append_right _ List.mem_cons_self

namespace Store

variable {s : Store} {b : BodyId} {v : VariableId}

theorem mem_ownVariables : v ∈ s.ownVariables b ↔ v ∈ s.visible b ∧ (s.var v).owner = b := by
  rw [ownVariables, List.mem_filter, beq_iff_eq]

/-- The temporaries, parameters and locals of a body are the variables that it owns. -/
theorem WellFormed.mem_owned (h : s.WellFormed) :
    v ∈ s.temporaries b ++ s.ownVariables b ↔ v.index < s.vars.size ∧ (s.var v).owner = b := by
  rw [List.mem_append, mem_ownVariables]
  constructor
  · rintro (hv | ⟨hv, hb⟩)
    · exact ⟨(h.scratch b v hv).1, (h.scratch b v hv).2.1⟩
    · exact ⟨(h.seen b v hv).1, hb⟩
  · rintro ⟨hv, rfl⟩
    have hlisted := h.listed v hv
    split at hlisted
    · exact .inl hlisted
    · exact .inr ⟨hlisted, rfl⟩

theorem WellFormed.nodup_owned (h : s.WellFormed) (b : BodyId) :
    (s.temporaries b ++ s.ownVariables b).Nodup := by
  refine List.nodup_append'.2 ⟨h.distinct b, (h.nodup_visible b).filter _, fun v ht hv => ?_⟩
  exact (h.seen b v (mem_ownVariables.1 hv).1).2 (h.scratch b v ht).2.2

/-- A body that owns no variable has neither temporaries nor others to release. -/
theorem WellFormed.unowned (h : s.WellFormed)
    (hnone : ∀ v : VariableId, v.index < s.vars.size → (s.var v).owner ≠ b) :
    s.temporaries b = [] ∧ s.ownVariables b = [] :=
  List.append_eq_nil_iff.1 (List.eq_nil_iff_forall_not_mem.2 fun v hv =>
    hnone v (h.mem_owned.1 hv).1 (h.mem_owned.1 hv).2)

/-- Before the others are released, code releases nothing but temporaries. -/
theorem WellFormed.quiet_of_temporaries (h : s.WellFormed) {block : Block}
    (hcode : (s.body b).code = some block) (hscratch : s.temporaries b = []) :
    block.quiet = true := by
  cases h.shaped b with
  | codeless hnocode =>
    rw [hnocode] at hcode
    cases hcode
  | plain body hbody hq =>
    rw [hbody] at hcode
    cases hcode
    exact hq
  | wrapper vars tried hbody hq hvars hsome => exact absurd hscratch hsome

/-- The runs of a body's code mention variables and then release the temporaries. -/
theorem WellFormed.runs_code (h : s.WellFormed) {block : Block} {events : List Event}
    {exit : Exit} (hcode : (s.body b).code = some block)
    (hrun : Runs block.statements events exit) :
    ∃ mentioned released, events = mentioning mentioned ++ releases released ∧
      released.Perm (s.temporaries b) := by
  cases h.shaped b with
  | codeless hnocode =>
    rw [hnocode] at hcode
    cases hcode
  | plain _ hbody hq hscratch =>
    rw [hbody] at hcode
    cases hcode
    obtain ⟨mentioned, rfl⟩ := hrun.quiet (block.quiet_eq ▸ hq)
    exact ⟨mentioned, [], (List.append_nil _).symm, by rw [temporaries, hscratch]⟩
  | wrapper vars tried hbody hq hvars =>
    rw [hbody] at hcode
    cases hcode
    obtain ⟨before, htried, rfl⟩ := hrun.releasing
    obtain ⟨mentioned, rfl⟩ := htried.quiet (tried.quiet_eq ▸ hq)
    exact ⟨mentioned, vars, rfl, hvars⟩

/-- With its releases, the code of a body releases just the variables of the body. -/
theorem WellFormed.runs_releasedCode (h : s.WellFormed) {block : Block} {events : List Event}
    {exit : Exit} (hcode : s.releasedCode b = some block)
    (hrun : Runs block.statements events exit) : ReleasesOwn s b events := by
  -- The temporaries are released inside, the other variables outside.
  have hevents : ∃ mentioned released,
      events = mentioning mentioned ++ releases (released ++ s.ownVariables b) ∧
        released.Perm (s.temporaries b) := by
    unfold releasedCode at hcode
    split at hcode
    · rename_i hown
      rw [List.isEmpty_iff.1 hown]
      simpa using h.runs_code hcode hrun
    · obtain ⟨inner, hinner, rfl⟩ := Option.map_eq_some_iff.1 hcode
      obtain ⟨before, htried, rfl⟩ := hrun.releasing
      obtain ⟨mentioned, released, rfl, hperm⟩ := h.runs_code hinner htried
      exact ⟨mentioned, released, by simp [releases], hperm⟩
  obtain ⟨mentioned, released, rfl, hperm⟩ := hevents
  have hperm := hperm.append_right (s.ownVariables b)
  refine releasesOwn_of_eq (hperm.nodup_iff.2 (h.nodup_owned b)) fun v => ?_
  rw [hperm.mem_iff, h.mem_owned]

end Store

end IR

/-- Only the variables and their owners matter for what is to be released. -/
theorem IR.ReleasesOwn.congr {s s' : Store} {b : BodyId} {events : List Event}
    (h : IR.ReleasesOwn s b events) (hvars : s'.vars = s.vars) : IR.ReleasesOwn s' b events := by
  have hvar : ∀ v, s'.var v = s.var v := fun v => by rw [Store.var, Store.var, hvars]
  exact ⟨fun v hv ho => h.once v (hvars ▸ hv) (hvar v ▸ ho),
    fun v hv => by rw [hvar, hvars]; exact h.own v hv, h.last⟩

/-- **Every variable is released exactly once.**  Let `t` be the store in which a module has been
lowered but for the releases, and `before` the code of a body there.  The module body keeps its
code, which releases nothing.  However any other body is left, it has released the variables that
it owns once each, and no others, and has mentioned none of them after its release; its code is
`before` with the releases of its parameters and locals around it.  A body without variables of
its own keeps the code that it had, which releases nothing. -/
theorem LoweredModule.releases_once {setting : Setting} {m : Surface.Module}
    {lowered : LoweredModule} (h : LoweredModule.ofSurface setting m = .ok lowered) {b : BodyId}
    (hb : b.index < lowered.store.bodies.size) :
    ∃ t before block, Lowering.lowerUnreleased setting m .empty = .ok lowered.root t ∧
      (t.body b).code = some before ∧ (lowered.store.body b).code = some block ∧
      (b = lowered.root → block = before ∧ block.quiet = true ∧
        ∀ events exit, Runs block.statements events exit → ∀ v, .release v ∉ events) ∧
      (b ≠ lowered.root →
        (∀ events exit, Runs block.statements events exit →
          IR.ReleasesOwn lowered.store b events) ∧
        (lowered.store.ownVariables b ≠ [] →
          block = before.releasing (lowered.store.ownVariables b)) ∧
        ((∀ v : VariableId, v.index < lowered.store.vars.size →
          (lowered.store.var v).owner ≠ b) → block = before ∧ block.quiet = true)) := by
  obtain ⟨t, hrun, hfinished⟩ := LoweredModule.unreleased h
  obtain ⟨hroot, statements, s₁, s₂, hstages⟩ := Lowering.lowerUnreleased_eq_ok.1 hrun
  obtain ⟨-, hvalid, htop⟩ := hstages.attached
  obtain ⟨before, hbefore⟩ := Option.isSome_iff_exists.1
    (hvalid.coded b (Nat.zero_le _) (hfinished.bodies ▸ hb) List.not_mem_nil)
  by_cases hb₀ : b = ⟨0⟩
  · subst hb₀
    have hquiet : before.quiet = true := by
      rw [hbefore] at htop
      cases htop
      exact hstages.lowered.2.2
    refine ⟨t, before, before, hrun, hbefore, by rw [hfinished.module, hbefore], fun _ =>
      ⟨rfl, hquiet, fun events exit hevents v hv => ?_⟩, fun hne => absurd hroot.symm hne⟩
    obtain ⟨mentioned, rfl⟩ := hevents.quiet (before.quiet_eq ▸ hquiet)
    exact IR.release_not_mem_mentioning hv
  · have hcode : (lowered.store.body b).code = t.releasedCode b := by
      rw [hfinished.others b hb₀]
    have howned := hfinished.ownVariables b
    obtain ⟨block, hblock, hkept, hwrapped⟩ := Store.exists_releasedCode hbefore
    refine ⟨t, before, block, hrun, hbefore, hcode.trans hblock,
      fun heq => absurd (heq.trans hroot) hb₀, fun _ => ⟨fun events exit hevents => ?_, ?_, ?_⟩⟩
    · exact (hvalid.wellFormed.runs_releasedCode hblock hevents).congr hfinished.vars
    · rw [howned]
      exact hwrapped
    · intro hnone
      obtain ⟨hscratch, hown⟩ := hvalid.wellFormed.unowned (b := b) fun v hv =>
        hfinished.var v ▸ hnone v (hfinished.vars.symm ▸ hv)
      obtain rfl := hkept hown
      exact ⟨rfl, hvalid.wellFormed.quiet_of_temporaries hbefore hscratch⟩

/-- A module with a wrapper and with a function that owns no variable:

    def f((a,), b): return b
    def g(): return None
-/
def pairModule : Surface.Module where
  name := "m"
  filename := "m.py"
  future := ⟨false, false, false, false, false⟩
  body :=
    [⟨.define
      { name := "f"
        params :=
          { positional := [.tuple [.name ⟨"a", none⟩], .name ⟨"b", none⟩]
            defaults := []
            star := none
            keywordOnly := []
            keywordDefaults := []
            doubleStar := none }
        body := [⟨.ret (some (.name "b")), .moduleStart⟩]
        decorators := []
        returns := none
        isAsync := false
        location := .moduleStart },
      .moduleStart⟩,
    ⟨.define
      { name := "g"
        params := ⟨[], [], none, [], [], none⟩
        body := [⟨.ret none, .moduleStart⟩]
        decorators := []
        returns := none
        isAsync := false
        location := .moduleStart },
      .moduleStart⟩]

/-- The wrapper of `f` releases its iterator once, however it is left, and `g` keeps the code that
it had before the releases. -/
theorem LoweredModule.pairModule_releases :
    ∃ lowered t wrapper block,
      LoweredModule.ofSurface (.ofDialect .modern) pairModule = .ok lowered ∧
      (lowered.store.body ⟨1⟩).code = some wrapper ∧
      (lowered.store.var ⟨4⟩).name = "arg_iter_0" ∧
      (∀ events exit, Runs wrapper.statements events exit → events.count (.release ⟨4⟩) = 1) ∧
      Lowering.lowerUnreleased (.ofDialect .modern) pairModule .empty = .ok lowered.root t ∧
      (t.body ⟨3⟩).code = some block ∧ (lowered.store.body ⟨3⟩).code = some block ∧
      lowered.store.listBody ⟨3⟩ = "function g():\n  frame g:\n    return None\n" := by
  have hfacts : succeedsWith (fun l => decide (3 < l.store.bodies.size ∧ (⟨1⟩ : BodyId) ≠ l.root ∧
      (⟨3⟩ : BodyId) ≠ l.root ∧ 4 < l.store.vars.size ∧
      l.store.var ⟨4⟩ = ⟨"arg_iter_0", ⟨1⟩, .temporary⟩ ∧
      (∀ v < l.store.vars.size, (l.store.var ⟨v⟩).owner ≠ ⟨3⟩) ∧
      l.store.listBody ⟨3⟩ = "function g():\n  frame g:\n    return None\n"))
      (LoweredModule.ofSurface (.ofDialect .modern) pairModule) = true := by
    decide +kernel
  obtain ⟨lowered, h, hfacts⟩ := exists_of_succeedsWith hfacts
  obtain ⟨hbodies, hroot, hroot₃, hvars, hvar, hnone, hlisted⟩ := of_decide_eq_true hfacts
  obtain ⟨_, _, wrapper, -, -, hcode, -, hruns⟩ :=
    LoweredModule.releases_once (b := ⟨1⟩) h (Nat.lt_trans (by decide) hbodies)
  obtain ⟨t, before, block, hrun, hbefore, hafter, -, hkept⟩ :=
    LoweredModule.releases_once (b := ⟨3⟩) h hbodies
  obtain ⟨rfl, -⟩ := (hkept hroot₃).2.2 fun v hv => hnone v.index hv
  exact ⟨lowered, t, wrapper, block, h, hcode, by rw [hvar], fun events exit hevents =>
    ((hruns hroot).1 events exit hevents).once ⟨4⟩ hvars (by rw [hvar]), hrun, hbefore, hafter,
    hlisted⟩

end DefinitionLowering
