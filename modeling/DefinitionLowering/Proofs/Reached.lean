import DefinitionLowering.Proofs.Performing
import DefinitionLowering.Proofs.Prepared

/-!
# Stores that are reached

The lowering of a module starts in a store with the module's body alone, goes through single
operations and ends with releases.  `Reached` is the closure of these steps, and
`lowerModule_reaches` says that the lowering leaves no other store, whether it succeeds or fails.

Main results: `lowering_frames`, whatever is lowered in a body of such a store leaves alone what
was there before, and `compile_total`, compiling a module never ends in a fault, and what it
leaves can be listed.
-/

namespace DefinitionLowering

open IR (BodyId VariableId Store)
open IR.Store (Active Becomes Coherent Frame Operation)

/-- The store when the body of a module has just been created. -/
def initialStore (m : Surface.Module) : Store :=
  (Store.empty.createBody (modulePlan m)).2

/-- A store that the lowering of a module can reach: by any operations, wherever they may happen,
and by releases. -/
inductive Reached (m : Surface.Module) : Store → Prop
  | created : Reached m (initialStore m)
  | operation {s s' : Store} (h : Reached m s) (hstep : Operation ⟨0⟩ 0 s s') : Reached m s'
  | released {s s' : Store} (b : BodyId) (h : Reached m s)
    (hrelease : s.releaseVariables b = .ok s') : Reached m s'

variable {m : Surface.Module} {s s' : Store} {b c p : BodyId} {setting : Setting}

/-! ## Single steps -/

theorem body_initialStore_ne (h : b ≠ ⟨0⟩) : (initialStore m).body b = default :=
  (Store.body_createBody_ne h).trans (Store.body_of_size_le (Nat.zero_le _))

theorem coherent_initialStore (m : Surface.Module) : (initialStore m).Coherent := by
  have hzero : ∀ b : BodyId, b.index < (initialStore m).bodies.size → b = ⟨0⟩ := fun b hb => by
    rw [initialStore, Store.size_bodies_createBody] at hb
    exact congrArg BodyId.mk (Nat.lt_one_iff.1 hb)
  have hroot : (initialStore m).body ⟨0⟩ = _ := Store.body_createBody_self
  refine ⟨fun b q hq => ?_, fun b hb _ => ?_, fun b hb _ => ?_, fun c v hv => ?_⟩
  · rw [hzero b (Store.lt_of_provider hq), hroot] at hq
    cases hq
  · rw [hzero b hb, Store.isModule, hroot]
    rfl
  · rw [hzero b hb, hroot]
    exact ⟨rfl, rfl⟩
  · rw [hzero c (Store.lt_of_mem_visible hv), Store.visible, hroot] at hv
    cases hv

/-- Releasing the variables of a body changes its code at most. -/
theorem releaseVariables_ok (h : s.releaseVariables b = .ok s') :
    s' = s ∨ s' = s.wrapCode b (IR.Block.releasing (s.ownVariables b)) := by
  unfold Store.releaseVariables at h
  split at h
  · cases h
  · split at h
    · cases h
      exact Or.inl rfl
    · cases h
      exact Or.inr rfl

theorem coherent_wrapCode (hs : s.Coherent) (wrap : IR.Block → IR.Block) :
    (s.wrapCode b wrap).Coherent := by
  have hview : ∀ {α : Type} (view : IR.Body → α),
      (∀ body code, view { body with code := code } = view body) →
      ∀ c, view ((s.wrapCode b wrap).body c) = view (s.body c) := fun view hv c =>
    Store.body_modifyBody_of (P := fun body => view body = view (s.body c))
      (fun h => (hv _ _).trans h) rfl
  have hprovider := hview IR.Body.provider fun _ _ => rfl
  have hmodule : ∀ c, (s.wrapCode b wrap).isModule c = s.isModule c :=
    hview (fun body => body.kind == .moduleBody) fun _ _ => rfl
  have hsize : (s.wrapCode b wrap).bodies.size = s.bodies.size := Store.size_bodies_modifyBody s b _
  have hvisible : ∀ c, (s.wrapCode b wrap).visible c = s.visible c :=
    hview IR.Body.visible fun _ _ => rfl
  have hproviders : ∀ limit c, (s.wrapCode b wrap).providers limit c = s.providers limit c := by
    intro limit
    induction limit with
    | zero => exact fun _ => rfl
    | succ limit ih =>
      intro c
      rw [Store.providers, Store.providers, hprovider]
      cases (s.body c).provider with
      | none => rfl
      | some q => exact congrArg (q :: ·) (ih q)
  refine ⟨fun c q hq => hs.ordered c q (hprovider c ▸ hq), fun c hc hnone => ?_, fun c hc hm => ?_,
    fun c v hv => ?_⟩
  · rw [hmodule]
    exact hs.rooted c (hsize ▸ hc) (hprovider c ▸ hnone)
  · rw [hview IR.Body.info fun _ _ => rfl]
    exact hs.module c (hsize ▸ hc) (hmodule c ▸ hm)
  · rw [hvisible] at hv
    rw [Store.ancestors, hsize, hproviders]
    exact hs.enclosed c v hv

theorem Reached.coherent (h : Reached m s) : s.Coherent := by
  induction h with
  | created => exact coherent_initialStore m
  | operation _ hstep ih => exact hstep.coherent ih (Nat.zero_le _)
  | released b _ hrelease ih =>
    rcases releaseVariables_ok hrelease with rfl | rfl
    · exact ih
    · exact coherent_wrapCode ih _

theorem Reached.becomes (h : Reached m s) {n : Nat} (hsteps : Becomes p n s s') : Reached m s' := by
  replace hsteps : Becomes ⟨0⟩ 0 s s' :=
    IR.Store.Becomes.within hsteps (Or.inr (Nat.zero_le _)) (Nat.zero_le _)
  induction hsteps with
  | refl => exact h
  | tail _ hstep ih => exact .operation ih hstep

/-! ## Lowering in a reached store -/

/-- **Lowering leaves alone what was there before**, also when it fails: of a body it changes at
most what it sees, by variables of scopes around it, and only in the body in which something is
lowered and the scopes around that. -/
theorem Reached.lowering_frames (h : Reached m s) (hp : p.index < s.bodies.size)
    (setting : Setting) :
    (∀ statement, Ends (Lowering.lowerStmt setting p statement) s
      (fun _ s' => Reached m s' ∧ Frame p s s') (fun _ s' => Reached m s' ∧ Frame p s s')) ∧
    ∀ location e, Ends (Lowering.lowerExpr setting p location e) s
      (fun _ s' => Reached m s' ∧ Frame p s s') (fun _ s' => Reached m s' ∧ Frame p s s') := by
  have hs : Lowering.Amid s.bodies.size p s := ⟨h.coherent, Nat.le_refl _, hp⟩
  have hframe : ∀ {s'}, Becomes p s.bodies.size s s' → Reached m s' ∧ Frame p s s' := fun hsteps =>
    ⟨h.becomes hsteps, IR.Store.Becomes.frame hsteps h.coherent⟩
  refine ⟨fun statement => ?_, fun location e => ?_⟩
  · exact (Lowering.operates_lowerStmt setting statement _ p _ s (Nat.le_refl _) hs).weaken
      (fun _ _ h => hframe h.1) fun _ _ h => hframe h.1
  · exact (Lowering.operates_lowerExpr setting e _ p location _ s (Nat.le_refl _) hs).weaken
      (fun _ _ h => hframe h.1) fun _ _ h => hframe h.1

/-- A module without statements. -/
def emptyModule : Surface.Module where
  name := "m"
  filename := "m.py"
  future := ⟨false, false, false, false, false⟩
  body := []

/-- A function `g` in a function `f` with the parameter `x`. -/
def nestedStore : Store :=
  (((initialStore emptyModule).createBody (plan ⟨0⟩ "f" ["x"])).2.createBody (plan ⟨1⟩ "g" [])).2
where
  plan (provider : BodyId) (name : String) (positional : List String) : IR.BodyPlan :=
    Lowering.functionPlan provider name ⟨name, positional, [], none, none, 0⟩ {} none .moduleStart

/-- The expression `(x, lambda a, a: 0)`. -/
def rejectedTuple : Surface.Expr :=
  .tuple [.name "x", .lambda
    { params := ⟨[.name ⟨"a", none⟩, .name ⟨"a", none⟩], [], none, [], [], none⟩
      body := .constant (.int 0)
      location := .moduleStart }]

/-- The lambda is rejected after `g` has come to see the parameter `x` of `f`. -/
theorem nestedStore_frames :
    (∃ failure s', Lowering.lowerExpr (.ofDialect .modern) ⟨2⟩ .moduleStart rejectedTuple
        nestedStore = .error failure s' ∧ s'.visible ⟨2⟩ = [⟨0⟩] ∧ Frame ⟨2⟩ nestedStore s') ∧
      nestedStore.visible ⟨2⟩ = [] := by
  have hreached : Reached emptyModule nestedStore := by
    refine .operation (.operation .created (.createBody _ ⟨0⟩ rfl (Or.inl rfl) (by decide)
      (by decide) fun _ h => ?_)) (.createBody _ ⟨1⟩ rfl (Or.inr (by decide)) (by decide)
      (by decide) fun _ h => ?_) <;>
    · cases h
      exact Nat.zero_le _
  have hframes := (hreached.lowering_frames (p := ⟨2⟩) (by decide) (.ofDialect .modern)).2
    .moduleStart rejectedTuple
  have hfails : (match Lowering.lowerExpr (.ofDialect .modern) ⟨2⟩ .moduleStart rejectedTuple
      nestedStore with
    | .ok _ _ => false
    | .error _ s' => s'.visible ⟨2⟩ == [⟨0⟩]) = true := by
    decide +kernel
  refine ⟨?_, by decide⟩
  cases hrun : Lowering.lowerExpr (.ofDialect .modern) ⟨2⟩ .moduleStart rejectedTuple
      nestedStore with
  | ok e s' =>
    rw [hrun] at hfails
    cases hfails
  | error failure s' =>
    rw [hrun] at hfails
    exact ⟨failure, s', rfl, by simpa using hfails, (hframes.of_error hrun).2⟩

/-! ## The lowering of a module -/

namespace Lowering

/-- The variables of bodies that are no modules are released one after the other. -/
theorem releases_reach {bodies : List BodyId} (h : Reached m s)
    (hbodies : ∀ b ∈ bodies, b ≠ ⟨0⟩ ∧ b.index < s.bodies.size) :
    Ends (bodies.forM fun b => tryUpdate fun s => s.releaseVariables b) s
      (fun _ s' => Reached m s') (fun _ _ => False) := by
  induction bodies generalizing s with
  | nil => exact h
  | cons b rest ih =>
    obtain ⟨hb, hlt⟩ := hbodies b List.mem_cons_self
    have hmodule : s.isModule b = false := Bool.eq_false_iff.2 fun hm =>
      hb (congrArg BodyId.mk (h.coherent.module b hlt hm).1)
    show Ends (tryUpdate _ >>= fun _ => rest.forM _) s _ _
    refine ends_bind.2 (ends_tryUpdate.2 ⟨fun s' hrelease => ?_, fun fault hfault => ?_⟩)
    · refine ih (h.released b hrelease) fun c hc => ?_
      have hsize : s'.bodies.size = s.bodies.size := by
        rcases releaseVariables_ok hrelease with rfl | rfl
        · rfl
        · exact Store.size_bodies_modifyBody s b _
      rw [hsize]
      exact hbodies c (List.mem_cons_of_mem _ hc)
    · obtain ⟨s', hok, -⟩ := IR.Store.releaseVariables_eq hmodule
      rw [hok] at hfault
      cases hfault

/-- **The lowering of a module goes through reached stores only**, and it fails by no fault
unless the classifier has answers that do not fit. -/
theorem lowerModule_reaches (setting : Setting) (m : Surface.Module) :
    Ends (lowerModule setting m) .empty (fun root s' => root = ⟨0⟩ ∧ Reached m s')
      fun failure s' => Reached m s' ∧ setting.Excuses failure := by
  have hcreated : Reached m (initialStore m) := .created
  have hamid : Amid 0 ⟨0⟩ (initialStore m) :=
    ⟨coherent_initialStore m, Nat.zero_le _, Nat.lt_succ_self _⟩
  have hroot : Pending 0 (initialStore m) [⟨0⟩] := by
    refine ⟨List.nodup_singleton _, fun c hc => ?_⟩
    rw [List.mem_singleton] at hc
    subst hc
    exact ⟨Nat.zero_le _, hamid.created, congrArg IR.Body.code Store.body_createBody_self⟩
  have hfill : Performs setting 0 ⟨0⟩ (do
      openScope ⟨0⟩ (Surface.undocumented m.body)
      let lowered ← lowerStmts setting ⟨0⟩ (Surface.undocumented m.body)
      attachCode ⟨0⟩ (.ofStatements lowered)) (initialStore m) fun _ _ => True := by
    refine scope_performs (operates_lowerStmts setting (Surface.undocumented m.body)) hamid hroot _
      fun lowered s' _ hpending hpaired => ?_
    refine (hpending.attachCode ?_).imp fun _ _ _ => trivial
    rw [IR.Block.allPaired_eq]
    exact hpaired
  have hrelease : ∀ s, Reached m s → Ends (do
      releaseAllBut ⟨0⟩
      return (⟨0⟩ : BodyId)) s (fun root s' => root = ⟨0⟩ ∧ Reached m s')
        fun failure s' => Reached m s' ∧ setting.Excuses failure := by
    intro s hs
    unfold releaseAllBut
    rw [ends_bind, ends_bind, ends_query]
    refine (releases_reach hs fun b hb => ?_).weaken (fun _ s' h => ⟨rfl, h⟩)
      fun _ _ h => h.elim
    obtain ⟨hmem, hne⟩ := List.mem_filter.1 hb
    exact ⟨bne_iff_ne.1 hne, Store.mem_bodyIds.1 (List.mem_reverse.1 hmem)⟩
  unfold lowerModule
  rw [createBody, ends_bind, ends_operate]
  unfold Performs at hfill
  simp only [ends_bind] at hfill ⊢
  refine hfill.weaken (fun _ s₁ h₁ => ?_) fun _ _ h => ⟨hcreated.becomes h.1, h.2⟩
  refine h₁.weaken (fun lowered s₂ h₂ => ?_) fun _ _ h => ⟨hcreated.becomes h.1, h.2⟩
  refine h₂.weaken (fun _ s₃ h₃ => ?_) fun _ _ h => ⟨hcreated.becomes h.1, h.2⟩
  exact ends_bind.1 (hrelease s₃ (hcreated.becomes h₃.1))

end Lowering

/-! ## What can be listed -/

/-- What listing a store takes for granted: a signature has no more defaults than positional
parameters, and a mapping has as many values as keys. -/
structure Listable (s : Store) : Prop where
  defaults : ∀ b signature, (s.body b).signature = some signature →
    signature.defaultCount ≤ signature.positional.length
  mappings : ∀ b block, (s.body b).code = some block → ∀ keys values,
    .mapping keys values ∈ block.terms → keys.length = values.length

theorem Reached.defaults (h : Reached m s) {signature : Signature}
    (hb : (s.body b).signature = some signature) :
    signature.defaultCount ≤ signature.positional.length := by
  have hlt : ∀ {s : Store}, (s.body b).signature = some signature → b.index < s.bodies.size := by
    intro s hb
    refine Classical.byContradiction fun hlt => ?_
    rw [Store.body_of_size_le (Nat.le_of_not_lt hlt)] at hb
    cases hb
  induction h with
  | created =>
    by_cases hzero : b = ⟨0⟩
    · rw [hzero, show ((initialStore m).body ⟨0⟩).signature = none from
        congrArg IR.Body.signature Store.body_createBody_self] at hb
      cases hb
    · rw [body_initialStore_ne hzero] at hb
      cases hb
  | operation _ hstep ih =>
    rcases hstep.provided (hlt hb) with hold | ⟨-, -, hdefaults, -⟩
    · rw [(hstep.grows (Nat.zero_le _)).signature hold] at hb
      exact ih hb
    · exact hdefaults signature hb
  | @released s s' c _ hrelease ih =>
    rcases releaseVariables_ok hrelease with rfl | rfl
    · exact ih hb
    · refine ih (hb ▸ ?_)
      exact (Store.body_modifyBody_of (P := fun body => body.signature = (s.body b).signature)
        (fun h => h) rfl).symm

theorem Reached.allPaired (h : Reached m s) {block : IR.Block}
    (hb : (s.body b).code = some block) : block.allPaired = true := by
  induction h generalizing block with
  | created =>
    by_cases hzero : b = ⟨0⟩
    · rw [hzero, show ((initialStore m).body ⟨0⟩).code = none from
        congrArg IR.Body.code Store.body_createBody_self] at hb
      cases hb
    · rw [body_initialStore_ne hzero] at hb
      cases hb
  | operation _ hstep ih => exact (hstep.paired hb).elim (fun h => ih h) id
  | @released s s' c _ hrelease ih =>
    rcases releaseVariables_ok hrelease with rfl | rfl
    · exact ih hb
    · rw [Store.wrapCode, Store.body_modifyBody] at hb
      split at hb
      · obtain ⟨inner, hinner, rfl⟩ := Option.map_eq_some_iff.1 hb
        exact Lowering.allPaired_releasing (ih hinner)
      · exact ih hb

theorem Reached.listable (h : Reached m s) : Listable s where
  defaults _ _ hb := h.defaults hb
  mappings _ _ hb _ _ hmem := IR.Block.length_eq_of_mapping_mem (h.allPaired hb) hmem

/-- **Compiling a module ends in no fault**: it gives a compilation for every module of every
dialect, the lowering stops only because the program is rejected, and wherever it stops, all that
is in the store can be listed. -/
theorem compile_total (dialect : Dialect) (m : Surface.Module) :
    (∃ compilation, compile dialect m = .ok compilation) ∧
      Ends (Lowering.lowerModule (.ofDialect dialect) m) .empty (fun _ s => Listable s)
        fun failure s => Listable s ∧ ∃ rejection, failure = .rejected rejection := by
  have hruns := (Lowering.lowerModule_reaches (.ofDialect dialect) m).recall
  refine ⟨?_, hruns.weaken (fun _ _ h => h.2.2.listable) fun _ _ h => ⟨h.2.1.listable, h.2.2 rfl⟩⟩
  unfold compile compileIn LoweredModule.ofSurface
  cases hrun : (Lowering.lowerModule (.ofDialect dialect) m).run .empty with
  | ok root s => exact ⟨_, rfl⟩
  | error failure s =>
    obtain ⟨-, -, hexcused⟩ := hruns.of_error hrun
    obtain ⟨rejection, rfl⟩ := hexcused rfl
    exact ⟨_, rfl⟩

end DefinitionLowering
