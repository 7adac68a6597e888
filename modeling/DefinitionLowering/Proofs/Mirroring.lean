import DefinitionLowering.Proofs.Adjoining
import DefinitionLowering.Proofs.Outcome

/-!
# The lowering does not see what is before it

A step of the lowering mirrors another (`Mirrors`) if, wherever the first runs in a guest, the
second runs in the same way behind the host: it fails when the first fails, and otherwise gives
the shifted value and leaves the guest's new store behind the host.  So a run depends on nothing
that is in the host, and does nothing to it.

There is one `mirrors_` theorem for each function of the lowering, and it says that lowering
something in the shifted body mirrors lowering it in the body itself.  `MirrorsTo` adds what is
known of the value; it is used where bodies are created, which are never the module.
-/

namespace DefinitionLowering

open IR (BodyId VariableId Store)
open IR.Store (Fits Follows Corresponds)
open Surface (Pattern Params)

namespace Lowering

variable {α β γ δ : Type} {host : Store} {n m : Nat} {b c provider : BodyId} {location : Location}

/-- Run in a guest with at least `n` bodies and behind the host, two steps end alike; `done`
holds of the value and the number of bodies there are then. -/
def MirrorsTo (host : Store) (n : Nat) (x : Lowering α) (x' : Lowering β) (r : α → β)
    (done : Nat → α → Prop) : Prop :=
  ∀ s, Fits host s → n ≤ s.bodies.size →
    Ends x s
      (fun a s' => Follows host s s' ∧ done s'.bodies.size a ∧
        x' (host.adjoin s) = .ok (r a) (host.adjoin s'))
      fun _ _ => ∃ failure t, x' (host.adjoin s) = .error failure t

/-- Two steps end alike, run in a guest and behind the host. -/
abbrev Mirrors (host : Store) (n : Nat) (x : Lowering α) (x' : Lowering β) (r : α → β) : Prop :=
  MirrorsTo host n x x' r fun _ _ => True

/-- A body other than the module, among the first `n`. -/
def Inner (n : Nat) (b : BodyId) : Prop :=
  b ≠ ⟨0⟩ ∧ b.index < n

theorem Inner.mono (h : Inner n b) (hm : n ≤ m) : Inner m b :=
  ⟨h.1, Nat.lt_of_lt_of_le h.2 hm⟩

section Rules

variable {x : Lowering α} {x' : Lowering β} {r : α → β} {f : α → Lowering γ} {f' : β → Lowering δ}
  {r' : γ → δ} {mid : Nat → α → Prop} {done : Nat → γ → Prop}

/-- The second step succeeds only by what the first does. -/
theorem MirrorsTo.ok_iff {s t : Store} {b : β} (h : MirrorsTo host n x x' r mid)
    (hs : Fits host s) (hn : n ≤ s.bodies.size) : x' (host.adjoin s) = .ok b t ↔
      ∃ a s', x s = .ok a s' ∧ b = r a ∧ t = host.adjoin s' := by
  have hends := h s hs hn
  unfold Ends at hends
  cases hx : x s with
  | ok a s' =>
    rw [hx] at hends
    rw [hends.2.2]
    constructor
    · intro he
      cases he
      exact ⟨a, s', rfl, rfl, rfl⟩
    · rintro ⟨_, _, he, rfl, rfl⟩
      cases he
      rfl
  | error failure s' =>
    rw [hx] at hends
    obtain ⟨failure', t', hx'⟩ := hends
    rw [hx']
    exact ⟨nofun, fun ⟨_, _, he, _⟩ => nomatch he⟩

theorem MirrorsTo.mono (h : MirrorsTo host n x x' r mid) (hm : n ≤ m) :
    MirrorsTo host m x x' r mid :=
  fun s hs hsize => h s hs (Nat.le_trans hm hsize)

theorem MirrorsTo.bind (h : MirrorsTo host n x x' r mid)
    (hf : ∀ a m, n ≤ m → mid m a → MirrorsTo host m (f a) (f' (r a)) r' done) :
    MirrorsTo host n (x >>= f) (x' >>= f') r' done := by
  intro s hs hsize
  refine ends_bind.2 ((h s hs hsize).weaken (fun a s' => ?_) fun _ _ => ?_)
  · rintro ⟨hfollows, hmid, hx'⟩
    have hn := Nat.le_trans hsize hfollows.bodies
    rw [bind_ok f' hx']
    exact (hf a _ hn hmid s' hfollows.fits (Nat.le_refl _)).weaken
      (fun _ _ h => ⟨hfollows.trans h.1, h.2⟩) fun _ _ h => h
  · rintro ⟨failure, t, hx'⟩
    exact ⟨failure, t, bind_error f' hx'⟩

theorem Mirrors.bind (h : Mirrors host n x x' r)
    (hf : ∀ a, MirrorsTo host n (f a) (f' (r a)) r' done) :
    MirrorsTo host n (x >>= f) (x' >>= f') r' done :=
  MirrorsTo.bind h fun a _ hm _ => (hf a).mono hm

theorem mirrorsTo_pure {a : α} {a' : β} (h : r a = a') (hd : ∀ m, n ≤ m → mid m a) :
    MirrorsTo host n (pure a) (pure a') r mid :=
  fun _ hs hsize => ⟨hs.refl, hd _ hsize, h ▸ rfl⟩

theorem mirrors_pure {a : α} {a' : β} (h : r a = a') : Mirrors host n (pure a) (pure a') r :=
  mirrorsTo_pure h fun _ _ => trivial

theorem mirrors_throw {failure failure' : Failure} :
    MirrorsTo host n (throw failure : Lowering α) (throw failure' : Lowering β) r mid :=
  fun _ _ _ => ⟨_, _, rfl⟩

theorem mirrors_reject {cause : Cause} :
    MirrorsTo host n (reject cause location : Lowering α) (reject cause location) r mid :=
  mirrors_throw

/-- Nothing runs behind a rejection. -/
theorem mirrors_rejected {cause : Cause} {f' : α → Lowering δ} :
    MirrorsTo host n (reject cause location >>= f) (reject cause location >>= f') r' done := by
  have hreject : MirrorsTo host n (reject cause location : Lowering α) (reject cause location) id
      fun _ _ => False := mirrors_reject
  exact hreject.bind fun _ _ _ h => h.elim

theorem mirrors_ite {p : Prop} [Decidable p] {y : Lowering α} {y' : Lowering β}
    (hx : p → MirrorsTo host n x x' r mid) (hy : ¬p → MirrorsTo host n y y' r mid) :
    MirrorsTo host n (if p then x else y) (if p then x' else y') r mid := by
  by_cases h : p
  · rw [if_pos h, if_pos h]
    exact hx h
  · rw [if_neg h, if_neg h]
    exact hy h

theorem mirrorsTo_query {q : Store → α} {q' : Store → β}
    (h : ∀ s, Fits host s → q' (host.adjoin s) = r (q s))
    (hd : ∀ s, Fits host s → n ≤ s.bodies.size → mid s.bodies.size (q s)) :
    MirrorsTo host n (query q) (query q') r mid :=
  fun s hs hsize => ⟨hs.refl, hd s hs hsize, congrArg (EStateM.Result.ok · _) (h s hs)⟩

theorem mirrors_query {q : Store → α} {q' : Store → β}
    (h : ∀ s, Fits host s → q' (host.adjoin s) = r (q s)) :
    Mirrors host n (query q) (query q') r :=
  mirrorsTo_query h fun _ _ _ => trivial

theorem mirrors_tryQuery {q : Store → Except IR.Fault α} {q' : Store → Except IR.Fault β}
    (h : ∀ s, Fits host s → Corresponds r (q s) (q' (host.adjoin s))) :
    Mirrors host n (tryQuery q) (tryQuery q') r := by
  intro s hs _
  have hcorresponds := h s hs
  refine ends_tryQuery.2 ⟨fun value hvalue => ?_, fun fault hfault => ?_⟩
  · rw [hvalue] at hcorresponds
    exact ⟨hs.refl, trivial, tryQuery_ok hcorresponds⟩
  · rw [hfault] at hcorresponds
    obtain ⟨fault', hfault'⟩ := hcorresponds
    exact ⟨_, _, tryQuery_error hfault'⟩

theorem mirrorsTo_operate {q : Store → α × Store} {q' : Store → β × Store}
    (h : ∀ s, Fits host s → q' (host.adjoin s) = (r (q s).1, host.adjoin (q s).2))
    (hd : ∀ s, Fits host s → n ≤ s.bodies.size →
      Follows host s (q s).2 ∧ mid (q s).2.bodies.size (q s).1) :
    MirrorsTo host n (operate q) (operate q') r mid := by
  intro s hs hsize
  obtain ⟨hfollows, hmid⟩ := hd s hs hsize
  refine ends_operate.2 ⟨hfollows, hmid, ?_⟩
  rw [operate_run, h s hs]

theorem mirrors_modify {g g' : Store → Store}
    (h : ∀ s, Fits host s → host.adjoin (g s) = g' (host.adjoin s))
    (hd : ∀ s, Fits host s → Follows host s (g s)) :
    Mirrors host n (modify g) (modify g') id :=
  fun s hs _ => ⟨hd s hs, trivial, congrArg (EStateM.Result.ok ()) (h s hs).symm⟩

theorem mirrors_forM {step step' : γ → Lowering Unit} : ∀ {items : List γ},
    (∀ item ∈ items, Mirrors host n (step item) (step' item) id) →
      Mirrors host n (items.forM step) (items.forM step') id
  | [], _ => mirrors_pure rfl
  | first :: rest, h => by
    show Mirrors host n (step first >>= fun _ => rest.forM step)
      (step' first >>= fun _ => rest.forM step') id
    exact Mirrors.bind (h first List.mem_cons_self) fun _ =>
      mirrors_forM fun item hitem => h item (List.mem_cons_of_mem _ hitem)

theorem mirrors_mapM {step : γ → Lowering α} {step' : γ → Lowering β} : ∀ {items : List γ},
    (∀ item ∈ items, Mirrors host n (step item) (step' item) r) →
      Mirrors host n (items.mapM step) (items.mapM step') (List.map r)
  | [], _ => mirrors_pure rfl
  | first :: rest, h => by
    rw [List.mapM_cons, List.mapM_cons]
    exact Mirrors.bind (h first List.mem_cons_self) fun a =>
      Mirrors.bind (mirrors_mapM fun item hitem => h item (List.mem_cons_of_mem _ hitem))
        fun more => mirrors_pure rfl

end Rules

/-! ## Operations of the store -/

section Operations

theorem mirrorsTo_kindOf (b : BodyId) :
    MirrorsTo host n (kindOf b) (kindOf (host.offset.body b)) id
      fun _ kind => kind ≠ .moduleBody → b ≠ ⟨0⟩ :=
  mirrorsTo_query (fun _ hs => hs.kind b) fun _ hs _ => hs.ne_root_of_kind

theorem mirrors_kindOf (b : BodyId) :
    Mirrors host n (kindOf b) (kindOf (host.offset.body b)) id :=
  mirrors_query fun _ hs => hs.kind b

theorem mirrors_spell (b : BodyId) (name : String) :
    Mirrors host n (spell b name) (spell (host.offset.body b) name) id :=
  mirrors_query fun _ hs => hs.spell b name

theorem mirrors_createBody (plan : IR.BodyPlan) (hp : ∀ p, plan.provider = some p → p.index < n) :
    MirrorsTo host n (createBody plan) (createBody (plan.shift host.offset)) host.offset.body
      Inner := by
  refine mirrorsTo_operate (fun _ hs => hs.createBody plan) fun s hs hsize => ⟨?_, ?_, ?_⟩
  · exact hs.follows_createBody fun p h => Nat.lt_of_lt_of_le (hp p h) hsize
  · exact fun he => absurd (congrArg BodyId.index he) (Nat.ne_of_gt hs.rooted)
  · simp

theorem mirrors_attachCode (hb : b ≠ ⟨0⟩) {code code' : IR.Block}
    (hcode : code.shift host.offset = code') :
    Mirrors host n (attachCode b code) (attachCode (host.offset.body b) code') id := by
  subst hcode
  intro s hs _
  have hcorresponds := Store.corresponds_attachCode (s := s) hs.hosted hb code
  refine ends_tryUpdate.2 ⟨fun s' hattach => ?_, fun fault hfault => ?_⟩
  · rw [hattach] at hcorresponds
    refine ⟨?_, trivial, ?_⟩
    · obtain ⟨-, rfl⟩ := Store.attachCode_eq_ok hattach
      exact hs.follows_modifyBody hb fun _ => rfl
    · have hattach' : (host.adjoin s).attachCode (host.offset.body b) (code.shift host.offset) =
          .ok (host.adjoin s') := hcorresponds
      rw [attachCode, tryUpdate, bind_ok _ (tryQuery_ok hattach')]
      rfl
  · rw [hfault] at hcorresponds
    obtain ⟨fault', hfault'⟩ := hcorresponds
    exact ⟨_, _, bind_error _ (tryQuery_error hfault')⟩

theorem mirrors_share (hb : b ≠ ⟨0⟩) (hc : c ≠ ⟨0⟩) :
    Mirrors host n (share b c) (share (host.offset.body b) (host.offset.body c)) id :=
  mirrors_modify (fun _ hs => Store.adjoin_share hs.hosted hb hc) fun _ hs => hs.follows_share hc

theorem mirrors_resolve (hb : b ≠ ⟨0⟩) (name : String) :
    Mirrors host n (resolve b name) (resolve (host.offset.body b) name)
      (Option.map host.offset.var) :=
  mirrorsTo_operate (fun _ hs => hs.resolve hb name) fun _ hs _ =>
    ⟨hs.follows_resolve hb name, trivial⟩

theorem mirrors_newTemporary (hb : b ≠ ⟨0⟩) (name : String) :
    Mirrors host n (newTemporary b name) (newTemporary (host.offset.body b) name)
      host.offset.var := by
  intro s hs _
  have hcorresponds := Store.corresponds_addTemporary (s := s) hs.hosted hb name
  refine ends_bind.2 (ends_tryQuery.2 ⟨fun (v, s') hmade => ?_, fun fault hfault => ?_⟩)
  · rw [hmade] at hcorresponds
    refine ⟨?_, trivial, ?_⟩
    · obtain ⟨-, -, hs'⟩ := Store.addTemporary_eq_ok hmade
      have hpush := hs.follows_pushVariable ⟨name, b, .temporary⟩
      exact hs' ▸ hpush.trans (hpush.fits.follows_modifyBody hb fun _ => rfl)
    · have hmade' : (host.adjoin s).addTemporary (host.offset.body b) name =
          .ok (host.offset.var v, host.adjoin s') := hcorresponds
      rw [newTemporary, bind_ok _ (tryQuery_ok hmade')]
      rfl
  · rw [hfault] at hcorresponds
    obtain ⟨fault', hfault'⟩ := hcorresponds
    exact ⟨_, _, bind_error _ (tryQuery_error hfault')⟩

end Operations

/-! ## Names -/

theorem mirrors_reference (b : BodyId) (name : String) :
    Mirrors host n (reference b name) (reference (host.offset.body b) name)
      (IR.Expr.shift host.offset) := by
  unfold reference
  refine (mirrors_spell b name).bind fun name =>
    (mirrorsTo_kindOf b).bind fun kind m hm hinner => ?_
  refine mirrors_ite (fun _ => mirrors_pure rfl) fun hkind => ?_
  refine (mirrors_resolve (hinner fun he => hkind (by simp [he])) name).bind fun found => ?_
  cases found <;> exact mirrors_pure rfl

theorem mirrors_bindName (b : BodyId) (name : String) {source source' : IR.Expr}
    (hsource : source.shift host.offset = source') :
    Mirrors host n (bindName b name source) (bindName (host.offset.body b) name source')
      (IR.Stmt.shift host.offset) := by
  subst hsource
  unfold bindName
  refine (mirrorsTo_kindOf b).bind fun kind m hm hinner => ?_
  refine mirrors_ite (fun _ => mirrors_pure rfl) fun hkind => ?_
  refine (mirrors_resolve (hinner fun he => hkind (by simp [he])) name).bind fun found => ?_
  cases found <;> exact mirrors_pure rfl

theorem mirrors_bindDefinition (b : BodyId) (name : String) {value value' : IR.Expr}
    (hvalue : value.shift host.offset = value') :
    Mirrors host n (bindDefinition b name value) (bindDefinition (host.offset.body b) name value')
      (IR.Stmt.shift host.offset) :=
  (mirrors_spell b name).bind fun name => mirrors_bindName b name hvalue

/-! ## Opening a scope -/

theorem isParameter_adjoin {s : Store} (hn : 0 < host.bodies.size) (hb : b ≠ ⟨0⟩) (name : String) :
    isParameter (host.adjoin s) (host.offset.body b) name = isParameter s b name := by
  unfold isParameter
  rw [Store.find?_adjoin hn hb]
  cases s.find? b name with
  | none => rfl
  | some v =>
    have hprovider : ((s.body b).provider.map host.offset.body ==
        some (host.offset.body (s.var v).owner)) = ((s.body b).provider == some (s.var v).owner) :=
      (Option.map_injective host.offset.body_injective).beq_eq (a := (s.body b).provider)
        (b := some (s.var v).owner)
    dsimp only [Option.map_some]
    rw [Store.var_adjoin, Store.body_adjoin hn hb]
    dsimp only [IR.Variable.shift, IR.Body.shift]
    rw [host.offset.body_injective.beq_eq, hprovider]

theorem mirrors_refuseParameter (hb : b ≠ ⟨0⟩) (name : String) (declaration : OuterDeclaration)
    (location : Location) :
    Mirrors host n (refuseParameter b name declaration location)
      (refuseParameter (host.offset.body b) name declaration location) id := by
  unfold refuseParameter
  refine Mirrors.bind (r := id) (mirrors_query fun _ hs => isParameter_adjoin hs.hosted hb name)
    fun refused => ?_
  exact mirrors_ite (fun _ => mirrors_reject) fun _ => mirrors_pure rfl

theorem mirrors_declareGlobal (hb : b ≠ ⟨0⟩) (name : String) (location : Location) :
    Mirrors host n (declareGlobal b name location)
      (declareGlobal (host.offset.body b) name location) id := by
  unfold declareGlobal
  refine (mirrors_spell b name).bind fun name =>
    (mirrors_refuseParameter hb name .global location).bind fun _ => ?_
  exact mirrors_modify (fun _ hs => Store.adjoin_modifyBody hs.hosted hb fun _ => rfl)
    fun _ hs => hs.follows_modifyBody hb fun _ => rfl

theorem mirrors_resolveOuter (hb : b ≠ ⟨0⟩) (name : String) :
    Mirrors host n (resolveOuter b name) (resolveOuter (host.offset.body b) name) id := by
  unfold resolveOuter
  refine Mirrors.bind (r := Option.map host.offset.body) (mirrors_query fun s hs => ?_)
    fun found => ?_
  · rw [Store.find?_adjoin hs.hosted hb]
    cases s.find? b name with
    | none => rfl
    | some v => exact congrArg (some ·.owner) (Store.var_adjoin host s v)
  · cases found with
    | some owner =>
      exact mirrors_pure (by rw [id, bne, bne, host.offset.body_injective.beq_eq])
    | none =>
      exact (mirrors_resolve hb name).bind fun found => mirrors_pure (by cases found <;> rfl)

theorem mirrors_declareNonlocal (hb : b ≠ ⟨0⟩) (name : String) (location : Location) :
    Mirrors host n (declareNonlocal b name location)
      (declareNonlocal (host.offset.body b) name location) id := by
  unfold declareNonlocal
  refine (mirrors_spell b name).bind fun name =>
    (mirrors_refuseParameter hb name .nonlocal location).bind fun _ =>
      (mirrors_resolveOuter hb name).bind fun found => ?_
  refine mirrors_ite (fun _ => ?_) fun _ => mirrors_reject
  exact mirrors_modify (fun _ hs => Store.adjoin_modifyBody hs.hosted hb fun _ => rfl)
    fun _ hs => hs.follows_modifyBody hb fun _ => rfl

theorem mirrors_declareBinding (hb : b ≠ ⟨0⟩) (name : String) :
    Mirrors host n (declareBinding b name) (declareBinding (host.offset.body b) name) id := by
  unfold declareBinding
  refine (mirrors_spell b name).bind fun name => Mirrors.bind (r := id)
    (mirrors_query fun s hs => by rw [Store.body_adjoin hs.hosted hb]; rfl) fun isGlobal => ?_
  refine mirrors_ite (fun _ => mirrors_pure rfl) fun _ => ?_
  exact mirrors_modify
    (fun _ hs => (congrArg Prod.snd (Store.adjoin_declareLocal hs.hosted hb name)).symm)
    fun _ hs => hs.follows_declareLocal hb name

/-- The scope of the module is the only one that is opened differently. -/
theorem mirrors_openScope (hb : b ≠ ⟨0⟩) (statements : List Surface.Stmt) :
    Mirrors host n (openScope b statements) (openScope (host.offset.body b) statements) id := by
  have hglobals : Mirrors host n ((Surface.globalNames statements).forM fun declared =>
      declareGlobal b declared.1 declared.2) ((Surface.globalNames statements).forM fun declared =>
      declareGlobal (host.offset.body b) declared.1 declared.2) id :=
    mirrors_forM fun declared _ => mirrors_declareGlobal hb declared.1 declared.2
  have hnonlocals : Mirrors host n ((Surface.nonlocalNames statements).forM fun declared =>
      declareNonlocal b declared.1 declared.2)
      ((Surface.nonlocalNames statements).forM fun declared =>
        declareNonlocal (host.offset.body b) declared.1 declared.2) id :=
    mirrors_forM fun declared _ => mirrors_declareNonlocal hb declared.1 declared.2
  have hbindings : Mirrors host n ((Surface.boundNames statements).forM fun name =>
      declareBinding b name) ((Surface.boundNames statements).forM fun name =>
      declareBinding (host.offset.body b) name) id :=
    mirrors_forM fun name _ => mirrors_declareBinding hb name
  unfold openScope
  refine (mirrors_kindOf b).bind fun kind => ?_
  refine mirrors_ite (fun _ => ?_) fun _ => ?_
  · cases hnames : Surface.nonlocalNames statements with
    | nil =>
      rw [hnames] at hnonlocals
      exact hglobals.bind fun _ => hnonlocals.bind fun _ =>
        mirrors_ite (fun _ => mirrors_pure rfl) fun _ => hbindings
    | cons declared rest => exact mirrors_rejected
  · exact hglobals.bind fun _ => hnonlocals.bind fun _ =>
      mirrors_ite (fun _ => mirrors_pure rfl) fun _ => hbindings

/-! ## Taking tuple parameters apart -/

section Unpacking

variable {wrapper : BodyId}

mutual

theorem mirrors_unpack (hw : wrapper ≠ ⟨0⟩) : ∀ (pattern : Pattern) (source : IR.Expr)
    (iterators : Nat),
    Mirrors host n (unpack wrapper source iterators pattern)
      (unpack (host.offset.body wrapper) (source.shift host.offset) iterators pattern)
      (Unpacking.shift host.offset)
  | .name param, source, iterators => by
    rw [unpack, unpack]
    exact (mirrors_spell wrapper param.name).bind fun leaf =>
      (mirrors_newTemporary hw _).bind fun element => mirrors_pure rfl
  | .tuple elements, source, iterators => by
    rw [unpack, unpack]
    refine (mirrors_newTemporary hw _).bind fun iterator =>
      (mirrors_unpackElements hw elements iterator elements.length 1 (iterators + 1)).bind
        fun inner => mirrors_pure ?_
    simp [Unpacking.shift, IR.Stmt.shift, IR.Expr.shift]

theorem mirrors_unpackElements (hw : wrapper ≠ ⟨0⟩) : ∀ (elements : List Pattern)
    (iterator : VariableId) (expected count iterators : Nat),
    Mirrors host n (unpackElements wrapper iterator expected count iterators elements)
      (unpackElements (host.offset.body wrapper) (host.offset.var iterator) expected count
        iterators elements) (Unpacking.shift host.offset)
  | [], iterator, expected, count, iterators => by
    rw [unpackElements, unpackElements]
    exact mirrors_pure rfl
  | first :: rest, iterator, expected, count, iterators => by
    rw [unpackElements, unpackElements]
    refine (mirrors_unpack hw first (.unpack (.var iterator) count expected) iterators).bind
      fun head => (mirrors_unpackElements hw rest iterator expected (count + 1)
        head.iterators).bind fun tail => mirrors_pure ?_
    simp [Unpacking.shift]

end

theorem mirrors_slotVariable (hw : wrapper ≠ ⟨0⟩) (slot : String) :
    Mirrors host n (slotVariable wrapper slot) (slotVariable (host.offset.body wrapper) slot)
      host.offset.var := by
  unfold slotVariable
  refine Mirrors.bind (mirrors_query fun _ hs => Store.find?_adjoin hs.hosted hw slot)
    fun found => ?_
  cases found with
  | some v => exact mirrors_pure rfl
  | none => exact mirrors_throw

theorem mirrors_unpackSlots (hw : wrapper ≠ ⟨0⟩) (placeholders : List Placeholder) :
    ∀ (slots : List String) (iterators : Nat),
      Mirrors host n (unpackSlots wrapper placeholders iterators slots)
        (unpackSlots (host.offset.body wrapper) placeholders iterators slots)
        (Unpacking.shift host.offset)
  | [], iterators => by
    rw [unpackSlots, unpackSlots]
    exact mirrors_pure rfl
  | slot :: rest, iterators => by
    rw [unpackSlots, unpackSlots]
    refine (mirrors_slotVariable hw slot).bind fun v => ?_
    have hrest : ∀ head : Unpacking, Mirrors host n
        (do
          let tail ← unpackSlots wrapper placeholders head.iterators rest
          return (⟨head.statements ++ tail.statements, head.accesses ++ tail.accesses,
            tail.iterators⟩ : Unpacking))
        (do
          let tail ← unpackSlots (host.offset.body wrapper) placeholders head.iterators rest
          return (⟨(head.shift host.offset).statements ++ tail.statements,
            (head.shift host.offset).accesses ++ tail.accesses, tail.iterators⟩ : Unpacking))
        (Unpacking.shift host.offset) := fun head =>
      (mirrors_unpackSlots hw placeholders rest head.iterators).bind fun tail =>
        mirrors_pure (by simp [Unpacking.shift])
    dsimp only
    cases Placeholder.elementsOf? placeholders slot with
    | some elements => exact (mirrors_unpack hw (.tuple elements) (.var v) iterators).bind hrest
    | none =>
      exact Mirrors.bind (r := Unpacking.shift host.offset) (mirrors_pure rfl) hrest

theorem insertByName_adjoin (s : Store) (v : VariableId) : ∀ vars : List VariableId,
    insertByName (host.adjoin s) (host.offset.var v) (vars.map host.offset.var) =
      (insertByName s v vars).map host.offset.var
  | [] => rfl
  | w :: rest => by
    have hname : ∀ u, ((host.adjoin s).var (host.offset.var u)).name = (s.var u).name :=
      fun u => by rw [Store.var_adjoin]; rfl
    rw [List.map_cons, insertByName, insertByName, hname, hname, insertByName_adjoin s v rest]
    split <;> rfl

theorem sortByName_adjoin (s : Store) (vars : List VariableId) :
    sortByName (host.adjoin s) (vars.map host.offset.var) =
      (sortByName s vars).map host.offset.var := by
  induction vars with
  | nil => rfl
  | cons v rest ih =>
    show insertByName _ _ (sortByName (host.adjoin s) (rest.map host.offset.var)) = _
    rw [ih, insertByName_adjoin]
    rfl

theorem mirrors_createDelegate (hw : Inner n wrapper) (signature : Signature)
    (placeholders : List Placeholder) (code : CodeObject) (flags : Flags) (doc : Option String)
    (location : Location) :
    MirrorsTo host n (createDelegate wrapper signature placeholders code flags doc location)
      (createDelegate (host.offset.body wrapper) signature placeholders code flags doc location)
      host.offset.body Inner := by
  unfold createDelegate
  refine Mirrors.bind (r := id) (mirrors_query fun s hs => ?_) fun slots => ?_
  · rw [funext (hs.spell wrapper)]
    rfl
  · dsimp only [id]
    cases (delegateSignature (delegateName signature.name) slots).check with
    | error defect => exact mirrors_reject
    | ok inner =>
      refine (mirrors_createBody _ fun p hp => ?_).bind fun delegate m hm hdelegate => ?_
      · cases hp
        exact hw.2
      · refine (mirrors_unpackSlots hw.1 placeholders _ 0).bind fun unpacking => ?_
        refine Mirrors.bind (r := List.map host.offset.var) (mirrors_query fun s hs => ?_)
          fun temporaries => ?_
        · rw [← sortByName_adjoin, Store.temporaries, Store.body_adjoin hs.hosted hw.1]
          rfl
        · refine (mirrors_attachCode hw.1 ?_).bind fun _ =>
            mirrorsTo_pure rfl fun m' hm' => hdelegate.mono hm'
          simp [IR.Stmt.shift, IR.Expr.shift, Unpacking.shift, Function.comp_def]

end Unpacking

/-! ## Callables -/

theorem mirrors_codeObject (provider : BodyId) (kind : CallableKind) (signature : Signature)
    (location : Location) :
    Mirrors host n (codeObject provider kind signature location)
      (codeObject (host.offset.body provider) kind signature location) id := by
  unfold codeObject
  exact Mirrors.bind (mirrors_tryQuery fun _ hs => hs.moduleInfo provider)
    fun info => mirrors_pure rfl

theorem mirrors_signatureIn (setting : Setting) (provider : BodyId) (name : String)
    (params : Params) (location : Location) :
    Mirrors host n (signatureIn setting provider name params location)
      (signatureIn setting (host.offset.body provider) name params location) id := by
  unfold signatureIn
  refine Mirrors.bind (r := id) (mirrors_query fun _ hs => funext (hs.spell provider))
    fun spell => ?_
  dsimp only [id]
  cases params.signature setting.dialect spell name with
  | ok signature => exact mirrors_pure rfl
  | error cause => exact mirrors_reject

theorem mirrors_placeholdersIn (provider : BodyId) (params : Params) :
    Mirrors host n (placeholdersIn provider params)
      (placeholdersIn (host.offset.body provider) params) id :=
  mirrors_query fun _ hs => congrArg params.placeholders (funext (hs.spell provider))

/-- The bodies of a callable are not the module. -/
structure Callable.Inner (n : Nat) (callable : Callable) : Prop where
  outer : Lowering.Inner n callable.outer
  function : Lowering.Inner n callable.function

theorem Callable.Inner.mono {callable : Callable} (h : callable.Inner n) (hm : n ≤ m) :
    callable.Inner m :=
  ⟨h.outer.mono hm, h.function.mono hm⟩

theorem mirrors_buildCallable (setting : Setting) (hp : provider.index < n) (kind : CallableKind)
    (name : String) (doc : Option String) (flags : Flags) (params : Params) (location : Location) :
    MirrorsTo host n (buildCallable setting provider kind name doc flags params location)
      (buildCallable setting (host.offset.body provider) kind name doc flags params location)
      (Callable.shift host.offset) Callable.Inner := by
  unfold buildCallable
  refine (mirrors_signatureIn setting provider name params location).bind fun signature =>
    (mirrors_placeholdersIn provider params).bind fun placeholders =>
      (mirrors_codeObject provider kind signature location).bind fun code => ?_
  refine (mirrors_createBody _ fun p h => ?_).bind fun outer m hm houter => ?_
  · cases h
    exact hp
  · refine mirrors_ite (fun _ => ?_) fun _ => ?_
    · exact mirrorsTo_pure rfl fun m' hm' => ⟨houter.mono hm', houter.mono hm'⟩
    · exact (mirrors_createDelegate houter signature placeholders code flags doc location).bind
        fun function k hk hfunction => mirrorsTo_pure rfl fun m' hm' =>
          ⟨houter.mono (Nat.le_trans hk hm'), hfunction.mono hm'⟩

theorem mirrors_createObject {callable : Callable} (h : callable.Inner n) (kind : ObjectKind)
    (name : String) (flags : Flags) (location : Location) :
    MirrorsTo host n (createObject callable kind name flags location)
      (createObject (callable.shift host.offset) kind name flags location) host.offset.body
      Inner := by
  unfold createObject
  refine Mirrors.bind (r := id) (mirrors_query fun s hs => ?_) fun qualifiedName => ?_
  · rw [show (callable.shift host.offset).outer = host.offset.body callable.outer from rfl,
      Store.body_adjoin hs.hosted h.outer.1]
    rfl
  · refine (mirrors_createBody _ fun p hp => ?_).bind fun object m hm hobject => ?_
    · cases hp
      exact h.function.2
    · exact (mirrors_share h.function.1 hobject.1).bind fun _ =>
        mirrorsTo_pure rfl fun m' hm' => hobject.mono hm'

theorem mirrors_lambdaObject {callable : Callable} (h : callable.Inner n) (kind : CallableKind)
    (flags : Flags) (location : Location) :
    MirrorsTo host n (lambdaObject callable kind flags location)
      (lambdaObject (callable.shift host.offset) kind flags location)
      (Option.map host.offset.body) fun m object => ∀ b, object = some b → Inner m b := by
  unfold lambdaObject
  refine mirrors_ite (fun _ => ?_) fun _ => mirrorsTo_pure rfl fun _ _ _ hnone => by cases hnone
  refine (mirrors_createObject h .generator "<lambda>" flags location).bind
    fun object k hk hobject => mirrorsTo_pure rfl fun m hm b hb => ?_
  cases hb
  exact hobject.mono hm

theorem mirrors_attachLambda {callable : Callable} (h : callable.Inner n) {object : Option BodyId}
    (hobject : ∀ b, object = some b → Inner n b) (value : IR.Expr) :
    Mirrors host n (attachLambda callable object value)
      (attachLambda (callable.shift host.offset) (object.map host.offset.body)
        (value.shift host.offset)) id := by
  unfold attachLambda
  cases object with
  | none => exact mirrors_attachCode h.function.1 rfl
  | some object =>
    exact (mirrors_attachCode (hobject object rfl).1 rfl).bind fun _ =>
      mirrors_attachCode h.function.1 rfl

theorem mirrors_keywordMapping {holder : BodyId} (hh : holder ≠ ⟨0⟩)
    {lower lower' : List String → Lowering (List (String × IR.Expr))}
    (h : ∀ names, Mirrors host n (lower names) (lower' names)
      (List.map (IR.entryShift host.offset))) :
    Mirrors host n (keywordMapping holder lower)
      (keywordMapping (host.offset.body holder) lower')
      (Option.map (IR.Expr.shift host.offset)) := by
  unfold keywordMapping
  refine Mirrors.bind (r := id) (mirrors_query fun s hs => ?_) fun names => ?_
  · rw [keywordOnlyNames, Store.body_adjoin hs.hosted hh]
    rfl
  · refine mirrors_ite (fun _ => mirrors_pure rfl) fun _ => ?_
    exact (h names).bind fun entries =>
      mirrors_pure (congrArg some (IR.Expr.shift_ofEntries host.offset entries))

/-! ## Expressions -/

/-- A lambda, given its parts. -/
theorem mirrors_lambda {setting : Setting} {params : Params} {body : Surface.Expr}
    {kind : CallableKind} {flags : Flags} (hb : b.index < n)
    (hdefaults : ∀ n b, b.index < n →
      Mirrors host n (lowerExprs setting b location params.defaults)
        (lowerExprs setting (host.offset.body b) location params.defaults)
        (List.map (IR.Expr.shift host.offset)))
    (hkeywords : ∀ n b names, b.index < n →
      Mirrors host n (lowerKeywordDefaults setting b location names params.keywordDefaults)
        (lowerKeywordDefaults setting (host.offset.body b) location names params.keywordDefaults)
        (List.map (IR.entryShift host.offset)))
    (hbody : ∀ n b, b.index < n → Mirrors host n (lowerExpr setting b location body)
      (lowerExpr setting (host.offset.body b) location body) (IR.Expr.shift host.offset)) :
    Mirrors host n
      (do
        let callable ← buildCallable setting b kind "<lambda>" none flags params location
        let object ← lambdaObject callable kind flags location
        let defaults ← lowerExprs setting b location params.defaults
        let keywordDefaults ← keywordMapping callable.outer fun names =>
          lowerKeywordDefaults setting b location names params.keywordDefaults
        let value ← lowerExpr setting (object.getD callable.function) location body
        attachLambda callable object value
        return creation callable defaults keywordDefaults none)
      (do
        let callable ← buildCallable setting (host.offset.body b) kind "<lambda>" none flags params
          location
        let object ← lambdaObject callable kind flags location
        let defaults ← lowerExprs setting (host.offset.body b) location params.defaults
        let keywordDefaults ← keywordMapping callable.outer fun names =>
          lowerKeywordDefaults setting (host.offset.body b) location names params.keywordDefaults
        let value ← lowerExpr setting (object.getD callable.function) location body
        attachLambda callable object value
        return creation callable defaults keywordDefaults none)
      (IR.Expr.shift host.offset) := by
  refine (mirrors_buildCallable setting hb kind "<lambda>" none flags params location).bind
    fun callable m hm hcallable => ?_
  refine (mirrors_lambdaObject hcallable kind flags location).bind fun object k hk hobject => ?_
  have hbk : b.index < k := Nat.lt_of_lt_of_le hb (Nat.le_trans hm hk)
  refine (hdefaults k b hbk).bind fun defaults => ?_
  refine (mirrors_keywordMapping hcallable.outer.1 fun names => hkeywords k b names hbk).bind
    fun keywordDefaults => ?_
  have hcode : (object.getD callable.function).index < k := by
    cases object with
    | none => exact (hcallable.function.mono hk).2
    | some object => exact (hobject object rfl).2
  have hvalue := hbody k _ hcode
  rw [show host.offset.body (object.getD callable.function) = (object.map host.offset.body).getD
    (callable.shift host.offset).function by cases object <;> rfl] at hvalue
  exact hvalue.bind fun value => (mirrors_attachLambda (hcallable.mono hk) hobject value).bind
    fun _ => mirrors_pure (shift_creation host.offset callable defaults keywordDefaults none)

mutual

theorem mirrors_lowerExpr (host : Store) (setting : Setting) : ∀ (e : Surface.Expr) (n : Nat)
    (b : BodyId) (location : Location), b.index < n →
    Mirrors host n (lowerExpr setting b location e)
      (lowerExpr setting (host.offset.body b) location e) (IR.Expr.shift host.offset)
  | .name id, n, b, location, hb => by
    rw [lowerExpr, lowerExpr]
    exact mirrors_reference b id
  | .constant value, n, b, location, hb => by
    rw [lowerExpr, lowerExpr]
    exact mirrors_pure rfl
  | .call callee args, n, b, location, hb => by
    rw [lowerExpr, lowerExpr]
    exact (mirrors_lowerExpr host setting callee n b location hb).bind fun callee =>
      (mirrors_lowerExprs host setting args n b location hb).bind fun args =>
        mirrors_pure (by simp [IR.Expr.shift])
  | .binary left op right, n, b, location, hb => by
    rw [lowerExpr, lowerExpr]
    exact (mirrors_lowerExpr host setting left n b location hb).bind fun left =>
      (mirrors_lowerExpr host setting right n b location hb).bind fun right => mirrors_pure rfl
  | .attribute value name, n, b, location, hb => by
    rw [lowerExpr, lowerExpr]
    exact (mirrors_lowerExpr host setting value n b location hb).bind fun value =>
      (mirrors_spell b name).bind fun name => mirrors_pure rfl
  | .tuple items, n, b, location, hb => by
    rw [lowerExpr, lowerExpr]
    exact (mirrors_lowerExprs host setting items n b location hb).bind fun items =>
      mirrors_pure (by simp [IR.Expr.shift])
  | .yield value, n, b, location, hb => by
    rw [lowerExpr, lowerExpr]
    refine (mirrors_kindOf b).bind fun kind =>
      mirrors_ite (fun _ => ?_) fun _ => mirrors_rejected
    exact (mirrors_lowerOption host setting value n b location hb).bind fun value =>
      mirrors_pure (by simp [IR.Expr.shift])
  | .yieldFrom value, n, b, location, hb => by
    rw [lowerExpr, lowerExpr]
    refine (mirrors_kindOf b).bind fun kind =>
      mirrors_ite (fun _ => ?_) fun _ => mirrors_rejected
    refine (mirrors_kindOf b).bind fun kind =>
      mirrors_ite (fun _ => mirrors_rejected) fun _ => ?_
    exact (mirrors_lowerExpr host setting value n b location hb).bind fun value =>
      mirrors_pure rfl
  | .await value, n, b, location, hb => by
    rw [lowerExpr, lowerExpr]
    refine (mirrors_kindOf b).bind fun kind =>
      mirrors_ite (fun _ => ?_) fun _ => mirrors_rejected
    exact (mirrors_lowerExpr host setting value n b location hb).bind fun value =>
      mirrors_pure rfl
  | .lambda ⟨⟨positional, defaults, star, keywordOnly, keywordDefaults, doubleStar⟩, body, place⟩,
      n, b, location, hb => by
    rw [lowerExpr, lowerExpr, lowerLambda, lowerLambda]
    exact mirrors_lambda hb (mirrors_lowerExprs host setting defaults · · place)
      (mirrors_lowerKeywordDefaults host setting keywordDefaults · · place)
      (mirrors_lowerExpr host setting body · · place)

theorem mirrors_lowerExprs (host : Store) (setting : Setting) : ∀ (es : List Surface.Expr)
    (n : Nat) (b : BodyId) (location : Location), b.index < n →
    Mirrors host n (lowerExprs setting b location es)
      (lowerExprs setting (host.offset.body b) location es)
      (List.map (IR.Expr.shift host.offset))
  | [], n, b, location, hb => by
    rw [lowerExprs, lowerExprs]
    exact mirrors_pure rfl
  | first :: rest, n, b, location, hb => by
    rw [lowerExprs, lowerExprs]
    exact (mirrors_lowerExpr host setting first n b location hb).bind fun first =>
      (mirrors_lowerExprs host setting rest n b location hb).bind fun rest => mirrors_pure rfl

theorem mirrors_lowerOption (host : Store) (setting : Setting) : ∀ (value : Option Surface.Expr)
    (n : Nat) (b : BodyId) (location : Location), b.index < n →
    Mirrors host n (lowerOption setting b location value)
      (lowerOption setting (host.offset.body b) location value)
      (Option.map (IR.Expr.shift host.offset))
  | none, n, b, location, hb => by
    rw [lowerOption, lowerOption]
    exact mirrors_pure rfl
  | some value, n, b, location, hb => by
    rw [lowerOption, lowerOption]
    exact (mirrors_lowerExpr host setting value n b location hb).bind fun _ => mirrors_pure rfl

theorem mirrors_lowerKeywordDefaults (host : Store) (setting : Setting) :
    ∀ (values : List (Option Surface.Expr)) (n : Nat) (b : BodyId) (location : Location)
      (names : List String), b.index < n →
      Mirrors host n (lowerKeywordDefaults setting b location names values)
        (lowerKeywordDefaults setting (host.offset.body b) location names values)
        (List.map (IR.entryShift host.offset))
  | [], n, b, location, names, hb => by
    cases names <;> exact mirrors_pure rfl
  | none :: rest, n, b, location, names, hb => by
    cases names with
    | nil => exact mirrors_pure rfl
    | cons name names =>
      rw [lowerKeywordDefaults, lowerKeywordDefaults]
      exact mirrors_lowerKeywordDefaults host setting rest n b location names hb
  | some value :: rest, n, b, location, names, hb => by
    cases names with
    | nil => exact mirrors_pure rfl
    | cons name names =>
      rw [lowerKeywordDefaults, lowerKeywordDefaults]
      exact (mirrors_lowerExpr host setting value n b location hb).bind fun value =>
        (mirrors_lowerKeywordDefaults host setting rest n b location names hb).bind fun rest =>
          mirrors_pure rfl

end

/-! ## Definitions -/

theorem mirrors_lowerHint (setting : Setting) (hb : b.index < n) (location : Location)
    (written : String × Surface.Expr) :
    Mirrors host n (lowerHint setting b location written)
      (lowerHint setting (host.offset.body b) location written) (IR.entryShift host.offset) := by
  have hvalue : ∀ key, Mirrors host n
      (do
        let value ← lowerExpr setting b location written.2
        return (key, value))
      (do
        let value ← lowerExpr setting (host.offset.body b) location written.2
        return (key, value)) (IR.entryShift host.offset) := fun key =>
    (mirrors_lowerExpr host setting written.2 n b location hb).bind fun value => mirrors_pure rfl
  unfold lowerHint
  refine mirrors_ite (fun _ => ?_) fun _ => ?_
  · exact (mirrors_spell b written.1).bind hvalue
  · exact Mirrors.bind (r := id) (mirrors_pure rfl) hvalue

theorem mirrors_lowerAnnotations (setting : Setting) (hb : b.index < n) (location : Location)
    (params : Params) (returns : Option Surface.Expr) :
    Mirrors host n (lowerAnnotations setting b location params returns)
      (lowerAnnotations setting (host.offset.body b) location params returns)
      (Option.map (IR.Expr.shift host.offset)) := by
  unfold lowerAnnotations
  refine mirrors_ite (fun _ => mirrors_pure rfl) fun _ => ?_
  exact (mirrors_mapM fun written _ => mirrors_lowerHint setting hb location written).bind
    fun entries => mirrors_pure (congrArg some (IR.Expr.shift_ofEntries host.offset entries))

theorem mirrors_lowerKeywordMapping (setting : Setting) (hb : b.index < n) {holder : BodyId}
    (hh : holder ≠ ⟨0⟩) (location : Location) (params : Params) :
    Mirrors host n (lowerKeywordMapping setting b holder location params)
      (lowerKeywordMapping setting (host.offset.body b) (host.offset.body holder) location params)
      (Option.map (IR.Expr.shift host.offset)) :=
  mirrors_keywordMapping hh fun names =>
    mirrors_lowerKeywordDefaults host setting params.keywordDefaults n b location names hb

/-- The statements of a body are lowered alike. -/
def MirrorsStatements (host : Store) (lowerBody : BodyId → Lowering (List IR.Stmt)) : Prop :=
  ∀ n c, c.index < n →
    Mirrors host n (lowerBody c) (lowerBody (host.offset.body c))
      (List.map (IR.Stmt.shift host.offset))

section Definitions

variable {lowerBody : BodyId → Lowering (List IR.Stmt)}

theorem mirrors_lowerFrameWith (h : MirrorsStatements host lowerBody) (hc : Inner n c)
    (statements : List Surface.Stmt) (code : CodeObject) :
    Mirrors host n (lowerFrameWith c statements code (lowerBody c))
      (lowerFrameWith (host.offset.body c) statements code (lowerBody (host.offset.body c)))
      (Option.map (IR.Block.shift host.offset)) := by
  unfold lowerFrameWith
  refine (mirrors_openScope hc.1 statements).bind fun _ => (h n c hc.2).bind fun lowered => ?_
  refine mirrors_pure ?_
  cases lowered with
  | nil => rfl
  | cons first rest => exact congrArg some (IR.Block.shift_ofFrame host.offset code _)

theorem mirrors_plainCodeBody {callable : Callable} (h : callable.Inner n) (kind : CallableKind)
    (d : Surface.Def) (flags : Flags) :
    MirrorsTo host n (plainCodeBody callable kind d flags)
      (plainCodeBody (callable.shift host.offset) kind d flags) host.offset.body Inner := by
  unfold plainCodeBody
  split
  · exact mirrorsTo_pure rfl fun m hm => h.function.mono hm
  · refine (mirrors_createObject h .generator d.name flags d.location).bind
      fun object m hm hobject => ?_
    exact (mirrors_attachCode h.function.1
      (shift_manufacture host.offset callable .generator object)).bind fun _ =>
        mirrorsTo_pure rfl fun m' hm' => hobject.mono hm'
  · exact mirrors_throw

/-- What a definition creates, with its decorators applied. -/
theorem shift_decorated (callable : Callable) (decorators defaults : List IR.Expr)
    (keywordDefaults annotations : Option IR.Expr) :
    (decorate decorators (creation callable defaults keywordDefaults annotations)).shift
        host.offset =
      decorate (decorators.map (IR.Expr.shift host.offset))
        (creation (callable.shift host.offset) (defaults.map (IR.Expr.shift host.offset))
          (keywordDefaults.map (IR.Expr.shift host.offset))
          (annotations.map (IR.Expr.shift host.offset))) := by
  rw [shift_decorate, shift_creation]

theorem mirrors_lowerPlainDefWith (setting : Setting) (d : Surface.Def)
    (h : MirrorsStatements host lowerBody) (hb : b.index < n) :
    Mirrors host n (lowerPlainDefWith setting b d lowerBody)
      (lowerPlainDefWith setting (host.offset.body b) d lowerBody)
      (IR.Stmt.shift host.offset) := by
  unfold lowerPlainDefWith
  dsimp only
  refine (mirrors_buildCallable setting hb _ d.name _ _ d.params d.location).bind
    fun callable m hm hcallable => ?_
  refine (mirrors_plainCodeBody hcallable _ d _).bind fun c k hk hc => ?_
  have hbk : b.index < k := Nat.lt_of_lt_of_le hb (Nat.le_trans hm hk)
  have hcallable := hcallable.mono hk
  refine (mirrors_lowerExprs host setting d.decorators.reverse k b d.location hbk).bind
    fun decorators => ?_
  refine (mirrors_lowerExprs host setting d.params.defaults k b d.location hbk).bind
    fun defaults => ?_
  refine (mirrors_lowerKeywordMapping setting hbk hcallable.outer.1 d.location d.params).bind
    fun keywordDefaults => ?_
  refine (mirrors_lowerFrameWith h hc _ callable.code).bind fun frame => ?_
  refine (mirrors_attachCode hc.1 (shift_plainCode host.offset _ frame)).bind fun _ => ?_
  refine (mirrors_lowerAnnotations setting hbk d.location d.params d.returns).bind
    fun annotations => (mirrors_kindOf b).bind fun kind => ?_
  refine mirrors_bindDefinition b d.name ?_
  rw [shift_decorated, map_shift_addImplicit]
  rfl

theorem mirrors_lowerAsyncDefWith (setting : Setting) (d : Surface.Def)
    (h : MirrorsStatements host lowerBody) (hb : b.index < n) :
    Mirrors host n (lowerAsyncDefWith setting b d lowerBody)
      (lowerAsyncDefWith setting (host.offset.body b) d lowerBody)
      (IR.Stmt.shift host.offset) := by
  unfold lowerAsyncDefWith
  dsimp only
  cases asyncObject? (setting.classify (Surface.undocumented d.body) .coroutine).1 with
  | none => exact mirrors_throw
  | some objectKind =>
    refine (mirrors_buildCallable setting hb _ d.name _ _ d.params d.location).bind
      fun callable m hm hcallable => ?_
    refine (mirrors_createObject hcallable objectKind d.name _ d.location).bind
      fun object k hk hobject => ?_
    have hbk : b.index < k := Nat.lt_of_lt_of_le hb (Nat.le_trans hm hk)
    have hcallable := hcallable.mono hk
    refine (mirrors_lowerExprs host setting d.decorators.reverse k b d.location hbk).bind
      fun decorators => ?_
    refine (mirrors_lowerExprs host setting d.params.defaults k b d.location hbk).bind
      fun defaults => ?_
    refine (mirrors_lowerFrameWith h hobject _ callable.code).bind fun frame => ?_
    refine (mirrors_attachCode hobject.1
      (IR.Block.shift_closeWith host.offset .objectRetNone frame)).bind fun _ => ?_
    refine (mirrors_lowerAnnotations setting hbk d.location d.params d.returns).bind
      fun annotations => ?_
    refine (mirrors_lowerKeywordMapping setting hbk hcallable.outer.1 d.location d.params).bind
      fun keywordDefaults => ?_
    refine (mirrors_attachCode hcallable.function.1
      (shift_manufacture host.offset callable objectKind object)).bind fun _ => ?_
    have hcopy : Mirrors host k (modify fun s => s.copyNonlocals object callable.function)
        (modify fun s => s.copyNonlocals (host.offset.body object)
          (host.offset.body callable.function)) id :=
      mirrors_modify
        (fun s hs => Store.adjoin_modifyBody hs.hosted hcallable.function.1 fun body => by
          rw [Store.body_adjoin hs.hosted hobject.1]
          rfl)
        fun _ hs => hs.follows_modifyBody hcallable.function.1 fun _ => rfl
    refine hcopy.bind fun _ => ?_
    exact mirrors_bindDefinition b d.name
      (shift_decorated callable decorators defaults keywordDefaults annotations)

theorem mirrors_lowerDefWith (setting : Setting) (d : Surface.Def)
    (h : MirrorsStatements host lowerBody) (hb : b.index < n) :
    Mirrors host n (lowerDefWith setting b d lowerBody)
      (lowerDefWith setting (host.offset.body b) d lowerBody) (IR.Stmt.shift host.offset) := by
  unfold lowerDefWith
  exact mirrors_ite (fun _ => mirrors_lowerAsyncDefWith setting d h hb)
    fun _ => mirrors_lowerPlainDefWith setting d h hb

theorem mirrors_lowerClassDefWith (setting : Setting) (d : Surface.ClassDef)
    (h : MirrorsStatements host lowerBody) (hb : b.index < n) :
    Mirrors host n (lowerClassDefWith setting b d lowerBody)
      (lowerClassDefWith setting (host.offset.body b) d lowerBody)
      (IR.Stmt.shift host.offset) := by
  unfold lowerClassDefWith
  refine (mirrors_lowerExprs host setting d.decorators.reverse n b d.location hb).bind
    fun decorators => ?_
  refine (mirrors_lowerExprs host setting d.bases n b d.location hb).bind fun bases => ?_
  refine (mirrors_createBody _ fun p hp => ?_).bind fun c m hm hc => ?_
  · cases hp
    exact hb
  · refine (mirrors_openScope hc.1 (Surface.undocumented d.body)).bind fun _ =>
      (h m c hc.2).bind fun lowered => ?_
    refine (mirrors_attachCode hc.1
      (IR.Block.shift_ofStatements host.offset lowered)).bind fun _ => ?_
    refine mirrors_bindDefinition b d.name ?_
    rw [shift_decorate, IR.Expr.shift, IR.exprsShift_eq]

end Definitions

/-! ## Statements -/

theorem mirrors_checkReturn (b : BodyId) (location : Location) (hasValue : Bool) :
    Mirrors host n (checkReturn b location hasValue)
      (checkReturn (host.offset.body b) location hasValue) id := by
  unfold checkReturn
  refine (mirrors_kindOf b).bind fun kind => ?_
  dsimp only [id]
  split
  · exact mirrors_reject
  · exact mirrors_reject
  · exact mirrors_ite (fun _ => mirrors_reject) fun _ => mirrors_pure rfl
  · exact mirrors_pure rfl

mutual

theorem mirrors_lowerStmt (host : Store) (setting : Setting) : ∀ (statement : Surface.Stmt)
    (n : Nat) (b : BodyId), b.index < n →
    Mirrors host n (lowerStmt setting b statement)
      (lowerStmt setting (host.offset.body b) statement)
      (Option.map (IR.Stmt.shift host.offset))
  | ⟨kind, location⟩, n, b, hb => by
    rw [lowerStmt, lowerStmt]
    exact mirrors_lowerKind host setting kind n b location hb

theorem mirrors_lowerKind (host : Store) (setting : Setting) : ∀ (kind : Surface.StmtKind)
    (n : Nat) (b : BodyId) (location : Location), b.index < n →
    Mirrors host n (lowerKind setting b location kind)
      (lowerKind setting (host.offset.body b) location kind)
      (Option.map (IR.Stmt.shift host.offset))
  | .expr value, n, b, location, hb => by
    rw [lowerKind, lowerKind]
    exact (mirrors_lowerExpr host setting value n b location hb).bind fun value =>
      mirrors_pure rfl
  | .assign target value, n, b, location, hb => by
    rw [lowerKind, lowerKind]
    exact (mirrors_lowerExpr host setting value n b location hb).bind fun source =>
      (mirrors_spell b target).bind fun name =>
        (mirrors_bindName b name rfl).bind fun statement => mirrors_pure rfl
  | .pass, n, b, location, hb => by
    rw [lowerKind, lowerKind]
    exact mirrors_pure rfl
  | .global _, n, b, location, hb => by
    rw [lowerKind, lowerKind]
    exact mirrors_pure rfl
  | .nonlocal _, n, b, location, hb => by
    rw [lowerKind, lowerKind]
    exact mirrors_pure rfl
  | .ret value, n, b, location, hb => by
    rw [lowerKind, lowerKind]
    exact (mirrors_checkReturn b location value.isSome).bind fun _ =>
      (mirrors_lowerOption host setting value n b location hb).bind fun value =>
        (mirrors_kindOf b).bind fun kind =>
          mirrors_pure (congrArg some (shift_returnStmt host.offset kind value))
  | .raise value, n, b, location, hb => by
    rw [lowerKind, lowerKind]
    exact (mirrors_lowerOption host setting value n b location hb).bind fun value =>
      mirrors_pure (by simp [IR.Stmt.shift])
  | .branch test body orelse, n, b, location, hb => by
    rw [lowerKind, lowerKind]
    exact (mirrors_lowerExpr host setting test n b location hb).bind fun condition =>
      (mirrors_lowerStmts host setting body n b hb).bind fun yes =>
        (mirrors_lowerStmts host setting orelse n b hb).bind fun no =>
          mirrors_pure (by simp [IR.Stmt.shift, IR.Block.shift_ofNonempty])
  | .loop test body, n, b, location, hb => by
    rw [lowerKind, lowerKind]
    exact (mirrors_lowerExpr host setting test n b location hb).bind fun condition =>
      (mirrors_lowerStmts host setting body n b hb).bind fun body =>
        mirrors_pure (by simp [IR.Stmt.shift, IR.Block.shift_ofNonempty])
  | .define ⟨name, params, body, decorators, returns, isAsync, place⟩, n, b, location, hb => by
    rw [lowerKind, lowerKind, lowerDef, lowerDef]
    exact (mirrors_lowerDefWith setting _ (mirrors_lowerUndocumented host setting body) hb).bind
      fun statement => mirrors_pure rfl
  | .defineClass ⟨name, bases, body, decorators, place⟩, n, b, location, hb => by
    rw [lowerKind, lowerKind, lowerClassDef, lowerClassDef]
    exact (mirrors_lowerClassDefWith setting _ (mirrors_lowerUndocumented host setting body)
      hb).bind fun statement => mirrors_pure rfl

/-- Lowering statements behind a host gives what it gives in the guest, but for numbers. -/
theorem mirrors_lowerStmts (host : Store) (setting : Setting) :
    ∀ (statements : List Surface.Stmt) (n : Nat) (b : BodyId), b.index < n →
    Mirrors host n (lowerStmts setting b statements)
      (lowerStmts setting (host.offset.body b) statements)
      (List.map (IR.Stmt.shift host.offset))
  | [], n, b, hb => by
    rw [lowerStmts, lowerStmts]
    exact mirrors_pure rfl
  | first :: rest, n, b, hb => by
    rw [lowerStmts, lowerStmts]
    exact (mirrors_lowerStmt host setting first n b hb).bind fun head =>
      (mirrors_lowerStmts host setting rest n b hb).bind fun tail =>
        mirrors_pure (by cases head <;> simp)

theorem mirrors_lowerUndocumented (host : Store) (setting : Setting) :
    ∀ (statements : List Surface.Stmt) (n : Nat) (b : BodyId), b.index < n →
    Mirrors host n (lowerUndocumented setting b statements)
      (lowerUndocumented setting (host.offset.body b) statements)
      (List.map (IR.Stmt.shift host.offset))
  | [], n, b, hb => by
    rw [lowerUndocumented, lowerUndocumented]
    exact mirrors_pure rfl
  | first :: rest, n, b, hb => by
    rw [lowerUndocumented, lowerUndocumented]
    refine mirrors_ite (fun _ => mirrors_lowerStmts host setting rest n b hb) fun _ => ?_
    exact (mirrors_lowerStmt host setting first n b hb).bind fun head =>
      (mirrors_lowerStmts host setting rest n b hb).bind fun tail =>
        mirrors_pure (by cases head <;> simp)

end

end Lowering

end DefinitionLowering
