import DefinitionLowering.Proofs.Occurrences
import DefinitionLowering.Proofs.Opening

/-!
# Steps that lower parts

`Lowers dialect places x parts Q` says what a step does to the parts of the innermost of some
places.  It fails with one of their violations; or there are none, the places stay settled, each
new body belongs to one place of a nested scope, and the names of the result, which `Q` lists,
denote what the resolver says.

The rules put such steps together in the order in which the lowering takes them, and each adds
its parts before or behind those of the other.
-/

namespace DefinitionLowering

open IR (BodyId VariableId Store)
open Surface (Part Scope Role partsPlain partsViolations spellAt resolve)

variable {n m : Nat} {places outer : List Place} {p : Place} {s s' s'' : Store} {b c : BodyId}
  {bodies more : List BodyId} {dialect : Dialect} {parts others : List Part}
  {names after : List Occurrence} {trees groves : List PlaceTree}

/-! ## Later stores with settled places -/

/-- A later store in which some places are still settled.  The first `n` bodies have changed in
what the bodies of the places see only, and `bodies` are those that are new. -/
structure Advances (n : Nat) (places : List Place) (s s' : Store) (bodies : List BodyId) :
    Prop where
  wellFormed : s'.WellFormed
  grows : Store.Grows n s s'
  settled : AllSettled s' places
  frame : ∀ c : BodyId, c.index < n → c ∉ bodiesOf places → s'.visible c = s.visible c
  covers : ∀ c : BodyId, bodies.count c =
    if s.bodies.size ≤ c.index ∧ c.index < s'.bodies.size then 1 else 0

namespace Advances

/-- Nothing has happened. -/
theorem refl (hs : s.WellFormed) (h : AllSettled s places) : Advances n places s s [] where
  wellFormed := hs
  grows := Store.Grows.refl n s
  settled := h
  frame _ _ _ := rfl
  covers c := by
    rw [List.count_nil, if_neg]
    omega

theorem mono (h : Advances m places s s' bodies) (hn : n ≤ m) : Advances n places s s' bodies :=
  { h with
    grows := h.grows.mono hn
    frame := fun c hc => h.frame c (Nat.lt_of_lt_of_le hc hn) }

theorem trans (h : Advances n places s s' bodies) (h' : Advances m places s' s'' more)
    (hn : n ≤ m) : Advances n places s s'' (bodies ++ more) where
  wellFormed := h'.wellFormed
  grows := h.grows.trans h'.grows hn
  settled := h'.settled
  frame c hc hmem :=
    (h'.frame c (Nat.lt_of_lt_of_le hc hn) hmem).trans (h.frame c hc hmem)
  covers c := by
    have hle := h.grows.bodies
    have hle' := h'.grows.bodies
    rw [List.count_append, h.covers, h'.covers]
    split <;> split <;> split <;> omega

/-- The order in which new bodies are listed does not matter. -/
theorem reorder (h : Advances n places s s' bodies) (hperm : bodies.Perm more) :
    Advances n places s s' more :=
  { h with covers := fun c => (hperm.count_eq c).symm.trans (h.covers c) }

/-- A new body is none of the bodies before. -/
theorem new (h : Advances n places s s' bodies) (hc : c ∈ bodies) :
    s.bodies.size ≤ c.index ∧ c.index < s'.bodies.size := by
  have hpos := List.count_pos_iff.2 hc
  rw [h.covers] at hpos
  by_contra hnot
  rw [if_neg hnot] at hpos
  exact Nat.lt_irrefl _ hpos

/-- What the places inside do is done by those around, if the inner place is new. -/
theorem leave (h : Advances m (p :: outer) s s' bodies) (hn : n ≤ m)
    (hp : ∀ c ∈ p.bodies, n ≤ c.index) : Advances n outer s s' bodies where
  wellFormed := h.wellFormed
  grows := h.grows.mono hn
  settled := h.settled.2
  frame c hc hmem := by
    refine h.frame c (Nat.lt_of_lt_of_le hc hn) fun hin => ?_
    rcases List.mem_append.1 hin with hin | hin
    · exact Nat.not_lt.2 (hp c hin) hc
    · exact hmem hin
  covers := h.covers

/-- A change that keeps what all bodies see and adds none. -/
theorem of_visible (hs : s.WellFormed) (h : AllSettled s places) (hwf : s'.WellFormed)
    (hg : Store.Grows n s s') (hold : ∀ c ∈ bodiesOf places, c.index < n)
    (hvisible : ∀ c, s'.visible c = s.visible c) (hsize : s'.bodies.size = s.bodies.size) :
    Advances n places s s' [] where
  wellFormed := hwf
  grows := hg
  settled := h.grow hs hg hold fun c _ => seesMore_of_visible hs hg (hvisible c)
  frame c _ _ := hvisible c
  covers c := by
    rw [List.count_nil, if_neg]
    omega

end Advances

/-! ## Parts that have been lowered -/

/-- Some parts are free of violations, and these are the names and places they became. -/
structure Renders (dialect : Dialect) (s : Store) (places : List Place) (parts : List Part)
    (names : List Occurrence) (trees : List PlaceTree) : Prop where
  valid : partsViolations dialect (scopesOf places) parts = []
  resolved : PartsResolved s places parts names trees

namespace Renders

theorem nil : Renders dialect s places [] [] [] :=
  ⟨rfl, rfl, rfl⟩

theorem append (h : Renders dialect s places parts names trees)
    (h' : Renders dialect s places others after groves) :
    Renders dialect s places (parts ++ others) (names ++ after) (trees ++ groves) where
  valid := by rw [Surface.partsViolations_append, h.valid, h'.valid, List.append_nil]
  resolved := h.resolved.append h'.resolved

theorem later (h : Renders dialect s places parts names trees) (hs : s.WellFormed)
    (ha : Advances n places s s' bodies) : Renders dialect s' places parts names trees where
  valid := h.valid
  resolved := PartsResolved.carry (carries_of_grows hs ha.grows) _ _ _ _ h.resolved

/-- One part without violations. -/
theorem single {part : Part} (hvalid : part.violations dialect (scopesOf places) = [])
    (h : PartResolved s places part names trees) :
    Renders dialect s places [part] names trees where
  valid := by
    rw [partsViolations, hvalid]
    rfl
  resolved := partsResolved_single h

end Renders

/-- What some steps do on the way to a later store: the bodies that are new, and what some parts
were lowered to. -/
structure Progress (dialect : Dialect) (n : Nat) (places : List Place) (s s' : Store)
    (bodies : List BodyId) (parts : List Part) (names : List Occurrence)
    (trees : List PlaceTree) : Prop where
  advances : Advances n places s s' bodies
  renders : Renders dialect s' places parts names trees

namespace Progress

/-- Steps that lower no part. -/
theorem bare (h : Advances n places s s' bodies) :
    Progress dialect n places s s' bodies [] [] [] :=
  ⟨h, .nil⟩

theorem le (h : Progress dialect n places s s' bodies parts names trees) :
    s.bodies.size ≤ s'.bodies.size :=
  h.advances.grows.bodies

/-- The parts of later steps stand behind those of earlier ones. -/
theorem append (h : Progress dialect n places s s' bodies parts names trees)
    (h' : Progress dialect m places s' s'' more others after groves) (hn : n ≤ m) :
    Progress dialect n places s s'' (bodies ++ more) (parts ++ others) (names ++ after)
      (trees ++ groves) where
  advances := h.advances.trans h'.advances hn
  renders := (h.renders.later h.advances.wellFormed h'.advances).append h'.renders

/-- The parts of later steps stand in front of those of earlier ones. -/
theorem append_front (h : Progress dialect n places s s' bodies parts names trees)
    (h' : Progress dialect m places s' s'' more others after groves) (hn : n ≤ m) :
    Progress dialect n places s s'' (bodies ++ more) (others ++ parts) (after ++ names)
      (groves ++ trees) where
  advances := h.advances.trans h'.advances hn
  renders := h'.renders.append (h.renders.later h.advances.wellFormed h'.advances)

/-- A step that lowers no part and creates no body. -/
theorem later (h : Progress dialect n places s s' bodies parts names trees)
    (ha : Advances m places s' s'' []) (hn : n ≤ m) :
    Progress dialect n places s s'' bodies parts names trees := by
  simpa only [List.append_nil] using h.append (.bare ha) hn

end Progress

/-- The bodies of the places of some trees. -/
abbrev treeBodies (trees : List PlaceTree) : List BodyId :=
  bodiesOf (forestPlaces trees)

theorem treeBodies_append (trees groves : List PlaceTree) :
    treeBodies (trees ++ groves) = treeBodies trees ++ treeBodies groves := by
  rw [treeBodies, forestPlaces_append, bodiesOf, List.flatMap_append]
  rfl

namespace Lowering

variable {α β : Type} {x : Lowering α} {f : α → Lowering β} {P Q : α → List Occurrence → Prop}
  {R : β → List Occurrence → Prop}

/-- How a step ends that lowers parts of the innermost of some places, from a store on. -/
def LowersFrom (s : Store) (dialect : Dialect) (places : List Place) (x : Lowering α)
    (parts : List Part) (Q : α → List Occurrence → Prop) : Prop :=
  partsPlain parts = true → Ends x s
    (fun a s' => ∃ names trees, Q a names ∧
      Advances s.bodies.size places s s' (treeBodies trees) ∧
      Renders dialect s' places parts names trees)
    fun failure _ => FailsIn (partsViolations dialect (scopesOf places) parts) failure

/-- A step lowers parts of the innermost of some places, whenever these are settled. -/
def Lowers (dialect : Dialect) (places : List Place) (x : Lowering α) (parts : List Part)
    (Q : α → List Occurrence → Prop) : Prop :=
  ∀ s, s.WellFormed → AllSettled s places → LowersFrom s dialect places x parts Q

theorem lowersFrom_pure (hs : s.WellFormed) (h : AllSettled s places) {a : α} (hQ : Q a []) :
    LowersFrom s dialect places (pure a) [] Q :=
  fun _ => ⟨[], [], hQ, .refl hs h, .nil⟩

theorem lowers_pure {a : α} (hQ : Q a []) : Lowers dialect places (pure a) [] Q :=
  fun _ hs h => lowersFrom_pure hs h hQ

/-- Two steps one after the other, the parts of the second behind those of the first. -/
theorem LowersFrom.bind (h : LowersFrom s dialect places x parts Q)
    (hf : ∀ a s' names, Q a names → s'.WellFormed → AllSettled s' places →
      Store.Grows s.bodies.size s s' →
      LowersFrom s' dialect places (f a) others fun b after => R b (names ++ after)) :
    LowersFrom s dialect places (x >>= f) (parts ++ others) R := by
  intro hplain
  rw [Surface.partsPlain_append, Bool.and_eq_true] at hplain
  rw [ends_bind, Surface.partsViolations_append]
  refine (h hplain.1).weaken (fun a s' => ?_) fun _ _ hfail =>
    hfail.mono (List.subset_append_left _ _)
  rintro ⟨names, trees, hQ, ha, hr⟩
  refine (hf a s' names hQ ha.wellFormed ha.settled ha.grows hplain.2).weaken (fun b s'' => ?_)
    fun _ _ hfail => hfail.mono (List.subset_append_right _ _)
  rintro ⟨after, groves, hR, ha', hr'⟩
  have h := (Progress.mk ha hr).append ⟨ha', hr'⟩ ha.grows.bodies
  rw [← treeBodies_append] at h
  exact ⟨_, trees ++ groves, hR, h.advances, h.renders⟩

theorem Lowers.bind (h : Lowers dialect places x parts Q)
    (hf : ∀ a names, Q a names →
      Lowers dialect places (f a) others fun b after => R b (names ++ after)) :
    Lowers dialect places (x >>= f) (parts ++ others) R :=
  fun s hs hsettled => (h s hs hsettled).bind fun a s' names hQ hs' hsettled' _ =>
    hf a names hQ s' hs' hsettled'

/-- Two steps one after the other, the parts of the second in front of those of the first. -/
theorem Lowers.bind_front (h : Lowers dialect places x parts Q)
    (hf : ∀ a names, Q a names →
      Lowers dialect places (f a) others fun b before => R b (before ++ names)) :
    Lowers dialect places (x >>= f) (others ++ parts) R := by
  intro s hs hsettled hplain
  rw [Surface.partsPlain_append, Bool.and_eq_true] at hplain
  rw [ends_bind, Surface.partsViolations_append]
  refine (h s hs hsettled hplain.2).weaken (fun a s' => ?_) fun _ _ hfail =>
    hfail.mono (List.subset_append_right _ _)
  rintro ⟨names, trees, hQ, ha, hr⟩
  refine (hf a names hQ s' ha.wellFormed ha.settled hplain.1).weaken (fun b s'' => ?_)
    fun _ _ hfail => hfail.mono (List.subset_append_left _ _)
  rintro ⟨before, groves, hR, ha', hr'⟩
  have h := (Progress.mk ha hr).append_front ⟨ha', hr'⟩ ha.grows.bodies
  refine ⟨_, groves ++ trees, hR, h.advances.reorder ?_, h.renders⟩
  rw [treeBodies_append]
  exact List.perm_append_comm

/-- A step followed by one that lowers no part. -/
theorem Lowers.bind_nil (h : Lowers dialect places x parts Q)
    (hf : ∀ a names, Q a names →
      Lowers dialect places (f a) [] fun b after => R b (names ++ after)) :
    Lowers dialect places (x >>= f) parts R := by
  rw [← List.append_nil parts]
  exact h.bind hf

/-- What is made of the value of a step. -/
theorem Lowers.map {g : α → β} (h : Lowers dialect places x parts Q)
    (hg : ∀ a names, Q a names → R (g a) names) :
    Lowers dialect places (x >>= fun a => pure (g a)) parts R :=
  h.bind_nil fun a names hQ => lowers_pure (by rw [List.append_nil]; exact hg a names hQ)

/-- What is read off the store makes no difference. -/
theorem lowers_query {g : Store → β} {k : β → Lowering α}
    (h : ∀ value, Lowers dialect places (k value) parts Q) :
    Lowers dialect places (query g >>= k) parts Q :=
  fun s hs hsettled => h (g s) s hs hsettled

/-- The code of a scope has the kind of the scope. -/
theorem lowers_kindOf {k : BodyKind → Lowering α}
    (h : Lowers dialect (p :: outer) (k p.scope.kind) parts Q) :
    Lowers dialect (p :: outer) (kindOf p.code >>= k) parts Q := fun s hs hsettled => by
  have := h s hs hsettled
  rw [← hsettled.1.kind] at this
  exact this

/-- A part that leaves nothing behind in the code. -/
theorem Lowers.part {part : Part} (h : Lowers dialect places x parts Q)
    (hvalid : part.violations dialect (scopesOf places) = [])
    (hpart : ∀ s, PartResolved s places part [] []) :
    Lowers dialect places x (part :: parts) Q := by
  intro s hs hsettled hplain
  have hplain := (Bool.and_eq_true _ _ ▸ hplain : _ ∧ partsPlain parts = true)
  rw [partsViolations, hvalid, List.nil_append]
  refine (h s hs hsettled hplain.2).weaken (fun a s' => ?_) fun _ _ hfail => hfail
  rintro ⟨names, trees, hQ, ha, hr⟩
  exact ⟨names, trees, hQ, ha, (Renders.single hvalid (hpart s')).append hr⟩

/-- A part that is rejected. -/
theorem lowers_reject {part : Part} {cause : Cause} {location : Location} {k : β → Lowering α}
    (h : part.violations dialect (scopesOf places) = [⟨cause, location⟩]) :
    Lowers dialect places (reject cause location >>= k) (part :: parts) Q := by
  intro s _ _ _
  rw [ends_bind, ends_reject, partsViolations, h]
  exact ⟨_, List.mem_cons_self, rfl⟩

/-! ## Steps among others -/

theorem mem_partsViolations {scopes : List Scope} {r : Rejection} :
    r ∈ partsViolations dialect scopes parts ↔
      ∃ part ∈ parts, r ∈ part.violations dialect scopes := by
  induction parts with
  | nil => simp [partsViolations]
  | cons part rest ih => simp [partsViolations, ih]

theorem partsPlain_iff : partsPlain parts = true ↔ ∀ part ∈ parts, part.plain = true := by
  induction parts with
  | nil => simp [partsPlain]
  | cons part rest ih => simp [partsPlain, ih]

theorem partsViolations_subset {scopes : List Scope} (h : parts ⊆ others) :
    partsViolations dialect scopes parts ⊆ partsViolations dialect scopes others := fun _ hr =>
  have ⟨part, hpart, hr⟩ := mem_partsViolations.1 hr
  mem_partsViolations.2 ⟨part, h hpart, hr⟩

theorem violations_subset_of_mem {scopes : List Scope} {part : Part} (h : part ∈ parts) :
    part.violations dialect scopes ⊆ partsViolations dialect scopes parts := fun _ hr =>
  mem_partsViolations.2 ⟨part, h, hr⟩

/-- A last step, which lowers some of the parts in question. -/
theorem LowersFrom.last (h : LowersFrom s dialect places x parts Q) (hsub : parts ⊆ others)
    (hplain : partsPlain others = true) {done : α → Store → Prop}
    (hf : ∀ a s' names trees, Q a names →
      Progress dialect s.bodies.size places s s' (treeBodies trees) parts names trees →
      done a s') :
    Ends x s done
      fun failure _ => FailsIn (partsViolations dialect (scopesOf places) others) failure := by
  refine (h (partsPlain_iff.2 fun part hpart => partsPlain_iff.1 hplain part (hsub hpart))).weaken
    (fun a s' => ?_) fun _ _ hfail => hfail.mono (partsViolations_subset hsub)
  rintro ⟨names, trees, hQ, ha, hr⟩
  exact hf a s' names trees hQ ⟨ha, hr⟩

/-- A step that lowers some of the parts in question, and what comes then. -/
theorem LowersFrom.step (h : LowersFrom s dialect places x parts Q) (hsub : parts ⊆ others)
    (hplain : partsPlain others = true) {done : β → Store → Prop}
    (hf : ∀ a s' names trees, Q a names →
      Progress dialect s.bodies.size places s s' (treeBodies trees) parts names trees →
      Ends (f a) s' done
        fun failure _ => FailsIn (partsViolations dialect (scopesOf places) others) failure) :
    Ends (x >>= f) s done
      fun failure _ => FailsIn (partsViolations dialect (scopesOf places) others) failure := by
  rw [ends_bind]
  exact h.last hsub hplain hf

/-! ## Names -/

/-- The meaning of a spelled name, given the variable that has been found for it. -/
def referentOf (name : String) : Option VariableId → Referent
  | some v => .variable v
  | none => .free name

/-- **A name denotes what the resolver says** once it has been resolved in the code of the
innermost place. -/
theorem resolve_renders (dialect : Dialect) (hs : s.WellFormed) (h : AllSettled s (p :: outer))
    (hk : p.scope.kind ≠ .moduleBody) (role : Role) (id : String) :
    let name := spellAt (scopesOf (p :: outer)) id
    let resolved := s.resolve p.code name
    Advances s.bodies.size (p :: outer) s resolved.2 [] ∧
      Renders dialect resolved.2 (p :: outer) [.name role id]
        [⟨role, referentOf name resolved.1⟩] [] := by
  intro name resolved
  have hg := Store.Grows.resolve s.bodies.size s p.code name
  refine ⟨⟨hs.resolve p.code name, hg, settled_resolve hs p.code name h,
    fun c _ hc => visible_resolve_of_not_mem hs h name hc, fun c => ?_⟩,
    .single rfl ⟨rfl, _, rfl, fun hid => ?_⟩⟩
  · rw [List.count_nil, if_neg]
    rw [show resolved.2.bodies.size = s.bodies.size from IR.Store.size_bodies_resolve s p.code name]
    omega
  · have hname : isReserved name = false := (isReserved_spellAt _ _).trans hid
    have hfound : resolved.1 = _ :=
      (IR.Store.resolve_fst s p.code name).trans (lookup_settled hs.ordered h hk hname)
    cases hq : Surface.resolve Place.scope name (p :: outer) with
    | none =>
      rw [hq] at hfound
      rw [hfound]
      exact .of_none hq
    | some q =>
      obtain ⟨v, hv⟩ := owns_of_resolve h hname hq
      rw [hq, Option.bind_some, hv.1] at hfound
      rw [hfound]
      exact .of_some hq (hv.mono hs hg)

/-- A name of a module is left for run time. -/
theorem module_renders (hk : p.scope.kind = .moduleBody) (role : Role) (id : String) :
    Renders dialect s (p :: outer) [.name role id]
      [⟨role, .free (spellAt (scopesOf (p :: outer)) id)⟩] [] := by
  have hnone : Surface.resolve Place.scope (spellAt (scopesOf (p :: outer)) id) (p :: outer) =
      none := if_pos (.inl hk)
  exact .single rfl ⟨rfl, _, rfl, fun _ => .of_none hnone⟩

/-- A name, spelled as the scope does, is looked for unless the scope is a module, and what comes
of it depends on the variable that is found. -/
theorem lowers_sought {α : Type} (role : Role) (id : String) (found : VariableId → α) (missing : α)
    {Q : α → List Occurrence → Prop} (hfound : ∀ v, Q (found v) [⟨role, .variable v⟩])
    (hmissing : Q missing [⟨role, .free (spellAt (scopesOf (p :: outer)) id)⟩]) :
    Lowers dialect (p :: outer) (do
      if (← kindOf p.code) == .moduleBody then
        return missing
      match ← resolve p.code (spellAt (scopesOf (p :: outer)) id) with
      | some v => return found v
      | none => return missing) [.name role id] Q := by
  intro s hs h _
  rw [ends_bind, ends_kindOf, h.1.kind]
  by_cases hk : p.scope.kind = .moduleBody
  · rw [if_pos (beq_iff_eq.2 hk)]
    exact ⟨_, [], hmissing, .refl hs h, module_renders hk _ _⟩
  · rw [if_neg fun hm => hk (beq_iff_eq.1 hm), ends_bind]
    refine ends_operate.2 ?_
    obtain ⟨ha, hr⟩ := resolve_renders dialect hs h hk role id
    cases hresolve : (s.resolve p.code (spellAt (scopesOf (p :: outer)) id)).1 with
    | some v =>
      rw [hresolve] at hr
      exact ⟨_, [], hfound v, ha, hr⟩
    | none =>
      rw [hresolve] at hr
      exact ⟨_, [], hmissing, ha, hr⟩

/-- **What a name is read as.** -/
theorem lowers_reference (id : String) :
    Lowers dialect (p :: outer) (reference p.code id) [.name .read id]
      fun e names => e.occurrences = names := by
  intro s hs h hplain
  unfold reference
  rw [ends_bind, ends_spell, spell_settled hs.ordered id p outer h]
  exact lowers_sought .read id IR.Expr.var (.freeName _) (fun _ => rfl) rfl s hs h hplain

/-- **What a name is bound as.** -/
theorem lowers_bindName (target : String) (source : IR.Expr) :
    Lowers dialect (p :: outer) (spell p.code target >>= fun name => bindName p.code name source)
      [.name .bind target] fun statement names =>
        statement.occurrences = source.occurrences ++ names := by
  intro s hs h hplain
  rw [ends_bind, ends_spell, spell_settled hs.ordered target p outer h]
  unfold bindName
  exact lowers_sought .bind target (fun v => IR.Stmt.assignVariable v source)
    (IR.Stmt.assignName _ source) (fun _ => rfl) rfl s hs h hplain

end Lowering

end DefinitionLowering
