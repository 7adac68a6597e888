import Mathlib.Data.List.TakeWhile
import DefinitionLowering.Lowering.Scope
import DefinitionLowering.Proofs.WellFormed

/-!
# Captured variables

A body comes to see variables of bodies further out: a search shows them to every scope that it
passes, and the body of an object shares what its function sees.  `Threaded` is what holds of
the store all the time while a module is lowered.  A body that sees a variable of another one
sees it through the next function-like scope around (`ThreadedAt.reach`), so that following the
providers leads to the owner (`owner_mem_outerPath`).  What a body sees is not declared global;
parameters come first; and a nonlocal declaration is about a variable of a scope around that is
no parameter of the callable.

There is one preservation theorem for each operation of the store.
-/

namespace DefinitionLowering.IR.Store

open Lowering (isParameter)

variable {n : Nat} {s s' : Store} {b c p : BodyId} {v : VariableId} {name : String}
  {plan : BodyPlan}

/-- A variable is the body's own, or the next function-like scope around sees it. -/
def Reached (s : Store) (b : BodyId) (v : VariableId) : Prop :=
  (s.var v).owner = b ∨ ∃ p rest, s.outerPath b = p :: rest ∧ v ∈ s.visible p

/-- A body sees a variable of a function-like scope around under a name, and the variable is no
parameter of the callable whose statements the body holds. -/
def SeesOuter (s : Store) (b : BodyId) (name : String) : Prop :=
  ∃ v, s.find? b name = some v ∧ (s.var v).owner ∈ s.outerPath b ∧ isParameter s b name = false

/-- What a body sees is threaded through the scopes around it. -/
structure ThreadedAt (s : Store) (b : BodyId) : Prop where
  reach : ∀ v ∈ s.visible b, s.Reached b v
  disjoint : ∀ v ∈ s.visible b, (s.var v).name ∉ (s.body b).globals
  params : ∀ signature, (s.body b).signature = some signature → ∃ own, own <+: s.visible b ∧
    own.map (fun v => (s.var v).name) = signature.slots ∧
    ∀ v ∈ own, (s.var v).owner = b ∧ (s.var v).kind = .parameter
  nonlocals : ∀ d ∈ (s.body b).nonlocals, s.SeesOuter b d.name
  inherits : (s.body b).kind.isObject = true → ∀ p, (s.body b).provider = some p →
    ∀ v : VariableId, v.index < s.vars.size → (s.var v).owner = p →
      (s.var v).kind = .parameter → v ∈ s.visible b

def Threaded (s : Store) : Prop :=
  ∀ b : BodyId, b.index < s.bodies.size → s.ThreadedAt b

/-! ## The way to the owner -/

/-- **Following the function-like scopes around a body leads to the owner** of each variable it
sees. -/
theorem Threaded.owner_mem_outerPath (h : s.Threaded) (hs : s.Ordered) :
    ∀ {b : BodyId}, v ∈ s.visible b → (s.var v).owner ≠ b → (s.var v).owner ∈ s.outerPath b := by
  intro b hv hb
  rcases (h b (lt_of_mem_visible hv)).reach v hv with howner | ⟨p, rest, hpath, hp⟩
  · exact absurd howner hb
  · rw [hpath, List.mem_cons]
    by_cases howner : (s.var v).owner = p
    · exact Or.inl howner
    · right
      have hlt : p.index < b.index := hs.lt_of_mem_ancestors
        (mem_ancestors_of_mem_outerPath (hpath ▸ List.mem_cons_self))
      have hrest : s.outerPath p = rest :=
        hs.outerPath_suffix (hpath.trans (List.nil_append _).symm)
      rw [← hrest]
      exact Threaded.owner_mem_outerPath h hs hp howner
termination_by b => b.index

/-- Scopes around a body are seen from its provider. -/
theorem Ordered.outerPath_subset (h : s.Ordered) (hp : (s.body b).provider = some p) :
    s.outerPath b ⊆ s.lookupPath p := by
  by_cases hm : s.isModule p = true
  · rw [h.outerPath_of_module hp hm]
    exact List.nil_subset _
  · by_cases hc : s.isClass p = true
    · rw [h.outerPath_of_class hp (by simpa using hm) hc, lookupPath_eq]
      exact List.subset_cons_of_subset _ (List.Subset.refl _)
    · rw [h.outerPath_of_callable hp (by simpa using hm) (by simpa using hc), lookupPath_eq]
      exact List.Subset.refl _

theorem Ordered.lt_of_mem_lookupPath (h : s.Ordered) (hb : b.index < s.bodies.size)
    (hc : c ∈ s.lookupPath b) : c.index < s.bodies.size := by
  rcases List.mem_cons.1 ((lookupPath_sublist s b).subset hc) with rfl | hc
  · exact hb
  · exact Nat.lt_trans (h.lt_of_mem_ancestors hc) hb

theorem Grows.outerPath (hg : Grows n s s') (h : s.Ordered) (hb : b.index < s.bodies.size) :
    s'.outerPath b = s.outerPath b := by
  have heq := hg.lookupPath h hb
  rw [lookupPath_eq, lookupPath_eq] at heq
  exact (List.cons.inj heq).2

theorem Grows.nonlocals (hg : Grows n s s') (hb : b.index < n) :
    (s'.body b).nonlocals = (s.body b).nonlocals :=
  Body.view_of_unseen Body.nonlocals (fun _ => rfl) (hg.unseen b hb)

/-! ## Later stores -/

/-- What is found and whether it is a parameter stays the same. -/
theorem Grows.isParameter (hg : Grows n s s') (hs : s.WellFormed) (hf : s.find? b name = some v) :
    isParameter s' b name = isParameter s b name := by
  have hv := (find?_eq_some hf).1
  have hb := lt_of_mem_visible hv
  unfold Lowering.isParameter
  rw [hf, hg.find? (fun w hw => (hs.seen b w hw).1) hf]
  dsimp only
  rw [hg.var v (hs.seen b v hv).1, hg.kind hb, hg.provider hb]

theorem SeesOuter.grow (h : s.SeesOuter b name) (hs : s.WellFormed) (hg : Grows n s s') :
    s'.SeesOuter b name := by
  obtain ⟨v, hf, howner, hparam⟩ := h
  have hv := (find?_eq_some hf).1
  refine ⟨v, hg.find? (fun w hw => (hs.seen b w hw).1) hf, ?_, ?_⟩
  · rw [hg.outerPath hs.ordered (lt_of_mem_visible hv), hg.var v (hs.seen b v hv).1]
    exact howner
  · rw [hg.isParameter hs hf]
    exact hparam

theorem Reached.grow (h : s.Reached b v) (hs : s.WellFormed) (hg : Grows n s s')
    (hb : b.index < s.bodies.size) (hv : v.index < s.vars.size) : s'.Reached b v := by
  rcases h with howner | ⟨p, rest, hpath, hp⟩
  · exact Or.inl (by rw [hg.var v hv]; exact howner)
  · exact Or.inr ⟨p, rest, by rw [hg.outerPath hs.ordered hb]; exact hpath,
      (hg.visible p).subset hp⟩

/-- The parameters that have been added belong to bodies that have been added. -/
def ParamsAreNew (s s' : Store) : Prop :=
  ∀ v : VariableId, s.vars.size ≤ v.index → v.index < s'.vars.size →
    (s'.var v).kind = .parameter → s.bodies.size ≤ (s'.var v).owner.index

theorem paramsAreNew_of_size (h : s'.vars.size = s.vars.size) : ParamsAreNew s s' :=
  fun _ hlow hhigh => absurd hhigh (by omega)

/-- A body is threaded in a later store if what it sees, declares global and declares nonlocal
in addition is in order. -/
theorem ThreadedAt.grow (h : s.ThreadedAt b) (hs : s.WellFormed) (hg : Grows n s s')
    (hb : b.index < s.bodies.size) (hnew : ParamsAreNew s s')
    (hreach : ∀ v ∈ s'.visible b, v ∈ s.visible b ∨ s'.Reached b v)
    (hdisjoint : ∀ v ∈ s'.visible b, (s'.var v).name ∉ (s'.body b).globals)
    (hnonlocals : ∀ d ∈ (s'.body b).nonlocals,
      d ∈ (s.body b).nonlocals ∨ s'.SeesOuter b d.name) : s'.ThreadedAt b where
  reach v hv := by
    rcases hreach v hv with hold | hreached
    · exact (h.reach v hold).grow hs hg hb (hs.seen b v hold).1
    · exact hreached
  disjoint := hdisjoint
  params signature hsignature := by
    rw [hg.signature hb] at hsignature
    obtain ⟨own, hown, hnames, hparams⟩ := h.params signature hsignature
    have hvar : ∀ v ∈ own, s'.var v = s.var v := fun v hv =>
      hg.var v (hs.seen b v (hown.subset hv)).1
    refine ⟨own, hown.trans (hg.visible b), ?_, fun v hv => ?_⟩
    · rw [← hnames]
      exact List.map_congr_left fun v hv => by rw [hvar v hv]
    · rw [hvar v hv]
      exact hparams v hv
  nonlocals d hd := by
    rcases hnonlocals d hd with hold | hsees
    · exact (h.nonlocals d hold).grow hs hg
    · exact hsees
  inherits hobject p hp v hv howner hkind := by
    rw [hg.kind hb] at hobject
    rw [hg.provider hb] at hp
    have hlt : p.index < s.bodies.size := Nat.lt_trans (hs.ordered b p hp) hb
    by_cases hold : v.index < s.vars.size
    · rw [hg.var v hold] at howner hkind
      exact (hg.visible b).subset (h.inherits hobject p hp v hold howner hkind)
    · have := hnew v (Nat.le_of_not_lt hold) hv hkind
      rw [howner] at this
      omega

/-- A body that nothing has happened to. -/
theorem ThreadedAt.same (h : s.ThreadedAt b) (hs : s.WellFormed) (hg : Grows n s s')
    (hb : b.index < s.bodies.size) (hnew : ParamsAreNew s s')
    (hvisible : s'.visible b = s.visible b) (hglobals : (s'.body b).globals = (s.body b).globals)
    (hnonlocals : (s'.body b).nonlocals = (s.body b).nonlocals) : s'.ThreadedAt b := by
  refine h.grow hs hg hb hnew (fun v hv => Or.inl (hvisible ▸ hv)) (fun v hv => ?_)
    (fun d hd => Or.inl (hnonlocals ▸ hd))
  rw [hvisible] at hv
  rw [hglobals, hg.var v (hs.seen b v hv).1]
  exact h.disjoint v hv

/-- Neither code nor temporaries matter for what bodies see. -/
theorem Threaded.of_same (h : s.Threaded) (hs : s.WellFormed) (hg : Grows n s s')
    (hsize : s'.bodies.size = s.bodies.size) (hnew : ParamsAreNew s s')
    (hvisible : ∀ b, s'.visible b = s.visible b)
    (hglobals : ∀ b, (s'.body b).globals = (s.body b).globals)
    (hnonlocals : ∀ b, (s'.body b).nonlocals = (s.body b).nonlocals) : s'.Threaded :=
  fun b hb => (h b (hsize ▸ hb)).same hs hg (hsize ▸ hb) hnew (hvisible b) (hglobals b)
    (hnonlocals b)

/-! ## Single operations -/

theorem threaded_empty : Threaded empty :=
  fun _ hb => absurd hb (Nat.not_lt_zero _)

/-- Code may be attached. -/
theorem Threaded.setCode (h : s.Threaded) (hs : s.WellFormed) {f : Body → Option Block}
    (hg : Grows n s (s.modifyBody b fun body => { body with code := f body })) :
    (s.modifyBody b fun body => { body with code := f body }).Threaded :=
  h.of_same hs hg (by simp) (paramsAreNew_of_size (by simp))
    (fun c => body_modifyBody_of (P := fun body => body.visible = s.visible c) id rfl)
    (fun c => body_modifyBody_of (P := fun body => body.globals = (s.body c).globals) id rfl)
    (fun c => body_modifyBody_of (P := fun body => body.nonlocals = (s.body c).nonlocals) id rfl)

/-- A search shows the variable it finds to all scopes that it passes. -/
theorem Threaded.resolve (h : s.Threaded) (hs : s.WellFormed) (hb : b.index < s.bodies.size) :
    (s.resolve b name).2.Threaded := by
  have hg := Grows.resolve s.bodies.size s b name
  have hpath : ∀ c ∈ s.lookupPath b, c.index < s.bodies.size := fun c hc =>
    hs.ordered.lt_of_mem_lookupPath hb hc
  cases hl : s.lookup b name with
  | none =>
    rw [Store.resolve, resolveAlong_of_none hl]
    exact h
  | some v =>
    obtain ⟨seen, found, rest, hsplit, hpassed, hfound, hvisible⟩ :=
      resolveAlong_of_some (hs.ordered.nodup_lookupPath b) hpath hl
    change ∀ c, (s.resolve b name).2.visible c = _ at hvisible
    intro c hc
    rw [size_bodies_resolve] at hc
    have hglobals := hg.globals hc
    have hnonlocals := hg.nonlocals hc
    have hnew : ParamsAreNew s (s.resolve b name).2 := paramsAreNew_of_size (by simp)
    by_cases hseen : c ∈ seen
    · have hv : v.index < s.vars.size ∧ (s.var v).name = name :=
        ⟨(hs.known_of_lookup hl).1, (hs.known_of_lookup hl).2.2⟩
      have hcases : ∀ w ∈ (s.resolve b name).2.visible c, w ∈ s.visible c ∨ w = v := by
        intro w hw
        rw [hvisible, if_pos hseen, List.mem_append, List.mem_singleton] at hw
        exact hw
      refine (h c hc).grow hs hg hc hnew (fun w hw => (hcases w hw).imp_right ?_)
        (fun w hw => ?_) fun d hd => Or.inl (hnonlocals ▸ hd)
      · rintro rfl
        -- the scope behind `c` on the search was passed as well, or is where the search ended
        obtain ⟨before, after, rfl⟩ := List.append_of_mem hseen
        rw [List.append_assoc, List.cons_append] at hsplit
        have hrest : s.outerPath c = after ++ found :: rest :=
          (List.cons.inj (hs.ordered.lookupPath_suffix hsplit)).2
        refine Or.inr ?_
        rw [hg.outerPath hs.ordered hc, hrest]
        cases after with
        | nil => exact ⟨found, rest, rfl, (hg.visible found).subset (find?_eq_some hfound).1⟩
        | cons d after =>
          refine ⟨d, after ++ found :: rest, rfl, ?_⟩
          rw [hvisible, if_pos (by simp)]
          exact List.mem_append_right _ (List.mem_singleton_self _)
      · rcases hcases w hw with hold | rfl
        · rw [hglobals, hg.var w (hs.seen c w hold).1]
          exact (h c hc).disjoint w hold
        · rw [hglobals, hg.var w hv.1, hv.2]
          exact (hpassed c hseen).2
    · exact (h c hc).same hs hg hc hnew (by rw [hvisible, if_neg hseen]) hglobals hnonlocals

/-- A body that declares a name global does not see it. -/
theorem Threaded.addGlobal (h : s.Threaded) (hs : s.WellFormed) (hf : s.find? b name = none) :
    (s.addGlobal b name).Threaded := by
  intro c hc
  rw [Store.addGlobal, size_bodies_modifyBody] at hc
  have hg : Grows 0 s (s.addGlobal b name) := Grows.addGlobal (Nat.zero_le _)
  have hvisible : (s.addGlobal b name).visible c = s.visible c :=
    body_modifyBody_of (P := fun body => body.visible = s.visible c) id rfl
  have hnonlocals : ((s.addGlobal b name).body c).nonlocals = (s.body c).nonlocals :=
    body_modifyBody_of (P := fun body => body.nonlocals = (s.body c).nonlocals) id rfl
  have hnew : ParamsAreNew s (s.addGlobal b name) :=
    paramsAreNew_of_size (by simp [Store.addGlobal])
  refine (h c hc).grow hs hg hc hnew (fun v hv => Or.inl (hvisible ▸ hv)) (fun v hv => ?_)
    fun d hd => Or.inl (hnonlocals ▸ hd)
  rw [hvisible] at hv
  rw [Store.addGlobal, var_modifyBody, body_modifyBody]
  split
  · rename_i hbc
    rw [List.mem_append, List.mem_singleton, not_or]
    exact ⟨(h c hc).disjoint v hv, find?_eq_none.1 hf v (hbc.1 ▸ hv)⟩
  · exact (h c hc).disjoint v hv

/-- A nonlocal name is one that the body sees from a scope around. -/
theorem Threaded.addNonlocal (h : s.Threaded) (hs : s.WellFormed)
    {declaration : NonlocalDeclaration} (hsees : s.SeesOuter b declaration.name) :
    (s.addNonlocal b declaration).Threaded := by
  intro c hc
  rw [Store.addNonlocal, size_bodies_modifyBody] at hc
  have hg : Grows 0 s (s.addNonlocal b declaration) := Grows.addNonlocal (Nat.zero_le _)
  have hvisible : (s.addNonlocal b declaration).visible c = s.visible c :=
    body_modifyBody_of (P := fun body => body.visible = s.visible c) id rfl
  have hglobals : ((s.addNonlocal b declaration).body c).globals = (s.body c).globals :=
    body_modifyBody_of (P := fun body => body.globals = (s.body c).globals) id rfl
  have hnew : ParamsAreNew s (s.addNonlocal b declaration) :=
    paramsAreNew_of_size (by simp [Store.addNonlocal])
  refine (h c hc).grow hs hg hc hnew (fun v hv => Or.inl (hvisible ▸ hv)) (fun v hv => ?_)
    fun d hd => ?_
  · rw [hvisible] at hv
    rw [hglobals]
    exact (h c hc).disjoint v hv
  · rw [Store.addNonlocal, body_modifyBody] at hd
    split at hd
    · rename_i hbc
      rcases List.mem_append.1 hd with hd | hd
      · exact Or.inl hd
      · rw [List.mem_singleton.1 hd, ← hbc.1]
        exact Or.inr (hsees.grow hs hg)
    · exact Or.inl hd

/-- A name that is not global may be declared as a local. -/
theorem Threaded.declareLocal (h : s.Threaded) (hs : s.WellFormed) (hb : b.index < s.bodies.size)
    (hglobal : name ∉ (s.body b).globals) : (s.declareLocal b name).2.Threaded := by
  rcases declareLocal_cases hb name with ⟨v, -, hsame⟩ | hnew
  · rw [hsame]
    exact h
  · have hg := hnew.grows s.bodies.size
    intro c hc
    rw [hnew.bodies] at hc
    have hparams : ParamsAreNew s (s.declareLocal b name).2 := fun v hlow hhigh hkind => by
      rw [hnew.eq_new hlow hhigh, hnew.var] at hkind
      cases hkind
    have hglobals := hg.globals hc
    have hnonlocals := hg.nonlocals hc
    by_cases hbc : b = c
    · subst hbc
      refine (h b hc).grow hs hg hc hparams (fun v hv => ?_) (fun v hv => ?_)
        fun d hd => Or.inl (hnonlocals ▸ hd)
      · refine (hnew.mem_visible hv).imp_right fun hv => Or.inl ?_
        rw [hv.2, hnew.var]
      · rw [hglobals]
        rcases hnew.mem_visible hv with hv | ⟨-, rfl⟩
        · rw [hg.var v (hs.seen b v hv).1]
          exact (h b hc).disjoint v hv
        · rw [hnew.var]
          exact hglobal
    · exact (h c hc).same hs hg hc hparams (hnew.others c hbc) hglobals hnonlocals

section Objects

variable (hobject : (s.body c).kind.isObject = true) (hprovider : (s.body c).provider = some b)
  (hkind : (s.body b).kind = .function)
  (hown : ∀ v ∈ s.visible b, (s.var v).owner = b → (s.var v).kind = .parameter)

include hobject hprovider hkind hown

/-- What an object sees from around, the function that manufactures it sees as well, if all its own
variables are parameters. -/
theorem Threaded.seesOuter_function (h : s.Threaded) (hs : s.WellFormed)
    (hsees : s.SeesOuter c name) : s.SeesOuter b name := by
  have hpath : s.outerPath c = b :: s.outerPath b :=
    hs.ordered.outerPath_of_callable hprovider (by simp [isModule, hkind])
      (by simp [isClass, hkind])
  obtain ⟨v, hf, howner, hparam⟩ := hsees
  obtain ⟨hv, hname⟩ := find?_eq_some hf
  -- the function's own variables are parameters for the object
  have hne : (s.var v).owner ≠ b := by
    intro he
    have hlisted := hs.listed v (hs.seen c v hv).1
    rw [if_neg (hs.seen c v hv).2, he] at hlisted
    rw [isParameter, hf] at hparam
    simp [hown v hlisted he, hobject, hprovider, he] at hparam
  rw [hpath, List.mem_cons, or_iff_right hne] at howner
  have hself : (s.var v).owner ≠ c := by
    intro he
    have hlt := hs.ordered.lt_of_mem_ancestors (mem_ancestors_of_mem_outerPath howner)
    have := hs.ordered c b hprovider
    rw [he] at hlt
    omega
  have hb : v ∈ s.visible b := by
    rcases (h c (lt_of_provider hprovider)).reach v hv with he | ⟨p, rest, hsplit, hp⟩
    · exact absurd he hself
    · rw [hpath] at hsplit
      exact (List.cons.inj hsplit).1 ▸ hp
  have hfb : s.find? b name = some v := hs.find?_eq_some_iff.2 ⟨hb, hname⟩
  refine ⟨v, hfb, howner, ?_⟩
  rw [isParameter, hfb]
  simp [hne, hkind, BodyKind.isObject]

/-- The function that manufactures an object may take over the object's nonlocal declarations. -/
theorem Threaded.copyNonlocals (h : s.Threaded) (hs : s.WellFormed) :
    (s.copyNonlocals c b).Threaded := by
  have hg : Grows 0 s (s.copyNonlocals c b) := Grows.copyNonlocals (Nat.zero_le _)
  intro d hd
  rw [Store.copyNonlocals, size_bodies_modifyBody] at hd
  have hvisible : (s.copyNonlocals c b).visible d = s.visible d :=
    body_modifyBody_of (P := fun body => body.visible = s.visible d) id rfl
  have hglobals : ((s.copyNonlocals c b).body d).globals = (s.body d).globals :=
    body_modifyBody_of (P := fun body => body.globals = (s.body d).globals) id rfl
  have hnew : ParamsAreNew s (s.copyNonlocals c b) :=
    paramsAreNew_of_size (by simp [Store.copyNonlocals])
  refine (h d hd).grow hs hg hd hnew (fun v hv => Or.inl (hvisible ▸ hv)) (fun v hv => ?_)
    fun declaration hdecl => ?_
  · rw [hvisible] at hv
    rw [hglobals]
    exact (h d hd).disjoint v hv
  · rw [Store.copyNonlocals, body_modifyBody] at hdecl
    split at hdecl
    · rename_i hbd
      have hsees := h.seesOuter_function hobject hprovider hkind hown hs
        ((h c (lt_of_provider hprovider)).nonlocals declaration hdecl)
      exact Or.inr (SeesOuter.grow (hbd.1 ▸ hsees) hs hg)
    · exact Or.inl hdecl

end Objects

/-! ## New bodies -/

/-- The parameters of a new body belong to it. -/
theorem paramsAreNew_createBody : ParamsAreNew s (s.createBody plan).2 := by
  intro v hlow hhigh _
  obtain ⟨slot, -, hvar⟩ := var_createBody_new hlow hhigh
  rw [hvar]

/-- A new body sees its own parameters. -/
theorem param_of_createBody (hv : v ∈ (s.createBody plan).2.visible ⟨s.bodies.size⟩) :
    ((s.createBody plan).2.var v).kind = .parameter ∧
      ((s.createBody plan).2.var v).owner = ⟨s.bodies.size⟩ := by
  obtain ⟨hlow, hhigh⟩ := mem_visible_createBody_self.1 hv
  obtain ⟨slot, -, hvar⟩ := var_createBody_new hlow hhigh
  rw [hvar]
  exact ⟨rfl, rfl⟩

/-- Bodies that were there are not touched by the creation of another one. -/
theorem ThreadedAt.createBody (h : s.ThreadedAt c) (hs : s.WellFormed)
    (hc : c.index < s.bodies.size) : (s.createBody plan).2.ThreadedAt c := by
  have hbody := body_createBody_of_lt s plan hc
  exact h.same hs (Grows.createBody s plan) hc paramsAreNew_createBody
    (by rw [visible, hbody, visible]) (by rw [hbody]) (by rw [hbody])

/-- A new body that is not an object's sees its own parameters. -/
theorem Threaded.createBody (h : s.Threaded) (hs : s.WellFormed)
    (hkind : plan.kind.isObject = false) : (s.createBody plan).2.Threaded := by
  intro c hc
  rw [size_bodies_createBody] at hc
  by_cases hold : c.index < s.bodies.size
  · exact (h c hold).createBody hs hold
  · have hself : c = ⟨s.bodies.size⟩ := by cases c; simp only [BodyId.mk.injEq] at *; omega
    subst hself
    refine ⟨fun v hv => Or.inl (param_of_createBody hv).2, fun v hv => ?_,
      fun signature hsignature => ?_,
      fun d hd => ?_, fun hobject => ?_⟩
    · rw [body_createBody_self]
      exact List.not_mem_nil
    · rw [body_createBody_self] at hsignature
      refine ⟨_, List.prefix_rfl, ?_, fun v hv => (param_of_createBody hv).symm⟩
      rw [visibleNames_createBody_self, BodyPlan.slots, show plan.signature = _ from hsignature]
    · rw [body_createBody_self] at hd
      cases hd
    · rw [body_createBody_self] at hobject
      exact absurd (hobject.symm.trans hkind) Bool.noConfusion

/-- The body of an object shares what the function sees that manufactures it. -/
theorem Threaded.withObject (h : s.Threaded) (hs : s.WellFormed)
    (hprovider : plan.provider = some p) (hp : p.index < s.bodies.size)
    (hkind : (s.body p).kind = .function) (hplan : plan.kind ≠ .moduleBody)
    (hsignature : plan.signature = none) : (s.withObject plan p).Threaded := by
  have hslots : plan.slots = [] := by rw [BodyPlan.slots, hsignature]
  have hg := Grows.withObject s plan p
  have hself := hs.visible_withObject_self hp hslots
  have hwf := hs.withObject hp hprovider hplan hslots
  have hnew := paramsAreNew_of_size (s := s) (size_vars_withObject (p := p) hslots)
  intro c hc
  rw [size_bodies_withObject] at hc
  by_cases hold : c.index < s.bodies.size
  · exact (h c hold).same hs hg hold hnew (visible_withObject_of_lt hold) (hg.globals hold)
      (hg.nonlocals hold)
  · have hc : c = ⟨s.bodies.size⟩ := congrArg BodyId.mk (by omega)
    subst hc
    have hprovided : ((s.withObject plan p).body ⟨s.bodies.size⟩).provider = some p := by
      rw [body_withObject_view Body.provider fun _ _ => rfl, body_createBody_self]
      exact hprovider
    have hkind' := (hg.kind hp).trans hkind
    have hpath := hwf.ordered.outerPath_of_callable hprovided
      (by rw [isModule, hkind']; rfl) (by rw [isClass, hkind']; rfl)
    refine ⟨fun v hv => Or.inr ⟨p, _, hpath, ?inner⟩, fun v hv => ?hidden,
      fun signature hsig => ?signature, fun d hd => ?declared,
      fun _ q hq v hv howner hparam => ?inherits⟩
    case inner =>
      rw [hself] at hv
      exact (hg.visible p).subset hv
    case hidden =>
      rw [body_withObject_view Body.globals fun _ _ => rfl, body_createBody_self]
      exact List.not_mem_nil
    case signature =>
      rw [body_withObject_view Body.signature fun _ _ => rfl, body_createBody_self,
        hsignature] at hsig
      cases hsig
    case declared =>
      rw [body_withObject_view Body.nonlocals fun _ _ => rfl, body_createBody_self] at hd
      cases hd
    case inherits =>
      cases hprovided.symm.trans hq
      rw [size_vars_withObject hslots] at hv
      rw [hg.var v hv] at howner hparam
      have hlisted := hs.listed v hv
      rw [if_neg (by rw [hparam]; exact VariableKind.noConfusion), howner] at hlisted
      rw [hself]
      exact hlisted

end DefinitionLowering.IR.Store
