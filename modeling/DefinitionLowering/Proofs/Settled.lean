import DefinitionLowering.Proofs.Scopes
import DefinitionLowering.Proofs.WellFormed

/-!
# Scopes and bodies

One scope of the source is spread over several bodies: the one that holds its code and, for a
callable, the function that manufactures its object and the wrapper around a delegate.  A `Place`
is a scope with these bodies.  It is `Settled` in a store if the code sees every name that the
scope owns as a variable of these bodies, and whatever else a body of the place sees is what
the resolver says.

Main results: `lookup_settled`, the search of the store agrees with the resolver, and
`settled_resolve`, resolving names keeps places settled.  Reserved names are left out: the
placeholders of a wrapper are names that no source has.
-/

namespace DefinitionLowering

open IR (BodyId VariableId Store)
open Surface (Scope search resolve spellAt)

/-- A scope with the body that holds its code and the bodies around that, from within. -/
structure Place where
  scope : Scope
  code : BodyId
  shells : List BodyId

def Place.bodies (p : Place) : List BodyId :=
  p.code :: p.shells

theorem Place.code_mem (p : Place) : p.code ∈ p.bodies :=
  List.mem_cons_self

/-- The bodies of some places. -/
def bodiesOf (places : List Place) : List BodyId :=
  places.flatMap Place.bodies

/-- The scopes of some places. -/
def scopesOf (places : List Place) : List Scope :=
  places.map Place.scope

/-- The body in which the innermost of some places evaluates definitions. -/
def innermost? (places : List Place) : Option BodyId :=
  places.head?.map Place.code

namespace IR.Store

/-- The providers lead from a body through functions to the next scope. -/
def Leads (s : Store) (next : Option BodyId) : BodyId → List BodyId → Prop
  | b, [] => (s.body b).provider = next
  | b, shell :: rest =>
    (s.body b).provider = some shell ∧ (s.body shell).kind = .function ∧
      s.Leads next shell rest

end IR.Store

/-- The variable that the place owns under a name. -/
def Place.Owns (p : Place) (s : Store) (name : String) (v : VariableId) : Prop :=
  s.find? p.code name = some v ∧ (s.var v).owner ∈ p.bodies

/-- The variable that a name stands for, if it is searched among some places. -/
def meaning (s : Store) (name : String) (outer : List Place) : Option VariableId :=
  (search Place.scope name outer).bind fun q => s.find? q.code name

/-- The bodies of a place are there, of the right kinds and in the right order. -/
structure Place.Planned (s : Store) (outer : List Place) (p : Place) : Prop where
  created : ∀ c ∈ p.bodies, c.index < s.bodies.size
  kind : (s.body p.code).kind = p.scope.kind
  name : p.scope.kind = .classBody → (s.body p.code).name = p.scope.name
  root : p.scope.kind = .moduleBody ↔ outer = []
  leads : s.Leads (innermost? outer) p.code p.shells
  bare : p.scope.kind.isFunctionLike = false → p.shells = []

/-- The bodies of a place see what they should. -/
structure Place.Settled (s : Store) (outer : List Place) (p : Place) : Prop
    extends p.Planned s outer where
  globals : (s.body p.code).globals = p.scope.globals
  clear : ∀ c ∈ p.shells, (s.body c).globals = []
  owns : ∀ name, isReserved name = false → p.scope.kind ≠ .moduleBody →
    name ∉ p.scope.globals → name ∈ p.scope.own → ∃ v, p.Owns s name v
  sees : ∀ c ∈ p.bodies, ∀ name v, isReserved name = false → s.find? c name = some v →
    name ∈ p.scope.own ∨ meaning s name outer = some v
  hides : ∀ name ∈ p.scope.globals, isReserved name = false → s.find? p.code name = none

/-- Places, each standing in the next, are settled. -/
def AllSettled (s : Store) : List Place → Prop
  | [] => True
  | p :: outer => p.Settled s outer ∧ AllSettled s outer

variable {s s' : Store} {p q : Place} {outer places : List Place} {b c : BodyId}
  {v : VariableId} {name : String} {n : Nat}

namespace AllSettled

theorem of_mem (h : AllSettled s places) (hq : q ∈ places) : ∃ rest, q.Settled s rest := by
  induction places with
  | nil => cases hq
  | cons p outer ih =>
    rcases List.mem_cons.1 hq with rfl | hq
    · exact ⟨outer, h.1⟩
    · exact ih h.2 hq

theorem created (h : AllSettled s places) : ∀ c ∈ bodiesOf places, c.index < s.bodies.size := by
  intro c hc
  obtain ⟨p, hp, hc⟩ := List.mem_flatMap.1 hc
  obtain ⟨rest, hsettled⟩ := h.of_mem hp
  exact hsettled.created c hc

end AllSettled

/-! ## Spelling -/

/-- The bodies of a callable spell names like the scope around it. -/
theorem spell_leads (hs : s.Ordered) {shells : List BodyId} :
    ∀ {b : BodyId}, (s.body b).kind.isFunctionLike = true → s.Leads (some c) b shells →
      s.spell b = s.spell c := by
  induction shells with
  | nil => exact fun hk h => hs.spell h hk
  | cons shell rest ih =>
    rintro b hk ⟨hprovider, hkind, hrest⟩
    rw [hs.spell hprovider hk]
    exact ih (by rw [hkind]; rfl) hrest

theorem spell_class (hc : s.isClass b = true) : s.spell b name = spellIn (s.body b).name name := by
  unfold Store.spell Store.classOf?
  rw [List.find?_cons_of_pos (by simp [hc]), Option.filter_some, if_pos hc]

theorem spell_module (hp : (s.body b).provider = none) (hc : s.isClass b = false) :
    s.spell b name = name := by
  unfold Store.spell Store.classOf?
  rw [IR.Store.ancestors_of_no_provider hp]
  cases hm : s.isModule b <;> simp [hc, hm, Option.filter]

/-- **Names are spelled as the scopes say.** -/
theorem spell_settled (hs : s.Ordered) (name : String) : ∀ (p : Place) (outer : List Place),
    AllSettled s (p :: outer) → s.spell p.code name = spellAt (scopesOf (p :: outer)) name := by
  intro p outer h
  induction outer generalizing p with
  | nil =>
    have hkind := h.1.root.2 rfl
    have hbare := h.1.bare (by rw [hkind]; rfl)
    have hleads := h.1.leads
    rw [hbare] at hleads
    rw [spell_module hleads (by rw [Store.isClass, h.1.kind, hkind]; rfl)]
    simp [scopesOf, spellAt, hkind]
  | cons q rest ih =>
    show _ = if p.scope.kind = .classBody then _ else spellAt (scopesOf (q :: rest)) name
    cases hkind : p.scope.kind with
    | moduleBody => cases h.1.root.1 hkind
    | classBody =>
      rw [if_pos rfl, spell_class (by rw [Store.isClass, h.1.kind, hkind]; rfl), h.1.name hkind]
    | callable kind =>
      rw [if_neg BodyKind.noConfusion, ← ih q h.2]
      rw [spell_leads hs (by rw [h.1.kind, hkind]; rfl) h.1.leads]

/-! ## Searching -/

theorem isModule_iff (h : p.Settled s outer) :
    s.isModule p.code = true ↔ p.scope.kind = .moduleBody := by
  rw [Store.isModule, h.kind, beq_iff_eq]

theorem isClass_iff (h : p.Settled s outer) :
    s.isClass p.code = true ↔ p.scope.kind = .classBody := by
  rw [Store.isClass, h.kind, beq_iff_eq]

/-- The search goes on from body to body of a place that has not got the name. -/
theorem lookup_leads (hs : s.Ordered) {answer : Option VariableId}
    (houter : ∀ b, (s.body b).provider = innermost? outer →
      s.lookupAlong name (s.outerPath b) = answer) {shells : List BodyId} :
    ∀ {b : BodyId}, s.Leads (innermost? outer) b shells →
      (∀ c ∈ shells, (s.body c).globals = []) →
      (∀ c ∈ b :: shells, ∀ v, s.find? c name = some v → answer = some v) →
      name ∉ (s.body b).globals → s.lookup b name = answer := by
  induction shells with
  | nil =>
    intro b hleads _ hsees hglobal
    rw [Store.lookup, IR.Store.lookupPath_eq, Store.lookupAlong]
    cases hf : s.find? b name with
    | some v => exact (hsees b List.mem_cons_self v hf).symm
    | none =>
      dsimp only
      rw [if_neg hglobal]
      exact houter b hleads
  | cons shell rest ih =>
    rintro b ⟨hprovider, hkind, hleads⟩ hclear hsees hglobal
    rw [Store.lookup, IR.Store.lookupPath_eq, Store.lookupAlong]
    cases hf : s.find? b name with
    | some v => exact (hsees b List.mem_cons_self v hf).symm
    | none =>
      dsimp only
      rw [if_neg hglobal, hs.outerPath_of_callable hprovider
        (by rw [Store.isModule, hkind]; rfl) (by rw [Store.isClass, hkind]; rfl)]
      refine ih hleads (fun c hc => hclear c (List.mem_cons_of_mem _ hc))
        (fun c hc => hsees c (List.mem_cons_of_mem _ hc)) ?_
      rw [hclear shell List.mem_cons_self]
      exact List.not_mem_nil

/-- Each body of a place leads on. -/
theorem leads_from {next : Option BodyId} {shells : List BodyId} :
    ∀ {b : BodyId}, s.Leads next b shells → c ∈ b :: shells →
      ∃ rest, rest <:+ shells ∧ s.Leads next c rest := by
  induction shells with
  | nil =>
    intro b hleads hc
    obtain rfl := List.mem_singleton.1 hc
    exact ⟨[], List.suffix_rfl, hleads⟩
  | cons shell rest ih =>
    intro b hleads hc
    rcases List.mem_cons.1 hc with rfl | hc
    · exact ⟨_, List.suffix_rfl, hleads⟩
    · obtain ⟨more, hmore, h⟩ := ih hleads.2.2 hc
      exact ⟨more, hmore.trans (List.suffix_cons _ _), h⟩

/-- A place that does not own a name passes the search on, whichever of its bodies it starts
in. -/
theorem lookup_foreign (hs : s.Ordered) (hp : p.Settled s outer)
    (houter : ∀ b, (s.body b).provider = innermost? outer →
      s.lookupAlong name (s.outerPath b) = meaning s name outer)
    (hname : isReserved name = false) (hown : name ∉ p.scope.own) (hb : b ∈ p.bodies)
    (hglobal : name ∉ (s.body b).globals) : s.lookup b name = meaning s name outer := by
  obtain ⟨rest, hrest, hleads⟩ := leads_from hp.leads hb
  refine lookup_leads hs houter hleads (fun c hc => hp.clear c (hrest.subset hc))
    (fun c hc v hf => (hp.sees c ?_ name v hname hf).resolve_left hown) hglobal
  rcases List.mem_cons.1 hc with rfl | hc
  · exact hb
  · exact List.mem_cons_of_mem _ (hrest.subset hc)

/-- What the code of a place finds when it owns the name. -/
theorem lookup_own (hp : p.Settled s outer) (hname : isReserved name = false)
    (hk : p.scope.kind ≠ .moduleBody) (hglobal : name ∉ p.scope.globals)
    (hown : name ∈ p.scope.own) : s.lookup p.code name = s.find? p.code name := by
  obtain ⟨v, hv, -⟩ := hp.owns name hname hk hglobal hown
  rw [Store.lookup, IR.Store.lookupPath_eq, Store.lookupAlong, hv]

/-- A global name is not found. -/
theorem lookup_global (hp : p.Settled s outer) (hname : isReserved name = false)
    (hglobal : name ∈ p.scope.globals) : s.lookup p.code name = none := by
  rw [Store.lookup, IR.Store.lookupPath_eq, Store.lookupAlong, hp.hides name hglobal hname]
  dsimp only
  rw [if_pos (hp.globals ▸ hglobal)]

/-- **The search around a body finds what the resolver says.** -/
theorem lookup_outer (hs : s.Ordered) (hname : isReserved name = false) :
    ∀ (outer : List Place), AllSettled s outer → ∀ b, (s.body b).provider = innermost? outer →
      s.lookupAlong name (s.outerPath b) = meaning s name outer
  | [], _, b, hb => by
    rw [IR.Store.outerPath_of_no_provider hb]
    rfl
  | q :: rest, h, b, hb => by
    have ih := lookup_outer hs hname rest h.2
    rw [meaning, search]
    cases hkind : q.scope.kind with
    | moduleBody =>
      rw [hs.outerPath_of_module hb ((isModule_iff h.1).2 hkind)]
      rfl
    | classBody =>
      have hleads := h.1.leads
      rw [h.1.bare (by rw [hkind]; rfl)] at hleads
      rw [hs.outerPath_of_class hb (by rw [Store.isModule, h.1.kind, hkind]; rfl)
        ((isClass_iff h.1).2 hkind)]
      exact ih q.code hleads
    | callable kind =>
      have hk : q.scope.kind ≠ .moduleBody := by
        rw [hkind]
        exact BodyKind.noConfusion
      rw [hs.outerPath_of_callable hb (by rw [Store.isModule, h.1.kind, hkind]; rfl)
        (by rw [Store.isClass, h.1.kind, hkind]; rfl)]
      show s.lookup q.code name = _
      dsimp only
      by_cases hglobal : name ∈ q.scope.globals
      · rw [if_pos hglobal, lookup_global h.1 hname hglobal]
        rfl
      · rw [if_neg hglobal]
        by_cases hown : name ∈ q.scope.own
        · rw [if_pos hown, lookup_own h.1 hname hk hglobal hown]
          rfl
        · rw [if_neg hown]
          exact lookup_foreign hs h.1 ih hname hown List.mem_cons_self (h.1.globals ▸ hglobal)

/-- **The search in the code of a place finds what the resolver says.** -/
theorem lookup_settled (hs : s.Ordered) (h : AllSettled s (p :: outer))
    (hk : p.scope.kind ≠ .moduleBody) (hname : isReserved name = false) :
    s.lookup p.code name =
      (resolve Place.scope name (p :: outer)).bind fun q => s.find? q.code name := by
  rw [resolve]
  by_cases hglobal : name ∈ p.scope.globals
  · rw [if_pos (.inr hglobal), lookup_global h.1 hname hglobal]
    rfl
  · rw [if_neg (not_or.2 ⟨hk, hglobal⟩)]
    by_cases hown : name ∈ p.scope.own
    · rw [if_pos hown, lookup_own h.1 hname hk hglobal hown]
      rfl
    · rw [if_neg hown]
      exact lookup_foreign hs h.1 (lookup_outer hs hname outer h.2) hname hown
        List.mem_cons_self (h.1.globals ▸ hglobal)

/-- Where the resolver says that a place has the name, the place has a variable for it. -/
theorem owns_of_resolve (h : AllSettled s places) (hname : isReserved name = false)
    (hq : resolve Place.scope name places = some q) : ∃ v, q.Owns s name v := by
  obtain ⟨hmem, hk, hglobal, hown⟩ := Surface.resolve_eq_some hq
  obtain ⟨rest, hsettled⟩ := h.of_mem hmem
  exact hsettled.owns name hname hk hglobal hown

/-! ## Later stores -/

theorem find?_mono (hs : s.WellFormed) (hg : Store.Grows n s s') (hf : s.find? b name = some v) :
    s'.find? b name = some v ∧ s'.var v = s.var v :=
  have hseen := fun w hw => (hs.seen b w hw).1
  ⟨hg.find? hseen hf, hg.var v (hseen v (IR.Store.find?_eq_some hf).1)⟩

theorem meaning_mono (hs : s.WellFormed) (hg : Store.Grows n s s')
    (h : meaning s name outer = some v) : meaning s' name outer = some v := by
  obtain ⟨q, hq, hf⟩ := Option.bind_eq_some_iff.1 h
  exact Option.bind_eq_some_iff.2 ⟨q, hq, (find?_mono hs hg hf).1⟩

theorem Place.Owns.mono (h : p.Owns s name v) (hs : s.WellFormed) (hg : Store.Grows n s s') :
    p.Owns s' name v := by
  obtain ⟨hf, hvar⟩ := find?_mono hs hg h.1
  exact ⟨hf, by rw [hvar]; exact h.2⟩

theorem leads_mono (hg : Store.Grows n s s') {next : Option BodyId} {shells : List BodyId} :
    ∀ {b : BodyId}, (∀ c ∈ b :: shells, c.index < s.bodies.size) → s.Leads next b shells →
      s'.Leads next b shells := by
  induction shells with
  | nil =>
    intro b hlt h
    exact (hg.provider (hlt b List.mem_cons_self)).trans h
  | cons shell rest ih =>
    rintro b hlt ⟨hprovider, hkind, hrest⟩
    have hlt' := fun c hc => hlt c (List.mem_cons_of_mem _ hc)
    exact ⟨(hg.provider (hlt b List.mem_cons_self)).trans hprovider,
      (hg.kind (hlt' shell List.mem_cons_self)).trans hkind, ih hlt' hrest⟩

/-- A body comes to see nothing but what the names in it mean. -/
def SeesMore (s s' : Store) (c : BodyId) : Prop :=
  ∀ name v, isReserved name = false → s'.find? c name = some v →
    s.find? c name = some v ∨ s.find? c name = none ∧ s.lookup c name = some v

theorem Place.Planned.grow (h : p.Planned s outer) (hg : Store.Grows n s s') :
    p.Planned s' outer where
  created c hc := Nat.lt_of_lt_of_le (h.created c hc) hg.bodies
  kind := (hg.kind (h.created _ p.code_mem)).trans h.kind
  name hk := (hg.name (h.created _ p.code_mem)).trans (h.name hk)
  root := h.root
  leads := leads_mono hg h.created h.leads
  bare := h.bare

/-- **A place stays settled** when its bodies come to see nothing but what the names in them
mean. -/
theorem Place.Settled.grow (hs : s.WellFormed) (hg : Store.Grows n s s')
    (hglobals : ∀ c ∈ p.bodies, (s'.body c).globals = (s.body c).globals)
    (hmore : ∀ c ∈ p.bodies, SeesMore s s' c) (hp : p.Settled s outer)
    (houter : AllSettled s outer) : p.Settled s' outer where
  toPlanned := hp.toPlanned.grow hg
  globals := (hglobals _ p.code_mem).trans hp.globals
  clear c hc := (hglobals c (List.mem_cons_of_mem _ hc)).trans (hp.clear c hc)
  owns name hname hk hglobal hown := by
    obtain ⟨v, hv⟩ := hp.owns name hname hk hglobal hown
    exact ⟨v, hv.mono hs hg⟩
  sees c hc name v hname hf := by
    by_cases hown : name ∈ p.scope.own
    · exact .inl hown
    · refine .inr (meaning_mono hs hg ?_)
      rcases hmore c hc name v hname hf with hold | ⟨hnone, hl⟩
      · exact (hp.sees c hc name v hname hold).resolve_left hown
      · rw [← hl]
        refine (lookup_foreign hs.ordered hp (lookup_outer hs.ordered hname outer houter)
          hname hown hc fun hglobal => ?_).symm
        rw [Store.lookup, IR.Store.lookupPath_eq, Store.lookupAlong, hnone] at hl
        dsimp only at hl
        rw [if_pos hglobal] at hl
        cases hl
  hides name hglobal hname := by
    cases hf : s'.find? p.code name with
    | none => rfl
    | some v =>
      rcases hmore _ p.code_mem name v hname hf with hold | ⟨-, hl⟩
      · rw [hp.hides name hglobal hname] at hold
        cases hold
      · rw [lookup_global hp hname hglobal] at hl
        cases hl

/-- **Places stay settled** when their bodies come to see nothing but what the names in them
mean. -/
theorem AllSettled.grow (hs : s.WellFormed) (hg : Store.Grows n s s') :
    ∀ {places : List Place}, (∀ c ∈ bodiesOf places, c.index < n) →
      (∀ c ∈ bodiesOf places, SeesMore s s' c) → AllSettled s places → AllSettled s' places := by
  intro places hlt hmore h
  induction places with
  | nil => trivial
  | cons p outer ih =>
    have hlt := List.forall_mem_append.1 hlt
    have hmore := List.forall_mem_append.1 hmore
    exact ⟨h.1.grow hs hg (fun c hc => hg.globals (hlt.1 c hc)) hmore.1 h.2,
      ih hlt.2 hmore.2 h.2⟩

theorem seesMore_of_visible (hs : s.WellFormed) (hg : Store.Grows n s s')
    (h : s'.visible c = s.visible c) : SeesMore s s' c := fun _ _ _ hf =>
  .inl ((IR.Store.find?_congr h fun w hw => hg.var w (hs.seen c w hw).1).symm.trans hf)

/-- Resolving a name changes what a body finds for this name only, and only to what the name
means in the body. -/
theorem find?_resolve (hs : s.WellFormed) (b : BodyId) (name : String) (c : BodyId)
    (text : String) :
    (s.resolve b name).2.find? c text = s.find? c text ∨
      text = name ∧ s.find? c name = none ∧ ∃ v, s.lookup c name = some v ∧
        (s.resolve b name).2.find? c name = some v := by
  have hvars : ∀ v, (s.resolve b name).2.var v = s.var v := fun v => by
    rw [Store.var, IR.Store.vars_resolve, Store.var]
  rcases hs.ordered.resolve_visible s b name c with hsame | ⟨w, -, hnone, hl, hnew⟩
  · exact .inl (IR.Store.find?_congr hsame fun w _ => hvars w)
  · have hfind : ∀ text, (s.resolve b name).2.find? c text =
        (s.find? c text).or (if (s.var w).name == text then some w else none) := by
      intro text
      rw [Store.find?, hnew, List.find?_append, List.find?_singleton]
      simp only [hvars]
      rfl
    have hname := (hs.known_of_lookup hl).2.2
    by_cases htext : text = name
    · subst htext
      refine .inr ⟨rfl, hnone, w, hl, ?_⟩
      rw [hfind, hnone, Option.none_or, if_pos (beq_iff_eq.2 hname)]
    · left
      rw [hfind, hname, if_neg fun h => htext (beq_iff_eq.1 h).symm, Option.or_none]

theorem seesMore_resolve (hs : s.WellFormed) (b : BodyId) (name : String) (c : BodyId) :
    SeesMore s (s.resolve b name).2 c := by
  intro text v _ hf
  rcases find?_resolve hs b name c text with hsame | ⟨rfl, hnone, w, hl, hw⟩
  · exact .inl (hsame.symm.trans hf)
  · rw [hw] at hf
    cases hf
    exact .inr ⟨hnone, hl⟩

/-- **Resolving names keeps places settled.** -/
theorem settled_resolve (hs : s.WellFormed) (b : BodyId) (name : String)
    (h : AllSettled s places) : AllSettled (s.resolve b name).2 places :=
  h.grow hs (Store.Grows.resolve s.bodies.size s b name) h.created
    fun c _ => seesMore_resolve hs b name c

/-! ## The order of bodies -/

/-- The bodies around the code of a place are older. -/
theorem shells_older (hs : s.Ordered) {next : Option BodyId} {shells : List BodyId} :
    ∀ {b : BodyId}, s.Leads next b shells → ∀ c ∈ shells, c.index < b.index := by
  induction shells with
  | nil =>
    intro b _ c hc
    cases hc
  | cons shell rest ih =>
    intro b h c hc
    have hlt := hs b shell h.1
    rcases List.mem_cons.1 hc with rfl | hc
    · exact hlt
    · exact Nat.lt_trans (ih h.2.2 c hc) hlt

theorem leads_lt (hs : s.Ordered) {next : BodyId} {shells : List BodyId} :
    ∀ {b : BodyId}, s.Leads (some next) b shells → ∀ c ∈ b :: shells, next.index < c.index := by
  induction shells with
  | nil =>
    intro b h c hc
    rw [List.mem_singleton.1 hc]
    exact hs b next h
  | cons shell rest ih =>
    intro b h c hc
    rcases List.mem_cons.1 hc with rfl | hc
    · exact Nat.lt_trans (ih h.2.2 shell List.mem_cons_self) (hs _ shell h.1)
    · exact ih h.2.2 c hc

/-- The bodies of outer places are older. -/
theorem older_of_settled (hs : s.Ordered) : ∀ {outer : List Place} {p : Place},
    AllSettled s (p :: outer) → ∀ c ∈ bodiesOf outer, ∀ d ∈ p.bodies, c.index < d.index
  | q :: rest, p, h, c, hc, d, hd => by
    have hqd : q.code.index < d.index := leads_lt hs h.1.leads d hd
    rcases List.mem_append.1 hc with hc | hc
    · rcases List.mem_cons.1 hc with rfl | hc
      · exact hqd
      · exact Nat.lt_trans (shells_older hs h.2.1.leads c hc) hqd
    · exact Nat.lt_trans (older_of_settled hs h.2 c hc q.code q.code_mem) hqd

theorem outerPath_leads (hs : s.Ordered) {next : Option BodyId} {shells : List BodyId} :
    ∀ {b : BodyId}, s.Leads next b shells →
      ∃ last, (s.body last).provider = next ∧ s.outerPath b = shells ++ s.outerPath last := by
  induction shells with
  | nil => exact fun {b} h => ⟨b, h, rfl⟩
  | cons shell rest ih =>
    rintro b ⟨hprovider, hkind, hleads⟩
    obtain ⟨last, hlast, hpath⟩ := ih hleads
    refine ⟨last, hlast, ?_⟩
    rw [hs.outerPath_of_callable hprovider (by rw [Store.isModule, hkind]; rfl)
      (by rw [Store.isClass, hkind]; rfl), hpath]
    rfl

/-- A search stays in the bodies of the places around. -/
theorem outerPath_subset (hs : s.Ordered) : ∀ {outer : List Place}, AllSettled s outer →
    ∀ {b : BodyId}, (s.body b).provider = innermost? outer → s.outerPath b ⊆ bodiesOf outer
  | [], _, b, hb => by
    rw [IR.Store.outerPath_of_no_provider hb]
    exact List.nil_subset _
  | q :: rest, h, b, hb => by
    obtain ⟨last, hlast, hpath⟩ := outerPath_leads hs h.1.leads
    have hrest : s.outerPath last ⊆ bodiesOf (q :: rest) :=
      List.Subset.trans (outerPath_subset hs h.2 hlast) (List.subset_append_right _ _)
    have hshells : s.outerPath q.code ⊆ bodiesOf (q :: rest) := by
      rw [hpath]
      exact List.append_subset.2 ⟨fun c hc =>
        List.mem_append_left _ (List.mem_cons_of_mem _ hc), hrest⟩
    cases hm : s.isModule q.code with
    | true =>
      rw [hs.outerPath_of_module hb hm]
      exact List.nil_subset _
    | false =>
      cases hc : s.isClass q.code with
      | true =>
        rw [hs.outerPath_of_class hb hm hc]
        exact hshells
      | false =>
        rw [hs.outerPath_of_callable hb hm hc]
        exact List.cons_subset.2 ⟨List.mem_append_left _ q.code_mem, hshells⟩

/-- A search in the code of a place stays in the bodies of the places. -/
theorem lookupPath_subset (hs : s.Ordered) (h : AllSettled s (p :: outer)) :
    s.lookupPath p.code ⊆ bodiesOf (p :: outer) := by
  obtain ⟨last, hlast, hpath⟩ := outerPath_leads hs h.1.leads
  rw [IR.Store.lookupPath_eq, hpath]
  refine List.cons_subset.2 ⟨List.mem_append_left _ p.code_mem, List.append_subset.2 ⟨?_, ?_⟩⟩
  · exact fun c hc => List.mem_append_left _ (List.mem_cons_of_mem _ hc)
  · exact List.Subset.trans (outerPath_subset hs h.2 hlast) (List.subset_append_right _ _)

/-- Resolving a name in the code of a place leaves all other bodies alone. -/
theorem visible_resolve_of_not_mem (hs : s.WellFormed) (h : AllSettled s (p :: outer))
    (name : String) (hc : c ∉ bodiesOf (p :: outer)) :
    (s.resolve p.code name).2.visible c = s.visible c := by
  rcases hs.ordered.resolve_visible s p.code name c with hsame | ⟨-, hmem, -⟩
  · exact hsame
  · exact absurd (lookupPath_subset hs.ordered h hmem) hc

end DefinitionLowering
