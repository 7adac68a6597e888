import DefinitionLowering.Lowering.Scope
import DefinitionLowering.Proofs.Settled
import DefinitionLowering.Proofs.Violations

/-!
# Opening a scope

Opening a scope turns a place that owns its parameters only into one that owns what the
statements of the scope bind as well.  `Opening` is what holds between two declarations;
`openScope_spec` says that the place is settled in the end, or that one of the declarations is a
violation.
-/

namespace DefinitionLowering

open IR (BodyId VariableId Store)
open Surface (Scope Header Declaration search spellAt)

variable {s₀ s s' : Store} {p : Place} {outer : List Place} {b c : BodyId} {v : VariableId}
  {name : String} {own globals nonlocals : List String}

namespace IR.Store

theorem visible_modifyBody {f : Body → Body} (hf : ∀ body, (f body).visible = body.visible) :
    (s.modifyBody b f).visible c = s.visible c :=
  body_modifyBody_of (P := fun body => body.visible = s.visible c) (fun h => (hf _).trans h) rfl

theorem find?_modifyBody {f : Body → Body} (hf : ∀ body, (f body).visible = body.visible) :
    (s.modifyBody b f).find? c name = s.find? c name :=
  find?_congr (visible_modifyBody hf) fun _ _ => rfl

end IR.Store

/-- The place with other names of its own and other global names. -/
def Place.withNames (p : Place) (own globals : List String) : Place :=
  { p with scope := { p.scope with own := own, globals := globals } }

namespace Lowering

theorem isParameter_congr (hf : s'.find? b name = s.find? b name)
    (hvar : ∀ v, s.find? b name = some v → s'.var v = s.var v)
    (hkind : (s'.body b).kind = (s.body b).kind)
    (hprovider : (s'.body b).provider = (s.body b).provider) :
    isParameter s' b name = isParameter s b name := by
  unfold isParameter
  rw [hf]
  cases h : s.find? b name with
  | none => rfl
  | some v => simp only [hvar v h, hkind, hprovider]

theorem isParameter_of_none (h : s.find? b name = none) : isParameter s b name = false := by
  unfold isParameter
  rw [h]

/-- A variable from around is no parameter of the scope. -/
theorem isParameter_of_older (hs : s.Ordered) (h : AllSettled s (p :: outer))
    (hobject : p.scope.kind.isObject = true → p.shells ≠ [])
    (hf : s.find? p.code name = some v) (howner : (s.var v).owner ∈ bodiesOf outer) :
    isParameter s p.code name = false := by
  have holder := older_of_settled hs h _ howner
  have hself : (s.var v).owner ≠ p.code := fun he =>
    Nat.lt_irrefl _ (he ▸ holder p.code p.code_mem)
  unfold isParameter
  rw [hf]
  simp only [Bool.and_eq_false_iff, Bool.or_eq_false_iff, beq_eq_false_iff_ne]
  refine .inr ⟨hself, ?_⟩
  by_cases hkind : (s.body p.code).kind.isObject = true
  · refine .inr fun hprovider => ?_
    obtain ⟨shell, rest, hsplit⟩ := List.exists_cons_of_ne_nil (hobject (h.1.kind ▸ hkind))
    have hleads := h.1.leads
    rw [hsplit] at hleads
    have heq : (s.var v).owner = shell := Option.some.inj (hprovider.symm.trans hleads.1)
    have hmem : shell ∈ p.bodies := by
      rw [Place.bodies, hsplit]
      exact List.mem_cons_of_mem _ List.mem_cons_self
    exact Nat.lt_irrefl _ (heq ▸ holder shell hmem)
  · exact .inl (Bool.eq_false_iff.2 hkind)

/-- What a name means around is a variable of a body around. -/
theorem owner_of_meaning (h : AllSettled s outer) (hname : isReserved name = false)
    (hm : meaning s name outer = some v) : (s.var v).owner ∈ bodiesOf outer := by
  obtain ⟨q, hq, hf⟩ := Option.bind_eq_some_iff.1 hm
  obtain ⟨hmem, ⟨kind, hkind⟩, hglobal, hown⟩ := Surface.search_eq_some hq
  obtain ⟨rest, hsettled⟩ := h.of_mem hmem
  obtain ⟨w, hw, howner⟩ := hsettled.owns name hname (by rw [hkind]; exact BodyKind.noConfusion)
    hglobal hown
  rw [hw] at hf
  cases hf
  exact List.mem_flatMap.2 ⟨q, hmem, howner⟩

/-- A name has a meaning around if the resolver finds a scope for it. -/
theorem isSome_meaning (h : AllSettled s outer) (hname : isReserved name = false) :
    (meaning s name outer).isSome = true ↔ search id name (scopesOf outer) ≠ none := by
  rw [scopesOf, Surface.search_map, meaning]
  cases hq : search Place.scope name outer with
  | none => simp
  | some q =>
    obtain ⟨hmem, ⟨kind, hkind⟩, hglobal, hown⟩ := Surface.search_eq_some hq
    obtain ⟨rest, hsettled⟩ := h.of_mem hmem
    obtain ⟨v, hv, -⟩ := hsettled.owns name hname (by rw [hkind]; exact BodyKind.noConfusion)
      hglobal hown
    simp [hv]

/-- A place whose scope is being opened, since the store `s₀`: some names have been declared
nonlocal so far. -/
structure Opening (s₀ s : Store) (outer : List Place) (p : Place) (nonlocals : List String) :
    Prop where
  wellFormed : s.WellFormed
  around : AllSettled s outer
  place : p.Settled s outer
  object : p.scope.kind.isObject = true → p.shells ≠ []
  params : ∀ name, isParameter s p.code name = true ↔ name ∈ p.scope.params
  seen : ∀ name v, isReserved name = false → s.find? p.code name = some v →
    name ∈ p.scope.own ∨ name ∈ nonlocals
  found : ∀ name ∈ nonlocals, (s.find? p.code name).isSome = true
  grows : Store.Grows p.code.index s₀ s
  frame : ∀ c ∉ bodiesOf (p :: outer), s.visible c = s₀.visible c
  size : s.bodies.size = s₀.bodies.size
  codes : ∀ c, (s.body c).code = (s₀.body c).code

namespace Opening

theorem settled (h : Opening s₀ s outer p nonlocals) : AllSettled s (p :: outer) :=
  ⟨h.place, h.around⟩

/-- A later store in which the places around are as before. -/
theorem around_grow (h : Opening s₀ s outer p nonlocals) (hg : Store.Grows p.code.index s s')
    (hmore : ∀ c ∈ bodiesOf outer, SeesMore s s' c) : AllSettled s' outer :=
  h.around.grow h.wellFormed hg
    (fun c hc => older_of_settled h.wellFormed.ordered h.settled c hc p.code p.code_mem) hmore

/-- A change of the code body that is about neither what it sees nor its code. -/
theorem modifyBody (h : Opening s₀ s outer p nonlocals) {f : IR.Body → IR.Body}
    (hplan : ∀ body, (f body).plan = body.plan) (hvisible : ∀ body, (f body).visible = body.visible)
    (hcode : ∀ body, (f body).code = body.code) (hwf : (s.modifyBody p.code f).WellFormed)
    {more : List String}
    (hglobals : (f (s.body p.code)).globals = p.scope.globals ++ more)
    (hhides : ∀ name ∈ more, isReserved name = false → s.find? p.code name = none) :
    Opening s₀ (s.modifyBody p.code f) outer
      (p.withNames p.scope.own (p.scope.globals ++ more)) nonlocals := by
  have hfind : ∀ c name, (s.modifyBody p.code f).find? c name = s.find? c name := fun c name =>
    IR.Store.find?_modifyBody hvisible
  have hg : Store.Grows p.code.index s (s.modifyBody p.code f) :=
    Store.Grows.modifyBody hplan (fun body => (hvisible body).symm ▸ List.prefix_rfl)
      (fun block hc => (hcode _).trans hc) (.inl (Nat.le_refl _))
  have hplace := h.place
  refine ⟨hwf, h.around_grow hg fun c _ => seesMore_of_visible h.wellFormed hg
    (IR.Store.visible_modifyBody hvisible), ?_, h.object, fun name => ?_, fun name v hname hf => ?_,
    fun name hmem => ?_, h.grows.trans hg (Nat.le_refl _), fun c hc => ?_, ?_, fun c => ?_⟩
  · refine
      { created := (hplace.toPlanned.grow hg).created
        kind := (hplace.toPlanned.grow hg).kind
        name := (hplace.toPlanned.grow hg).name
        root := hplace.root
        leads := (hplace.toPlanned.grow hg).leads
        bare := hplace.bare
        globals := ?_
        clear := fun c hc => ?_
        owns := fun name hname hk hglobal hown => ?_
        sees := fun c hc name v hname hf => ?_
        hides := fun name hglobal hname => ?_ }
    · show ((s.modifyBody p.code f).body p.code).globals = _
      rw [IR.Store.body_modifyBody_self (hplace.created _ p.code_mem)]
      exact hglobals
    · have hne : p.code ≠ c := fun he =>
        Nat.lt_irrefl _ (he ▸ shells_older h.wellFormed.ordered hplace.leads c hc)
      rw [IR.Store.body_modifyBody_ne hne]
      exact hplace.clear c hc
    · obtain ⟨v, hv, howner⟩ := hplace.owns name hname hk
        (fun h => hglobal (List.mem_append_left _ h)) hown
      exact ⟨v, (hfind _ _).trans hv, howner⟩
    · rw [hfind] at hf
      refine (hplace.sees c hc name v hname hf).imp_right fun hm => ?_
      exact meaning_mono h.wellFormed hg hm
    · show (s.modifyBody p.code f).find? p.code name = none
      rw [hfind]
      rcases List.mem_append.1 hglobal with hold | hnew
      · exact hplace.hides name hold hname
      · exact hhides name hnew hname
  · show isParameter (s.modifyBody p.code f) p.code name = true ↔ name ∈ p.scope.params
    rw [← h.params name]
    exact iff_of_eq (congrArg (· = true) (isParameter_congr (hfind _ _) (fun _ _ => rfl)
      (hg.kind (hplace.created _ p.code_mem)) (hg.provider (hplace.created _ p.code_mem))))
  · exact h.seen name v hname ((hfind _ _).symm.trans hf)
  · exact (congrArg _ (hfind _ _)).trans (h.found name hmem)
  · rw [IR.Store.visible_modifyBody hvisible]
    exact h.frame c hc
  · rw [IR.Store.size_bodies_modifyBody]
    exact h.size
  · rw [← h.codes c]
    exact IR.Store.body_modifyBody_of (P := fun body => body.code = (s.body c).code)
      (fun h => (hcode _).trans h) rfl

theorem addGlobal (h : Opening s₀ s outer p nonlocals)
    (hnone : isReserved name = false → s.find? p.code name = none) :
    Opening s₀ (s.addGlobal p.code name) outer
      (p.withNames p.scope.own (p.scope.globals ++ [name])) nonlocals :=
  h.modifyBody (f := fun body => { body with globals := body.globals ++ [name] }) (fun _ => rfl)
    (fun _ => rfl) (fun _ => rfl) h.wellFormed.addGlobal (by rw [h.place.globals])
      fun text htext hname => by
      obtain rfl := List.mem_singleton.1 htext
      exact hnone hname

theorem addNonlocal (h : Opening s₀ s outer p nonlocals) {declaration : IR.NonlocalDeclaration} :
    Opening s₀ (s.addNonlocal p.code declaration) outer p nonlocals := by
  have := h.modifyBody (f := fun body =>
    { body with nonlocals := body.nonlocals ++ [declaration] }) (fun _ => rfl) (fun _ => rfl)
    (fun _ => rfl) h.wellFormed.addNonlocal (by rw [h.place.globals, List.append_nil])
    fun _ hname => absurd hname List.not_mem_nil
  rw [List.append_nil] at this
  exact this

/-- Before names are bound, a name that is no parameter means what it means around. -/
theorem lookup_eq (h : Opening s₀ s outer p nonlocals) (hname : isReserved name = false)
    (hown : name ∉ p.scope.own) (hglobal : name ∉ p.scope.globals) :
    s.lookup p.code name = meaning s name outer :=
  lookup_foreign h.wellFormed.ordered h.place
    (lookup_outer h.wellFormed.ordered hname outer h.around) hname hown p.code_mem
    (h.place.globals ▸ hglobal)

/-- A nonlocal name is found around, and the scope sees it from then on. -/
theorem resolve (h : Opening s₀ s outer p nonlocals) (hname : isReserved name = false)
    (hown : name ∉ p.scope.own) (hglobal : name ∉ p.scope.globals)
    (hparam : name ∉ p.scope.params) (hm : (meaning s name outer).isSome = true) :
    Opening s₀ (s.resolve p.code name).2 outer p (nonlocals ++ [name]) := by
  have hg := Store.Grows.resolve p.code.index s p.code name
  have hsettled := settled_resolve h.wellFormed p.code name h.settled
  have hfind := find?_resolve h.wellFormed p.code name p.code
  refine ⟨h.wellFormed.resolve p.code name, hsettled.2, hsettled.1, h.object, fun text => ?_,
    fun text v htext hf => ?_, fun text hmem => ?_, h.grows.trans hg (Nat.le_refl _),
    fun c hc => ?_, ?_, fun c => ?_⟩
  · rw [← h.params text]
    rcases hfind text with hsame | ⟨rfl, hnone, w, hl, hw⟩
    · exact iff_of_eq (congrArg (· = true) (isParameter_congr hsame
        (fun v hv => (find?_mono h.wellFormed hg hv).2)
        (hg.kind (h.place.created _ p.code_mem)) (hg.provider (h.place.created _ p.code_mem))))
    · have hfalse : isParameter (s.resolve p.code text).2 p.code text = false := by
        refine isParameter_of_older (h.wellFormed.resolve _ _).ordered hsettled h.object hw ?_
        rw [h.lookup_eq hname hown hglobal] at hl
        rw [Store.var, IR.Store.vars_resolve]
        exact owner_of_meaning h.around hname hl
      rw [hfalse, h.params text]
      exact ⟨Bool.noConfusion, fun hmem => absurd hmem hparam⟩
  · rcases hfind text with hsame | ⟨rfl, -⟩
    · exact (h.seen text v htext (hsame.symm.trans hf)).imp_right (List.mem_append_left _)
    · exact .inr (List.mem_append_right _ (List.mem_singleton_self _))
  · rcases List.mem_append.1 hmem with hmem | hmem
    · obtain ⟨v, hv⟩ := Option.isSome_iff_exists.1 (h.found text hmem)
      rw [(find?_mono h.wellFormed hg hv).1]
      rfl
    · obtain rfl := List.mem_singleton.1 hmem
      obtain ⟨v, hv⟩ := Option.isSome_iff_exists.1 hm
      exact Option.isSome_iff_exists.2 ⟨v, IR.Store.Ordered.find?_resolve_self _ _ _
        h.wellFormed.ordered (h.place.created _ p.code_mem)
        ((h.lookup_eq hname hown hglobal).trans hv)⟩
  · rw [visible_resolve_of_not_mem h.wellFormed h.settled name hc]
    exact h.frame c hc
  · rw [IR.Store.size_bodies_resolve]
    exact h.size
  · rw [(Store.Grows.resolve (c.index + 1) s p.code name).code_eq (Nat.lt_succ_self _)]
    exact h.codes c

/-- Only names that are neither reserved nor global matter among those a scope owns. -/
theorem congr_own (h : Opening s₀ s outer p nonlocals)
    (hless : ∀ name ∈ own, isReserved name = false → name ∉ p.scope.globals →
      name ∈ p.scope.own)
    (hmore : p.scope.own ⊆ own) :
    Opening s₀ s outer (p.withNames own p.scope.globals) nonlocals where
  wellFormed := h.wellFormed
  around := h.around
  place :=
    { h.place with
      owns := fun name hname hk hglobal hmem =>
        h.place.owns name hname hk hglobal (hless name hmem hname hglobal)
      sees := fun c hc name v hname hf =>
        (h.place.sees c hc name v hname hf).imp_left fun hmem => hmore hmem }
  object := h.object
  params := h.params
  seen name v hname hf := (h.seen name v hname hf).imp_left fun hmem => hmore hmem
  found := h.found
  grows := h.grows
  frame := h.frame
  size := h.size
  codes := h.codes

section NewLocal

variable (hnew : Store.NewLocal p.code name s s')

include hnew

/-- A place whose code gets a local owns its name from then on. -/
theorem settled_newLocal (h : Opening s₀ s outer p nonlocals) (hglobal : name ∉ p.scope.globals) :
    (p.withNames (p.scope.own ++ [name]) p.scope.globals).Settled s' outer := by
  have hcode := h.place.created _ p.code_mem
  have hg := hnew.grows p.code.index
  have hglobals := Store.view_of_grows hnew.grows IR.Body.globals fun _ => rfl
  have hplan := h.place.toPlanned.grow hg
  refine
    { created := hplan.created
      kind := hplan.kind
      name := hplan.name
      root := hplan.root
      leads := hplan.leads
      bare := hplan.bare
      globals := (hglobals p.code).trans h.place.globals
      clear := fun c hc => (hglobals c).trans (h.place.clear c hc)
      owns := fun text htext hk hnot hmem => ?owns
      sees := fun c hc text v htext hv => ?sees
      hides := fun text hmem htext => ?hides }
  case owns =>
    rcases List.mem_append.1 hmem with hmem | hmem
    · obtain ⟨v, hv⟩ := h.place.owns text htext hk hnot hmem
      exact ⟨v, hv.mono h.wellFormed hg⟩
    · obtain rfl := List.mem_singleton.1 hmem
      exact ⟨_, hnew.find?_self h.wellFormed hcode, by rw [hnew.var]; exact p.code_mem⟩
  case sees =>
    by_cases htn : text = name
    · exact .inl (List.mem_append_right _ (List.mem_singleton.2 htn))
    · have hv := (hnew.find?_ne h.wellFormed (.inr htn)).symm.trans hv
      exact (h.place.sees c hc text v htext hv).imp (List.mem_append_left _)
        (meaning_mono h.wellFormed hg)
  case hides =>
    have hne : text ≠ name := fun he => hglobal (he ▸ hmem)
    exact (hnew.find?_ne h.wellFormed (.inr hne)).trans (h.place.hides text hmem htext)

/-- A new local is no parameter, and no parameter is one. -/
theorem isParameter_newLocal (h : Opening s₀ s outer p nonlocals) (text : String) :
    isParameter s' p.code text = isParameter s p.code text := by
  have hcode := h.place.created _ p.code_mem
  have hg := hnew.grows p.code.index
  by_cases htn : text = name
  · subst htn
    rw [isParameter_of_none hnew.fresh, isParameter, hnew.find?_self h.wellFormed hcode]
    simp [hnew.var]
  · exact isParameter_congr (hnew.find?_ne h.wellFormed (.inr htn))
      (fun v hv => (find?_mono h.wellFormed hg hv).2) (hg.kind hcode) (hg.provider hcode)

/-- A new local is one of the scope's own names. -/
theorem newLocal (h : Opening s₀ s outer p nonlocals) (hglobal : name ∉ p.scope.globals) :
    Opening s₀ s' outer (p.withNames (p.scope.own ++ [name]) p.scope.globals) nonlocals where
  wellFormed := hnew.wellFormed h.wellFormed (h.place.created _ p.code_mem)
  around := h.around_grow (hnew.grows _) fun c hc =>
    seesMore_of_visible h.wellFormed (hnew.grows 0) (hnew.others c fun he =>
      Nat.lt_irrefl _ (he ▸ older_of_settled h.wellFormed.ordered h.settled c hc p.code p.code_mem))
  place := h.settled_newLocal hnew hglobal
  object := h.object
  params text := (iff_of_eq (congrArg (· = true) (h.isParameter_newLocal hnew text))).trans
    (h.params text)
  seen text v htext hv := by
    by_cases htn : text = name
    · exact .inl (List.mem_append_right _ (List.mem_singleton.2 htn))
    · have hv := (hnew.find?_ne h.wellFormed (.inr htn)).symm.trans hv
      exact (h.seen text v htext hv).imp_left (List.mem_append_left _)
  found text hmem := by
    obtain ⟨v, hv⟩ := Option.isSome_iff_exists.1 (h.found text hmem)
    exact Option.isSome_iff_exists.2 ⟨v, (find?_mono h.wellFormed (hnew.grows 0) hv).1⟩
  grows := h.grows.trans (hnew.grows _) (Nat.le_refl _)
  frame c hc := by
    rw [hnew.others c fun he => hc (he ▸ List.mem_append_left _ p.code_mem)]
    exact h.frame c hc
  size := hnew.bodies.trans h.size
  codes c := (Store.view_of_grows hnew.grows IR.Body.code (fun _ => rfl) c).trans (h.codes c)

end NewLocal

/-- A bound name that is neither global nor nonlocal is one of the scope's own from then on. -/
theorem declareLocal (h : Opening s₀ s outer p nonlocals)
    (hglobal : name ∉ p.scope.globals) (hnonlocal : name ∉ nonlocals) :
    Opening s₀ (s.declareLocal p.code name).2 outer
      (p.withNames (p.scope.own ++ [name]) p.scope.globals) nonlocals := by
  rcases Store.declareLocal_cases (h.place.created _ p.code_mem) name with ⟨v, hf, hsame⟩ | hnew
  · rw [hsame]
    refine h.congr_own (fun text hmem htext _ => ?_) (List.subset_append_left _ _)
    rcases List.mem_append.1 hmem with hmem | hmem
    · exact hmem
    · obtain rfl := List.mem_singleton.1 hmem
      exact (h.seen text v htext hf).resolve_right hnonlocal
  · exact h.newLocal hnew hglobal

end Opening

/-! ## The declarations of a scope -/

/-- The place of a scope with a header, as far as it has been opened. -/
def placeAt (h : Header) (outer : List Place) (code : BodyId) (shells : List BodyId)
    (own globals : List String) : Place where
  scope := ⟨h.kind, h.name, h.paramNames (scopesOf outer), own, globals⟩
  code := code
  shells := shells

/-- A step fails with one of the listed rejections. -/
def FailsIn (violations : List Rejection) (failure : Failure) : Prop :=
  ∃ r ∈ violations, failure = .rejected r

theorem FailsIn.mono {violations more : List Rejection} {failure : Failure}
    (h : FailsIn violations failure) (hsub : violations ⊆ more) : FailsIn more failure := by
  obtain ⟨r, hr, rfl⟩ := h
  exact ⟨r, hsub hr, rfl⟩

section Declarations

variable {h : Header} {code : BodyId} {shells : List BodyId}

theorem Opening.spell (ho : Opening s₀ s outer (placeAt h outer code shells own globals) nonlocals)
    (name : String) : s.spell code name = h.spell (scopesOf outer) name :=
  spell_settled ho.wellFormed.ordered name _ outer ho.settled

theorem declareGlobal_spec (declared : String × Location)
    (ho : Opening s₀ s outer
      (placeAt h outer code shells (h.paramNames (scopesOf outer)) globals) []) :
    Ends (declareGlobal code declared.1 declared.2) s
      (fun _ s' => Opening s₀ s' outer (placeAt h outer code shells
          (h.paramNames (scopesOf outer)) (globals ++ [h.spell (scopesOf outer) declared.1])) [] ∧
        h.globalViolation (scopesOf outer) declared = [])
      fun failure _ => FailsIn (h.globalViolation (scopesOf outer) declared) failure := by
  unfold declareGlobal refuseParameter
  rw [ends_bind, ends_spell, ho.spell, ends_bind, ends_bind, ends_query, Header.globalViolation]
  have hparam : isParameter s code (h.spell (scopesOf outer) declared.1) = true ↔
      h.spell (scopesOf outer) declared.1 ∈ h.paramNames (scopesOf outer) := ho.params _
  split
  · rename_i hrefused
    have hmem := hparam.1 hrefused
    rw [if_pos hmem]
    exact ⟨_, List.mem_singleton_self _, rfl⟩
  · rename_i haccepted
    have hnot := fun hmem => haccepted (hparam.2 hmem)
    rw [if_neg hnot]
    refine ⟨ho.addGlobal fun hname => ?_, rfl⟩
    cases hf : s.find? code (h.spell (scopesOf outer) declared.1) with
    | none => exact hf
    | some v => exact absurd ((ho.seen _ v hname hf).resolve_right List.not_mem_nil) hnot

/-- Whether a nonlocal name has a variable around is what the resolver says. -/
theorem resolveOuter_spec {own : List String}
    (ho : Opening s₀ s outer (placeAt h outer code shells own globals) nonlocals)
    (hname : isReserved name = false) (hown : name ∉ own)
    (hparam : name ∉ h.paramNames (scopesOf outer)) :
    Ends (resolveOuter code name) s
      (fun found s' =>
        (found = true ↔ name ∉ globals ∧ search id name (scopesOf outer) ≠ none) ∧
        (found = true → Opening s₀ s' outer (placeAt h outer code shells own globals)
          (nonlocals ++ [name])))
      fun _ _ => False := by
  unfold resolveOuter
  rw [ends_bind, ends_query]
  have hmeaning := isSome_meaning ho.around hname
  cases hf : s.find? code name with
  | some v =>
    have hglobal : name ∉ globals := fun hmem => by
      have hnone : s.find? code name = none := ho.place.hides name hmem hname
      rw [hf] at hnone
      cases hnone
    have hm : meaning s name outer = some v :=
      (ho.place.sees code (Place.code_mem _) name v hname hf).resolve_left hown
    have howner := older_of_settled ho.wellFormed.ordered ho.settled _
      (owner_of_meaning ho.around hname hm) code (Place.code_mem _)
    refine ⟨⟨fun _ => ⟨hglobal, hmeaning.1 (by rw [hm]; rfl)⟩, fun _ => ?_⟩, fun _ => ?_⟩
    · exact bne_iff_ne.2 fun he => Nat.lt_irrefl _ (he ▸ howner)
    · exact
        { ho with
          seen := fun text w htext hw =>
            (ho.seen text w htext hw).imp_right (List.mem_append_left _)
          found := fun text hmem => (List.mem_append.1 hmem).elim (ho.found text) fun hmem => by
            rw [List.mem_singleton.1 hmem]
            exact Option.isSome_iff_exists.2 ⟨v, hf⟩ }
  | none =>
    dsimp only [Option.map_none]
    rw [ends_bind]
    refine ends_operate.2 ?_
    show (((s.resolve code name).1.isSome = true ↔ _) ∧ _)
    rw [IR.Store.resolve_fst]
    by_cases hglobal : name ∈ globals
    · have hnone : s.lookup code name = none := lookup_global ho.place hname hglobal
      rw [hnone]
      exact ⟨⟨Bool.noConfusion, fun h => absurd hglobal h.1⟩, Bool.noConfusion⟩
    · have hl : s.lookup code name = meaning s name outer := ho.lookup_eq hname hown hglobal
      rw [hl]
      exact ⟨⟨fun h => ⟨hglobal, hmeaning.1 h⟩, fun h => hmeaning.2 h.2⟩,
        fun h => ho.resolve hname hown hglobal hparam h⟩

theorem declareNonlocal_spec (declared : String × Location)
    (hname : isReserved declared.1 = false)
    (ho : Opening s₀ s outer (placeAt h outer code shells (h.paramNames (scopesOf outer))
      (h.scope (scopesOf outer)).globals) nonlocals) :
    Ends (declareNonlocal code declared.1 declared.2) s
      (fun _ s' => Opening s₀ s' outer (placeAt h outer code shells
          (h.paramNames (scopesOf outer)) (h.scope (scopesOf outer)).globals)
          (nonlocals ++ [h.spell (scopesOf outer) declared.1]) ∧
        h.nonlocalViolation (scopesOf outer) declared = [])
      fun failure _ => FailsIn (h.nonlocalViolation (scopesOf outer) declared) failure := by
  unfold declareNonlocal refuseParameter
  rw [ends_bind, ends_spell, ho.spell, ends_bind, ends_bind, ends_query, Header.nonlocalViolation]
  have hparam : isParameter s code (h.spell (scopesOf outer) declared.1) = true ↔
      h.spell (scopesOf outer) declared.1 ∈ h.paramNames (scopesOf outer) := ho.params _
  have hplain : isReserved (h.spell (scopesOf outer) declared.1) = false := by
    rw [isReserved_headerSpell, hname]
  split
  · rename_i hrefused
    rw [if_pos (hparam.1 hrefused)]
    exact ⟨_, List.mem_singleton_self _, rfl⟩
  · rename_i haccepted
    have hnot := fun hmem => haccepted (hparam.2 hmem)
    rw [if_neg hnot, ends_pure, ends_bind]
    refine (resolveOuter_spec ho hplain hnot hnot).weaken (fun found s' hfound => ?_)
      fun _ _ hfalse => hfalse.elim
    obtain ⟨hiff, hopen⟩ := hfound
    split
    · rename_i htrue
      rw [if_neg fun hbad => hbad.elim (hiff.1 htrue).1 (hiff.1 htrue).2]
      exact ⟨(hopen htrue).addNonlocal, rfl⟩
    · rename_i hfalse
      rw [if_pos (by_contra fun hbad => hfalse (hiff.2 (not_or.1 hbad)))]
      exact ⟨_, List.mem_singleton_self _, rfl⟩

theorem declareBinding_spec (written : String)
    (ho : Opening s₀ s outer (placeAt h outer code shells own globals) nonlocals) :
    Ends (declareBinding code written) s
      (fun _ s' => Opening s₀ s' outer (placeAt h outer code shells
        (own ++ [h.spell (scopesOf outer) written].filter (· ∉ nonlocals)) globals) nonlocals)
      fun failure _ => FailsIn [] failure := by
  unfold declareBinding
  rw [ends_bind, ends_spell, ho.spell, ends_bind, ends_query]
  set name := h.spell (scopesOf outer) written
  have hglobals : (s.body code).globals = globals := ho.place.globals
  rw [hglobals]
  by_cases hglobal : name ∈ globals
  · rw [if_pos (List.contains_iff_mem.2 hglobal)]
    refine ho.congr_own (fun text hmem _ hnot => ?_) (List.subset_append_left _ _)
    rcases List.mem_append.1 hmem with hmem | hmem
    · exact hmem
    · obtain rfl := List.mem_singleton.1 (List.mem_of_mem_filter hmem)
      exact absurd hglobal hnot
  · rw [if_neg fun h => hglobal (List.contains_iff_mem.1 h)]
    by_cases hnonlocal : name ∈ nonlocals
    · obtain ⟨v, hv⟩ : ∃ v, s.find? code name = some v :=
        Option.isSome_iff_exists.1 (ho.found name hnonlocal)
      refine ends_modify.2 ?_
      rw [IR.Store.declareLocal_of_find hv, List.filter_cons_of_neg (by simpa using hnonlocal),
        List.filter_nil, List.append_nil]
      exact ho
    · rw [List.filter_cons_of_pos (by simpa using hnonlocal)]
      exact ho.declareLocal hglobal hnonlocal

/-- Declarations are made one after the other; each may be a violation. -/
theorem forM_spec {γ : Type} {step : γ → Lowering Unit} {items : List γ}
    (violation : γ → List Rejection) (inv : List γ → Store → Prop)
    (hstep : ∀ item ∈ items, ∀ before s, inv before s → Ends (step item) s
      (fun _ s' => inv (before ++ [item]) s' ∧ violation item = [])
      fun failure _ => FailsIn (violation item) failure) :
    ∀ before s, inv before s → Ends (items.forM step) s
      (fun _ s' => inv (before ++ items) s' ∧ items.flatMap violation = [])
      fun failure _ => FailsIn (items.flatMap violation) failure := by
  induction items with
  | nil => exact fun before s h => ⟨by rw [List.append_nil]; exact h, rfl⟩
  | cons item rest ih =>
    intro before s hinv
    show Ends (step item >>= fun _ => rest.forM step) s _ _
    rw [ends_bind, List.flatMap_cons]
    refine (hstep item List.mem_cons_self before s hinv).weaken (fun _ s₁ h => ?_)
      fun _ _ h => h.mono (List.subset_append_left _ _)
    refine (ih (fun other ho => hstep other (List.mem_cons_of_mem _ ho)) _ s₁ h.1).weaken
      (fun _ s₂ h' => ?_) fun _ _ h => h.mono (List.subset_append_right _ _)
    rw [List.append_assoc] at h'
    exact ⟨h'.1, by rw [h.2, h'.2]; rfl⟩

/-- **Opening the scope of a callable or a class** settles its place, unless one of the
declarations is a violation. -/
theorem openScope_spec {statements : List Surface.Stmt}
    (hdeclared : h.declarations = Surface.declarations statements)
    (hplain : ∀ declared ∈ h.nonlocals, isReserved declared.1 = false)
    (hkind : h.kind ≠ .moduleBody)
    (ho : Opening s₀ s₀ outer
      (placeAt h outer code shells (h.paramNames (scopesOf outer)) []) []) :
    Ends (openScope code statements) s₀
      (fun _ s' => (∃ nonlocals, Opening s₀ s' outer ⟨h.scope (scopesOf outer), code, shells⟩
          nonlocals) ∧ h.declarationViolations (scopesOf outer) = [])
      fun failure _ => FailsIn (h.declarationViolations (scopesOf outer)) failure := by
  have hglobals : Surface.globalNames statements = h.globals := by
    rw [Surface.globalNames, Header.globals, hdeclared]
  have hnonlocals : Surface.nonlocalNames statements = h.nonlocals := by
    rw [Surface.nonlocalNames, Header.nonlocals, hdeclared]
  have hbound : Surface.boundNames statements = h.bound := by
    rw [Surface.boundNames, Header.bound, hdeclared]
  have hmodule : ((s₀.body code).kind == .moduleBody) = false := by
    have hk : (s₀.body code).kind = h.kind := ho.place.kind
    rw [hk]
    exact beq_eq_false_iff_ne.2 hkind
  have hviolations : h.declarationViolations (scopesOf outer) =
      h.globals.flatMap (h.globalViolation (scopesOf outer)) ++
        h.nonlocals.flatMap (h.nonlocalViolation (scopesOf outer)) := if_neg hkind
  unfold openScope
  rw [ends_bind, ends_kindOf, hmodule, hglobals, hnonlocals, hbound, hviolations]
  dsimp only
  rw [if_neg Bool.false_ne_true, ends_bind]
  -- First the global names, then the nonlocal ones, and what is bound at the end.
  let spelled := fun declared : String × Location => h.spell (scopesOf outer) declared.1
  refine (forM_spec _ (fun before s => Opening s₀ s outer (placeAt h outer code shells
    (h.paramNames (scopesOf outer)) (before.map spelled)) []) (fun declared _ before s ho => ?_)
    [] s₀ ho).weaken (fun _ s₁ h₁ => ?_) fun _ _ hf => hf.mono (List.subset_append_left _ _)
  · rw [List.map_append]
    exact declareGlobal_spec declared ho
  rw [ends_bind]
  refine (forM_spec _ (fun before s => Opening s₀ s outer (placeAt h outer code shells
    (h.paramNames (scopesOf outer)) (h.scope (scopesOf outer)).globals) (before.map spelled))
    (fun declared hd before s ho => ?_) [] s₁ h₁.1).weaken (fun _ s₂ h₂ => ?_)
    fun _ _ hf => hf.mono (List.subset_append_right _ _)
  · rw [List.map_append]
    exact declareNonlocal_spec declared (hplain declared hd) ho
  let locals := fun names : List String =>
    (names.map (h.spell (scopesOf outer))).filter (· ∉ h.nonlocals.map spelled)
  refine (forM_spec (fun _ => []) (fun before s => Opening s₀ s outer
    (placeAt h outer code shells (h.paramNames (scopesOf outer) ++ locals before)
      (h.scope (scopesOf outer)).globals) (h.nonlocals.map spelled))
    (fun written _ before s ho => ?_) [] s₂ ?_).weaken (fun _ s₃ h₃ => ?_) fun _ _ hf => ?_
  · refine (declareBinding_spec written ho).weaken (fun _ s' ho' => ⟨?_, rfl⟩) fun _ _ hf => hf
    simp only [locals, List.map_append, List.filter_append, ← List.append_assoc]
    exact ho'
  · rw [show locals [] = [] from rfl, List.append_nil]
    exact h₂.1
  · exact ⟨⟨_, h₃.1⟩, by rw [h₁.2, h₂.2]; rfl⟩
  · obtain ⟨r, hr, -⟩ := hf
    simp at hr

/-- **Opening the scope of a module** settles its place, unless a name is declared nonlocal. -/
theorem openScope_module {statements : List Surface.Stmt}
    (hdeclared : h.declarations = Surface.declarations statements)
    (hkind : h.kind = .moduleBody) (hparams : h.params = none)
    (ho : Opening s₀ s₀ [] (placeAt h [] code [] [] []) []) :
    Ends (openScope code statements) s₀
      (fun _ s' => s'.WellFormed ∧ AllSettled s' [⟨h.scope [], code, []⟩] ∧
        Store.Grows code.index s₀ s' ∧ s'.bodies.size = s₀.bodies.size ∧
          (∀ c, (s'.body c).code = (s₀.body c).code) ∧
        h.declarationViolations [] = [])
      fun failure _ => FailsIn (h.declarationViolations []) failure := by
  have hglobals : Surface.globalNames statements = h.globals := by
    rw [Surface.globalNames, Header.globals, hdeclared]
  have hnonlocals : Surface.nonlocalNames statements = h.nonlocals := by
    rw [Surface.nonlocalNames, Header.nonlocals, hdeclared]
  have hnames : h.paramNames (scopesOf []) = [] := by
    unfold Header.paramNames
    rw [hparams]
  have hmodule : ((s₀.body code).kind == .moduleBody) = true := by
    have hk : (s₀.body code).kind = h.kind := ho.place.kind
    rw [hk]
    exact beq_iff_eq.2 hkind
  have hviolations : h.declarationViolations [] = h.nonlocals.map fun declared =>
      (⟨.nonlocalAtModuleLevel, declared.2⟩ : Rejection) := if_pos hkind
  unfold openScope
  rw [ends_bind, ends_kindOf, hmodule, hglobals, hnonlocals, hviolations]
  dsimp only
  rw [if_pos rfl]
  cases hn : h.nonlocals with
  | cons declared rest => exact ⟨_, List.mem_cons_self, rfl⟩
  | nil =>
    dsimp only
    rw [ends_bind]
    let spelled := fun declared : String × Location => h.spell (scopesOf []) declared.1
    refine (forM_spec (fun _ => []) (fun before s => Opening s₀ s []
      (placeAt h [] code [] [] (before.map spelled)) []) (fun declared _ before s ho => ?_)
      [] s₀ ho).weaken (fun _ s₁ h₁ => ?_) fun _ _ hf => ?_
    · have ho' : Opening s₀ s [] (placeAt h [] code [] (h.paramNames (scopesOf []))
          (before.map spelled)) [] := by
        rw [hnames]
        exact ho
      have hspec := declareGlobal_spec declared ho'
      have hnone : h.globalViolation (scopesOf []) declared = [] := by
        rw [Header.globalViolation, hnames]
        rfl
      rw [hnames, hnone] at hspec
      rw [List.map_append]
      exact hspec
    · have ho₁ := h₁.1
      have hplace := ho₁.place
      refine ⟨ho₁.wellFormed, ⟨⟨⟨hplace.created, hplace.kind, hplace.name, hplace.root,
        hplace.leads, hplace.bare⟩, hplace.globals, hplace.clear,
        fun name _ hk => absurd hkind hk, fun c hc name v hname hf => ?_, hplace.hides⟩, trivial⟩,
        ho₁.grows, ho₁.size, ho₁.codes, rfl⟩
      exact (hplace.sees c hc name v hname hf).imp_left fun hmem => absurd hmem List.not_mem_nil
    · obtain ⟨r, hr, -⟩ := hf
      simp at hr

end Declarations

end Lowering

end DefinitionLowering
