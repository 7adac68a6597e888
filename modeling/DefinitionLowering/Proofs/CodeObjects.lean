import DefinitionLowering.Proofs.CodeSites

/-!
# One code object for one callable

`Surface.Creates` finds the callables of a module: those that its statements create, and those that
the statements of a callable or a class do.  `Store.Carries` says that the parts of a callable show
one code object and what it describes.

* `Prepared.site_cases`: every place where a code object stands belongs to a callable (`Belongs`).
* `Prepared.code_of_subject`: two places that are about the same body show the same code object.
* `LoweredModule.code_objects_agree`: each body of a lowered module has one code object, that of a
  callable, and the bodies of a callable have the same one.
-/

namespace DefinitionLowering

open IR (BodyId VariableId Store)
open Lowering

/-! ## The callables of a module -/

/-- The step that creates a callable where it is written. -/
def Callee.step : Callee → Surface.Step
  | .lambda l => .eval (.lambda l)
  | .define d => .create d

namespace Surface

/-- What some statements evaluate, but for what the callables and classes in them do. -/
def stepsIn (dialect : Dialect) (statements : List Stmt) : List Step :=
  (stmtsWithin statements).flatMap (Stmt.steps dialect)

/-- A callable is created by some statements, or by those of a callable or a class that they
create. -/
inductive Creates (dialect : Dialect) (callee : Callee) : List Stmt → Prop
  | here {statements} (h : callee.step ∈ stepsIn dialect statements) :
    Creates dialect callee statements
  | callable {statements} {outer : Callee} (h : outer.step ∈ stepsIn dialect statements)
    (hin : Creates dialect callee outer.statements) : Creates dialect callee statements
  | classDef {statements} {d : ClassDef} (h : .createClass d ∈ stepsIn dialect statements)
    (hin : Creates dialect callee (undocumented d.body)) : Creates dialect callee statements

end Surface

namespace Lowering

variable {setting : Setting} {t : Store} {b c : BodyId} {made : Callable} {object : Option BodyId}
  {callee : Callee} {site : IR.CodeSite} {block : IR.Block}

/-- What the step that creates a callable was lowered to. -/
theorem StepTo.callableAt {e : IR.Expr} (h : StepTo setting t b callee.step e) (ht : t.WellFormed) :
    ∃ made object, CallableAt setting t callee b made object ∧
      e.site? = some (.function made.outer made.code) := by
  cases callee with
  | lambda l =>
    cases h with
    | eval location h =>
      cases gave_counterpart h ht with
      | lambda hcallable => exact ⟨_, _, hcallable, rfl⟩
  | define d =>
    cases h with
    | create h =>
      obtain ⟨made, object, _, _, _, hcallable, -, -, -⟩ := h
      exact ⟨made, object, hcallable, rfl⟩

/-- A step with a code object creates a callable. -/
theorem StepTo.site_cases {step : Surface.Step} {e : IR.Expr} (h : StepTo setting t b step e)
    (ht : t.WellFormed) (hsite : e.site? = some site) :
    ∃ callee made object, CallableAt setting t callee b made object ∧
      site = .function made.outer made.code := by
  cases h with
  | eval location h =>
    cases gave_counterpart h ht with
    | lambda hcallable =>
      cases hsite
      exact ⟨_, _, _, hcallable, rfl⟩
    | _ => cases hsite
  | create h =>
    obtain ⟨made, object, _, _, _, hcallable, -, -, -⟩ := h
    cases hsite
    exact ⟨_, made, object, hcallable, rfl⟩
  | apply | createClass => cases hsite

/-- A callable that some statements create was lowered, and the scope around it creates it. -/
theorem exists_of_creates {statements : List Surface.Stmt} (ht : t.WellFormed)
    (h : Surface.Creates setting.dialect callee statements) : ∀ {b : BodyId} {block : IR.Block},
      (t.body b).code = some block →
      StepsTo setting t b (Surface.stepsIn setting.dialect statements) block.steps →
        ∃ provider made object, CallableAt setting t callee provider made object ∧
          .function made.outer made.code ∈ t.sites provider := by
  induction h with
  | here hstep =>
    intro b block hblock hsteps
    obtain ⟨e, he, hto⟩ := hsteps.exists_of_written hstep
    obtain ⟨made, object, hcallable, hsite⟩ := hto.callableAt ht
    refine ⟨b, made, object, hcallable, ?_⟩
    rw [IR.Store.sites_of_code hblock]
    exact IR.Block.site_of_mem_steps he hsite
  | callable hstep _ ih =>
    intro b block _ hsteps
    obtain ⟨e, -, hto⟩ := hsteps.exists_of_written hstep
    obtain ⟨made, object, hcallable, -⟩ := hto.callableAt ht
    obtain ⟨inner, hinner, hcode⟩ := hcallable.code
    exact ih hinner (hcode.steps ht)
  | classDef hstep _ ih =>
    intro b block _ hsteps
    obtain ⟨e, -, hto⟩ := hsteps.exists_of_written hstep
    cases hto with
    | createClass hclass =>
      obtain ⟨lowered, hgave, hcode⟩ := hclass.code
      exact ih hcode (IR.Block.steps_ofStatements lowered ▸ (within_stmts ht _ hgave).steps ht)

/-! ## Places and the callables they belong to -/

/-- In code that takes written steps, a code object is that of a frame or of a callable that is
created there. -/
theorem mem_sites_cases {steps : List Surface.Step} (ht : t.WellFormed)
    (h : StepsTo setting t b steps block.steps) (hsite : site ∈ block.sites) :
    (∃ code ∈ block.frames, site = .frame code) ∨
      ∃ callee made object, CallableAt setting t callee b made object ∧
        site = .function made.outer made.code := by
  refine (IR.Block.mem_sites.1 hsite).imp_right ?_
  rintro ⟨e, he, hsite⟩
  obtain ⟨step, -, hto⟩ :=
    h.exists_of_mem (IR.Block.mem_steps_of_site he hsite) (IR.Expr.implied_of_site hsite)
  exact hto.site_cases ht hsite

/-- In the statements of a module or a class, code objects are those of the callables that are
created there. -/
theorem mem_sites_ofStatements {statements : List Surface.Stmt} {lowered : List IR.Stmt}
    (ht : t.WellFormed) (h : Gave t b (lowerStmts setting b statements) lowered)
    (hcode : (t.body b).code = some (.ofStatements lowered)) (hsite : site ∈ t.sites b) :
    ∃ callee made object, CallableAt setting t callee b made object ∧
      site = .function made.outer made.code := by
  have hframes : (IR.Block.ofStatements lowered).frames = [] :=
    IR.Block.frames_eq (by rw [IR.Block.within_eq]; exact frames_of_gave ht h)
  rw [IR.Store.sites_of_code hcode] at hsite
  have hsteps := IR.Block.steps_ofStatements lowered ▸ (within_stmts ht _ h).steps ht
  rcases mem_sites_cases ht hsteps hsite with ⟨code, hcode, -⟩ | hcallable
  · rw [hframes] at hcode
    cases hcode
  · exact hcallable

/-- A place shows the code object of a callable and is about one of its bodies.  Unless it is a
frame, it stands in the provider of that body, and in a wrapper or a function that manufactures an
object nothing else does. -/
structure Belongs (t : Store) (c : BodyId) (site : IR.CodeSite) (made : Callable)
    (object : Option BodyId) : Prop where
  code : site.code = made.code
  subject : site.subject c ∈ Callable.bodies made object
  provided : .frame site.code = site ∨ (t.body (site.subject c)).provider = some c ∧
    (site.subject c = made.outer ∨ t.sites c = [site])

/-- Where a callable is created. -/
theorem CallableAt.belongs (h : CallableAt setting t callee b made object) :
    Belongs t b (.function made.outer made.code) made object :=
  ⟨rfl, List.mem_cons_self, Or.inr ⟨h.stands.outer.provider, Or.inl rfl⟩⟩

/-- The places in the bodies of a callable: its own, and those where other callables are created. -/
theorem CallableAt.site_cases (h : CallableAt setting t callee b made object) (ht : t.WellFormed)
    (hc : c ∈ Callable.bodies made object) (hsite : site ∈ t.sites c) :
    Belongs t c site made object ∨ ∃ callee' made' object',
      CallableAt setting t callee' c made' object' ∧ site = .function made'.outer made'.code := by
  rcases h.body_cases (Callable.mem_bodies.1 hc) with
    rfl | ⟨rfl, kind, o, rfl, hobject⟩ | ⟨rfl, hne⟩
  · obtain ⟨block, hblock, hcode⟩ := h.code
    rw [IR.Store.sites_of_code hblock] at hsite
    rcases mem_sites_cases ht (hcode.steps ht) hsite with ⟨code, hframe, rfl⟩ | hcallable
    · rw [hcode.frames ht] at hframe
      split at hframe
      · cases hframe
      · exact Or.inl ⟨List.mem_singleton.1 hframe, hc, Or.inl rfl⟩
    · exact Or.inr hcallable
  · have hsites := hobject.sites_function
    cases List.mem_singleton.1 (hsites ▸ hsite)
    exact Or.inl ⟨rfl, Callable.mem_bodies.2 (Or.inr (Or.inr rfl)),
      Or.inr ⟨hobject.planned.provider, Or.inr hsites⟩⟩
  · have hsites := h.sites_wrapper hne
    cases List.mem_singleton.1 (hsites ▸ hsite)
    rcases h.stands.function with ⟨-, heq⟩ | ⟨-, hplanned, -⟩
    · exact absurd heq hne
    · exact Or.inl ⟨rfl, Callable.mem_bodies.2 (Or.inr (Or.inl rfl)),
        Or.inr ⟨hplanned.provider, Or.inr hsites⟩⟩

end Lowering

section Prepared

variable {setting : Setting} {m : Surface.Module} {t : Store} {b c : BodyId}
  {site site' : IR.CodeSite}

/-- **Every place where a code object stands belongs to a callable.** -/
theorem Prepared.site_cases (h : Prepared setting m t) (hsite : site ∈ t.sites c) :
    ∃ callee provider made object, CallableAt setting t callee provider made object ∧
      Belongs t c site made object := by
  have ht := h.valid.wellFormed
  -- a callable that is created in this body
  have hcreated : (∃ callee made object, CallableAt setting t callee c made object ∧
      site = .function made.outer made.code) → ∃ callee provider made object,
        CallableAt setting t callee provider made object ∧ Belongs t c site made object := by
    rintro ⟨callee, made, object, hcallable, rfl⟩
    exact ⟨callee, c, made, object, hcallable, hcallable.belongs⟩
  have hc : c.index < t.bodies.size := Classical.byContradiction fun hlt => by
    rw [IR.Store.sites, Store.body_of_size_le (Nat.le_of_not_lt hlt)] at hsite
    cases hsite
  by_cases hroot : c = ⟨0⟩
  · obtain ⟨lowered, hgave, hcode⟩ := h.code
    exact hcreated (mem_sites_ofStatements ht (hroot ▸ hgave) (hroot ▸ hcode) hsite)
  · cases h.origins c hroot hc with
    | callable callee provider made object hcallable hone =>
      rcases hcallable.site_cases ht (Callable.mem_bodies.2 hone) hsite with hbelongs | hother
      · exact ⟨callee, provider, made, object, hcallable, hbelongs⟩
      · exact hcreated hother
    | classDef d provider hclass =>
      obtain ⟨lowered, hgave, hcode⟩ := hclass.code
      exact hcreated (mem_sites_ofStatements ht hgave hcode hsite)

/-- **Two places that are about the same body show the same code object.** -/
theorem Prepared.code_of_subject (h : Prepared setting m t) (hsite : site ∈ t.sites b)
    (hsite' : site' ∈ t.sites c) (heq : site'.subject c = site.subject b) :
    site'.code = site.code := by
  have ht := h.valid.wellFormed
  obtain ⟨callee, provider, made, object, hcallable, hbelongs⟩ := h.site_cases hsite
  obtain ⟨callee', provider', made', object', hcallable', hbelongs'⟩ := h.site_cases hsite'
  rcases hbelongs'.provided with hframe' | ⟨hprovider', hplace'⟩
  · -- a frame in a body of the callable is the callable's
    rw [← hframe'] at hsite' heq
    have hmem : c ∈ Callable.bodies made object := (show c = _ from heq) ▸ hbelongs.subject
    rw [hbelongs.code]
    exact hcallable.frame_code ht (Callable.mem_bodies.1 hmem) (IR.Store.frame_mem_sites.1 hsite')
  rcases hbelongs.provided with hframe | ⟨hprovider, hplace⟩
  · rw [← hframe] at hsite heq
    have hmem : b ∈ Callable.bodies made' object' :=
      (show _ = b from heq) ▸ hbelongs'.subject
    rw [hbelongs'.code]
    exact (hcallable'.frame_code ht (Callable.mem_bodies.1 hmem)
      (IR.Store.frame_mem_sites.1 hsite)).symm
  · -- both stand in the provider of the body
    obtain rfl : c = b := Option.some.inj (hprovider'.symm.trans (heq ▸ hprovider))
    rcases hplace' with houter' | halone'
    · rcases hplace with houter | halone
      · rw [hbelongs.code, hbelongs'.code]
        exact hcallable.code_unique hcallable' ht (houter'.symm.trans (heq.trans houter))
      · rw [halone, List.mem_singleton] at hsite'
        rw [hsite']
    · rw [halone', List.mem_singleton] at hsite
      rw [hsite]

/-- **Every callable of a module was lowered**, however deep it stands. -/
theorem Prepared.exists_of_creates {callee : Callee} (h : Prepared setting m t)
    (hcallee : Surface.Creates setting.dialect callee (Surface.undocumented m.body)) :
    ∃ provider made object, CallableAt setting t callee provider made object ∧
      .function made.outer made.code ∈ t.sites provider := by
  have ht := h.valid.wellFormed
  obtain ⟨lowered, hgave, hcode⟩ := h.code
  exact Lowering.exists_of_creates ht hcallee hcode
    (IR.Block.steps_ofStatements lowered ▸ (within_stmts ht _ hgave).steps ht)

/-- Only the module is one. -/
theorem Prepared.eq_root_of_isModule (h : Prepared setting m t) (hc : c.index < t.bodies.size)
    (hmodule : t.isModule c = true) : c = ⟨0⟩ := by
  refine Classical.byContradiction fun hroot => ?_
  have hkind : (t.body c).kind = .moduleBody := eq_of_beq hmodule
  cases h.origins c hroot hc with
  | callable callee provider made object hcallable hone =>
    rcases hone with rfl | rfl | rfl
    · cases hkind.symm.trans hcallable.stands.outer.kind
    · cases hkind.symm.trans hcallable.stands.function_kind
    · obtain ⟨kind, -, hobject⟩ := hcallable.objectAt
      cases hkind.symm.trans hobject.planned.kind
  | classDef d provider hclass => cases hkind.symm.trans hclass.planned.kind

/-- What code objects say of the module. -/
theorem Prepared.moduleInfo (h : Prepared setting m t) {info : ModuleInfo}
    (hb : b.index < t.bodies.size) (hinfo : t.moduleInfo b = .ok info) :
    info = ⟨m.filename, m.future⟩ := by
  unfold Store.moduleInfo Store.moduleOf at hinfo
  cases hfound : (b :: t.ancestors b).find? t.isModule with
  | none =>
    rw [hfound] at hinfo
    cases hinfo
  | some found =>
    have hlt := h.valid.wellFormed.ordered.lt_of_mem_scopes hb (List.mem_of_find?_eq_some hfound)
    rw [hfound, h.eq_root_of_isModule hlt (List.find?_some hfound)] at hinfo
    dsimp only at hinfo
    rw [h.root.info] at hinfo
    exact (Except.ok.inj hinfo).symm

end Prepared

/-! ## The code object of a callable -/

/-- A code object describes a signature, a line and a module. -/
structure CodeObject.Describes (code : CodeObject) (signature : Signature) (line : UInt32)
    (m : Surface.Module) : Prop where
  name : code.name = signature.name
  slots : code.slots = signature.slots
  argumentCount : code.argumentCount = signature.positional.length
  keywordOnlyCount : code.keywordOnlyCount = signature.keywordOnly.length
  hasStar : code.hasStar = signature.star.isSome
  hasDoubleStar : code.hasDoubleStar = signature.doubleStar.isSome
  line : code.line = line
  filename : code.filename = m.filename
  future : code.future = m.future

/-- The parts of a callable carry its code object, which describes its parameters. -/
structure IR.Store.Carries (s : Store) (setting : Setting) (m : Surface.Module) (callee : Callee)
    (made : Callable) (object : Option BodyId) : Prop where
  name : (s.body made.outer).name = callee.name
  location : (s.body made.outer).location = callee.location
  described : ∃ signature, (s.body made.outer).signature = some signature ∧
    made.code.Describes signature callee.location.line m
  /-- When there are tuples among the parameters, the outer body creates a delegate. -/
  delegate : if callee.params.positional.any Surface.Pattern.isTuple then
      made.function ≠ made.outer ∧ s.sites made.outer = [.function made.function made.code]
    else made.function = made.outer
  /-- The function of a suspending callable manufactures an object. -/
  manufactured : Option.Rel (fun kind o => s.sites made.function = [.object kind o made.code])
    (callee.object? setting) object
  /-- Its statements run in a frame, unless none is left. -/
  frames : s.frames (codeBody made object) = if callee.idle then [] else [made.code]

section CodeObject

variable {setting : Setting} {m : Surface.Module} {s t : Store} {b : BodyId} {made : Callable}
  {object : Option BodyId} {callee : Callee} {site : IR.CodeSite}

theorem Lowering.CallableAt.carries {provider : BodyId}
    (h : CallableAt setting t callee provider made object) (hprepared : Prepared setting m t) :
    t.Carries setting m callee made object where
  name := h.stands.outer.name
  location := h.stands.outer.location
  described := by
    obtain ⟨info, hinfo, hcode⟩ := h.described
    have hlt : provider.index < t.bodies.size := Nat.lt_trans
      (hprepared.valid.wellFormed.ordered _ _ h.stands.outer.provider) h.stands.outer.created
    obtain rfl := hprepared.moduleInfo hlt hinfo
    refine ⟨_, h.stands.outer.signature, ?_⟩
    rw [hcode]
    exact ⟨rfl, rfl, rfl, rfl, rfl, rfl, rfl, rfl, rfl⟩
  delegate := by
    rcases h.stands.function with ⟨hplain, heq⟩ | ⟨htuple, hplanned, -⟩
    · rw [hplain, if_neg (by simp)]
      exact heq
    · have hne : made.function ≠ made.outer := fun heq =>
        Nat.lt_irrefl _ (heq ▸ hprepared.valid.wellFormed.ordered _ _ hplanned.provider)
      rw [htuple, if_pos rfl]
      exact ⟨hne, h.sites_wrapper hne⟩
  manufactured := by
    have hmanufactured := h.manufactured
    generalize callee.object? setting = kind at hmanufactured
    cases hmanufactured with
    | none => exact .none
    | some hobject => exact .some hobject.sites_function
  frames := (h.sites_codeBody hprepared.valid.wellFormed).1

/-- Releasing variables changes nothing about code objects. -/
theorem Finished.carries {lowered : LoweredModule} (h : Finished t lowered)
    (hcarries : t.Carries setting m callee made object) :
    lowered.store.Carries setting m callee made object := by
  obtain ⟨code, hbody⟩ := h.body_eq made.outer
  constructor
  · rw [hbody]
    exact hcarries.name
  · rw [hbody]
    exact hcarries.location
  · rw [hbody]
    exact hcarries.described
  · rw [h.sites]
    exact hcarries.delegate
  · rw [h.sites]
    exact hcarries.manufactured
  · rw [h.frames]
    exact hcarries.frames

/-- Where every body has one code object, the bodies of a callable have the same. -/
theorem IR.Store.Carries.record_eq (h : s.Carries setting m callee made object)
    {record : BodyId → CodeObject}
    (hrecord : ∀ b, ∀ site ∈ s.sites b, site.code = record (site.subject b))
    (hcreated : .function made.outer made.code ∈ s.sites b) :
    ∀ c ∈ Callable.bodies made object, record c = made.code := by
  have houter : record made.outer = made.code := (hrecord _ _ hcreated).symm
  intro c hc
  rcases Callable.mem_bodies.1 hc with rfl | rfl | rfl
  · exact houter
  · have hdelegate := h.delegate
    split at hdelegate
    · exact (hrecord _ _ (hdelegate.2 ▸ List.mem_singleton_self _)).symm
    · rw [hdelegate]
      exact houter
  · have hmanufactured := h.manufactured
    generalize callee.object? setting = kind at hmanufactured
    cases hmanufactured with
    | some hsites => exact (hrecord _ _ (hsites ▸ List.mem_singleton_self _)).symm

namespace LoweredModule

variable {lowered : LoweredModule}

/-- A callable of a lowered module, with the store before the releases. -/
theorem exists_callableAt (h : LoweredModule.ofSurface setting m = .ok lowered)
    (hcallee : Surface.Creates setting.dialect callee (Surface.undocumented m.body)) :
    ∃ t provider made object, Prepared setting m t ∧ Finished t lowered ∧
      CallableAt setting t callee provider made object ∧
        .function made.outer made.code ∈ lowered.store.sites provider := by
  obtain ⟨t, hprepared, hfinished⟩ := LoweredModule.prepared h
  obtain ⟨provider, made, object, hcallable, hcreated⟩ := hprepared.exists_of_creates hcallee
  rw [← hfinished.sites] at hcreated
  exact ⟨t, provider, made, object, hprepared, hfinished, hcallable, hcreated⟩

/-- Every body has one code object, which all places about it show. -/
theorem exists_record (h : LoweredModule.ofSurface setting m = .ok lowered) :
    ∃ record : BodyId → CodeObject,
      ∀ b, ∀ site ∈ lowered.store.sites b, site.code = record (site.subject b) := by
  obtain ⟨t, hprepared, hfinished⟩ := LoweredModule.prepared h
  have hexists : ∀ b, ∃ code : CodeObject, ∀ c, ∀ site ∈ t.sites c, site.subject c = b →
      site.code = code := by
    intro b
    by_cases hplace : ∃ c, ∃ site ∈ t.sites c, site.subject c = b
    · obtain ⟨c, site, hsite, rfl⟩ := hplace
      exact ⟨site.code, fun _ _ hsite' heq => hprepared.code_of_subject hsite hsite' heq⟩
    · exact ⟨default, fun c site hsite heq => absurd ⟨c, site, hsite, heq⟩ hplace⟩
  choose record hrecord using hexists
  exact ⟨record, fun b site hsite => hrecord _ b site (hfinished.sites b ▸ hsite) rfl⟩

/-- Every code object is that of a callable, and stands at one of its parts. -/
theorem exists_carries (h : LoweredModule.ofSurface setting m = .ok lowered)
    (hsite : site ∈ lowered.store.sites b) :
    ∃ callee made object, lowered.store.Carries setting m callee made object ∧
      site.subject b ∈ Callable.bodies made object ∧ site.code = made.code := by
  obtain ⟨t, hprepared, hfinished⟩ := LoweredModule.prepared h
  rw [hfinished.sites] at hsite
  obtain ⟨callee, provider, made, object, hcallable, hbelongs⟩ := hprepared.site_cases hsite
  exact ⟨callee, made, object, hfinished.carries (hcallable.carries hprepared), hbelongs.subject,
    hbelongs.code⟩

/-- **All parts of a callable show the same code object.**  Every body of a lowered module has one
code object, which every place shows that is about it: frames in its own code, and the expressions
that create functions or objects from it.  It is that of a callable: the parts of the callable show
it, and it describes the parameters of the outer body, the line of the definition and the module.
Every callable of the module has its parts there, however deep it stands. -/
theorem code_objects_agree (h : LoweredModule.ofSurface setting m = .ok lowered) :
    ∃ record : BodyId → CodeObject,
      (∀ b, ∀ site ∈ lowered.store.sites b, site.code = record (site.subject b) ∧
        ∃ callee made object, lowered.store.Carries setting m callee made object ∧
          site.subject b ∈ Callable.bodies made object ∧ site.code = made.code) ∧
      ∀ callee, Surface.Creates setting.dialect callee (Surface.undocumented m.body) →
        ∃ provider made object, lowered.store.Carries setting m callee made object ∧
          .function made.outer made.code ∈ lowered.store.sites provider ∧
          ∀ b ∈ Callable.bodies made object, record b = made.code := by
  obtain ⟨record, hrecord⟩ := exists_record h
  refine ⟨record, fun b site hsite => ⟨hrecord b site hsite, exists_carries h hsite⟩,
    fun callee hcallee => ?_⟩
  obtain ⟨t, provider, made, object, hprepared, hfinished, hcallable, hcreated⟩ :=
    exists_callableAt h hcallee
  have hcarries := hfinished.carries (hcallable.carries hprepared)
  exact ⟨provider, made, object, hcarries, hcreated, hcarries.record_eq hrecord hcreated⟩

/-- The lambda of `fetchModule`. -/
def retryLambda : Surface.Lambda where
  params := ⟨[.name ⟨"step", none⟩], [], none, [], [], none⟩
  body := .yield (some (.name "step"))
  location := ⟨3, 10⟩

/-- The definition of `fetchModule`. -/
def fetchDef : Surface.Def where
  name := "fetch"
  params := ⟨[.tuple [.name ⟨"host", none⟩, .name ⟨"port", none⟩]], [], none, [], [], none⟩
  body :=
    [⟨.assign "retry" (.lambda retryLambda), ⟨3, 2⟩⟩,
      ⟨.ret (some (.await (.name "host"))), ⟨4, 2⟩⟩]
  decorators := []
  returns := none
  isAsync := true
  location := ⟨2, 0⟩

/-- A module with a definition whose callable has all parts, and a lambda inside:

    async def fetch((host, port)):
      retry = lambda step: (yield step)
      return await host
-/
def fetchModule : Surface.Module where
  name := "m"
  filename := "m.py"
  future := ⟨false, false, false, false, false⟩
  body := [⟨.define fetchDef, ⟨2, 0⟩⟩]

/-- The code object of `fetchDef`. -/
def fetchCode : CodeObject where
  name := "fetch"
  kind := .coroutine
  slots := [".1"]
  argumentCount := 1
  keywordOnlyCount := 0
  hasStar := false
  hasDoubleStar := false
  filename := "m.py"
  line := 2
  future := ⟨false, false, false, false, false⟩

/-- The code object of `retryLambda`. -/
def retryCode : CodeObject :=
  { fetchCode with name := "<lambda>", kind := .generator, slots := ["step"], line := 3 }

theorem fetchModule_creates :
    Surface.Creates .modern (.lambda retryLambda) (Surface.undocumented fetchModule.body) := by
  have hfetch : (Callee.define fetchDef).step ∈
      Surface.stepsIn .modern (Surface.undocumented fetchModule.body) :=
    List.mem_flatMap.2 ⟨⟨.define fetchDef, ⟨2, 0⟩⟩, List.mem_singleton_self _,
      List.mem_singleton_self _⟩
  have hretry : (Callee.lambda retryLambda).step ∈
      Surface.stepsIn .modern (Callee.define fetchDef).statements :=
    List.mem_flatMap.2 ⟨⟨.assign "retry" (.lambda retryLambda), ⟨3, 2⟩⟩, List.mem_cons_self,
      List.mem_singleton_self _⟩
  exact .callable hfetch (.here hretry)

/-- The code object of the definition stands in four bodies and that of the lambda in three. -/
theorem fetchModule_code_objects_agree :
    ∃ lowered, LoweredModule.ofSurface (.ofDialect .modern) fetchModule = .ok lowered ∧
      lowered.store.bodyIds.map lowered.store.sites =
        [[.function ⟨1⟩ fetchCode], [.function ⟨2⟩ fetchCode], [.object .coroutine ⟨3⟩ fetchCode],
          [.frame fetchCode, .function ⟨4⟩ retryCode], [.object .generator ⟨5⟩ retryCode],
          [.frame retryCode]] ∧
      ∃ provider made object,
        lowered.store.Carries (.ofDialect .modern) fetchModule (.lambda retryLambda) made object ∧
          .function made.outer made.code ∈ lowered.store.sites provider := by
  have hfacts : succeedsWith (fun l => l.store.bodyIds.map l.store.sites ==
      [[.function ⟨1⟩ fetchCode], [.function ⟨2⟩ fetchCode], [.object .coroutine ⟨3⟩ fetchCode],
        [.frame fetchCode, .function ⟨4⟩ retryCode], [.object .generator ⟨5⟩ retryCode],
        [.frame retryCode]])
      (LoweredModule.ofSurface (.ofDialect .modern) fetchModule) = true := by
    decide +kernel
  obtain ⟨lowered, h, hfacts⟩ := exists_of_succeedsWith hfacts
  obtain ⟨record, -, hcallables⟩ := code_objects_agree h
  obtain ⟨provider, made, object, hcarries, hcreated, -⟩ := hcallables _ fetchModule_creates
  exact ⟨lowered, h, eq_of_beq hfacts, provider, made, object, hcarries, hcreated⟩

end LoweredModule

end CodeObject

end DefinitionLowering
