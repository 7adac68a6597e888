import DefinitionLowering.Proofs.BodyTree
import DefinitionLowering.Proofs.CodeObjects
import DefinitionLowering.Proofs.Suspension

/-!
# Why a body suspends

* `Prepared.written`: every body of a module is that of a callable or a class which its statements
  create, however deep.
* `Lowering.CallableAt.shows`: with the classifier that goes by the evidence, the body with the
  statements of a callable suspends if it evaluates a `yield`, or if one is scanned that is never
  evaluated; and it is flagged for a delegation in the same way.
* `LoweredModule.generators_yield_iff`: this holds of all bodies of a module, and its generators
  yield in their own code unless a callable yields in ignored expressions only.
-/

namespace DefinitionLowering

open IR (BodyId Store)
open Lowering

/-! ## Where bodies are written -/

/-- What the statements of a callable create is created where the callable is. -/
theorem Surface.Creates.inside {dialect : Dialect} {outer callee : Callee}
    {statements : List Surface.Stmt} (h : Surface.Creates dialect outer statements)
    (hin : Surface.Creates dialect callee outer.statements) :
    Surface.Creates dialect callee statements := by
  induction h with
  | here hstep => exact .callable hstep hin
  | callable hstep _ ih => exact .callable hstep ih
  | classDef hstep _ ih => exact .classDef hstep ih

namespace Lowering

variable {setting : Setting} {m : Surface.Module} {t : Store} {b c : BodyId} {kind : BodyKind}
  {step : Surface.Step} {e : IR.Expr} {block : IR.Block}

/-- What creates a body is a callable or a class. -/
theorem StepTo.created_cases (h : StepTo setting t b step e) (ht : t.WellFormed)
    (hcreated : e.created? = some (kind, c)) :
    (∃ callee made object, step = callee.step ∧ CallableAt setting t callee b made object ∧
        c = made.outer) ∨
      ∃ d, step = .createClass d ∧ ClassAt setting t d b c := by
  cases h with
  | eval location h =>
    cases gave_counterpart h ht with
    | lambda hcallable =>
      cases hcreated
      exact Or.inl ⟨.lambda _, _, _, rfl, hcallable, rfl⟩
    | _ => cases hcreated
  | @create d _ h =>
    obtain ⟨made, object, _, _, _, hcallable, -, -, -⟩ := h
    cases hcreated
    exact Or.inl ⟨.define d, made, object, rfl, hcallable, rfl⟩
  | apply => cases hcreated
  | createClass hclass =>
    cases hcreated
    exact Or.inr ⟨_, rfl, hclass⟩

/-- What creates a body is a step of its own. -/
theorem mem_steps_of_created (he : e ∈ block.terms) (hcreated : e.created? = some (kind, c)) :
    e ∈ block.steps ∧ e.implied = false := by
  refine ⟨IR.Block.mem_steps.2 ⟨he, ?_⟩, ?_⟩
  · cases e <;> first | rfl | cases hcreated
  · cases e <;> first | rfl | cases hcreated

/-- A body is that of a callable or a class which the statements of a module create. -/
inductive Written (setting : Setting) (m : Surface.Module) (t : Store) (c : BodyId) : Prop
  | callable (callee : Callee) (provider : BodyId) (made : Callable) (object : Option BodyId)
    (hcreates : Surface.Creates setting.dialect callee (Surface.undocumented m.body))
    (hcallable : CallableAt setting t callee provider made object)
    (hone : c ∈ Callable.bodies made object)
  | classDef (d : Surface.ClassDef) (provider : BodyId) (hclass : ClassAt setting t d provider c)
    (hinside : ∀ callee, Surface.Creates setting.dialect callee (Surface.undocumented d.body) →
      Surface.Creates setting.dialect callee (Surface.undocumented m.body))

/-- What the code of statements creates is written, if what they create is. -/
theorem written_of_steps {statements : List Surface.Stmt} (ht : t.WellFormed)
    (hinside : ∀ callee, Surface.Creates setting.dialect callee statements →
      Surface.Creates setting.dialect callee (Surface.undocumented m.body))
    (hsteps : StepsTo setting t b (Surface.stepsIn setting.dialect statements) block.steps)
    (hmem : (kind, c) ∈ block.creations) : Written setting m t c := by
  obtain ⟨e, he, hcreated⟩ := List.mem_filterMap.1 hmem
  obtain ⟨hstep, hwritten⟩ := mem_steps_of_created he hcreated
  obtain ⟨step, hin, hto⟩ := hsteps.exists_of_mem hstep hwritten
  rcases hto.created_cases ht hcreated with
    ⟨callee, made, object, rfl, hcallable, rfl⟩ | ⟨d, rfl, hclass⟩
  · exact .callable callee b made object (hinside _ (.here hin)) hcallable List.mem_cons_self
  · exact .classDef d b hclass fun callee h => hinside callee (.classDef hin h)

/-- The statements of a module or a class. -/
theorem written_of_scope {statements : List Surface.Stmt} {lowered : List IR.Stmt}
    (ht : t.WellFormed) (hinside : ∀ callee, Surface.Creates setting.dialect callee statements →
      Surface.Creates setting.dialect callee (Surface.undocumented m.body))
    (hgave : Gave t b (lowerStmts setting b statements) lowered)
    (hcode : (t.body b).code = some (.ofStatements lowered)) (hmem : (kind, c) ∈ t.creations b) :
    Written setting m t c := by
  rw [Store.creations_of_code hcode] at hmem
  exact written_of_steps ht hinside
    (IR.Block.steps_ofStatements lowered ▸ (within_stmts ht _ hgave).steps ht) hmem

/-- What a body of a callable creates: its own parts, or what its statements create. -/
theorem CallableAt.written {callee : Callee} {provider : BodyId} {made : Callable}
    {object : Option BodyId} (h : CallableAt setting t callee provider made object)
    (ht : t.WellFormed)
    (hcreates : Surface.Creates setting.dialect callee (Surface.undocumented m.body))
    (hb : b ∈ Callable.bodies made object) (hmem : (kind, c) ∈ t.creations b) :
    Written setting m t c := by
  have hpart : c ∈ Callable.bodies made object → Written setting m t c :=
    .callable callee provider made object hcreates h
  rcases h.body_cases (Callable.mem_bodies.1 hb) with
    rfl | ⟨rfl, kind', o, rfl, hobject⟩ | ⟨rfl, hne⟩
  · obtain ⟨block, hblock, hcode⟩ := h.code
    rw [Store.creations_of_code hblock] at hmem
    exact written_of_steps ht (fun _ => hcreates.inside) (hcode.steps ht) hmem
  · rw [Store.creations_of_code hobject.maker, creations_manufacture, List.mem_singleton] at hmem
    cases hmem
    exact hpart (Callable.mem_bodies.2 (Or.inr (Or.inr rfl)))
  · rcases h.stands.function with ⟨-, heq⟩ | ⟨-, -, u, vars, hblock, hwithin, -⟩
    · exact absurd heq hne
    · rw [Store.creations_of_code hblock, IR.Block.creations_releasing,
        creations_forwarding hwithin, List.mem_singleton] at hmem
      cases hmem
      exact hpart (Callable.mem_bodies.2 (Or.inr (Or.inl rfl)))

end Lowering

/-- **Every body of a module but its own is written in it.** -/
theorem Prepared.written {dialect : Dialect} {m : Surface.Module} {t : Store}
    (h : Prepared (.ofDialect dialect) m t) {c : BodyId} (hroot : c ≠ ⟨0⟩)
    (hc : c.index < t.bodies.size) : Written (.ofDialect dialect) m t c := by
  have ht := h.valid.wellFormed
  -- by strong induction on the number of the body, since a provider comes before what it creates
  obtain ⟨n, hn⟩ : ∃ n, c.index = n := ⟨_, rfl⟩
  induction n using Nat.strongRecOn generalizing c with
  | ind n ih =>
    obtain ⟨p, hp, hprovider, hmem⟩ := h.grown.hangs.mem_creations
      (LoweredModule.mem_bodiesFrom_one.2 ⟨Store.mem_bodyIds.2 hc, hroot⟩)
    by_cases hmodule : p = ⟨0⟩
    · subst hmodule
      obtain ⟨lowered, hgave, hcode⟩ := h.code
      exact written_of_scope ht (fun _ hcreates => hcreates) hgave hcode hmem
    · have hlt : p.index < c.index := ht.ordered c p hprovider
      cases ih p.index (hn ▸ hlt) hmodule (Nat.lt_trans hlt hc) rfl with
      | callable callee provider made object hcreates hcallable hone =>
        exact hcallable.written ht hcreates hone hmem
      | classDef d provider hclass hinside =>
        obtain ⟨lowered, hgave, hcode⟩ := hclass.code
        exact written_of_scope ht hinside hgave hcode hmem

/-! ## What a body shows -/

/-- Whether the code of a body evaluates something of a sort. -/
def IR.Body.Evaluates (body : IR.Body) (seen : IR.Expr → Bool) : Prop :=
  ∃ block, body.code = some block ∧ ∃ e ∈ block.terms, seen e = true

/-- Whether a body is that of a generator. -/
def IR.Body.IsGenerator (body : IR.Body) : Prop :=
  body.kind = .callable .generator ∨ body.kind = .callable .asyncGenerator

/-- The kind and the flags of the body with a callable's statements are due to what it evaluates,
and to what is scanned for it without being evaluated. -/
structure IR.Body.Shows (body : IR.Body) (dialect : Dialect) (callee : Callee) : Prop where
  yields : body.Evaluates IR.Expr.yields ↔
    ∃ step ∈ callee.steps (.ofDialect dialect), step.evidence.yields = true
  delegates : body.Evaluates IR.Expr.delegates ↔
    ∃ step ∈ callee.steps (.ofDialect dialect), step.evidence.flags.hasYieldFrom = true
  generator : body.IsGenerator ↔ body.Evaluates IR.Expr.yields ∨
    ∃ e ∈ callee.ignored dialect, e.evidence.yields = true
  flagged : body.flags.hasYieldFrom = true ↔ body.Evaluates IR.Expr.delegates ∨
    ∃ e ∈ callee.ignored dialect, e.evidence.flags.hasYieldFrom = true

section Body

variable {body body' : IR.Body} {dialect : Dialect} {callee : Callee} {seen : IR.Expr → Bool}

theorem IR.Body.evaluates_iff {block : IR.Block} (h : body.code = some block) :
    body.Evaluates seen ↔ ∃ e ∈ block.terms, seen e = true := by
  constructor
  · rintro ⟨other, hother, hseen⟩
    rw [h, Option.some.injEq] at hother
    rwa [hother]
  · exact fun hseen => ⟨block, h, hseen⟩

/-- What a body shows depends on its kind, its flags and what it evaluates. -/
theorem IR.Body.Shows.congr (h : body.Shows dialect callee) (hkind : body'.kind = body.kind)
    (hflags : body'.flags = body.flags)
    (hevaluates : ∀ seen, body'.Evaluates seen ↔ body.Evaluates seen) :
    body'.Shows dialect callee where
  yields := (hevaluates _).trans h.yields
  delegates := (hevaluates _).trans h.delegates
  generator := by
    rw [IR.Body.IsGenerator, hkind, hevaluates]
    exact h.generator
  flagged := by
    rw [hflags, hevaluates]
    exact h.flagged

end Body

namespace Lowering

variable {dialect : Dialect} {setting : Setting} {t : Store} {provider b : BodyId}
  {callee : Callee} {made : Callable} {object : Option BodyId}

/-- The flags of a callable are those of the body with its statements. -/
theorem CallableAt.codeBody_flags
    (h : CallableAt (.ofDialect dialect) t callee provider made object) :
    (t.body (codeBody made object)).flags = callee.flags (.ofDialect dialect) := by
  cases object with
  | some o =>
    obtain ⟨_, -, hobject⟩ := h.objectAt
    exact hobject.planned.flags
  | none =>
    -- an asynchronous definition has an object, so the function has the flags
    have hplain : callee.isAsync = false := by
      have hkind : callee.bodyKind (.ofDialect dialect) = callee.kind (.ofDialect dialect) :=
        Callee.bodyKind_eq
      have hasync : (callee.kind (.ofDialect dialect)).isAsync = callee.isAsync :=
        callee.isAsync_kind
      rw [Callee.bodyKind, h.object_eq_none.2 rfl] at hkind
      rw [← hasync, ← hkind]
      rfl
    have hflags : callee.functionFlags (.ofDialect dialect) =
        callee.flags (.ofDialect dialect) := by
      rw [Callee.functionFlags, hplain]
      rfl
    rw [← hflags]
    rcases h.stands.function with ⟨-, heq⟩ | ⟨-, hplanned, -⟩
    · exact (congrArg (fun c => (t.body c).flags) heq).trans h.stands.outer.flags
    · exact hplanned.flags

/-- **The body with a callable's statements shows what they were classified by.** -/
theorem CallableAt.shows (h : CallableAt (.ofDialect dialect) t callee provider made object)
    (ht : t.WellFormed) : (t.body (codeBody made object)).Shows dialect callee := by
  obtain ⟨block, hblock, hcode⟩ := h.code
  obtain ⟨hyields, hdelegates⟩ := hcode.shows ht
  obtain ⟨hstepsYield, hstepsDelegate⟩ := (hcode.steps ht).shows ht
  constructor
  · rw [IR.Body.evaluates_iff hblock, ← any_steps fun e he => (silent_shows e he).1, ← hstepsYield]
    exact List.any_eq_true
  · rw [IR.Body.evaluates_iff hblock, ← any_steps fun e he => (silent_shows e he).2,
      ← hstepsDelegate]
    exact List.any_eq_true
  · rw [IR.Body.IsGenerator, h.codeBody_kind, Callee.bodyKind_eq, BodyKind.callable.injEq,
      BodyKind.callable.injEq, Callee.suspends_iff, hyields, IR.Body.evaluates_iff hblock]
    exact Iff.rfl
  · rw [h.codeBody_flags, IR.Body.evaluates_iff hblock]
    exact hdelegates

/-- The bodies of a callable that are not the one with its statements are functions. -/
theorem CallableAt.eq_codeBody (h : CallableAt setting t callee provider made object)
    (hb : b ∈ Callable.bodies made object) (hgenerator : (t.body b).IsGenerator) :
    b = codeBody made object := by
  have hfunction : (t.body b).kind = .function → b = codeBody made object := fun hkind => by
    rw [IR.Body.IsGenerator, hkind] at hgenerator
    rcases hgenerator with heq | heq <;> cases heq
  rcases h.body_cases (Callable.mem_bodies.1 hb) with heq | ⟨rfl, -⟩ | ⟨rfl, -⟩
  · exact heq
  · exact hfunction h.stands.function_kind
  · exact hfunction h.stands.outer.kind

end Lowering

/-! ## The lowered module -/

section Finished

variable {t : Store} {lowered : LoweredModule}

theorem Finished.flags (h : Finished t lowered) (b : BodyId) :
    (lowered.store.body b).flags = (t.body b).flags := by
  obtain ⟨code, hb⟩ := h.body_eq b
  rw [hb]

/-- Releasing variables evaluates nothing. -/
theorem Finished.evaluates (h : Finished t lowered) (b : BodyId) (seen : IR.Expr → Bool) :
    (lowered.store.body b).Evaluates seen ↔ (t.body b).Evaluates seen := by
  have hterms : (lowered.store.body b).code.map IR.Block.terms =
      (t.body b).code.map IR.Block.terms := h.map_code IR.Block.terms_releasing b
  have hview : ∀ body : IR.Body, body.Evaluates seen ↔
      ∃ terms ∈ body.code.map IR.Block.terms, ∃ e ∈ terms, seen e = true := by
    intro body
    cases hcode : body.code with
    | none => simp [IR.Body.Evaluates, hcode]
    | some block => simp [IR.Body.evaluates_iff hcode]
  rw [hview, hview, hterms]

theorem Finished.shows {dialect : Dialect} {callee : Callee} (h : Finished t lowered) {b : BodyId}
    (hshows : (t.body b).Shows dialect callee) : (lowered.store.body b).Shows dialect callee :=
  hshows.congr (h.kind b) (h.flags b) (h.evaluates b)

end Finished

namespace LoweredModule

variable {dialect : Dialect} {m : Surface.Module} {lowered : LoweredModule} {b : BodyId}

/-- The body of a callable: what the callable shows, and which of its bodies may be a generator. -/
theorem exists_shows_of_body (h : LoweredModule.ofSurface (.ofDialect dialect) m = .ok lowered)
    (hb : b ∈ lowered.store.bodyIds) (hlike : (lowered.store.body b).kind.isFunctionLike = true) :
    ∃ callee made object, Surface.Creates dialect callee (Surface.undocumented m.body) ∧
      lowered.store.Carries (.ofDialect dialect) m callee made object ∧
      b ∈ Callable.bodies made object ∧
      (lowered.store.body (codeBody made object)).Shows dialect callee ∧
      ((lowered.store.body b).IsGenerator → b = codeBody made object) := by
  obtain ⟨t, hprepared, hfinished⟩ := LoweredModule.prepared h
  rw [hfinished.kind] at hlike
  have hroot : b ≠ ⟨0⟩ := fun heq => by
    rw [heq, hprepared.root.kind] at hlike
    cases hlike
  cases hprepared.written hroot (hfinished.bodies ▸ Store.mem_bodyIds.1 hb) with
  | classDef d provider hclass =>
    rw [hclass.planned.kind] at hlike
    cases hlike
  | callable callee provider made object hcreates hcallable hone =>
    refine ⟨callee, made, object, hcreates, hfinished.carries (hcallable.carries hprepared), hone,
      hfinished.shows (hcallable.shows hprepared.valid.wellFormed), fun hgenerator => ?_⟩
    rw [IR.Body.IsGenerator, hfinished.kind] at hgenerator
    exact hcallable.eq_codeBody hone hgenerator

/-- The body with the statements of a callable. -/
theorem exists_shows_of_creates (h : LoweredModule.ofSurface (.ofDialect dialect) m = .ok lowered)
    {callee : Callee} (hcallee : Surface.Creates dialect callee (Surface.undocumented m.body)) :
    ∃ provider made object, lowered.store.Carries (.ofDialect dialect) m callee made object ∧
      .function made.outer made.code ∈ lowered.store.sites provider ∧
      codeBody made object ∈ lowered.store.bodyIds ∧
      (lowered.store.body (codeBody made object)).Shows dialect callee := by
  obtain ⟨t, provider, made, object, hprepared, hfinished, hcallable, hcreated⟩ :=
    exists_callableAt h hcallee
  obtain ⟨block, hblock, -⟩ := hcallable.code
  exact ⟨provider, made, object, hfinished.carries (hcallable.carries hprepared), hcreated,
    Store.mem_bodyIds.2 (hfinished.bodies ▸ Store.lt_of_code hblock),
    hfinished.shows (hcallable.shows hprepared.valid.wellFormed)⟩

/-- **A generator yields in its own code**, unless what makes it one is never evaluated.  Every body
that holds the statements of a callable is a generator if its code evaluates a yield, or if one
stands where the callable is scanned but never evaluated; the flag of a delegation goes by the same
rule.  So all generators of a module yield in their own code exactly when none of its callables
yields in ignored expressions only. -/
theorem generators_yield_iff (h : LoweredModule.ofSurface (.ofDialect dialect) m = .ok lowered) :
    (∀ b ∈ lowered.store.bodyIds, (lowered.store.body b).kind.isFunctionLike = true →
      ∃ callee made object, Surface.Creates dialect callee (Surface.undocumented m.body) ∧
        lowered.store.Carries (.ofDialect dialect) m callee made object ∧
        b ∈ Callable.bodies made object ∧
        (lowered.store.body (codeBody made object)).Shows dialect callee ∧
        ((lowered.store.body b).IsGenerator → b = codeBody made object)) ∧
    (∀ callee, Surface.Creates dialect callee (Surface.undocumented m.body) →
      ∃ provider made object, lowered.store.Carries (.ofDialect dialect) m callee made object ∧
        .function made.outer made.code ∈ lowered.store.sites provider ∧
        codeBody made object ∈ lowered.store.bodyIds ∧
        (lowered.store.body (codeBody made object)).Shows dialect callee) ∧
    ((∀ b ∈ lowered.store.bodyIds, (lowered.store.body b).IsGenerator →
        (lowered.store.body b).Evaluates IR.Expr.yields) ↔
      ∀ callee, Surface.Creates dialect callee (Surface.undocumented m.body) →
        (∃ e ∈ callee.ignored dialect, e.evidence.yields = true) →
          ∃ step ∈ callee.steps (.ofDialect dialect), step.evidence.yields = true) := by
  refine ⟨fun b hb hlike => exists_shows_of_body h hb hlike,
    fun callee hcallee => exists_shows_of_creates h hcallee,
    fun hyield callee hcallee hignored => ?_, fun hcallees b hb hgenerator => ?_⟩
  · obtain ⟨_, made, object, -, -, hmem, hshows⟩ := exists_shows_of_creates h hcallee
    exact hshows.yields.1 (hyield _ hmem (hshows.generator.2 (Or.inr hignored)))
  · have hlike : (lowered.store.body b).kind.isFunctionLike = true := by
      rcases hgenerator with hkind | hkind <;> rw [hkind] <;> rfl
    obtain ⟨callee, made, object, hcallee, -, -, hshows, hcode⟩ := exists_shows_of_body h hb hlike
    have heq := hcode hgenerator
    rw [heq] at hgenerator ⊢
    rcases hshows.generator.1 hgenerator with hyields | hignored
    · exact hyields
    · exact hshows.yields.2 (hcallees callee hcallee hignored)

/-- The lambda of `fetchModule` is a generator and yields. -/
theorem fetchModule_generator_yields :
    ∃ lowered, LoweredModule.ofSurface (.ofDialect .modern) fetchModule = .ok lowered ∧
      ∃ made object,
        lowered.store.Carries (.ofDialect .modern) fetchModule (.lambda retryLambda) made object ∧
        (lowered.store.body (codeBody made object)).IsGenerator ∧
        (lowered.store.body (codeBody made object)).Evaluates IR.Expr.yields := by
  have hfacts : succeedsWith (fun _ => true)
      (LoweredModule.ofSurface (.ofDialect .modern) fetchModule) = true := by
    decide +kernel
  obtain ⟨lowered, h, -⟩ := exists_of_succeedsWith hfacts
  obtain ⟨-, hcallees, -⟩ := generators_yield_iff h
  obtain ⟨_, made, object, hcarries, -, -, hshows⟩ := hcallees _ fetchModule_creates
  have hstep : .eval (.yield (some (.name "step"))) ∈
      (Callee.lambda retryLambda).steps (.ofDialect .modern) :=
    List.mem_flatMap.2 ⟨⟨.expr retryLambda.body, .unknown⟩, List.mem_singleton_self _,
      List.mem_cons_of_mem _ (List.mem_singleton_self _)⟩
  have hyields := hshows.yields.2 ⟨_, hstep, rfl⟩
  exact ⟨lowered, h, made, object, hcarries, hshows.generator.2 (Or.inl hyields), hyields⟩

/-- The module `def f(): return lambda x: 0`, the parameter of the lambda being annotated with a
`yield`. -/
def hintedModule : Surface.Module where
  name := "m"
  filename := "m.py"
  future := ⟨false, false, false, false, false⟩
  body :=
    [⟨.define
      { name := "f"
        params := ⟨[], [], none, [], [], none⟩
        body :=
          [⟨.ret (some (.lambda ⟨⟨[.name ⟨"x", some (.yield none)⟩], [], none, [], [], none⟩,
              .constant (.int 0), ⟨2, 4⟩⟩)), ⟨2, 4⟩⟩]
        decorators := []
        returns := none
        isAsync := false
        location := ⟨1, 0⟩ }, ⟨1, 0⟩⟩]

/-- The annotation makes `f` a generator, although its body never yields. -/
theorem hintedModule_generator_never_yields :
    ∃ lowered, LoweredModule.ofSurface (.ofDialect .modern) hintedModule = .ok lowered ∧
      ⟨2⟩ ∈ lowered.store.bodyIds ∧ (lowered.store.body ⟨2⟩).IsGenerator ∧
      ¬ (lowered.store.body ⟨2⟩).Evaluates IR.Expr.yields := by
  have hfacts : succeedsWith (fun l => decide ((l.store.body ⟨2⟩).kind = .callable .generator) &&
        (l.store.body ⟨2⟩).code.any fun block => block.terms.all fun e => !e.yields)
      (LoweredModule.ofSurface (.ofDialect .modern) hintedModule) = true := by
    decide +kernel
  obtain ⟨lowered, h, hfacts⟩ := exists_of_succeedsWith hfacts
  obtain ⟨hkind, hsilent⟩ := Bool.and_eq_true_iff.1 hfacts
  refine ⟨lowered, h, ?_, Or.inl (of_decide_eq_true hkind), ?_⟩
  · refine Store.mem_bodyIds.2 (Classical.byContradiction fun hlt => ?_)
    rw [Store.body_of_size_le (Nat.le_of_not_lt hlt)] at hkind
    cases hkind
  · rintro ⟨block, hcode, e, he, hyields⟩
    rw [hcode] at hsilent
    have hnot := List.all_eq_true.1 hsilent e he
    rw [hyields] at hnot
    cases hnot

end LoweredModule

end DefinitionLowering
