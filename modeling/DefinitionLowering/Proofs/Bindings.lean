import Mathlib.Data.List.Induction
import DefinitionLowering.Proofs.Actions
import DefinitionLowering.Proofs.Injection
import DefinitionLowering.Proofs.Reached

/-!
# What definitions are bound to

A definition is bound to a nest of calls, one for each decorator, around the creation of its
function.

* `exists_foldl_addDecorator` — which decorators a definition gets by itself: those of the rules
  that no decorator refers to yet, each once, in the order of the rules and behind the others.
* `decorate_eq_nest` — the decorator that is applied last is the outermost call.
* `lowerDef_binds` — every definition, plain or asynchronous, is bound to what `Assembled` says:
  which decorators, defaults and annotations there are, in which order, and under which keys.

What is lowered from a part of the definition is expressed by `Gave`.  The run of the definition
(`PlainRun`, `AsyncRun`) tells which body the function is created from; the two agree because the
creation stands at the core of the nest (`decorate_creation_inj`).
-/

namespace DefinitionLowering

open IR (BodyId VariableId Store)

/-! ## Lists of decorators -/

/-- Calls with one argument each, from the outside in. -/
def IR.Expr.nest (callees : List IR.Expr) (core : IR.Expr) : IR.Expr :=
  callees.foldr (fun callee inner => .call callee [inner]) core

/-- The decorator that is applied last is the outermost. -/
theorem decorate_eq_nest (decorators : List IR.Expr) (created : IR.Expr) :
    decorate decorators created = .nest decorators.reverse created := by
  rw [IR.Expr.nest, List.foldr_reverse]
  rfl

theorem decorate_concat (decorators : List IR.Expr) (last created : IR.Expr) :
    decorate (decorators ++ [last]) created = .call last [decorate decorators created] := by
  rw [decorate, List.foldl_append]
  rfl

/-- A function is created at the core of a nest of calls in one way only. -/
theorem decorate_creation_inj {made made' : Lowering.Callable} {defaults defaults' : List IR.Expr}
    {keywords keywords' annotations annotations' : Option IR.Expr} :
    ∀ {decorators decorators' : List IR.Expr},
      decorate decorators (Lowering.creation made defaults keywords annotations) =
        decorate decorators' (Lowering.creation made' defaults' keywords' annotations') →
      made.outer = made'.outer ∧ keywords = keywords' := by
  intro decorators
  induction decorators using List.reverseRecOn with
  | nil =>
    intro decorators' h
    rcases List.eq_nil_or_concat decorators' with rfl | ⟨rest, last, rfl⟩
    · cases made
      cases made'
      cases h
      exact ⟨rfl, rfl⟩
    · rw [List.concat_eq_append, decorate_concat] at h
      cases h
  | append_singleton rest last ih =>
    intro decorators' h
    rcases List.eq_nil_or_concat decorators' with rfl | ⟨rest', last', rfl⟩
    · rw [decorate_concat] at h
      cases h
    · rw [List.concat_eq_append, decorate_concat, decorate_concat] at h
      injection h with _ hinner
      injection hinner with hinner
      exact ih hinner

/-- **Decorators that are added by name** are those that nothing refers to yet, each once and in
order, behind the ones that are there. -/
theorem exists_foldl_addDecorator (names : List String) (decorators : List IR.Expr) :
    ∃ added : List String,
      names.foldl addDecorator decorators = decorators ++ added.map .builtin ∧
      added.Sublist names ∧ added.Nodup ∧
      ∀ name, name ∈ added ↔ name ∈ names ∧ decorators.any (IR.Expr.refersTo name) = false := by
  obtain ⟨added, hadded, heq⟩ := exists_missing decorators names
  exact ⟨added, heq, hadded.sublist, hadded.nodup, hadded.mem_iff⟩

/-- The decorators that are applied to a definition are those written there and behind them those
that it gets by itself. -/
theorem exists_appliedDecorators (dialect : Dialect) (scope : ScopeKind) (d : Surface.Def)
    (decorators : List IR.Expr) :
    ∃ injected : List String,
      Lowering.appliedDecorators dialect scope d decorators =
        decorators ++ injected.map .builtin ∧
      injected.Sublist (dialect.decoratorsFor d.name scope) ∧ injected.Nodup ∧
      (d.isAsync = true → injected = []) ∧
      (d.isAsync = false → ∀ name, name ∈ injected ↔
        name ∈ dialect.decoratorsFor d.name scope ∧
          decorators.any (IR.Expr.refersTo name) = false) := by
  rw [Lowering.appliedDecorators]
  split
  · rename_i hasync
    refine ⟨[], (List.append_nil _).symm, List.nil_sublist _, List.nodup_nil, fun _ => rfl, ?_⟩
    intro hplain
    rw [hasync] at hplain
    cases hplain
  · rename_i hplain
    obtain ⟨injected, heq, hsub, hnodup, hmem⟩ :=
      exists_foldl_addDecorator (dialect.decoratorsFor d.name scope) decorators
    exact ⟨injected, heq, hsub, hnodup, fun hasync => absurd hasync hplain, fun _ => hmem⟩

namespace Lowering

variable {setting : Setting} {t s s' : Store} {b : BodyId} {location : Location} {n : Nat}
  {made : Callable} {d : Surface.Def} {statement : IR.Stmt}

/-! ## Mappings that are absent -/

/-- The mapping of keyword-only defaults is absent exactly when there are no such parameters. -/
theorem lowerKeywordMapping_eq_none_iff {params : Surface.Params} {holder : BodyId}
    {o : Option IR.Expr} (h : lowerKeywordMapping setting b holder location params s = .ok o s') :
    o = none ↔ keywordOnlyNames s holder = [] := by
  unfold lowerKeywordMapping keywordMapping at h
  obtain ⟨names, s₁, h₁, h₂⟩ := bind_eq_ok h
  obtain ⟨hnames, rfl⟩ := query_eq_ok h₁
  rw [← hnames]
  cases names with
  | nil =>
    cases h₂
    exact ⟨fun _ => rfl, fun _ => rfl⟩
  | cons name rest =>
    obtain ⟨entries, s₂, h₃, h₄⟩ := bind_eq_ok h₂
    cases h₄
    simp

/-- The same in terms of the parameters that are written. -/
theorem keywords_eq_none_iff {name : String} {doc : Option String} {flags : Flags}
    {params : Surface.Params} {place : Location} {keywords : Option IR.Expr}
    (hstands : Stands t b name doc flags params place made)
    (h : Ran n (lowerKeywordMapping setting b made.outer location params) s keywords s')
    (hlt : made.outer.index < s.bodies.size) (ht : Store.Grows 0 s' t) :
    keywords = none ↔ params.keywordOnly = [] := by
  rw [lowerKeywordMapping_eq_none_iff h.run, hstands.keywordOnlyNames (h.later ht) hlt,
    keywordOnlyIn, List.map_eq_nil_iff]

/-- The mapping of annotations is absent exactly when the dialect has none or none is written. -/
theorem gave_annotations_eq_none_iff {params : Surface.Params} {returns : Option Surface.Expr}
    {o : Option IR.Expr} (h : Gave t b (lowerAnnotations setting b location params returns) o) :
    o = none ↔ setting.dialect.annotations = false ∨ annotationsOf params returns = [] := by
  unfold lowerAnnotations at h
  dsimp only at h
  split at h
  · rename_i hnone
    have hwritten : setting.dialect.annotations = false ∨ annotationsOf params returns = [] := by
      simpa using hnone
    exact ⟨fun _ => hwritten, fun _ => gave_pure h⟩
  · rename_i hsome
    have hwritten :
        ¬ (setting.dialect.annotations = false ∨ annotationsOf params returns = []) := by
      simpa using hsome
    obtain ⟨entries, -, -, h⟩ := h.bind
      (sound_mapM fun written _ => sound_lowerHint setting location written) fun _ _ =>
        sound_pure trivial
    rw [gave_pure h]
    exact ⟨fun hnone => (by cases hnone), fun hnone => absurd hnone hwritten⟩

/-! ## The run of a definition -/

theorem Binds.source_eq {name : String} {source source' : IR.Expr}
    (h : Binds t b name source statement) (h' : Binds t b name source' statement) :
    source' = source := by
  cases h with
  | var _ =>
    cases h' with
    | var _ => rfl
  | name =>
    cases h' with
    | name => rfl

/-- A definition is bound to decorators around the creation of a function from the first body that
its lowering creates, and there is a mapping of keyword-only defaults if there are such
parameters. -/
def BindsFresh (t : Store) (b : BodyId) (d : Surface.Def) (outer : BodyId) (statement : IR.Stmt) :
    Prop :=
  ∃ (applied : List IR.Expr) (made : Callable) (defaults : List IR.Expr)
    (keywords annotations : Option IR.Expr),
    Binds t b (t.spell b d.name)
      (decorate applied (creation made defaults keywords annotations)) statement ∧
    made.outer = outer ∧ (keywords = none ↔ d.params.keywordOnly = [])

theorem PlainRun.bindsFresh (h : PlainRun setting b d s statement s') (hs : s.WellFormed)
    (hb : b.index < s.bodies.size) (ht : Store.Grows 0 s' t) (hwf : t.WellFormed) :
    BindsFresh t b d ⟨s.bodies.size⟩ statement := by
  obtain ⟨made, code, decorators, defaults, keywords, annotations, lowered, s₁, s₂, s₃, s₄, s₅, s₆,
    s₇, s₈, s₉, hbuild, hplaced, hcreate, hcode, hdecorators, hdefaults, hkeywords, hopen, hbody,
    hattach, hannotations, hbind⟩ := h
  have h₅ := hopen.later (hbody.later (hattach.later (hannotations.later (hbind.later ht))))
  have h₁ := hcreate.later (hdecorators.later (hdefaults.later (hkeywords.later h₅)))
  have hstands := buildCallable_stands hs hb hbuild h₁ hwf
  have houter := hdefaults.created (hdecorators.created (hcreate.created hplaced.outer.2))
  have hb₉ := hannotations.created (hattach.created (hbody.created (hopen.created
    (hkeywords.created (hdefaults.created (hdecorators.created (hcreate.created
      (hbuild.created hb))))))))
  refine ⟨_, made, defaults, keywords, annotations,
    gave_binds (gave_bindDefinition (hbind.gave hannotations.wellFormed hb₉ ht)), ?_, ?_⟩
  · exact (buildCallable_bodies hs hb hbuild.run).1
  · exact keywords_eq_none_iff hstands hkeywords houter h₅

theorem AsyncRun.bindsFresh (h : AsyncRun setting b d s statement s') (hs : s.WellFormed)
    (hb : b.index < s.bodies.size) (ht : Store.Grows 0 s' t) (hwf : t.WellFormed) :
    BindsFresh t b d ⟨s.bodies.size⟩ statement := by
  obtain ⟨kind, made, object, decorators, defaults, keywords, annotations, lowered, s₁, s₂, s₃, s₄,
    s₅, s₆, s₇, s₈, s₉, s₁₀, s₁₁, hkind, hbuild, hplaced, hcreate, hobject, hdecorators, hdefaults,
    hopen, hbody, hattach, hannotations, hkeywords, hmaker, rfl, hbind⟩ := h
  have h₁₀ : Store.Grows 0 s₁₀ t :=
    (Store.Grows.copyNonlocals (Nat.zero_le _)).trans (hbind.later ht) (Nat.le_refl 0)
  have h₉ := hmaker.later h₁₀
  have h₅ := hbody.later (hattach.later (hannotations.later (hkeywords.later h₉)))
  have h₁ := hcreate.later (hdecorators.later (hdefaults.later (hopen.later h₅)))
  have hstands := buildCallable_stands hs hb hbuild h₁ hwf
  -- what is there once the callable has been built is there to the end
  have there : ∀ c : BodyId, c.index < s₁.bodies.size → c.index < s₈.bodies.size := fun c hc =>
    hannotations.created (hattach.created (hbody.created (hopen.created (hdefaults.created
      (hdecorators.created (hcreate.created hc))))))
  have hb₁₁ : b.index < (s₁₀.copyNonlocals object made.function).bodies.size := by
    rw [Store.copyNonlocals, Store.size_bodies_modifyBody]
    exact hmaker.created (hkeywords.created (there b (hbuild.created hb)))
  refine ⟨_, made, defaults, keywords, annotations,
    gave_binds (gave_bindDefinition (hbind.gave
      (IR.Store.WellFormed.copyNonlocals hmaker.wellFormed) hb₁₁ ht)), ?_, ?_⟩
  · exact (buildCallable_bodies hs hb hbuild.run).1
  · exact keywords_eq_none_iff hstands hkeywords (there _ hplaced.outer.2) h₉

theorem bindsFresh_lowerDef (hs : s.WellFormed) (hb : b.index < s.bodies.size)
    (hrun : lowerDef setting b d s = .ok statement s') (ht : Store.Grows 0 s' t)
    (hwf : t.WellFormed) : BindsFresh t b d ⟨s.bodies.size⟩ statement := by
  cases hasync : d.isAsync with
  | true => exact (asyncRun_of_ok hs hb hasync hrun).bindsFresh hs hb ht hwf
  | false => exact (plainRun_of_ok hs hb hasync hrun).bindsFresh hs hb ht hwf

/-! ## The parts of a definition -/

/-- The annotations of some parameters, with the names they are recorded under. -/
def hintsOf (params : List Surface.Param) : List (String × Surface.Expr) :=
  params.filterMap fun param => param.hint.map fun hint => (param.name, hint)

/-- Annotations are recorded in this order: positional parameters, also inside patterns, star,
keyword-only, double star, and the result. -/
theorem annotationsOf_eq (params : Surface.Params) (returns : Option Surface.Expr) :
    annotationsOf params returns =
      hintsOf (Surface.patternLeaves params.positional) ++ hintsOf params.star.toList ++
        hintsOf params.keywordOnly ++ hintsOf params.doubleStar.toList ++
          returns.toList.map fun hint => ("return", hint) := by
  simp only [annotationsOf, Surface.Params.named, hintsOf, List.filterMap_append, List.append_assoc]

/-- What a definition is bound to in a body, part by part. -/
structure Assembled (setting : Setting) (t : Store) (b : BodyId) (d : Surface.Def)
    (injected : List String) (decorators defaults : List IR.Expr)
    (keywords annotations : Option IR.Expr) (made : Callable) : Prop where
  /-- An asynchronous definition gets no decorators by itself. -/
  injected_async : d.isAsync = true → injected = []
  /-- The others get them in the order of the rules, each once, -/
  injected_order : injected.Sublist (setting.dialect.decoratorsFor d.name (t.body b).kind.scope)
  injected_once : injected.Nodup
  /-- and get those that no other decorator refers to. -/
  injected_iff : d.isAsync = false → ∀ name, name ∈ injected ↔
    name ∈ setting.dialect.decoratorsFor d.name (t.body b).kind.scope ∧
      decorators.any (IR.Expr.refersTo name) = false
  /-- The decorators that are written, the first one first. -/
  written_decorators : List.Forall₂
    (fun written e => Gave t b (lowerExpr setting b d.location written) e) d.decorators decorators
  callable : ∃ object, CallableAt setting t (.define d) b made object
  written_defaults : List.Forall₂
    (fun written e => Gave t b (lowerExpr setting b d.location written) e)
    d.params.defaults defaults
  /-- There are as many defaults as the signature of the function says. -/
  counted : ∃ signature, (t.body made.outer).signature = some signature ∧
    signature.defaultCount = defaults.length
  keywords_absent : keywords = none ↔ d.params.keywordOnly = []
  /-- The keys are the names of keyword-only parameters, as they are spelled in the body, that a
  default stands beside. -/
  keywords_entries : ∀ e, keywords = some e → ∃ entries, e = .ofEntries entries ∧
    List.Forall₂ (fun (written : String × Surface.Expr) (entry : String × IR.Expr) =>
        entry.1 = written.1 ∧ Gave t b (lowerExpr setting b d.location written.2) entry.2)
      (keywordEntries (d.params.keywordOnly.map fun param => t.spell b param.name)
        d.params.keywordDefaults) entries
  annotations_absent : annotations = none ↔
    setting.dialect.annotations = false ∨ annotationsOf d.params d.returns = []
  /-- The keys are the names of the parameters, spelled as the dialect wants it. -/
  annotations_entries : ∀ e, annotations = some e → ∃ entries, e = .ofEntries entries ∧
    List.Forall₂ (fun (written : String × Surface.Expr) (entry : String × IR.Expr) =>
        entry.1 =
          (if setting.dialect.privateAnnotationKeys then t.spell b written.1 else written.1) ∧
        Gave t b (lowerExpr setting b d.location written.2) entry.2)
      (hintsOf (Surface.patternLeaves d.params.positional) ++ hintsOf d.params.star.toList ++
        hintsOf d.params.keywordOnly ++ hintsOf d.params.doubleStar.toList ++
          d.returns.toList.map fun hint => ("return", hint)) entries

/-- The keys of the defaults of a definition. -/
theorem Assembled.keys_keywords {injected : List String} {decorators defaults : List IR.Expr}
    {keywords : IR.Expr} {annotations : Option IR.Expr}
    (h : Assembled setting t b d injected decorators defaults (some keywords) annotations made) :
    keywords.keys? = some
      ((keywordEntries (d.params.keywordOnly.map fun param => t.spell b param.name)
        d.params.keywordDefaults).map Prod.fst) := by
  obtain ⟨entries, rfl, hentries⟩ := h.keywords_entries keywords rfl
  rw [IR.Expr.keys?_ofEntries, map_fst_of_forall₂ hentries fun _ _ hentry => hentry.1]

/-- The keys of the annotations of a definition. -/
theorem Assembled.keys_annotations {injected : List String} {decorators defaults : List IR.Expr}
    {keywords : Option IR.Expr} {annotations : IR.Expr}
    (h : Assembled setting t b d injected decorators defaults keywords (some annotations) made) :
    annotations.keys? = some ((annotationsOf d.params d.returns).map fun written =>
      if setting.dialect.privateAnnotationKeys then t.spell b written.1 else written.1) := by
  obtain ⟨entries, rfl, hentries⟩ := h.annotations_entries annotations rfl
  rw [IR.Expr.keys?_ofEntries, map_fst_of_forall₂ hentries fun _ _ hentry => hentry.1,
    annotationsOf_eq]

theorem KeywordsGave.entries {params : Surface.Params} {keywords : Option IR.Expr} {e : IR.Expr}
    (h : KeywordsGave setting t b location params keywords) (he : keywords = some e) :
    ∃ entries, e = .ofEntries entries ∧
      List.Forall₂ (fun (written : String × Surface.Expr) (entry : String × IR.Expr) =>
          entry.1 = written.1 ∧ Gave t b (lowerExpr setting b location written.2) entry.2)
        (keywordEntries (params.keywordOnly.map fun param => t.spell b param.name)
          params.keywordDefaults) entries := by
  cases h with
  | absent _ => cases he
  | mapping entries hentries =>
    cases he
    exact ⟨entries, rfl, gave_keywordDefaults _ _ hentries⟩

theorem gave_annotations_entries {params : Surface.Params} {returns : Option Surface.Expr}
    {annotations : Option IR.Expr} {e : IR.Expr}
    (h : Gave t b (lowerAnnotations setting b location params returns) annotations)
    (he : annotations = some e) :
    ∃ entries, e = .ofEntries entries ∧
      List.Forall₂ (fun (written : String × Surface.Expr) (entry : String × IR.Expr) =>
          entry.1 =
            (if setting.dialect.privateAnnotationKeys then t.spell b written.1 else written.1) ∧
          Gave t b (lowerExpr setting b location written.2) entry.2)
        (annotationsOf params returns) entries := by
  rcases gave_annotations h with ⟨-, rfl⟩ | ⟨-, entries, rfl, hentries⟩
  · cases he
  · cases he
    exact ⟨entries, rfl, hentries.imp fun _ _ hhint => gave_hint hhint⟩

/-- What is evaluated for a definition, and how it is put together. -/
theorem Defined.assembled (h : Defined setting t b d statement) {outer : BodyId}
    (hfresh : BindsFresh t b d outer statement) :
    ∃ injected decorators defaults keywords annotations made,
      Binds t b (t.spell b d.name)
        (.nest (injected.reverse.map .builtin ++ decorators)
          (creation made defaults keywords annotations)) statement ∧
      made.outer = outer ∧
      Assembled setting t b d injected decorators defaults keywords annotations made := by
  obtain ⟨decorators, created, statement, hdecorators, hcreated, hbind⟩ := h
  obtain ⟨made, object, defaults, keywords, annotations, hcallable, hdefaults, hkeywords,
    hannotations⟩ := hcreated
  obtain ⟨injected, happlied, horder, honce, hasync, hplain⟩ := exists_appliedDecorators
    setting.dialect (t.body b).kind.scope d decorators
  have hbinds := gave_binds (gave_bindDefinition hbind)
  obtain ⟨applied, made', defaults', keywords', annotations', hbinds', houter, hnone⟩ := hfresh
  -- the run and what has been lowered in it speak of the same creation
  obtain ⟨hsame, rfl⟩ := decorate_creation_inj (hbinds.source_eq hbinds')
  have hwritten := gave_exprs hdefaults
  refine ⟨injected, decorators.reverse, defaults, keywords', annotations, made, ?_,
    hsame.symm.trans houter, ?_⟩
  · rw [happlied, decorate_eq_nest, List.reverse_append, ← List.map_reverse] at hbinds
    exact hbinds
  · constructor
    · exact hasync
    · exact horder
    · exact honce
    · intro hdef name
      rw [List.any_reverse]
      exact hplain hdef name
    · rw [← List.forall₂_reverse_iff, List.reverse_reverse]
      exact forall₂_decorators hdecorators
    · exact ⟨object, hcallable⟩
    · exact hwritten
    · exact ⟨_, hcallable.stands.outer.signature, hwritten.length_eq⟩
    · exact hnone
    · exact fun e he => hkeywords.entries he
    · exact gave_annotations_eq_none_iff hannotations
    · intro e he
      rw [← annotationsOf_eq]
      exact gave_annotations_entries hannotations he

/-- What lowering a definition comes to, at the end of its run. -/
theorem defined_lowerDef (hs : s.WellFormed) (hb : b.index < s.bodies.size)
    (hrun : lowerDef setting b d s = .ok statement s') :
    s'.WellFormed ∧ Defined setting s' b d statement ∧
      BindsFresh s' b d ⟨s.bodies.size⟩ statement := by
  obtain ⟨hran, -⟩ := sound_ran (fun m => sound_lowerDef setting d m b) hs hb hrun
  exact ⟨hran.wellFormed,
    gave_lowerDef (hran.gave hs hb (Store.Grows.refl 0 s')) hran.wellFormed,
    bindsFresh_lowerDef hs hb hrun (Store.Grows.refl 0 s') hran.wellFormed⟩

/-- **A definition is bound to its decorators, defaults and annotations, all in their places.**
From the outside in there are the decorators that it gets by itself, the last one first, and those
that are written, the first one first, around the creation of a function from the first body that
was created for it. -/
theorem lowerDef_binds (hs : s.WellFormed) (hb : b.index < s.bodies.size)
    (hrun : lowerDef setting b d s = .ok statement s') :
    ∃ injected decorators defaults keywords annotations made,
      Binds s' b (s'.spell b d.name)
        (.nest (injected.reverse.map .builtin ++ decorators)
          (.makeFunction made.outer made.code defaults keywords annotations)) statement ∧
      made.outer = ⟨s.bodies.size⟩ ∧
      Assembled setting s' b d injected decorators defaults keywords annotations made := by
  obtain ⟨-, hdefined, hfresh⟩ := defined_lowerDef hs hb hrun
  exact hdefined.assembled hfresh

/-! ## A method -/

/-- Whether a step gives a value, and a store, that pass a check. -/
def givesWith {α : Type} (check : α → Store → Bool) : EStateM.Result Failure Store α → Bool
  | .ok a s => check a s
  | .error _ _ => false

theorem exists_of_givesWith {α : Type} {check : α → Store → Bool}
    {result : EStateM.Result Failure Store α} (h : givesWith check result = true) :
    ∃ a s, result = .ok a s ∧ check a s = true := by
  cases result with
  | error failure s => cases h
  | ok a s => exact ⟨a, s, rfl, h⟩

/-- A class `Q` in a module; it binds the given name. -/
def classStore (name : String) : Store :=
  let inClass := ((initialStore emptyModule).createBody
    { kind := .classBody
      name := "Q"
      location := ⟨1, 0⟩
      provider := some ⟨0⟩ }).2
  (inClass.declareLocal ⟨1⟩ name).2

theorem wellFormed_classStore (name : String) : (classStore name).WellFormed := by
  refine IR.Store.WellFormed.declareLocal ?_ (by decide)
  refine IR.Store.WellFormed.createBody ?_ ?_ ?_ ?_ List.nodup_nil
  · refine Store.wellFormed_empty.createBody ?_ ?_ ?_ List.nodup_nil
    · rintro p ⟨⟩
    · exact ⟨fun _ => rfl, fun _ => rfl⟩
    · exact fun _ => ⟨rfl, rfl⟩
  · rintro p ⟨⟩
    decide
  · constructor <;> rintro ⟨⟩
  · rintro ⟨⟩

/-- A method with decorators, defaults and annotations:

    @traced
    @logged
    def __new__(cls, size: int = 8, *, __lock=None, depth: int) -> Q: pass
-/
def methodDef : Surface.Def where
  name := "__new__"
  params :=
    { positional := [.name ⟨"cls", none⟩, .name ⟨"size", some (.name "int")⟩]
      defaults := [.constant (.int 8)]
      star := none
      keywordOnly := [⟨"__lock", none⟩, ⟨"depth", some (.name "int")⟩]
      keywordDefaults := [some (.constant .none), none]
      doubleStar := none }
  body := [⟨.pass, ⟨4, 4⟩⟩]
  decorators := [.name "traced", .name "logged"]
  returns := some (.name "Q")
  isAsync := false
  location := ⟨4, 2⟩

/-- The method is bound to two decorators, one default, the default of the private keyword-only
parameter, and three annotations. -/
theorem methodDef_binds :
    ∃ statement s', lowerDef (.ofDialect .modern) ⟨1⟩ methodDef (classStore "__new__") =
        .ok statement s' ∧
      ∃ (injected : List String) (decorators defaults : List IR.Expr)
        (keywords annotations : IR.Expr) (made : Callable),
        Binds s' ⟨1⟩ (s'.spell ⟨1⟩ "__new__")
          (.nest (injected.reverse.map .builtin ++ decorators)
            (.makeFunction made.outer made.code defaults (some keywords) (some annotations)))
          statement ∧
        made.outer = ⟨2⟩ ∧ decorators.length = 2 ∧ defaults.length = 1 ∧
        keywords.keys? = some ["_Q__lock"] ∧
        annotations.keys? = some ["size", "depth", "return"] := by
  have hfacts : givesWith (fun _ s' =>
      ["__lock", "depth"].map (s'.spell ⟨1⟩) == ["_Q__lock", "depth"] &&
        ["size", "depth", "return"].map (s'.spell ⟨1⟩) == ["size", "depth", "return"])
      (lowerDef (.ofDialect .modern) ⟨1⟩ methodDef (classStore "__new__")) = true := by
    decide +kernel
  obtain ⟨statement, s', hrun, hspell⟩ := exists_of_givesWith hfacts
  rw [Bool.and_eq_true, beq_iff_eq, beq_iff_eq] at hspell
  obtain ⟨injected, decorators, defaults, keywords, annotations, made, hbinds, houter, h⟩ :=
    lowerDef_binds (wellFormed_classStore "__new__") (by decide) hrun
  obtain ⟨keywords, rfl⟩ : ∃ e, keywords = some e := Option.ne_none_iff_exists'.1 fun hnone => by
    cases h.keywords_absent.1 hnone
  obtain ⟨annotations, rfl⟩ : ∃ e, annotations = some e :=
    Option.ne_none_iff_exists'.1 fun hnone => by
      rcases h.annotations_absent.1 hnone with hdialect | hwritten
      · cases hdialect
      · cases hwritten
  refine ⟨statement, s', hrun, injected, decorators, defaults, keywords, annotations, made, hbinds,
    houter, h.written_decorators.length_eq.symm, h.written_defaults.length_eq.symm, ?_, ?_⟩
  · have hkeys : (methodDef.params.keywordOnly.map fun param => s'.spell ⟨1⟩ param.name) =
        ["_Q__lock", "depth"] := hspell.1
    rw [h.keys_keywords, hkeys]
    rfl
  · rw [h.keys_annotations]
    exact congrArg some hspell.2

end Lowering

end DefinitionLowering
