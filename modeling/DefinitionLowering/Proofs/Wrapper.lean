import DefinitionLowering.Lowering.Callable
import DefinitionLowering.Proofs.Growth
import DefinitionLowering.Proofs.Unpacking

/-!
# What a wrapper does

A callable with tuple-shaped parameters becomes a wrapper and a delegate.  `createDelegate_spec`
says exactly which store that leaves, and that nothing goes wrong on the way but a repeated
name among the delegate's parameters.

Main result: `wrapper_calls_delegate`.  Running the wrapper calls the delegate if and only if
every argument has the shape of its pattern; the delegate then gets, for each of its parameters,
the value that pattern matching gives to the name.
-/

namespace DefinitionLowering

open IR (BodyId VariableId Store)
open Surface (Pattern Param Params assignAll PatternsFit patternLeaves patternsScratch)

/-! ## Running a wrapper -/

/-- Releasing variables never fails. -/
theorem exec_releases (vars : List VariableId) (m : Machine) :
    ∃ m', execStmts (vars.map .release) m = .ok () m' := by
  induction vars generalizing m with
  | nil => exact ⟨m, rfl⟩
  | cons v rest ih =>
    obtain ⟨m', h⟩ := ih (m.forget v)
    refine ⟨m', ?_⟩
    rw [List.map_cons, execStmts, exec_bind_ok (show execStmt (.release v) m = .ok () _ from rfl)]
    exact h

/-- **Releases do not change how a block stops.** -/
theorem runBlock_releasing (vars : List VariableId) (tried : IR.Block) (m : Machine) :
    runBlock (tried.releasing vars) m = runBlock tried m := by
  have hrun : execBlock (tried.releasing vars) m =
      Exec.finallyDo (execBlock tried) (execStmts (vars.map .release)) m := by
    show execStmts [_] m = _
    rw [execStmts_single, execStmt]
    rfl
  unfold runBlock
  rw [hrun, Exec.finallyDo]
  cases execBlock tried m with
  | ok _ m' =>
    obtain ⟨m'', h⟩ := exec_releases vars m'
    dsimp only
    rw [h]
  | error stop m' =>
    obtain ⟨m'', h⟩ := exec_releases vars m'
    dsimp only
    rw [h]

/-- The call at the end of a wrapper. -/
theorem exec_call {delegate : BodyId} {code : CodeObject} {accesses : List IR.Expr}
    {m : Machine} {values : List Value} (h : evalArgs accesses m = .ok values m) :
    execStmts [.ret (.callFunction (.makeFunction delegate code [] none none) accesses)] m =
      .error (.called delegate values) m := by
  rw [execStmts_single, execStmt, exec_bind_ok h]
  rfl

/-- Running a block calls the delegate with the values of some names, if there are any; without
them it raises. -/
def Forwards (block : IR.Block) (m : Machine) (delegate : BodyId) :
    Option (List (String × Value)) → Prop
  | some bindings => runBlock block m = some (.called delegate (bindings.map Prod.snd))
  | none => ∃ error, runBlock block m = some (.raised error)

theorem Forwards.releasing {block : IR.Block} {m : Machine} {delegate : BodyId}
    {result : Option (List (String × Value))} (h : Forwards block m delegate result)
    (vars : List VariableId) : Forwards (block.releasing vars) m delegate result := by
  unfold Forwards at *
  rw [runBlock_releasing]
  exact h

/-- The statements of a wrapper: those that take its arguments apart, and the call. -/
def forwarding (u : Lowering.Unpacking) (delegate : BodyId) (code : CodeObject) : IR.Block :=
  .ofStatements (u.statements ++
    [.ret (.callFunction (.makeFunction delegate code [] none none) u.accesses)])

/-- A wrapper calls the delegate when the code in front takes its arguments apart, and raises
when that raises. -/
theorem forwards_of_runs {u : Lowering.Unpacking} {delegate : BodyId} {code : CodeObject}
    {first next : Nat} {m : Machine} {result : Option (List (String × Value))}
    (h : u.Runs first next m m result) :
    Forwards (forwarding u delegate code) m delegate result := by
  have hblock : ∀ stop m', execStmts (u.statements ++ [.ret (.callFunction
      (.makeFunction delegate code [] none none) u.accesses)]) m = .error stop m' →
      runBlock (forwarding u delegate code) m = some stop := by
    intro stop m' hrun
    unfold runBlock
    rw [show execBlock (forwarding u delegate code) m = .error stop m' from hrun]
  cases result with
  | some bindings =>
    obtain ⟨m', hexec, -, hyields⟩ := h
    exact hblock _ _ ((execStmts_append_ok hexec).trans (exec_call (evalArgs_of_yields hyields)))
  | none =>
    obtain ⟨error, m', hrun⟩ := Raises.append h _
    exact ⟨error, hblock _ _ hrun⟩

/-! ## Creating the delegate -/

namespace Lowering

variable {wrapper : BodyId} {signature : Signature} {placeholders : List Placeholder}
  {code : CodeObject} {flags : Flags} {doc : Option String} {location : Location}
  {s s' : Store} {spell : String → String} {formals : List Pattern}

/-- What is settled about the delegate of a wrapper. -/
def delegatePlan (wrapper : BodyId) (name : String) (slots : List String) (flags : Flags)
    (doc : Option String) (location : Location) : IR.BodyPlan where
  kind := .function
  name := delegateName name
  location := location
  provider := some wrapper
  flags := flags
  doc := doc
  signature := some (delegateSignature (delegateName name) slots)

/-- A wrapper that has just been created for some parameters, which are spelled by `spell`. -/
structure IsFresh (s : Store) (wrapper : BodyId) (signature : Signature)
    (placeholders : List Placeholder) (spell : String → String) (formals : List Pattern) :
    Prop where
  ordered : s.Ordered
  created : wrapper.index < s.bodies.size
  codeless : (s.body wrapper).code = none
  scratchless : s.temporaries wrapper = []
  known : ∀ v ∈ s.visible wrapper, v.index < s.vars.size
  spelling : s.spell wrapper = spell
  slots_eq : signature.slots =
    (PositionalSlot.ofPatterns spell 1 formals).map PositionalSlot.name
  distinct : signature.slots.Nodup
  placeholders_eq : placeholders =
    (PositionalSlot.ofPatterns spell 1 formals).filterMap PositionalSlot.placeholder?
  names : (s.visible wrapper).map (fun v => (s.var v).name) = signature.slots

theorem IsFresh.elementsOf? (h : IsFresh s wrapper signature placeholders spell formals) :
    ∀ slot ∈ PositionalSlot.ofPatterns spell 1 formals,
      Placeholder.elementsOf? placeholders slot.name = slot.elements := by
  intro slot hslot
  rw [h.placeholders_eq]
  exact elementsOf?_of_mem (h.slots_eq ▸ h.distinct) hslot

theorem IsFresh.delegateSlots (h : IsFresh s wrapper signature placeholders spell formals) :
    delegateSlots (s.spell wrapper) placeholders signature.slots = leafNames spell formals := by
  rw [h.spelling, h.slots_eq]
  exact delegateSlots_eq formals 1 h.elementsOf?

/-- The leaves of the tuples are among all leaves. -/
theorem tupleSlots_leaves (formals : List Pattern) (number : Nat) :
    (patternLeaves (tupleSlots (PositionalSlot.ofPatterns spell number formals))).Sublist
      (patternLeaves formals) := by
  induction formals generalizing number with
  | nil => exact List.Sublist.refl _
  | cons pattern rest ih =>
    cases pattern with
    | name param => exact (ih number).cons _
    | tuple elements => exact List.Sublist.append (List.Sublist.refl _) (ih (number + 1))

/-- The code of a wrapper. -/
def wrapperCode (s : Store) (wrapper delegate : BodyId) (code : CodeObject) (u : Unpacking) :
    IR.Block :=
  .releasing (sortByName s (s.temporaries wrapper)) (forwarding u delegate code)

/-- The names of the temporaries of a wrapper. -/
def scratchNames (spell : String → String) (formals : List Pattern) : List String :=
  patternsScratch spell 0 (tupleSlots (PositionalSlot.ofPatterns spell 1 formals))

theorem scratchNames_nodup (h : (leafNames spell formals).Nodup) :
    (scratchNames spell formals).Nodup :=
  Surface.scratch_nodup _ (h.sublist ((tupleSlots_leaves formals 1).map _))

/-- There is at least one iterator when there is a tuple. -/
theorem scratchNames_ne_nil (h : formals.any Pattern.isTuple = true) :
    scratchNames spell formals ≠ [] := by
  unfold scratchNames
  suffices hmain : ∀ number next,
      patternsScratch spell next (tupleSlots (PositionalSlot.ofPatterns spell number formals)) ≠ []
    from hmain 1 0
  induction formals with
  | nil => cases h
  | cons pattern rest ih =>
    intro number next
    cases pattern with
    | name param => exact ih h number next
    | tuple elements => exact List.cons_ne_nil _ _

/-- A wrapper with a delegate can still have temporaries, and finds its parameters. -/
theorem IsFresh.createBody (h : IsFresh s wrapper signature placeholders spell formals)
    (plan : IR.BodyPlan) :
    (s.createBody plan).2.CanScratch wrapper ∧
      (s.createBody plan).2.temporaryNames wrapper = [] ∧
      (∀ v ∈ (s.createBody plan).2.visible wrapper, v.index < (s.createBody plan).2.vars.size) ∧
      ∀ slot ∈ PositionalSlot.ofPatterns spell 1 formals,
        ((s.createBody plan).2.find? wrapper slot.name).isSome := by
  have hg := IR.Store.Grows.createBody s plan
  have hbody := IR.Store.body_createBody_of_lt s plan h.created
  have hvisible : (s.createBody plan).2.visible wrapper = s.visible wrapper := by
    rw [IR.Store.visible, hbody, IR.Store.visible]
  have htemporaries : (s.createBody plan).2.temporaries wrapper = [] := by
    rw [IR.Store.temporaries, hbody]
    exact h.scratchless
  refine ⟨⟨Nat.lt_of_lt_of_le h.created hg.bodies, fun v hv => ?_⟩, ?_, fun v hv => ?_,
    fun slot hslot => ?_⟩
  · rw [htemporaries] at hv
    cases hv
  · rw [IR.Store.temporaryNames, htemporaries]
    rfl
  · rw [hvisible] at hv
    exact Nat.lt_of_lt_of_le (h.known v hv) hg.vars
  · have hmem : slot.name ∈ (s.visible wrapper).map fun v => (s.var v).name := by
      rw [h.names, h.slots_eq]
      exact List.mem_map_of_mem hslot
    obtain ⟨v, hv, hname⟩ := List.mem_map.1 hmem
    rw [Option.isSome_iff_ne_none]
    intro hnone
    rw [IR.Store.find?_eq_none, hvisible] at hnone
    exact hnone v hv (by rw [hg.var v (h.known v hv), hname])

/-- **Creating a delegate** leaves one more body and the temporaries of the wrapper, and gives
the wrapper its code; it fails only when the delegate would have an invalid signature. -/
theorem createDelegate_spec (h : IsFresh s wrapper signature placeholders spell formals) :
    Ends (createDelegate wrapper signature placeholders code flags doc location) s
      (fun delegate s' =>
        (leafNames spell formals).Nodup ∧ delegate = ⟨s.bodies.size⟩ ∧
        let created := (s.createBody (delegatePlan wrapper signature.name
          (leafNames spell formals) flags doc location)).2
        let filled := created.withTemporaries wrapper (scratchNames spell formals)
        ∃ u, unpackSlots wrapper placeholders 0 signature.slots created = .ok u filled ∧
          s' = filled.modifyBody wrapper fun body =>
            { body with code := some (wrapperCode filled wrapper delegate code u) })
      (fun failure s' => s' = s ∧ ∃ defect,
        (delegateSignature (delegateName signature.name) (leafNames spell formals)).check =
          .error defect ∧
        failure = .rejected ⟨.invalidSignature defect, location⟩) := by
  unfold createDelegate
  rw [ends_bind, ends_query, h.delegateSlots]
  dsimp only
  cases hcheck : (delegateSignature (delegateName signature.name)
      (leafNames spell formals)).check with
  | error defect => exact ⟨rfl, defect, rfl, rfl⟩
  | ok inner =>
    obtain ⟨hdefect, rfl⟩ := Signature.check_eq_ok_iff.1 hcheck
    have hnodup : (leafNames spell formals).Nodup := by
      have := Signature.nodup_of_defect?_eq_none hdefect
      rwa [delegateSignature_slots] at this
    let plan := delegatePlan wrapper signature.name (leafNames spell formals) flags doc location
    have hg := IR.Store.Grows.createBody s plan
    have hbody := IR.Store.body_createBody_of_lt s plan h.created
    obtain ⟨hscratch, hnames, hknown, hfind⟩ := h.createBody plan
    have hspell : (s.createBody plan).2.spell wrapper = spell := by
      rw [hg.spell h.ordered h.created, h.spelling]
    have hunpack := unpackSlots_store placeholders
      (PositionalSlot.ofPatterns spell 1 formals) 0 (s.createBody plan).2 hscratch hknown
      fun slot hslot => ⟨h.elementsOf? slot hslot, hfind slot hslot⟩
    rw [hspell, ← h.slots_eq, show patternsScratch spell 0 (tupleSlots _) =
      scratchNames spell formals from rfl] at hunpack
    dsimp only
    rw [ends_bind]
    show Ends _ (s.createBody plan).2 _ _
    rw [ends_bind]
    refine hunpack.recall.weaken ?_ ?_
    · rintro u s' ⟨hrun, rfl⟩
      rw [ends_bind, ends_query, ends_bind]
      refine ends_tryUpdate.2 ⟨fun s' hattach => ?_, fun fault hattach => ?_⟩
      · obtain ⟨-, rfl⟩ := IR.Store.attachCode_eq_ok hattach
        exact ⟨hnodup, rfl, u, hrun, rfl⟩
      · have hcodeless : (((s.createBody plan).2.withTemporaries wrapper
            (scratchNames spell formals)).body wrapper).code = none := by
          rw [IR.Store.body_withTemporaries_self hscratch.created, hbody]
          exact h.codeless
        rw [IR.Store.attachCode_ok hcodeless] at hattach
        cases hattach
    · rintro failure s' ⟨-, hclash⟩
      refine absurd ?_ hclash
      rw [hnames]
      exact scratchNames_nodup hnodup

/-- **The code of a wrapper gives the delegate what pattern matching finds in the arguments, and
raises when they do not match.** -/
theorem forwards_delegate (h : IsFresh s wrapper signature placeholders spell formals)
    {plan : IR.BodyPlan} {u : Unpacking} {filled : Store} {delegate : BodyId} {m : Machine}
    {args : List Value}
    (hrun : unpackSlots wrapper placeholders 0 signature.slots (s.createBody plan).2 =
      .ok u filled)
    (hm : Holds (s.createBody plan).2 wrapper m (PositionalSlot.ofPatterns spell 1 formals) args) :
    Forwards (forwarding u delegate code) m delegate (assignAll spell formals args) := by
  obtain ⟨hscratch, -, hknown, -⟩ := h.createBody plan
  have hslots := unpackSlots_run placeholders spell formals 1 0 (s.createBody plan).2
    hscratch hknown h.elementsOf?
  rw [← h.slots_eq] at hslots
  obtain ⟨-, hruns⟩ := hslots.of_ok hrun
  exact forwards_of_runs (hruns m args hm)

/-! ## Building a callable -/

variable {setting : Setting} {provider : BodyId} {kind : CallableKind} {name : String}
  {params : Params}

/-- What is settled about the body that the creating expression of a callable refers to. -/
def functionPlan (provider : BodyId) (name : String) (signature : Signature) (flags : Flags)
    (doc : Option String) (location : Location) : IR.BodyPlan where
  kind := .function
  name := name
  location := location
  provider := some provider
  flags := flags
  doc := doc
  signature := some signature

/-- The function body of a callable is fresh. -/
theorem isFresh_createBody (flags : Flags) (doc : Option String) (location : Location)
    (hs : s.Ordered) (hp : provider.index < s.bodies.size)
    (hn : (params.rawSignature (s.spell provider) name).slots.Nodup) :
    IsFresh (s.createBody (functionPlan provider name
        (params.rawSignature (s.spell provider) name) flags doc location)).2 ⟨s.bodies.size⟩
      (params.rawSignature (s.spell provider) name) (params.placeholders (s.spell provider))
      (s.spell provider) params.formals := by
  let plan := functionPlan provider name (params.rawSignature (s.spell provider) name) flags doc
    location
  have hordered : (s.createBody plan).2.Ordered := hs.createBody fun p h => by
    cases h
    exact hp
  have hbody : (s.createBody plan).2.body ⟨s.bodies.size⟩ = _ :=
    IR.Store.body_createBody_self
  refine ⟨hordered, by simp, ?_, ?_, fun v hv => ?_, ?_, slots_rawSignature, hn, placeholders_eq,
    IR.Store.visibleNames_createBody_self⟩
  · rw [hbody]
  · rw [IR.Store.temporaries, hbody]
  · exact (IR.Store.mem_visible_createBody_self.1 hv).2
  · rw [hordered.spell (p := provider) (by rw [hbody]; rfl) (by rw [hbody]; rfl)]
    exact (IR.Store.Grows.createBody s plan).spell hs hp

/-- Building a callable takes a valid parameter list and a module around; then its body is created,
and the rest depends on whether there are tuples among the parameters. -/
theorem ends_buildCallable {done : Callable → Store → Prop} {failed : Failure → Store → Prop}
    (hinvalid : ∀ cause, params.signature setting.dialect (s.spell provider) name = .error cause →
      failed (.rejected ⟨cause, location⟩) s)
    (hfault : ∀ fault, s.moduleInfo provider = .error fault → failed (.fault fault) s)
    (hcreated : ∀ info, s.moduleInfo provider = .ok info →
      let signature := params.rawSignature (s.spell provider) name
      let code := .ofSignature kind signature info location.line
      let created := (s.createBody (functionPlan provider name signature flags doc location)).2
      params.signature setting.dialect (s.spell provider) name = .ok signature →
      (params.positional.any Pattern.isTuple = false →
        done ⟨⟨s.bodies.size⟩, ⟨s.bodies.size⟩, code⟩ created) ∧
      (params.positional.any Pattern.isTuple = true →
        Ends (createDelegate ⟨s.bodies.size⟩ signature (params.placeholders (s.spell provider)) code
          flags doc location) created (fun delegate => done ⟨⟨s.bodies.size⟩, delegate, code⟩)
          failed)) :
    Ends (buildCallable setting provider kind name doc flags params location) s done failed := by
  unfold buildCallable
  rw [ends_bind]
  unfold signatureIn
  rw [ends_bind, ends_query]
  cases hsig : params.signature setting.dialect (s.spell provider) name with
  | error cause => exact hinvalid cause hsig
  | ok signature =>
    obtain ⟨rfl, -⟩ := signature_eq_ok hsig
    dsimp only
    rw [ends_pure, ends_bind]
    unfold placeholdersIn
    rw [ends_query, ends_bind]
    unfold codeObject
    rw [ends_bind, ends_tryQuery]
    refine ⟨fun info hinfo => ?_, hfault⟩
    obtain ⟨hplain, htuple⟩ := hcreated info hinfo hsig
    rw [ends_pure, ends_bind]
    show Ends _ (s.createBody (functionPlan provider name _ flags doc location)).2 _ _
    have hempty := isEmpty_placeholders params (s.spell provider)
    rw [ends_ite]
    refine ⟨fun h => ?_, fun h => ?_⟩
    · rw [h] at hempty
      exact hplain (by simpa using hempty.symm)
    · rw [Bool.not_eq_true] at h
      rw [h] at hempty
      rw [ends_bind]
      exact htuple (by simpa using hempty.symm)

/-- **Building a callable** creates its body and, when there are tuples among the parameters, a
delegate; it fails only when the parameter list or the delegate's is not valid. -/
theorem buildCallable_spec (hs : s.Ordered) (hp : provider.index < s.bodies.size) :
    Ends (buildCallable setting provider kind name doc flags params location) s
      (fun callable s' =>
        let signature := params.rawSignature (s.spell provider) name
        let created := (s.createBody (functionPlan provider name signature flags doc location)).2
        params.signature setting.dialect (s.spell provider) name = .ok signature ∧
          callable.outer = ⟨s.bodies.size⟩ ∧
          (params.positional.any Pattern.isTuple = false ∧
              callable.function = callable.outer ∧ s' = created ∨
            params.positional.any Pattern.isTuple = true ∧
              createDelegate callable.outer signature (params.placeholders (s.spell provider))
                callable.code flags doc location created = .ok callable.function s'))
      (fun failure s' =>
        (s' = s ∧ ∃ cause,
          params.signature setting.dialect (s.spell provider) name = .error cause ∧
          failure = .rejected ⟨cause, location⟩) ∨
        (s' = s ∧ ∃ fault, s.moduleInfo provider = .error fault ∧ failure = .fault fault) ∨
        s' = (s.createBody (functionPlan provider name
            (params.rawSignature (s.spell provider) name) flags doc location)).2 ∧
          params.signature setting.dialect (s.spell provider) name =
            .ok (params.rawSignature (s.spell provider) name) ∧
          params.positional.any Pattern.isTuple = true ∧ ∃ defect,
          (delegateSignature (delegateName name)
            (leafNames (s.spell provider) params.formals)).check = .error defect ∧
          failure = .rejected ⟨.invalidSignature defect, location⟩) := by
  refine ends_buildCallable (fun cause h => Or.inl ⟨rfl, cause, h, rfl⟩)
    (fun fault h => Or.inr (Or.inl ⟨rfl, fault, h, rfl⟩)) fun info _ => ?_
  intro signature code created hsig
  obtain ⟨-, hn⟩ := signature_eq_ok hsig
  refine ⟨fun hplain => ⟨hsig, rfl, Or.inl ⟨hplain, rfl, rfl⟩⟩, fun htuple => ?_⟩
  refine (createDelegate_spec (isFresh_createBody flags doc location hs hp hn)).recall.weaken ?_ ?_
  · rintro delegate s' ⟨hrun, -⟩
    exact ⟨hsig, rfl, Or.inr ⟨htuple, hrun⟩⟩
  · rintro failure s' ⟨-, rfl, hdefect⟩
    exact Or.inr (Or.inr ⟨rfl, hsig, htuple, hdefect⟩)

/-- The code object of a callable is made of the parameters as they are written. -/
theorem buildCallable_code :
    Ends (buildCallable setting provider kind name doc flags params location) s
      (fun callable _ => ∃ info, s.moduleInfo provider = .ok info ∧ callable.code =
        .ofSignature kind (params.rawSignature (s.spell provider) name) info location.line)
      fun _ _ => True := by
  refine ends_buildCallable (fun _ _ => trivial) (fun _ _ => trivial) fun info hinfo => ?_
  intro signature code created _
  exact ⟨fun _ => ⟨info, hinfo, rfl⟩, fun _ =>
    ends_of_forall (fun _ _ => ⟨info, hinfo, rfl⟩) fun _ _ => trivial⟩

/-- What is left of a wrapper and its delegate, whatever the code is. -/
theorem createDelegate_frame (h : IsFresh s wrapper signature placeholders spell formals)
    {delegate : BodyId}
    (hrun : createDelegate wrapper signature placeholders code flags doc location s =
      .ok delegate s') :
    s'.visible wrapper = s.visible wrapper ∧ (∀ v ∈ s.visible wrapper, s'.var v = s.var v) ∧
      (s'.body delegate).signature =
        some (delegateSignature (delegateName signature.name) (leafNames spell formals)) := by
  obtain ⟨-, rfl, u, -, rfl⟩ := (createDelegate_spec h).of_ok hrun
  have hbody := IR.Store.body_createBody_of_lt s
    (delegatePlan wrapper signature.name (leafNames spell formals) flags doc location) h.created
  refine ⟨?_, fun v hv => ?_, ?_⟩
  · rw [IR.Store.visible, IR.Store.body_modifyBody]
    split
    · show IR.Store.visible _ wrapper = _
      rw [IR.Store.visible_withTemporaries, IR.Store.visible, hbody, IR.Store.visible]
    · show IR.Store.visible _ wrapper = _
      rw [IR.Store.visible_withTemporaries, IR.Store.visible, hbody, IR.Store.visible]
  · have hlt := h.known v hv
    rw [IR.Store.var_modifyBody, IR.Store.var_withTemporaries_of_lt (by simp; omega),
      IR.Store.var_createBody_of_lt _ _ hlt]
  · have hne : wrapper ≠ ⟨s.bodies.size⟩ := fun he => by
      have := h.created
      rw [he] at this
      exact Nat.lt_irrefl _ this
    rw [IR.Store.body_modifyBody_ne hne, IR.Store.body_withTemporaries_ne hne,
      IR.Store.body_createBody_self]
    rfl

/-! ## Calling a wrapper -/

theorem lookup_zip {params : List VariableId} (hn : params.Nodup) {args : List Value} {i : Nat}
    (hi : i < params.length) (hi' : i < args.length) :
    (params.zip args).lookup params[i] = some args[i] := by
  induction params generalizing args i with
  | nil => simp at hi
  | cons first rest ih =>
    cases args with
    | nil => simp at hi'
    | cons arg args =>
      cases i with
      | zero => simp
      | succ i =>
        have hi₀ : i < rest.length := Nat.lt_of_succ_lt_succ hi
        have hne : rest[i] ≠ first := fun he =>
          (List.nodup_cons.1 hn).1 (he ▸ List.getElem_mem _)
        rw [List.zip_cons_cons, List.getElem_cons_succ, List.getElem_cons_succ, List.lookup_cons,
          beq_false_of_ne hne]
        exact ih (List.nodup_cons.1 hn).2 (by simpa using hi) (by simpa using hi')

/-- At the start of a call the parameters hold the arguments. -/
theorem holds_ofArguments {slots : List PositionalSlot} {args : List Value} {b : BodyId}
    (hn : (slots.map PositionalSlot.name).Nodup)
    (hnames : (s.visible b).map (fun v => (s.var v).name) = slots.map PositionalSlot.name)
    (hargs : args.length = slots.length) :
    Holds s b (Machine.ofArguments (s.visible b) args) slots args := by
  have hvisible : (s.visible b).Nodup := List.Nodup.of_map _ (hnames ▸ hn)
  have hlength : (s.visible b).length = slots.length := by
    rw [← List.length_map, hnames, List.length_map]
  refine List.forall₂_iff_get.2 ⟨hargs.symm, fun i hi hi' => ?_⟩
  refine ⟨(s.visible b)[i], ?_, ?_⟩
  · have := IR.Store.find?_of_names hn hnames (i := i) (by simpa using hi) (by omega)
    simpa using this
  · show Option.map Cell.value (((s.visible b).zip args).lookup _) = _
    rw [lookup_zip hvisible (by omega) hi']
    rfl

/-- **The code of a wrapper**, in the store that is left when the delegate has been created. -/
theorem createDelegate_forwards (h : IsFresh s wrapper signature placeholders spell formals)
    {delegate : BodyId}
    (hrun : createDelegate wrapper signature placeholders code flags doc location s =
      .ok delegate s') :
    ∃ block, (s'.body wrapper).code = some block ∧ ∀ args, args.length = formals.length →
      Forwards block (Machine.ofArguments (s'.visible wrapper) args) delegate
        (assignAll spell formals args) := by
  obtain ⟨hvisible, -⟩ := createDelegate_frame h hrun
  obtain ⟨-, -, u, hunpack, hstore⟩ := (createDelegate_spec h).of_ok hrun
  let plan := delegatePlan wrapper signature.name (leafNames spell formals) flags doc location
  have hbody := IR.Store.body_createBody_of_lt s plan h.created
  have hvisible' : (s.createBody plan).2.visible wrapper = s.visible wrapper := by
    rw [IR.Store.visible, hbody, IR.Store.visible]
  have hnames : ((s.createBody plan).2.visible wrapper).map
      (fun v => ((s.createBody plan).2.var v).name) = signature.slots := by
    rw [hvisible', ← h.names]
    exact List.map_congr_left fun v hv => by
      rw [IR.Store.var_createBody_of_lt _ _ (h.known v hv)]
  let filled := (s.createBody plan).2.withTemporaries wrapper (scratchNames spell formals)
  refine ⟨wrapperCode filled wrapper delegate code u, ?_, fun args hargs => ?_⟩
  · rw [hstore, IR.Store.body_modifyBody_self]
    rw [IR.Store.size_bodies_withTemporaries]
    exact (h.createBody plan).1.created
  · have hholds : Holds (s.createBody plan).2 wrapper _
        (PositionalSlot.ofPatterns spell 1 formals) args :=
          holds_ofArguments (h.slots_eq ▸ h.distinct)
      (hnames.trans h.slots_eq) (by rw [hargs, PositionalSlot.length_ofPatterns])
    rw [hvisible, ← hvisible']
    exact (forwards_delegate h hunpack hholds).releasing _

/-- What forwarding the values of pattern matching means. -/
theorem Forwards.calls_iff {block : IR.Block} {m : Machine} {delegate : BodyId}
    {args : List Value} (h : Forwards block m delegate (assignAll spell formals args)) :
    ((∃ values, runBlock block m = some (.called delegate values)) ↔ PatternsFit formals args) ∧
      (∀ called values, runBlock block m = some (.called called values) →
        called = delegate ∧ values.length = (leafNames spell formals).length ∧
          assignAll spell formals args = some ((leafNames spell formals).zip values)) ∧
      (¬PatternsFit formals args → ∃ error, runBlock block m = some (.raised error)) := by
  rw [← Surface.assignAll_isSome spell]
  cases hassign : assignAll spell formals args with
  | none =>
    rw [hassign] at h
    obtain ⟨error, hrun⟩ := h
    rw [hrun]
    refine ⟨⟨?_, fun h => absurd h (by decide)⟩, ?_, fun _ => ⟨error, rfl⟩⟩
    · rintro ⟨values, h⟩
      cases h
    · intro called values h
      cases h
  | some bindings =>
    rw [hassign] at h
    have hrun : runBlock block m = some (.called delegate (bindings.map Prod.snd)) := h
    have hnames := Surface.assignAll_names spell formals args bindings hassign
    rw [hrun]
    refine ⟨⟨fun _ => rfl, fun _ => ⟨_, rfl⟩⟩, fun called values h => ?_, fun h => absurd rfl h⟩
    cases h
    refine ⟨rfl, ?_, ?_⟩
    · rw [leafNames, ← hnames, List.length_map, List.length_map]
    · rw [leafNames, ← hnames, ← List.zip_of_prod rfl rfl]

/-- **A wrapper calls its delegate exactly for arguments of the right shapes.**  Let some
parameters with a tuple among them be accepted in a scope.  The delegate's parameters are the
names inside the patterns, in place of each tuple, and the other names, all distinct, positional
and required.  However the wrapper's own variables are released afterwards, a call of the
wrapper calls the delegate if and only if every argument has the shape of its pattern at every
level; the values passed are as many as the delegate's parameters, and each is the one that
pattern matching gives to the name.  Otherwise the wrapper raises, and the delegate is not
called. -/
theorem wrapper_calls_delegate {callable : Callable} (hs : s.Ordered)
    (hp : provider.index < s.bodies.size)
    (h : buildCallable setting provider kind name doc flags params location s = .ok callable s')
    (htuple : params.positional.any Pattern.isTuple = true) :
    let spell := s.spell provider
    let names := leafNames spell params.formals
    names.Nodup ∧
      (s'.body callable.function).signature =
        some (delegateSignature (delegateName name) names) ∧
      (s'.visible callable.outer).map (fun v => (s'.var v).name) =
        (params.rawSignature spell name).slots ∧
      ∃ code, (s'.body callable.outer).code = some code ∧
        ∀ (args : List Value) (released : List VariableId),
          args.length = params.formals.length →
          let start := Machine.ofArguments (s'.visible callable.outer) args
          let run := runBlock (code.releasing released) start
          run = runBlock code start ∧
            ((∃ values, run = some (.called callable.function values)) ↔
              PatternsFit params.formals args) ∧
            (∀ delegate values, run = some (.called delegate values) →
              delegate = callable.function ∧ values.length = names.length ∧
                assignAll spell params.formals args = some (names.zip values)) ∧
            (¬PatternsFit params.formals args → ∃ error, run = some (.raised error)) := by
  intro spell names
  obtain ⟨hsig, houter, hcases⟩ := (buildCallable_spec hs hp).of_ok h
  obtain ⟨-, hn⟩ := signature_eq_ok hsig
  rcases hcases with ⟨hplain, -⟩ | ⟨-, hrun⟩
  · rw [hplain] at htuple
    cases htuple
  · have hfresh := isFresh_createBody flags doc location hs hp hn
    rw [← houter] at hfresh
    obtain ⟨hvisible, hvar, hsignature⟩ := createDelegate_frame hfresh hrun
    obtain ⟨hnodup, -⟩ := (createDelegate_spec hfresh).of_ok hrun
    obtain ⟨code, hcode, hforwards⟩ := createDelegate_forwards hfresh hrun
    refine ⟨hnodup, hsignature, ?_, code, hcode, fun args released hargs => ?_⟩
    · rw [hvisible, ← hfresh.names]
      exact List.map_congr_left fun v hv => by rw [hvar v hv]
    · have hforwards := hforwards args hargs
      exact ⟨runBlock_releasing _ _ _, Forwards.calls_iff (hforwards.releasing released)⟩

/-- A module that holds nothing yet. -/
def moduleStore : Store :=
  (Store.empty.createBody
    { kind := .moduleBody
      name := "m"
      location := .moduleStart
      info := some ⟨"m.py", ⟨false, false, false, false, false⟩⟩ }).2

/-- The parameters `((a, (b, ())), c, *, k)`. -/
def nestedParams : Params where
  positional :=
    [.tuple [.name ⟨"a", none⟩, .tuple [.name ⟨"b", none⟩, .tuple []]], .name ⟨"c", none⟩]
  defaults := []
  star := none
  keywordOnly := [⟨"k", none⟩]
  keywordDefaults := []
  doubleStar := none

/-- A wrapper for nested tuples calls its delegate with the parts of its arguments. -/
theorem nested_wrapper_calls_delegate :
    ∃ callable s' code, buildCallable (.ofDialect .modern) ⟨0⟩ .function "f" none {} nestedParams
        .moduleStart moduleStore = .ok callable s' ∧
      (s'.body callable.outer).code = some code ∧
      ∃ values, runBlock (code.releasing [])
        (Machine.ofArguments (s'.visible callable.outer)
          [.iterable [.atom 1, .iterable [.atom 2, .iterable []]], .atom 3, .atom 4]) =
        some (.called callable.function values) := by
  cases h : buildCallable (.ofDialect .modern) ⟨0⟩ .function "f" none {} nestedParams
      .moduleStart moduleStore with
  | error failure s' =>
    have hok : (match buildCallable (.ofDialect .modern) ⟨0⟩ .function "f" none {} nestedParams
        .moduleStart moduleStore with | .ok _ _ => true | .error _ _ => false) = true := by
      decide +kernel
    rw [h] at hok
    cases hok
  | ok callable s' =>
    have hordered : moduleStore.Ordered := IR.Store.ordered_empty.createBody fun p h => by cases h
    obtain ⟨-, -, -, code, hcode, hcalls⟩ :=
      wrapper_calls_delegate hordered (show 0 < moduleStore.bodies.size by decide) h rfl
    exact ⟨callable, s', code, rfl, hcode, (hcalls _ [] rfl).2.1.2
      ⟨⟨trivial, ⟨trivial, trivial, trivial⟩, trivial⟩, trivial, trivial, trivial⟩⟩

end Lowering

end DefinitionLowering
