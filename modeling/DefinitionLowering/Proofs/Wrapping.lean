import DefinitionLowering.Proofs.Closed

/-!
# What a wrapper does with its placeholders

Main result: `createDelegate_uses`.  A wrapper mentions a placeholder in one statement, which
assigns an iterator over it to a temporary of the wrapper.

`Block.uses` lists the statements that mention a variable.  `Unpacking.Iterates` is what has to be
known of the code that takes a wrapper's parameters apart: how often it takes an iterator over a
variable, and that it mentions the variable nowhere else.  Every slot with the variable's name
counts once, and slots have distinct names.
-/

namespace DefinitionLowering

open IR (BodyId VariableId Store)
open Surface (Pattern)

/-! ## Where a block mentions a variable -/

namespace IR

variable {v : VariableId}

/-- The variables that a statement itself mentions, assigns or releases. -/
def Stmt.variables (statement : Stmt) : List VariableId :=
  statement.targets ++ statement.operands.flatMap Expr.mentions

theorem Stmt.mem_variables {statement : Stmt} : v ∈ statement.variables ↔
    v ∈ statement.targets ∨ ∃ e ∈ statement.operands, v ∈ e.mentions := by
  rw [Stmt.variables, List.mem_append, List.mem_flatMap]

/-- Those of some statements that mention a variable. -/
def usesAmong (v : VariableId) (statements : List Stmt) : List Stmt :=
  statements.filter fun statement => v ∈ statement.variables

/-- The statements of a block, at any depth, that mention a variable. -/
def Block.uses (block : Block) (v : VariableId) : List Stmt :=
  usesAmong v block.within

@[simp] theorem usesAmong_append (first rest : List Stmt) :
    usesAmong v (first ++ rest) = usesAmong v first ++ usesAmong v rest :=
  List.filter_append first rest

theorem usesAmong_eq_nil {statements : List Stmt} :
    usesAmong v statements = [] ↔ ∀ statement ∈ statements, v ∉ statement.variables := by
  simp [usesAmong, List.filter_eq_nil_iff]

/-- Releases mention what they release. -/
theorem usesAmong_releases (vars : List VariableId) :
    usesAmong v (vars.map .release) = (vars.filter (· = v)).map .release := by
  rw [usesAmong, List.filter_map]
  congr 1
  refine List.filter_congr fun w _ => ?_
  simp [Stmt.variables, Stmt.targets, Stmt.operands, eq_comm]

/-- Releasing variables uses these once more. -/
theorem Block.uses_releasing (vars : List VariableId) (tried : Block) :
    (tried.releasing vars).uses v = tried.uses v ++ (vars.filter (· = v)).map .release := by
  have hnone : v ∉ (Stmt.tryFinally tried (.ofStatements (vars.map .release))).variables := by
    simp [Stmt.variables, Stmt.targets, Stmt.operands]
  rw [uses, within_releasing, usesAmong, List.filter_cons_of_neg (by simpa using hnone),
    ← usesAmong, usesAmong_append, usesAmong_releases]
  rfl

end IR

namespace Lowering

open IR (usesAmong)

/-! ## Taking an iterator over a variable -/

/-- The code takes an iterator over a variable so many times, and mentions the variable nowhere
else. -/
structure Unpacking.Iterates (u : Unpacking) (scratch : VariableId → Prop) (v : VariableId)
    (count : Nat) : Prop where
  statements : ∃ iterators : List VariableId, iterators.length = count ∧
    (∀ iterator ∈ iterators, scratch iterator) ∧ usesAmong v u.statements =
      iterators.map fun iterator => .assignVariable iterator (.iterator (.var v))
  accesses : ∀ e ∈ u.accesses, v ∉ e.mentions

section Iterates

variable {u u' : Unpacking} {scratch scratch' : VariableId → Prop} {v w : VariableId}
  {n m iterators : Nat}

theorem Unpacking.Iterates.mono (h : u.Iterates scratch v n) (hs : ∀ w, scratch w → scratch' w) :
    u.Iterates scratch' v n := by
  obtain ⟨taken, hlength, htaken, huses⟩ := h.statements
  exact ⟨⟨taken, hlength, fun w hw => hs w (htaken w hw), huses⟩, h.accesses⟩

/-- Code in sequence. -/
theorem Unpacking.Iterates.append (h : u.Iterates scratch v n) (h' : u'.Iterates scratch v m) :
    (Unpacking.mk (u.statements ++ u'.statements) (u.accesses ++ u'.accesses)
      iterators).Iterates scratch v (n + m) := by
  obtain ⟨taken, rfl, htaken, huses⟩ := h.statements
  obtain ⟨taken', rfl, htaken', huses'⟩ := h'.statements
  refine ⟨⟨taken ++ taken', List.length_append, fun w hw => ?_, ?_⟩, fun e he => ?_⟩
  · exact (List.mem_append.1 hw).elim (htaken w) (htaken' w)
  · rw [IR.usesAmong_append, huses, huses', List.map_append]
  · exact (List.mem_append.1 he).elim (h.accesses e) (h'.accesses e)

/-- A slot that is passed on as it is. -/
theorem iterates_access (hne : v ≠ w) :
    (Unpacking.mk [] [.var w] iterators).Iterates scratch v 0 := by
  refine ⟨⟨[], rfl, fun _ h => absurd h List.not_mem_nil, rfl⟩, fun e he => ?_⟩
  rw [List.mem_singleton.1 he, IR.Expr.mentions, List.mem_singleton]
  exact hne

/-- Code within the temporaries mentions nothing else. -/
theorem Unpacking.Within.usesAmong (h : u.Within scratch) (hv : ¬scratch v) :
    usesAmong v u.statements = [] :=
  IR.usesAmong_eq_nil.2 fun _ hs hmem => hv (h.known hs (IR.Stmt.mem_variables.1 hmem))

theorem Unpacking.Within.accesses_mentions (h : u.Within scratch) (hv : ¬scratch v) :
    ∀ e ∈ u.accesses, v ∉ e.mentions := by
  intro e he hmem
  obtain ⟨w, rfl, hw⟩ := h.accesses e he
  rw [IR.Expr.mentions, List.mem_singleton] at hmem
  exact hv (hmem ▸ hw)

/-- A tuple: an iterator over its value is taken, and the elements are taken from it. -/
theorem iterates_tuple {iterator : VariableId} {expected : Nat} (h : u.Within scratch)
    (hiterator : scratch iterator) (hv : ¬scratch v) :
    (Unpacking.mk (.assignVariable iterator (.iterator (.var w)) :: u.statements ++
        [.checkExhausted (.var iterator) expected]) u.accesses iterators).Iterates scratch v
      (if w = v then 1 else 0) := by
  have hne : v ≠ iterator := fun he => hv (he ▸ hiterator)
  have hstop : usesAmong v [.checkExhausted (.var iterator) expected] = [] := by
    simp [usesAmong, IR.Stmt.variables, IR.Stmt.targets, IR.Stmt.operands, IR.Expr.mentions, hne]
  have hinner : usesAmong v (u.statements ++ [.checkExhausted (.var iterator) expected]) = [] := by
    rw [IR.usesAmong_append, h.usesAmong hv, hstop]
    rfl
  have hstart : IR.Stmt.variables (.assignVariable iterator (.iterator (.var w))) =
      [iterator, w] := rfl
  refine ⟨?_, h.accesses_mentions hv⟩
  by_cases heq : w = v
  · subst heq
    refine ⟨[iterator], by rw [if_pos rfl]; rfl, fun c hc => List.mem_singleton.1 hc ▸ hiterator,
      ?_⟩
    rw [List.cons_append, usesAmong, List.filter_cons_of_pos (by simp [hstart]), ← usesAmong,
      hinner]
    rfl
  · refine ⟨[], by rw [if_neg heq]; rfl, fun c hc => absurd hc List.not_mem_nil, ?_⟩
    rw [List.cons_append, usesAmong, List.filter_cons_of_neg (by simp [hstart, hne, Ne.symm heq]),
      ← usesAmong, hinner]
    rfl

end Iterates

/-! ## The parameters of a wrapper -/

variable {b : BodyId} {v w : VariableId}

theorem scratches_temporaries (b : BodyId) : Scratches b fun s v => v ∈ s.temporaries b where
  more hs hv _ := (IR.Store.mem_temporaries_withTemporaries hs.created).2 (Or.inl hv)
  new hs _ := (IR.Store.mem_temporaries_withTemporaries hs.created).2
    (Or.inr ⟨Nat.le_refl _, by simp⟩)

/-- A step that takes something apart takes an iterator over a variable so many times; all it adds
are temporaries. -/
def IteratesIn (b : BodyId) (v : VariableId) (count : Nat) (x : Lowering Unpacking) (s : Store) :
    Prop :=
  Ends x s (fun u s' => (∃ names, s' = s.withTemporaries b names) ∧
    (v ∉ s'.temporaries b → u.Iterates (· ∈ s'.temporaries b) v count)) fun _ _ => True

/-- Steps in sequence. -/
theorem IteratesIn.append {s : Store} {n m : Nat} {x : Lowering Unpacking}
    {next : Unpacking → Lowering Unpacking} (hs : s.CanScratch b) (hx : IteratesIn b v n x s)
    (hnext : ∀ head names, IteratesIn b v m (next head) (s.withTemporaries b names)) :
    IteratesIn b v (n + m) (do
      let head ← x
      let tail ← next head
      return ⟨head.statements ++ tail.statements, head.accesses ++ tail.accesses,
        tail.iterators⟩) s := by
  unfold IteratesIn
  rw [ends_bind]
  refine hx.weaken ?_ fun _ _ _ => trivial
  rintro head s₁ ⟨⟨names, rfl⟩, hhead⟩
  rw [ends_bind]
  refine (hnext head names).weaken ?_ fun _ _ _ => trivial
  rintro tail s₂ ⟨⟨more, rfl⟩, htail⟩
  refine ⟨⟨_, IR.Store.withTemporaries_append⟩, fun hnot => ?_⟩
  have hmore := fun w hw =>
    (scratches_temporaries b).more (v := w) (hs.withTemporaries names) hw more
  exact ((hhead fun hmem => hnot (hmore v hmem)).mono hmore).append (htail hnot)

/-- A placeholder is taken apart through an iterator over its variable. -/
theorem unpack_iterates (elements : List Pattern) {s : Store} (number : Nat)
    (hs : s.CanScratch b) :
    IteratesIn b v (if w = v then 1 else 0) (unpack b (.var w) number (.tuple elements)) s := by
  have hscratch := scratches_temporaries b
  unfold IteratesIn
  rw [unpack, ends_bind]
  refine (newTemporary_store _).weaken ?_ fun _ _ _ => trivial
  rintro iterator s₁ ⟨rfl, rfl⟩
  have hs₁ := hs.withTemporaries ["arg_iter_" ++ number.repr]
  have hnew := hscratch.new hs ("arg_iter_" ++ number.repr)
  rw [ends_bind]
  refine (unpackElements_within hscratch elements _ _ _ hs₁ hnew).weaken ?_ fun _ _ _ => trivial
  rintro inner s₂ ⟨hinner, names, rfl⟩
  exact ⟨⟨_, IR.Store.withTemporaries_append⟩, iterates_tuple hinner (hscratch.more hs₁ hnew names)⟩

/-- **Taking the parameters of a wrapper apart** takes an iterator over a placeholder's variable
once for each slot of its name. -/
theorem unpackSlots_iterates {placeholders : List Placeholder} {slot : String}
    {elements : List Pattern} (hslot : Placeholder.elementsOf? placeholders slot = some elements) :
    ∀ (slots : List String) {s : Store} (number : Nat), s.CanScratch b →
      (∀ w ∈ s.visible b, w.index < s.vars.size) → s.find? b slot = some v →
      IteratesIn b v (slots.count slot) (unpackSlots b placeholders number slots) s
  | [], s, number, _, _, _ => by
    unfold IteratesIn
    rw [unpackSlots, ends_pure]
    exact ⟨⟨[], IR.Store.withTemporaries_nil.symm⟩, fun _ =>
      ⟨⟨[], rfl, fun _ h => absurd h List.not_mem_nil, rfl⟩, fun _ h => absurd h List.not_mem_nil⟩⟩
  | first :: rest, s, number, hs, hknown, hv => by
    unfold IteratesIn
    rw [unpackSlots, ends_bind, slotVariable, ends_bind, ends_query]
    cases hf : s.find? b first with
    | none => trivial
    | some w =>
      -- the slot has the variable exactly if it has the name
      have hsame : w = v ↔ first = slot := by
        constructor
        · rintro rfl
          exact (IR.Store.find?_eq_some hf).2.symm.trans (IR.Store.find?_eq_some hv).2
        · rintro rfl
          exact Option.some.inj (hf.symm.trans hv)
      have hrest : ∀ head names, IteratesIn b v (rest.count slot)
          (unpackSlots b placeholders (Unpacking.iterators head) rest)
          (s.withTemporaries b names) := by
        intro head names
        refine unpackSlots_iterates hslot rest _ (hs.withTemporaries names) (fun w hw => ?_) ?_
        · rw [IR.Store.visible_withTemporaries] at hw
          exact Nat.lt_of_lt_of_le (hknown w hw) IR.Store.size_vars_le_withTemporaries
        · rw [IR.Store.find?_withTemporaries hknown]
          exact hv
      rw [show (first :: rest).count slot = (if w = v then 1 else 0) + rest.count slot by
        rw [List.count_cons, Nat.add_comm]
        simp only [hsame, beq_iff_eq]]
      dsimp only
      rw [ends_pure]
      cases helements : Placeholder.elementsOf? placeholders first with
      | some parts => exact IteratesIn.append hs (unpack_iterates parts number hs) hrest
      | none =>
        refine IteratesIn.append hs ⟨⟨[], IR.Store.withTemporaries_nil.symm⟩, fun _ => ?_⟩ hrest
        have hne : ¬w = v := by
          rw [hsame]
          rintro rfl
          rw [hslot] at helements
          cases helements
        rw [if_neg hne]
        exact iterates_access (Ne.symm hne)

/-- The code of a wrapper uses a variable as the code does that takes the parameters apart. -/
theorem Unpacking.Iterates.uses_wrapperCode {u : Unpacking} {known : VariableId → Prop} {s : Store}
    {delegate : BodyId} {code : CodeObject} (h : u.Iterates (· ∈ s.temporaries b) v 1)
    (hwithin : u.Within known) (hv : v ∉ s.temporaries b) :
    ∃ iterator ∈ s.temporaries b, (wrapperCode s b delegate code u).uses v =
      [.assignVariable iterator (.iterator (.var v))] := by
  obtain ⟨taken, hlength, htaken, huses⟩ := h.statements
  obtain ⟨iterator, rfl⟩ := List.length_eq_one_iff.1 hlength
  have hreleases : (sortByName s (s.temporaries b)).filter (· = v) = [] := by
    refine List.filter_eq_nil_iff.2 fun w hw heq => hv ?_
    exact of_decide_eq_true heq ▸ (sortByName_perm _ _).subset hw
  have hcall : usesAmong v [.ret (.callFunction (.makeFunction delegate code [] none none)
      u.accesses)] = [] := by
    refine IR.usesAmong_eq_nil.2 fun statement hs hmem => ?_
    rw [List.mem_singleton.1 hs, IR.Stmt.mem_variables] at hmem
    rcases hmem with hmem | ⟨e, he, hmem⟩
    · cases hmem
    · rw [List.mem_singleton.1 he, mentions_call] at hmem
      obtain ⟨e, he, hmem⟩ := mem_exprsMentions hmem
      exact h.accesses e he hmem
  refine ⟨iterator, htaken iterator List.mem_cons_self, ?_⟩
  rw [wrapperCode, IR.Block.uses_releasing, hreleases, IR.Block.uses, within_forwarding hwithin,
    IR.usesAmong_append, huses, hcall]
  rfl

/-- **A wrapper mentions a placeholder once**, in front of the call: it assigns an iterator over it
to one of its temporaries. -/
theorem createDelegate_uses {wrapper delegate : BodyId} {signature : Signature}
    {placeholders : List Placeholder} {spell : String → String} {formals : List Pattern}
    {code : CodeObject} {flags : Flags} {doc : Option String} {location : Location} {s s' : Store}
    (h : IsFresh s wrapper signature placeholders spell formals)
    (hrun : createDelegate wrapper signature placeholders code flags doc location s =
      .ok delegate s') (hs' : s'.WellFormed) (hv : v ∈ s.visible wrapper)
    (hplain : ∀ name ∈ leafNames spell formals, isReserved name = false)
    (hreserved : isReserved (s.var v).name = true) :
    isPlaceholder (s.var v).name = true ∧ ∃ block, (s'.body wrapper).code = some block ∧
      ∃ iterator ∈ s'.temporaries wrapper,
        block.uses v = [.assignVariable iterator (.iterator (.var v))] := by
  let plan := delegatePlan wrapper signature.name (leafNames spell formals) flags doc location
  obtain ⟨hvisible, -, -⟩ := createDelegate_frame h hrun
  obtain ⟨-, -, u, hunpack, hstore⟩ := (createDelegate_spec h).of_ok hrun
  obtain ⟨hscratch, -, hknown, -⟩ := h.createBody plan
  -- the variable has the name of a slot, which stands for a tuple
  have hmem : (s.var v).name ∈ signature.slots := h.names ▸ List.mem_map_of_mem hv
  obtain ⟨slot, hslot, hname⟩ := List.mem_map.1 (h.slots_eq ▸ hmem)
  obtain ⟨elements, helements⟩ : ∃ elements, slot.elements = some elements := by
    cases he : slot.elements with
    | some elements => exact ⟨elements, rfl⟩
    | none =>
      obtain ⟨param, hparam, hspelled⟩ := PositionalSlot.name_of_mem hslot he
      have hleaf : slot.name ∈ leafNames spell formals := List.mem_map.2
        ⟨param, (Surface.patternLeaves_eq_flatMap _).symm ▸
          List.mem_flatMap.2 ⟨_, hparam, List.mem_singleton_self _⟩, hspelled.symm⟩
      rw [← hname, hplain _ hleaf] at hreserved
      cases hreserved
  refine ⟨?_, ?_⟩
  · obtain ⟨n, -, hnumber⟩ := PositionalSlot.number_of_mem hslot helements
    rw [← hname, hnumber]
    exact isPlaceholder_placeholderName n
  · have hfind : (s.createBody plan).2.find? wrapper (s.var v).name = some v := by
      have hbody : (s.createBody plan).2.visible wrapper = s.visible wrapper :=
        congrArg IR.Body.visible (IR.Store.body_createBody_of_lt s plan h.created)
      rw [IR.Store.find?_congr hbody fun w hw => IR.Store.var_createBody_of_lt _ _ (h.known w hw)]
      exact IR.Store.find?_of_mem (h.names ▸ h.distinct) hv
    obtain ⟨-, hiterates⟩ := (unpackSlots_iterates (hname ▸ (h.elementsOf? slot hslot).trans
      helements) signature.slots 0 hscratch hknown hfind).of_ok hunpack
    obtain ⟨hwithin, -⟩ := (unpackSlots_within signature.slots 0 hscratch).of_ok hunpack
    let filled := (s.createBody plan).2.withTemporaries wrapper (scratchNames spell formals)
    have hself : s'.body wrapper =
        { filled.body wrapper with code := some (wrapperCode filled wrapper delegate code u) } := by
      rw [hstore]
      exact IR.Store.body_modifyBody_self (hscratch.withTemporaries _).created
    have hnot : v ∉ s'.temporaries wrapper := fun hmem =>
      (hs'.seen wrapper v (hvisible ▸ hv)).2 (hs'.scratch wrapper v hmem).2.2
    rw [IR.Store.temporaries, hself] at hnot ⊢
    rw [List.count_eq_one_of_mem h.distinct hmem] at hiterates
    exact ⟨_, rfl, (hiterates hnot).uses_wrapperCode hwithin hnot⟩

end Lowering

end DefinitionLowering
