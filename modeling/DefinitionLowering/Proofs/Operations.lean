import Mathlib.Logic.Relation
import DefinitionLowering.Proofs.Evaluations
import DefinitionLowering.Proofs.Lookup
import DefinitionLowering.Proofs.Temporaries

/-!
# The operations of a lowering

Whatever is lowered in a body `p`, and however that ends, the store goes through a sequence of
single operations (`Operation`): a name is resolved in `p` or in a body that was created
meanwhile, a body is created in one of these, or a new body is filled.  `Becomes` is the closure
of these steps.

`Coherent` is what every operation keeps: providers are older than the bodies they serve, the only
module is the first body, and a body sees variables of its own and of the scopes around it only.
`Frame` says what lowering in a body leaves alone in the store that was there before; it holds
of every sequence of operations (`Becomes.frame`).
-/

namespace DefinitionLowering.IR

/-! ## Keys and values -/

/-- Whether a mapping has as many values as keys; other expressions are no mappings. -/
def Expr.paired : Expr → Bool
  | .mapping keys values => keys.length == values.length
  | _ => true

/-- Whether all mappings that are evaluated for an expression are paired. -/
def Expr.allPaired (e : Expr) : Bool :=
  e.evaluations.all Expr.paired

/-- Whether all mappings in a statement are paired. -/
def Stmt.allPaired (statement : Stmt) : Bool :=
  statement.within.all fun part => part.operands.all Expr.allPaired

/-- Whether all mappings in a block are paired. -/
def Block.allPaired (block : Block) : Bool :=
  block.within.all fun part => part.operands.all Expr.allPaired

theorem all_paired_exprsEvaluations (es : List Expr) :
    (exprsEvaluations es).all Expr.paired = es.all Expr.allPaired := by
  rw [exprsEvaluations_eq, List.all_flatMap]
  rfl

theorem all_paired_optionEvaluations (o : Option Expr) :
    (optionEvaluations o).all Expr.paired = o.all Expr.allPaired := by
  cases o <;> rfl

/-- The mapping of some entries is paired. -/
theorem Expr.allPaired_ofEntries {entries : List (String × Expr)}
    (h : entries.all (fun entry => entry.2.allPaired) = true) :
    (Expr.ofEntries entries).allPaired = true := by
  unfold Expr.ofEntries Expr.allPaired
  split
  · simp [Expr.evaluations, Expr.paired, List.all_map, Function.comp_def]
  · rw [Expr.evaluations, List.all_append, all_paired_exprsEvaluations, List.all_map]
    simpa [Expr.paired, Function.comp_def] using h

theorem all_paired_stmtsWithin (statements : List Stmt) :
    (stmtsWithin statements).all (fun part => part.operands.all Expr.allPaired) =
      statements.all Stmt.allPaired := by
  induction statements with
  | nil => rfl
  | cons first rest ih =>
    rw [stmtsWithin, List.all_append, ih]
    rfl

theorem Block.allPaired_eq (block : Block) :
    block.allPaired = block.statements.all Stmt.allPaired := by
  rw [Block.allPaired, Block.within_eq, all_paired_stmtsWithin]

/-- A mapping in paired code has as many values as keys. -/
theorem Block.length_eq_of_mapping_mem {block : Block} (h : block.allPaired = true)
    {keys : List String} {values : List Expr} (hmem : .mapping keys values ∈ block.terms) :
    keys.length = values.length := by
  obtain ⟨part, hpart, e, he, hterm⟩ := Block.mem_terms.1 hmem
  have hpaired := List.all_eq_true.1 (List.all_eq_true.1 (List.all_eq_true.1 h part hpart) e he)
    _ hterm
  simpa [Expr.paired] using hpaired

namespace Store

variable {p b c : BodyId} {n m : Nat} {s s₀ s₁ s' : Store} {v : VariableId} {name : String}

/-! ## Single operations -/

/-- The body in which something is lowered, or one that was created meanwhile: there were `n`
bodies before. -/
def Active (p : BodyId) (n : Nat) (b : BodyId) : Prop :=
  b = p ∨ n ≤ b.index

/-- An operation on the store while something is lowered in the body `p`, before which there were
`n` bodies. -/
inductive Operation (p : BodyId) (n : Nat) (s : Store) : Store → Prop
  | resolve (b : BodyId) (name : String) (hb : Active p n b) (hlt : b.index < s.bodies.size) :
    Operation p n s (s.resolve b name).2
  | createBody (plan : BodyPlan) (provider : BodyId) (hprovider : plan.provider = some provider)
    (hactive : Active p n provider) (hlt : provider.index < s.bodies.size)
    (hkind : plan.kind ≠ .moduleBody)
    (hdefaults : ∀ signature, plan.signature = some signature →
      signature.defaultCount ≤ signature.positional.length) :
    Operation p n s (s.createBody plan).2
  | share (provider c : BodyId) (hc : n ≤ c.index)
    (hprovider : (s.body c).provider = some provider) : Operation p n s (s.share provider c)
  | declareLocal (c : BodyId) (name : String) (hc : n ≤ c.index) (hlt : c.index < s.bodies.size) :
    Operation p n s (s.declareLocal c name).2
  | addTemporary (c : BodyId) (name : String) (v : VariableId) (s' : Store) (hc : n ≤ c.index)
    (h : s.addTemporary c name = .ok (v, s')) : Operation p n s s'
  | addGlobal (c : BodyId) (name : String) (hc : n ≤ c.index) :
    Operation p n s (s.addGlobal c name)
  | addNonlocal (c : BodyId) (declaration : NonlocalDeclaration) (hc : n ≤ c.index) :
    Operation p n s (s.addNonlocal c declaration)
  | copyNonlocals (source c : BodyId) (hc : n ≤ c.index) :
    Operation p n s (s.copyNonlocals source c)
  | attachCode (c : BodyId) (block : Block) (s' : Store) (hc : n ≤ c.index)
    (hpaired : block.allPaired = true) (h : s.attachCode c block = .ok s') : Operation p n s s'

/-- One store becomes another by operations. -/
abbrev Becomes (p : BodyId) (n : Nat) : Store → Store → Prop :=
  Relation.ReflTransGen (Operation p n)

theorem Active.within (h : Active c m b) (hc : Active p n c) (hn : n ≤ m) : Active p n b := by
  rcases h with rfl | hb
  · exact hc
  · exact Or.inr (Nat.le_trans hn hb)

/-- An operation of what is lowered in an active body is one of what is lowered around it. -/
theorem Operation.within (h : Operation c m s s') (hc : Active p n c) (hn : n ≤ m) :
    Operation p n s s' := by
  cases h with
  | resolve b name hb hlt => exact .resolve b name (hb.within hc hn) hlt
  | createBody plan provider hprovider hactive hlt hkind hdefaults =>
    exact .createBody plan provider hprovider (hactive.within hc hn) hlt hkind hdefaults
  | share provider d hd hprovider => exact .share provider d (Nat.le_trans hn hd) hprovider
  | declareLocal d name hd hlt => exact .declareLocal d name (Nat.le_trans hn hd) hlt
  | addTemporary d name v s' hd h => exact .addTemporary d name v s' (Nat.le_trans hn hd) h
  | addGlobal d name hd => exact .addGlobal d name (Nat.le_trans hn hd)
  | addNonlocal d declaration hd => exact .addNonlocal d declaration (Nat.le_trans hn hd)
  | copyNonlocals source d hd => exact .copyNonlocals source d (Nat.le_trans hn hd)
  | attachCode d block s' hd hpaired h =>
    exact .attachCode d block s' (Nat.le_trans hn hd) hpaired h

theorem Becomes.within (h : Becomes c m s s') (hc : Active p n c) (hn : n ≤ m) :
    Becomes p n s s' :=
  Relation.ReflTransGen.mono (fun _ _ hstep => Operation.within hstep hc hn) _ _ h

/-! ## What an operation does -/

theorem addTemporary_withTemporaries {v : VariableId} (h : s.addTemporary c name = .ok (v, s')) :
    s' = s.withTemporaries c [name] := by
  obtain ⟨hnew, -, -⟩ := addTemporary_eq_ok h
  have hnot : name ∉ s.temporaryNames c := by
    rw [← hasTemporary_iff, hnew]
    exact Bool.noConfusion
  rw [addTemporary_eq hnot] at h
  cases h
  rfl

theorem Operation.grows (h : Operation p n s s') (hn : n ≤ s.bodies.size) : Grows n s s' := by
  cases h with
  | resolve b name => exact Grows.resolve n s b name
  | createBody plan => exact (Grows.createBody s plan).mono hn
  | share provider c => exact Grows.share n s provider c
  | declareLocal c name => exact Grows.declareLocal n s c name
  | addTemporary c name v s' hc h =>
    rw [addTemporary_withTemporaries h]
    exact Grows.withTemporaries hc
  | addGlobal c name hc => exact Grows.addGlobal hc
  | addNonlocal c declaration hc => exact Grows.addNonlocal hc
  | copyNonlocals source c hc => exact Grows.copyNonlocals hc
  | attachCode c block s' hc hpaired h => exact Grows.attachCode h hc

/-- A body is old, or it was created in an active one. -/
theorem Operation.provided (h : Operation p n s s') (hc : c.index < s'.bodies.size) :
    c.index < s.bodies.size ∨ c = ⟨s.bodies.size⟩ ∧ s'.isModule c = false ∧
      (∀ signature, (s'.body c).signature = some signature →
        signature.defaultCount ≤ signature.positional.length) ∧
      ∃ b, Active p n b ∧ b.index < s.bodies.size ∧ (s'.body c).provider = some b := by
  have hsame : s'.bodies.size = s.bodies.size → c.index < s.bodies.size := fun h => h ▸ hc
  cases h with
  | resolve b name => exact Or.inl (hsame (size_bodies_resolve s b name))
  | createBody plan provider hprovider hactive hlt hkind hdefaults =>
    by_cases hold : c.index < s.bodies.size
    · exact Or.inl hold
    · rw [size_bodies_createBody] at hc
      have hnew : c = ⟨s.bodies.size⟩ := congrArg BodyId.mk (by omega : c.index = s.bodies.size)
      refine Or.inr ⟨hnew, ?_, ?_, provider, hactive, hlt, ?_⟩
      · rw [hnew, isModule, body_createBody_self]
        simpa using hkind
      · rw [hnew, body_createBody_self]
        exact hdefaults
      · rw [hnew, body_createBody_self]
        exact hprovider
  | share provider d => exact Or.inl (hsame (share_frame s d provider).2.1)
  | declareLocal d name => exact Or.inl (hsame (size_bodies_declareLocal s d name))
  | addTemporary d name v s' hd h =>
    rw [addTemporary_withTemporaries h] at hc
    exact Or.inl (by simpa using hc)
  | addGlobal d name => exact Or.inl (hsame (size_bodies_modifyBody s d _))
  | addNonlocal d declaration => exact Or.inl (hsame (size_bodies_modifyBody s d _))
  | copyNonlocals source d => exact Or.inl (hsame (size_bodies_modifyBody s d _))
  | attachCode d block s' hd hpaired h =>
    obtain ⟨-, rfl⟩ := attachCode_eq_ok h
    exact Or.inl (by simpa using hc)

/-- New variables belong to new bodies. -/
theorem Operation.owners (h : Operation p n s s') (hn : n ≤ s.bodies.size) :
    OwnersFrom n s s' := by
  cases h with
  | resolve b name => exact ownersFrom_of_size (by simp)
  | createBody plan =>
    intro v hlow hhigh
    obtain ⟨slot, -, hvar⟩ := var_createBody_new hlow hhigh
    rw [hvar]
    exact hn
  | share provider c => exact ownersFrom_of_size (by rw [(share_frame s c provider).1])
  | declareLocal c name hc hlt => exact ownersFrom_declareLocal hlt hc
  | addTemporary c name w s' hc h =>
    rw [addTemporary_withTemporaries h]
    intro v hlow hhigh
    obtain ⟨_, -, hvar⟩ := var_withTemporaries_of_le hlow hhigh
    rw [hvar]
    exact hc
  | addGlobal c name => exact ownersFrom_of_size rfl
  | addNonlocal c declaration => exact ownersFrom_of_size rfl
  | copyNonlocals source c => exact ownersFrom_of_size rfl
  | attachCode c block s' hc hpaired h =>
    obtain ⟨-, rfl⟩ := attachCode_eq_ok h
    exact ownersFrom_of_size rfl

/-- Code that is there after an operation was there before, or it is paired. -/
theorem Operation.paired (h : Operation p n s s') {block : Block}
    (hcode : (s'.body c).code = some block) :
      (s.body c).code = some block ∨ block.allPaired = true := by
  have hunseen : (∀ k, Grows k s s') → (s.body c).code = some block := fun hg => by
    rw [← view_of_grows hg Body.code fun _ => rfl]
    exact hcode
  have hkeeps : ∀ {d : BodyId} {f : Body → Body}, ((s.modifyBody d f).body c).code = some block →
      (∀ body, (f body).code = body.code) → (s.body c).code = some block :=
    fun hcode hf => by
      rwa [body_modifyBody_of (P := fun body => body.code = (s.body c).code) (hf _ |>.trans ·) rfl]
        at hcode
  cases h with
  | resolve b name => exact Or.inl (hunseen fun k => Grows.resolve k s b name)
  | createBody plan =>
    left
    by_cases hne : c = ⟨s.bodies.size⟩
    · rw [hne, body_createBody_self] at hcode
      cases hcode
    · rwa [body_createBody_ne hne] at hcode
  | share provider d => exact Or.inl (hunseen fun k => Grows.share k s provider d)
  | declareLocal d name => exact Or.inl (hunseen fun k => Grows.declareLocal k s d name)
  | addTemporary d name v s' hd h =>
    rw [addTemporary_withTemporaries h] at hcode
    exact Or.inl (hcode ▸ (body_withTemporaries_view Body.code fun _ _ => rfl).symm)
  | addGlobal d name => exact Or.inl (hkeeps hcode fun _ => rfl)
  | addNonlocal d declaration => exact Or.inl (hkeeps hcode fun _ => rfl)
  | copyNonlocals source d => exact Or.inl (hkeeps hcode fun _ => rfl)
  | attachCode d attached s' hd hpaired h =>
    obtain ⟨-, rfl⟩ := attachCode_eq_ok h
    rw [body_modifyBody] at hcode
    split at hcode
    · cases hcode
      exact Or.inr hpaired
    · exact Or.inl hcode

/-- Temporaries with new names can be added one after the other. -/
theorem becomes_withTemporaries (hc : n ≤ c.index) : ∀ (names : List String) {s : Store},
    s.CanScratch c → (s.temporaryNames c ++ names).Nodup →
      Becomes p n s (s.withTemporaries c names)
  | [], s, _, _ => by
    rw [withTemporaries_nil]
  | name :: rest, s, hs, hnames => by
    have hnew : name ∉ s.temporaryNames c := fun hmem =>
      (List.nodup_append.1 hnames).2.2 name hmem name List.mem_cons_self rfl
    have hrest := becomes_withTemporaries hc rest (hs.withTemporaries [name]) (by
      rw [temporaryNames_withTemporaries hs.created hs.known, List.append_assoc]
      exact hnames)
    rw [withTemporaries_append] at hrest
    exact .head (.addTemporary c name _ _ hc (addTemporary_eq hnew)) hrest

/-! ## Coherent stores -/

/-- What every operation keeps. -/
structure Coherent (s : Store) : Prop where
  ordered : s.Ordered
  rooted : ∀ b : BodyId, b.index < s.bodies.size → (s.body b).provider = none →
    s.isModule b = true
  module : ∀ b : BodyId, b.index < s.bodies.size → s.isModule b = true →
    b.index = 0 ∧ (s.body b).info.isSome = true
  enclosed : ∀ c, ∀ v ∈ s.visible c,
    v.index < s.vars.size ∧ (s.var v).owner ∈ c :: s.ancestors c

/-- A variable of a scope around a body. -/
def Inherits (s : Store) (c : BodyId) (v : VariableId) : Prop :=
  v.index < s.vars.size ∧ (s.var v).owner ∈ s.ancestors c

/-- What is seen in a scope around a body belongs to the scopes around the body. -/
theorem Coherent.inherits (hs : s.Coherent) (hb : b ∈ s.ancestors c) (hv : v ∈ s.visible b) :
    s.Inherits c v := by
  obtain ⟨hlt, howner⟩ := hs.enclosed b v hv
  refine ⟨hlt, ?_⟩
  rcases List.mem_cons.1 howner with heq | hmem
  · rw [heq]
    exact hb
  · exact hs.ordered.mem_ancestors_trans hmem hb

/-- A search that goes past a body finds a variable of a scope around it. -/
theorem Coherent.inherits_of_lookup (hs : s.Coherent) (hf : s.find? c name = none)
    (hl : s.lookup c name = some v) : s.Inherits c v := by
  rw [lookup, lookupPath_eq, lookupAlong, hf] at hl
  dsimp only at hl
  split at hl
  · cases hl
  · obtain ⟨b, hb, hv, -⟩ := lookupAlong_name hl
    exact hs.inherits (mem_ancestors_of_mem_outerPath hb) hv

/-- What a body may come to see by an operation: a new variable of its own, or one of a scope
around it; a body that was there before comes to see the latter only, on a search from an active
body. -/
def Gains (p : BodyId) (n : Nat) (s s' : Store) (c : BodyId) (v : VariableId) : Prop :=
  n ≤ c.index ∧ v.index < s'.vars.size ∧ (s'.var v).owner = c ∨
    s.Inherits c v ∧ (n ≤ c.index ∨
      ∃ b, Active p n b ∧ b.index < s.bodies.size ∧ c ∈ b :: s.ancestors b)

/-- **What a body sees is extended at its end.** -/
theorem Operation.sees (h : Operation p n s s') (hs : s.Coherent) (hn : n ≤ s.bodies.size)
    (c : BodyId) : ∃ more, s'.visible c = s.visible c ++ more ∧ ∀ v ∈ more, Gains p n s s' c v := by
  have hsame : s'.visible c = s.visible c → ∃ more, s'.visible c = s.visible c ++ more ∧
      ∀ v ∈ more, Gains p n s s' c v := fun h =>
        ⟨[], by rw [h, List.append_nil], fun _ hv => by cases hv⟩
  have hkeeps : ∀ {d : BodyId} {f : Body → Body}, (∀ body, (f body).visible = body.visible) →
      (s.modifyBody d f).visible c = s.visible c := fun hf =>
    body_modifyBody_of (P := fun body => body.visible = s.visible c) (hf _ |>.trans ·) rfl
  cases h with
  | resolve b name hb hlt =>
    rcases hs.ordered.resolve_visible s b name c with hold | ⟨w, hpath, hf, hl, hnew⟩
    · exact hsame hold
    · refine ⟨[w], hnew, fun v hv => ?_⟩
      rw [List.mem_singleton.1 hv]
      exact Or.inr ⟨hs.inherits_of_lookup hf hl,
        Or.inr ⟨b, hb, hlt, (s.lookupPath_sublist b).subset hpath⟩⟩
  | createBody plan =>
    by_cases hne : c = ⟨s.bodies.size⟩
    · subst hne
      have hnone : s.visible ⟨s.bodies.size⟩ = [] :=
        congrArg Body.visible (body_of_size_le (Nat.le_refl _))
      refine ⟨(List.range' s.vars.size plan.slots.length).map VariableId.mk, ?_,
        fun v hv => Or.inl ⟨hn, ?_⟩⟩
      · rw [visible_createBody_self, hnone, List.nil_append]
      · rw [← visible_createBody_self] at hv
        obtain ⟨hlow, hhigh⟩ := mem_visible_createBody_self.1 hv
        obtain ⟨slot, -, hvar⟩ := var_createBody_new hlow hhigh
        rw [hvar]
        exact ⟨hhigh, rfl⟩
    · exact hsame (by rw [visible, body_createBody_ne hne, visible])
  | share provider d hd hprovider =>
    by_cases hdc : d = c
    · subst hdc
      obtain ⟨more, hmore, hshared⟩ := visible_share_append s d provider
      refine ⟨more, hmore, fun v hv => Or.inr ⟨hs.inherits ?_ (hshared v hv), Or.inl hd⟩⟩
      rw [hs.ordered.ancestors hprovider]
      exact List.mem_cons_self
    · exact hsame ((share_frame s d provider).2.2 c hdc)
  | declareLocal d name hd hlt =>
    rcases declareLocal_cases hlt name with ⟨w, -, hfound⟩ | hnew
    · exact hsame (by rw [hfound])
    · by_cases hdc : d = c
      · subst hdc
        refine ⟨[⟨s.vars.size⟩], hnew.visible, fun v hv => Or.inl ⟨hd, ?_⟩⟩
        rw [List.mem_singleton.1 hv, hnew.vars, hnew.var]
        exact ⟨Nat.lt_succ_self _, rfl⟩
      · exact hsame (hnew.others c hdc)
  | addTemporary d name w s' hd h =>
    exact hsame (by rw [addTemporary_withTemporaries h, visible_withTemporaries])
  | addGlobal d name => exact hsame (hkeeps fun _ => rfl)
  | addNonlocal d declaration => exact hsame (hkeeps fun _ => rfl)
  | copyNonlocals source d => exact hsame (hkeeps fun _ => rfl)
  | attachCode d block s' hd hpaired h =>
    obtain ⟨-, rfl⟩ := attachCode_eq_ok h
    exact hsame (hkeeps fun _ => rfl)

/-- **Every operation keeps a store coherent.** -/
theorem Operation.coherent (h : Operation p n s s') (hs : s.Coherent) (hn : n ≤ s.bodies.size) :
    s'.Coherent := by
  have hg := h.grows hn
  have hinfo : ∀ b : BodyId, b.index < s.bodies.size → (s'.body b).info = (s.body b).info :=
    fun b hb => hg.info hb
  refine ⟨fun b q hq => ?_, fun b hb hnone => ?_, fun b hb hm => ?_, fun c v hv => ?_⟩
  · rcases h.provided (lt_of_provider hq) with hold | ⟨hnew, -, -, provider, -, hlt, hprovider⟩
    · rw [hg.provider hold] at hq
      exact hs.ordered b q hq
    · rw [hprovider] at hq
      cases hq
      rw [hnew]
      exact hlt
  · rcases h.provided hb with hold | ⟨-, -, -, provider, -, -, hprovider⟩
    · rw [hg.provider hold] at hnone
      rw [hg.isModule hold]
      exact hs.rooted b hold hnone
    · rw [hprovider] at hnone
      cases hnone
  · rcases h.provided hb with hold | ⟨-, hmodule, -⟩
    · rw [hg.isModule hold] at hm
      rw [hinfo b hold]
      exact hs.module b hold hm
    · rw [hmodule] at hm
      cases hm
  · -- the scopes around an old body are the same, and those around a new one do not matter
    have hinherits : s.Inherits c v →
        v.index < s'.vars.size ∧ (s'.var v).owner ∈ s'.ancestors c := by
      rintro ⟨hlt, howner⟩
      have hc : c.index < s.bodies.size := by
        cases hp : (s.body c).provider with
        | none =>
          rw [ancestors_of_no_provider hp] at howner
          cases howner
        | some q => exact lt_of_provider hp
      rw [hg.var v hlt, hg.ancestors hs.ordered hc]
      exact ⟨Nat.lt_of_lt_of_le hlt hg.vars, howner⟩
    obtain ⟨more, hmore, hgains⟩ := h.sees hs hn c
    rw [hmore, List.mem_append] at hv
    rcases hv with hv | hv
    · obtain ⟨hlt, howner⟩ := hs.enclosed c v hv
      rw [hg.var v hlt, hg.ancestors hs.ordered (lt_of_mem_visible hv)]
      exact ⟨Nat.lt_of_lt_of_le hlt hg.vars, howner⟩
    · rcases hgains v hv with ⟨-, hlt, howner⟩ | ⟨hinherited, -⟩
      · rw [howner]
        exact ⟨hlt, List.mem_cons_self⟩
      · exact ⟨(hinherits hinherited).1, List.mem_cons_of_mem _ (hinherits hinherited).2⟩

/-! ## Sequences of operations -/

/-- What is lowered keeps a store coherent. -/
theorem Becomes.coherent (h : Becomes p n s s') (hs : s.Coherent) (hn : n ≤ s.bodies.size) :
    s'.Coherent ∧ Grows n s s' := by
  induction h with
  | refl => exact ⟨hs, Grows.refl n s⟩
  | tail _ hstep ih =>
    obtain ⟨hs₁, hg₁⟩ := ih
    have hn₁ := Nat.le_trans hn hg₁.bodies
    exact ⟨hstep.coherent hs₁ hn₁, hg₁.trans (hstep.grows hn₁) (Nat.le_refl n)⟩

theorem Becomes.owners (h : Becomes p n s s') (hs : s.Coherent) (hn : n ≤ s.bodies.size) :
    OwnersFrom n s s' := by
  induction h with
  | refl => exact ownersFrom_of_size rfl
  | tail hsteps hstep ih =>
    obtain ⟨-, hg⟩ := Becomes.coherent hsteps hs hn
    have hn₁ := Nat.le_trans hn hg.bodies
    exact ih.trans (hstep.owners hn₁) (hstep.grows hn₁)

/-- Bodies that are created on the way stand in the body in which something is lowered. -/
theorem Becomes.nested (h : Becomes p s.bodies.size s s') (hs : s.Coherent) {a : BodyId}
    (hb : Active p s.bodies.size b) (hlt : b.index < s'.bodies.size) (ha : a ∈ b :: s'.ancestors b)
    (hold : a.index < s.bodies.size) : a = p ∨ a ∈ s.ancestors p := by
  induction h generalizing b with
  | refl =>
    rcases hb with rfl | hb
    · exact List.mem_cons.1 ha
    · omega
  | @tail s₁ s₂ hsteps hstep ih =>
    obtain ⟨hs₁, hg₁⟩ := Becomes.coherent hsteps hs (Nat.le_refl _)
    have hg₂ := hstep.grows hg₁.bodies
    rcases hstep.provided hlt with hlt | ⟨hnew, -, -, q, hq, hqlt, hprovider⟩
    · rw [hg₂.ancestors hs₁.ordered hlt] at ha
      exact ih hb hlt ha
    · rw [(hstep.coherent hs₁ hg₁.bodies).ordered.ancestors hprovider,
        hg₂.ancestors hs₁.ordered hqlt] at ha
      rcases List.mem_cons.1 ha with rfl | ha
      · have hsize : a.index = s₁.bodies.size := congrArg BodyId.index hnew
        have := hg₁.bodies
        omega
      · exact ih hq hqlt ha

/-- What lowering in a body leaves alone: the bodies there were are the same but for what they
see, and so are the variables; only the body and the scopes around it come to see more, and only
variables there were of scopes around them. -/
structure Frame (p : BodyId) (s s' : Store) : Prop where
  bodies : s.bodies.size ≤ s'.bodies.size
  vars : s.vars.size ≤ s'.vars.size
  unseen : ∀ c : BodyId, c.index < s.bodies.size → (s'.body c).unseen = (s.body c).unseen
  visible : ∀ c : BodyId, c.index < s.bodies.size → ∃ more, s'.visible c = s.visible c ++ more ∧
    (more ≠ [] → c = p ∨ c ∈ s.ancestors p) ∧
    ∀ v ∈ more, v.index < s.vars.size ∧ (s.var v).owner ∈ s.ancestors c
  var : ∀ v : VariableId, v.index < s.vars.size → s'.var v = s.var v

/-- A variable of a scope around an old body is an old one. -/
theorem Inherits.old (hv : s'.Inherits c v) (hs : s.Coherent) (hc : c.index < s.bodies.size)
    (hg : Grows n s s') (ho : OwnersFrom s.bodies.size s s') : s.Inherits c v := by
  obtain ⟨hlt, howner⟩ := hv
  rw [hg.ancestors hs.ordered hc] at howner
  have hold : v.index < s.vars.size := by
    refine Classical.byContradiction fun hnew => ?_
    have := ho v (Nat.le_of_not_lt hnew) hlt
    have := hs.ordered.lt_of_mem_ancestors howner
    omega
  rw [hg.var v hold] at howner
  exact ⟨hold, howner⟩

/-- **Sequences of operations leave alone what was there before.** -/
theorem Becomes.frame (h : Becomes p s.bodies.size s s') (hs : s.Coherent) : Frame p s s' := by
  obtain ⟨-, hg⟩ := Becomes.coherent h hs (Nat.le_refl _)
  refine ⟨hg.bodies, hg.vars, hg.unseen, fun c hc => ?_, hg.var⟩
  clear hg
  induction h with
  | refl => exact ⟨[], (List.append_nil _).symm, fun h => absurd rfl h, fun _ hv => by cases hv⟩
  | @tail s₁ s₂ hsteps hstep ih =>
    obtain ⟨hs₁, hg₁⟩ := Becomes.coherent hsteps hs (Nat.le_refl _)
    obtain ⟨before, hbefore, hreach₁, hinherits₁⟩ := ih
    obtain ⟨after, hafter, hgains⟩ := hstep.sees hs₁ hg₁.bodies c
    have hnew : ∀ v ∈ after, s₁.Inherits c v ∧
        ∃ b, Active p s.bodies.size b ∧ b.index < s₁.bodies.size ∧ c ∈ b :: s₁.ancestors b := by
      intro v hv
      rcases hgains v hv with ⟨hle, -⟩ | ⟨hinherited, hle | hreach⟩
      · omega
      · omega
      · exact ⟨hinherited, hreach⟩
    refine ⟨before ++ after, by rw [hafter, hbefore, List.append_assoc], fun hne => ?_,
      fun v hv => ?_⟩
    · cases after with
      | nil => exact hreach₁ (by simpa using hne)
      | cons v rest =>
        obtain ⟨-, b, hb, hlt, hmem⟩ := hnew v List.mem_cons_self
        exact Becomes.nested hsteps hs hb hlt hmem hc
    · rcases List.mem_append.1 hv with hv | hv
      · exact hinherits₁ v hv
      · exact (hnew v hv).1.old hs hc hg₁ (Becomes.owners hsteps hs (Nat.le_refl _))

end Store

end DefinitionLowering.IR
