import DefinitionLowering.Proofs.Contents

/-!
# Where code objects stand

A code object stands in three places (`CodeSite`): it is the frame of a block, or it is in the
expression that creates a function or in the one that manufactures an object.  `Block.sites` lists
the places of a block at any depth, frames first, and each is about one body
(`CodeSite.subject`).

* `Finished.sites`: releasing variables changes nothing about them.
* `CodeOf.frames`: the statements of a callable run in one frame, unless none is left.
* `CallableAt.sites_wrapper` and `ObjectAt.sites_function`: a wrapper and the function of a
  suspending callable have one place each.
* `CallableAt.code_unique`: whatever a function body was created for, its code object is the same.
-/

namespace DefinitionLowering

open IR (BodyId VariableId Store)
open Lowering

/-! ## Sites -/

namespace IR

/-- A place where a code object stands. -/
inductive CodeSite where
  /-- Statements run in a frame. -/
  | frame (code : CodeObject)
  /-- A function is created from a body. -/
  | function (body : BodyId) (code : CodeObject)
  /-- An object that runs a body is manufactured. -/
  | object (kind : ObjectKind) (body : BodyId) (code : CodeObject)
  deriving DecidableEq, Repr

def CodeSite.code : CodeSite → CodeObject
  | .frame code | .function _ code | .object _ _ code => code

/-- The body that a place in the code of a body is about. -/
def CodeSite.subject (here : BodyId) : CodeSite → BodyId
  | .frame _ => here
  | .function body _ | .object _ body _ => body

/-- The place that an expression is. -/
def Expr.site? : Expr → Option CodeSite
  | .makeFunction body code _ _ _ => some (.function body code)
  | .makeObject kind body code => some (.object kind body code)
  | _ => none

/-- The blocks inside a statement. -/
def Stmt.blocks : Stmt → List Block
  | .tryFinally tried cleanup => [tried, cleanup]
  | .branch _ yes no => yes.toList ++ no.toList
  | .loop _ body => body.toList
  | _ => []

/-- The frames of the blocks inside a statement. -/
def Stmt.frames (statement : Stmt) : List CodeObject :=
  statement.blocks.filterMap Block.frame

/-- The frames of a block and of the blocks inside it. -/
def Block.frames (block : Block) : List CodeObject :=
  block.frame.toList ++ block.within.flatMap Stmt.frames

/-- The places of a block where code objects stand. -/
def Block.sites (block : Block) : List CodeSite :=
  block.frames.map .frame ++ block.terms.filterMap Expr.site?

section Block

variable {block : Block} {site : CodeSite}

/-- A block without blocks inside that are frames. -/
theorem Block.frames_eq (h : ∀ statement ∈ block.within, statement.frames = []) :
    block.frames = block.frame.toList := by
  rw [frames, List.flatMap_eq_nil_iff.2 h, List.append_nil]

/-- Releases run in no frame. -/
@[simp] theorem Block.frames_releasing (vars : List VariableId) (tried : Block) :
    (tried.releasing vars).frames = tried.frames := by
  have hreleases : (vars.map Stmt.release).flatMap Stmt.frames = [] := by
    rw [List.flatMap_map, List.flatMap_eq_nil_iff]
    exact fun _ _ => rfl
  have htry : (Stmt.tryFinally tried (.ofStatements (vars.map .release))).frames =
      tried.frame.toList := by
    obtain ⟨statements, frame⟩ := tried
    cases frame <;> rfl
  rw [frames, within_releasing, List.flatMap_cons, List.flatMap_append, hreleases, htry,
    List.append_nil]
  rfl

/-- Releases have no code objects. -/
@[simp] theorem Block.sites_releasing (vars : List VariableId) (tried : Block) :
    (tried.releasing vars).sites = tried.sites := by
  rw [sites, sites, frames_releasing, terms_releasing]

/-- A place is a frame, or an expression that creates something from a body. -/
theorem Block.mem_sites : site ∈ block.sites ↔
    (∃ code ∈ block.frames, site = .frame code) ∨ ∃ e ∈ block.terms, e.site? = some site := by
  rw [sites, List.mem_append, List.mem_map, List.mem_filterMap]
  simp only [eq_comm]

/-- What creates something is a step of the block. -/
theorem Block.mem_steps_of_site {e : Expr} (he : e ∈ block.terms) (hsite : e.site? = some site) :
    e ∈ block.steps := by
  refine Block.mem_steps.2 ⟨he, ?_⟩
  cases e <;> first | rfl | cases hsite

theorem Block.site_of_mem_steps {e : Expr} (he : e ∈ block.steps) (hsite : e.site? = some site) :
    site ∈ block.sites :=
  Block.mem_sites.2 (Or.inr ⟨e, (Block.mem_steps.1 he).1, hsite⟩)

/-- The decorators of the runtime have no code objects. -/
theorem Expr.implied_of_site {e : Expr} (h : e.site? = some site) : e.implied = false := by
  cases e <;> first | rfl | cases h

end Block

namespace Store

/-- The frames in the code of a body. -/
def frames (s : Store) (b : BodyId) : List CodeObject :=
  ((s.body b).code.map Block.frames).getD []

/-- The places in the code of a body where code objects stand. -/
def sites (s : Store) (b : BodyId) : List CodeSite :=
  ((s.body b).code.map Block.sites).getD []

variable {s : Store} {b : BodyId} {block : Block}

theorem frames_of_code (h : (s.body b).code = some block) : s.frames b = block.frames := by
  rw [frames, h]
  rfl

theorem sites_of_code (h : (s.body b).code = some block) : s.sites b = block.sites := by
  rw [sites, h]
  rfl

theorem frame_mem_sites {code : CodeObject} : .frame code ∈ s.sites b ↔ code ∈ s.frames b := by
  rw [sites, frames]
  cases (s.body b).code with
  | none => simp
  | some block =>
    show CodeSite.frame code ∈ block.sites ↔ code ∈ block.frames
    rw [Block.mem_sites]
    constructor
    · rintro (⟨_, hcode, h⟩ | ⟨e, -, h⟩)
      · cases h
        exact hcode
      · cases e <;> cases h
    · exact fun h => Or.inl ⟨code, h, rfl⟩

end Store

end IR

/-- Releasing variables changes nothing about code objects. -/
theorem Finished.sites {t : Store} {lowered : LoweredModule} (h : Finished t lowered)
    (b : BodyId) : lowered.store.sites b = t.sites b := by
  rw [IR.Store.sites, IR.Store.sites, h.map_code IR.Block.sites_releasing]

theorem Finished.frames {t : Store} {lowered : LoweredModule} (h : Finished t lowered)
    (b : BodyId) : lowered.store.frames b = t.frames b := by
  rw [IR.Store.frames, IR.Store.frames, h.map_code IR.Block.frames_releasing]

/-- Whether nothing is left of a callable's statements. -/
def Callee.idle (callee : Callee) : Bool :=
  callee.statements.all fun statement => statement.kind.idle

namespace Lowering

variable {setting : Setting} {t : Store} {b : BodyId} {made : Callable} {object : Option BodyId}
  {callee : Callee} {lowered : List IR.Stmt} {block : IR.Block}

/-! ## Frames -/

theorem frames_ofNonempty (statements : List IR.Stmt) :
    (IR.Block.ofNonempty? statements).toList.filterMap IR.Block.frame = [] := by
  cases statements <;> rfl

/-- The blocks inside a lowered statement are no frames. -/
theorem StmtCounterpart.frames {location : Location} {kind : Surface.StmtKind}
    {statement : IR.Stmt} (h : StmtCounterpart setting t b location kind (some statement)) :
    statement.frames = [] := by
  cases h with
  | binds _ _ hbinds => cases hbinds <;> rfl
  | ret =>
    exact returnStmt_of_forms (P := fun s => s.frames = []) _ _ (fun _ => rfl) rfl (fun _ => rfl)
      rfl
  | branch => simp [IR.Stmt.frames, IR.Stmt.blocks, frames_ofNonempty]
  | loop => exact frames_ofNonempty _
  | _ => rfl

/-- Lowered statements contain no frames. -/
theorem frames_of_gave (ht : t.WellFormed) {statements : List Surface.Stmt}
    (h : Gave t b (lowerStmts setting b statements) lowered) :
    ∀ statement ∈ IR.stmtsWithin lowered, statement.frames = [] := by
  intro statement hs
  obtain ⟨_, -, hcounterpart⟩ := (within_stmts ht statements h).exists_of_mem hs
  exact hcounterpart.frames

theorem frame_definitionCode (isAsync : Bool) (kind : CallableKind) (code : CodeObject)
    (lowered : List IR.Stmt) : (definitionCode isAsync kind code lowered).frame.toList =
      if lowered.isEmpty then [] else [code] := by
  have hclose : ∀ terminal, (IR.Block.closeWith terminal (frameOf code lowered)).frame.toList =
      if lowered.isEmpty then [] else [code] := by
    intro terminal
    cases lowered with
    | nil => rfl
    | cons first rest =>
      rw [frameOf, if_neg (by simp), IR.Block.closeWith]
      split <;> rfl
  unfold definitionCode plainCode
  split
  · exact hclose _
  · split
    · exact hclose _
    · cases lowered <;> rfl

/-- The code of a definition is one frame, or has none when no statement is left. -/
theorem frames_definitionCode {isAsync : Bool} {kind : CallableKind} {code : CodeObject}
    (h : ∀ statement ∈ IR.stmtsWithin lowered, statement.frames = []) :
    (definitionCode isAsync kind code lowered).frames =
      if lowered.isEmpty then [] else [code] := by
  rw [IR.Block.frames_eq, frame_definitionCode]
  intro statement hs
  rcases mem_within_definitionCode hs with hs | hs
  · exact h statement hs
  · unfold closing at hs
    split at hs
    · cases hs
      rfl
    · split at hs <;> cases hs
      rfl

/-- A statement leaves nothing behind exactly when it does nothing. -/
theorem StmtCounterpart.isNone {location : Location} {kind : Surface.StmtKind}
    {out : Option IR.Stmt} (h : StmtCounterpart setting t b location kind out) :
    out.isNone = kind.idle := by
  cases h with
  | idle h => rw [h]; rfl
  | binds hname => cases kind <;> first | rfl | cases hname
  | _ => rfl

/-- Nothing is left of some statements exactly when all of them do nothing. -/
theorem StmtsTo.isEmpty {statements : List Surface.Stmt}
    (h : StmtsTo setting t b statements lowered) :
    lowered.isEmpty = statements.all fun statement => statement.kind.idle := by
  induction h with
  | nil => rfl
  | @cons first rest out lowered hfirst _ ih =>
    rw [List.all_cons, ← hfirst.isNone, ← ih]
    cases out <;> simp

/-- **The statements of a callable run in one frame**, unless none is left. -/
theorem CodeOf.frames (h : CodeOf setting t made object callee block) (ht : t.WellFormed) :
    block.frames = if callee.idle then [] else [made.code] := by
  cases h with
  | lambda value _ =>
    rw [IR.Block.frames_eq]
    · rfl
    · intro statement hs
      cases object <;> simp [IR.Block.ofFrame, IR.Block.within, lambdaStatements, IR.stmtsWithin,
        IR.Stmt.within] at hs
      · rw [hs]
        rfl
      · rcases hs with rfl | rfl <;> rfl
  | @define d lowered hbody =>
    rw [frames_definitionCode (frames_of_gave ht hbody), (stmtsTo_of_gave ht hbody).isEmpty]
    rfl

/-- Nothing is created in a callable of which no statement is left. -/
theorem CodeOf.sites_of_idle (h : CodeOf setting t made object callee block) (ht : t.WellFormed)
    (hidle : callee.idle = true) : block.sites = [] := by
  have hframes := h.frames ht
  rw [if_pos hidle] at hframes
  rw [IR.Block.sites, hframes]
  cases h with
  | lambda => cases hidle
  | @define d lowered hbody =>
    obtain rfl : lowered = [] := List.isEmpty_iff.1 ((stmtsTo_of_gave ht hbody).isEmpty.trans hidle)
    unfold definitionCode plainCode
    split
    · rfl
    · split <;> rfl

/-! ## The bodies of a callable -/

/-- The one place in a wrapper is where it creates its delegate. -/
theorem sites_forwarding {u : Unpacking} {known : VariableId → Prop} (h : u.Within known)
    {delegate : BodyId} {code : CodeObject} :
    (forwarding u delegate code).sites = [.function delegate code] := by
  have hframes : (forwarding u delegate code).frames = [] := by
    rw [IR.Block.frames_eq]
    · rfl
    · intro statement hs
      rw [within_forwarding h, List.mem_append, List.mem_singleton] at hs
      rcases hs with hs | rfl
      · rcases h.statements statement hs with ⟨_, _, rfl, -⟩ | ⟨_, _, rfl, -⟩ <;> rfl
      · rfl
  rw [IR.Block.sites, hframes, filterMap_forwarding (fun _ => rfl) (fun _ => rfl)
    (fun _ _ _ => rfl) (fun _ _ => rfl) h]
  rfl

theorem CallableAt.sites_wrapper (h : CallableAt setting t callee b made object)
    (hne : made.function ≠ made.outer) :
    t.sites made.outer = [.function made.function made.code] := by
  rcases h.stands.function with ⟨-, heq⟩ | ⟨-, -, u, vars, hcode, hwithin, -⟩
  · exact absurd heq hne
  · rw [IR.Store.sites_of_code hcode, IR.Block.sites_releasing, sites_forwarding hwithin]

theorem ObjectAt.sites_function {kind : ObjectKind} {o : BodyId}
    (h : ObjectAt setting t callee made kind o) :
    t.sites made.function = [.object kind o made.code] := by
  rw [IR.Store.sites_of_code h.maker]
  rfl

/-- The code of a callable's statements has its frame, and nothing else if no statement is left. -/
theorem CallableAt.sites_codeBody (h : CallableAt setting t callee b made object)
    (ht : t.WellFormed) :
    t.frames (codeBody made object) = (if callee.idle then [] else [made.code]) ∧
      (callee.idle = true → t.sites (codeBody made object) = []) := by
  obtain ⟨block, hblock, hcode⟩ := h.code
  rw [IR.Store.frames_of_code hblock, IR.Store.sites_of_code hblock]
  exact ⟨hcode.frames ht, hcode.sites_of_idle ht⟩

/-- A body of a callable runs in no other frame than the callable's. -/
theorem CallableAt.frame_code {c : BodyId} {code : CodeObject}
    (h : CallableAt setting t callee b made object) (ht : t.WellFormed)
    (hc : c = made.outer ∨ c = made.function ∨ object = some c) (hcode : code ∈ t.frames c) :
    code = made.code := by
  have hsite := IR.Store.frame_mem_sites.2 hcode
  rcases h.body_cases hc with rfl | ⟨rfl, kind, o, -, hobject⟩ | ⟨rfl, hne⟩
  · rw [(h.sites_codeBody ht).1] at hcode
    split at hcode
    · cases hcode
    · exact List.mem_singleton.1 hcode
  · rw [hobject.sites_function, List.mem_singleton] at hsite
    cases hsite
  · rw [h.sites_wrapper hne, List.mem_singleton] at hsite
    cases hsite

/-! ## One code object for one callable -/

/-- The first code object in the code of a callable's outer body is the callable's. -/
theorem CallableAt.code_of_head {site : IR.CodeSite} (h : CallableAt setting t callee b made object)
    (ht : t.WellFormed) (hhead : (t.sites made.outer).head? = some site) :
    site.code = made.code := by
  by_cases hwrapper : made.function = made.outer
  · cases object with
    | some o =>
      obtain ⟨_, -, hobject⟩ := h.objectAt
      rw [← hwrapper, hobject.sites_function] at hhead
      cases hhead
      rfl
    | none =>
      obtain ⟨block, hblock, hcode⟩ := h.code
      rw [← hwrapper] at hhead
      rw [show made.function = codeBody made none from rfl, IR.Store.sites_of_code hblock] at hhead
      cases hidle : callee.idle with
      | true =>
        rw [hcode.sites_of_idle ht hidle] at hhead
        cases hhead
      | false =>
        rw [IR.Block.sites, hcode.frames ht, hidle] at hhead
        cases hhead
        rfl
  · rw [h.sites_wrapper hwrapper] at hhead
    cases hhead
    rfl

/-- Without a code object in its outer body, a callable is a function. -/
theorem CallableAt.kind_of_sites_nil (h : CallableAt setting t callee b made object)
    (ht : t.WellFormed) (hnil : t.sites made.outer = []) : callee.kind setting = .function := by
  have hwrapper : made.function = made.outer := Classical.byContradiction fun hne => by
    rw [h.sites_wrapper hne] at hnil
    cases hnil
  cases object with
  | some o =>
    obtain ⟨_, -, hobject⟩ := h.objectAt
    rw [← hwrapper, hobject.sites_function] at hnil
    cases hnil
  | none =>
    have hnone := h.manufactured
    obtain ⟨block, hblock, hcode⟩ := h.code
    rw [← hwrapper, show made.function = codeBody made none from rfl,
      IR.Store.sites_of_code hblock, IR.Block.sites, List.append_eq_nil_iff, List.map_eq_nil_iff,
      hcode.frames ht] at hnil
    cases callee with
    | lambda => cases hnil.1
    | define d =>
      rw [h.fits d rfl] at hnone
      cases hkind : (Callee.define d).kind setting with
      | function => rfl
      | suspended object =>
        rw [hkind] at hnone
        cases hnone

/-- **A function body is created with one code object**, whatever it was created for. -/
theorem CallableAt.code_unique {callee' : Callee} {b' : BodyId} {made' : Callable}
    {object' : Option BodyId} (h : CallableAt setting t callee b made object)
    (h' : CallableAt setting t callee' b' made' object') (ht : t.WellFormed)
    (heq : made'.outer = made.outer) : made'.code = made.code := by
  cases hsites : t.sites made.outer with
  | cons site rest =>
    have hhead : (t.sites made.outer).head? = some site := by rw [hsites]; rfl
    rw [← h.code_of_head ht hhead, ← h'.code_of_head ht (heq ▸ hhead)]
  | nil =>
    obtain ⟨info, hinfo, hcode⟩ := h.described
    obtain ⟨info', hinfo', hcode'⟩ := h'.described
    have houter := h.stands.outer
    have houter' := heq ▸ h'.stands.outer
    obtain rfl : b' = b := Option.some.inj (houter'.provider.symm.trans houter.provider)
    obtain rfl : info' = info := Except.ok.inj (hinfo'.symm.trans hinfo)
    have hsignature := Option.some.inj (houter'.signature.symm.trans houter.signature)
    have hlocation : callee'.location = callee.location :=
      houter'.location.symm.trans houter.location
    rw [hcode, hcode', h.kind_of_sites_nil ht hsites, h'.kind_of_sites_nil ht (heq ▸ hsites),
      hsignature, hlocation]

end Lowering

end DefinitionLowering
