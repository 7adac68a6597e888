import DefinitionLowering.Proofs.Mirroring
import DefinitionLowering.Proofs.Prepared

/-!
# Top-level statements are lowered independently

Main result: `LoweredModule.ofSurface_append`.  A module that consists of the statements of two
modules is lowered if and only if both are, and the result is their sum (`LoweredModule.sum`): the
bodies and variables of the second behind those of the first, and the code of the second behind
that of the first in the one module.

The statements of the first run in front, where a guest's store is its own (`adjoin_alone`), and
those of the second behind what the first left; `Mirrors` says that this makes no difference but
in numbers.  `opened` is the store in which the statements of a module start.
-/

namespace DefinitionLowering

open IR (BodyId VariableId Store Body Block)
open IR.Store (Fits Follows)
open Lowering

/-! ## One module after another -/

/-- The statements of two blocks one after the other, in the frame of the first. -/
def IR.Block.followedBy (first second : Block) : Block :=
  { first with statements := first.statements ++ second.statements }

/-- One body in place of two: what they declare, see and run, one after the other. -/
def IR.Body.followedBy (first second : Body) : Body :=
  { first with
    nonlocals := first.nonlocals ++ second.nonlocals
    globals := first.globals ++ second.globals
    code := first.code.bind fun code => second.code.map code.followedBy
    visible := first.visible ++ second.visible
    temporaries := first.temporaries ++ second.temporaries }

/-- The sum of two lowered modules.  The bodies in the second module come behind those in the
first, and so do the variables; the two modules become one. -/
def LoweredModule.sum (first second : LoweredModule) : LoweredModule where
  store := (first.store.adjoin second.store).modifyBody first.root fun body =>
    body.followedBy ((second.store.body second.root).shift first.store.offset)
  root := first.root

/-! ## The store in which the statements of a module start -/

namespace IR.Store

/-- A store with one body. -/
def alone (body : Body) : Store :=
  ⟨#[body], #[]⟩

variable {body : Body}

@[simp] theorem body_alone (body : Body) : (alone body).body ⟨0⟩ = body := rfl

@[simp] theorem offset_alone (body : Body) : (alone body).offset = ⟨0, 0⟩ := rfl

/-- A guest that has nothing but its module adds nothing. -/
theorem adjoin_alone (host : Store) (body : Body) : host.adjoin (alone body) = host := by
  simp [adjoin, alone]

theorem modifyBody_alone (body : Body) (f : Body → Body) :
    (alone body).modifyBody ⟨0⟩ f = alone (f body) := by
  have hbodies : (#[body] : Array Body).modify 0 f = #[f body] := by
    refine Array.ext_getElem? fun i => ?_
    rw [Array.getElem?_modify]
    cases i <;> rfl
  exact congrArg (Store.mk · #[]) hbodies

theorem ordered_alone (h : body.provider = none) : (alone body).Ordered := by
  intro b p hp
  by_cases hb : b = ⟨0⟩
  · subst hb
    rw [body_alone, h] at hp
    cases hp
  · have hpos : b.index ≠ 0 := fun hzero => hb (congrArg BodyId.mk hzero)
    have hle : (alone body).bodies.size ≤ b.index := Nat.one_le_iff_ne_zero.2 hpos
    rw [body_of_size_le hle] at hp
    cases hp

/-- The module decides how a name is spelled in it, and it is no class. -/
theorem spell_alone (h : body.kind = .moduleBody) (name : String) :
    (alone body).spell ⟨0⟩ name = name := by
  have hstop : ((alone body).isClass ⟨0⟩ || (alone body).isModule ⟨0⟩) = true := by
    simp [isClass, isModule, h]
  have hclass : (alone body).isClass ⟨0⟩ = false := by
    simp [isClass, h]
  have hnone : (alone body).classOf? ⟨0⟩ = none := by
    rw [classOf?, List.find?_cons_of_pos
      (p := fun a => (alone body).isClass a || (alone body).isModule a) hstop, Option.filter_some,
      if_neg (by simp [hclass])]
  rw [spell, hnone]

end IR.Store

namespace Lowering

variable {setting : Setting} {m : Surface.Module} {s s' t : Store} {body : Body}

/-- In a module that sees no variable, every name can be declared global. -/
theorem declareGlobal_alone (hkind : body.kind = .moduleBody) (hvisible : body.visible = [])
    (name : String) (location : Location) :
    declareGlobal ⟨0⟩ name location (.alone body) =
      .ok () (.alone { body with globals := body.globals ++ [name] }) := by
  have hparameter : isParameter (.alone body) ⟨0⟩ name = false := by
    have hnone : (Store.alone body).find? ⟨0⟩ name = none := by
      rw [Store.find?, Store.visible, Store.body_alone, hvisible]
      rfl
    rw [isParameter, hnone]
  have hrefuse : refuseParameter ⟨0⟩ name .global location (.alone body) =
      .ok () (.alone body) := by
    rw [refuseParameter, bind_ok _ (query_run _ _), hparameter]
    rfl
  have hspell : spell ⟨0⟩ name (.alone body) = .ok name (.alone body) := by
    rw [spell, query_run, Store.spell_alone hkind]
  rw [declareGlobal, bind_ok _ hspell, bind_ok _ hrefuse]
  exact congrArg (EStateM.Result.ok ()) (Store.modifyBody_alone body _)

theorem declareGlobals_alone (names : List (String × Location)) {body : Body}
    (hkind : body.kind = .moduleBody) (hvisible : body.visible = []) :
    (names.forM fun declared => declareGlobal ⟨0⟩ declared.1 declared.2) (.alone body) =
      .ok () (.alone { body with globals := body.globals ++ names.map Prod.fst }) := by
  induction names generalizing body with
  | nil =>
    rw [List.map_nil, List.append_nil]
    rfl
  | cons declared rest ih =>
    show (declareGlobal ⟨0⟩ declared.1 declared.2 >>= fun _ => rest.forM _) (.alone body) = _
    rw [bind_ok _ (declareGlobal_alone hkind hvisible declared.1 declared.2)]
    refine Eq.trans (ih ?_ ?_) ?_
    · exact hkind
    · exact hvisible
    · rw [List.append_assoc]
      rfl

/-- A module records its global declarations; it declares no names nonlocal. -/
theorem openScope_alone (hkind : body.kind = .moduleBody) (hvisible : body.visible = [])
    (statements : List Surface.Stmt) : openScope ⟨0⟩ statements (.alone body) = .ok () s' ↔
      Surface.nonlocalNames statements = [] ∧ s' = .alone { body with
        globals := body.globals ++ (Surface.globalNames statements).map Prod.fst } := by
  have hmodule : kindOf ⟨0⟩ (.alone body) = .ok .moduleBody (.alone body) := by
    rw [kindOf, query_run, Store.body_alone, hkind]
  unfold openScope
  rw [bind_ok _ hmodule]
  dsimp only
  rw [if_pos (by rfl)]
  cases Surface.nonlocalNames statements with
  | nil =>
    dsimp only
    rw [bind_ok _ (declareGlobals_alone (Surface.globalNames statements) hkind hvisible)]
    constructor
    · intro h
      cases h
      exact ⟨rfl, rfl⟩
    · rintro ⟨-, rfl⟩
      rfl
  | cons declared rest =>
    dsimp only
    rw [bind_error _ (reject_run _ _ _)]
    exact ⟨nofun, nofun⟩

/-- The body of a module whose scope is open. -/
def moduleBody (m : Surface.Module) : Body where
  kind := .moduleBody
  name := m.name
  qualifiedName := m.name
  provider := none
  flags := {}
  doc := Surface.docstring? m.body
  signature := none
  location := .moduleStart
  info := some ⟨m.filename, m.future⟩
  nonlocals := []
  globals := (Surface.globalNames (Surface.undocumented m.body)).map Prod.fst
  code := none
  visible := []
  temporaries := []

/-- The store in which the statements of a module start. -/
def opened (m : Surface.Module) : Store :=
  .alone (moduleBody m)

/-- What the statements of a module do in the store. -/
abbrev lowerTop (setting : Setting) (m : Surface.Module) : Lowering (List IR.Stmt) :=
  lowerStmts setting ⟨0⟩ (Surface.undocumented m.body)

theorem openScope_opened (m : Surface.Module) :
    openScope ⟨0⟩ (Surface.undocumented m.body) (.alone { moduleBody m with globals := [] }) =
      .ok () s' ↔ Surface.nonlocalNames (Surface.undocumented m.body) = [] ∧ s' = opened m :=
  openScope_alone rfl rfl _

theorem valid_opened (h : Surface.nonlocalNames (Surface.undocumented m.body) = []) :
    Valid 0 [⟨0⟩] (opened m) :=
  ((sound_openScope _ 0 _ _ (Nat.le_refl _) (valid_module m) Nat.one_pos).of_ok
    ((openScope_opened m).2 ⟨h, rfl⟩)).2.1

/-- Modules of one name and file fit behind each other. -/
theorem fits_opened {host : Store} {body body' : List Surface.Stmt} (hsize : 0 < host.bodies.size)
    (hroot : host.body ⟨0⟩ = moduleBody { m with body := body }) :
    Fits host (opened { m with body := body' }) :=
  ⟨hsize, Nat.one_pos, Store.ordered_alone rfl, by rw [hroot]; rfl, by rw [hroot]; rfl, rfl,
    by rw [hroot]; rfl⟩

/-- Statements run at the top of a host as they run at the top of a module of their own. -/
theorem lowerStmts_behind {host : Store} (h : Fits host (opened m))
    (toplevel : List Surface.Stmt) {statements : List IR.Stmt} :
    lowerStmts setting ⟨0⟩ toplevel host = .ok statements t ↔
      ∃ first s, lowerStmts setting ⟨0⟩ toplevel (opened m) = .ok first s ∧
        statements = first.map (IR.Stmt.shift host.offset) ∧ t = host.adjoin s := by
  have hmirrors := (mirrors_lowerStmts host setting toplevel 1 ⟨0⟩ Nat.one_pos).ok_iff
    (b := statements) (t := t) h (Nat.le_refl 1)
  rw [opened, Store.adjoin_alone] at hmirrors
  exact hmirrors

end Lowering

/-! ## The runs that lower a module -/

/-- Other bodies and variables do not matter for what a body releases. -/
theorem IR.Store.releasedCode_congr {s s' : Store} {b : BodyId} (hbody : s'.body b = s.body b)
    (hvar : ∀ v ∈ s.visible b, s'.var v = s.var v) : s'.releasedCode b = s.releasedCode b := by
  have hvisible : s'.visible b = s.visible b := congrArg Body.visible hbody
  have hown : s'.ownVariables b = s.ownVariables b := by
    rw [ownVariables, ownVariables, hvisible]
    exact List.filter_congr fun v hv => by rw [hvar v hv]
  rw [releasedCode, releasedCode, hown, hbody]

/-- Behind a host the same is released. -/
theorem IR.Store.releasedCode_adjoin {host s : Store} {b : BodyId} (hn : 0 < host.bodies.size)
    (hb : b ≠ ⟨0⟩) : (host.adjoin s).releasedCode (host.offset.body b) =
      (s.releasedCode b).map (Block.shift host.offset) := by
  rw [releasedCode, releasedCode, ownVariables_adjoin hn hb, body_adjoin hn hb, List.isEmpty_map]
  split
  · rfl
  · rw [Body.shift, Option.map_map, Option.map_map]
    exact congrArg (Option.map · _) (funext fun block =>
      (Block.shift_releasing host.offset _ block).symm)

/-- The statements of a module have been lowered, which leaves the store `t`. -/
structure TopRun (setting : Setting) (m : Surface.Module) (statements : List IR.Stmt)
    (t : Store) : Prop where
  global : Surface.nonlocalNames (Surface.undocumented m.body) = []
  run : lowerTop setting m (opened m) = .ok statements t

/-- The module has its code, and the variables of all other bodies are released. -/
structure Completed (t : Store) (statements : List IR.Stmt) (lowered : LoweredModule) : Prop where
  root : lowered.root = ⟨0⟩
  vars : lowered.store.vars = t.vars
  bodies : lowered.store.bodies.size = t.bodies.size
  module : lowered.store.body ⟨0⟩ = { t.body ⟨0⟩ with code := some (.ofStatements statements) }
  others : ∀ b : BodyId, b ≠ ⟨0⟩ →
    lowered.store.body b = { t.body b with code := t.releasedCode b }

section Runs

variable {setting : Setting} {m : Surface.Module} {statements : List IR.Stmt} {t : Store}
  {lowered other : LoweredModule}

theorem TopRun.follows (h : TopRun setting m statements t) : Follows (opened m) (opened m) t := by
  have hfits : Fits (opened m) (opened m) := fits_opened (m := m) Nat.one_pos rfl
  have hmirrors := mirrors_lowerStmts (opened m) setting (Surface.undocumented m.body) 1 ⟨0⟩
    Nat.one_pos
  exact ((hmirrors (opened m) hfits (Nat.le_refl 1)).of_ok h.run).1

theorem TopRun.valid (h : TopRun setting m statements t) : Valid 0 [⟨0⟩] t :=
  ((sound_lowerStmts setting _ 0 ⟨0⟩ 0 _ _ (Nat.le_refl 0) (valid_opened h.global)
    Nat.one_pos).of_ok h.run).2.1

/-- What comes after the statements never fails. -/
theorem TopRun.completes (h : TopRun setting m statements t) :
    ∃ lowered, LoweredModule.ofSurface setting m = .ok lowered ∧
      Completed t statements lowered := by
  have hbody : t.body ⟨0⟩ = moduleBody m := h.follows.root
  have hlt : (0 : Nat) < t.bodies.size := h.follows.fits.rooted
  let filled := t.modifyBody ⟨0⟩ fun body => { body with code := some (.ofStatements statements) }
  have hattach : t.attachCode ⟨0⟩ (.ofStatements statements) = .ok filled :=
    Store.attachCode_ok (by rw [hbody]; rfl) _
  have hfilled : attachCode ⟨0⟩ (.ofStatements statements) t = .ok () filled := by
    rw [attachCode, tryUpdate, bind_ok _ (tryQuery_ok hattach)]
    rfl
  have hrun : lowerUnreleased setting m .empty = .ok ⟨0⟩ filled :=
    lowerUnreleased_eq_ok.2
      ⟨rfl, statements, opened m, t, (openScope_opened m).2 ⟨h.global, rfl⟩, h.run, hfilled⟩
  obtain ⟨lowered, hlowered, hroot, hfinished⟩ := LoweredModule.finishes hrun
  refine ⟨lowered, hlowered, hroot, hfinished.vars, ?_, ?_, fun b hb => ?_⟩
  · exact hfinished.bodies.trans (by simp [filled])
  · exact hfinished.module.trans (Store.body_modifyBody_self hlt)
  · have hsame : filled.body b = t.body b := Store.body_modifyBody_ne hb.symm
    rw [hfinished.others b hb, hsame, Store.releasedCode_congr hsame fun _ _ => rfl]

/-- A lowered module comes from a run of its statements. -/
theorem LoweredModule.topRun (h : LoweredModule.ofSurface setting m = .ok lowered) :
    ∃ statements t, TopRun setting m statements t ∧ Completed t statements lowered := by
  obtain ⟨filled, hunreleased, -⟩ := LoweredModule.unreleased h
  obtain ⟨-, statements, s₁, t, hstages⟩ := lowerUnreleased_eq_ok.1 hunreleased
  obtain ⟨hglobal, rfl⟩ := (openScope_opened m).1 hstages.opens
  have hrun : TopRun setting m statements t := ⟨hglobal, hstages.lowers⟩
  obtain ⟨found, hfound, hcompleted⟩ := hrun.completes
  rw [h] at hfound
  cases hfound
  exact ⟨statements, t, hrun, hcompleted⟩

/-- Nothing is left open about a completed module. -/
theorem Completed.unique (h : Completed t statements lowered) (h' : Completed t statements other) :
    lowered = other := by
  obtain ⟨store, root⟩ := lowered
  obtain ⟨store', root'⟩ := other
  have hroot : root = root' := h.root.trans h'.root.symm
  have hvars : store.vars = store'.vars := h.vars.trans h'.vars.symm
  have hbodies : store.bodies = store'.bodies := by
    refine Array.ext (h.bodies.trans h'.bodies.symm) fun i hi hi' => ?_
    have hbody : store.body ⟨i⟩ = store'.body ⟨i⟩ := by
      by_cases hb : (⟨i⟩ : BodyId) = ⟨0⟩
      · rw [hb]
        exact h.module.trans h'.module.symm
      · exact (h.others _ hb).trans (h'.others _ hb).symm
    simpa [Store.body, Array.getD_eq_getD_getElem?, hi, hi'] using hbody
  cases store
  cases store'
  cases hroot
  cases hvars
  cases hbodies
  rfl

end Runs

/-! ## Statements of two modules in one -/

namespace Surface

variable {front rest : List Stmt}

theorem declarations_append (front rest : List Stmt) :
    declarations (front ++ rest) = declarations front ++ declarations rest := by
  induction front with
  | nil => rfl
  | cons first more ih =>
    rw [List.cons_append, declarations, declarations, ih, List.append_assoc]

theorem undocumented_of_none (h : docstring? rest = none) : undocumented rest = rest := by
  cases rest with
  | nil => rfl
  | cons first more =>
    have hnone : first.docstring? = none := h
    rw [undocumented, hnone]
    rfl

/-- Only the first statement of all can be a documentation string. -/
theorem undocumented_append (h : docstring? rest = none) :
    undocumented (front ++ rest) = undocumented front ++ rest := by
  cases front with
  | nil => exact undocumented_of_none h
  | cons first more =>
    rw [List.cons_append, undocumented, undocumented]
    split <;> rfl

theorem docstring?_append (h : docstring? rest = none) :
    docstring? (front ++ rest) = docstring? front := by
  cases front with
  | nil => exact h
  | cons first more => rfl

end Surface

section Append

variable {setting : Setting} {m : Surface.Module} {front rest : List Surface.Stmt}
  {statements first second : List IR.Stmt} {s t t' : Store}

theorem Lowering.lowerStmts_append (setting : Setting) (b : BodyId) (rest : List Surface.Stmt) :
    ∀ {front : List Surface.Stmt} {s : Store} {statements : List IR.Stmt},
      lowerStmts setting b (front ++ rest) s = .ok statements t ↔
        ∃ first s' second, lowerStmts setting b front s = .ok first s' ∧
          lowerStmts setting b rest s' = .ok second t ∧ statements = first ++ second
  | [], s, statements => by
    rw [lowerStmts]
    constructor
    · exact fun h => ⟨[], s, statements, rfl, h, rfl⟩
    · rintro ⟨_, _, second, h, hrest, rfl⟩
      cases h
      exact hrest
  | one :: front, s, statements => by
    rw [List.cons_append, lowerStmts, lowerStmts]
    constructor
    · intro h
      obtain ⟨head, s₁, h₁, h⟩ := bind_eq_ok h
      obtain ⟨tail, s₂, h₂, h⟩ := bind_eq_ok h
      cases h
      obtain ⟨first, s', second, hfront, hrest, rfl⟩ := (lowerStmts_append setting b rest).1 h₂
      refine ⟨head.toList ++ first, s', second, ?_, hrest, (List.append_assoc _ _ _).symm⟩
      exact (bind_ok _ h₁).trans (bind_ok _ hfront)
    · rintro ⟨_, s', second, h, hrest, rfl⟩
      obtain ⟨head, s₁, h₁, h⟩ := bind_eq_ok h
      obtain ⟨first, s₂, hfront, h⟩ := bind_eq_ok h
      cases h
      have h₂ := (lowerStmts_append setting b rest).2 ⟨first, s', second, hfront, hrest, rfl⟩
      refine ((bind_ok _ h₁).trans (bind_ok _ h₂)).trans ?_
      rw [List.append_assoc]
      rfl

/-- The store before the second statements: what the first left, in a module that records what
both declare. -/
def between (m : Surface.Module) (front rest : List Surface.Stmt) (t : Store) : Store :=
  (opened { m with body := front ++ rest }).adjoin t

theorem between_root (t : Store) : (between m front rest t).body ⟨0⟩ =
    moduleBody { m with body := front ++ rest } :=
  Store.body_adjoin_of_lt Nat.one_pos

theorem between_body {b : BodyId} (hb : b ≠ ⟨0⟩) :
    (between m front rest t).body b = t.body b := by
  have hbody : (between m front rest t).body (IR.Shift.body ⟨0, 0⟩ b) =
      (t.body b).shift ⟨0, 0⟩ := Store.body_adjoin Nat.one_pos hb
  rw [IR.Shift.body_zero, IR.Body.shift_zero] at hbody
  exact hbody

theorem between_vars (t : Store) : (between m front rest t).vars = t.vars := by
  have hzero : IR.Variable.shift ⟨0, 0⟩ = id := funext IR.Variable.shift_zero
  rw [between, opened, Store.adjoin, Store.offset_alone, hzero]
  simp [Store.alone]

theorem between_bodies (h : 0 < t.bodies.size) :
    (between m front rest t).bodies.size = t.bodies.size := by
  rw [between, Store.size_bodies_adjoin]
  show 1 + (t.bodies.size - 1) = t.bodies.size
  omega

/-- The statements of two modules run one after the other as they run on their own. -/
theorem topRun_append (h : Surface.docstring? rest = none) :
    TopRun setting { m with body := front ++ rest } statements t ↔
      ∃ first s second s', TopRun setting { m with body := front } first s ∧
        TopRun setting { m with body := rest } second s' ∧
        statements = first ++ second.map (IR.Stmt.shift (between m front rest s).offset) ∧
        t = (between m front rest s).adjoin s' := by
  have hglobal : Surface.nonlocalNames (Surface.undocumented (front ++ rest)) = [] ↔
      Surface.nonlocalNames (Surface.undocumented front) = [] ∧
        Surface.nonlocalNames (Surface.undocumented rest) = [] := by
    rw [Surface.undocumented_append h, Surface.undocumented_of_none h, Surface.nonlocalNames,
      Surface.declarations_append, List.filterMap_append, List.append_eq_nil_iff]
    rfl
  have hwhole : Fits (opened { m with body := front ++ rest }) (opened { m with body := front }) :=
    fits_opened Nat.one_pos rfl
  have hbetween : ∀ s, Fits (between m front rest s) (opened { m with body := rest }) := fun s =>
    fits_opened (Nat.lt_of_lt_of_le Nat.one_pos
      (by rw [between, Store.size_bodies_adjoin]; exact Nat.le_add_right 1 _)) (between_root s)
  have htop : lowerTop setting { m with body := front ++ rest } =
      lowerStmts setting ⟨0⟩ (Surface.undocumented front ++ rest) :=
    congrArg (lowerStmts setting ⟨0⟩) (Surface.undocumented_append h)
  have hrest : lowerTop setting { m with body := rest } = lowerStmts setting ⟨0⟩ rest :=
    congrArg (lowerStmts setting ⟨0⟩) (Surface.undocumented_of_none h)
  constructor
  · rintro ⟨hnone, hrun⟩
    rw [htop, lowerStmts_append] at hrun
    obtain ⟨_, s₁, _, hfirst, hsecond, rfl⟩ := hrun
    obtain ⟨first, s, hrun₁, rfl, rfl⟩ := (lowerStmts_behind hwhole _).1 hfirst
    obtain ⟨second, s', hrun₂, rfl, rfl⟩ := (lowerStmts_behind (hbetween s) _).1 hsecond
    refine ⟨first, s, second, s', ⟨(hglobal.1 hnone).1, hrun₁⟩, ⟨(hglobal.1 hnone).2, ?_⟩, ?_, rfl⟩
    · rw [hrest]
      exact hrun₂
    · rw [opened, Store.offset_alone, IR.map_shift_zero]
  · rintro ⟨first, s, second, s', ⟨hnone₁, hrun₁⟩, ⟨hnone₂, hrun₂⟩, rfl, rfl⟩
    rw [hrest] at hrun₂
    refine ⟨hglobal.2 ⟨hnone₁, hnone₂⟩, ?_⟩
    rw [htop, lowerStmts_append]
    refine ⟨first, between m front rest s, _, (lowerStmts_behind hwhole _).2 ⟨first, s, hrun₁, ?_,
      rfl⟩, (lowerStmts_behind (hbetween s) _).2 ⟨second, s', hrun₂, rfl, rfl⟩, rfl⟩
    rw [opened, Store.offset_alone, IR.map_shift_zero]

/-- The module of both is the first module with what the second declares added. -/
theorem moduleBody_append (h : Surface.docstring? rest = none) :
    moduleBody { m with body := front ++ rest } =
      (moduleBody { m with body := front }).followedBy (moduleBody { m with body := rest }) := by
  have hglobals : (Surface.globalNames (Surface.undocumented (front ++ rest))).map Prod.fst =
      (Surface.globalNames (Surface.undocumented front)).map Prod.fst ++
        (Surface.globalNames (Surface.undocumented rest)).map Prod.fst := by
    rw [Surface.undocumented_append h, Surface.undocumented_of_none h, Surface.globalNames,
      Surface.declarations_append, List.filterMap_append, List.map_append]
    rfl
  unfold moduleBody
  dsimp only
  rw [hglobals, Surface.docstring?_append h]
  rfl

/-- What a body of the first module releases does not change by what comes behind it. -/
theorem Completed.body_front {one : LoweredModule} (hrun : TopRun setting m first s)
    (hone : Completed s first one) {host : Store} (hbodies : host.bodies.size = s.bodies.size)
    (hvars : host.vars = s.vars) {b : BodyId} (hb : b ≠ ⟨0⟩) (hlt : b.index < s.bodies.size)
    (hbody : host.body b = s.body b) : one.store.body b =
      { (host.adjoin t).body b with code := (host.adjoin t).releasedCode b } := by
  have hsame : (host.adjoin t).body b = s.body b :=
    (Store.body_adjoin_of_lt (hbodies ▸ hlt)).trans hbody
  have hvar : ∀ v ∈ s.visible b, (host.adjoin t).var v = s.var v := by
    intro v hv
    have hseen := (hrun.valid.wellFormed.seen b v hv).1
    rw [Store.var_adjoin_of_lt (hvars ▸ hseen), Store.var, Store.var, hvars]
  rw [hone.others b hb, Store.releasedCode_congr hsame hvar, hsame]

/-- A body of the second module is completed in the same way behind another store. -/
theorem Completed.body_rest {other : LoweredModule} (hother : Completed t second other)
    {host : Store} (hhost : 0 < host.bodies.size) {c : BodyId} (hc : c ≠ ⟨0⟩) :
    (other.store.body c).shift host.offset =
      { (host.adjoin t).body (host.offset.body c) with
        code := (host.adjoin t).releasedCode (host.offset.body c) } := by
  rw [hother.others c hc, Store.releasedCode_adjoin hhost hc, Store.body_adjoin hhost hc]
  rfl

/-- Two completed modules side by side complete the one that has the statements of both. -/
theorem Completed.sum {one other : LoweredModule} (h : Surface.docstring? rest = none)
    (hrun : TopRun setting { m with body := front } first s)
    (hrun' : TopRun setting { m with body := rest } second t)
    (hone : Completed s first one) (hother : Completed t second other) :
    Completed ((between m front rest s).adjoin t)
      (first ++ second.map (IR.Stmt.shift (between m front rest s).offset)) (one.sum other) := by
  have hrooted : 0 < s.bodies.size := hrun.follows.fits.rooted
  have hroot : s.body ⟨0⟩ = moduleBody { m with body := front } := hrun.follows.root
  have hroot' : t.body ⟨0⟩ = moduleBody { m with body := rest } := hrun'.follows.root
  have hsize : (between m front rest s).bodies.size = s.bodies.size := between_bodies hrooted
  have hvars : (between m front rest s).vars = s.vars := between_vars s
  have hpos : 0 < (between m front rest s).bodies.size := hsize ▸ hrooted
  have hpos' : 0 < one.store.bodies.size := hone.bodies ▸ hrooted
  have hoffset : one.store.offset = (between m front rest s).offset := by
    rw [Store.offset, Store.offset, hsize, hvars, hone.bodies, hone.vars]
  refine ⟨hone.root, ?vars, ?bodies, ?module, fun b hb => ?others⟩
  case vars =>
    show (one.store.adjoin other.store).vars = _
    rw [Store.adjoin, Store.adjoin, hoffset, hvars, hone.vars, hother.vars]
  case bodies =>
    show ((one.store.adjoin other.store).modifyBody _ _).bodies.size = _
    rw [Store.size_bodies_modifyBody, Store.size_bodies_adjoin, Store.size_bodies_adjoin, hsize,
      hone.bodies, hother.bodies]
  case module =>
    have hlt : (0 : Nat) < (one.store.adjoin other.store).bodies.size := by
      rw [Store.size_bodies_adjoin]
      exact Nat.lt_of_lt_of_le hpos' (Nat.le_add_right _ _)
    show ((one.store.adjoin other.store).modifyBody _ _).body ⟨0⟩ = _
    rw [hone.root, hother.root, Store.body_modifyBody_self hlt, Store.body_adjoin_of_lt hpos',
      Store.body_adjoin_of_lt hpos, between_root, moduleBody_append h, hone.module, hother.module,
      hroot, hroot', hoffset]
    simp only [IR.Body.followedBy, IR.Body.shift, Option.map_some, IR.Block.shift_ofStatements]
    rfl
  case others =>
    have hne : one.root ≠ b := fun he => hb (he ▸ hone.root)
    show ((one.store.adjoin other.store).modifyBody _ _).body b = _
    rw [Store.body_modifyBody_ne hne]
    rcases Store.lt_or_offset hpos' b with hlt | ⟨c, hc, rfl⟩
    · rw [Store.body_adjoin_of_lt hlt]
      exact hone.body_front hrun hsize hvars hb (hone.bodies ▸ hlt) (between_body hb)
    · rw [Store.body_adjoin hpos' hc, hoffset]
      exact hother.body_rest hpos hc

end Append

/-- **Top-level statements are lowered independently of each other.** -/
theorem LoweredModule.ofSurface_append (setting : Setting) (m : Surface.Module)
    {front rest : List Surface.Stmt} (h : Surface.docstring? rest = none)
    (lowered : LoweredModule) :
    LoweredModule.ofSurface setting { m with body := front ++ rest } = .ok lowered ↔
      ∃ first second,
        LoweredModule.ofSurface setting { m with body := front } = .ok first ∧
        LoweredModule.ofSurface setting { m with body := rest } = .ok second ∧
        lowered = first.sum second := by
  constructor
  · intro hlowered
    obtain ⟨_, _, hrun, hcompleted⟩ := LoweredModule.topRun hlowered
    obtain ⟨_, s, _, t, hrun₁, hrun₂, rfl, rfl⟩ := (topRun_append h).1 hrun
    obtain ⟨first, hfirst, hone⟩ := hrun₁.completes
    obtain ⟨second, hsecond, hother⟩ := hrun₂.completes
    exact ⟨first, second, hfirst, hsecond,
      hcompleted.unique (Completed.sum h hrun₁ hrun₂ hone hother)⟩
  · rintro ⟨first, second, hfirst, hsecond, rfl⟩
    obtain ⟨_, s, hrun₁, hone⟩ := LoweredModule.topRun hfirst
    obtain ⟨_, t, hrun₂, hother⟩ := LoweredModule.topRun hsecond
    obtain ⟨lowered, hlowered, hcompleted⟩ :=
      ((topRun_append h).2 ⟨_, s, _, t, hrun₁, hrun₂, rfl, rfl⟩).completes
    rw [hlowered, hcompleted.unique (Completed.sum h hrun₁ hrun₂ hone hother)]

/-- A module with a documentation string and a definition of two bodies:

    "Tools."
    global cache
    def head((first, rest)): return first
-/
def toolsModule : Surface.Module where
  name := "tools"
  filename := "tools.py"
  future := ⟨false, false, false, false, false⟩
  body :=
    [⟨.expr (.constant (.str "Tools.")), .moduleStart⟩,
     ⟨.global ["cache"], .moduleStart⟩,
     ⟨.define
       { name := "head"
         params := ⟨[.tuple [.name ⟨"first", none⟩, .name ⟨"rest", none⟩]], [], none, [], [], none⟩
         body := [⟨.ret (some (.name "first")), .moduleStart⟩]
         decorators := []
         returns := none
         isAsync := false
         location := .moduleStart },
      .moduleStart⟩]

/-- A generator, which may follow:

    def count(limit): yield limit
-/
def countingStatements : List Surface.Stmt :=
  [⟨.define
     { name := "count"
       params := ⟨[.name ⟨"limit", none⟩], [], none, [], [], none⟩
       body := [⟨.expr (.yield (some (.name "limit"))), .moduleStart⟩]
       decorators := []
       returns := none
       isAsync := false
       location := .moduleStart },
    .moduleStart⟩]

/-- The two bodies of each come together in one module. -/
theorem LoweredModule.toolsModule_append :
    Surface.docstring? countingStatements = none ∧ ∃ lowered first second,
      LoweredModule.ofSurface (.ofDialect .modern)
        { toolsModule with body := toolsModule.body ++ countingStatements } = .ok lowered ∧
      LoweredModule.ofSurface (.ofDialect .modern) toolsModule = .ok first ∧
      LoweredModule.ofSurface (.ofDialect .modern)
        { toolsModule with body := countingStatements } = .ok second ∧
      lowered = first.sum second ∧ lowered.store.bodies.size = 5 := by
  have hfacts : succeedsWith (fun l => l.store.bodies.size == 5)
      (LoweredModule.ofSurface (.ofDialect .modern)
        { toolsModule with body := toolsModule.body ++ countingStatements }) = true := by
    decide +kernel
  obtain ⟨lowered, hlowered, hfacts⟩ := exists_of_succeedsWith hfacts
  obtain ⟨first, second, hfirst, hsecond, hsum⟩ :=
    (LoweredModule.ofSurface_append (.ofDialect .modern) toolsModule rfl lowered).1 hlowered
  exact ⟨rfl, lowered, first, second, hlowered, hfirst, hsecond, hsum, beq_iff_eq.1 hfacts⟩

end DefinitionLowering
