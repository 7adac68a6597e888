import DefinitionLowering.Proofs.Statements
import Mathlib.Data.List.Pairwise

/-!
# Names in lowered modules

`lowerModule_lowers` is what lowering a module comes to: it fails with one of the module's
violations, or there are none, and every scope has a place whose code has the names of the scope.

`names_resolve` is the half about names.  Each name is the variable of the scope that the resolver
finds or is left for run time; and two names are one variable only if they are one name of one
scope.
-/

namespace DefinitionLowering

open IR (BodyId VariableId Store)
open Surface (Header Part Region partsPlain stmtsParts)

variable {dialect : Dialect} {s s' : Store}

namespace Lowering

/-- **Entering the scope of a module** settles its place and lowers its parts there, unless there
is a violation. -/
theorem enter_module {α : Type} {h : Header} {statements : List Surface.Stmt} {parts : List Part}
    {x : Lowering α} {Q : α → List Occurrence → Prop}
    (hdeclared : h.declarations = Surface.declarations statements)
    (hkind : h.kind = .moduleBody) (hparams : h.params = none) (hplain : partsPlain parts = true)
    (ho : Opening s s [] (placeAt h [] ⟨0⟩ [] [] []) [])
    (hx : Lowers dialect [⟨h.scope [], ⟨0⟩, []⟩] x parts Q) :
    Ends (openScope ⟨0⟩ statements >>= fun _ => x) s
      (fun a s' => ∃ names trees, Q a names ∧
        Entered dialect 0 h [] ⟨0⟩ [] s s' parts names trees)
      fun failure _ => FailsIn ((Region.mk h parts).violations dialect []) failure := by
  have hviolations : (Region.mk h parts).violations dialect [] = h.declarationViolations [] ++
      Surface.partsViolations dialect [h.scope []] parts := by
    rw [Region.violations, Header.paramViolations, hparams]
    rfl
  rw [ends_bind, hviolations]
  refine (openScope_module hdeclared hkind hparams ho).weaken (fun _ s₁ => ?_)
    fun _ _ hf => hf.mono (List.subset_append_left _ _)
  rintro ⟨hs₁, hsettled₁, hg₁, hsize₁, hcodes₁, hvalid⟩
  have ha₁ : Advances 0 [] s s₁ [] := ⟨hs₁, hg₁, trivial, fun c hc => absurd hc (Nat.not_lt_zero _),
    fun c => by rw [List.count_nil, if_neg]; omega⟩
  exact (enter_of_settled ha₁ hsettled₁ hcodes₁ hvalid (fun _ _ => Nat.zero_le _) hplain
    hx).weaken (fun _ _ h => h) fun _ _ hf => hf.mono (List.subset_append_right _ _)

/-- The scope of a module can be opened in an empty store. -/
theorem opened_module (m : Surface.Module) :
    Opened (m.region dialect).header [] .empty (Store.createBody .empty (modulePlan m)).2 ⟨0⟩ [] := by
  refine opened_createBody Store.wellFormed_empty trivial (valid_module m).wellFormed rfl
    (fun hc => ?_) rfl ⟨fun _ => rfl, fun _ => rfl⟩ rfl fun text => ?_
  · cases hc
  · rfl

/-- **What lowering a module does.**  It fails with one of the violations of the module.  Or there
are none, the names of each scope have been resolved, and the bodies that have been created belong
to the scopes. -/
theorem lowerModule_lowers (m : Surface.Module) (hplain : (m.region dialect).plain = true) :
    Ends (lowerModule (.ofDialect dialect) m) .empty
      (fun root s' => m.violations dialect = [] ∧ ∃ tree,
        RegionResolved s' [] (m.region dialect) tree ∧ tree.root.code = root ∧
          (bodiesOf tree.places).Perm s'.bodyIds)
      fun failure _ => FailsIn (m.violations dialect) failure := by
  let h := (m.region dialect).header
  let statements := Surface.undocumented m.body
  have ho : Opened h [] .empty (Store.createBody .empty (modulePlan m)).2 ⟨0⟩ [] :=
    opened_module m
  have hparts : Lowers dialect [⟨h.scope [], ⟨0⟩, []⟩]
      (lowerStmts (.ofDialect dialect) ⟨0⟩ statements) (stmtsParts dialect statements) _ :=
    (lowers_stmts dialect statements ⟨h.scope [], ⟨0⟩, []⟩ []).and_sound fun k =>
      sound_lowerStmts _ statements k ⟨0⟩
  unfold lowerModule
  refine ends_bind.2 (ends_operate.2 (ends_bind.2 ?_))
  have hentered := enter_module rfl rfl rfl
    ((Bool.and_eq_true _ _ ▸ hplain : _ ∧ partsPlain (stmtsParts dialect statements) = true).2)
    ho.opening hparts
  refine (ends_bind.1 hentered).weaken (fun _ s₁ hlowered => ends_bind.2 ?_) fun _ _ hf => hf
  refine hlowered.weaken (fun lowered s₂ => ?_) fun _ _ hf => hf
  rintro ⟨names, trees, ⟨hnames, hq⟩, he⟩
  have hblock : (IR.Block.ofStatements lowered).occurrences = names := hnames
  refine ends_bind.2 ((he.close rfl (fun _ hc => absurd hc List.not_mem_nil) (Nat.le_refl _)
    (ho.opening.place.created _ List.mem_cons_self) ho.codeless hblock hq).weaken
    (fun _ s₃ => ?_) fun _ _ h => h.elim)
  rintro ⟨⟨ha₃, hvalid, hresolved⟩, -⟩
  refine ends_bind.2 ((releaseAllBut_spec ha₃.wellFormed).weaken (fun _ s₄ hreleased => ?_)
    fun _ _ h => h.elim)
  have hsize : s₄.bodies.size = s₃.bodies.size := hreleased.bodies
  refine ends_pure.2 ⟨?_, .node ⟨h.scope [], ⟨0⟩, []⟩ trees, ?_, rfl, ?_⟩
  · rw [Surface.partsViolations, Surface.partsViolations, List.append_nil] at hvalid
    exact hvalid
  · obtain ⟨names₁, -, trees₁, -, hnames₁, htrees₁, ⟨-, tree, rfl, htree⟩, -, rfl⟩ := hresolved
    obtain rfl : _ = tree := (List.cons.inj (htrees₁.trans (List.append_nil _))).1
    exact RegionResolved.carry (carries_of_isReleased hreleased) _ _ _ htree
  · -- The module's own body is the first, and all others have been created since.
    refine List.perm_iff_count.2 fun c => ?_
    have hcovers := ha₃.covers c
    have hfirst : (Store.createBody .empty (modulePlan m)).2.bodies.size = 1 := rfl
    rw [hfirst] at hcovers
    have hids : s₄.bodyIds.count c = if c.index < s₄.bodies.size then 1 else 0 := by
      rw [(Store.nodup_bodyIds s₄).count, if_congr Store.mem_bodyIds rfl rfl]
    have hroot : 0 < s₃.bodies.size := Nat.lt_of_lt_of_le Nat.zero_lt_one ha₃.grows.bodies
    have hbodies : bodiesOf (PlaceTree.node ⟨h.scope [], ⟨0⟩, []⟩ trees).places =
        ⟨0⟩ :: treeBodies trees := rfl
    rw [hids, hbodies, List.count_cons, hcovers, hsize]
    cases c with
    | mk i =>
      simp only [BodyId.mk.injEq, beq_iff_eq]
      split <;> split <;> split <;> omega

end Lowering

/-! ## Names -/

/-- A variable of a place belongs to the place. -/
theorem Place.Owns.owner_mem {p : Place} {name : String} {v : VariableId}
    (h : p.Owns s name v) : (s.var v).owner ∈ p.bodies ∧ (s.var v).name = name :=
  ⟨h.2, (Store.find?_eq_some h.1).2⟩

/-- Places without a common body are told apart by their bodies. -/
theorem eq_of_mem_bodies {places : List Place} (hn : (bodiesOf places).Nodup) {p q : Place}
    (hp : p ∈ places) (hq : q ∈ places) {c : BodyId} (hcp : c ∈ p.bodies) (hcq : c ∈ q.bodies) :
    p = q := by
  have : Std.Symm (Function.onFun List.Disjoint Place.bodies) :=
    ⟨fun _ _ h _ hc hc' => h hc' hc⟩
  refine Classical.byContradiction fun hne => ?_
  exact (List.nodup_flatMap.1 hn).2.forall hp hq hne hcp hcq

/-- **Names are resolved lexically.**  In a lowered module, each scope has a place: the body that
holds its code and the bodies around that.  The code has a name for each name that the scope
evaluates or binds, in order; it is the variable of the scope that the resolver finds, or the name
as it is spelled, where the resolver finds none.  All bodies belong to one place each, and two
names are one variable exactly if they are one name of one scope. -/
theorem LoweredModule.names_resolve {m : Surface.Module} {lowered : LoweredModule}
    (hplain : (m.region dialect).plain = true)
    (h : LoweredModule.ofSurface (.ofDialect dialect) m = .ok lowered) :
    ∃ tree, RegionResolved lowered.store [] (m.region dialect) tree ∧
      tree.root.code = lowered.root ∧ (bodiesOf tree.places).Perm lowered.store.bodyIds ∧
      ∀ p ∈ tree.places, ∀ q ∈ tree.places, ∀ name other v w,
        p.Owns lowered.store name v → q.Owns lowered.store other w →
          (v = w ↔ p = q ∧ name = other) := by
  unfold LoweredModule.ofSurface at h
  split at h
  · rename_i root s' hrun
    cases h
    obtain ⟨-, tree, hresolved, hroot, hperm⟩ := (Lowering.lowerModule_lowers m hplain).of_ok hrun
    refine ⟨tree, hresolved, hroot, hperm, fun p hp q hq name other v w hv hw => ?_⟩
    constructor
    · rintro rfl
      refine ⟨?_, hv.owner_mem.2.symm.trans hw.owner_mem.2⟩
      exact eq_of_mem_bodies (hperm.nodup_iff.2 (Store.nodup_bodyIds s')) hp hq
        hv.owner_mem.1 hw.owner_mem.1
    · rintro ⟨rfl, rfl⟩
      exact Option.some.inj (hv.1.symm.trans hw.1)
  · cases h

/-- A module with a closure, a class, and declarations of both kinds:

    x = 1
    def outer(a, (b, c)):
      t = a
      class K:
        t = b
        def method(self): return (t, x)
      def inner():
        nonlocal t
        global x
        t = x
        return lambda z: (z, t, c)
      return inner
-/
def nestedModule : Surface.Module where
  name := "m"
  filename := "m.py"
  future := ⟨false, false, false, false, false⟩
  body :=
    [at? (.assign "x" (.constant (.int 1))),
     define "outer" [name "a", .tuple [name "b", name "c"]]
       [at? (.assign "t" (.name "a")),
        at? (.defineClass
          { name := "K"
            bases := []
            body := [at? (.assign "t" (.name "b")),
              define "method" [name "self"] [at? (.ret (some (.tuple [.name "t", .name "x"])))]]
            decorators := []
            location := .moduleStart }),
        define "inner" []
          [at? (.nonlocal ["t"]), at? (.global ["x"]), at? (.assign "t" (.name "x")),
           at? (.ret (some (.lambda
             { params := params [name "z"]
               body := .tuple [.name "z", .name "t", .name "c"]
               location := .moduleStart })))],
        at? (.ret (some (.name "inner")))]]
where
  at? (kind : Surface.StmtKind) : Surface.Stmt := ⟨kind, .moduleStart⟩
  name (id : String) : Surface.Pattern := .name ⟨id, none⟩
  params (positional : List Surface.Pattern) : Surface.Params :=
    ⟨positional, [], none, [], [], none⟩
  define (id : String) (positional : List Surface.Pattern) (body : List Surface.Stmt) :
      Surface.Stmt :=
    at? (.define ⟨id, params positional, body, [], none, false, .moduleStart⟩)

/-- The names of the nested scopes are resolved; `outer` has a wrapper. -/
theorem LoweredModule.nestedModule_resolves :
    ∃ lowered tree, LoweredModule.ofSurface (.ofDialect .modern) nestedModule = .ok lowered ∧
      RegionResolved lowered.store [] (nestedModule.region .modern) tree ∧
      lowered.store.bodies.size = 7 ∧ (bodiesOf tree.places).length = 7 := by
  have hfacts : succeedsWith (fun l => l.store.bodies.size == 7)
      (LoweredModule.ofSurface (.ofDialect .modern) nestedModule) = true := by
    decide +kernel
  obtain ⟨lowered, h, hfacts⟩ := exists_of_succeedsWith hfacts
  have hsize : lowered.store.bodies.size = 7 := beq_iff_eq.1 hfacts
  obtain ⟨tree, hresolved, -, hperm, -⟩ := LoweredModule.names_resolve (by decide +kernel) h
  refine ⟨lowered, tree, h, hresolved, hsize, ?_⟩
  rw [hperm.length_eq, Store.bodyIds, List.length_map, List.length_range, hsize]

/-! ## Mistakes -/

/-- **A module is accepted exactly if nothing is wrong with it.**  Compiling never ends in a
fault.  A module without violations is lowered and has no diagnostic; any other module has one
diagnostic, which is one of its violations with its own place, and is not lowered. -/
theorem compile_accepts_iff (m : Surface.Module) (hplain : (m.region dialect).plain = true) :
    ∃ c, compile dialect m = .ok c ∧ (c.succeeded = true ↔ m.violations dialect = []) ∧
      (c.succeeded = true → c.diagnostics = []) ∧
      (c.succeeded = false → ∃ r ∈ m.violations dialect, c.diagnostics = [r.diagnostic]) := by
  have hends := Lowering.lowerModule_lowers m hplain
  unfold compile compileIn LoweredModule.ofSurface
  cases hrun : (Lowering.lowerModule (.ofDialect dialect) m).run .empty with
  | ok root s' =>
    have hvalid := (hends.of_ok hrun).1
    exact ⟨_, rfl, iff_of_true rfl hvalid, fun _ => rfl, fun h => by cases h⟩
  | error failure s' =>
    obtain ⟨r, hr, rfl⟩ := hends.of_error hrun
    refine ⟨_, rfl, iff_of_false Bool.false_ne_true fun h => ?_, fun h => ?_, fun _ => ⟨r, hr, rfl⟩⟩
    · rw [h] at hr
      cases hr
    · cases h

/-- The module `def f((b,)): global b`. -/
def globalLeafModule : Surface.Module where
  name := "m"
  filename := "m.py"
  future := ⟨false, false, false, false, false⟩
  body :=
    [⟨.define
      { name := "f"
        params := ⟨[.tuple [.name ⟨"b", none⟩]], [], none, [], [], none⟩
        body := [⟨.global ["b"], ⟨2, 4⟩⟩]
        decorators := []
        returns := none
        isAsync := false
        location := .moduleStart },
      .moduleStart⟩]

/-- A name inside a pattern is a parameter and cannot be global. -/
theorem compile_rejects_global_leaf :
    (globalLeafModule.region .modern).plain = true ∧
      globalLeafModule.violations .modern = [⟨.parameterRedeclared "b" .global, ⟨2, 4⟩⟩] ∧
      ∃ c, compile .modern globalLeafModule = .ok c ∧ c.succeeded = false ∧
        c.diagnostics = [⟨"name 'b' is parameter and global", ⟨2, 4⟩, .lowering⟩] := by
  have hplain : (globalLeafModule.region .modern).plain = true := by decide +kernel
  have hviolations : globalLeafModule.violations .modern =
      [⟨.parameterRedeclared "b" .global, ⟨2, 4⟩⟩] := by
    decide +kernel
  obtain ⟨c, hc, haccepts, -, hrejects⟩ := compile_accepts_iff globalLeafModule hplain
  have hfailed : c.succeeded = false := by
    refine Bool.eq_false_iff.2 fun hsucceeded => ?_
    have := haccepts.1 hsucceeded
    rw [hviolations] at this
    cases this
  obtain ⟨r, hr, hdiagnostics⟩ := hrejects hfailed
  rw [hviolations, List.mem_singleton] at hr
  subst hr
  exact ⟨hplain, hviolations, c, hc, hfailed, hdiagnostics.trans (by decide +kernel)⟩

end DefinitionLowering
