import DefinitionLowering.Proofs.Contents
import DefinitionLowering.Proofs.Executions

/-!
# Runs to the end

A block completes if some path through it reaches its end (`Block.Completes`).  The syntactic
predicate `Block.aborts`, which decides where a last `return` is added, is exact for that notion:

* `Runs.not_ends` — no path through code that aborts reaches the end (by induction on the path,
  the `finally` part of a `try` being the case where the path goes on after it has left);
* `Block.completes_of_not_aborts` — code that does not abort has a path to its end: every loop is
  left at once, and every conditional goes the way that does not abort;
* `Block.aborts_iff` — the two together.

`Block.closeWith` is what adds the last statement; with a statement that returns, nothing
completes any more (`Block.not_completes_closeWith`), and nothing unreachable is added
(`Block.closeWith_eq_push_iff`).

`code_never_completes` carries this to lowered modules: control does not fall off the end of a
function, a coroutine or an asynchronous generator, and the releases around its code do not change
that.  The code of a generator may complete.
-/

namespace DefinitionLowering

open IR (BodyId VariableId Store)
open Lowering

namespace IR

/-- Some path through the block reaches its end. -/
def Block.Completes (block : Block) : Prop :=
  ∃ events, Runs block.statements events .ends

/-- The statements that leave a body with or without a result. -/
def Stmt.isReturn : Stmt → Bool
  | .ret _ | .retNone | .objectRet _ | .objectRetNone => true
  | _ => false

section

variable {statement terminal : Stmt} {statements first rest : List Stmt}
  {block tried cleanup : Block}
  {events more : List Event} {exit exit' : Exit}

/-! ## Code that aborts is left -/

theorem Exit.or_ne_ends (h : exit ≠ .ends) (last : Exit) : last.or exit ≠ .ends := by
  cases last
  · exact h
  · exact nofun
  · exact nofun

theorem Stmt.simple?_ends {vars : List VariableId} (h : statement.simple? = some (vars, .ends)) :
    statement.aborts = false := by
  cases statement <;> first | rfl | cases h

/-- **No path through code that aborts reaches its end.** -/
theorem Runs.not_ends (h : Runs statements events exit) (haborts : anyAborts statements = true) :
    exit ≠ .ends := by
  induction h with
  | nil => cases haborts
  | simple hsimple _ ih =>
    apply ih
    rwa [anyAborts, Stmt.simple?_ends hsimple, Bool.false_or] at haborts
  | leaves _ hexit => exact hexit
  | fails => exact nofun
  | testFails => exact nofun
  | release _ ih => exact ih haborts
  | @branch condition yes no chosen rest events exit hchosen hrest ih =>
    apply ih
    rw [anyAborts, Bool.or_eq_true] at haborts
    rw [anyAborts_append, Bool.or_eq_true]
    apply haborts.imp_left
    intro hbranch
    -- a conditional without one of its parts does not abort
    cases yes with
    | none => cases hbranch
    | some yes =>
      cases no with
      | none => cases hbranch
      | some no =>
        rw [Stmt.aborts, Bool.and_eq_true, Block.aborts_eq, Block.aborts_eq] at hbranch
        rcases hchosen with rfl | rfl
        · exact hbranch.1
        · exact hbranch.2
  | loopEnds _ ih => exact ih haborts
  | loopAgain _ ih =>
    apply ih
    rw [anyAborts_append, haborts, Bool.or_true]
  | @tryEnds tried cleanup rest events more exit htried hrest ihtried ih =>
    apply ih
    rw [anyAborts, Stmt.aborts, Bool.or_eq_true, Bool.or_eq_true, Block.aborts_eq,
      Block.aborts_eq] at haborts
    rw [anyAborts_append, Bool.or_eq_true]
    apply haborts.imp_left
    intro hparts
    exact hparts.resolve_left fun h => ihtried h rfl
  | tryLeaves _ hexit => exact Exit.or_ne_ends hexit _

/-! ## Code that does not abort completes -/

/-- A path to the end of some statements goes on with what stands behind them. -/
theorem Runs.append (h : Runs first events exit) (hends : exit = .ends)
    (hrest : Runs rest more exit') : Runs (first ++ rest) (events ++ more) exit' := by
  induction h with
  | nil => exact hrest
  | simple hsimple _ ih =>
    rw [List.append_assoc]
    exact .simple hsimple (ih hends)
  | leaves _ hexit => exact absurd hends hexit
  | fails => cases hends
  | testFails => cases hends
  | release _ ih => exact .release (ih hends)
  | branch hchosen _ ih =>
    have happended := ih hends
    rw [List.append_assoc] at happended ⊢
    exact .branch hchosen happended
  | loopEnds _ ih =>
    rw [List.append_assoc]
    exact .loopEnds (ih hends)
  | loopAgain _ ih =>
    have happended := ih hends
    rw [List.append_assoc] at happended ⊢
    exact .loopAgain happended
  | tryEnds htried _ _ ih =>
    have happended := ih hends
    rw [List.append_assoc] at happended ⊢
    exact .tryEnds htried happended
  | tryLeaves _ hexit => exact absurd hends (Exit.or_ne_ends hexit _)

mutual

theorem Stmt.exists_run_of_not_aborts :
    ∀ statement : Stmt, statement.aborts = false → ∃ events, Runs [statement] events .ends
  | .assignVariable _ _, _ => ⟨_, .simple rfl .nil⟩
  | .assignName _ _, _ => ⟨_, .simple rfl .nil⟩
  | .expr _, _ => ⟨_, .simple rfl .nil⟩
  | .checkExhausted _ _, _ => ⟨_, .simple rfl .nil⟩
  | .release _, _ => ⟨_, .release .nil⟩
  | .tryFinally tried cleanup, h => by
    rw [Stmt.aborts, Bool.or_eq_false_iff] at h
    obtain ⟨events, htried⟩ := Block.completes_of_not_aborts tried h.1
    obtain ⟨more, hcleanup⟩ := Block.completes_of_not_aborts cleanup h.2
    refine ⟨events ++ more, .tryEnds htried ?_⟩
    rwa [List.append_nil]
  | .branch _ none _, _ => ⟨_, .branch (Or.inl rfl) .nil⟩
  | .branch _ (some _) none, _ => ⟨_, .branch (Or.inr rfl) .nil⟩
  | .branch condition (some yes) (some no), h => by
    rw [Stmt.aborts, Bool.and_eq_false_iff] at h
    -- one of the two parts has a path to its end
    rcases h with hyes | hno
    · obtain ⟨events, hrun⟩ := Block.completes_of_not_aborts yes hyes
      rw [← List.append_nil yes.statements] at hrun
      exact ⟨_, .branch (Or.inl rfl) hrun⟩
    · obtain ⟨events, hrun⟩ := Block.completes_of_not_aborts no hno
      rw [← List.append_nil no.statements] at hrun
      exact ⟨_, .branch (Or.inr rfl) hrun⟩
  | .loop _ _, _ => ⟨_, .loopEnds .nil⟩

theorem Block.completes_of_not_aborts :
    ∀ block : Block, block.aborts = false → block.Completes
  | ⟨statements, _⟩, h => exists_run_of_not_anyAborts statements h

theorem exists_run_of_not_anyAborts :
    ∀ statements : List Stmt, anyAborts statements = false → ∃ events, Runs statements events .ends
  | [], _ => ⟨[], .nil⟩
  | first :: rest, h => by
    rw [anyAborts, Bool.or_eq_false_iff] at h
    obtain ⟨events, hfirst⟩ := Stmt.exists_run_of_not_aborts first h.1
    obtain ⟨more, hrest⟩ := exists_run_of_not_anyAborts rest h.2
    exact ⟨events ++ more, hfirst.append rfl hrest⟩

end

/-- **A block aborts exactly when no path through it reaches its end.** -/
theorem Block.aborts_iff (block : Block) : block.aborts = true ↔ ¬ block.Completes := by
  constructor
  · rintro haborts ⟨events, hrun⟩
    rw [Block.aborts_eq] at haborts
    exact hrun.not_ends haborts rfl
  · intro hnot
    by_contra haborts
    exact hnot (block.completes_of_not_aborts (Bool.eq_false_of_not_eq_true haborts))

theorem Block.not_aborts_iff (block : Block) : block.aborts = false ↔ block.Completes := by
  rw [← not_iff_not, ← block.aborts_iff, Bool.not_eq_false]

/-- A `try` with a `finally` part completes exactly when both parts do. -/
theorem Block.completes_tryFinally :
    (Block.single (.tryFinally tried cleanup)).Completes ↔ tried.Completes ∧ cleanup.Completes := by
  rw [← not_aborts_iff, ← not_aborts_iff, ← not_aborts_iff, ← Bool.or_eq_false_iff]
  simp [Block.single, Block.aborts_eq, anyAborts, Stmt.aborts]

/-! ## Adding a last statement -/

theorem Stmt.aborts_of_isReturn (h : terminal.isReturn = true) : terminal.aborts = true := by
  cases terminal <;> first | rfl | cases h

/-- Closing an absent block is closing one without statements. -/
theorem Block.closeWith_eq (terminal : Stmt) (block : Option Block) :
    closeWith terminal block =
      if (block.getD (.ofStatements [])).aborts then block.getD (.ofStatements [])
      else (block.getD (.ofStatements [])).push terminal := by
  cases block <;> rfl

theorem Block.push_ne (block : Block) (statement : Stmt) : block.push statement ≠ block := by
  intro h
  have hlength : (block.push statement).statements.length = block.statements.length := by rw [h]
  simp [Block.push] at hlength

/-- **No path through a closed block reaches its end.** -/
theorem Block.not_completes_closeWith (h : terminal.isReturn = true) (block : Option Block) :
    ¬ (closeWith terminal block).Completes :=
  (aborts_iff _).1 (aborts_closeWith (Stmt.aborts_of_isReturn h) block)

/-- The last statement is added exactly when control can get there. -/
theorem Block.closeWith_eq_push_iff (terminal : Stmt) (block : Option Block) :
    closeWith terminal block = (block.getD (.ofStatements [])).push terminal ↔
      (block.getD (.ofStatements [])).Completes := by
  rw [closeWith_eq, ← not_aborts_iff]
  split
  · rename_i haborts
    simp [haborts, (Block.push_ne _ terminal).symm]
  · rename_i haborts
    simp [haborts]

/-- A block is left as it is exactly when control cannot get to its end. -/
theorem Block.closeWith_eq_self_iff (terminal : Stmt) (block : Option Block) :
    closeWith terminal block = block.getD (.ofStatements []) ↔
      ¬ (block.getD (.ofStatements [])).Completes := by
  rw [closeWith_eq, ← aborts_iff]
  split
  · rename_i haborts
    simp [haborts]
  · rename_i haborts
    simp [haborts, Block.push_ne _ terminal]

/-- Closing a closed block does nothing. -/
theorem Block.closeWith_closeWith (h : terminal.isReturn = true) (block : Option Block) :
    closeWith terminal (some (closeWith terminal block)) = closeWith terminal block :=
  (closeWith_eq_self_iff terminal (some _)).2 (not_completes_closeWith h block)

/-- Releases behind a block do not let control past it. -/
theorem Block.not_completes_releasing (h : ¬ block.Completes) (vars : List VariableId) :
    ¬ (block.releasing vars).Completes := by
  intro hcompletes
  exact h (completes_tryFinally.1 hcompletes).1

end

end IR

/-! ## The code of callables -/

/-- A definition whose statements are in no generator has a last statement to be closed with. -/
theorem closing_isReturn {isAsync : Bool} {kind : CallableKind}
    (h : isAsync = true ∨ kind = .function) :
    ∃ terminal, closing isAsync kind = some terminal ∧ terminal.isReturn = true := by
  unfold closing
  rcases h with rfl | rfl
  · exact ⟨.objectRetNone, rfl, rfl⟩
  · cases isAsync
    · exact ⟨.retNone, rfl, rfl⟩
    · exact ⟨.objectRetNone, rfl, rfl⟩

namespace Lowering

variable {setting : Setting} {t : Store} {provider c : BodyId} {made : Callable}
  {object : Option BodyId} {callee : Callee} {block : IR.Block} {kind : CallableKind}

/-- A plain definition whose statements are in no generator is a function. -/
theorem CallableAt.kind_of_plain {d : Surface.Def}
    (h : CallableAt setting t (.define d) provider made object) (hplain : d.isAsync = false)
    (hkind : (Callee.define d).bodyKind setting ≠ .generator) :
    (Callee.define d).kind setting = .function := by
  have hfits := h.fits d rfl
  rw [Callee.bodyKind, hfits] at hkind
  rw [Callee.object?, Callee.isAsync, hplain, if_neg (by decide)] at hfits
  generalize (Callee.define d).kind setting = kind at hfits hkind
  cases kind with
  | function => rfl
  | suspended object =>
    cases object with
    | generator => exact absurd rfl hkind
    | coroutine => cases hfits
    | asyncGenerator => cases hfits

/-- The code with the statements of a callable aborts, if it is not a generator's. -/
theorem CodeOf.aborts (h : CodeOf setting t made object callee block)
    (hcallable : CallableAt setting t callee provider made object)
    (hkind : callee.bodyKind setting ≠ .generator) : block.aborts = true := by
  rw [IR.Block.aborts_eq]
  cases h with
  | lambda value _ => cases object <;> rfl
  | @define d lowered _ =>
    have hlast : d.isAsync = true ∨ (Callee.define d).kind setting = .function := by
      cases hplain : d.isAsync with
      | true => exact Or.inl rfl
      | false => exact Or.inr (hcallable.kind_of_plain hplain hkind)
    obtain ⟨terminal, hclosing, hreturn⟩ := closing_isReturn hlast
    rw [statements_definitionCode, hclosing]
    split
    · assumption
    · rw [Option.toList_some, IR.anyAborts_append, IR.anyAborts, IR.Stmt.aborts_of_isReturn hreturn,
        Bool.true_or, Bool.or_true]

/-- What stands in the body of a callable other than a generator aborts. -/
theorem Content.not_completes (h : Content setting t c block)
    (hbody : (t.body c).kind = .callable kind) (hkind : kind ≠ .generator) :
    ¬ block.Completes := by
  cases h with
  | scope hscope _ =>
    rw [hbody] at hscope
    cases hscope
  | @code callee provider made object _ hcallable hc hcode =>
    rw [hc, hcallable.codeBody_kind] at hbody
    cases hbody
    exact (IR.Block.aborts_iff _).1 (hcode.aborts hcallable hkind)
  | maker _ =>
    apply (IR.Block.aborts_iff _).1
    rfl
  | @wrapper made u vars _ _ _ =>
    apply IR.Block.not_completes_releasing
    apply (IR.Block.aborts_iff _).1
    rw [forwarding, IR.Block.aborts_eq, IR.Block.ofStatements, IR.anyAborts_append, IR.anyAborts,
      IR.Stmt.aborts, Bool.true_or, Bool.or_true]

end Lowering

namespace LoweredModule

/-- Control does not fall off the end of a function, a coroutine or an asynchronous generator. -/
theorem not_completes {setting : Setting} {m : Surface.Module} {lowered : LoweredModule}
    (h : LoweredModule.ofSurface setting m = .ok lowered) {b : BodyId}
    (hb : b.index < lowered.store.bodies.size) {kind : CallableKind}
    (hbody : (lowered.store.body b).kind = .callable kind) (hkind : kind ≠ .generator) :
    ∃ code, (lowered.store.body b).code = some code ∧ ¬ code.Completes := by
  obtain ⟨t, hprepared, hfinished⟩ := prepared h
  rw [hfinished.bodies] at hb
  rw [hfinished.kind] at hbody
  obtain ⟨block, final, hcontent, hfinal, hcases⟩ := hfinished.content hprepared hb
  have hnot : ¬ block.Completes := hcontent.not_completes hbody hkind
  refine ⟨final, hfinal, ?_⟩
  rcases hcases with rfl | rfl
  · exact hnot
  · exact IR.Block.not_completes_releasing hnot _

/-- **The abort predicate is exact, and no function falls off its end.**  A block aborts exactly
when none of its paths reaches the end; closing a block with a statement that returns adds the
statement exactly when control gets there, and nothing completes afterwards; and in a lowered
module the code of every function, coroutine and asynchronous generator has no path to its end. -/
theorem code_never_completes :
    (∀ block : IR.Block, block.aborts = true ↔ ¬ block.Completes) ∧
    (∀ tried cleanup : IR.Block, (IR.Block.single (.tryFinally tried cleanup)).Completes ↔
      tried.Completes ∧ cleanup.Completes) ∧
    (∀ (terminal : IR.Stmt) (block : Option IR.Block), terminal.isReturn = true →
      ¬ (IR.Block.closeWith terminal block).Completes ∧
      (IR.Block.closeWith terminal block = (block.getD (.ofStatements [])).push terminal ↔
        (block.getD (.ofStatements [])).Completes) ∧
      (IR.Block.closeWith terminal block = block.getD (.ofStatements []) ↔
        ¬ (block.getD (.ofStatements [])).Completes) ∧
      IR.Block.closeWith terminal (some (IR.Block.closeWith terminal block)) =
        IR.Block.closeWith terminal block) ∧
    ∀ (setting : Setting) (m : Surface.Module) (lowered : LoweredModule),
      LoweredModule.ofSurface setting m = .ok lowered → ∀ b : BodyId,
        b.index < lowered.store.bodies.size → ∀ kind : CallableKind,
          (lowered.store.body b).kind = .callable kind → kind ≠ .generator →
            ∃ code, (lowered.store.body b).code = some code ∧ ¬ code.Completes := by
  refine ⟨IR.Block.aborts_iff, fun _ _ => IR.Block.completes_tryFinally, ?_, ?_⟩
  · intro terminal block hreturn
    exact ⟨IR.Block.not_completes_closeWith hreturn block,
      IR.Block.closeWith_eq_push_iff terminal block, IR.Block.closeWith_eq_self_iff terminal block,
      IR.Block.closeWith_closeWith hreturn block⟩
  · intro setting m lowered h b hb kind hbody hkind
    exact not_completes h hb hbody hkind

/-- The module

    def pick((a, b)):
      if a: return b
    async def poll():
      if poll: return
-/
def pickingModule : Surface.Module where
  name := "m"
  filename := "m.py"
  future := ⟨false, false, false, false, false⟩
  body :=
    [⟨.define
      { name := "pick"
        params := ⟨[.tuple [.name ⟨"a", none⟩, .name ⟨"b", none⟩]], [], none, [], [], none⟩
        body := [⟨.branch (.name "a") [⟨.ret (some (.name "b")), ⟨2, 8⟩⟩] [], ⟨2, 2⟩⟩]
        decorators := []
        returns := none
        isAsync := false
        location := ⟨1, 0⟩ }, ⟨1, 0⟩⟩,
     ⟨.define
      { name := "poll"
        params := ⟨[], [], none, [], [], none⟩
        body := [⟨.branch (.name "poll") [⟨.ret none, ⟨4, 11⟩⟩] [], ⟨4, 2⟩⟩]
        decorators := []
        returns := none
        isAsync := true
        location := ⟨3, 0⟩ }, ⟨3, 0⟩⟩]

/-- None of the wrapper, the function, the function that manufactures the coroutine and the
coroutine completes, although the written statements may run to their end. -/
theorem pickingModule_never_completes :
    ∃ lowered, LoweredModule.ofSurface (.ofDialect .modern) pickingModule = .ok lowered ∧
      lowered.store.bodyIds.map (fun b => (lowered.store.body b).kind) =
        [.moduleBody, .function, .function, .function, .callable .coroutine] ∧
      ∀ b ∈ lowered.store.bodyIds.tail,
        ∃ code, (lowered.store.body b).code = some code ∧ ¬ code.Completes := by
  have hfacts : succeedsWith (fun l =>
      l.store.bodyIds.map (fun b => (l.store.body b).kind) ==
          [.moduleBody, .function, .function, .function, .callable .coroutine] &&
        l.store.bodyIds.tail.all fun b => (l.store.body b).kind == .function ||
          (l.store.body b).kind == .callable .coroutine)
      (LoweredModule.ofSurface (.ofDialect .modern) pickingModule) = true := by
    decide +kernel
  obtain ⟨lowered, h, hfacts⟩ := exists_of_succeedsWith hfacts
  rw [Bool.and_eq_true, List.all_eq_true] at hfacts
  refine ⟨lowered, h, eq_of_beq hfacts.1, fun b hb => ?_⟩
  have hlt : b.index < lowered.store.bodies.size :=
    IR.Store.mem_bodyIds.1 (List.mem_of_mem_tail hb)
  have hkind := hfacts.2 b hb
  rw [Bool.or_eq_true, beq_iff_eq, beq_iff_eq] at hkind
  rcases hkind with hkind | hkind
  · exact code_never_completes.2.2.2 _ _ _ h b hlt _ hkind (by decide)
  · exact code_never_completes.2.2.2 _ _ _ h b hlt _ hkind (by decide)

end LoweredModule

end DefinitionLowering
