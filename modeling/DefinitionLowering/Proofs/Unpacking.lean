import DefinitionLowering.Proofs.Machine
import DefinitionLowering.Proofs.Temporaries

/-!
# Unpacking follows the pattern

Running the code that takes a pattern apart does what pattern matching says: it ends with one
temporary for each name inside the pattern, holding the value that the name matches, or it
raises when the value has not the shape of the pattern (`unpack_run`).  The iterators of the
tuples around the pattern move on, and nothing else that existed before changes.

`unpackElements_run` carries the induction: the elements of a tuple are a prefix of what its
iterator has left, and the check behind them says that the prefix is everything.
-/

namespace DefinitionLowering

open IR (BodyId VariableId Store)
open Surface (Pattern Param)

/-! ## Steps of the machine -/

section Steps

variable {α β : Type} {x : Exec α} {f : α → Exec β} {m m' : Machine}

theorem exec_bind_ok {a : α} (h : x m = .ok a m') : (x >>= f) m = f a m' := by
  show EStateM.bind x f m = _
  unfold EStateM.bind
  rw [h]

theorem exec_bind_error {stop : Stop} (h : x m = .error stop m') :
    (x >>= f) m = .error stop m' := by
  show EStateM.bind x f m = _
  unfold EStateM.bind
  rw [h]

theorem Exec.read_of_cell {v : VariableId} {cell : Cell} (h : m.cells v = some cell) :
    Exec.read v m = .ok cell m := by
  simp [Exec.read, h]

end Steps

/-! ## Machines -/

/-- What code keeps that fills variables from the given number on: the variables below, and the
iterators there are. -/
structure Machine.Keeps (bound : Nat) (m m' : Machine) : Prop where
  cells : ∀ v : VariableId, v.index < bound → m'.cells v = m.cells v
  iterators : m.iterators <+: m'.iterators

theorem Machine.Keeps.refl (bound : Nat) (m : Machine) : m.Keeps bound m :=
  ⟨fun _ _ => rfl, List.prefix_rfl⟩

theorem Machine.Keeps.trans {m m₁ m₂ : Machine} {bound bound' : Nat} (h : m.Keeps bound m₁)
    (h' : m₁.Keeps bound' m₂) (hle : bound ≤ bound') : m.Keeps bound m₂ where
  cells v hv := (h'.cells v (Nat.lt_of_lt_of_le hv hle)).trans (h.cells v hv)
  iterators := h.iterators.trans h'.iterators

theorem Machine.Keeps.set {m m' : Machine} {v : VariableId} {cell : Cell} {bound : Nat}
    (h : m.Keeps bound m') (hv : bound ≤ v.index) : m.Keeps bound (m'.set v cell) := by
  refine ⟨fun w hw => ?_, h.iterators⟩
  have hne : w ≠ v := fun he => by
    rw [he] at hw
    omega
  rw [← h.cells w hw]
  exact if_neg hne

/-- The expressions are variables below the bound that hold the values. -/
def Yields (bound : Nat) (accesses : List IR.Expr) (m : Machine) (values : List Value) : Prop :=
  ∃ vars : List VariableId, accesses = vars.map .var ∧ (∀ v ∈ vars, v.index < bound) ∧
    vars.map m.cells = values.map fun value => some (.value value)

theorem Yields.nil {bound : Nat} {m : Machine} : Yields bound [] m [] :=
  ⟨[], rfl, by simp, rfl⟩

theorem Yields.single {bound : Nat} {m : Machine} {v : VariableId} {value : Value}
    (hv : v.index < bound) (h : m.cells v = some (.value value)) :
    Yields bound [.var v] m [value] :=
  ⟨[v], rfl, by simpa using hv, by simp [h]⟩

theorem Yields.append {bound : Nat} {m : Machine} {accesses accesses' : List IR.Expr}
    {values values' : List Value} (h : Yields bound accesses m values)
    (h' : Yields bound accesses' m values') :
    Yields bound (accesses ++ accesses') m (values ++ values') := by
  obtain ⟨vars, rfl, hb, hc⟩ := h
  obtain ⟨vars', rfl, hb', hc'⟩ := h'
  refine ⟨vars ++ vars', by simp, fun v hv => ?_, by simp [hc, hc']⟩
  rcases List.mem_append.1 hv with hv | hv
  · exact hb v hv
  · exact hb' v hv

theorem Yields.of_cells {bound bound' : Nat} {m m' : Machine} {accesses : List IR.Expr}
    {values : List Value} (h : Yields bound accesses m values)
    (hcells : ∀ v : VariableId, v.index < bound → m'.cells v = m.cells v)
    (hbound : bound ≤ bound') : Yields bound' accesses m' values := by
  obtain ⟨vars, rfl, hb, hc⟩ := h
  refine ⟨vars, rfl, fun v hv => Nat.lt_of_lt_of_le (hb v hv) hbound, ?_⟩
  rw [← hc]
  exact List.map_congr_left fun v hv => hcells v (hb v hv)

theorem evalArgs_of_yields {bound : Nat} {m : Machine} {accesses : List IR.Expr}
    {values : List Value} (h : Yields bound accesses m values) :
    evalArgs accesses m = .ok values m := by
  obtain ⟨vars, rfl, -, hc⟩ := h
  induction vars generalizing values with
  | nil =>
    cases values with
    | nil => rfl
    | cons value rest => simp at hc
  | cons v rest ih =>
    cases values with
    | nil => simp at hc
    | cons value values =>
      simp only [List.map_cons, List.cons.injEq] at hc
      have hv : (evalExpr (.var v) >>= Exec.argument) m = .ok value m := by
        rw [evalExpr, exec_bind_ok (Exec.read_of_cell hc.1)]
        rfl
      rw [List.map_cons, evalArgs, exec_bind_ok hv, exec_bind_ok (ih hc.2)]
      rfl

/-! ## Sequences of statements -/

/-- The statements raise an error. -/
def Raises (statements : List IR.Stmt) (m : Machine) : Prop :=
  ∃ error m', execStmts statements m = .error (.raised error) m'

theorem execStmts_append_ok {first rest : List IR.Stmt} {m m' : Machine}
    (h : execStmts first m = .ok () m') : execStmts (first ++ rest) m = execStmts rest m' := by
  induction first generalizing m with
  | nil =>
    cases h
    rfl
  | cons statement statements ih =>
    rw [List.cons_append, execStmts]
    rw [execStmts] at h
    cases hx : execStmt statement m with
    | ok a m₁ =>
      rw [exec_bind_ok hx] at h ⊢
      exact ih h
    | error stop m₁ =>
      rw [exec_bind_error hx] at h
      cases h

theorem Raises.append {first : List IR.Stmt} {m : Machine} (h : Raises first m)
    (rest : List IR.Stmt) : Raises (first ++ rest) m := by
  obtain ⟨error, m', h⟩ := h
  refine ⟨error, m', ?_⟩
  induction first generalizing m with
  | nil => cases h
  | cons statement statements ih =>
    rw [List.cons_append, execStmts]
    rw [execStmts] at h
    cases hx : execStmt statement m with
    | ok a m₁ =>
      rw [exec_bind_ok hx] at h ⊢
      exact ih h
    | error stop m₁ =>
      rw [exec_bind_error hx] at h ⊢
      exact h

theorem Raises.append_right {first rest : List IR.Stmt} {m m' : Machine}
    (h : execStmts first m = .ok () m') (hr : Raises rest m') : Raises (first ++ rest) m := by
  obtain ⟨error, m'', hr⟩ := hr
  exact ⟨error, m'', (execStmts_append_ok h).trans hr⟩

theorem execStmts_single {statement : IR.Stmt} {m : Machine} :
    execStmts [statement] m = execStmt statement m := by
  rw [execStmts]
  cases hx : execStmt statement m with
  | ok a m' => rw [exec_bind_ok hx]; rfl
  | error stop m' => rw [exec_bind_error hx]

/-- An assignment holds what its source gives, and raises when its source does. -/
theorem exec_assign_ok {target : VariableId} {source : IR.Expr} {m m' : Machine} {cell : Cell}
    (h : evalExpr source m = .ok cell m') :
    execStmts [.assignVariable target source] m = .ok () (m'.set target cell) := by
  rw [execStmts_single, execStmt, exec_bind_ok h]
  rfl

theorem raises_assign {target : VariableId} {source : IR.Expr} {m m' : Machine}
    {error : RunError} (h : evalExpr source m = .error (.raised error) m') :
    Raises [.assignVariable target source] m := by
  refine ⟨error, m', ?_⟩
  rw [execStmts_single, execStmt, exec_bind_error h]

/-! ## Prefixes of an iterator -/

namespace Surface

/-- Matches patterns with the first values of a list and gives the others back. -/
def assignPrefix (spell : String → String) :
    List Pattern → List Value → Option (List (String × Value) × List Value)
  | [], items => some ([], items)
  | _ :: _, [] => none
  | first :: rest, item :: items =>
    match first.assign spell item, assignPrefix spell rest items with
    | some bindings, some (more, left) => some (bindings ++ more, left)
    | _, _ => none

/-- Patterns match a list when they match a prefix of it and nothing is left. -/
theorem assignAll_of_assignPrefix {spell : String → String} (patterns : List Pattern)
    (items : List Value) :
    assignAll spell patterns items =
      match assignPrefix spell patterns items with
      | some (bindings, []) => some bindings
      | _ => none := by
  induction patterns generalizing items with
  | nil => cases items <;> rfl
  | cons first rest ih =>
    cases items with
    | nil => rfl
    | cons item items =>
      rw [assignAll, assignPrefix, ih]
      cases first.assign spell item with
      | none => rfl
      | some bindings =>
        cases assignPrefix spell rest items with
        | none => rfl
        | some found =>
          obtain ⟨more, left⟩ := found
          cases left <;> rfl

end Surface

theorem set_prefix_set {l l' : List (List Value)} {k : Nat} {x : List Value} (h : l <+: l')
    (hk : k < l.length) : l.set k x <+: l'.set k x := by
  obtain ⟨more, rfl⟩ := h
  rw [List.set_append_left k x hk]
  exact List.prefix_append _ _

theorem getElem?_of_isPrefix {l l' : List (List Value)} {k : Nat} {x : List Value} (h : l <+: l')
    (hk : l[k]? = some x) : l'[k]? = some x := by
  obtain ⟨more, rfl⟩ := h
  obtain ⟨hlt, -⟩ := List.getElem?_eq_some_iff.1 hk
  rw [List.getElem?_append_left hlt, hk]

namespace Lowering

open Surface (assignAll assignPrefix assignAll_of_assignPrefix)

variable {b : BodyId}

/-! ## Taking a value apart -/

/-- What code does that fills the variables between two numbers and then has the values of some
names at hand, if there are any; without them it raises. -/
def Unpacking.Runs (u : Unpacking) (first next : Nat) (start entered : Machine) :
    Option (List (String × Value)) → Prop
  | some bindings => ∃ m, execStmts u.statements start = .ok () m ∧ entered.Keeps first m ∧
      Yields next u.accesses m (bindings.map Prod.snd)
  | none => Raises u.statements start

/-- What the code of an unpacking does to a value that `source` gives, for each machine. -/
def Unpacking.TakesApart (u : Unpacking) (source : IR.Expr) (first next : Nat)
    (reference : Value → Option (List (String × Value))) : Prop :=
  (∀ m m' error, evalExpr source m = .error (.raised error) m' → Raises u.statements m) ∧
    ∀ m m' value, evalExpr source m = .ok (.value value) m' →
      u.Runs first next m m' (reference value)

/-- What the code of an unpacking does with the elements that an iterator has left. -/
def Unpacking.Consumes (u : Unpacking) (iterator : VariableId) (first next : Nat)
    (reference : List Value → Option (List (String × Value) × List Value)) : Prop :=
  ∀ m number items, m.cells iterator = some (.iterator number) →
    m.iterators[number]? = some items →
      match reference items with
      | some (bindings, left) =>
        u.Runs first next m { m with iterators := m.iterators.set number left } (some bindings)
      | none => Raises u.statements m

/-- The element of a pattern that is one name. -/
theorem takesApart_name {source : IR.Expr} {v : VariableId} {first next number : Nat}
    {name : String} (hfirst : first ≤ v.index) (hnext : v.index < next) :
    Unpacking.TakesApart ⟨[.assignVariable v source], [.var v], number⟩ source first next
      fun value => some [(name, value)] := by
  refine ⟨fun m m' error h => raises_assign h, fun m m' value h => ?_⟩
  refine ⟨m'.set v (.value value), exec_assign_ok h, ?_, ?_⟩
  · exact (Machine.Keeps.refl first _).set hfirst
  · exact Yields.single hnext (if_pos rfl)

/-- The check behind the elements of a tuple. -/
theorem exec_checkExhausted (count : Nat) {m : Machine} {iterator : VariableId} {number : Nat}
    {items : List Value} (hv : m.cells iterator = some (.iterator number))
    (hi : m.iterators[number]? = some items) :
    if items.isEmpty then execStmts [.checkExhausted (.var iterator) count] m = .ok () m
    else Raises [.checkExhausted (.var iterator) count] m := by
  have hread : evalExpr (.var iterator) m = .ok (.iterator number) m :=
    Exec.read_of_cell hv
  have hrun : execStmts [.checkExhausted (.var iterator) count] m =
      Exec.exhausted count (.iterator number) m := by
    rw [execStmts_single, execStmt, exec_bind_ok hread]
  cases items with
  | nil =>
    show execStmts _ m = _
    rw [hrun]
    simp [Exec.exhausted, hi]
  | cons item rest =>
    show Raises _ m
    exact ⟨.tooMany count, m, by rw [hrun]; simp [Exec.exhausted, hi]⟩

/-- Starting to iterate adds an iterator with all the items, and the variable refers to it. -/
theorem exec_startIteration {source : IR.Expr} (iterator : VariableId) {m m' : Machine}
    {items : List Value} (hvalue : evalExpr source m = .ok (.value (.iterable items)) m') :
    ∃ started, execStmts [.assignVariable iterator (.iterator source)] m = .ok () started ∧
      started.cells iterator = some (.iterator m'.iterators.length) ∧
      started.iterators = m'.iterators ++ [items] ∧ m'.Keeps iterator.index started := by
  let entered : Machine := { m' with iterators := m'.iterators ++ [items] }
  refine ⟨entered.set iterator (.iterator m'.iterators.length), ?_, if_pos rfl, rfl,
    Machine.Keeps.set ⟨fun _ _ => rfl, List.prefix_append _ _⟩ (Nat.le_refl _)⟩
  apply exec_assign_ok
  rw [evalExpr, exec_bind_ok hvalue]
  rfl

/-- **A tuple is taken apart when its elements are**: an iterator is made, the elements use up a
part of it, and the check behind them wants that part to be everything. -/
theorem Unpacking.Consumes.tuple {u : Unpacking} {source : IR.Expr} {iterator : VariableId}
    {first next : Nat} {spell : String → String} {elements : List Pattern}
    (h : u.Consumes iterator (first + 1) next (assignPrefix spell elements))
    (hiterator : iterator.index = first) (count number : Nat) :
    Unpacking.TakesApart
      ⟨.assignVariable iterator (.iterator source) :: u.statements ++
        [.checkExhausted (.var iterator) count], u.accesses, number⟩
      source first next (Pattern.assign spell (.tuple elements)) := by
  constructor
  · intro m m' error herror
    have hstart : Raises [.assignVariable iterator (.iterator source)] m :=
      raises_assign (by rw [evalExpr, exec_bind_error herror])
    exact hstart.append _
  · intro m m' value hvalue
    cases value with
    | atom id =>
      have hstart : Raises [.assignVariable iterator (.iterator source)] m :=
        raises_assign (by rw [evalExpr, exec_bind_ok hvalue]; rfl)
      exact hstart.append _
    | iterable items =>
      obtain ⟨started, hstart, hcell, hiterators, hentered⟩ :=
        exec_startIteration iterator hvalue
      have helements := h started _ items hcell (by simp [hiterators])
      show Unpacking.Runs _ first next m m' (assignAll spell elements items)
      show Unpacking.Runs ⟨[_] ++ (u.statements ++ _), u.accesses, number⟩ first next m m' _
      rw [assignAll_of_assignPrefix]
      cases hleading : assignPrefix spell elements items with
      | none =>
        rw [hleading] at helements
        exact Raises.append_right hstart (helements.append _)
      | some found =>
        obtain ⟨bindings, left⟩ := found
        rw [hleading] at helements
        obtain ⟨m₂, hrun, hkeeps, hyields⟩ := helements
        have hleft : m₂.iterators[m'.iterators.length]? = some left :=
          getElem?_of_isPrefix hkeeps.iterators (by simp [hiterators])
        have hcell₂ : m₂.cells iterator = some (.iterator m'.iterators.length) :=
          (hkeeps.cells iterator (hiterator ▸ Nat.lt_succ_self _)).trans hcell
        have hcheck := exec_checkExhausted count hcell₂ hleft
        cases left with
        | cons item rest =>
          exact Raises.append_right hstart (Raises.append_right hrun hcheck)
        | nil =>
          refine ⟨m₂, ?_, ⟨fun v hv => ?_, ?_⟩, hyields⟩
          · show execStmts ([_] ++ (u.statements ++ _)) m = _
            rw [execStmts_append_ok hstart, execStmts_append_ok hrun]
            exact hcheck
          · rw [hkeeps.cells v (Nat.lt_succ_of_lt hv)]
            exact hentered.cells v (hiterator ▸ hv)
          · refine List.IsPrefix.trans ?_ hkeeps.iterators
            simp [hiterators]

/-- No elements are taken from an iterator. -/
theorem consumes_nil {iterator : VariableId} {bound number : Nat} {spell : String → String} :
    Unpacking.Consumes ⟨[], [], number⟩ iterator bound bound (assignPrefix spell []) := by
  intro m k items hcell hitems
  refine ⟨m, rfl, ⟨fun _ _ => rfl, ?_⟩, Yields.nil⟩
  show m.iterators.set k items <+: m.iterators
  obtain ⟨hk, hget⟩ := List.getElem?_eq_some_iff.1 hitems
  have hset : m.iterators.set k items = m.iterators := hget ▸ List.set_getElem_self hk
  exact ⟨[], by rw [List.append_nil, hset]⟩

/-- One element is taken from an iterator, then the others. -/
theorem Unpacking.TakesApart.consumes {head tail : Unpacking} {iterator : VariableId}
    {first middle next count expected number : Nat} {spell : String → String}
    {pattern : Pattern} {rest : List Pattern}
    (hhead : head.TakesApart (.unpack (.var iterator) count expected) first middle
      (pattern.assign spell))
    (htail : tail.Consumes iterator middle next (assignPrefix spell rest))
    (hiterator : iterator.index < first) (hfirst : first ≤ middle) (hmiddle : middle ≤ next) :
    Unpacking.Consumes
      ⟨head.statements ++ tail.statements, head.accesses ++ tail.accesses, number⟩
      iterator first next (assignPrefix spell (pattern :: rest)) := by
  intro m k items hcell hitems
  have hread : evalExpr (.var iterator) m = .ok (.iterator k) m := Exec.read_of_cell hcell
  have hsource : evalExpr (.unpack (.var iterator) count expected) m =
      Exec.next count expected (.iterator k) m := by
    rw [evalExpr, exec_bind_ok hread]
  cases items with
  | nil =>
    have hraise : Raises head.statements m :=
      hhead.1 m m (.tooFew count expected) (by rw [hsource]; simp [Exec.next, hitems])
    exact hraise.append _
  | cons item items =>
    have hlt : k < m.iterators.length := (List.getElem?_eq_some_iff.1 hitems).1
    have hrun := hhead.2 m { m with iterators := m.iterators.set k items } item
      (by rw [hsource]; simp [Exec.next, hitems])
    rw [assignPrefix]
    cases hassign : pattern.assign spell item with
    | none =>
      rw [hassign] at hrun
      exact Raises.append hrun _
    | some bindings =>
      rw [hassign] at hrun
      obtain ⟨m₂, hexec, hkeeps, hyields⟩ := hrun
      have hcell₂ : m₂.cells iterator = some (.iterator k) := by
        rw [hkeeps.cells iterator hiterator]
        exact hcell
      have hleft := htail m₂ k items hcell₂ (getElem?_of_isPrefix hkeeps.iterators (by simp [hlt]))
      cases hrest : assignPrefix spell rest items with
      | none =>
        rw [hrest] at hleft
        exact Raises.append_right hexec hleft
      | some found =>
        obtain ⟨more, left⟩ := found
        rw [hrest] at hleft
        obtain ⟨m₃, hexec', hkeeps', hyields'⟩ := hleft
        refine ⟨m₃, ?_, ⟨fun v hv => ?_, ?_⟩, ?_⟩
        · rw [execStmts_append_ok hexec]
          exact hexec'
        · rw [hkeeps'.cells v (by omega)]
          exact hkeeps.cells v hv
        · refine List.IsPrefix.trans ?_ hkeeps'.iterators
          have hset := set_prefix_set (x := left) hkeeps.iterators (by simpa using hlt)
          simpa using hset
        · rw [List.map_append]
          exact (hyields.of_cells hkeeps'.cells hmiddle).append hyields'

open Surface (patternsScratch)

mutual

/-- **Running the code of a pattern gives the names inside it the values they match, and raises
when the value has another shape.** -/
theorem unpack_run (spell : String → String) : ∀ (pattern : Pattern) (source : IR.Expr)
    (number : Nat) (s : Store), s.CanScratch b →
      Ends (unpack b source number pattern) s
        (fun u s' => u.TakesApart source s.vars.size s'.vars.size (pattern.assign spell))
        (fun _ _ => True)
  | .name param, source, number, s, hs => by
    rw [unpack, ends_bind, ends_spell, ends_bind]
    refine (newTemporary_store _).weaken ?_ fun _ _ _ => trivial
    rintro v s' ⟨rfl, rfl⟩
    rw [ends_pure]
    exact takesApart_name (Nat.le_refl _) (by simp)
  | .tuple elements, source, number, s, hs => by
    rw [unpack, ends_bind]
    refine (newTemporary_store _).weaken ?_ fun _ _ _ => trivial
    rintro v s' ⟨rfl, rfl⟩
    rw [ends_bind]
    refine (unpackElements_run spell elements _ _ _ _ _ (hs.withTemporaries _) (by simp)).weaken ?_
      fun _ _ _ => trivial
    intro u s' hu
    rw [IR.Store.size_vars_withTemporaries] at hu
    exact hu.tuple rfl _ _

theorem unpackElements_run (spell : String → String) :
    ∀ (patterns : List Pattern) (iterator : VariableId)
    (expected count number : Nat) (s : Store), s.CanScratch b → iterator.index < s.vars.size →
      Ends (unpackElements b iterator expected count number patterns) s
        (fun u s' => u.Consumes iterator s.vars.size s'.vars.size (assignPrefix spell patterns))
        (fun _ _ => True)
  | [], iterator, expected, count, number, s, hs, hi => by
    rw [unpackElements, ends_pure]
    exact consumes_nil
  | first :: rest, iterator, expected, count, number, s, hs, hi => by
    rw [unpackElements, ends_bind]
    refine ((unpack_store first _ number s hs).and (unpack_run spell first _ number s hs)).weaken ?_
      fun _ _ _ => trivial
    rintro head s₁ ⟨⟨rfl, -⟩, hhead⟩
    have hi₁ : iterator.index <
        (s.withTemporaries b (first.scratch (s.spell b) number)).vars.size := by
      rw [IR.Store.size_vars_withTemporaries]
      omega
    rw [ends_bind]
    refine ((unpackElements_store rest iterator expected _ _ _ (hs.withTemporaries _)).and
      (unpackElements_run spell rest iterator _ _ _ _ (hs.withTemporaries _) hi₁)).weaken ?_
      fun _ _ _ => trivial
    rintro tail s₂ ⟨⟨rfl, -⟩, htail⟩
    rw [ends_pure]
    exact hhead.consumes htail hi (by simp) (by simp)

end

/-! ## Taking the parameters apart -/

/-- The parameters of the wrapper hold the arguments of a call. -/
def Holds (s : Store) (b : BodyId) (m : Machine) (slots : List PositionalSlot)
    (args : List Value) : Prop :=
  List.Forall₂ (fun slot arg => ∃ v, s.find? b slot.name = some v ∧
    m.cells v = some (.value arg)) slots args

/-- Filling new variables leaves the parameters alone. -/
theorem Holds.keeps {s : Store} {m m' : Machine} {slots : List PositionalSlot}
    {args : List Value} (h : Holds s b m slots args)
    (hvis : ∀ v ∈ s.visible b, v.index < s.vars.size) (hm : m.Keeps s.vars.size m') :
    Holds s b m' slots args := by
  refine List.Forall₂.imp ?_ h
  rintro slot arg ⟨v, hv, hcell⟩
  refine ⟨v, hv, ?_⟩
  rw [hm.cells v (hvis v (IR.Store.find?_eq_some hv).1)]
  exact hcell

theorem Holds.withTemporaries {s : Store} {m : Machine} {slots : List PositionalSlot}
    {args : List Value} {names : List String} (h : Holds s b m slots args)
    (hvis : ∀ v ∈ s.visible b, v.index < s.vars.size) :
    Holds (s.withTemporaries b names) b m slots args := by
  refine List.Forall₂.imp ?_ h
  rintro slot arg ⟨v, hv, hcell⟩
  refine ⟨v, ?_, hcell⟩
  rw [IR.Store.find?_withTemporaries hvis]
  exact hv

/-- The names of one parameter, then those of the others, if all of them have values. -/
def joinBindings : Option (List (String × Value)) → Option (List (String × Value)) →
    Option (List (String × Value))
  | some bindings, some more => some (bindings ++ more)
  | _, _ => none

theorem assignAll_cons {spell : String → String} {pattern : Pattern} {rest : List Pattern}
    {value : Value} {values : List Value} :
    assignAll spell (pattern :: rest) (value :: values) =
      joinBindings (pattern.assign spell value) (assignAll spell rest values) := by
  rw [assignAll]
  cases pattern.assign spell value <;> cases assignAll spell rest values <;> rfl

/-- One parameter is taken apart, then the others. -/
theorem Unpacking.Runs.append {head tail : Unpacking} {first middle next number : Nat}
    {m : Machine} {result result' : Option (List (String × Value))}
    (hhead : head.Runs first middle m m result)
    (htail : ∀ m', m.Keeps first m' → tail.Runs middle next m' m' result')
    (hfirst : first ≤ middle) (hmiddle : middle ≤ next) :
    Unpacking.Runs ⟨head.statements ++ tail.statements, head.accesses ++ tail.accesses, number⟩
      first next m m (joinBindings result result') := by
  cases result with
  | none => exact Raises.append hhead _
  | some bindings =>
    obtain ⟨m₁, hexec, hkeeps, hyields⟩ := hhead
    have hrest := htail m₁ hkeeps
    cases result' with
    | none => exact Raises.append_right hexec hrest
    | some more =>
      obtain ⟨m₂, hexec', hkeeps', hyields'⟩ := hrest
      refine ⟨m₂, ?_, hkeeps.trans hkeeps' hfirst, ?_⟩
      · rw [execStmts_append_ok hexec]
        exact hexec'
      · rw [List.map_append]
        exact (hyields.of_cells hkeeps'.cells hmiddle).append hyields'

/-- A parameter that is no tuple is passed on as it is. -/
theorem runs_var {s : Store} {m : Machine} {v : VariableId} {name spelled : String}
    {arg : Value} (number : Nat) (hvis : ∀ v ∈ s.visible b, v.index < s.vars.size)
    (hv : s.find? b name = some v) (hcell : m.cells v = some (.value arg)) :
    Unpacking.Runs ⟨[], [.var v], number⟩ s.vars.size s.vars.size m m (some [(spelled, arg)]) :=
  ⟨m, rfl, .refl _ m, .single (hvis v (IR.Store.find?_eq_some hv).1) hcell⟩

/-- Code, made between two stores, that takes the parameters of a wrapper apart: if they hold the
arguments of a call, the names in the patterns get their values. -/
def Unpacking.TakesSlots (u : Unpacking) (s s' : Store) (b : BodyId) (spell : String → String)
    (slots : List PositionalSlot) (patterns : List Pattern) : Prop :=
  s.vars.size ≤ s'.vars.size ∧ ∀ m args, Holds s b m slots args →
    u.Runs s.vars.size s'.vars.size m m (assignAll spell patterns args)

/-- One parameter is taken apart with new temporaries, and then the others. -/
theorem Unpacking.TakesSlots.cons {head tail : Unpacking} {s s' : Store} {v : VariableId}
    {spell : String → String} {slot : PositionalSlot} {slots : List PositionalSlot}
    {pattern : Pattern} {patterns : List Pattern} (names : List String) (number : Nat)
    (hvis : ∀ v ∈ s.visible b, v.index < s.vars.size) (hv : s.find? b slot.name = some v)
    (hhead : ∀ m arg, m.cells v = some (.value arg) →
      head.Runs s.vars.size (s.withTemporaries b names).vars.size m m (pattern.assign spell arg))
    (htail : tail.TakesSlots (s.withTemporaries b names) s' b spell slots patterns) :
    Unpacking.TakesSlots
      ⟨head.statements ++ tail.statements, head.accesses ++ tail.accesses, number⟩
      s s' b spell (slot :: slots) (pattern :: patterns) := by
  obtain ⟨hle, htail⟩ := htail
  refine ⟨Nat.le_trans IR.Store.size_vars_le_withTemporaries hle, fun m args hargs => ?_⟩
  cases hargs with
  | cons hslot hrest =>
    obtain ⟨w, hw, hcell⟩ := hslot
    obtain rfl : v = w := Option.some_inj.1 (hv.symm.trans hw)
    rw [assignAll_cons]
    exact (hhead m _ hcell).append
      (fun m' hm' => htail m' _ ((Holds.keeps hrest hvis hm').withTemporaries hvis))
      IR.Store.size_vars_le_withTemporaries hle

/-- **Running the code that takes the parameters of a wrapper apart gives the delegate's
parameters their values, and raises when an argument has the wrong shape.** -/
theorem unpackSlots_run (placeholders : List Placeholder) (spell : String → String) :
    ∀ (patterns : List Pattern) (position number : Nat) (s : Store), s.CanScratch b →
      (∀ v ∈ s.visible b, v.index < s.vars.size) →
      (∀ slot ∈ PositionalSlot.ofPatterns spell position patterns,
        Placeholder.elementsOf? placeholders slot.name = slot.elements) →
      Ends (unpackSlots b placeholders number
          ((PositionalSlot.ofPatterns spell position patterns).map PositionalSlot.name)) s
        (fun u s' => u.TakesSlots s s' b spell
          (PositionalSlot.ofPatterns spell position patterns) patterns)
        (fun _ _ => True)
  | [], position, number, s, hs, hvis, hslots => by
    rw [PositionalSlot.ofPatterns, List.map_nil, unpackSlots, ends_pure]
    refine ⟨Nat.le_refl _, fun m args hargs => ?_⟩
    cases hargs
    exact ⟨m, rfl, .refl _ m, Yields.nil⟩
  | .name param :: rest, position, number, s, hs, hvis, hslots => by
    have helem := hslots _ List.mem_cons_self
    rw [PositionalSlot.ofPatterns, List.map_cons, unpackSlots, ends_bind, slotVariable,
      ends_bind, ends_query]
    cases hv : s.find? b (spell param.name) with
    | none => trivial
    | some v =>
      dsimp only
      rw [ends_pure, helem]
      dsimp only
      rw [ends_bind, ends_pure, ends_bind]
      refine (unpackSlots_run placeholders spell rest position number s hs hvis
        fun slot h => hslots slot (List.mem_cons_of_mem _ h)).weaken ?_ fun _ _ _ => trivial
      intro tail s' htail
      refine .cons [] _ hvis hv (fun m arg hcell => ?_)
        (IR.Store.withTemporaries_nil.symm ▸ htail)
      rw [IR.Store.withTemporaries_nil]
      exact runs_var number hvis hv hcell
  | .tuple elements :: rest, position, number, s, hs, hvis, hslots => by
    have helem := hslots _ List.mem_cons_self
    rw [PositionalSlot.ofPatterns, List.map_cons, unpackSlots, ends_bind, slotVariable,
      ends_bind, ends_query]
    cases hv : s.find? b (placeholderName position) with
    | none => trivial
    | some v =>
      dsimp only
      rw [ends_pure, helem]
      dsimp only
      rw [ends_bind]
      refine ((unpack_store (.tuple elements) _ number s hs).and
        (unpack_run spell (.tuple elements) _ number s hs)).weaken ?_ fun _ _ _ => trivial
      rintro head s₁ ⟨⟨rfl, -⟩, hhead⟩
      rw [ends_bind]
      refine (unpackSlots_run placeholders spell rest (position + 1) _ _ (hs.withTemporaries _) ?_
        fun slot h => hslots slot (List.mem_cons_of_mem _ h)).weaken ?_ fun _ _ _ => trivial
      · intro w hw
        exact Nat.lt_of_lt_of_le (hvis w (IR.Store.visible_withTemporaries ▸ hw))
          IR.Store.size_vars_le_withTemporaries
      · exact fun tail s₂ htail => .cons _ _ hvis hv
          (fun m arg hcell => hhead.2 m m arg (Exec.read_of_cell hcell)) htail

end Lowering

end DefinitionLowering
