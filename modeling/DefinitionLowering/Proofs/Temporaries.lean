import DefinitionLowering.Proofs.Growth
import DefinitionLowering.Proofs.Outcome
import DefinitionLowering.Proofs.ParameterLaws

/-!
# The temporaries of a wrapper

`Store.withTemporaries` adds temporaries to one body and changes nothing else; taking tuple
parameters apart does exactly that to the store (`unpack_store`, `unpackSlots_store`).  The
names follow from the patterns alone: `Pattern.scratch` lists them in the order in which they
are made, one iterator `arg_iter_k` for each tuple and one element `tmp_x` for each leaf.

Main statement: `scratch_nodup`, the names are distinct whenever the leaves are, so no
temporary is ever refused.
-/

namespace DefinitionLowering

open IR (BodyId VariableId Store)
open Surface (Pattern Param Params)

/-! ## Adding temporaries -/

namespace IR.Store

/-- The store with more variables. -/
def pushVariables (s : Store) (declared : List Variable) : Store :=
  { s with vars := s.vars ++ declared.toArray }

/-- The store with more temporaries of one body. -/
def withTemporaries (s : Store) (b : BodyId) (names : List String) : Store :=
  (s.pushVariables (names.map fun name => ⟨name, b, .temporary⟩)).modifyBody b fun body =>
    { body with
      temporaries :=
        body.temporaries ++ (List.range' s.vars.size names.length).map VariableId.mk }

variable {s : Store} {b c : BodyId} {v : VariableId} {name : String} {names more : List String}

theorem pushVariables_modifyBody {declared : List Variable} {f : Body → Body} :
    (s.modifyBody b f).pushVariables declared = (s.pushVariables declared).modifyBody b f := rfl

theorem pushVariables_append {declared declared' : List Variable} :
    (s.pushVariables declared).pushVariables declared' =
      s.pushVariables (declared ++ declared') := by
  simp [pushVariables]

@[simp] theorem size_bodies_withTemporaries :
    (s.withTemporaries b names).bodies.size = s.bodies.size := by
  simp [withTemporaries, pushVariables]

@[simp] theorem size_vars_withTemporaries :
    (s.withTemporaries b names).vars.size = s.vars.size + names.length := by
  simp [withTemporaries, pushVariables]

theorem size_vars_le_withTemporaries : s.vars.size ≤ (s.withTemporaries b names).vars.size := by
  simp

theorem body_withTemporaries_self (h : b.index < s.bodies.size) :
    (s.withTemporaries b names).body b =
      { s.body b with
        temporaries :=
          s.temporaries b ++ (List.range' s.vars.size names.length).map VariableId.mk } :=
  body_modifyBody_self h

theorem body_withTemporaries_ne (h : b ≠ c) : (s.withTemporaries b names).body c = s.body c :=
  body_modifyBody_ne h

/-- Whatever does not look at temporaries is the same for every body. -/
theorem body_withTemporaries_view {α : Type} (view : Body → α)
    (h : ∀ body temporaries, view { body with temporaries := temporaries } = view body) :
    view ((s.withTemporaries b names).body c) = view (s.body c) := by
  unfold withTemporaries
  rw [body_modifyBody]
  split
  · exact h _ _
  · rfl

theorem var_withTemporaries_of_lt (h : v.index < s.vars.size) :
    (s.withTemporaries b names).var v = s.var v := by
  simp [withTemporaries, pushVariables, var, Array.getD_eq_getD_getElem?, Array.getElem?_append, h]

theorem var_withTemporaries_new {i : Nat} (h : i < names.length) :
    (s.withTemporaries b names).var ⟨s.vars.size + i⟩ = ⟨names[i], b, .temporary⟩ := by
  simp [withTemporaries, pushVariables, var, Array.getD_eq_getD_getElem?, h]

/-- The variables that are added are temporaries of the body. -/
theorem var_withTemporaries_of_le (hlow : s.vars.size ≤ v.index)
    (hhigh : v.index < (s.withTemporaries b names).vars.size) :
    ∃ name ∈ names, (s.withTemporaries b names).var v = ⟨name, b, .temporary⟩ := by
  obtain ⟨i, hi⟩ := Nat.exists_eq_add_of_le hlow
  have hlt : i < names.length := by
    rw [size_vars_withTemporaries] at hhigh
    omega
  refine ⟨names[i], List.getElem_mem hlt, ?_⟩
  rw [show v = ⟨s.vars.size + i⟩ from congrArg VariableId.mk hi, var_withTemporaries_new hlt]

theorem mem_temporaries_withTemporaries (hb : b.index < s.bodies.size) :
    v ∈ (s.withTemporaries b names).temporaries b ↔ v ∈ s.temporaries b ∨
      s.vars.size ≤ v.index ∧ v.index < (s.withTemporaries b names).vars.size := by
  rw [temporaries, body_withTemporaries_self hb, size_vars_withTemporaries]
  refine List.mem_append.trans (or_congr_right ?_)
  rw [List.mem_map]
  constructor
  · rintro ⟨i, hi, rfl⟩
    exact List.mem_range'_1.1 hi
  · exact fun h => ⟨v.index, List.mem_range'_1.2 h, rfl⟩

theorem withTemporaries_nil : s.withTemporaries b [] = s := by
  unfold withTemporaries
  rw [modifyBody_same fun body => by simp]
  simp [pushVariables]

theorem withTemporaries_append :
    (s.withTemporaries b names).withTemporaries b more = s.withTemporaries b (names ++ more) := by
  have hrange : List.range' s.vars.size (names ++ more).length =
      List.range' s.vars.size names.length ++
        List.range' (s.vars.size + names.length) more.length := by
    rw [List.length_append, List.range'_append_1]
  conv_lhs => rw [withTemporaries, size_vars_withTemporaries, withTemporaries,
    pushVariables_modifyBody, pushVariables_append, modifyBody_modifyBody]
  rw [withTemporaries, hrange]
  simp only [List.map_append, List.append_assoc]

/-- The names of the temporaries of a body. -/
def temporaryNames (s : Store) (b : BodyId) : List String :=
  (s.temporaries b).map fun v => (s.var v).name

theorem hasTemporary_iff : s.hasTemporary b name = true ↔ name ∈ s.temporaryNames b := by
  simp [hasTemporary, temporaryNames]

theorem addTemporary_eq (h : name ∉ s.temporaryNames b) :
    s.addTemporary b name = .ok (⟨s.vars.size⟩, s.withTemporaries b [name]) := by
  have hnew : s.hasTemporary b name = false := by
    rw [← Bool.not_eq_true, hasTemporary_iff]
    exact h
  rw [addTemporary_ok hnew]
  simp [withTemporaries, pushVariable, pushVariables, modifyBody]

/-- New temporaries join the names of the old ones, which are all known variables. -/
theorem temporaryNames_withTemporaries (hb : b.index < s.bodies.size)
    (hold : ∀ v ∈ s.temporaries b, v.index < s.vars.size) :
    (s.withTemporaries b names).temporaryNames b = s.temporaryNames b ++ names := by
  unfold temporaryNames temporaries
  rw [body_withTemporaries_self hb, List.map_append]
  congr 1
  · exact List.map_congr_left fun v hv => by rw [var_withTemporaries_of_lt (hold v hv)]
  · refine List.ext_getElem (by simp) fun i hi hi' => ?_
    simp [var_withTemporaries_new hi']

/-- Spelling looks at kinds, names and providers only. -/
theorem spell_congr {s' : Store} (hsize : s'.bodies.size = s.bodies.size)
    (hkind : ∀ c, (s'.body c).kind = (s.body c).kind)
    (hprovider : ∀ c, (s'.body c).provider = (s.body c).provider)
    (hname : ∀ c, (s'.body c).name = (s.body c).name) : s'.spell b name = s.spell b name := by
  have hproviders : ∀ limit c, s'.providers limit c = s.providers limit c := by
    intro limit
    induction limit with
    | zero => intro c; rfl
    | succ limit ih => intro c; simp only [providers, hprovider, ih]
  have hclass : s'.classOf? b = s.classOf? b := by
    have hfilter : s'.isClass = s.isClass := funext fun c => by rw [isClass, hkind, isClass]
    have hmodule : s'.isModule = s.isModule := funext fun c => by rw [isModule, hkind, isModule]
    simp only [classOf?, ancestors, hsize, hproviders, hfilter, hmodule]
  simp only [spell, hclass, hname]

@[simp] theorem spell_withTemporaries :
    (s.withTemporaries b names).spell c name = s.spell c name :=
  spell_congr (by simp) (fun _ => body_withTemporaries_view Body.kind fun _ _ => rfl)
    (fun _ => body_withTemporaries_view Body.provider fun _ _ => rfl)
    (fun _ => body_withTemporaries_view Body.name fun _ _ => rfl)

theorem spell_withTemporaries_fun :
    (s.withTemporaries b names).spell c = s.spell c :=
  funext fun _ => spell_withTemporaries

@[simp] theorem visible_withTemporaries :
    (s.withTemporaries b names).visible c = s.visible c :=
  body_withTemporaries_view Body.visible fun _ _ => rfl

theorem find?_withTemporaries (h : ∀ v ∈ s.visible c, v.index < s.vars.size) :
    (s.withTemporaries b names).find? c name = s.find? c name :=
  find?_congr visible_withTemporaries fun w hw => var_withTemporaries_of_lt (h w hw)

theorem Grows.withTemporaries {n : Nat} (hb : n ≤ b.index) :
    Grows n s (s.withTemporaries b names) where
  bodies := by simp
  vars := size_vars_le_withTemporaries
  var v hv := var_withTemporaries_of_lt hv
  plan c _ := body_withTemporaries_view Body.plan fun _ _ => rfl
  visible _ := visible_withTemporaries ▸ List.prefix_rfl
  code c block hc := by
    rw [body_withTemporaries_view Body.code fun _ _ => rfl]
    exact hc
  unseen c hc := by
    rw [body_withTemporaries_ne fun he => by
      subst he
      omega]

/-- A body whose temporaries are variables of the store. -/
structure CanScratch (s : Store) (b : BodyId) : Prop where
  created : b.index < s.bodies.size
  known : ∀ v ∈ s.temporaries b, v.index < s.vars.size

theorem CanScratch.withTemporaries (h : s.CanScratch b) (names : List String) :
    (s.withTemporaries b names).CanScratch b := by
  refine ⟨by simpa using h.created, fun v hv => ?_⟩
  rcases (mem_temporaries_withTemporaries h.created).1 hv with hv | ⟨-, hhigh⟩
  · exact Nat.lt_of_lt_of_le (h.known v hv) size_vars_le_withTemporaries
  · exact hhigh

end IR.Store

/-! ## The temporaries of a pattern -/

namespace Surface

variable (spell : String → String)

mutual

/-- How many tuples a pattern has, at all levels. -/
def Pattern.tuples : Pattern → Nat
  | .name _ => 0
  | .tuple elements => patternsTuples elements + 1

def patternsTuples : List Pattern → Nat
  | [] => 0
  | first :: rest => first.tuples + patternsTuples rest

end

mutual

/-- The names of the temporaries that take a pattern apart; the next iterator gets the given
number. -/
def Pattern.scratch (number : Nat) : Pattern → List String
  | .name param => ["tmp_" ++ spell param.name]
  | .tuple elements => ("arg_iter_" ++ number.repr) :: patternsScratch (number + 1) elements

def patternsScratch (number : Nat) : List Pattern → List String
  | [] => []
  | first :: rest => first.scratch number ++ patternsScratch (number + first.tuples) rest

end

/-- The names of iterators, counted from a number on. -/
def iteratorNames (number count : Nat) : List String :=
  (List.range' number count).map fun n => "arg_iter_" ++ n.repr

mutual

theorem scratch_perm (number : Nat) : ∀ pattern : Pattern,
    (pattern.scratch spell number).Perm
      (iteratorNames number pattern.tuples ++
        pattern.leaves.map fun leaf => "tmp_" ++ spell leaf.name)
  | .name param => by simp [Pattern.scratch, Pattern.tuples, Pattern.leaves, iteratorNames]
  | .tuple elements => by
    have ih := patternsScratch_perm (number + 1) elements
    simp only [Pattern.scratch, Pattern.tuples, Pattern.leaves, iteratorNames, List.range'_succ,
      List.map_cons, List.cons_append]
    exact ih.cons _

theorem patternsScratch_perm (number : Nat) : ∀ patterns : List Pattern,
    (patternsScratch spell number patterns).Perm
      (iteratorNames number (patternsTuples patterns) ++
        (patternLeaves patterns).map fun leaf => "tmp_" ++ spell leaf.name)
  | [] => by simp [patternsScratch, patternsTuples, patternLeaves, iteratorNames]
  | first :: rest => by
    have hfirst := scratch_perm number first
    have hrest := patternsScratch_perm (number + first.tuples) rest
    have hsplit : iteratorNames number (patternsTuples (first :: rest)) =
        iteratorNames number first.tuples ++
          iteratorNames (number + first.tuples) (patternsTuples rest) := by
      simp only [iteratorNames, patternsTuples, ← List.map_append, List.range'_append_1]
    rw [hsplit, patternsScratch, patternLeaves, List.map_append]
    refine (hfirst.append hrest).trans ?_
    rw [List.append_assoc, List.append_assoc]
    refine List.Perm.append_left _ ?_
    rw [← List.append_assoc, ← List.append_assoc]
    exact List.perm_append_comm.append_right _

end

theorem iteratorNames_nodup (number count : Nat) : (iteratorNames number count).Nodup :=
  (List.nodup_range' 1).map fun _ _ h => repr_injective (String.append_right_inj _ |>.1 h)

/-- An iterator is never called like an element. -/
theorem iteratorName_ne (n : Nat) (leaf : String) : "arg_iter_" ++ n.repr ≠ "tmp_" ++ leaf := by
  intro h
  have := congrArg String.toList h
  simp at this

/-- **Temporaries have distinct names when the leaves have.** -/
theorem scratch_nodup {number : Nat} {patterns : List Pattern}
    (h : ((patternLeaves patterns).map fun leaf => spell leaf.name).Nodup) :
    (patternsScratch spell number patterns).Nodup := by
  rw [(patternsScratch_perm spell number patterns).nodup_iff, List.nodup_append]
  refine ⟨iteratorNames_nodup _ _, ?_, ?_⟩
  · have hmap : ((patternLeaves patterns).map fun leaf => "tmp_" ++ spell leaf.name) =
        ((patternLeaves patterns).map fun leaf => spell leaf.name).map ("tmp_" ++ ·) := by
      simp
    rw [hmap]
    exact h.map fun _ _ he => String.append_right_inj _ |>.1 he
  · intro a ha b hb
    obtain ⟨n, -, rfl⟩ := List.mem_map.1 ha
    obtain ⟨leaf, -, rfl⟩ := List.mem_map.1 hb
    exact iteratorName_ne n _

end Surface

/-! ## The temporaries of a lowered pattern -/

namespace Lowering

open Surface (patternsScratch patternsTuples)

variable {b : BodyId} {s : Store}

theorem newTemporary_store (name : String) :
    Ends (newTemporary b name) s
      (fun v s' => v = ⟨s.vars.size⟩ ∧ s' = s.withTemporaries b [name])
      (fun _ _ => name ∈ s.temporaryNames b) := by
  unfold newTemporary
  rw [ends_bind, ends_tryQuery]
  constructor
  · intro value hvalue
    have hnew : name ∉ s.temporaryNames b := by
      rw [← IR.Store.hasTemporary_iff, (IR.Store.addTemporary_eq_ok hvalue).1]
      decide
    rw [IR.Store.addTemporary_eq hnew] at hvalue
    cases hvalue
    exact ⟨rfl, rfl⟩
  · intro fault hfault
    refine Classical.byContradiction fun hnew => ?_
    rw [IR.Store.addTemporary_eq hnew] at hfault
    cases hfault

/-- The new names clash with each other or with the temporaries there are. -/
def Clash (s : Store) (b : BodyId) (names : List String) : Prop :=
  ¬(s.temporaryNames b ++ names).Nodup

theorem Clash.of_mem {name : String} {names : List String} (h : name ∈ s.temporaryNames b) :
    Clash s b (name :: names) := by
  intro hn
  exact (List.nodup_append.1 hn).2.2 name h name List.mem_cons_self rfl

theorem Clash.append_left {names more : List String} (h : Clash s b names) :
    Clash s b (names ++ more) := by
  intro hn
  rw [← List.append_assoc] at hn
  exact h (List.nodup_append.1 hn).1

theorem Clash.append_right {names more : List String} (hs : s.CanScratch b)
    (h : Clash (s.withTemporaries b names) b more) : Clash s b (names ++ more) := by
  unfold Clash at *
  rw [IR.Store.temporaryNames_withTemporaries hs.created hs.known, List.append_assoc] at h
  exact h

mutual

/-- **Taking a pattern apart makes its temporaries, in order, and changes nothing else.** -/
theorem unpack_store : ∀ (pattern : Pattern) (source : IR.Expr) (number : Nat) (s : Store),
    s.CanScratch b →
      Ends (unpack b source number pattern) s
        (fun u s' => s' = s.withTemporaries b (pattern.scratch (s.spell b) number) ∧
          u.iterators = number + pattern.tuples)
        (fun _ _ => Clash s b (pattern.scratch (s.spell b) number))
  | .name param, source, number, s, hs => by
    rw [unpack, ends_bind, ends_spell, ends_bind]
    refine (newTemporary_store _).weaken ?_ fun _ _ h => Clash.of_mem h
    rintro v s' ⟨-, rfl⟩
    exact ⟨rfl, rfl⟩
  | .tuple elements, source, number, s, hs => by
    rw [unpack, ends_bind]
    refine (newTemporary_store _).weaken ?_ fun _ _ h => Clash.of_mem h
    rintro v s' ⟨rfl, rfl⟩
    rw [ends_bind]
    refine (unpackElements_store elements _ _ _ _ _ (hs.withTemporaries _)).weaken ?_
      fun _ _ h => ?_
    · rintro u s' ⟨rfl, hu⟩
      refine ⟨?_, ?_⟩
      · rw [IR.Store.withTemporaries_append, Pattern.scratch, IR.Store.spell_withTemporaries_fun]
        rfl
      · show u.iterators = _
        rw [hu, Pattern.tuples]
        omega
    · rw [IR.Store.spell_withTemporaries_fun] at h
      exact h.append_right hs

theorem unpackElements_store : ∀ (patterns : List Pattern) (iterator : VariableId)
    (expected count number : Nat) (s : Store), s.CanScratch b →
      Ends (unpackElements b iterator expected count number patterns) s
        (fun u s' => s' = s.withTemporaries b (patternsScratch (s.spell b) number patterns) ∧
          u.iterators = number + patternsTuples patterns)
        (fun _ _ => Clash s b (patternsScratch (s.spell b) number patterns))
  | [], iterator, expected, count, number, s, hs => by
    rw [unpackElements, ends_pure]
    exact ⟨IR.Store.withTemporaries_nil.symm, rfl⟩
  | first :: rest, iterator, expected, count, number, s, hs => by
    rw [unpackElements, ends_bind]
    refine (unpack_store first _ number s hs).weaken ?_ fun _ _ h => h.append_left
    rintro head s₁ ⟨rfl, hhead⟩
    rw [ends_bind, hhead]
    refine (unpackElements_store rest _ _ _ _ _ (hs.withTemporaries _)).weaken ?_
      fun _ _ h => ?_
    · rintro tail s₂ ⟨rfl, htail⟩
      refine ⟨?_, ?_⟩
      · rw [IR.Store.withTemporaries_append, IR.Store.spell_withTemporaries_fun]
        rfl
      · show tail.iterators = _
        rw [htail, patternsTuples]
        omega
    · rw [IR.Store.spell_withTemporaries_fun] at h
      exact h.append_right hs

end

/-- The placeholders among some slots, as the patterns they stand for. -/
def tupleSlots (slots : List PositionalSlot) : List Pattern :=
  slots.filterMap fun slot => slot.elements.map Pattern.tuple

/-- Taking all placeholders apart makes the temporaries of their patterns, in order. -/
theorem unpackSlots_store (placeholders : List Placeholder) : ∀ (slots : List PositionalSlot)
    (number : Nat) (s : Store), s.CanScratch b → (∀ v ∈ s.visible b, v.index < s.vars.size) →
      (∀ slot ∈ slots, Placeholder.elementsOf? placeholders slot.name = slot.elements ∧
        (s.find? b slot.name).isSome) →
      Ends (unpackSlots b placeholders number (slots.map PositionalSlot.name)) s
        (fun _ s' => s' = s.withTemporaries b
          (patternsScratch (s.spell b) number (tupleSlots slots)))
        (fun _ _ => Clash s b (patternsScratch (s.spell b) number (tupleSlots slots)))
  | [], number, s, hs, _, _ => by
    rw [List.map_nil, unpackSlots, ends_pure]
    exact IR.Store.withTemporaries_nil.symm
  | slot :: rest, number, s, hs, hvis, hslots => by
    obtain ⟨helem, hfind⟩ := hslots slot List.mem_cons_self
    obtain ⟨v, hv⟩ := Option.isSome_iff_exists.1 hfind
    rw [List.map_cons, unpackSlots, ends_bind, slotVariable, ends_bind, ends_query, hv]
    dsimp only
    rw [ends_pure, helem]
    cases he : slot.elements with
    | none =>
      dsimp only
      rw [ends_bind, ends_pure, ends_bind]
      have htuples : tupleSlots (slot :: rest) = tupleSlots rest := by simp [tupleSlots, he]
      rw [htuples]
      exact unpackSlots_store placeholders rest number s hs hvis
        fun other h => hslots other (List.mem_cons_of_mem _ h)
    | some elements =>
      dsimp only
      have htuples : tupleSlots (slot :: rest) = .tuple elements :: tupleSlots rest := by
        simp [tupleSlots, he]
      rw [htuples, ends_bind]
      refine (unpack_store (.tuple elements) _ _ s hs).weaken ?_ fun _ _ h => h.append_left
      rintro head s₁ ⟨rfl, hhead⟩
      rw [ends_bind, hhead]
      refine (unpackSlots_store placeholders rest _ _ (hs.withTemporaries _) ?_ ?_).weaken ?_
        fun _ _ h => ?_
      · intro w hw
        have := hvis w (IR.Store.visible_withTemporaries ▸ hw)
        rw [IR.Store.size_vars_withTemporaries]
        omega
      · intro other h
        rw [IR.Store.find?_withTemporaries hvis]
        exact hslots other (List.mem_cons_of_mem _ h)
      · rintro tail s₂ rfl
        show _ = s.withTemporaries b _
        rw [IR.Store.withTemporaries_append, IR.Store.spell_withTemporaries_fun]
        rfl
      · rw [IR.Store.spell_withTemporaries_fun] at h
        exact h.append_right hs

end Lowering

end DefinitionLowering
