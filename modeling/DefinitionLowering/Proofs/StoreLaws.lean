import Mathlib.Data.List.Find
import Mathlib.Data.List.Nodup
import DefinitionLowering.IR.Release

/-!
# What the operations of the store change

One law for each operation and each view of the store: the number of bodies and variables,
what is recorded about a body, and what is recorded about a variable.  Proofs about the
lowering use these laws and do not open the operations.
-/

namespace DefinitionLowering.IR.Store

variable {s : Store} {b c : BodyId} {v w : VariableId} {name : String} {plan : BodyPlan}

/-! ## Changing one body -/

theorem body_modifyBody_self {f : Body → Body} (h : b.index < s.bodies.size) :
    (s.modifyBody b f).body b = f (s.body b) := by
  rw [body_modifyBody, if_pos ⟨rfl, h⟩]

theorem body_modifyBody_ne {f : Body → Body} (h : b ≠ c) :
    (s.modifyBody b f).body c = s.body c := by
  rw [body_modifyBody, if_neg fun hc => h hc.1]

@[simp] theorem vars_modifyBody {f : Body → Body} : (s.modifyBody b f).vars = s.vars := rfl

theorem modifyBody_modifyBody {f g : Body → Body} :
    (s.modifyBody b f).modifyBody b g = s.modifyBody b fun body => g (f body) := by
  unfold modifyBody
  congr 1
  refine Array.ext_getElem? fun i => ?_
  simp only [Array.getElem?_modify]
  split <;> simp [Function.comp_def]

theorem modifyBody_same {f : Body → Body} (hf : ∀ body, f body = body) : s.modifyBody b f = s := by
  have hbodies : s.bodies.modify b.index f = s.bodies := by
    refine Array.ext_getElem? fun i => ?_
    rw [Array.getElem?_modify, show f = id from funext hf]
    simp
  rw [modifyBody, hbodies]

/-- What a change of one body keeps holds of every body. -/
theorem body_modifyBody_of {f : Body → Body} {P : Body → Prop}
    (hf : P (s.body c) → P (f (s.body c)))
    (h : P (s.body c)) : P ((s.modifyBody b f).body c) := by
  rw [body_modifyBody]
  split
  · exact hf h
  · exact h

/-- A body that was never created is nothing but the default one. -/
theorem body_of_size_le (h : s.bodies.size ≤ b.index) : s.body b = default := by
  simp [body, Array.getD_eq_getD_getElem?, Array.getElem?_eq_none h]

/-- Only a body that was created has a provider. -/
theorem lt_of_provider {p : BodyId} (h : (s.body b).provider = some p) :
    b.index < s.bodies.size := by
  refine Classical.byContradiction fun hlt => ?_
  rw [body_of_size_le (by omega)] at h
  cases h

theorem lt_of_code {block : Block} (h : (s.body b).code = some block) :
    b.index < s.bodies.size := by
  refine Classical.byContradiction fun hlt => ?_
  rw [body_of_size_le (by omega)] at h
  cases h

theorem lt_of_mem_visible (h : v ∈ s.visible b) : b.index < s.bodies.size := by
  refine Classical.byContradiction fun hlt => ?_
  rw [visible, body_of_size_le (by omega)] at h
  cases h

theorem mem_bodyIds : b ∈ s.bodyIds ↔ b.index < s.bodies.size := by
  rw [bodyIds, List.mem_map]
  constructor
  · rintro ⟨i, hi, rfl⟩
    exact List.mem_range.1 hi
  · exact fun h => ⟨b.index, List.mem_range.2 h, rfl⟩

theorem nodup_bodyIds (s : Store) : s.bodyIds.Nodup :=
  List.nodup_range.map fun _ _ h => congrArg BodyId.index h

/-- The bodies with the numbers from `n` up to `m`. -/
def bodiesFrom (n m : Nat) : List BodyId :=
  (List.range' n (m - n)).map BodyId.mk

theorem mem_bodiesFrom {n m : Nat} : b ∈ bodiesFrom n m ↔ n ≤ b.index ∧ b.index < m := by
  rw [bodiesFrom, List.mem_map]
  constructor
  · rintro ⟨i, hi, rfl⟩
    rw [List.mem_range'_1] at hi
    exact ⟨hi.1, by show i < m; omega⟩
  · exact fun h => ⟨b.index, List.mem_range'_1.2 ⟨h.1, by omega⟩, rfl⟩

theorem bodiesFrom_self (n : Nat) : bodiesFrom n n = [] := by
  rw [bodiesFrom, Nat.sub_self]
  rfl

theorem bodiesFrom_succ (n : Nat) : bodiesFrom n (n + 1) = [⟨n⟩] := by
  rw [bodiesFrom, Nat.add_sub_cancel_left]
  rfl

theorem bodiesFrom_append {n m k : Nat} (h : n ≤ m) (h' : m ≤ k) :
    bodiesFrom n m ++ bodiesFrom m k = bodiesFrom n k := by
  rw [bodiesFrom, bodiesFrom, bodiesFrom, ← List.map_append]
  have hstart : m = n + 1 * (m - n) := by omega
  have hlength : k - n = (m - n) + (k - m) := by omega
  rw [hlength, ← List.range'_append, ← hstart]

theorem count_bodiesFrom {n m : Nat} (b : BodyId) :
    (bodiesFrom n m).count b = if n ≤ b.index ∧ b.index < m then 1 else 0 := by
  split
  · rename_i h
    refine List.count_eq_one_of_mem ?_ (mem_bodiesFrom.2 h)
    exact (List.nodup_range' 1).map fun _ _ he => congrArg BodyId.index he
  · rename_i h
    exact List.count_eq_zero_of_not_mem fun hmem => h (mem_bodiesFrom.1 hmem)

theorem bodyIds_eq_bodiesFrom (s : Store) : s.bodyIds = bodiesFrom 0 s.bodies.size := by
  rw [bodyIds, bodiesFrom, List.range_eq_range', Nat.sub_zero]

/-! ## Creating a body -/

@[simp] theorem createBody_fst : (s.createBody plan).1 = ⟨s.bodies.size⟩ := rfl

@[simp] theorem size_bodies_createBody :
    (s.createBody plan).2.bodies.size = s.bodies.size + 1 := by
  simp [createBody]

@[simp] theorem size_vars_createBody :
    (s.createBody plan).2.vars.size = s.vars.size + plan.slots.length := by
  simp [createBody]

theorem body_createBody_self :
    (s.createBody plan).2.body ⟨s.bodies.size⟩ =
      { kind := plan.kind
        name := plan.name
        qualifiedName := s.qualifiedName plan
        provider := plan.provider
        flags := plan.flags
        doc := plan.doc
        signature := plan.signature
        location := plan.location
        info := plan.info
        nonlocals := []
        globals := []
        code := none
        visible := (List.range' s.vars.size plan.slots.length).map VariableId.mk
        temporaries := [] } := by
  simp [createBody, body, Array.getD_eq_getD_getElem?]

theorem body_createBody_ne (h : b ≠ ⟨s.bodies.size⟩) :
    (s.createBody plan).2.body b = s.body b := by
  by_cases hb : b.index < s.bodies.size
  · exact body_createBody_of_lt s plan hb
  · have hne : b.index ≠ s.bodies.size := fun he => h (by cases b; simp_all)
    rw [body_of_size_le (by simp; omega), body_of_size_le (by omega)]

theorem var_createBody_param {i : Nat} (h : i < plan.slots.length) :
    (s.createBody plan).2.var ⟨s.vars.size + i⟩ = ⟨plan.slots[i], ⟨s.bodies.size⟩, .parameter⟩ := by
  simp [createBody, var, Array.getD_eq_getD_getElem?, h]

theorem visible_createBody_self :
    (s.createBody plan).2.visible ⟨s.bodies.size⟩ =
      (List.range' s.vars.size plan.slots.length).map VariableId.mk := by
  rw [visible, body_createBody_self]

/-- A new body sees the variables that came with it. -/
theorem mem_visible_createBody_self :
    v ∈ (s.createBody plan).2.visible ⟨s.bodies.size⟩ ↔
      s.vars.size ≤ v.index ∧ v.index < (s.createBody plan).2.vars.size := by
  rw [visible_createBody_self, size_vars_createBody, List.mem_map]
  constructor
  · rintro ⟨i, hi, rfl⟩
    exact List.mem_range'_1.1 hi
  · exact fun h => ⟨v.index, List.mem_range'_1.2 h, rfl⟩

/-- The variables that come with a new body are its parameters. -/
theorem var_createBody_new (hlow : s.vars.size ≤ v.index)
    (hhigh : v.index < (s.createBody plan).2.vars.size) :
    ∃ slot ∈ plan.slots,
      (s.createBody plan).2.var v = ⟨slot, ⟨s.bodies.size⟩, .parameter⟩ := by
  obtain ⟨i, hi⟩ := Nat.exists_eq_add_of_le hlow
  have hlt : i < plan.slots.length := by
    rw [size_vars_createBody] at hhigh
    omega
  refine ⟨plan.slots[i], List.getElem_mem hlt, ?_⟩
  rw [show v = ⟨s.vars.size + i⟩ from congrArg VariableId.mk hi, var_createBody_param hlt]

/-- A new body sees its parameters under the names of their slots. -/
theorem visibleNames_createBody_self :
    ((s.createBody plan).2.visible ⟨s.bodies.size⟩).map
        (fun v => ((s.createBody plan).2.var v).name) = plan.slots := by
  rw [visible_createBody_self]
  refine List.ext_getElem (by simp) fun i hi hi' => ?_
  simp [var_createBody_param hi']

/-! ## Attaching and wrapping code -/

theorem attachCode_ok (h : (s.body b).code = none) (code : Block) :
    s.attachCode b code = .ok (s.modifyBody b fun body => { body with code := some code }) := by
  simp [attachCode, h]

theorem attachCode_eq_ok {code : Block} {s' : Store} (h : s.attachCode b code = .ok s') :
    (s.body b).code = none ∧ s' = s.modifyBody b fun body => { body with code := some code } := by
  unfold attachCode at h
  split at h
  · cases h
  · rename_i hnone
    cases h
    exact ⟨hnone, rfl⟩

/-! ## Adding variables -/

@[simp] theorem bodies_pushVariable {d : Variable} : (s.pushVariable d).2.bodies = s.bodies := rfl

@[simp] theorem body_pushVariable {d : Variable} : (s.pushVariable d).2.body b = s.body b := rfl

@[simp] theorem pushVariable_fst {d : Variable} : (s.pushVariable d).1 = ⟨s.vars.size⟩ := rfl

@[simp] theorem size_vars_pushVariable {d : Variable} :
    (s.pushVariable d).2.vars.size = s.vars.size + 1 := by
  simp [pushVariable]

theorem var_pushVariable_of_lt {d : Variable} (h : v.index < s.vars.size) :
    (s.pushVariable d).2.var v = s.var v := by
  simp [pushVariable, var, Array.getD_eq_getD_getElem?, Array.getElem?_push, Nat.ne_of_lt h]

theorem var_pushVariable_self {d : Variable} : (s.pushVariable d).2.var ⟨s.vars.size⟩ = d :=
  var_pushVariable s d

theorem body_reveal :
    (s.reveal b v).body c =
      if b = c ∧ c.index < s.bodies.size then { s.body c with visible := s.visible c ++ [v] }
      else s.body c := by
  unfold reveal
  rw [body_modifyBody]
  rfl

@[simp] theorem vars_reveal : (s.reveal b v).vars = s.vars := rfl

@[simp] theorem var_reveal : (s.reveal b v).var w = s.var w := rfl

@[simp] theorem size_bodies_reveal : (s.reveal b v).bodies.size = s.bodies.size := by
  simp [reveal]

theorem visible_reveal_self (h : b.index < s.bodies.size) :
    (s.reveal b v).visible b = s.visible b ++ [v] := by
  rw [visible, body_reveal, if_pos ⟨rfl, h⟩]

theorem visible_reveal_ne (h : b ≠ c) : (s.reveal b v).visible c = s.visible c := by
  rw [visible, body_reveal, if_neg fun hc => h hc.1, visible]

/-- Declaring a local adds a variable unless the body sees one of that name. -/
theorem declareLocal_of_find (h : s.find? b name = some v) : s.declareLocal b name = (v, s) := by
  simp [declareLocal, h]

theorem declareLocal_of_none (h : s.find? b name = none) :
    s.declareLocal b name =
      (⟨s.vars.size⟩, (s.pushVariable ⟨name, b, .localName⟩).2.reveal b ⟨s.vars.size⟩) := by
  simp [declareLocal, h]

theorem addTemporary_eq_ok {s' : Store} (h : s.addTemporary b name = .ok (v, s')) :
    s.hasTemporary b name = false ∧ v = ⟨s.vars.size⟩ ∧
      s' = (s.pushVariable ⟨name, b, .temporary⟩).2.modifyBody b fun body =>
        { body with temporaries := body.temporaries ++ [⟨s.vars.size⟩] } := by
  unfold addTemporary at h
  split at h
  · cases h
  · rename_i hnew
    cases h
    exact ⟨by simpa using hnew, rfl, rfl⟩

theorem addTemporary_ok (h : s.hasTemporary b name = false) :
    s.addTemporary b name = .ok (⟨s.vars.size⟩,
      (s.pushVariable ⟨name, b, .temporary⟩).2.modifyBody b fun body =>
        { body with temporaries := body.temporaries ++ [⟨s.vars.size⟩] }) := by
  simp [addTemporary, h]

/-! ## Finding variables -/

theorem find?_eq_none {s : Store} {b : BodyId} {name : String} :
    s.find? b name = none ↔ ∀ v ∈ s.visible b, (s.var v).name ≠ name := by
  simp [find?, List.find?_eq_none]

/-- A body that comes to see more still finds what it found. -/
theorem find?_of_isPrefix {s' : Store} (hv : s.visible b <+: s'.visible b)
    (hvar : ∀ w ∈ s.visible b, s'.var w = s.var w) (h : s.find? b name = some v) :
    s'.find? b name = some v := by
  obtain ⟨more, hmore⟩ := hv
  unfold find? at *
  rw [← hmore, List.find?_append, Option.or_eq_some_iff]
  left
  rw [← h]
  exact List.find?_congr fun w hw => by rw [hvar w hw]

theorem find?_congr {s' : Store} (hv : s'.visible b = s.visible b)
    (hvar : ∀ w ∈ s.visible b, s'.var w = s.var w) : s'.find? b name = s.find? b name := by
  unfold find?
  rw [hv]
  exact List.find?_congr fun w hw => by rw [hvar w hw]

/-- A body that sees no two variables of one name finds each of them. -/
theorem find?_of_mem (hn : ((s.visible b).map fun v => (s.var v).name).Nodup)
    (h : v ∈ s.visible b) : s.find? b (s.var v).name = some v := by
  cases hf : s.find? b (s.var v).name with
  | none => exact absurd rfl (find?_eq_none.1 hf v h)
  | some w =>
    obtain ⟨hw, hname⟩ := find?_eq_some hf
    rw [List.inj_on_of_nodup_map hn hw h hname]

/-- A body finds its variables under their names, in order. -/
theorem find?_of_names {names : List String} (hn : names.Nodup)
    (h : (s.visible b).map (fun v => (s.var v).name) = names) {i : Nat} (hi : i < names.length)
    (hv : i < (s.visible b).length) : s.find? b names[i] = some (s.visible b)[i] := by
  subst h
  have := find?_of_mem hn (List.getElem_mem hv)
  simpa using this

end DefinitionLowering.IR.Store
