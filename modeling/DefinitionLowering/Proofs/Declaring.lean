import Mathlib.Logic.Relation
import DefinitionLowering.Proofs.Identifiers
import DefinitionLowering.Proofs.Lookup
import DefinitionLowering.Proofs.Stages

/-!
# The steps of opening a scope

Opening a scope first records its `global` declarations (`GlobalStep`); then it records the
nonlocal ones, each for a variable that is already seen or is searched, and declares the bound
names as locals (`DeclareStep`).  `openScope_steps` says that nothing else happens, and that the
names are written in the scope, so whatever these few steps preserve, opening a scope does.
-/

namespace DefinitionLowering

open IR (BodyId VariableId Store)

namespace Lowering

variable {b c : BodyId} {s s' : Store} {name : String} {location : Location}

/-- A name that is no parameter is recorded as global. -/
inductive GlobalStep (c : BodyId) (s : Store) : Store → Prop
  | record (name : String) (hparam : isParameter s c name = false) :
    GlobalStep c s (s.addGlobal c name)

/-- A name that is no parameter is recorded as nonlocal, or a name that is not global is
declared. -/
inductive DeclareStep (c : BodyId) (name : String) (s : Store) : Store → Prop
  | seen (location : Location) (v : VariableId) (hparam : isParameter s c name = false)
    (hfind : s.find? c name = some v) (howner : (s.var v).owner ≠ c) :
    DeclareStep c name s (s.addNonlocal c ⟨name, location⟩)
  | found (location : Location) (v : VariableId) (hfind : s.find? c name = none)
    (hlookup : s.lookup c name = some v) :
    DeclareStep c name s ((s.resolve c name).2.addNonlocal c ⟨name, location⟩)
  | bound (hglobal : name ∉ (s.body c).globals) : DeclareStep c name s (s.declareLocal c name).2

/-- A name that is written among some statements is declared as it is spelled in the body. -/
def DeclaresWritten (c : BodyId) (statements : List Surface.Stmt) (s s' : Store) : Prop :=
  ∃ written ∈ Surface.stmtsIdentifiers statements, DeclareStep c (s.spell c written) s s'

theorem GlobalStep.size (h : GlobalStep c s s') : s'.bodies.size = s.bodies.size := by
  obtain ⟨name, -⟩ := h
  exact Store.size_bodies_modifyBody s c _

theorem DeclareStep.size (h : DeclareStep c name s s') : s'.bodies.size = s.bodies.size := by
  cases h with
  | seen location v => exact Store.size_bodies_modifyBody s c _
  | found location v =>
    rw [Store.addNonlocal, Store.size_bodies_modifyBody, Store.size_bodies_resolve]
  | bound => exact Store.size_bodies_declareLocal s c name

/-! ## Declarations one by one -/

theorem query_eq_ok {α : Type} {f : Store → α} {a : α} (h : query f s = .ok a s') :
    a = f s ∧ s' = s := by
  injection h with ha hs
  exact ⟨ha.symm, hs.symm⟩

/-- A parameter is not declared anew. -/
theorem refuseParameter_ok {declaration : OuterDeclaration}
    (h : refuseParameter c name declaration location s = .ok () s') :
    s' = s ∧ isParameter s c name = false := by
  unfold refuseParameter at h
  obtain ⟨refused, s₁, h₁, h₂⟩ := bind_eq_ok h
  obtain ⟨hrefused, rfl⟩ := query_eq_ok h₁
  cases refused with
  | true => cases h₂
  | false =>
    cases h₂
    exact ⟨rfl, hrefused.symm⟩

/-- A variable of an enclosing scope is one that the body sees already, or one that it comes to
see. -/
theorem resolveOuter_ok (h : resolveOuter c name s = .ok true s') :
    (∃ v, s.find? c name = some v ∧ (s.var v).owner ≠ c ∧ s' = s) ∨
      ∃ v, s.find? c name = none ∧ s.lookup c name = some v ∧ s' = (s.resolve c name).2 := by
  unfold resolveOuter at h
  obtain ⟨seen, s₁, h₁, h₂⟩ := bind_eq_ok h
  obtain ⟨hseen, rfl⟩ := query_eq_ok h₁
  cases hf : s₁.find? c name with
  | some v =>
    rw [hseen, hf] at h₂
    injection h₂ with howner hstore
    exact Or.inl ⟨v, rfl, by simpa using howner, hstore.symm⟩
  | none =>
    rw [hseen, hf] at h₂
    obtain ⟨found, s₂, h₃, h₄⟩ := bind_eq_ok h₂
    injection h₃ with hfound hstore
    cases found with
    | none => cases h₄
    | some v =>
      cases h₄
      have hfound : (s₁.resolve c name).1 = some v := hfound
      exact Or.inr ⟨v, rfl, by rw [← Store.resolve_fst, hfound], hstore.symm⟩

theorem declareGlobal_ok (h : declareGlobal c name location s = .ok () s') : GlobalStep c s s' := by
  unfold declareGlobal at h
  obtain ⟨text, s₁, h₁, h₂⟩ := bind_eq_ok h
  obtain ⟨-, rfl⟩ := query_eq_ok h₁
  obtain ⟨_, s₂, h₃, h₄⟩ := bind_eq_ok h₂
  obtain ⟨rfl, hparam⟩ := refuseParameter_ok h₃
  cases h₄
  exact .record text hparam

theorem declareNonlocal_ok (h : declareNonlocal c name location s = .ok () s') :
    DeclareStep c (s.spell c name) s s' := by
  unfold declareNonlocal at h
  obtain ⟨text, s₁, h₁, h₂⟩ := bind_eq_ok h
  obtain ⟨rfl, rfl⟩ := query_eq_ok h₁
  obtain ⟨_, s₂, h₃, h₄⟩ := bind_eq_ok h₂
  obtain ⟨rfl, hparam⟩ := refuseParameter_ok h₃
  obtain ⟨there, s₃, h₅, h₆⟩ := bind_eq_ok h₄
  cases there with
  | false => cases h₆
  | true =>
    cases h₆
    rcases resolveOuter_ok h₅ with ⟨v, hf, howner, rfl⟩ | ⟨v, hf, hlookup, rfl⟩
    · exact .seen location v hparam hf howner
    · exact .found location v hf hlookup

theorem declareBinding_ok (h : declareBinding c name s = .ok () s') :
    s' = s ∨ DeclareStep c (s.spell c name) s s' := by
  unfold declareBinding at h
  obtain ⟨text, s₁, h₁, h₂⟩ := bind_eq_ok h
  obtain ⟨rfl, rfl⟩ := query_eq_ok h₁
  obtain ⟨isGlobal, s₂, h₃, h₄⟩ := bind_eq_ok h₂
  obtain ⟨hglobal, rfl⟩ := query_eq_ok h₃
  cases isGlobal with
  | true =>
    cases h₄
    exact Or.inl rfl
  | false =>
    cases h₄
    exact Or.inr (.bound (by simpa using hglobal.symm))

/-- Steps for each item of a list. -/
theorem forM_steps {α : Type} {Step : Store → Store → Prop} (f : α → Lowering Unit) :
    ∀ {items : List α} {s s' : Store},
      (∀ a ∈ items, ∀ s s', f a s = .ok () s' → Relation.ReflTransGen Step s s') →
      items.forM f s = .ok () s' → Relation.ReflTransGen Step s s'
  | [], s, s', _, h => by
    cases h
    exact .refl
  | first :: rest, s, s', hf, h => by
    have h : (f first >>= fun _ => rest.forM f) s = .ok () s' := h
    obtain ⟨_, s₁, h₁, h₂⟩ := bind_eq_ok h
    exact (hf first List.mem_cons_self s s₁ h₁).trans
      (forM_steps f (fun a ha => hf a (List.mem_cons_of_mem _ ha)) h₂)

/-- Opening a scope goes through the global names, then the nonlocal ones, and then, unless the
scope is a module, the bound ones. -/
theorem openScope_ok {statements : List Surface.Stmt}
    (h : openScope c statements s = .ok () s') :
    ∃ s₁ s₂,
      ((Surface.globalNames statements).forM fun declared =>
        declareGlobal c declared.1 declared.2) s = .ok () s₁ ∧
      ((Surface.nonlocalNames statements).forM fun declared =>
        declareNonlocal c declared.1 declared.2) s₁ = .ok () s₂ ∧
      (s' = s₂ ∨ (Surface.boundNames statements).forM (declareBinding c) s₂ = .ok () s') := by
  unfold openScope at h
  obtain ⟨kind, s₀, h₀, hopen⟩ := bind_eq_ok h
  obtain ⟨-, rfl⟩ := query_eq_ok h₀
  dsimp only at hopen
  cases hmodule : kind == BodyKind.moduleBody with
  | true =>
    rw [if_pos hmodule] at hopen
    cases hnone : Surface.nonlocalNames statements with
    | cons declared rest =>
      rw [hnone] at hopen
      cases hopen
    | nil =>
      rw [hnone] at hopen
      obtain ⟨_, s₁, hglobals, hrest⟩ := bind_eq_ok hopen
      obtain ⟨_, s₂, hnonlocals, hbound⟩ := bind_eq_ok hrest
      rw [if_pos hmodule] at hbound
      cases hbound
      exact ⟨s₁, _, hglobals, hnonlocals, Or.inl rfl⟩
  | false =>
    have hfalse : ¬(kind == BodyKind.moduleBody) = true := by simp [hmodule]
    rw [if_neg hfalse] at hopen
    obtain ⟨_, s₁, hglobals, hrest⟩ := bind_eq_ok hopen
    obtain ⟨_, s₂, hnonlocals, hbound⟩ := bind_eq_ok hrest
    rw [if_neg hfalse] at hbound
    exact ⟨s₁, s₂, hglobals, hnonlocals, Or.inr hbound⟩

/-- **Opening a scope** records the global names, and then the nonlocal and the bound ones, all of
them written in the scope. -/
theorem openScope_steps {statements : List Surface.Stmt}
    (h : openScope c statements s = .ok () s') :
    ∃ s₁, Relation.ReflTransGen (GlobalStep c) s s₁ ∧
      Relation.ReflTransGen (DeclaresWritten c statements) s₁ s' := by
  obtain ⟨s₁, s₂, hglobals, hnonlocals, hbound⟩ := openScope_ok h
  have hglobal : Relation.ReflTransGen (GlobalStep c) s s₁ :=
    forM_steps _ (fun _ _ _ _ h => .single (declareGlobal_ok h)) hglobals
  have hnonlocal : Relation.ReflTransGen (DeclaresWritten c statements) s₁ s₂ :=
    forM_steps _ (fun _ hmem _ _ h => .single
      ⟨_, Surface.mem_identifiers_of_nonlocal hmem, declareNonlocal_ok h⟩) hnonlocals
  refine ⟨s₁, hglobal, ?_⟩
  rcases hbound with rfl | hbound
  · exact hnonlocal
  · refine hnonlocal.trans (forM_steps _ (fun name hmem s s' h => ?_) hbound)
    rcases declareBinding_ok h with rfl | hstep
    · exact .refl
    · exact .single ⟨name, Surface.mem_identifiers_of_bound hmem, hstep⟩

/-- What the single steps do not change, opening a scope does not. -/
theorem openScope_view {α : Type} (view : Store → α) {statements : List Surface.Stmt}
    (hglobal : ∀ s s', GlobalStep c s s' → view s' = view s)
    (hdeclare : ∀ name s s', DeclareStep c name s s' → view s' = view s)
    (h : openScope c statements s = .ok () s') : view s' = view s := by
  obtain ⟨s₁, hglobals, hdeclares⟩ := openScope_steps h
  have hsame : ∀ {Step : Store → Store → Prop}, (∀ s s', Step s s' → view s' = view s) →
      ∀ {s s'}, Relation.ReflTransGen Step s s' → view s' = view s := by
    intro Step hstep s s' hsteps
    induction hsteps with
    | refl => rfl
    | tail _ hlast ih => exact (hstep _ _ hlast).trans ih
  rw [hsame (fun s s' ⟨_, _, hstep⟩ => hdeclare _ s s' hstep) hdeclares, hsame hglobal hglobals]

/-- Opening a scope creates no bodies. -/
theorem openScope_size {statements : List Surface.Stmt}
    (h : openScope c statements s = .ok () s') : s'.bodies.size = s.bodies.size :=
  openScope_view (fun s => s.bodies.size) (fun _ _ => GlobalStep.size)
    (fun _ _ _ => DeclareStep.size) h

/-- Opening a scope attaches no code. -/
theorem openScope_code {statements : List Surface.Stmt}
    (h : openScope c statements s = .ok () s') (d : BodyId) :
    (s'.body d).code = (s.body d).code := by
  have hmodify : ∀ {t : Store} {f : IR.Body → IR.Body}, (∀ body, (f body).code = body.code) →
      ((t.modifyBody c f).body d).code = (t.body d).code := fun {t} {f} hf =>
    Store.body_modifyBody_of (P := fun body => body.code = (t.body d).code) (hf _ |>.trans ·) rfl
  have hgrows : ∀ {t t' : Store}, (∀ k, Store.Grows k t t') → (t'.body d).code = (t.body d).code :=
    fun hg => (hg (d.index + 1)).code_eq (Nat.lt_succ_self _)
  refine openScope_view (fun s => (s.body d).code) (fun t t' hstep => ?_)
    (fun name t t' hstep => ?_) h
  · cases hstep with
    | record name hparam => exact hmodify fun _ => rfl
  · cases hstep with
    | seen location v => exact hmodify fun _ => rfl
    | found location v =>
      show (((t.resolve c name).2.addNonlocal c ⟨name, location⟩).body d).code = (t.body d).code
      rw [← hgrows fun k => Store.Grows.resolve k t c name]
      exact hmodify fun _ => rfl
    | bound => exact hgrows fun k => Store.Grows.declareLocal k t c name

end Lowering

end DefinitionLowering
