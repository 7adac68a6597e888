import DefinitionLowering.Proofs.Performing
import DefinitionLowering.Proofs.Search

/-!
# What names mean while something is lowered

Lowering in a body lets bodies see more variables than before, but only what the search for a name
would have found there anyway.  So a name means the same in a body from the moment something is
lowered there to the end, whatever is lowered in between.

* `Operation.resolves_or_keeps` — resolving names is the only operation that changes what the bodies
  see that were there before.
* `Becomes.lookup` — no sequence of operations changes what a search from these bodies finds.
* `Reads.of_becomes` — so a name that is read there is lowered to the same expression all the time.
-/

namespace DefinitionLowering

open IR (BodyId VariableId Store)

namespace IR.Store

variable {p b c : BodyId} {n : Nat} {s s' : Store} {name : String} {path : List BodyId}

/-! ## Searches -/

/-- A search along a path depends on what the bodies of the path see and declare global. -/
theorem lookupAlong_congr (hfind : ∀ c ∈ path, s'.find? c name = s.find? c name)
    (hglobals : ∀ c ∈ path, (s'.body c).globals = (s.body c).globals) :
    s'.lookupAlong name path = s.lookupAlong name path := by
  induction path with
  | nil => rfl
  | cons c outer ih =>
    have hrest := ih (fun d hd => hfind d (List.mem_cons_of_mem _ hd))
      fun d hd => hglobals d (List.mem_cons_of_mem _ hd)
    rw [lookupAlong, lookupAlong, hfind c List.mem_cons_self, hglobals c List.mem_cons_self, hrest]

/-- A search from one of the first `n` bodies stays among them. -/
theorem Coherent.lookup_grow (hs : s.Coherent) (hg : Grows n s s') (hn : n ≤ s.bodies.size)
    (hsame : ∀ c : BodyId, c.index < n → s'.visible c = s.visible c) (hb : b.index < n) :
    s'.lookup b name = s.lookup b name := by
  have hold : ∀ c ∈ s.lookupPath b, c.index < n := by
    intro c hc
    rcases List.mem_cons.1 ((s.lookupPath_sublist b).subset hc) with rfl | hc
    · exact hb
    · exact Nat.lt_trans (hs.ordered.lt_of_mem_ancestors hc) hb
  rw [lookup, lookup, hg.lookupPath hs.ordered (Nat.lt_of_lt_of_le hb hn)]
  apply lookupAlong_congr
  · intro c hc
    exact find?_congr (hsame c (hold c hc)) fun v hv => hg.var v (hs.enclosed c v hv).1
  · intro c hc
    exact hg.globals (hold c hc)

/-- **Only by resolving names bodies that were there before come to see more.** -/
theorem Operation.resolves_or_keeps (h : Operation p n s s') (hn : n ≤ s.bodies.size) :
    (∃ d text, s' = (s.resolve d text).2) ∨
      ∀ c : BodyId, c.index < n → s'.visible c = s.visible c := by
  have hkeeps : ∀ {c d : BodyId} {f : Body → Body}, (∀ body, (f body).visible = body.visible) →
      (s.modifyBody d f).visible c = s.visible c := fun {c} _ _ hf =>
    body_modifyBody_of (P := fun body => body.visible = s.visible c) (hf _ |>.trans ·) rfl
  have hne : ∀ {c d : BodyId}, n ≤ d.index → c.index < n → d ≠ c := by
    rintro c d hd hc rfl
    omega
  cases h with
  | resolve d text => exact Or.inl ⟨d, text, rfl⟩
  | createBody plan =>
    right
    intro c hc
    rw [visible, body_createBody_of_lt s plan (Nat.lt_of_lt_of_le hc hn), visible]
  | share provider d hd =>
    exact Or.inr fun c hc => (share_frame s d provider).2.2 c (hne hd hc)
  | declareLocal d text hd hlt =>
    exact Or.inr fun c hc => visible_declareLocal_ne hlt (hne hd hc)
  | addTemporary d text v s' hd h =>
    right
    intro c _
    rw [addTemporary_withTemporaries h, visible_withTemporaries]
  | addGlobal d text => exact Or.inr fun c _ => hkeeps fun _ => rfl
  | addNonlocal d declaration => exact Or.inr fun c _ => hkeeps fun _ => rfl
  | copyNonlocals source d => exact Or.inr fun c _ => hkeeps fun _ => rfl
  | attachCode d block s' hd hpaired h =>
    obtain ⟨-, rfl⟩ := attachCode_eq_ok h
    exact Or.inr fun c _ => hkeeps fun _ => rfl

theorem Operation.lookup (h : Operation p n s s') (hs : s.Coherent) (hn : n ≤ s.bodies.size)
    (hb : b.index < n) (name : String) : s'.lookup b name = s.lookup b name := by
  rcases h.resolves_or_keeps hn with ⟨d, text, rfl⟩ | hsame
  · exact hs.ordered.acyclic.lookup_resolve d b text name
  · exact hs.lookup_grow (h.grows hn) hn hsame hb

/-- **A name stands for the same variable all the time** in a body that was there before. -/
theorem Becomes.lookup (h : Becomes p n s s') (hs : s.Coherent) (hn : n ≤ s.bodies.size)
    (hb : b.index < n) (name : String) : s'.lookup b name = s.lookup b name := by
  induction h with
  | refl => rfl
  | tail hsteps hstep ih =>
    obtain ⟨hs₁, hg₁⟩ := Becomes.coherent hsteps hs hn
    exact (hstep.lookup hs₁ (Nat.le_trans hn hg₁.bodies) hb name).trans ih

/-! ## Names that are read -/

/-- A name is left for run time where it is read in a body: in a module, and where no variable is
found. -/
def LeftFree (s : Store) (b : BodyId) (text : String) : Prop :=
  (s.body b).kind = .moduleBody ∨ s.lookup b text = none

end IR.Store

namespace Lowering

variable {p b : BodyId} {n : Nat} {s s' : Store} {name : String} {e : IR.Expr}

/-- What reading a name in a body is lowered to: a variable or, if the name is left for run time,
the name as it is spelled there. -/
inductive Reads (s : Store) (b : BodyId) (name : String) : IR.Expr → Prop
  | free (h : s.LeftFree b (s.spell b name)) : Reads s b name (.freeName (s.spell b name))
  | var {v : VariableId} (hkind : (s.body b).kind ≠ .moduleBody)
    (h : s.lookup b (s.spell b name) = some v) : Reads s b name (.var v)

theorem reads_of_reference (h : reference b name s = .ok e s') : Reads s b name e := by
  unfold reference at h
  obtain ⟨text, s₁, h₁, h⟩ := bind_eq_ok h
  obtain ⟨htext, hs₁⟩ := query_eq_ok h₁
  rw [htext, hs₁] at h
  obtain ⟨kind, s₂, h₂, h⟩ := bind_eq_ok h
  obtain ⟨hkind, hs₂⟩ := query_eq_ok h₂
  rw [hkind, hs₂] at h
  split at h
  · rename_i hmodule
    cases h
    exact .free (Or.inl (eq_of_beq hmodule))
  · rename_i hmodule
    have hkind : (s.body b).kind ≠ .moduleBody := fun hk => hmodule (beq_iff_eq.2 hk)
    obtain ⟨found, s₃, h₃, h⟩ := bind_eq_ok h
    have hfound : (s.resolve b (s.spell b name)).1 = found := by
      rw [resolve, operate_run] at h₃
      injection h₃
    rw [IR.Store.resolve_fst] at hfound
    cases found with
    | none =>
      cases h
      exact .free (Or.inr hfound)
    | some v =>
      cases h
      exact .var hkind hfound

/-- Reading a name is lowered to the same expression all the time. -/
theorem Reads.of_becomes (h : Reads s' b name e) (hsteps : IR.Store.Becomes p n s s')
    (hs : s.Coherent) (hn : n ≤ s.bodies.size) (hb : b.index < n) : Reads s b name e := by
  have hlt : b.index < s.bodies.size := Nat.lt_of_lt_of_le hb hn
  obtain ⟨-, hg⟩ := IR.Store.Becomes.coherent hsteps hs hn
  have hlookup : ∀ text, s'.lookup b text = s.lookup b text := hsteps.lookup hs hn hb
  have hkind : (s'.body b).kind = (s.body b).kind := hg.kind hlt
  have hspell : s'.spell b = s.spell b := hg.spell hs.ordered hlt
  cases h with
  | free h =>
    rw [hspell] at h ⊢
    rw [IR.Store.LeftFree, hkind, hlookup] at h
    exact .free h
  | var hmodule h =>
    rw [hkind] at hmodule
    rw [hspell, hlookup] at h
    exact .var hmodule h

/-- Names that are left for run time are the only ones that are lowered to names. -/
theorem Reads.eq_freeName_iff (h : Reads s b name e) {text : String} :
    e = .freeName text ↔ s.spell b name = text ∧ s.LeftFree b text := by
  cases h with
  | free h =>
    constructor
    · rintro ⟨⟩
      exact ⟨rfl, h⟩
    · rintro ⟨rfl, -⟩
      rfl
  | var hmodule h =>
    constructor
    · rintro ⟨⟩
    · rintro ⟨rfl, hfree | hnone⟩
      · exact absurd hfree hmodule
      · rw [h] at hnone
        cases hnone

end Lowering

end DefinitionLowering
