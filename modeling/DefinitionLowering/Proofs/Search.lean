import DefinitionLowering.Proofs.Lookup

/-!
# Resolving names in any order

`Search` is the search for a name as it is meant: the first variable of that name that a body sees;
otherwise nothing if the body declares the name global, or else the search in the nearest function
around the body (`Encloses`), classes being skipped, if there is one.  It is a relation between a
body and what is found, with the bodies that the search visits on the way.  Nothing is assumed about
the numbers of bodies.

`resolve` searches along a list of scopes and lets the scopes that it passes see what it finds.  In
an acyclic store:

* `Acyclic.search_total`, `Search.unique` — there is exactly one search for a name of a body;
* `Acyclic.resolve_of_search` — `resolve` finds what the search finds, and changes nothing but what
  the visited bodies see (`Registered`);
* `Acyclic.finds_iff` — no search of any body for any name finds anything else afterwards, since a
  body that has come to see a variable would have found the same variable before;
* `Acyclic.resolveAll_fst` — so names that are resolved one after the other are resolved as each
  would be alone.
-/

namespace DefinitionLowering.IR.Store

/-! ## The search -/

/-- The nearest function around a body. -/
inductive Encloses (s : Store) : BodyId → BodyId → Prop
  | direct {b p} (hp : (s.body b).provider = some p)
      (hkind : (s.body p).kind.isFunctionLike = true) : Encloses s b p
  | skips {b p c} (hp : (s.body b).provider = some p) (hkind : (s.body p).kind = .classBody)
      (hrest : Encloses s p c) : Encloses s b c

/-- A search for a name in a body, with the bodies it visits and what it finds. -/
inductive Search (s : Store) (name : String) : BodyId → List BodyId → Option VariableId → Prop
  | sees {b v} (h : s.find? b name = some v) : Search s name b [b] (some v)
  | declared {b} (h : s.find? b name = none) (hglobal : name ∈ (s.body b).globals) :
      Search s name b [b] none
  | outer {b c path found} (h : s.find? b name = none) (hglobal : name ∉ (s.body b).globals)
      (hencloses : s.Encloses b c) (hrest : Search s name c path found) :
      Search s name b (b :: path) found
  | outermost {b} (h : s.find? b name = none) (hglobal : name ∉ (s.body b).globals)
      (hnone : ∀ c, ¬ s.Encloses b c) : Search s name b [b] none

/-- What a search for a name in a body finds. -/
def Finds (s : Store) (b : BodyId) (name : String) (found : Option VariableId) : Prop :=
  ∃ path, s.Search name b path found

variable {s s' : Store} {b c d p : BodyId} {v : VariableId} {name other : String}
  {path path' : List BodyId} {found found' : Option VariableId}

theorem Encloses.unique (h : s.Encloses b c) : ∀ {d : BodyId}, s.Encloses b d → d = c := by
  induction h with
  | direct hp hkind =>
    intro d hd
    cases hd with
    | direct hp' _ => exact Option.some.inj (hp'.symm.trans hp)
    | skips hp' hkind' _ =>
      cases hp.symm.trans hp'
      rw [hkind'] at hkind
      cases hkind
  | skips hp hkind _ ih =>
    intro d hd
    cases hd with
    | direct hp' hkind' =>
      cases hp.symm.trans hp'
      rw [hkind] at hkind'
      cases hkind'
    | skips hp' _ hrest =>
      cases hp.symm.trans hp'
      exact ih hrest

theorem Encloses.lt (h : s.Encloses b c) : b.index < s.bodies.size := by
  cases h with
  | direct hp _ => exact lt_of_provider hp
  | skips hp _ _ => exact lt_of_provider hp

/-- The nearest function around a body is the same where providers and kinds are. -/
theorem Encloses.congr (hp : ∀ c, (s'.body c).provider = (s.body c).provider)
    (hkind : ∀ c, (s'.body c).kind = (s.body c).kind) (h : s.Encloses b c) : s'.Encloses b c := by
  induction h with
  | direct hprovider hlike => exact .direct ((hp _).trans hprovider) (by rw [hkind]; exact hlike)
  | skips hprovider hclass _ ih =>
    exact .skips ((hp _).trans hprovider) ((hkind _).trans hclass) ih

/-- **There is at most one search for a name of a body.** -/
theorem Search.unique (h : s.Search name b path found) :
    ∀ {path' : List BodyId} {found' : Option VariableId}, s.Search name b path' found' →
      path' = path ∧ found' = found := by
  induction h with
  | sees h =>
    intro path' found' h'
    cases h' with
    | sees hsame => exact ⟨rfl, hsame.symm.trans h⟩
    | declared hnone | outer hnone | outermost hnone => simp [h] at hnone
  | declared h hglobal =>
    intro path' found' h'
    cases h' with
    | sees hsome => simp [h] at hsome
    | declared => exact ⟨rfl, rfl⟩
    | outer _ hnot | outermost _ hnot => exact absurd hglobal hnot
  | outer h hglobal hencloses _ ih =>
    intro path' found' h'
    cases h' with
    | sees hsome => simp [h] at hsome
    | declared _ hdeclared => exact absurd hdeclared hglobal
    | outer _ _ hencloses' hrest' =>
      cases hencloses.unique hencloses'
      obtain ⟨rfl, rfl⟩ := ih hrest'
      exact ⟨rfl, rfl⟩
    | outermost _ _ hnone => exact absurd hencloses (hnone _)
  | outermost h hglobal hnone =>
    intro path' found' h'
    cases h' with
    | sees hsome => simp [h] at hsome
    | declared _ hdeclared => exact absurd hdeclared hglobal
    | outer _ _ hencloses => exact absurd hencloses (hnone _)
    | outermost => exact ⟨rfl, rfl⟩

theorem Finds.unique (h : s.Finds b name found) (h' : s.Finds b name found') : found' = found :=
  (h.choose_spec.unique h'.choose_spec).2

theorem Search.var_name (h : s.Search name b path (some v)) : (s.var v).name = name := by
  generalize hfound : some v = found at h
  induction h with
  | sees h =>
    cases hfound
    exact (find?_eq_some h).2
  | declared | outermost => cases hfound
  | outer _ _ _ _ ih => exact ih hfound

/-- A search goes on from each body it visits. -/
theorem Search.finds_of_mem (h : s.Search name b path found) (hc : c ∈ path) :
    s.Finds c name found := by
  induction h with
  | sees h =>
    cases List.mem_singleton.1 hc
    exact ⟨_, .sees h⟩
  | declared h hglobal =>
    cases List.mem_singleton.1 hc
    exact ⟨_, .declared h hglobal⟩
  | outermost h hglobal hnone =>
    cases List.mem_singleton.1 hc
    exact ⟨_, .outermost h hglobal hnone⟩
  | outer h hglobal hencloses hrest ih =>
    rcases List.mem_cons.1 hc with rfl | hc
    · exact ⟨_, .outer h hglobal hencloses hrest⟩
    · exact ih hc

/-! ## The scopes of a search -/

theorem isClass_of_isFunctionLike (h : (s.body b).kind.isFunctionLike = true) :
    s.isModule b = false ∧ s.isClass b = false := by
  rw [isModule, isClass]
  cases hkind : (s.body b).kind with
  | callable _ => exact ⟨rfl, rfl⟩
  | moduleBody | classBody =>
    rw [hkind] at h
    cases h

section Acyclic

variable (hs : s.Acyclic)
include hs

/-- The scopes around a body are the nearest function and the scopes around that. -/
theorem Acyclic.outerPath_of_encloses (h : s.Encloses b c) : s.outerPath b = s.lookupPath c := by
  induction h with
  | direct hp hkind =>
    obtain ⟨hmodule, hclass⟩ := isClass_of_isFunctionLike hkind
    exact hs.outerPath_of_callable hp hmodule hclass
  | @skips b p c hp hkind _ ih =>
    have hmodule : s.isModule p = false := by rw [isModule, hkind]; rfl
    have hclass : s.isClass p = true := by rw [isClass, hkind]; rfl
    rw [hs.outerPath_of_class hp hmodule hclass, ih]

/-- Where no function is around a body, no scope is. -/
theorem Acyclic.outerPath_of_outermost (h : ∀ c, ¬ s.Encloses b c) : s.outerPath b = [] := by
  induction b using hs.induction with
  | step b ih =>
    cases hp : (s.body b).provider with
    | none => exact outerPath_of_no_provider hp
    | some p =>
      cases hkind : (s.body p).kind with
      | moduleBody => exact hs.outerPath_of_module hp (by rw [isModule, hkind]; rfl)
      | classBody =>
        have hmodule : s.isModule p = false := by rw [isModule, hkind]; rfl
        have hclass : s.isClass p = true := by rw [isClass, hkind]; rfl
        rw [hs.outerPath_of_class hp hmodule hclass]
        apply ih p hp
        intro c hc
        exact h c (.skips hp hkind hc)
      | callable kind => exact absurd (.direct hp (by rw [hkind]; rfl)) (h p)

/-- **There is a search for every name of every body.** -/
theorem Acyclic.search_total (name : String) (b : BodyId) :
    ∃ path found, s.Search name b path found := by
  suffices hmain : ∀ (limit : Nat) (b : BodyId), (s.outerPath b).length < limit →
      ∃ path found, s.Search name b path found from hmain _ b (Nat.lt_succ_self _)
  intro limit
  induction limit with
  | zero =>
    intro b hb
    omega
  | succ limit ih =>
    intro b hb
    cases h : s.find? b name with
    | some v => exact ⟨_, _, .sees h⟩
    | none =>
      by_cases hglobal : name ∈ (s.body b).globals
      · exact ⟨_, _, .declared h hglobal⟩
      · by_cases hencloses : ∃ c, s.Encloses b c
        · obtain ⟨c, hc⟩ := hencloses
          rw [hs.outerPath_of_encloses hc, lookupPath_eq, List.length_cons] at hb
          obtain ⟨path, found, hrest⟩ := ih c (by omega)
          exact ⟨_, _, .outer h hglobal hc hrest⟩
        · exact ⟨_, _, .outermost h hglobal fun c hc => hencloses ⟨c, hc⟩⟩

end Acyclic

/-! ## What resolving a name changes -/

/-- The bodies of a path have come to see a variable, at the end of what they saw, and nothing else
has changed.  Where no variable was found, nothing has. -/
structure Registered (s s' : Store) (path : List BodyId) (found : Option VariableId) : Prop where
  unchanged : found = none → s' = s
  vars : s'.vars = s.vars
  bodies : s'.bodies.size = s.bodies.size
  body : ∀ v, found = some v → ∀ c, s'.body c =
    if c ∈ path ∧ v ∉ s.visible c then { s.body c with visible := s.visible c ++ [v] }
    else s.body c

theorem Registered.refl (hpath : ∀ v, found = some v → ∀ c ∈ path, v ∈ s.visible c) :
    Registered s s path found where
  unchanged _ := rfl
  vars := rfl
  bodies := rfl
  body v hv c := by
    rw [if_neg]
    rintro ⟨hc, hnew⟩
    exact hnew (hpath v hv c hc)

theorem Registered.refl_none : Registered s s path none := by
  apply Registered.refl
  intro v hv
  cases hv

/-- A body that a search has passed comes to see what the search behind it found. -/
theorem Registered.reveal (h : Registered s s' path (some v)) (hb : b.index < s.bodies.size)
    (hpath : b ∉ path) (hnew : v ∉ s.visible b) :
    Registered s (s'.reveal b v) (b :: path) (some v) where
  unchanged hnone := by cases hnone
  vars := h.vars
  bodies := by rw [size_bodies_reveal, h.bodies]
  body w hw c := by
    cases hw
    have hsame : s'.body b = s.body b := by
      rw [h.body v rfl, if_neg fun hmem => hpath hmem.1]
    rw [body_reveal, h.bodies]
    by_cases hbc : b = c
    · subst hbc
      rw [if_pos ⟨rfl, hb⟩, if_pos ⟨List.mem_cons_self, hnew⟩, visible, hsame, visible]
    · have hmem : c ∈ b :: path ↔ c ∈ path := by
        rw [List.mem_cons, or_iff_right fun he => hbc he.symm]
      rw [if_neg fun he => hbc he.1, h.body v rfl]
      simp only [hmem]

section Registered

variable (h : Registered s s' path found)
include h

/-- Only what bodies see has changed. -/
theorem Registered.unseen (c : BodyId) : (s'.body c).unseen = (s.body c).unseen := by
  cases hfound : found with
  | none => rw [h.unchanged hfound]
  | some v =>
    rw [h.body v hfound]
    split <;> rfl

theorem Registered.provider (c : BodyId) : (s'.body c).provider = (s.body c).provider :=
  Body.view_of_unseen Body.provider (fun _ => rfl) (h.unseen c)

theorem Registered.kind (c : BodyId) : (s'.body c).kind = (s.body c).kind :=
  Body.view_of_unseen Body.kind (fun _ => rfl) (h.unseen c)

theorem Registered.globals (c : BodyId) : (s'.body c).globals = (s.body c).globals :=
  Body.view_of_unseen Body.globals (fun _ => rfl) (h.unseen c)

theorem Registered.encloses : s.Encloses b c ↔ s'.Encloses b c :=
  ⟨.congr h.provider h.kind, .congr (fun c => (h.provider c).symm) fun c => (h.kind c).symm⟩

/-- What a body sees under a name is what it saw, unless the name is the one that was resolved and
the body was passed. -/
theorem Registered.find?_cases (c : BodyId) (other : String) :
    s'.find? c other = s.find? c other ∨
      ∃ v, found = some v ∧ c ∈ path ∧ (s.var v).name = other ∧ s.find? c other = none ∧
        s'.find? c other = some v := by
  have hvar : ∀ v, s'.var v = s.var v := fun v => by rw [var, h.vars, var]
  cases hfound : found with
  | none => exact Or.inl (by rw [h.unchanged hfound])
  | some v =>
    have hbody := h.body v hfound c
    split at hbody
    · rename_i hnew
      have hfind : s'.find? c other =
          (s.find? c other).or (if (s.var v).name = other then some v else none) := by
        rw [find?, visible, hbody, List.find?_append, find?, List.find?_singleton]
        simp only [hvar, beq_iff_eq]
      cases hold : s.find? c other with
      | some w => exact Or.inl (by rw [hfind, hold]; rfl)
      | none =>
        rw [hold, Option.none_or] at hfind
        split at hfind
        · exact Or.inr ⟨v, rfl, hnew.1, by assumption, rfl, hfind⟩
        · exact Or.inl hfind
    · left
      rw [find?, visible, hbody, find?]
      simp only [hvar, visible]

end Registered

/-- **Resolving a name finds what the search finds, and registers it.** -/
theorem Acyclic.resolve_of_search (hs : s.Acyclic) (h : s.Search name b path found) :
    (s.resolve b name).1 = found ∧ Registered s (s.resolve b name).2 path found ∧
      path.Sublist (s.lookupPath b) := by
  induction h with
  | @sees b v h =>
    have hresolve : s.resolve b name = (some v, s) := by
      rw [resolve, lookupPath_eq, resolveAlong, h]
    refine ⟨by rw [hresolve], ?_, (List.nil_sublist _).cons_cons b⟩
    rw [hresolve]
    apply Registered.refl
    intro w hw c hc
    cases hw
    cases List.mem_singleton.1 hc
    exact (find?_eq_some h).1
  | @declared b h hglobal =>
    have hresolve : s.resolve b name = (none, s) := by
      rw [resolve, lookupPath_eq, resolveAlong, h]
      exact if_pos hglobal
    refine ⟨by rw [hresolve], ?_, (List.nil_sublist _).cons_cons b⟩
    rw [hresolve]
    exact .refl_none
  | @outermost b h hglobal hnone =>
    have hresolve : s.resolve b name = (none, s) := by
      rw [resolve, lookupPath_eq, hs.outerPath_of_outermost hnone, resolveAlong, h]
      exact if_neg hglobal
    refine ⟨by rw [hresolve], ?_, (List.nil_sublist _).cons_cons b⟩
    rw [hresolve]
    exact .refl_none
  | @outer b c path found h hglobal hencloses hrest ih =>
    obtain ⟨hfound, hregistered, hsub⟩ := ih
    have hpath : s.lookupPath b = b :: s.lookupPath c := by
      rw [lookupPath_eq, hs.outerPath_of_encloses hencloses]
    have hresolve : s.resolve b name = s.resolveAlong name (b :: s.lookupPath c) := by
      rw [resolve, hpath]
    rw [resolveAlong, h] at hresolve
    dsimp only at hresolve
    rw [if_neg hglobal] at hresolve
    rcases hinner : s.resolve c name with ⟨result, t⟩
    rw [hinner] at hfound hregistered
    rw [resolve] at hinner
    rw [hinner] at hresolve
    obtain rfl : result = found := hfound
    rw [hpath, hresolve]
    cases result with
    | none =>
      obtain rfl := hregistered.unchanged rfl
      exact ⟨rfl, .refl_none, hsub.cons_cons b⟩
    | some v =>
      -- the body is in no scope around itself, so it has not come to see the variable yet
      have hnodup : (b :: s.lookupPath c).Nodup := hpath ▸ hs.nodup_lookupPath b
      refine ⟨rfl, hregistered.reveal hencloses.lt ?_ ?_, hsub.cons_cons b⟩
      · intro hmem
        exact (List.nodup_cons.1 hnodup).1 (hsub.subset hmem)
      · intro hseen
        have hnone := List.find?_eq_none.1 h v hseen
        exact hnone (beq_iff_eq.2 hrest.var_name)

/-! ## Later searches -/

/-- What was found before is found afterwards. -/
theorem Search.registered (hregistered : Registered s s' path found)
    (h : s.Search name b path found) {path' : List BodyId} (h' : s.Search other c path' found') :
    s'.Finds c other found' := by
  induction h' with
  | @sees c v hsees =>
    rcases hregistered.find?_cases c other with hsame | ⟨_, -, -, -, hnone, -⟩
    · exact ⟨_, .sees (hsame.trans hsees)⟩
    · simp [hsees] at hnone
  | @declared c hnone hglobal =>
    rcases hregistered.find?_cases c other with hsame | ⟨v, rfl, hmem, hname, -, hsees⟩
    · exact ⟨_, .declared (hsame.trans hnone) (by rw [hregistered.globals]; exact hglobal)⟩
    · -- the body was passed, so its own search would have gone on as well
      obtain rfl : name = other := h.var_name.symm.trans hname
      have hfinds : s.Finds c name (some v) := h.finds_of_mem hmem
      cases hfinds.unique ⟨_, .declared hnone hglobal⟩
  | @outer c d rest found₁ hnone hglobal hencloses hrest ih =>
    rcases hregistered.find?_cases c other with hsame | ⟨v, rfl, hmem, hname, -, hsees⟩
    · obtain ⟨path₁, hrest'⟩ := ih
      exact ⟨_, .outer (hsame.trans hnone) (by rw [hregistered.globals]; exact hglobal)
        (hregistered.encloses.1 hencloses) hrest'⟩
    · -- the body now sees at once what its search has found all along
      obtain rfl : name = other := h.var_name.symm.trans hname
      have hfinds : s.Finds c name (some v) := h.finds_of_mem hmem
      cases hfinds.unique ⟨_, .outer hnone hglobal hencloses hrest⟩
      exact ⟨_, .sees hsees⟩
  | @outermost c hnone hglobal houtermost =>
    rcases hregistered.find?_cases c other with hsame | ⟨v, rfl, hmem, hname, -, hsees⟩
    · exact ⟨_, .outermost (hsame.trans hnone) (by rw [hregistered.globals]; exact hglobal)
        fun d hd => houtermost d (hregistered.encloses.2 hd)⟩
    · obtain rfl : name = other := h.var_name.symm.trans hname
      have hfinds : s.Finds c name (some v) := h.finds_of_mem hmem
      cases hfinds.unique ⟨_, .outermost hnone hglobal houtermost⟩

theorem Acyclic.resolve (hs : s.Acyclic) (b : BodyId) (name : String) :
    (s.resolve b name).2.Acyclic := by
  obtain ⟨path, found, hsearch⟩ := hs.search_total name b
  obtain ⟨-, hregistered, -⟩ := hs.resolve_of_search hsearch
  exact hs.congr hregistered.provider

/-- **After a name has been resolved every search finds what it would have found before.** -/
theorem Acyclic.finds_iff (hs : s.Acyclic) (b : BodyId) (name : String) :
    (s.resolve b name).2.Finds c other found ↔ s.Finds c other found := by
  obtain ⟨path, found₁, hsearch⟩ := hs.search_total name b
  obtain ⟨-, hregistered, -⟩ := hs.resolve_of_search hsearch
  constructor
  · intro hafter
    obtain ⟨path', found', hbefore⟩ := hs.search_total other c
    obtain rfl := hafter.unique (Search.registered hregistered hsearch hbefore)
    exact ⟨_, hbefore⟩
  · rintro ⟨path', hbefore⟩
    exact Search.registered hregistered hsearch hbefore

/-! ## Many names -/

/-- Resolves names in bodies, one after the other. -/
def resolveAll : List (BodyId × String) → Store → List (Option VariableId) × Store
  | [], s => ([], s)
  | (b, name) :: rest, s =>
    let (found, s) := s.resolve b name
    let (others, s) := resolveAll rest s
    (found :: others, s)

section Acyclic

variable (hs : s.Acyclic)
include hs

theorem Acyclic.finds_resolve (b : BodyId) (name : String) :
    s.Finds b name (s.resolve b name).1 := by
  obtain ⟨path, found, hsearch⟩ := hs.search_total name b
  obtain ⟨hfound, -, -⟩ := hs.resolve_of_search hsearch
  rw [hfound]
  exact ⟨path, hsearch⟩

/-- The search along the list of scopes is the search. -/
theorem Acyclic.finds_iff_lookup : s.Finds b name found ↔ s.lookup b name = found := by
  rw [← resolve_fst]
  constructor
  · exact fun h => h.unique (hs.finds_resolve b name)
  · rintro rfl
    exact hs.finds_resolve b name

/-- What a name stands for in a body does not depend on what has been resolved before. -/
theorem Acyclic.lookup_resolve (b c : BodyId) (name other : String) :
    (s.resolve b name).2.lookup c other = s.lookup c other :=
  (hs.resolve b name).finds_iff_lookup.1 ((hs.finds_iff b name).2 (hs.finds_iff_lookup.2 rfl))

/-- **Names are resolved one after the other as each would be alone.** -/
theorem Acyclic.resolveAll_fst (references : List (BodyId × String)) :
    (resolveAll references s).1 = references.map fun r => s.lookup r.1 r.2 := by
  induction references generalizing s with
  | nil => rfl
  | cons first rest ih =>
    obtain ⟨b, name⟩ := first
    have hrest : (resolveAll rest (s.resolve b name).2).1 =
        rest.map fun r => s.lookup r.1 r.2 := by
      rw [ih (hs.resolve b name)]
      apply List.map_congr_left
      intro r _
      exact hs.lookup_resolve b r.1 name r.2
    rw [List.map_cons, ← resolve_fst, ← hrest]
    rfl

/-- **Resolving a name agrees with searching for it, and disturbs no search.**  There is one search
for the name; resolving gives what it finds, and lets exactly those bodies that it visits and that
do not see the variable yet see it, as their last one; every search finds afterwards what it found
before; and so it does not matter in what order names are resolved. -/
theorem Acyclic.resolve_agrees (b : BodyId) (name : String) :
    ∃ path found,
      (∀ path' found', s.Search name b path' found' ↔ path' = path ∧ found' = found) ∧
      (s.resolve b name).1 = found ∧
      Registered s (s.resolve b name).2 path found ∧
      (∀ c other found', (s.resolve b name).2.Finds c other found' ↔ s.Finds c other found') ∧
      ∀ references : List (BodyId × String),
        (∀ r ∈ references, s.Finds r.1 r.2 (s.lookup r.1 r.2)) ∧
        (resolveAll references s).1 = references.map fun r => s.lookup r.1 r.2 := by
  obtain ⟨path, found, hsearch⟩ := hs.search_total name b
  obtain ⟨hfound, hregistered, -⟩ := hs.resolve_of_search hsearch
  refine ⟨path, found, ?_, hfound, hregistered, ?_, ?_⟩
  · intro path' found'
    constructor
    · exact hsearch.unique
    · rintro ⟨rfl, rfl⟩
      exact hsearch
  · intro c other found'
    exact hs.finds_iff b name
  · intro references
    refine ⟨?_, hs.resolveAll_fst references⟩
    intro r _
    exact hs.finds_iff_lookup.2 rfl

end Acyclic

/-- Four bodies, numbered from within outwards: a function in a class in a function with a parameter
in a module. -/
def reversedStore : Store where
  bodies :=
    #[{ (default : Body) with kind := .function, provider := some ⟨1⟩ },
      { (default : Body) with kind := .classBody, provider := some ⟨2⟩ },
      { (default : Body) with kind := .function, provider := some ⟨3⟩, visible := [⟨0⟩] },
      { (default : Body) with kind := .moduleBody }]
  vars := #[⟨"x", ⟨2⟩, .parameter⟩]

theorem reversedStore_acyclic : reversedStore.Acyclic := by
  apply acyclic_of_measure fun b => 4 - b.index
  rintro ⟨i⟩ p hp
  have hi : i < 4 := lt_of_provider hp
  obtain rfl | rfl | rfl | rfl : i = 0 ∨ i = 1 ∨ i = 2 ∨ i = 3 := by omega
  · cases hp
    decide
  · cases hp
    decide
  · cases hp
    decide
  · cases hp

/-- The innermost function comes to see the parameter, and the class in between does not. -/
theorem reversedStore_resolve :
    reversedStore.Acyclic ∧ (reversedStore.resolve ⟨0⟩ "x").1 = some ⟨0⟩ ∧
      (reversedStore.resolve ⟨0⟩ "x").2.visible ⟨0⟩ = [⟨0⟩] ∧
      (reversedStore.resolve ⟨0⟩ "x").2.visible ⟨1⟩ = [] := by
  obtain ⟨path, found, hunique, hfound, hregistered, -, -⟩ :=
    reversedStore_acyclic.resolve_agrees ⟨0⟩ "x"
  have hsearch : reversedStore.Search "x" ⟨0⟩ [⟨0⟩, ⟨2⟩] (some ⟨0⟩) :=
    .outer (by decide) (by decide) (.skips rfl rfl (.direct rfl rfl)) (.sees (by decide))
  obtain ⟨rfl, rfl⟩ := (hunique _ _).1 hsearch
  refine ⟨reversedStore_acyclic, hfound, ?_, ?_⟩
  · rw [visible, hregistered.body ⟨0⟩ rfl]
    decide
  · rw [visible, hregistered.body ⟨0⟩ rfl]
    decide

end DefinitionLowering.IR.Store
