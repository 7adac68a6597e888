import DefinitionLowering.Proofs.Growth

/-!
# Looking names up

`lookupAlong` is the search along some scopes without any bookkeeping.  `resolveAlong` finds the
same variable (`resolveAlong_fst`), and lets the scopes it passed see it: what another body
sees, and what is found under other names, stays the same (`resolveAlong_visible`).

Sharing gives a body that sees nothing yet exactly what another body sees (`visible_share`).
-/

namespace DefinitionLowering.IR.Store

variable {s s' : Store} {b c p : BodyId} {v w : VariableId} {name : String} {path : List BodyId}

/-! ## Scopes of a search -/

/-- The scopes around a body in which its names are searched. -/
def outerPath (s : Store) (b : BodyId) : List BodyId :=
  ((s.ancestors b).takeWhile fun a => !s.isModule a).filter fun a => !s.isClass a

theorem lookupPath_eq (s : Store) (b : BodyId) : s.lookupPath b = b :: s.outerPath b := rfl

theorem mem_ancestors_of_mem_outerPath (h : p ∈ s.outerPath b) : p ∈ s.ancestors b :=
  (List.takeWhile_sublist _).subset (List.mem_filter.1 h).1

theorem outerPath_of_no_provider (h : (s.body b).provider = none) : s.outerPath b = [] := by
  rw [outerPath, ancestors_of_no_provider h]
  rfl

theorem Acyclic.outerPath_of_module (h : s.Acyclic) (hp : (s.body b).provider = some p)
    (hm : s.isModule p = true) : s.outerPath b = [] := by
  rw [outerPath, h.ancestors hp, List.takeWhile_cons_of_neg (by simp [hm])]
  rfl

theorem Acyclic.outerPath_of_class (h : s.Acyclic) (hp : (s.body b).provider = some p)
    (hm : s.isModule p = false) (hc : s.isClass p = true) : s.outerPath b = s.outerPath p := by
  rw [outerPath, h.ancestors hp, List.takeWhile_cons_of_pos (by simp [hm]),
    List.filter_cons_of_neg (by simp [hc])]
  rfl

theorem Acyclic.outerPath_of_callable (h : s.Acyclic) (hp : (s.body b).provider = some p)
    (hm : s.isModule p = false) (hc : s.isClass p = false) :
    s.outerPath b = p :: s.outerPath p := by
  rw [outerPath, h.ancestors hp, List.takeWhile_cons_of_pos (by simp [hm]),
    List.filter_cons_of_pos (by simp [hc])]
  rfl

theorem Ordered.outerPath_of_module (h : s.Ordered) (hp : (s.body b).provider = some p)
    (hm : s.isModule p = true) : s.outerPath b = [] :=
  h.acyclic.outerPath_of_module hp hm

theorem Ordered.outerPath_of_class (h : s.Ordered) (hp : (s.body b).provider = some p)
    (hm : s.isModule p = false) (hc : s.isClass p = true) : s.outerPath b = s.outerPath p :=
  h.acyclic.outerPath_of_class hp hm hc

theorem Ordered.outerPath_of_callable (h : s.Ordered) (hp : (s.body b).provider = some p)
    (hm : s.isModule p = false) (hc : s.isClass p = false) :
    s.outerPath b = p :: s.outerPath p :=
  h.acyclic.outerPath_of_callable hp hm hc

/-- The scopes behind one on a search are those of its own search. -/
theorem Ordered.outerPath_suffix (h : s.Ordered) {before after : List BodyId} :
    ∀ {b : BodyId}, s.outerPath b = before ++ c :: after → s.outerPath c = after := by
  suffices hmain : ∀ (limit : Nat) (b : BodyId) (before : List BodyId), b.index < limit →
      s.outerPath b = before ++ c :: after → s.outerPath c = after from
    fun {b} => hmain (b.index + 1) b before (Nat.lt_succ_self _)
  intro limit
  induction limit with
  | zero =>
    intro b before hb
    omega
  | succ limit ih =>
    intro b before hb hsplit
    cases hp : (s.body b).provider with
    | none =>
      rw [outerPath_of_no_provider hp] at hsplit
      simp at hsplit
    | some p =>
      have hpb := h b p hp
      cases hm : s.isModule p with
      | true =>
        rw [h.outerPath_of_module hp hm] at hsplit
        simp at hsplit
      | false =>
        cases hc : s.isClass p with
        | true =>
          rw [h.outerPath_of_class hp hm hc] at hsplit
          exact ih p before (by omega) hsplit
        | false =>
          rw [h.outerPath_of_callable hp hm hc] at hsplit
          cases before with
          | nil =>
            cases hsplit
            rfl
          | cons first before =>
            rw [List.cons_append, List.cons.injEq] at hsplit
            exact ih p before (by omega) hsplit.2

theorem Ordered.lookupPath_suffix (h : s.Ordered) {before after : List BodyId}
    (hp : s.lookupPath b = before ++ c :: after) : s.lookupPath c = c :: after := by
  rw [lookupPath_eq] at hp ⊢
  cases before with
  | nil =>
    cases hp
    rfl
  | cons first before =>
    rw [List.cons_append, List.cons.injEq] at hp
    rw [h.outerPath_suffix hp.2]

theorem lookupPath_sublist (s : Store) (b : BodyId) :
    (s.lookupPath b).Sublist (b :: s.ancestors b) :=
  (List.filter_sublist.trans (List.takeWhile_sublist _)).cons_cons b

theorem Acyclic.nodup_lookupPath (h : s.Acyclic) (b : BodyId) : (s.lookupPath b).Nodup :=
  (h.nodup_ancestors b).sublist (s.lookupPath_sublist b)

theorem Ordered.nodup_lookupPath (h : s.Ordered) (b : BodyId) : (s.lookupPath b).Nodup :=
  h.acyclic.nodup_lookupPath b

/-! ## The search -/

/-- Searches the scopes of a path for a name. A scope that declares the name global ends the
search. -/
def lookupAlong (s : Store) (name : String) : List BodyId → Option VariableId
  | [] => none
  | b :: outer =>
    match s.find? b name with
    | some v => some v
    | none => if name ∈ (s.body b).globals then none else s.lookupAlong name outer

/-- The variable that a name stands for in a body, if it is no global name. -/
def lookup (s : Store) (b : BodyId) (name : String) : Option VariableId :=
  s.lookupAlong name (s.lookupPath b)

theorem lookupAlong_name (h : s.lookupAlong name path = some v) :
    ∃ b ∈ path, v ∈ s.visible b ∧ (s.var v).name = name := by
  induction path with
  | nil => cases h
  | cons b outer ih =>
    unfold lookupAlong at h
    cases hf : s.find? b name with
    | some w =>
      rw [hf] at h
      cases h
      exact ⟨b, List.mem_cons_self, find?_eq_some hf⟩
    | none =>
      rw [hf] at h
      dsimp only at h
      split at h
      · cases h
      · obtain ⟨c, hc, hv⟩ := ih h
        exact ⟨c, List.mem_cons_of_mem _ hc, hv⟩

/-- Searching with bookkeeping adds neither bodies nor variables. -/
theorem resolveAlong_sizes (name : String) : ∀ (path : List BodyId) (s : Store),
    (s.resolveAlong name path).2.vars = s.vars ∧
      (s.resolveAlong name path).2.bodies.size = s.bodies.size
  | [], _ => ⟨rfl, rfl⟩
  | b :: outer, s => by
    have ih := resolveAlong_sizes name outer s
    rw [resolveAlong]
    cases s.find? b name with
    | some v => exact ⟨rfl, rfl⟩
    | none =>
      dsimp only
      split
      · exact ⟨rfl, rfl⟩
      · rcases hr : s.resolveAlong name outer with ⟨found, s'⟩
        rw [hr] at ih
        cases found with
        | none => exact ih
        | some v => exact ⟨ih.1, by rw [size_bodies_reveal]; exact ih.2⟩

/-- **Searching with bookkeeping finds what the plain search finds.** -/
theorem resolveAlong_fst (name : String) : ∀ (path : List BodyId) (s : Store),
    (s.resolveAlong name path).1 = s.lookupAlong name path
  | [], _ => rfl
  | b :: outer, s => by
    have ih := resolveAlong_fst name outer s
    rw [resolveAlong, lookupAlong]
    cases s.find? b name with
    | some v => rfl
    | none =>
      dsimp only
      split
      · rfl
      · rw [← ih]
        rcases s.resolveAlong name outer with ⟨found, s'⟩
        cases found <;> rfl

/-- **What bodies see after a search**: one that the search passed on the way to a variable sees
that variable as well, the others what they saw. -/
theorem resolveAlong_visible (name : String) : ∀ (path : List BodyId) (s : Store), path.Nodup →
    ∀ c, (s.resolveAlong name path).2.visible c = s.visible c ∨
      ∃ before after v, path = before ++ c :: after ∧ s.find? c name = none ∧
        name ∉ (s.body c).globals ∧ s.lookupAlong name (c :: after) = some v ∧
        (s.resolveAlong name path).2.visible c = s.visible c ++ [v]
  | [], _, _, _ => Or.inl rfl
  | b :: outer, s, hn, c => by
    obtain ⟨hb, hn⟩ := List.nodup_cons.1 hn
    have ih := resolveAlong_visible name outer s hn
    have hfst := resolveAlong_fst name outer s
    have hsize := (resolveAlong_sizes name outer s).2
    rw [resolveAlong]
    cases hf : s.find? b name with
    | some v => exact Or.inl rfl
    | none =>
      dsimp only
      split
      · exact Or.inl rfl
      · rename_i hglobal
        have hhere : s.lookupAlong name (b :: outer) = s.lookupAlong name outer := by
          rw [lookupAlong, hf]
          exact if_neg hglobal
        rcases hr : s.resolveAlong name outer with ⟨found, s'⟩
        rw [hr] at ih hfst hsize
        have hshift : s'.visible c = s.visible c ∨
            ∃ before after v, b :: outer = before ++ c :: after ∧ s.find? c name = none ∧
              name ∉ (s.body c).globals ∧ s.lookupAlong name (c :: after) = some v ∧
              s'.visible c = s.visible c ++ [v] := by
          rcases ih c with h | ⟨before, after, v, hsplit, h⟩
          · exact Or.inl h
          · exact Or.inr ⟨b :: before, after, v, by rw [hsplit]; rfl, h⟩
        cases found with
        | none => exact hshift
        | some v =>
          dsimp only
          by_cases hbc : b = c
          · subst hbc
            have hsame : s'.visible b = s.visible b := by
              rcases ih b with h | ⟨before, after, v, hsplit, -⟩
              · exact h
              · exact absurd (by rw [hsplit]; simp) hb
            by_cases hlt : b.index < s'.bodies.size
            · refine Or.inr ⟨[], outer, v, rfl, hf, hglobal, ?_, ?_⟩
              · rw [hhere, ← hfst]
              · rw [visible_reveal_self hlt, hsame]
            · left
              rw [visible, body_reveal, if_neg fun h => hlt h.2]
              exact hsame
          · rw [visible_reveal_ne hbc]
            exact hshift

/-- A search that finds nothing leaves the store as it is. -/
theorem resolveAlong_of_none : ∀ {path : List BodyId}, s.lookupAlong name path = none →
    (s.resolveAlong name path).2 = s
  | [], _ => rfl
  | b :: outer, h => by
    rw [lookupAlong] at h
    rw [resolveAlong]
    cases hf : s.find? b name with
    | some v => rfl
    | none =>
      rw [hf] at h
      dsimp only at h ⊢
      split
      · rfl
      · rename_i hglobal
        rw [if_neg hglobal] at h
        have ih := resolveAlong_of_none h
        have hfst := resolveAlong_fst name outer s
        rw [h] at hfst
        rcases hr : s.resolveAlong name outer with ⟨found, s'⟩
        rw [hr] at ih hfst
        cases hfst
        exact ih

/-- **A search that finds a variable** passes some scopes that neither see the name nor declare
it global; exactly these see the variable from then on. -/
theorem resolveAlong_of_some : ∀ {path : List BodyId}, path.Nodup →
    (∀ c ∈ path, c.index < s.bodies.size) → s.lookupAlong name path = some v →
    ∃ seen found rest, path = seen ++ found :: rest ∧
      (∀ c ∈ seen, s.find? c name = none ∧ name ∉ (s.body c).globals) ∧
      s.find? found name = some v ∧
      ∀ c, (s.resolveAlong name path).2.visible c =
        if c ∈ seen then s.visible c ++ [v] else s.visible c
  | [], _, _, h => by cases h
  | b :: outer, hn, hlt, h => by
    obtain ⟨hb, hn⟩ := List.nodup_cons.1 hn
    rw [lookupAlong] at h
    rw [resolveAlong]
    cases hf : s.find? b name with
    | some w =>
      rw [hf] at h
      cases h
      exact ⟨[], b, outer, rfl, fun _ hc => absurd hc List.not_mem_nil, hf, fun _ => rfl⟩
    | none =>
      rw [hf] at h
      dsimp only at h ⊢
      split
      · rename_i hglobal
        rw [if_pos hglobal] at h
        cases h
      · rename_i hglobal
        rw [if_neg hglobal] at h
        obtain ⟨seen, found, rest, hsplit, hpassed, hfound, hvisible⟩ :=
          resolveAlong_of_some hn (fun c hc => hlt c (List.mem_cons_of_mem _ hc)) h
        have hfst := resolveAlong_fst name outer s
        have hsize := (resolveAlong_sizes name outer s).2
        rw [h] at hfst
        rcases hr : s.resolveAlong name outer with ⟨w, s'⟩
        rw [hr] at hvisible hfst hsize
        cases hfst
        have hnew : b ∉ seen := fun hmem => hb (hsplit ▸ List.mem_append_left _ hmem)
        refine ⟨b :: seen, found, rest, by rw [hsplit]; rfl, fun c hc => ?_, hfound, fun c => ?_⟩
        · rcases List.mem_cons.1 hc with rfl | hc
          · exact ⟨hf, hglobal⟩
          · exact hpassed c hc
        · dsimp only at hvisible hsize ⊢
          by_cases hbc : b = c
          · subst hbc
            rw [visible_reveal_self (hsize.symm ▸ hlt b List.mem_cons_self), hvisible,
              if_neg hnew, if_pos List.mem_cons_self]
          · have hmem : c ∈ b :: seen ↔ c ∈ seen := by
              rw [List.mem_cons, or_iff_right fun he => hbc he.symm]
            rw [visible_reveal_ne hbc, hvisible]
            simp only [hmem]

section Resolve

variable (s b name)

theorem resolve_fst : (s.resolve b name).1 = s.lookup b name :=
  resolveAlong_fst name _ s

@[simp] theorem vars_resolve : (s.resolve b name).2.vars = s.vars :=
  (resolveAlong_sizes name _ s).1

@[simp] theorem size_bodies_resolve : (s.resolve b name).2.bodies.size = s.bodies.size :=
  (resolveAlong_sizes name _ s).2

/-- What a body sees after a name has been resolved is what the name means in it; only bodies
on the search path come to see more. -/
theorem Ordered.resolve_visible (h : s.Ordered) (c : BodyId) :
    (s.resolve b name).2.visible c = s.visible c ∨
      ∃ v, c ∈ s.lookupPath b ∧ s.find? c name = none ∧ s.lookup c name = some v ∧
        (s.resolve b name).2.visible c = s.visible c ++ [v] := by
  rcases resolveAlong_visible name _ s (h.nodup_lookupPath b) c with hsame | hnew
  · exact Or.inl hsame
  · obtain ⟨before, after, v, hsplit, hfind, -, hlookup, hvisible⟩ := hnew
    refine Or.inr ⟨v, ?_, hfind, ?_, hvisible⟩
    · rw [hsplit]
      exact List.mem_append_right _ List.mem_cons_self
    · rw [lookup, h.lookupPath_suffix hsplit]
      exact hlookup

/-- After a search that finds a variable, the body it started in sees the variable. -/
theorem Ordered.find?_resolve_self (h : s.Ordered) (hb : b.index < s.bodies.size)
    (hl : s.lookup b name = some v) : (s.resolve b name).2.find? b name = some v := by
  have hname : ((s.resolve b name).2.var v).name = name := by
    rw [var, vars_resolve]
    exact (lookupAlong_name hl).choose_spec.2.2
  rw [← resolve_fst] at hl
  unfold resolve at hl hname ⊢
  rw [lookupPath_eq, resolveAlong] at hl hname ⊢
  cases hf : s.find? b name with
  | some w =>
    rw [hf] at hl
    cases hl
    exact hf
  | none =>
    rw [hf] at hl hname
    dsimp only at hl hname ⊢
    split at hl
    · cases hl
    · rename_i hglobal
      rw [if_neg hglobal] at hname ⊢
      have hnodup := h.nodup_lookupPath b
      rw [lookupPath_eq, List.nodup_cons] at hnodup
      have hsize := (resolveAlong_sizes name (s.outerPath b) s).2
      have hvars := (resolveAlong_sizes name (s.outerPath b) s).1
      have hsame : (s.resolveAlong name (s.outerPath b)).2.visible b = s.visible b := by
        rcases resolveAlong_visible name _ s hnodup.2 b with hsame | ⟨_, _, _, hsplit, -⟩
        · exact hsame
        · exact absurd (by rw [hsplit]; simp) hnodup.1
      rcases hr : s.resolveAlong name (s.outerPath b) with ⟨found, s'⟩
      rw [hr] at hl hname hsize hvars hsame
      cases found with
      | none => cases hl
      | some w =>
        cases hl
        have hnone : s'.find? b name = none := by
          rw [find?_congr hsame fun u _ => by rw [var, hvars, var], hf]
        unfold find? at hnone ⊢
        dsimp only at hname ⊢
        rw [visible_reveal_self (hsize.symm ▸ hb), List.find?_append]
        simp only [var_reveal] at hname ⊢
        rw [hnone, Option.none_or, List.find?_singleton, if_pos (beq_iff_eq.2 hname)]

end Resolve

/-! ## Sharing -/

/-- Showing a body variables that it does not see. -/
theorem foldl_reveal (hb : b.index < s.bodies.size) {vars : List VariableId} (hn : vars.Nodup)
    (hnew : ∀ v ∈ vars, v ∉ s.visible b) :
    (vars.foldl (fun s v => if v ∈ s.visible b then s else s.reveal b v) s).visible b =
      s.visible b ++ vars := by
  induction vars generalizing s with
  | nil => simp
  | cons v rest ih =>
    obtain ⟨hv, hn⟩ := List.nodup_cons.1 hn
    rw [List.foldl_cons, if_neg (hnew v List.mem_cons_self)]
    rw [ih (by simpa using hb) hn, visible_reveal_self hb, List.append_assoc]
    · rfl
    · intro w hw
      rw [visible_reveal_self hb, List.mem_append, List.mem_singleton]
      rintro (hseen | rfl)
      · exact hnew w (List.mem_cons_of_mem _ hw) hseen
      · exact hv hw

/-- A body that sees nothing yet comes to see what another one sees. -/
theorem visible_share (hb : b.index < s.bodies.size) (hempty : s.visible b = [])
    (hn : (s.visible c).Nodup) : (s.share c b).visible b = s.visible c := by
  rw [share, foldl_reveal hb hn fun v _ hv => by simp [hempty] at hv, hempty, List.nil_append]

/-- Sharing adds what the other body sees, and nothing else. -/
theorem visible_share_append (s : Store) (b c : BodyId) :
    ∃ more, (s.share c b).visible b = s.visible b ++ more ∧ ∀ v ∈ more, v ∈ s.visible c := by
  suffices hmain : ∀ (vars : List VariableId) (s : Store), ∃ more,
      (vars.foldl (fun s v => if v ∈ s.visible b then s else s.reveal b v) s).visible b =
        s.visible b ++ more ∧ ∀ v ∈ more, v ∈ vars from hmain _ s
  intro vars
  induction vars with
  | nil => exact fun s => ⟨[], (List.append_nil _).symm, fun _ h => h⟩
  | cons w rest ih =>
    intro s
    have hfirst : ∃ more, (if w ∈ s.visible b then s else s.reveal b w).visible b =
        s.visible b ++ more ∧ ∀ v ∈ more, v = w := by
      by_cases hb : b.index < s.bodies.size
      · split
        · exact ⟨[], (List.append_nil _).symm, fun _ h => by cases h⟩
        · exact ⟨[w], visible_reveal_self hb, fun _ h => List.mem_singleton.1 h⟩
      · refine ⟨[], ?_, fun _ h => by cases h⟩
        split
        · exact (List.append_nil _).symm
        · rw [visible, body_reveal, if_neg fun h => hb h.2, List.append_nil, visible]
    obtain ⟨more₁, hmore₁, hw⟩ := hfirst
    obtain ⟨more₂, hmore₂, hrest⟩ := ih (if w ∈ s.visible b then s else s.reveal b w)
    refine ⟨more₁ ++ more₂, ?_, fun v hv => ?_⟩
    · rw [List.foldl_cons, hmore₂, hmore₁, List.append_assoc]
    · rcases List.mem_append.1 hv with hv | hv
      · exact hw v hv ▸ List.mem_cons_self
      · exact List.mem_cons_of_mem _ (hrest v hv)

/-- Sharing changes neither the variables nor what other bodies see. -/
theorem share_frame (s : Store) (b c : BodyId) :
    (s.share c b).vars = s.vars ∧ (s.share c b).bodies.size = s.bodies.size ∧
      ∀ d, b ≠ d → (s.share c b).visible d = s.visible d := by
  suffices hmain : ∀ (vars : List VariableId) (s : Store),
      let s' := vars.foldl (fun s v => if v ∈ s.visible b then s else s.reveal b v) s
      s'.vars = s.vars ∧ s'.bodies.size = s.bodies.size ∧
        ∀ d, b ≠ d → s'.visible d = s.visible d from hmain _ s
  intro vars
  induction vars with
  | nil => exact fun s => ⟨rfl, rfl, fun _ _ => rfl⟩
  | cons v rest ih =>
    intro s
    obtain ⟨hvars, hsize, hvisible⟩ := ih (if v ∈ s.visible b then s else s.reveal b v)
    rw [List.foldl_cons]
    split at hvars
    · rename_i hv
      rw [if_pos hv] at hsize hvisible ⊢
      exact ⟨hvars, hsize, hvisible⟩
    · rename_i hv
      rw [if_neg hv] at hsize hvisible ⊢
      refine ⟨hvars, by rw [hsize, size_bodies_reveal], fun d hd => ?_⟩
      rw [hvisible d hd, visible_reveal_ne hd]

end DefinitionLowering.IR.Store
