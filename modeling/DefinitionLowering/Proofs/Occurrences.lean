import DefinitionLowering.Proofs.Releases
import DefinitionLowering.Proofs.Settled

/-!
# Names in lowered code

`occurrences` lists what lowered code reads and binds by name, in order: variables, and names
left for run time.  `RegionResolved` compares a region with the bodies it was lowered to.  The code of
each scope has an occurrence for each of the scope's own names, and the resolver says which one;
the scopes nested in it have places of their own.

`Carries` is what later stores keep of all this, also when releases are wrapped around the code.
-/

namespace DefinitionLowering

open IR (BodyId VariableId Store Block)
open Surface (Role Region Part Scope resolve spellAt)

/-! ## Occurrences -/

/-- What a name stands for in lowered code. -/
inductive Referent where
  | variable (v : VariableId)
  | free (name : String)
  deriving DecidableEq

/-- A name in lowered code. -/
structure Occurrence where
  role : Role
  referent : Referent
  deriving DecidableEq

namespace IR

mutual

/-- The names that an expression reads, in the order of evaluation. -/
def Expr.occurrences : Expr → List Occurrence
  | .var v => [⟨.read, .variable v⟩]
  | .freeName name => [⟨.read, .free name⟩]
  | .constant _ | .constantMapping _ | .builtin _ | .makeObject _ _ _ => []
  | .call callee args => callee.occurrences ++ exprsOccurrences args
  | .binary left _ right => left.occurrences ++ right.occurrences
  | .attribute value _ => value.occurrences
  | .tuple items => exprsOccurrences items
  | .mapping _ values => exprsOccurrences values
  | .yield value => optionOccurrences value
  | .yieldFrom value | .await value | .iterator value | .unpack value _ _ => value.occurrences
  | .makeFunction _ _ defaults keywordDefaults annotations =>
    exprsOccurrences defaults ++ optionOccurrences keywordDefaults ++
      optionOccurrences annotations
  | .callFunction function values => function.occurrences ++ exprsOccurrences values
  | .makeClass _ bases => exprsOccurrences bases

def exprsOccurrences : List Expr → List Occurrence
  | [] => []
  | first :: rest => first.occurrences ++ exprsOccurrences rest

def optionOccurrences : Option Expr → List Occurrence
  | none => []
  | some value => value.occurrences

end

mutual

/-- The names that a statement reads and binds, in the order they are written; a release is no
use of a name. -/
def Stmt.occurrences : Stmt → List Occurrence
  | .assignVariable target source => source.occurrences ++ [⟨.bind, .variable target⟩]
  | .assignName target source => source.occurrences ++ [⟨.bind, .free target⟩]
  | .expr value | .ret value | .objectRet value | .checkExhausted value _ => value.occurrences
  | .retNone | .objectRetNone | .release _ => []
  | .raise value => optionOccurrences value
  | .tryFinally tried cleanup => tried.occurrences ++ cleanup.occurrences
  | .branch condition yes no =>
    condition.occurrences ++ blockOccurrences yes ++ blockOccurrences no
  | .loop condition body => condition.occurrences ++ blockOccurrences body

def Block.occurrences : Block → List Occurrence
  | ⟨statements, _⟩ => stmtsOccurrences statements

def blockOccurrences : Option Block → List Occurrence
  | none => []
  | some block => block.occurrences

def stmtsOccurrences : List Stmt → List Occurrence
  | [] => []
  | first :: rest => first.occurrences ++ stmtsOccurrences rest

end

@[simp] theorem exprsOccurrences_append (first rest : List Expr) :
    exprsOccurrences (first ++ rest) = exprsOccurrences first ++ exprsOccurrences rest := by
  induction first with
  | nil => rfl
  | cons value values ih => simp [exprsOccurrences, ih]

@[simp] theorem stmtsOccurrences_append (first rest : List Stmt) :
    stmtsOccurrences (first ++ rest) = stmtsOccurrences first ++ stmtsOccurrences rest := by
  induction first with
  | nil => rfl
  | cons statement statements ih => simp [stmtsOccurrences, ih]

theorem Block.occurrences_eq (block : Block) :
    block.occurrences = stmtsOccurrences block.statements := by
  cases block
  rfl

theorem stmtsOccurrences_releases (vars : List VariableId) :
    stmtsOccurrences (vars.map .release) = [] := by
  induction vars with
  | nil => rfl
  | cons v rest ih => exact ih

/-- Releases around code leave its names alone. -/
theorem Block.occurrences_releasing (vars : List VariableId) (tried : Block) :
    (tried.releasing vars).occurrences = tried.occurrences := by
  show (tried.occurrences ++ stmtsOccurrences (vars.map .release)) ++ [] = _
  rw [stmtsOccurrences_releases, List.append_nil, List.append_nil]

/-- A last statement without names leaves the names of a block alone. -/
theorem Block.occurrences_closeWith {terminal : Stmt} (h : terminal.occurrences = [])
    (block : Option Block) :
    (Block.closeWith terminal block).occurrences = blockOccurrences block := by
  cases block with
  | none =>
    show terminal.occurrences ++ [] = []
    rw [h]
    rfl
  | some block =>
    show (if block.aborts then block else block.push terminal).occurrences = block.occurrences
    split
    · rfl
    · rw [Block.occurrences_eq, Block.occurrences_eq]
      show stmtsOccurrences (block.statements ++ [terminal]) = _
      rw [stmtsOccurrences_append, stmtsOccurrences, h]
      exact List.append_nil _

theorem blockOccurrences_ofNonempty (statements : List Stmt) :
    blockOccurrences (Block.ofNonempty? statements) = stmtsOccurrences statements := by
  unfold Block.ofNonempty?
  split
  · rename_i hempty
    rw [List.isEmpty_iff.1 hempty]
    rfl
  · rfl

theorem occurrences_of_constants {entries : List (String × Expr)}
    {constants : List (String × Constant)} (h : Expr.constantEntries? entries = some constants) :
    exprsOccurrences (entries.map Prod.snd) = [] := by
  induction entries generalizing constants with
  | nil => rfl
  | cons entry rest ih =>
    simp only [Expr.constantEntries?, List.mapM_cons, Option.bind_eq_bind, Option.bind_eq_some_iff,
      Option.map_eq_some_iff] at h
    obtain ⟨first, ⟨value, hvalue, rfl⟩, others, hrest, -⟩ := h
    rw [List.map_cons, exprsOccurrences, ih hrest]
    cases hentry : entry.2 <;> rw [hentry] at hvalue <;> cases hvalue
    rfl

/-- The names in a mapping are those in its values. -/
theorem Expr.occurrences_ofEntries (entries : List (String × Expr)) :
    (Expr.ofEntries entries).occurrences = exprsOccurrences (entries.map Prod.snd) := by
  unfold Expr.ofEntries
  split
  · rename_i constants h
    exact (occurrences_of_constants h).symm
  · rfl

/-- The names in the code of a body. -/
def Store.codeOccurrences (s : Store) (b : BodyId) : Option (List Occurrence) :=
  (s.body b).code.map Block.occurrences

end IR

/-! ## Places of scopes -/

/-- The places of a scope and of the scopes nested in it. -/
inductive PlaceTree where
  | node (place : Place) (children : List PlaceTree)

mutual

/-- All places of a tree, each before those nested in it. -/
def PlaceTree.places : PlaceTree → List Place
  | .node place children => place :: forestPlaces children

def forestPlaces : List PlaceTree → List Place
  | [] => []
  | first :: rest => first.places ++ forestPlaces rest

end

def PlaceTree.root : PlaceTree → Place
  | .node place _ => place

theorem forestPlaces_append (first rest : List PlaceTree) :
    forestPlaces (first ++ rest) = forestPlaces first ++ forestPlaces rest := by
  induction first with
  | nil => rfl
  | cons tree trees ih => rw [List.cons_append, forestPlaces, forestPlaces, ih, List.append_assoc]

/-- What a name stands for that the innermost of some places evaluates: the variable of the
scope that the resolver finds, or the spelled name itself. -/
def Denotes (s : Store) (places : List Place) (id : String) (referent : Referent) : Prop :=
  let name := spellAt (scopesOf places) id
  match resolve Place.scope name places with
  | none => referent = .free name
  | some p => ∃ v, referent = .variable v ∧ p.Owns s name v

theorem Denotes.of_none {s : Store} {places : List Place} {id : String}
    (h : resolve Place.scope (spellAt (scopesOf places) id) places = none) :
    Denotes s places id (.free (spellAt (scopesOf places) id)) := by
  simp only [Denotes, h]

theorem Denotes.of_some {s : Store} {places : List Place} {id : String} {p : Place}
    {v : VariableId} (h : resolve Place.scope (spellAt (scopesOf places) id) places = some p)
    (hv : p.Owns s (spellAt (scopesOf places) id) v) : Denotes s places id (.variable v) := by
  simp only [Denotes, h]
  exact ⟨v, rfl, hv⟩

mutual

/-- A region has been lowered to the bodies of a tree of places. -/
def RegionResolved (s : Store) (outer : List Place) : Region → PlaceTree → Prop
  | ⟨header, parts⟩, .node place children =>
    place.scope = header.scope (scopesOf outer) ∧ (s.body place.code).kind = header.kind ∧
      s.Leads (innermost? outer) place.code place.shells ∧
      ∃ names, s.codeOccurrences place.code = some names ∧
        PartsResolved s (place :: outer) parts names children

/-- A part of the innermost of some places has these names, and these places nested in it. -/
def PartResolved (s : Store) (places : List Place) :
    Part → List Occurrence → List PlaceTree → Prop
  | .name role id, names, trees =>
    trees = [] ∧ ∃ referent, names = [⟨role, referent⟩] ∧
      (isReserved id = false → Denotes s places id referent)
  | .scope inner, names, trees =>
    names = [] ∧ ∃ tree, trees = [tree] ∧ RegionResolved s places inner tree
  | .yield _, names, trees | .yieldFrom _, names, trees | .await _, names, trees
  | .ret _ _, names, trees => names = [] ∧ trees = []

def PartsResolved (s : Store) (places : List Place) :
    List Part → List Occurrence → List PlaceTree → Prop
  | [], names, trees => names = [] ∧ trees = []
  | first :: rest, names, trees =>
    ∃ names₁ names₂ trees₁ trees₂, names = names₁ ++ names₂ ∧ trees = trees₁ ++ trees₂ ∧
      PartResolved s places first names₁ trees₁ ∧ PartsResolved s places rest names₂ trees₂

end

section Resolved

variable {s s' : Store} {places : List Place}

theorem PartsResolved.append {first rest : List Part} {names more : List Occurrence}
    {trees others : List PlaceTree} (h : PartsResolved s places first names trees)
    (h' : PartsResolved s places rest more others) :
    PartsResolved s places (first ++ rest) (names ++ more) (trees ++ others) := by
  induction first generalizing names trees with
  | nil =>
    obtain ⟨rfl, rfl⟩ := h
    exact h'
  | cons part parts ih =>
    obtain ⟨names₁, names₂, trees₁, trees₂, rfl, rfl, hpart, hparts⟩ := h
    exact ⟨names₁, names₂ ++ more, trees₁, trees₂ ++ others, List.append_assoc _ _ _,
      List.append_assoc _ _ _, hpart, ih hparts⟩

theorem partsResolved_single {part : Part} {names : List Occurrence} {trees : List PlaceTree}
    (h : PartResolved s places part names trees) : PartsResolved s places [part] names trees :=
  ⟨names, [], trees, [], (List.append_nil _).symm, (List.append_nil _).symm, h, rfl, rfl⟩

/-! ## Later stores -/

/-- A later store keeps the names in code and what bodies find. -/
structure Carries (s s' : Store) : Prop where
  code : ∀ b names, s.codeOccurrences b = some names → s'.codeOccurrences b = some names
  find : ∀ b name v, s.find? b name = some v →
    s'.find? b name = some v ∧ (s'.var v).owner = (s.var v).owner
  kind : ∀ b : BodyId, b.index < s.bodies.size → (s'.body b).kind = (s.body b).kind
  provider : ∀ b : BodyId, b.index < s.bodies.size → (s'.body b).provider = (s.body b).provider

theorem lt_of_kind {b : BodyId} (h : (s.body b).kind = .function) : b.index < s.bodies.size := by
  refine Classical.byContradiction fun hlt => ?_
  rw [IR.Store.body_of_size_le (Nat.le_of_not_lt hlt)] at h
  cases h

theorem Carries.leads (hc : Carries s s') {next : Option BodyId} {shells : List BodyId} :
    ∀ {b : BodyId}, b.index < s.bodies.size → s.Leads next b shells → s'.Leads next b shells := by
  induction shells with
  | nil => exact fun {b} hb h => (hc.provider b hb).trans h
  | cons shell rest ih =>
    rintro b hb ⟨hprovider, hkind, hrest⟩
    have hlt := lt_of_kind hkind
    exact ⟨(hc.provider b hb).trans hprovider, (hc.kind shell hlt).trans hkind, ih hlt hrest⟩

theorem Denotes.carry (hc : Carries s s') {id : String} {referent : Referent}
    (h : Denotes s places id referent) : Denotes s' places id referent := by
  unfold Denotes at h ⊢
  dsimp only at h ⊢
  split at h
  · exact h
  · obtain ⟨v, hv, hfind, howner⟩ := h
    obtain ⟨hfind', howner'⟩ := hc.find _ _ _ hfind
    exact ⟨v, hv, hfind', howner' ▸ howner⟩

mutual

theorem RegionResolved.carry (hc : Carries s s') : ∀ (region : Region) (outer : List Place)
    (tree : PlaceTree), RegionResolved s outer region tree → RegionResolved s' outer region tree
  | ⟨header, parts⟩, outer, .node place children, h => by
    obtain ⟨hscope, hkind, hleads, names, hcode, hparts⟩ := h
    have hlt : place.code.index < s.bodies.size := by
      refine Classical.byContradiction fun hlt => ?_
      unfold Store.codeOccurrences at hcode
      rw [IR.Store.body_of_size_le (Nat.le_of_not_lt hlt)] at hcode
      cases hcode
    exact ⟨hscope, (hc.kind _ hlt).trans hkind, hc.leads hlt hleads, names, hc.code _ _ hcode,
      PartsResolved.carry hc parts _ _ _ hparts⟩

theorem PartResolved.carry (hc : Carries s s') : ∀ (part : Part) (places : List Place)
    (names : List Occurrence) (trees : List PlaceTree),
    PartResolved s places part names trees → PartResolved s' places part names trees
  | .name _ _, _, _, _, h => by
    obtain ⟨htrees, referent, hnames, hdenotes⟩ := h
    exact ⟨htrees, referent, hnames, fun hid => (hdenotes hid).carry hc⟩
  | .scope inner, _, _, _, h => by
    obtain ⟨hnames, tree, htrees, hinner⟩ := h
    exact ⟨hnames, tree, htrees, RegionResolved.carry hc inner _ tree hinner⟩
  | .yield _, _, _, _, h => h
  | .yieldFrom _, _, _, _, h => h
  | .await _, _, _, _, h => h
  | .ret _ _, _, _, _, h => h

theorem PartsResolved.carry (hc : Carries s s') : ∀ (parts : List Part) (places : List Place)
    (names : List Occurrence) (trees : List PlaceTree),
    PartsResolved s places parts names trees → PartsResolved s' places parts names trees
  | [], _, _, _, h => h
  | first :: rest, _, _, _, h => by
    obtain ⟨names₁, names₂, trees₁, trees₂, hnames, htrees, hfirst, hrest⟩ := h
    exact ⟨names₁, names₂, trees₁, trees₂, hnames, htrees, PartResolved.carry hc first _ _ _ hfirst,
      PartsResolved.carry hc rest _ _ _ hrest⟩

end

theorem carries_of_grows {n : Nat} (hs : s.WellFormed) (hg : Store.Grows n s s') :
    Carries s s' where
  code b names h := by
    obtain ⟨block, hblock, rfl⟩ := Option.map_eq_some_iff.1 h
    exact Option.map_eq_some_iff.2 ⟨block, hg.code b block hblock, rfl⟩
  find b name v h := by
    obtain ⟨hf, hvar⟩ := find?_mono hs hg h
    exact ⟨hf, by rw [hvar]⟩
  kind b hb := hg.kind hb
  provider b hb := hg.provider hb

/-- Releases change nothing but the code of bodies. -/
theorem IR.Store.IsReleased.body_eq {released : List BodyId} (h : s.IsReleased s' released)
    (b : BodyId) :
    s'.body b = s.body b ∨ s'.body b = { s.body b with code := s.releasedCode b } := by
  by_cases hb : b.index < s.bodies.size
  · rw [h.body b hb]
    split
    · exact .inr rfl
    · exact .inl rfl
  · rw [IR.Store.body_of_size_le (Nat.le_of_not_lt hb),
      IR.Store.body_of_size_le (h.bodies ▸ Nat.le_of_not_lt hb)]
    exact .inl rfl

/-- Releases leave the names in code alone. -/
theorem IR.Store.codeOccurrences_releasedCode (s : Store) (b : BodyId) :
    (s.releasedCode b).map Block.occurrences = s.codeOccurrences b := by
  unfold Store.releasedCode Store.codeOccurrences
  split
  · rfl
  · rw [Option.map_map]
    exact congrArg (Option.map · _) (funext fun block => block.occurrences_releasing _)

theorem carries_of_isReleased {released : List BodyId} (h : s.IsReleased s' released) :
    Carries s s' where
  code b names hnames := by
    rw [← hnames, Store.codeOccurrences]
    rcases h.body_eq b with hb | hb
    · rw [hb]
      rfl
    · rw [hb]
      exact s.codeOccurrences_releasedCode b
  find b name v hv := by
    have hvar : ∀ v, s'.var v = s.var v := fun v => by rw [Store.var, h.vars, Store.var]
    have hvisible : s'.visible b = s.visible b := by
      unfold Store.visible
      rcases h.body_eq b with hb | hb <;> rw [hb]
    exact ⟨(IR.Store.find?_congr hvisible fun w _ => hvar w).trans hv, by rw [hvar]⟩
  kind b _ := by rcases h.body_eq b with hb | hb <;> rw [hb]
  provider b _ := by rcases h.body_eq b with hb | hb <;> rw [hb]

end Resolved

end DefinitionLowering
