import DefinitionLowering.Proofs.Bindings
import DefinitionLowering.Proofs.Readings

/-!
# Decorators that definitions get by themselves

A plain definition gets the decorators that the dialect has rules for, unless a decorator of the
same name is written.  Whether one is, is found out from the lowered decorators: a decorator that is
written as a plain name is recognized if the name is left for run time, and is not if the name
stands for a variable (`any_refersTo_iff`).

* `lowerDef_injects` — which decorators are added: every decorator of a rule is added once, unless
  it is written as a plain name that is left for run time.
* `shadowingModule_injects` — a name that stands for a variable of the class does not prevent the
  decorator from being added.
-/

namespace DefinitionLowering

open IR (BodyId VariableId Store)

namespace Lowering

variable {setting : Setting} {s s' t : Store} {b : BodyId} {location : Location} {n : Nat}
  {written : Surface.Expr} {e : IR.Expr} {text : String}

/-! ## Lowered decorators -/

/-- Each plain name in a list of expressions is lowered to what it means before the list. -/
theorem lowerExprs_reads (hn : b.index < n) : ∀ (values : List Surface.Expr) {es : List IR.Expr}
    {s s' : Store}, Amid n b s → lowerExprs setting b location values s = .ok es s' →
      List.Forall₂ (fun written e => ∀ id, written = .name id → Reads s b id e) values es
  | [], es, s, s', _, h => by
    rw [lowerExprs] at h
    cases h
    exact .nil
  | first :: rest, es, s, s', hs, h => by
    rw [lowerExprs] at h
    obtain ⟨first', s₁, h₁, h⟩ := bind_eq_ok h
    obtain ⟨rest', s₂, h₂, h⟩ := bind_eq_ok h
    cases h
    have hsteps : IR.Store.Becomes b n s s₁ :=
      ((operates_lowerExpr setting first n b location n s (Nat.le_refl n) hs).of_ok h₁).1
    -- whatever the first expression has created or made visible, the rest means what it meant
    have hrest := lowerExprs_reads hn rest (hs.becomes hsteps).1 h₂
    refine .cons ?_ (hrest.imp fun _ _ hread id hid =>
      (hread id hid).of_becomes hsteps hs.coherent hs.bound hn)
    rintro id rfl
    rw [lowerExpr] at h₁
    exact reads_of_reference h₁

/-- An expression that is written refers to a name if it is the name, and is left for run time. -/
theorem refersTo_iff (h : Gave t b (lowerExpr setting b location written) e) (ht : t.WellFormed)
    (hread : ∀ id, written = .name id → Reads s b id e) : e.refersTo text = true ↔
      ∃ id, written = .name id ∧ s.spell b id = text ∧ s.LeftFree b text := by
  constructor
  · intro hrefers
    cases gave_counterpart h ht with
    | @freeName id =>
      have htext : t.spell b id = text := by simpa [IR.Expr.refersTo] using hrefers
      rw [htext] at hread
      exact ⟨id, rfl, (hread id rfl).eq_freeName_iff.1 rfl⟩
    | _ => cases hrefers
  · rintro ⟨id, rfl, hfree⟩
    rw [(hread id rfl).eq_freeName_iff.2 hfree]
    exact beq_self_eq_true text

theorem any_refersTo_iff {values : List Surface.Expr} {es : List IR.Expr} (ht : t.WellFormed)
    (h : List.Forall₂ (fun written e => Gave t b (lowerExpr setting b location written) e ∧
      ∀ id, written = .name id → Reads s b id e) values es) :
    es.any (IR.Expr.refersTo text) = true ↔
      ∃ id, .name id ∈ values ∧ s.spell b id = text ∧ s.LeftFree b text := by
  induction h with
  | nil => simp
  | cons hfirst _ ih =>
    rw [List.any_cons, Bool.or_eq_true, ih, refersTo_iff hfirst.1 ht hfirst.2]
    constructor
    · rintro (⟨id, rfl, h⟩ | ⟨id, hid, h⟩)
      · exact ⟨id, List.mem_cons_self, h⟩
      · exact ⟨id, List.mem_cons_of_mem _ hid, h⟩
    · rintro ⟨id, hid, h⟩
      rcases List.mem_cons.1 hid with hid | hid
      · exact Or.inl ⟨id, hid.symm, h⟩
      · exact Or.inr ⟨id, hid, h⟩

/-- No decorator that is written is one of the runtime. -/
theorem builtin_not_mem {values : List Surface.Expr} {es : List IR.Expr} (ht : t.WellFormed)
    (h : List.Forall₂ (fun written e => Gave t b (lowerExpr setting b location written) e)
      values es) : .builtin text ∉ es := by
  induction h with
  | nil => exact List.not_mem_nil
  | cons hfirst _ ih =>
    rw [List.mem_cons, not_or]
    exact ⟨(gave_ne_builtin hfirst ht text).symm, ih⟩

/-! ## Plain definitions -/

section Plain

variable {d : Surface.Def} {statement : IR.Stmt}

/-- Building a callable and its object are operations in the body around it. -/
theorem becomes_decorators {made : Callable} {code : BodyId} {s₁ s₂ : Store}
    (hplain : d.isAsync = false) (hs : Amid n b s)
    (hbuild : buildCallable setting b ((Callee.define d).kind setting) d.name
      (Surface.docstring? d.body) ((Callee.define d).flags setting) d.params d.location s =
        .ok made s₁)
    (hcreate : plainCodeBody made ((Callee.define d).kind setting) d
      ((Callee.define d).flags setting) s₁ = .ok code s₂) :
    IR.Store.Becomes b n s s₂ := by
  have hstart : (Callee.define d).start = .function := by
    simp [Callee.start, Callee.isAsync, hplain]
  have hkind : setting.classify = Surface.Classifier.suspension →
      (Callee.define d).kind setting = .function ∨ (Callee.define d).kind setting = .generator := by
    intro hclassify
    rw [Callee.kind, hstart, hclassify]
    exact Surface.suspension_function _
  obtain ⟨hsteps₁, hpending⟩ := (buildCallable_performs hs).of_ok hbuild
  obtain ⟨hsteps₂, -⟩ :=
    (plainCodeBody_performs hpending (hs.becomes hsteps₁).1 hkind d _).of_ok hcreate
  exact hsteps₁.trans hsteps₂

/-- What a plain definition is bound to, with what its decorators that are plain names mean before
it. -/
theorem PlainRun.injects (h : PlainRun setting b d s statement s') (hplain : d.isAsync = false)
    (hc : s.Coherent) (hb : b.index < s.bodies.size) :
    ∃ (injected : List String) (decorators defaults : List IR.Expr)
      (keywords annotations : Option IR.Expr) (made : Callable),
      Binds s' b (s'.spell b d.name)
        (.nest (injected.reverse.map .builtin ++ decorators)
          (.makeFunction made.outer made.code defaults keywords annotations)) statement ∧
      List.Forall₂ (fun written e => Gave s' b (lowerExpr setting b d.location written) e ∧
        ∀ id, written = .name id → Reads s b id e) d.decorators decorators ∧
      injected.Nodup ∧
      ∀ text, text ∈ injected ↔
        text ∈ setting.dialect.decoratorsFor d.name (s.body b).kind.scope ∧
          decorators.any (IR.Expr.refersTo text) = false := by
  obtain ⟨made, code, decorators, defaults, keywords, annotations, lowered, s₁, s₂, s₃, s₄, s₅, s₆,
    s₇, s₈, s₉, hbuild, hplaced, hcreate, hcode, hdecorators, hdefaults, hkeywords, hopen, hbody,
    hattach, hannotations, hbind⟩ := h
  have hamid : Amid s.bodies.size b s := ⟨hc, Nat.le_refl _, hb⟩
  have hsteps := becomes_decorators hplain hamid hbuild.run hcreate.run
  have hamid₂ := (hamid.becomes hsteps).1
  have hb₂ : b.index < s₂.bodies.size := hamid₂.created
  have hg₃ : Store.Grows 0 s₃ s' := hdefaults.later (hkeywords.later (hopen.later (hbody.later
    (hattach.later (hannotations.later (hbind.later (Store.Grows.refl 0 s')))))))
  have hb₉ : b.index < s₉.bodies.size := hannotations.created (hattach.created (hbody.created
    (hopen.created (hkeywords.created (hdefaults.created (hdecorators.created hb₂))))))
  have hg₉ : Store.Grows 0 s s₉ := hbuild.later (hcreate.later (hdecorators.later (hdefaults.later
    (hkeywords.later (hopen.later (hbody.later (hattach.later (hannotations.later
      (Store.Grows.refl 0 s₉)))))))))
  have hkind : (s₉.body b).kind = (s.body b).kind := hg₉.kind hb
  have hgave := gave_exprs (hdecorators.gave hcreate.wellFormed hb₂ hg₃)
  have hreads := lowerExprs_reads hb _ hamid₂ hdecorators.run
  have hbinds := gave_binds (gave_bindDefinition (hbind.gave hannotations.wellFormed hb₉
    (Store.Grows.refl 0 s')))
  obtain ⟨injected, hinjected, -, honce, hiff⟩ := exists_foldl_addDecorator
    (setting.dialect.decoratorsFor d.name (s.body b).kind.scope) decorators
  -- decorators are lowered in the order of application, which is not the order they are written in
  refine ⟨injected, decorators.reverse, defaults, keywords, annotations, made, ?_, ?_, honce, ?_⟩
  · rw [hkind, Dialect.addImplicit, hinjected, decorate_eq_nest, List.reverse_append,
      ← List.map_reverse] at hbinds
    exact hbinds
  · rw [← List.forall₂_reverse_iff, List.reverse_reverse]
    exact hgave.mp (fun _ _ hgave hread => ⟨hgave, fun id hid =>
      (hread id hid).of_becomes hsteps hc (Nat.le_refl _) hb⟩) hreads
  · intro text
    rw [List.any_reverse]
    exact hiff text

/-- A definition has a decorator that is written as a plain name and spelled so in a body. -/
def NamesDecorator (s : Store) (b : BodyId) (d : Surface.Def) (text : String) : Prop :=
  ∃ id, .name id ∈ d.decorators ∧ s.spell b id = text

/-- **A decorator of a rule is added once, unless it is written as a plain name that is left for run
time.**  Nothing that is written is a decorator of the runtime, so that those of the rules can be
told apart.  A plain name that stands for a variable does not prevent one of its name. -/
theorem lowerDef_injects (hs : s.WellFormed) (hc : s.Coherent) (hb : b.index < s.bodies.size)
    (hplain : d.isAsync = false) (hrun : lowerDef setting b d s = .ok statement s') :
    ∃ (injected : List String) (decorators defaults : List IR.Expr)
      (keywords annotations : Option IR.Expr) (made : Callable),
      Binds s' b (s'.spell b d.name)
        (.nest (injected.reverse.map .builtin ++ decorators)
          (.makeFunction made.outer made.code defaults keywords annotations)) statement ∧
      List.Forall₂ (fun written e => Gave s' b (lowerExpr setting b d.location written) e)
        d.decorators decorators ∧
      (∀ text, .builtin text ∉ decorators) ∧
      ∀ text,
        (NamesDecorator s b d text → s.LeftFree b text → injected.count text = 0) ∧
        (text ∈ setting.dialect.decoratorsFor d.name (s.body b).kind.scope →
          (¬ NamesDecorator s b d text → injected.count text = 1) ∧
          (¬ s.LeftFree b text → injected.count text = 1)) ∧
        (text ∉ setting.dialect.decoratorsFor d.name (s.body b).kind.scope →
          injected.count text = 0) := by
  have hwf : s'.WellFormed := (defined_lowerDef hs hb hrun).1
  obtain ⟨injected, decorators, defaults, keywords, annotations, made, hbinds, hlowered, honce,
    hmem⟩ := (plainRun_of_ok hs hb hplain hrun).injects hplain hc hb
  have hgave := hlowered.imp fun _ _ h => h.1
  have hnone : ∀ {text}, text ∉ injected → injected.count text = 0 := List.count_eq_zero_of_not_mem
  have hadded : ∀ {text}, text ∈ setting.dialect.decoratorsFor d.name (s.body b).kind.scope →
      ¬ (NamesDecorator s b d text ∧ s.LeftFree b text) → injected.count text = 1 := by
    intro text hrule hnot
    refine List.count_eq_one_of_mem honce ((hmem text).2 ⟨hrule, ?_⟩)
    rw [← Bool.not_eq_true, any_refersTo_iff hwf hlowered]
    rintro ⟨id, hid, hspell, hfree⟩
    exact hnot ⟨⟨id, hid, hspell⟩, hfree⟩
  refine ⟨injected, decorators, defaults, keywords, annotations, made, hbinds, hgave, ?_, ?_⟩
  · exact fun text => builtin_not_mem hwf hgave
  · intro text
    refine ⟨?_, fun hrule => ⟨?_, ?_⟩, ?_⟩
    · rintro ⟨id, hid, hspell⟩ hfree
      refine hnone fun hin => ?_
      have hrefers := (any_refersTo_iff hwf hlowered).2 ⟨id, hid, hspell, hfree⟩
      rw [((hmem text).1 hin).2] at hrefers
      cases hrefers
    · exact fun hnot => hadded hrule fun h => hnot h.1
    · exact fun hnot => hadded hrule fun h => hnot h.2
    · exact fun hrule => hnone fun hin => hrule ((hmem text).1 hin).1

end Plain

/-! ## Static methods -/

/-- A method that is static as it is written:

    @staticmethod
    def __new__(cls): pass
-/
def staticDef : Surface.Def where
  name := "__new__"
  params := ⟨[.name ⟨"cls", none⟩], [], none, [], [], none⟩
  body := [⟨.pass, ⟨4, 4⟩⟩]
  decorators := [.name "staticmethod"]
  returns := none
  isAsync := false
  location := ⟨4, 2⟩

theorem coherent_classStore (name : String) : (classStore name).Coherent := by
  have hreached : Reached emptyModule (classStore name) := by
    refine .operation (.operation .created (.createBody _ ⟨0⟩ rfl (Or.inl rfl) (by decide)
      (by decide) ?_)) (.declareLocal ⟨1⟩ name (by decide) (by decide))
    rintro signature ⟨⟩
  exact hreached.coherent

/-- In a class that does not bind `staticmethod` the decorator is not added to it once more. -/
theorem staticDef_injects :
    ∃ (statement : IR.Stmt) (s' : Store) (decorators defaults : List IR.Expr)
      (keywords annotations : Option IR.Expr) (made : Callable),
      lowerDef (.ofDialect .modern) ⟨1⟩ staticDef (classStore "__new__") = .ok statement s' ∧
      Binds s' ⟨1⟩ (s'.spell ⟨1⟩ "__new__")
        (.nest decorators (.makeFunction made.outer made.code defaults keywords annotations))
        statement ∧
      decorators.length = 1 := by
  have hruns : givesWith (fun _ _ => true)
      (lowerDef (.ofDialect .modern) ⟨1⟩ staticDef (classStore "__new__")) = true := by
    decide +kernel
  obtain ⟨statement, s', hrun, -⟩ := exists_of_givesWith hruns
  obtain ⟨injected, decorators, defaults, keywords, annotations, made, hbinds, hwritten, -,
    hcount⟩ := lowerDef_injects (wellFormed_classStore "__new__") (coherent_classStore "__new__")
      (by decide) rfl hrun
  have hrules : Dialect.modern.decoratorsFor staticDef.name
      ((classStore "__new__").body ⟨1⟩).kind.scope = ["staticmethod"] := by
    decide +kernel
  have hinjected : injected = [] := by
    refine List.eq_nil_iff_forall_not_mem.2 fun text => List.count_eq_zero.1 ?_
    by_cases htext : text = "staticmethod"
    · subst htext
      exact (hcount _).1 ⟨"staticmethod", List.mem_singleton_self _, by decide +kernel⟩
        (Or.inr (by decide +kernel))
    · refine (hcount text).2.2 ?_
      rw [Setting.ofDialect, hrules, List.mem_singleton]
      exact htext
  rw [hinjected] at hbinds
  exact ⟨statement, s', decorators, defaults, keywords, annotations, made, hrun, hbinds,
    hwritten.length_eq.symm⟩

end Lowering

/-! ## A name that is bound in the class -/

/-- A class that binds the name of a decorator:

    class Q:
      staticmethod = 0
      @staticmethod
      def __new__(cls): pass
-/
def shadowingModule : Surface.Module where
  name := "m"
  filename := "m.py"
  future := ⟨false, false, false, false, false⟩
  body := [⟨.defineClass
    { name := "Q"
      bases := []
      body :=
        [⟨.assign "staticmethod" (.constant (.int 0)), ⟨2, 2⟩⟩,
         ⟨.define Lowering.staticDef, ⟨4, 2⟩⟩]
      decorators := []
      location := ⟨1, 0⟩ }, ⟨1, 0⟩⟩]

/-- A variable that is assigned, and the builtin and the variable that are applied to a new function
for it, from the outside in. -/
def IR.Stmt.builtinAroundVariable? : IR.Stmt → Option (VariableId × String × VariableId)
  | .assignVariable target
      (.call (.builtin name) [.call (.var v) [.makeFunction _ _ _ _ _]]) => some (target, name, v)
  | _ => none

theorem IR.Stmt.eq_of_builtinAroundVariable? {statement : IR.Stmt} {target v : VariableId}
    {name : String} (h : statement.builtinAroundVariable? = some (target, name, v)) :
    ∃ body code defaults keywords annotations,
      statement = .assignVariable target (.nest [.builtin name, .var v]
        (.makeFunction body code defaults keywords annotations)) := by
  unfold builtinAroundVariable? at h
  split at h
  · cases h
    exact ⟨_, _, _, _, _, rfl⟩
  · cases h

/-- The method gets the decorator `staticmethod` by itself though it has one of this name, which
stands for a variable of the class. -/
theorem LoweredModule.shadowingModule_injects :
    ∃ lowered code target v body made defaults keywords annotations,
      LoweredModule.ofSurface (.ofDialect .modern) shadowingModule = .ok lowered ∧
      Lowering.NamesDecorator lowered.store ⟨1⟩ Lowering.staticDef "staticmethod" ∧
      (lowered.store.body ⟨1⟩).code = some code ∧
      .assignVariable target (.nest [.builtin "staticmethod", .var v]
        (.makeFunction body made defaults keywords annotations)) ∈ code.within ∧
      (lowered.store.var target).name = "__new__" ∧
      (lowered.store.var v).name = "staticmethod" := by
  have hfacts : succeedsWith (fun l =>
      ((l.store.body ⟨1⟩).code.map fun code =>
          code.within.filterMap IR.Stmt.builtinAroundVariable?) ==
            some [(⟨1⟩, "staticmethod", ⟨0⟩)] &&
        [l.store.spell ⟨1⟩ "staticmethod", (l.store.var ⟨1⟩).name, (l.store.var ⟨0⟩).name] ==
          ["staticmethod", "__new__", "staticmethod"])
      (LoweredModule.ofSurface (.ofDialect .modern) shadowingModule) = true := by
    decide +kernel
  obtain ⟨lowered, h, hfacts⟩ := exists_of_succeedsWith hfacts
  rw [Bool.and_eq_true, beq_iff_eq, beq_iff_eq, Option.map_eq_some_iff] at hfacts
  obtain ⟨⟨code, hcode, hfound⟩, hnames⟩ := hfacts
  obtain ⟨hspell, hnames⟩ := List.cons.inj hnames
  obtain ⟨htarget, hnames⟩ := List.cons.inj hnames
  obtain ⟨hv, -⟩ := List.cons.inj hnames
  have hmem : ((⟨1⟩ : VariableId), "staticmethod", (⟨0⟩ : VariableId)) ∈
      code.within.filterMap IR.Stmt.builtinAroundVariable? := by
    rw [hfound]
    exact List.mem_singleton_self _
  obtain ⟨statement, hstatement, hshape⟩ := List.mem_filterMap.1 hmem
  obtain ⟨body, made, defaults, keywords, annotations, rfl⟩ :=
    IR.Stmt.eq_of_builtinAroundVariable? hshape
  exact ⟨lowered, code, ⟨1⟩, ⟨0⟩, body, made, defaults, keywords, annotations, h,
    ⟨"staticmethod", List.mem_singleton_self _, hspell⟩, hcode, hstatement, htarget, hv⟩

end DefinitionLowering
