import DefinitionLowering.Lowering.Decorators
import Mathlib.Data.List.Induction
import Mathlib.Data.List.Nodup

/-!
# Adding decorators by name

`addDecorator` asks the list that it extends whether a decorator is there already, so a rule that
is applied decides about the rules behind it.  What a whole list of names adds is nevertheless a
matter of the list at the start alone: `Missing` says which names are added and in which order,
`Missing.step` is one application of `addDecorator`, and `exists_missing` the run over all names.

* `Dialect.addImplicit_minimal` — for every dialect, what is added are builtins behind the given
  list: the decorators of the matching rules that nothing refers to yet, each once, in the order
  in which they occur first.  Afterwards all of them are referred to, and adding them again
  changes nothing.
-/

namespace DefinitionLowering

open IR (Expr)

variable {decorators : List Expr} {names missing : List String} {name : String}

/-! ## What an expression refers to -/

theorem IR.Expr.refersTo_eq_true_iff (e : Expr) (name : String) :
    e.refersTo name = true ↔ e = .freeName name ∨ e = .builtin name := by
  cases e <;> simp [Expr.refersTo]

theorem any_refersTo_eq_true_iff (decorators : List Expr) (name : String) :
    decorators.any (Expr.refersTo name) = true ↔
      .freeName name ∈ decorators ∨ .builtin name ∈ decorators := by
  simp only [List.any_eq_true, Expr.refersTo_eq_true_iff]
  constructor
  · rintro ⟨e, he, rfl | rfl⟩
    · exact Or.inl he
    · exact Or.inr he
  · rintro (h | h)
    · exact ⟨_, h, Or.inl rfl⟩
    · exact ⟨_, h, Or.inr rfl⟩

theorem any_refersTo_map_builtin (names : List String) (name : String) :
    (names.map Expr.builtin).any (Expr.refersTo name) = true ↔ name ∈ names := by
  rw [any_refersTo_eq_true_iff]
  simp

/-! ## One name -/

theorem addDecorator_of_any (h : decorators.any (Expr.refersTo name) = true) :
    addDecorator decorators name = decorators :=
  if_pos h

theorem addDecorator_of_not_any (h : decorators.any (Expr.refersTo name) = false) :
    addDecorator decorators name = decorators ++ [.builtin name] := by
  rw [addDecorator, h]
  rfl

/-- The names that nothing in a list of decorators refers to, each once and in the order in which
they occur first. -/
structure Missing (decorators : List Expr) (names missing : List String) : Prop where
  nodup : missing.Nodup
  sublist : missing.Sublist names
  mem_iff : ∀ name, name ∈ missing ↔ name ∈ names ∧ decorators.any (Expr.refersTo name) = false
  ordered : missing.Pairwise fun first second => names.idxOf first < names.idxOf second

namespace Missing

theorem nil (decorators : List Expr) : Missing decorators [] [] where
  nodup := List.nodup_nil
  sublist := .slnil
  mem_iff := by simp
  ordered := .nil

/-- A name is referred to behind the missing ones if it was at the start or has been added. -/
theorem any_append_iff (h : Missing decorators names missing) (name : String) :
    (decorators ++ missing.map Expr.builtin).any (Expr.refersTo name) = true ↔
      decorators.any (Expr.refersTo name) = true ∨ name ∈ names := by
  rw [List.any_append, Bool.or_eq_true, any_refersTo_map_builtin, h.mem_iff]
  cases decorators.any (Expr.refersTo name) <;> simp

/-- Names keep the position of their first occurrence when a name is put behind them. -/
theorem ordered_concat (h : Missing decorators names missing) (name : String) :
    missing.Pairwise fun first second =>
      (names ++ [name]).idxOf first < (names ++ [name]).idxOf second := by
  refine h.ordered.imp_of_mem fun {first second} hfirst hsecond hlt => ?_
  rw [List.idxOf_append_of_mem (h.sublist.subset hfirst),
    List.idxOf_append_of_mem (h.sublist.subset hsecond)]
  exact hlt

/-- A name that is referred to already is not added. -/
theorem concat_present (h : Missing decorators names missing)
    (hname : decorators.any (Expr.refersTo name) = true ∨ name ∈ names) :
    Missing decorators (names ++ [name]) missing where
  nodup := h.nodup
  sublist := h.sublist.trans (List.sublist_append_left names [name])
  mem_iff := by
    intro text
    rw [h.mem_iff, List.mem_append, List.mem_singleton]
    constructor
    · exact fun ⟨htext, hnot⟩ => ⟨Or.inl htext, hnot⟩
    · rintro ⟨htext | rfl, hnot⟩
      · exact ⟨htext, hnot⟩
      · refine ⟨hname.resolve_left ?_, hnot⟩
        rw [hnot]
        exact Bool.false_ne_true
  ordered := h.ordered_concat name

/-- A name that nothing refers to is added behind all others. -/
theorem concat_absent (h : Missing decorators names missing)
    (hdecorators : decorators.any (Expr.refersTo name) = false) (hnames : name ∉ names) :
    Missing decorators (names ++ [name]) (missing ++ [name]) where
  nodup := by
    refine List.nodup_append.2 ⟨h.nodup, List.nodup_singleton name, ?_⟩
    intro first hfirst second hsecond
    rw [List.mem_singleton.1 hsecond]
    rintro rfl
    exact hnames (h.sublist.subset hfirst)
  sublist := h.sublist.append (List.Sublist.refl [name])
  mem_iff := by
    intro text
    rw [List.mem_append, List.mem_append, List.mem_singleton, h.mem_iff]
    constructor
    · rintro (⟨htext, hnot⟩ | rfl)
      · exact ⟨Or.inl htext, hnot⟩
      · exact ⟨Or.inr rfl, hdecorators⟩
    · rintro ⟨htext | rfl, hnot⟩
      · exact Or.inl ⟨htext, hnot⟩
      · exact Or.inr rfl
  ordered := by
    refine List.pairwise_append.2 ⟨h.ordered_concat name, List.pairwise_singleton _ _, ?_⟩
    intro first hfirst second hsecond
    have hmem := h.sublist.subset hfirst
    rw [List.mem_singleton.1 hsecond, List.idxOf_append_of_mem hmem,
      List.idxOf_append_of_notMem hnames]
    exact Nat.lt_of_lt_of_le (List.idxOf_lt_length_of_mem hmem) (Nat.le_add_right _ _)

/-- The list at hand decides about the next name as the list at the start and the names that have
been asked for do. -/
theorem step (h : Missing decorators names missing) (name : String) :
    ∃ missing', Missing decorators (names ++ [name]) missing' ∧
      addDecorator (decorators ++ missing.map Expr.builtin) name =
        decorators ++ missing'.map Expr.builtin := by
  by_cases hname : decorators.any (Expr.refersTo name) = true ∨ name ∈ names
  · exact ⟨missing, h.concat_present hname, addDecorator_of_any ((h.any_append_iff name).2 hname)⟩
  · have hnot : (decorators ++ missing.map Expr.builtin).any (Expr.refersTo name) = false :=
      eq_false_of_ne_true (hname ∘ (h.any_append_iff name).1)
    obtain ⟨hdecorators, hnames⟩ := not_or.1 hname
    refine ⟨missing ++ [name],
      h.concat_absent (eq_false_of_ne_true hdecorators) hnames, ?_⟩
    rw [addDecorator_of_not_any hnot, List.map_append, List.append_assoc]
    rfl

end Missing

/-! ## A list of names -/

/-- **Decorators that are added by name** are the missing ones. -/
theorem exists_missing (decorators : List Expr) (names : List String) :
    ∃ missing, Missing decorators names missing ∧
      names.foldl addDecorator decorators = decorators ++ missing.map Expr.builtin := by
  induction names using List.reverseRecOn with
  | nil => exact ⟨[], .nil decorators, (List.append_nil decorators).symm⟩
  | append_singleton rest last ih =>
    obtain ⟨missing, hmissing, heq⟩ := ih
    rw [List.foldl_append, heq]
    exact hmissing.step last

/-- Names that are referred to already add nothing. -/
theorem foldl_addDecorator_of_any
    (h : ∀ name ∈ names, decorators.any (Expr.refersTo name) = true) :
    names.foldl addDecorator decorators = decorators := by
  induction names with
  | nil => rfl
  | cons first rest ih =>
    rw [List.foldl_cons, addDecorator_of_any (h first List.mem_cons_self)]
    exact ih fun name hname => h name (List.mem_cons_of_mem first hname)

namespace Dialect

theorem mem_decoratorsFor (dialect : Dialect) (name : String) (scope : ScopeKind)
    (text : String) : text ∈ dialect.decoratorsFor name scope ↔
      ∃ rule ∈ dialect.implicitDecorators,
        rule.method = name ∧ rule.scope = scope ∧ rule.decorator = text := by
  simp [decoratorsFor, and_assoc]

/-- **Implicit decorators are added once and only where they are missing.**  For every dialect, with
rules that repeat or overlap in any way, every name, scope and list of decorators: the given list
stays in front, and behind it stand builtins only, no two of the same name, for exactly those
decorators of the matching rules that no element of the given list refers to, in the order of
their first occurrence among the matching rules.  The result refers to the decorator of every
matching rule, and adding the implicit decorators to it again changes nothing. -/
theorem addImplicit_minimal (dialect : Dialect) (name : String) (scope : ScopeKind)
    (decorators : List Expr) :
    ∃ added : List String,
      dialect.addImplicit name scope decorators = decorators ++ added.map Expr.builtin ∧
      added.Nodup ∧
      (∀ text, text ∈ added ↔
        (∃ rule ∈ dialect.implicitDecorators,
          rule.method = name ∧ rule.scope = scope ∧ rule.decorator = text) ∧
        .freeName text ∉ decorators ∧ .builtin text ∉ decorators) ∧
      added.Pairwise (fun first second =>
        (dialect.decoratorsFor name scope).idxOf first <
          (dialect.decoratorsFor name scope).idxOf second) ∧
      (∀ rule ∈ dialect.implicitDecorators, rule.method = name → rule.scope = scope →
        .freeName rule.decorator ∈ dialect.addImplicit name scope decorators ∨
          .builtin rule.decorator ∈ dialect.addImplicit name scope decorators) ∧
      dialect.addImplicit name scope (dialect.addImplicit name scope decorators) =
        dialect.addImplicit name scope decorators := by
  obtain ⟨added, hadded, heq⟩ :=
    exists_missing decorators (dialect.decoratorsFor name scope)
  have hresult : dialect.addImplicit name scope decorators =
      decorators ++ added.map Expr.builtin := heq
  have hreferred : ∀ text ∈ dialect.decoratorsFor name scope,
      (dialect.addImplicit name scope decorators).any (Expr.refersTo text) = true := by
    intro text htext
    rw [hresult]
    exact (hadded.any_append_iff text).2 (Or.inr htext)
  refine ⟨added, hresult, hadded.nodup, ?_, hadded.ordered, ?_,
    foldl_addDecorator_of_any hreferred⟩
  · intro text
    rw [hadded.mem_iff, mem_decoratorsFor, ← Bool.not_eq_true, any_refersTo_eq_true_iff, not_or]
  · intro rule hrule hmethod hscope
    refine (any_refersTo_eq_true_iff _ _).1 (hreferred rule.decorator ?_)
    exact (mem_decoratorsFor dialect name scope _).2 ⟨rule, hrule, hmethod, hscope, rfl⟩

/-- Rules that repeat and overlap. -/
example : Dialect.addImplicit
    { modern with implicitDecorators :=
        [⟨"make", .classScope, "b"⟩, ⟨"make", .classScope, "a"⟩, ⟨"make", .moduleScope, "c"⟩,
          ⟨"make", .classScope, "b"⟩, ⟨"make", .classScope, "d"⟩] }
    "make" .classScope [.freeName "d", .call (.freeName "a") []] =
      [.freeName "d", .call (.freeName "a") [], .builtin "b", .builtin "a"] := by
  rfl

end Dialect

end DefinitionLowering
