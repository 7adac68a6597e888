import DefinitionLowering.IR.Listing

/-!
# Tidy texts

The text of code is made of words that are fixed by its form and of names, strings and documentation
that the code brings along (`Piece`).  A text is tidy when it is on one line and begins with no
space.  When no name is empty or has a space or a line break in it, and no string has a line break,
the text of an expression is tidy (`Expr.tidy_text`).
-/

namespace DefinitionLowering.IR

/-! ## One line of text -/

/-- The text has no line break. -/
def Unbroken (text : String) : Prop :=
  '\n' ∉ text.toList

instance (text : String) : Decidable (Unbroken text) :=
  inferInstanceAs (Decidable (¬_))

/-- The text is on one line, is not empty and begins with no space. -/
structure Tidy (text : String) : Prop where
  nonempty : text.toList ≠ []
  begins : text.toList.head? ≠ some ' '
  unbroken : Unbroken text

instance (text : String) : Decidable (Tidy text) :=
  decidable_of_iff (text.toList ≠ [] ∧ text.toList.head? ≠ some ' ' ∧ Unbroken text)
    ⟨fun h => ⟨h.1, h.2.1, h.2.2⟩, fun h => ⟨h.nonempty, h.begins, h.unbroken⟩⟩

abbrev AreTidy (texts : List String) : Prop :=
  ∀ text ∈ texts, Tidy text

variable {text front back separator : String}

theorem Unbroken.append (hfront : Unbroken front) (hback : Unbroken back) :
    Unbroken (front ++ back) := by
  rw [Unbroken, String.toList_append, List.mem_append, not_or]
  exact ⟨hfront, hback⟩

theorem Unbroken.intercalate (hseparator : Unbroken separator) : ∀ {texts : List String},
    AreTidy texts → Unbroken (separator.intercalate texts)
  | [], _ => by
    rw [String.intercalate_nil]
    decide
  | [text], h => by
    rw [String.intercalate_singleton]
    exact (h text (List.mem_singleton_self text)).unbroken
  | text :: next :: texts, h => by
    obtain ⟨hfirst, hrest⟩ := List.forall_mem_cons.1 h
    rw [String.intercalate_cons_cons]
    exact (hfirst.unbroken.append hseparator).append (hseparator.intercalate hrest)

/-- What stands behind a tidy text only has to be on the same line. -/
theorem Tidy.append (hfront : Tidy front) (hback : Unbroken back) : Tidy (front ++ back) where
  nonempty := by
    rw [String.toList_append]
    exact List.append_ne_nil_of_left_ne_nil hfront.nonempty _
  begins := by
    obtain ⟨c, rest, htext⟩ := List.exists_cons_of_ne_nil hfront.nonempty
    have hc := hfront.begins
    rw [htext] at hc
    rw [String.toList_append, htext]
    exact hc
  unbroken := hfront.unbroken.append hback

theorem Tidy.enclose (hfront : Tidy front) (h : Unbroken text) (hback : Unbroken back) :
    Tidy (front ++ text ++ back) :=
  (hfront.append h).append hback

/-- A text of digits has neither spaces nor line breaks. -/
theorem tidy_repr (n : Nat) : Tidy n.repr := by
  have hdigit : ∀ c ∈ n.repr.toList, c.isDigit = true := by
    intro c hc
    rw [Nat.toList_repr] at hc
    exact Nat.isDigit_of_mem_toDigits (by decide) (by decide) hc
  refine ⟨?_, fun h => ?_, fun h => absurd (hdigit _ h) (by decide)⟩
  · rw [Nat.toList_repr]
    exact Nat.toDigits_ne_nil
  · exact absurd (hdigit ' ' (List.mem_of_mem_head? h)) (by decide)

theorem tidy_int : ∀ i : Int, Tidy i.repr
  | .ofNat n => tidy_repr n
  | .negSucc n => Tidy.append (by decide) (tidy_repr n.succ).unbroken

/-! ## What code brings along -/

/-- A part of a text that is not fixed by the form of the code. -/
inductive Piece where
  | identifier (name : String)
  /-- A string between quotes: a constant, a key of a mapping or a documentation string. -/
  | quoted (text : String)

/-- Names are not empty and hold neither a space nor a line break, strings hold no line break. -/
def Piece.IsPlain : Piece → Prop
  | .identifier name => name ≠ "" ∧ ' ' ∉ name.toList ∧ '\n' ∉ name.toList
  | .quoted text => '\n' ∉ text.toList

instance : DecidablePred Piece.IsPlain
  | .identifier _ => inferInstanceAs (Decidable (_ ∧ _))
  | .quoted _ => inferInstanceAs (Decidable (¬_))

theorem Piece.IsPlain.tidy {name : String} (h : (identifier name).IsPlain) : Tidy name where
  nonempty := fun hnil => h.1 (String.toList_inj.1 (hnil.trans String.toList_empty.symm))
  begins := fun hspace => h.2.1 (List.mem_of_mem_head? hspace)
  unbroken := h.2.2

/-- All pieces are plain. -/
abbrev ArePlain (pieces : List Piece) : Prop :=
  ∀ piece ∈ pieces, piece.IsPlain

theorem ArePlain.append_iff {front back : List Piece} :
    ArePlain (front ++ back) ↔ ArePlain front ∧ ArePlain back :=
  List.forall_mem_append

theorem ArePlain.cons_iff {piece : Piece} {pieces : List Piece} :
    ArePlain (piece :: pieces) ↔ piece.IsPlain ∧ ArePlain pieces :=
  List.forall_mem_cons

theorem ArePlain.singleton {piece : Piece} (h : ArePlain [piece]) : piece.IsPlain :=
  h _ (List.mem_singleton_self _)

end DefinitionLowering.IR

namespace DefinitionLowering

def Constant.pieces : Constant → List IR.Piece
  | .str value => [.quoted value]
  | _ => []

namespace IR

mutual

/-- The pieces that the text of an expression is made with.  A mapping is listed up to the end of
the shorter one of its lists. -/
def Expr.pieces (s : Store) : Expr → List Piece
  | .constant value => value.pieces
  | .constantMapping entries => entries.flatMap fun entry => .quoted entry.1 :: entry.2.pieces
  | .var v => [.identifier (s.var v).name]
  | .freeName name => [.identifier name]
  | .builtin name => [.identifier name]
  | .call callee args => callee.pieces s ++ exprsPieces s args
  | .binary left _ right => left.pieces s ++ right.pieces s
  | .attribute value name => value.pieces s ++ [.identifier name]
  | .tuple items => exprsPieces s items
  | .mapping keys values => entriesPieces s keys values
  | .yield value => optionPieces s value
  | .yieldFrom value => value.pieces s
  | .await value => value.pieces s
  | .makeFunction body _ defaults keywordDefaults annotations =>
    [.identifier (s.body body).qualifiedName] ++ exprsPieces s defaults ++
      optionPieces s keywordDefaults ++ optionPieces s annotations
  | .callFunction function values => function.pieces s ++ exprsPieces s values
  | .makeObject _ body _ => [.identifier (s.body body).qualifiedName]
  | .makeClass body bases => [.identifier (s.body body).qualifiedName] ++ exprsPieces s bases
  | .iterator value => value.pieces s
  | .unpack source _ _ => source.pieces s

def exprsPieces (s : Store) : List Expr → List Piece
  | [] => []
  | first :: rest => first.pieces s ++ exprsPieces s rest

def optionPieces (s : Store) : Option Expr → List Piece
  | none => []
  | some value => value.pieces s

def entriesPieces (s : Store) : List String → List Expr → List Piece
  | key :: keys, value :: values => [.quoted key] ++ value.pieces s ++ entriesPieces s keys values
  | _, [] => []
  | [], _ => []

end

/-! ## The text of an expression -/

theorem tidy_constant : ∀ {value : Constant}, ArePlain value.pieces → Tidy value.text
  | .none, _ | .bool true, _ | .bool false, _ => by decide
  | .int value, _ => tidy_int value.toInt
  | .str _, h => .enclose (by decide) h.singleton (by decide)

theorem unbroken_symbol (op : BinaryOperator) : Unbroken op.symbol := by
  cases op <;> decide

theorem tidy_makerText (kind : ObjectKind) : Tidy (makerText kind) := by
  cases kind <;> decide

theorem tidy_tupleText {items : List String} (h : AreTidy items) : Tidy (tupleText items) := by
  unfold tupleText
  split
  · exact .enclose (by decide) (h _ (List.mem_singleton_self _)).unbroken (by decide)
  · exact .enclose (by decide) (.intercalate (by decide) h) (by decide)

/-- An entry of a mapping. -/
def entryText (key value : String) : String :=
  "'" ++ key ++ "': " ++ value

theorem tidy_entryText {key value : String} (hkey : (Piece.quoted key).IsPlain)
    (hvalue : Tidy value) : Tidy (entryText key value) :=
  (Tidy.enclose (by decide) hkey (by decide)).append hvalue.unbroken

theorem tidy_mappingText {keys values : List String}
    (h : AreTidy (List.zipWith entryText keys values)) : Tidy (mappingText keys values) :=
  .enclose (by decide) (.intercalate (by decide) h) (by decide)

theorem tidy_constantEntries {entries : List (String × Constant)}
    (h : ArePlain (entries.flatMap fun entry => .quoted entry.1 :: entry.2.pieces)) :
    AreTidy (List.zipWith entryText (entries.map Prod.fst)
      (entries.map fun entry => entry.2.text)) := by
  rw [List.zipWith_map, List.zipWith_self, AreTidy, List.forall_mem_map]
  intro entry hentry
  have hpieces : ArePlain (.quoted entry.1 :: entry.2.pieces) := fun piece hpiece =>
    h piece (List.mem_flatMap.2 ⟨entry, hentry, hpiece⟩)
  obtain ⟨hkey, hvalue⟩ := ArePlain.cons_iff.1 hpieces
  exact tidy_entryText hkey (tidy_constant hvalue)

theorem Store.tidy_variableText {s : Store} {v : VariableId}
    (h : (Piece.identifier (s.var v).name).IsPlain) : Tidy (s.variableText v) := by
  unfold variableText
  split
  · exact Tidy.append (by decide) h.tidy.unbroken
  · exact h.tidy

theorem Store.unbroken_bodyText {s : Store} {b : BodyId}
    (h : (Piece.identifier (s.body b).qualifiedName).IsPlain) : Unbroken (s.bodyText b) :=
  Unbroken.append (by decide) h.tidy.unbroken

/-- A tuple that is listed when it is not empty. -/
theorem unbroken_tuplePart {label : String} (hlabel : Unbroken label) {items : List Expr}
    {texts : List String} (h : AreTidy texts) :
    Unbroken (if items.isEmpty then "" else label ++ tupleText texts) := by
  split
  · decide
  · exact hlabel.append (tidy_tupleText h).unbroken

mutual

/-- **The text of an expression with plain pieces is tidy.**  A call and an attribute begin with the
text of what they are about, any other expression with a word of its own. -/
theorem Expr.tidy_text (s : Store) : ∀ e : Expr, ArePlain (e.pieces s) → Tidy (e.text s)
  | .constant _, h => tidy_constant h
  | .constantMapping _, h => tidy_mappingText (tidy_constantEntries h)
  | .var _, h => Store.tidy_variableText h.singleton
  | .freeName _, h => h.singleton.tidy
  | .builtin _, h => Tidy.append (by decide) h.singleton.tidy.unbroken
  | .call callee args, h | .callFunction callee args, h => by
    obtain ⟨hcallee, hargs⟩ := ArePlain.append_iff.1 h
    have hfront : Tidy (callee.text s ++ "(") := (callee.tidy_text s hcallee).append (by decide)
    exact hfront.enclose (.intercalate (by decide) (exprTexts_tidy hargs)) (by decide)
  | .binary left op right, h => by
    obtain ⟨hleft, hright⟩ := ArePlain.append_iff.1 h
    have hfront : Tidy ("(" ++ left.text s ++ " ") :=
      .enclose (by decide) (left.tidy_text s hleft).unbroken (by decide)
    have hmiddle : Tidy ("(" ++ left.text s ++ " " ++ op.symbol ++ " ") :=
      hfront.enclose (unbroken_symbol op) (by decide)
    exact hmiddle.enclose (right.tidy_text s hright).unbroken (by decide)
  | .attribute value name, h => by
    obtain ⟨hvalue, hname⟩ := ArePlain.append_iff.1 h
    exact (value.tidy_text s hvalue).enclose (by decide) hname.singleton.tidy.unbroken
  | .tuple _, h => tidy_tupleText (exprTexts_tidy h)
  | .mapping _ _, h => tidy_mappingText (entries_tidy h)
  | .yield none, _ => by
    show Tidy "(yield)"
    decide
  | .yield (some value), h | .yieldFrom value, h | .await value, h | .iterator value, h =>
    .enclose (by decide) (value.tidy_text s h).unbroken (by decide)
  | .makeFunction body _ defaults keywordDefaults annotations, h => by
    obtain ⟨h, hannotations⟩ := ArePlain.append_iff.1 h
    obtain ⟨h, hkeywordDefaults⟩ := ArePlain.append_iff.1 h
    obtain ⟨hbody, hdefaults⟩ := ArePlain.append_iff.1 h
    have hfront : Tidy ("make_function(" ++ s.bodyText body) :=
      .append (by decide) (Store.unbroken_bodyText hbody.singleton)
    have hdefaultsPart : Unbroken
        (if defaults.isEmpty then "" else ", defaults=" ++ tupleText (exprTexts s defaults)) :=
      unbroken_tuplePart (by decide) (exprTexts_tidy hdefaults)
    have hkeywordPart : Unbroken (partText s ", kw_defaults=" keywordDefaults) :=
      partText_unbroken (by decide) hkeywordDefaults
    exact (hfront.enclose hdefaultsPart hkeywordPart).enclose
      (partText_unbroken (by decide) hannotations) (by decide)
  | .makeObject kind body _, h =>
    ((tidy_makerText kind).append (by decide)).enclose (Store.unbroken_bodyText h.singleton)
      (by decide)
  | .makeClass body bases, h => by
    obtain ⟨hbody, hbases⟩ := ArePlain.append_iff.1 h
    have hfront : Tidy ("make_class(" ++ s.bodyText body) :=
      .append (by decide) (Store.unbroken_bodyText hbody.singleton)
    exact hfront.enclose (unbroken_tuplePart (by decide) (exprTexts_tidy hbases)) (by decide)
  | .unpack source count expected, h => by
    have hfront : Tidy ("unpack(" ++ source.text s ++ ", ") :=
      .enclose (by decide) (source.tidy_text s h).unbroken (by decide)
    have hcount : Tidy ("unpack(" ++ source.text s ++ ", " ++ count.repr ++ ", ") :=
      hfront.enclose (tidy_repr count).unbroken (by decide)
    exact hcount.enclose (tidy_repr expected).unbroken (by decide)

theorem exprTexts_tidy {s : Store} : ∀ {es : List Expr}, ArePlain (exprsPieces s es) →
    AreTidy (exprTexts s es)
  | [], _ => nofun
  | first :: rest, h => by
    obtain ⟨hfirst, hrest⟩ := ArePlain.append_iff.1 h
    exact List.forall_mem_cons.2 ⟨first.tidy_text s hfirst, exprTexts_tidy hrest⟩

theorem partText_unbroken {s : Store} {label : String} (hlabel : Unbroken label) :
    ∀ {e : Option Expr}, ArePlain (optionPieces s e) → Unbroken (partText s label e)
  | none, _ => by
    show Unbroken ""
    decide
  | some value, h => hlabel.append (value.tidy_text s h).unbroken

theorem entries_tidy {s : Store} : ∀ {keys : List String} {values : List Expr},
    ArePlain (entriesPieces s keys values) →
      AreTidy (List.zipWith entryText keys (exprTexts s values))
  | key :: keys, value :: values, h => by
    obtain ⟨hentry, hrest⟩ := ArePlain.append_iff.1 h
    obtain ⟨hkey, hvalue⟩ := ArePlain.cons_iff.1 hentry
    exact List.forall_mem_cons.2
      ⟨tidy_entryText hkey (value.tidy_text s hvalue), entries_tidy hrest⟩
  | [], _, _ | _ :: _, [], _ => nofun

end

end IR

end DefinitionLowering
