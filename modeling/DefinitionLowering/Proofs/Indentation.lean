import DefinitionLowering.Proofs.Outlines
import DefinitionLowering.Proofs.Texts

/-!
# Indentation

The listing of a body can be read back: it is split at the line breaks, and the spaces that a line
begins with tell its level.  This takes names and strings that bring no line break and no space of
their own along (`ArePlain` of `Store.bodyPieces`).

* `Store.tidy_bodyLines` — the lines of a body are tidy.
* `textLines_renderLines` — a listing of tidy lines is read back as it was written.
* `Store.listBody_indented` — the listing of a body is indented as its blocks are nested: line by
  line it is the pre-order of the body's outline.
-/

namespace DefinitionLowering.IR

/-! ## The pieces of code -/

mutual

/-- The pieces that the lines of a statement are made with. -/
def Stmt.pieces (s : Store) : Stmt → List Piece
  | .assignVariable target source => .identifier (s.var target).name :: source.pieces s
  | .assignName target source => .identifier target :: source.pieces s
  | .expr value | .ret value | .objectRet value => value.pieces s
  | .retNone | .objectRetNone => []
  | .raise value => optionPieces s value
  | .release target => [.identifier (s.var target).name]
  | .checkExhausted iterator _ => iterator.pieces s
  | .tryFinally tried cleanup => tried.pieces s ++ cleanup.pieces s
  | .branch condition yes no =>
    condition.pieces s ++ (optionBlockPieces s yes ++ optionBlockPieces s no)
  | .loop condition body => condition.pieces s ++ optionBlockPieces s body

def Block.pieces (s : Store) : Block → List Piece
  | ⟨statements, none⟩ => stmtsPieces s statements
  | ⟨statements, some code⟩ => .identifier code.name :: stmtsPieces s statements

def stmtsPieces (s : Store) : List Stmt → List Piece
  | [] => []
  | first :: rest => first.pieces s ++ stmtsPieces s rest

def optionBlockPieces (s : Store) : Option Block → List Piece
  | none => []
  | some block => block.pieces s

end

namespace Store

/-- The names in the first line of a body. -/
def headerNames (s : Store) (b : BodyId) : List String :=
  let body := s.body b
  match body.kind with
  | .moduleBody => [body.name]
  | .function => body.qualifiedName :: body.signature.toList.flatMap Signature.slots
  | _ => [body.qualifiedName]

/-- The pieces that the listing of a body is made with. -/
def bodyPieces (s : Store) (b : BodyId) : List Piece :=
  (s.headerNames b).map .identifier ++ (s.body b).doc.toList.map .quoted ++
    (s.body b).code.toList.flatMap (Block.pieces s)

end Store

/-! ## Tidy lines -/

/-- The texts of the lines are tidy. -/
abbrev TidyLines (lines : List Line) : Prop :=
  ∀ line ∈ lines, Tidy line.text

theorem TidyLines.append {front back : List Line} (hfront : TidyLines front)
    (hback : TidyLines back) : TidyLines (front ++ back) :=
  List.forall_mem_append.2 ⟨hfront, hback⟩

theorem TidyLines.cons {level : Nat} {text : String} {lines : List Line} (htext : Tidy text)
    (hlines : TidyLines lines) : TidyLines (⟨level, text⟩ :: lines) :=
  List.forall_mem_cons.2 ⟨htext, hlines⟩

theorem TidyLines.single {level : Nat} {text : String} (htext : Tidy text) :
    TidyLines [⟨level, text⟩] :=
  .cons htext nofun

theorem tidyLines_listed {s : Store} {level : Nat} : ∀ {statements : List Stmt},
    TidyLines (stmtLines s level statements) → TidyLines (listedLines s level statements)
  | [], _ => .single (by decide)
  | _ :: _, h => h

mutual

theorem Stmt.tidy_lines (s : Store) : ∀ (level : Nat) (statement : Stmt),
    ArePlain (statement.pieces s) → TidyLines (statement.lines s level)
  | _, .assignVariable target source, h => by
    obtain ⟨htarget, hsource⟩ := ArePlain.cons_iff.1 h
    exact .single ((Store.tidy_variableText htarget).enclose (by decide)
      (source.tidy_text s hsource).unbroken)
  | _, .assignName target source, h => by
    obtain ⟨htarget, hsource⟩ := ArePlain.cons_iff.1 h
    exact .single (htarget.tidy.enclose (by decide) (source.tidy_text s hsource).unbroken)
  | _, .expr value, h => .single (value.tidy_text s h)
  | _, .ret value, h | _, .objectRet value, h | _, .raise (some value), h =>
    .single (Tidy.append (by decide) (value.tidy_text s h).unbroken)
  | _, .retNone, _ | _, .objectRetNone, _ | _, .raise none, _ => .single (by decide)
  | _, .release target, h =>
    .single (Tidy.append (by decide) (Store.tidy_variableText h.singleton).unbroken)
  | _, .checkExhausted iterator count, h => by
    have hfront : Tidy ("check_exhausted(" ++ iterator.text s ++ ", ") :=
      .enclose (by decide) (iterator.tidy_text s h).unbroken (by decide)
    exact .single (hfront.enclose (tidy_repr count).unbroken (by decide))
  | level, .tryFinally tried cleanup, h => by
    obtain ⟨htried, hcleanup⟩ := ArePlain.append_iff.1 h
    exact .append (.cons (by decide) (tried.tidy_lines s (level + 1) htried))
      (.cons (by decide) (cleanup.tidy_lines s (level + 1) hcleanup))
  | level, .branch condition yes no, h => by
    obtain ⟨hcondition, h⟩ := ArePlain.append_iff.1 h
    obtain ⟨hyes, hno⟩ := ArePlain.append_iff.1 h
    have hheader : Tidy ("if " ++ condition.text s ++ ":") :=
      .enclose (by decide) (condition.tidy_text s hcondition).unbroken (by decide)
    exact .append (.cons hheader (blockLines_tidy s (level + 1) yes hyes))
      (elseLines_tidy s level no hno)
  | level, .loop condition body, h => by
    obtain ⟨hcondition, hbody⟩ := ArePlain.append_iff.1 h
    have hheader : Tidy ("while " ++ condition.text s ++ ":") :=
      .enclose (by decide) (condition.tidy_text s hcondition).unbroken (by decide)
    exact .cons hheader (blockLines_tidy s (level + 1) body hbody)

theorem Block.tidy_lines (s : Store) : ∀ (level : Nat) (block : Block),
    ArePlain (block.pieces s) → TidyLines (block.lines s level)
  | level, ⟨statements, none⟩, h => by
    rw [Block.lines_eq]
    exact tidyLines_listed (stmtLines_tidy s level statements h)
  | level, ⟨statements, some code⟩, h => by
    obtain ⟨hname, h⟩ := ArePlain.cons_iff.1 h
    have hheader : Tidy ("frame " ++ code.name ++ ":") :=
      .enclose (by decide) hname.tidy.unbroken (by decide)
    rw [Block.lines_frame]
    exact .cons hheader (tidyLines_listed (stmtLines_tidy s (level + 1) statements h))

theorem stmtLines_tidy (s : Store) : ∀ (level : Nat) (statements : List Stmt),
    ArePlain (stmtsPieces s statements) → TidyLines (stmtLines s level statements)
  | _, [], _ => nofun
  | level, first :: rest, h => by
    obtain ⟨hfirst, hrest⟩ := ArePlain.append_iff.1 h
    exact .append (first.tidy_lines s level hfirst) (stmtLines_tidy s level rest hrest)

theorem blockLines_tidy (s : Store) : ∀ (level : Nat) (block : Option Block),
    ArePlain (optionBlockPieces s block) → TidyLines (blockLines s level block)
  | _, none, _ => .single (by decide)
  | level, some block, h => block.tidy_lines s level h

theorem elseLines_tidy (s : Store) : ∀ (level : Nat) (block : Option Block),
    ArePlain (optionBlockPieces s block) → TidyLines (elseLines s level block)
  | _, none, _ => nofun
  | level, some block, h => .cons (by decide) (block.tidy_lines s (level + 1) h)

end

theorem tidy_starText {signature : Signature}
    (h : ∀ name ∈ signature.star.toList, (Piece.identifier name).IsPlain) :
    AreTidy signature.starText := by
  unfold Signature.starText
  cases hstar : signature.star with
  | none =>
    dsimp only
    split
    · nofun
    · exact List.forall_mem_singleton.2 (by decide)
  | some name =>
    rw [hstar] at h
    have hname : (Piece.identifier name).IsPlain := h name (List.mem_singleton_self name)
    exact List.forall_mem_singleton.2 (Tidy.append (by decide) hname.tidy.unbroken)

/-- A signature is listed with a star or two in front of some of its names. -/
theorem unbroken_signature {signature : Signature}
    (h : ∀ name ∈ signature.slots, (Piece.identifier name).IsPlain) :
    Unbroken signature.text := by
  simp only [Signature.slots, List.forall_mem_append] at h
  obtain ⟨⟨⟨hpositional, hkeyword⟩, hstar⟩, hdoubleStar⟩ := h
  refine .intercalate (by decide) ?_
  simp only [AreTidy, List.forall_mem_append, List.forall_mem_map]
  exact ⟨⟨⟨fun name hname => (hpositional name hname).tidy, tidy_starText hstar⟩,
    fun name hname => (hkeyword name hname).tidy⟩,
    fun name hname => Tidy.append (by decide) (hdoubleStar name hname).tidy.unbroken⟩

namespace Store

variable {s : Store} {b : BodyId}

theorem unbroken_signatureText
    (h : ∀ name ∈ (s.body b).signature.toList.flatMap Signature.slots,
      (Piece.identifier name).IsPlain) : Unbroken (s.signatureText b) := by
  unfold signatureText
  cases hsignature : (s.body b).signature with
  | none => decide
  | some signature =>
    rw [hsignature] at h
    exact unbroken_signature (by simpa using h)

theorem tidy_headerText (h : ArePlain ((s.headerNames b).map .identifier)) :
    Tidy (s.headerText b) := by
  rw [ArePlain, List.forall_mem_map] at h
  unfold headerNames at h
  unfold headerText
  dsimp only at h ⊢
  split <;> rename_i hkind <;> rw [hkind] at h
  -- only a function has its signature behind its name
  case h_3 =>
    obtain ⟨hname, hslots⟩ := List.forall_mem_cons.1 h
    exact (Tidy.enclose (by decide) hname.tidy.unbroken (by decide)).enclose
      (unbroken_signatureText hslots) (by decide)
  all_goals
    exact .enclose (by decide) (h _ (List.mem_singleton_self _)).tidy.unbroken (by decide)

theorem tidy_docLines (h : ArePlain ((s.body b).doc.toList.map .quoted)) :
    TidyLines (s.docLines b) := by
  unfold docLines
  cases hdoc : (s.body b).doc with
  | none => nofun
  | some doc =>
    rw [hdoc] at h
    exact .single (.enclose (by decide) h.singleton (by decide))

theorem tidy_codeLines (h : ArePlain ((s.body b).code.toList.flatMap (Block.pieces s))) :
    TidyLines (s.codeLines b) := by
  unfold codeLines
  cases hcode : (s.body b).code with
  | none => exact .single (by decide)
  | some code =>
    rw [hcode] at h
    exact code.tidy_lines s 1 (by simpa using h)

/-- **The lines of a body with plain pieces are tidy.** -/
theorem tidy_bodyLines (h : ArePlain (s.bodyPieces b)) : TidyLines (s.bodyLines b) := by
  obtain ⟨h, hcode⟩ := ArePlain.append_iff.1 h
  obtain ⟨hheader, hdoc⟩ := ArePlain.append_iff.1 h
  exact .append (.cons (tidy_headerText hheader) (tidy_docLines hdoc)) (tidy_codeLines hcode)

end Store

/-! ## Reading a listing back -/

/-- The lines of a text, each of which ends with a line break. -/
def textLines (text : String) : List (List Char) :=
  (text.toList.splitOn '\n').dropLast

/-- How many spaces a line begins with. -/
def indentation (line : List Char) : Nat :=
  (line.takeWhile (· == ' ')).length

/-- A line as it is written, without its line break. -/
def Line.written (line : Line) : List Char :=
  List.replicate (2 * line.level) ' ' ++ line.text.toList

theorem toList_join_replicate (n : Nat) :
    (String.join (List.replicate n "  ")).toList = List.replicate (2 * n) ' ' := by
  induction n with
  | zero => simp
  | succ n ih =>
    rw [String.toList_join] at ih ⊢
    rw [List.replicate_succ, List.flatMap_cons, ih]
    rfl

theorem Line.toList_render (line : Line) : line.render.toList = line.written ++ ['\n'] := by
  rw [render, String.toList_append, String.toList_append, toList_join_replicate]
  rfl

theorem toList_renderLines (lines : List Line) :
    (renderLines lines).toList = (lines.map Line.written).flatMap (· ++ ['\n']) := by
  rw [renderLines, String.toList_join, List.flatMap_map, List.flatMap_map]
  exact List.flatMap_congr fun line _ => line.toList_render

/-- Lines that end with a line break each are parted by line breaks, with nothing behind the
last. -/
theorem flatMap_eq_intercalate (lines : List (List Char)) :
    lines.flatMap (· ++ ['\n']) = ['\n'].intercalate (lines ++ [[]]) := by
  induction lines with
  | nil => rfl
  | cons line rest ih =>
    obtain ⟨next, others, hrest⟩ := List.exists_cons_of_ne_nil
      (List.append_ne_nil_of_right_ne_nil rest (List.cons_ne_nil [] []))
    rw [List.flatMap_cons, ih, List.cons_append, hrest, List.intercalate_cons_cons]

theorem not_mem_written {line : Line} (h : Tidy line.text) : '\n' ∉ line.written := by
  rw [Line.written, List.mem_append, not_or]
  exact ⟨fun hmem => absurd (List.eq_of_mem_replicate hmem) (by decide), h.unbroken⟩

/-- **A listing of tidy lines is read back as it was written.** -/
theorem textLines_renderLines {lines : List Line} (h : TidyLines lines) :
    textLines (renderLines lines) = lines.map Line.written := by
  have hunbroken : ∀ line ∈ lines.map Line.written ++ [[]], '\n' ∉ line := by
    rw [List.forall_mem_append, List.forall_mem_map]
    exact ⟨fun line hline => not_mem_written (h line hline),
      List.forall_mem_singleton.2 List.not_mem_nil⟩
  have hne : lines.map Line.written ++ [[]] ≠ [] :=
    List.append_ne_nil_of_right_ne_nil _ (List.cons_ne_nil _ _)
  rw [textLines, toList_renderLines, flatMap_eq_intercalate,
    List.splitOn_intercalate '\n' hunbroken hne, List.dropLast_concat]

theorem indentation_written {line : Line} (h : Tidy line.text) :
    indentation line.written = 2 * line.level := by
  obtain ⟨c, rest, htext⟩ := List.exists_cons_of_ne_nil h.nonempty
  have hc : c ≠ ' ' := by
    rintro rfl
    exact h.begins (by rw [htext]; rfl)
  have hspaces : ∀ c ∈ List.replicate (2 * line.level) ' ', (c == ' ') = true := fun c hc =>
    beq_iff_eq.2 (List.eq_of_mem_replicate hc)
  rw [indentation, Line.written, htext, List.takeWhile_append_of_pos hspaces,
    List.takeWhile_cons_of_neg (by simpa using hc), List.append_nil, List.length_replicate]

/-! ## Indentation and outline -/

/-- A line of text shows a node: it is indented by two spaces for each level, a header ends in a
colon, and nothing but `pass` stands in the line of an empty block. -/
structure Shows (line : List Char) (node : Node) : Prop where
  indentation : indentation line = 2 * node.level
  header : node.mark = .header → line.getLast? = some ':'
  pass : node.mark = .pass → line = List.replicate (2 * node.level) ' ' ++ "pass".toList

/-- The indentation of a text is that of an outline. -/
structure Indented (text : String) (outline : Outline) : Prop where
  /-- The text is made of complete lines. -/
  complete : text.toList = (textLines text).flatMap (· ++ ['\n'])
  /-- The lines show the nodes of the outline in pre-order. -/
  shows : List.Forall₂ Shows (textLines text) (outline.preorder 0)
  /-- Behind a header stands a line that is one level deeper. -/
  below : ∀ (i : Nat) (node : Node), (outline.preorder 0)[i]? = some node → node.mark = .header →
    ∃ next, (textLines text)[i + 1]? = some next ∧ indentation next = 2 * (node.level + 1)
  /-- A line is deeper than the one before it only behind a header, and then by one level. -/
  deeper : ∀ (i : Nat) (line next : List Char), (textLines text)[i]? = some line →
    (textLines text)[i + 1]? = some next →
      indentation next ≤ indentation line ∨
        indentation next = indentation line + 2 ∧
          ∃ node, (outline.preorder 0)[i]? = some node ∧ node.mark = .header

theorem Line.Stands.shows {line : Line} {node : Node} (h : line.Stands node)
    (htidy : Tidy line.text) : Shows line.written node where
  indentation := by rw [indentation_written htidy, h.level]
  header := by
    intro hheader
    rw [written, List.getLast?_append, h.header hheader]
    rfl
  pass := by
    intro hpass
    rw [written, h.level, h.pass hpass]

theorem exists_getElem?_of_forall₂ {α β : Type} {R : α → β → Prop} {xs : List α} {ys : List β}
    (h : List.Forall₂ R xs ys) {i : Nat} {x : α} (hx : xs[i]? = some x) :
    ∃ y, ys[i]? = some y ∧ R x y := by
  obtain ⟨hi, rfl⟩ := List.getElem?_eq_some_iff.1 hx
  have hi' : i < ys.length := h.length_eq ▸ hi
  exact ⟨ys[i], List.getElem?_eq_getElem hi', h.get hi hi'⟩

/-- Tidy lines that stand for the nodes of an outline are indented as it is. -/
theorem indented_renderLines {outline : Outline} {lines : List Line}
    (hstand : LinesStand lines (outline.preorder 0)) (htidy : TidyLines lines) :
    Indented (renderLines lines) outline := by
  have hshows : List.Forall₂ Shows (textLines (renderLines lines)) (outline.preorder 0) := by
    rw [textLines_renderLines htidy, List.forall₂_map_left_iff]
    exact ((List.forall₂_and_left _ _).2 ⟨htidy, hstand⟩).imp fun line node h => h.2.shows h.1
  -- what is known of the levels of the nodes goes over to the lines that show them
  have hshown : List.Forall₂ (flip Shows) (outline.preorder 0) (textLines (renderLines lines)) :=
    List.Forall₂.flip hshows
  refine ⟨?_, hshows, fun i node hnode hheader => ?_, fun i line next hline hnext => ?_⟩
  · rw [textLines_renderLines htidy, toList_renderLines]
  · obtain ⟨below, hbelow, hlevel⟩ := (outline.laidOut 0).exists_next hnode hheader
    obtain ⟨next, hnext, hnextShows⟩ := exists_getElem?_of_forall₂ hshown hbelow
    exact ⟨next, hnext, by rw [hnextShows.indentation, hlevel]⟩
  · obtain ⟨node, hnode, hlineShows⟩ := exists_getElem?_of_forall₂ hshows hline
    obtain ⟨nextNode, hnextNode, hnextShows⟩ := exists_getElem?_of_forall₂ hshows hnext
    rw [hlineShows.indentation, hnextShows.indentation]
    rcases (outline.laidOut 0).next_level hnode hnextNode with hle | ⟨hheader, hlevel⟩
    · exact .inl (Nat.mul_le_mul_left 2 hle)
    · exact .inr ⟨by omega, node, hnode, hheader⟩

/-- **The listing of a body is indented as its blocks are nested.** -/
theorem Store.listBody_indented (s : Store) (b : BodyId) (h : ArePlain (s.bodyPieces b)) :
    Indented (s.listBody b) (s.outline b) :=
  indented_renderLines (s.bodyLines_stand b) (tidy_bodyLines h)

/-- A body of a frame with a conditional, of which one branch is absent and the other empty, and a
loop without code. -/
def listedStore : Store where
  bodies := #[{ (default : Body) with
    kind := .function
    name := "f"
    qualifiedName := "C.f"
    doc := some "Two words."
    signature := some ⟨"f", ["a"], [], none, some "kw", 0⟩
    code := some (.ofFrame { (default : CodeObject) with name := "f" }
      [.tryFinally
        (.single (.branch (.var ⟨0⟩) none (some (.ofStatements []))))
        (.ofStatements [.release ⟨2⟩, .loop (.freeName "g") none]),
      .ret (.constant (.str "a b"))]) }]
  vars := #[⟨"a", ⟨0⟩, .parameter⟩, ⟨"kw", ⟨0⟩, .parameter⟩, ⟨"tmp_x", ⟨0⟩, .temporary⟩]

theorem listedStore_indented :
    ArePlain (listedStore.bodyPieces ⟨0⟩) ∧
      ((listedStore.outline ⟨0⟩).preorder 0).map Node.level =
        [0, 1, 1, 2, 3, 4, 3, 4, 2, 3, 3, 4, 2] ∧
      Indented (listedStore.listBody ⟨0⟩) (listedStore.outline ⟨0⟩) :=
  ⟨by decide, by decide, listedStore.listBody_indented ⟨0⟩ (by decide)⟩

end DefinitionLowering.IR
