import Mathlib.Data.List.Chain
import Mathlib.Data.List.Forall2
import DefinitionLowering.IR.Listing

/-!
# Outlines

The outline of code is the tree of its blocks: a statement is a line, and a statement with blocks is
a header for each of them, with the lines of the block below it.  A header has at least one line
below it, since an empty block counts as one (`Outline.headed`).  The nodes of an outline in
pre-order, each with its depth, are compared with the lines of a listing.

* `Outline.laidOut` — in pre-order, only the first line of a block is deeper than the line before
  it, by one level, and behind every header comes such a line.
* `Block.lines_stand` — the lines of a block stand for the nodes of its outline, one by one.
-/

namespace DefinitionLowering.IR

/-! ## Trees of blocks -/

/-- A tree of lines.  A header comes with its block, which is not empty. -/
inductive Outline where
  | plain
  /-- The line of a block with nothing in it. -/
  | pass
  | header (first : Outline) (rest : List Outline)

/-- What a line of a listing is in the outline. -/
inductive Mark where
  | plain
  | pass
  | header
  deriving DecidableEq

/-- A node of an outline with its depth. -/
structure Node where
  level : Nat
  mark : Mark
  deriving DecidableEq

mutual

/-- The nodes of an outline that stands at a level, each before those below it. -/
def Outline.preorder (level : Nat) : Outline → List Node
  | .plain => [⟨level, .plain⟩]
  | .pass => [⟨level, .pass⟩]
  | .header first rest =>
    ⟨level, .header⟩ :: (first.preorder (level + 1) ++ forestPreorder (level + 1) rest)

def forestPreorder (level : Nat) : List Outline → List Node
  | [] => []
  | first :: rest => first.preorder level ++ forestPreorder level rest

end

theorem forestPreorder_singleton (level : Nat) (outline : Outline) :
    forestPreorder level [outline] = outline.preorder level :=
  List.append_nil _

theorem forestPreorder_append (level : Nat) (front back : List Outline) :
    forestPreorder level (front ++ back) =
      forestPreorder level front ++ forestPreorder level back := by
  induction front with
  | nil => rfl
  | cons first rest ih =>
    rw [List.cons_append, forestPreorder, ih, forestPreorder, List.append_assoc]

/-- The lines of a block: that of an empty one is a line of its own. -/
def Outline.listed : List Outline → List Outline
  | [] => [.pass]
  | first :: rest => first :: rest

/-- A header over the lines of a block. -/
def Outline.headed : List Outline → Outline
  | [] => .header .pass []
  | first :: rest => .header first rest

theorem Outline.listed_ne_nil (block : List Outline) : listed block ≠ [] := by
  cases block <;> exact List.cons_ne_nil _ _

theorem Outline.listed_eq_self {block : List Outline} (h : block ≠ []) : listed block = block := by
  cases block with
  | nil => exact absurd rfl h
  | cons first rest => rfl

theorem Outline.preorder_headed (level : Nat) (block : List Outline) :
    (headed block).preorder level =
      ⟨level, .header⟩ :: forestPreorder (level + 1) (listed block) := by
  cases block <;> rfl

/-! ## Levels in pre-order -/

/-- How the levels of two neighbours are related: behind a header its block begins, and behind any
other line no deeper one comes. -/
def Node.Precedes (node next : Node) : Prop :=
  if node.mark = .header then next.level = node.level + 1 else next.level ≤ node.level

/-- Nodes whose levels are those of a pre-order that begins at a level. -/
structure LaidOut (level : Nat) (nodes : List Node) : Prop where
  head : ∀ node ∈ nodes.head?, node.level = level
  le : ∀ node ∈ nodes, level ≤ node.level
  last : ∀ node ∈ nodes.getLast?, node.mark ≠ .header
  chain : nodes.IsChain Node.Precedes

namespace LaidOut

variable {level i : Nat} {nodes front back : List Node} {node next : Node}

theorem nil : LaidOut level [] where
  head := nofun
  le := nofun
  last := nofun
  chain := .nil

theorem single {mark : Mark} (h : mark ≠ .header) : LaidOut level [⟨level, mark⟩] where
  head := by rintro _ ⟨⟩; rfl
  le := by simp
  last := by rintro _ ⟨⟩; exact h
  chain := .singleton _

/-- The front ends with a line that is no header, so the back may go on at the same level. -/
theorem append (hfront : LaidOut level front) (hback : LaidOut level back) :
    LaidOut level (front ++ back) where
  head := by
    intro node hnode
    rw [List.head?_append, Option.mem_def, Option.or_eq_some_iff] at hnode
    rcases hnode with hnode | ⟨-, hnode⟩
    · exact hfront.head node hnode
    · exact hback.head node hnode
  le := fun node hnode => (List.mem_append.1 hnode).elim (hfront.le node) (hback.le node)
  last := by
    intro node hnode
    rw [List.getLast?_append, Option.mem_def, Option.or_eq_some_iff] at hnode
    rcases hnode with hnode | ⟨-, hnode⟩
    · exact hback.last node hnode
    · exact hfront.last node hnode
  chain := by
    refine List.isChain_append.2 ⟨hfront.chain, hback.chain, fun node hnode next hnext => ?_⟩
    rw [Node.Precedes, if_neg (hfront.last node hnode), hback.head next hnext]
    exact hfront.le node (List.mem_of_getLast? hnode)

/-- A header may stand in front of its block. -/
theorem header (hne : nodes ≠ []) (h : LaidOut (level + 1) nodes) :
    LaidOut level (⟨level, .header⟩ :: nodes) where
  head := by rintro _ ⟨⟩; rfl
  le := by
    intro node hnode
    rcases List.mem_cons.1 hnode with rfl | hnode
    · exact Nat.le_refl _
    · exact Nat.le_of_succ_le (h.le node hnode)
  last := by
    rw [List.getLast?_cons_of_ne_nil hne]
    exact h.last
  chain := h.chain.cons fun next hnext => h.head next hnext

/-- Behind a header comes a line that is one level deeper. -/
theorem exists_next (h : LaidOut level nodes) (hnode : nodes[i]? = some node)
    (hheader : node.mark = .header) :
    ∃ next, nodes[i + 1]? = some next ∧ next.level = node.level + 1 := by
  obtain ⟨hi, rfl⟩ := List.getElem?_eq_some_iff.1 hnode
  by_cases hlast : i + 1 < nodes.length
  · refine ⟨nodes[i + 1], List.getElem?_eq_getElem hlast, ?_⟩
    have hstep := h.chain.getElem i hlast
    rwa [Node.Precedes, if_pos hheader] at hstep
  · refine absurd hheader (h.last _ ?_)
    rw [Option.mem_def, List.getLast?_eq_getElem?, show nodes.length - 1 = i by omega]
    exact hnode

/-- Only the first line of a block is deeper than the line before it. -/
theorem next_level (h : LaidOut level nodes) (hnode : nodes[i]? = some node)
    (hnext : nodes[i + 1]? = some next) :
    next.level ≤ node.level ∨ node.mark = .header ∧ next.level = node.level + 1 := by
  obtain ⟨hi, rfl⟩ := List.getElem?_eq_some_iff.1 hnode
  obtain ⟨hi', rfl⟩ := List.getElem?_eq_some_iff.1 hnext
  have hstep := h.chain.getElem i hi'
  rw [Node.Precedes] at hstep
  split at hstep
  · exact .inr ⟨‹_›, hstep⟩
  · exact .inl hstep

end LaidOut

theorem Outline.preorder_ne_nil (level : Nat) (outline : Outline) :
    outline.preorder level ≠ [] := by
  cases outline <;> simp [preorder]

mutual

/-- **The levels of an outline rise by one behind a header and nowhere else.** -/
theorem Outline.laidOut : ∀ (outline : Outline) (level : Nat),
    LaidOut level (outline.preorder level)
  | .plain, _ => .single nofun
  | .pass, _ => .single nofun
  | .header first rest, level =>
    .header (List.append_ne_nil_of_left_ne_nil (first.preorder_ne_nil _) _)
      ((first.laidOut (level + 1)).append (forest_laidOut rest (level + 1)))

theorem forest_laidOut : ∀ (outlines : List Outline) (level : Nat),
    LaidOut level (forestPreorder level outlines)
  | [], _ => .nil
  | first :: rest, level => (first.laidOut level).append (forest_laidOut rest level)

end

/-! ## The outline of code -/

mutual

/-- The lines of a statement.  Each block of it has a header of its own. -/
def Stmt.outline : Stmt → List Outline
  | .tryFinally tried cleanup => [.headed tried.outline, .headed cleanup.outline]
  | .branch _ yes no => .headed (optionOutline yes) :: elseOutline no
  | .loop _ body => [.headed (optionOutline body)]
  | _ => [.plain]

/-- The lines of a block; those of a frame stand below a header. -/
def Block.outline : Block → List Outline
  | ⟨statements, none⟩ => stmtsOutline statements
  | ⟨statements, some _⟩ => [.headed (stmtsOutline statements)]

def stmtsOutline : List Stmt → List Outline
  | [] => []
  | first :: rest => first.outline ++ stmtsOutline rest

def optionOutline : Option Block → List Outline
  | none => []
  | some block => block.outline

/-- The second branch of a conditional has a header only when it is there. -/
def elseOutline : Option Block → List Outline
  | none => []
  | some block => [.headed block.outline]

end

/-- The lines of a body's code; a body that has none yet has a line that says so. -/
def Store.codeOutline (s : Store) (b : BodyId) : List Outline :=
  match (s.body b).code with
  | none => [.plain]
  | some code => Outline.listed code.outline

/-- The outline of a body: below its header stand the documentation string and the code. -/
def Store.outline (s : Store) (b : BodyId) : Outline :=
  .headed ((s.body b).doc.toList.map (fun _ => .plain) ++ s.codeOutline b)

/-! ## Lines and nodes -/

/-- A line of a listing stands for a node: it has its level, a header ends in a colon, and an empty
block reads `pass`. -/
structure Line.Stands (line : Line) (node : Node) : Prop where
  level : line.level = node.level
  header : node.mark = .header → line.text.toList.getLast? = some ':'
  pass : node.mark = .pass → line.text = "pass"

/-- Lines stand for nodes one by one. -/
abbrev LinesStand (lines : List Line) (nodes : List Node) : Prop :=
  List.Forall₂ Line.Stands lines nodes

theorem stands_plain (level : Nat) (text : String) : Line.Stands ⟨level, text⟩ ⟨level, .plain⟩ :=
  ⟨rfl, nofun, nofun⟩

theorem stands_pass (level : Nat) : Line.Stands ⟨level, "pass"⟩ ⟨level, .pass⟩ :=
  ⟨rfl, nofun, fun _ => rfl⟩

/-- The line of a header, with the lines of its block. -/
theorem linesStand_headed {level : Nat} {lines : List Line} {block : List Outline} (text : String)
    (hcolon : text.toList.getLast? = some ':')
    (h : LinesStand lines (forestPreorder (level + 1) (Outline.listed block))) :
    LinesStand (⟨level, text⟩ :: lines) ((Outline.headed block).preorder level) := by
  rw [Outline.preorder_headed]
  exact .cons ⟨rfl, fun _ => hcolon, nofun⟩ h

theorem LinesStand.append {front back : List Line} {frontNodes backNodes : List Node}
    (hfront : LinesStand front frontNodes) (hback : LinesStand back backNodes) :
    LinesStand (front ++ back) (frontNodes ++ backNodes) :=
  List.rel_append hfront hback

theorem getLast?_append_text (front : String) {back : String} {c : Char}
    (h : back.toList.getLast? = some c) : (front ++ back).toList.getLast? = some c := by
  rw [String.toList_append, List.getLast?_append, h]
  rfl

/-- The lines of the statements of a block. -/
def listedLines (s : Store) (level : Nat) : List Stmt → List Line
  | [] => [⟨level, "pass"⟩]
  | first :: rest => stmtLines s level (first :: rest)

theorem Block.lines_eq (s : Store) (level : Nat) (statements : List Stmt) :
    Block.lines s level ⟨statements, none⟩ = listedLines s level statements := by
  cases statements <;> rfl

theorem Block.lines_frame (s : Store) (level : Nat) (statements : List Stmt) (code : CodeObject) :
    Block.lines s level ⟨statements, some code⟩ =
      ⟨level, "frame " ++ code.name ++ ":"⟩ :: listedLines s (level + 1) statements := by
  cases statements <;> rfl

theorem Stmt.outline_ne_nil : ∀ statement : Stmt, statement.outline ≠ []
  | .assignVariable _ _ | .assignName _ _ | .expr _ | .ret _ | .retNone | .objectRet _
  | .objectRetNone | .raise _ | .release _ | .checkExhausted _ _ => List.cons_ne_nil _ _
  | .tryFinally _ _ => List.cons_ne_nil _ _
  | .branch _ _ _ => List.cons_ne_nil _ _
  | .loop _ _ => List.cons_ne_nil _ _

/-- Statements stand in their block as they are, and a block without any is a line. -/
theorem linesStand_listed {s : Store} {level : Nat} : ∀ {statements : List Stmt},
    LinesStand (stmtLines s level statements)
        (forestPreorder level (stmtsOutline statements)) →
      LinesStand (listedLines s level statements)
        (forestPreorder level (Outline.listed (stmtsOutline statements)))
  | [], _ => .cons (stands_pass level) .nil
  | first :: rest, h => by
    have hne : stmtsOutline (first :: rest) ≠ [] :=
      List.append_ne_nil_of_left_ne_nil first.outline_ne_nil _
    rw [Outline.listed_eq_self hne]
    exact h

mutual

theorem Stmt.lines_stand (s : Store) : ∀ (level : Nat) (statement : Stmt),
    LinesStand (statement.lines s level) (forestPreorder level statement.outline)
  | level, .assignVariable _ _ | level, .assignName _ _ | level, .expr _ | level, .ret _
  | level, .retNone | level, .objectRet _ | level, .objectRetNone | level, .raise none
  | level, .raise (some _) | level, .release _ | level, .checkExhausted _ _ =>
    .cons (stands_plain level _) .nil
  | level, .tryFinally tried cleanup => by
    have htried := linesStand_headed "try:" rfl (tried.lines_stand s (level + 1))
    have hcleanup := linesStand_headed "finally:" rfl (cleanup.lines_stand s (level + 1))
    rw [Stmt.lines, Stmt.outline, forestPreorder, forestPreorder_singleton]
    exact htried.append hcleanup
  | level, .branch condition yes no => by
    have hyes := linesStand_headed ("if " ++ condition.text s ++ ":")
      (getLast?_append_text _ rfl) (blockLines_stand s (level + 1) yes)
    rw [Stmt.lines, Stmt.outline, forestPreorder]
    exact hyes.append (elseLines_stand s level no)
  | level, .loop condition body => by
    have hbody := linesStand_headed ("while " ++ condition.text s ++ ":")
      (getLast?_append_text _ rfl) (blockLines_stand s (level + 1) body)
    rw [Stmt.lines, Stmt.outline, forestPreorder_singleton]
    exact hbody

/-- **The lines of a block stand for the nodes of its outline.** -/
theorem Block.lines_stand (s : Store) : ∀ (level : Nat) (block : Block),
    LinesStand (block.lines s level) (forestPreorder level (Outline.listed block.outline))
  | level, ⟨statements, none⟩ => by
    rw [Block.lines_eq]
    exact linesStand_listed (stmtLines_stand s level statements)
  | level, ⟨statements, some code⟩ => by
    have hframe := linesStand_headed ("frame " ++ code.name ++ ":")
      (getLast?_append_text _ rfl)
      (linesStand_listed (stmtLines_stand s (level + 1) statements))
    rw [Block.lines_frame, Block.outline, Outline.listed, forestPreorder_singleton]
    exact hframe

theorem stmtLines_stand (s : Store) : ∀ (level : Nat) (statements : List Stmt),
    LinesStand (stmtLines s level statements) (forestPreorder level (stmtsOutline statements))
  | _, [] => .nil
  | level, first :: rest => by
    rw [stmtLines, stmtsOutline, forestPreorder_append]
    exact (first.lines_stand s level).append (stmtLines_stand s level rest)

theorem blockLines_stand (s : Store) : ∀ (level : Nat) (block : Option Block),
    LinesStand (blockLines s level block)
      (forestPreorder level (Outline.listed (optionOutline block)))
  | level, none => .cons (stands_pass level) .nil
  | level, some block => block.lines_stand s level

theorem elseLines_stand (s : Store) : ∀ (level : Nat) (block : Option Block),
    LinesStand (elseLines s level block) (forestPreorder level (elseOutline block))
  | _, none => .nil
  | level, some block => by
    have hblock := linesStand_headed "else:" rfl (block.lines_stand s (level + 1))
    rw [elseLines, elseOutline, forestPreorder_singleton]
    exact hblock

end

namespace Store

variable (s : Store) (b : BodyId)

theorem codeOutline_ne_nil : s.codeOutline b ≠ [] := by
  unfold codeOutline
  cases (s.body b).code with
  | none => exact List.cons_ne_nil _ _
  | some code => exact Outline.listed_ne_nil _

theorem codeLines_stand : LinesStand (s.codeLines b) (forestPreorder 1 (s.codeOutline b)) := by
  unfold codeLines codeOutline
  cases (s.body b).code with
  | none => exact .cons (stands_plain 1 _) .nil
  | some code => exact code.lines_stand s 1

theorem docLines_stand :
    LinesStand (s.docLines b)
      (forestPreorder 1 ((s.body b).doc.toList.map fun _ => Outline.plain)) := by
  unfold docLines
  cases (s.body b).doc with
  | none => exact .nil
  | some doc => exact .cons (stands_plain 1 _) .nil

theorem getLast?_headerText : (s.headerText b).toList.getLast? = some ':' := by
  unfold headerText
  dsimp only
  split <;> exact getLast?_append_text _ rfl

/-- **The lines of a body stand for the nodes of its outline.** -/
theorem bodyLines_stand : LinesStand (s.bodyLines b) ((s.outline b).preorder 0) := by
  refine linesStand_headed _ (s.getLast?_headerText b) ?_
  rw [Outline.listed_eq_self (List.append_ne_nil_of_right_ne_nil _ (s.codeOutline_ne_nil b)),
    forestPreorder_append]
  exact (s.docLines_stand b).append (s.codeLines_stand b)

end Store

end DefinitionLowering.IR
