/-
# Markdown.OpenedText -- opening a note keeps its text

`textAt` reads the text of an mdast tree in document order, knowing where the converter reads
block content and where it reads inline content: the one text that is dropped is an HTML line
break tag among inline content, which becomes a hard break.

* `opened_keeps_text`: the document that the editor opens carries, in order, every visible
  character of `textAt`, for every well-formed tree.
* `textsAt_eq_texts`: without a line break tag, `textAt` is all of the text.
-/
import Kuku.Markdown.Contents

namespace Kuku.Markdown

open Kuku.Theory List Option CoreEditor
open PmToMdast (extractTextContent extractTextContents)
open MdastToPm (makeText paragraphOf hardBreak mergeText mergeAdjacentText convertMarkChildren
  startsBlock isBareParagraph)
open CoreEditor (coreRegistry isLineBreakTag joinLines)

/-! ## The text of a tree, as the converter reads it -/

namespace Mdast

/-- How the converter reads a node. -/
inductive Position where
  | block | inline | item | row | cell
  deriving DecidableEq

/-- Inline content stays inline.  Block content is inline below a paragraph, a heading and a
table cell, and below a type without a handler unless its first child has a block handler. -/
def childPosition (position : Position) (type : MdastType) (children : List Mdast) : Position :=
  match position with
  | .inline => .inline
  | .item => .block
  | .row => .cell
  | .cell => .inline
  | .block =>
    match type with
    | .paragraph | .heading => .inline
    | .blockquote => .block
    | .list => .item
    | .table => .row
    | _ => if startsBlock coreRegistry children then .block else .inline

/-- A line break tag among inline content is not text. -/
def ownTextAt (position : Position) (type : MdastType) (value : Option Str) : Str :=
  if position = .inline && type = .html && isLineBreakTag (value.getD []) then []
  else ownText type value

mutual

def textAt (position : Position) : Mdast → Str
  | mk type _ value children =>
    ownTextAt position type value ++ textsAt (childPosition position type children) children

def textsAt (position : Position) : List Mdast → Str
  | [] => []
  | node :: rest => textAt position node ++ textsAt position rest

end

/-! ## Well-formed trees -/

/-- The content that mdast allows: lists hold items, tables rows and rows cells, and literals
and void types hold nothing. -/
def fits (type : MdastType) (value : Option Str) (children : List Mdast) : Bool :=
  match type with
  | .list => children.all fun child => child.type = .listItem
  | .table => children.all fun child => child.type = .tableRow
  | .tableRow => children.all fun child => child.type = .tableCell
  | .text | .inlineCode | .code | .html => value.isSome && children.isEmpty
  | .thematicBreak | .break | .image => children.isEmpty
  | _ => true

mutual

def wellFormed : Mdast → Bool
  | mk type _ value children => fits type value children && allWellFormed children

def allWellFormed : List Mdast → Bool
  | [] => true
  | node :: rest => wellFormed node && allWellFormed rest

end

section Lists

variable {position : Position} {nodes children : List Mdast} {node : Mdast}

theorem textsAt_eq : textsAt position nodes = nodes.flatMap (textAt position) := by
  induction nodes with
  | nil => rfl
  | cons node rest ih => rw [textsAt, ih, flatMap_cons]

theorem textAt_eq : textAt position node =
    ownTextAt position node.type node.value ++
      textsAt (childPosition position node.type node.children) node.children := by
  cases node
  rfl

theorem height_eq : node.height = heights node.children + 1 := by
  cases node
  rfl

theorem height_le_heights (among : node ∈ nodes) : node.height ≤ heights nodes := by
  induction nodes with
  | nil => cases among
  | cons first rest ih =>
    rw [heights]
    rcases mem_cons.mp among with rfl | later
    · omega
    · have := ih later
      omega

theorem heights_le {bound : Nat} (each : ∀ node ∈ nodes, node.height ≤ bound) :
    heights nodes ≤ bound := by
  induction nodes with
  | nil => exact Nat.zero_le _
  | cons first rest ih =>
    have head := each first mem_cons_self
    have tail := ih fun node among => each node (mem_cons_of_mem _ among)
    rw [heights]
    omega

theorem allWellFormed_iff : allWellFormed nodes = true ↔ ∀ node ∈ nodes, node.wellFormed := by
  induction nodes with
  | nil => simp [allWellFormed]
  | cons node rest ih => simp [allWellFormed, ih]

theorem wellFormed_iff : node.wellFormed = true ↔
    fits node.type node.value node.children = true ∧ ∀ child ∈ node.children, child.wellFormed := by
  obtain ⟨type, fields, value, children⟩ := node
  rw [wellFormed, Bool.and_eq_true, allWellFormed_iff]
  rfl

end Lists

end Mdast

open Mdast

namespace Mdast

mutual

def hasLineBreakTag : Mdast → Bool
  | mk type _ value children =>
    (type = .html && isLineBreakTag (value.getD [])) || anyLineBreakTag children

def anyLineBreakTag : List Mdast → Bool
  | [] => false
  | node :: rest => hasLineBreakTag node || anyLineBreakTag rest

end

mutual

theorem textAt_eq_text (position : Position) : (node : Mdast) → hasLineBreakTag node = false →
    textAt position node = text node
  | mk type fields value children, noTag => by
    rw [hasLineBreakTag, Bool.or_eq_false_iff] at noTag
    rw [textAt, text, textsAt_eq_texts _ children noTag.2, ownTextAt, Bool.and_assoc, noTag.1,
      Bool.and_false]
    rfl

/-- **Without a line break tag, all of the text is read.** -/
theorem textsAt_eq_texts (position : Position) : (nodes : List Mdast) →
    anyLineBreakTag nodes = false → textsAt position nodes = texts nodes
  | [], _ => rfl
  | node :: rest, noTag => by
    rw [anyLineBreakTag, Bool.or_eq_false_iff] at noTag
    rw [textsAt, texts, textAt_eq_text position node noTag.1,
      textsAt_eq_texts position rest noTag.2]

end

end Mdast

/-! ## The helpers of the engine -/

section Helpers

variable {nodes : List PMNode} {node : PMNode}

@[simp] theorem extractTextContent_makeText (value : Str) (marks : List PMMark) :
    extractTextContent (makeText value marks) = value := by
  rw [makeText, extractTextContent_text]

@[simp] theorem extractTextContent_hardBreak : extractTextContent hardBreak = [] := rfl

@[simp] theorem extractTextContent_paragraphOf (content : List PMNode) :
    extractTextContent (paragraphOf content) = extractTextContents content :=
  extractTextContent_node _ _ _

theorem text_of_isBareParagraph (bare : isBareParagraph node = true) :
    extractTextContent node = [] := by
  cases node with
  | text value marks => simp [isBareParagraph, PMNode.type] at bare
  | node type attrs content =>
    simp only [isBareParagraph, PMNode.type, PMNode.content, Bool.and_eq_true,
      List.isEmpty_iff] at bare
    simp [bare.2]

theorem texts_of_all_isBareParagraph (bare : nodes.all isBareParagraph = true) :
    extractTextContents nodes = [] := by
  rw [extractTextContents_eq, flatMap_eq_nil_iff]
  intro node among
  exact text_of_isBareParagraph (all_eq_true.mp bare node among)

theorem extractTextContents_mergeText (result : List PMNode) (next : PMNode) :
    extractTextContents (mergeText result next) =
      extractTextContents result ++ extractTextContent next := by
  unfold mergeText
  split
  · rename_i text marks more otherMarks isLast
    have shape : result = result.dropLast ++ [.text text marks] :=
      (dropLast_append_getLast? _ isLast).symm
    split
    · conv_rhs => rw [shape]
      simp
    · simp
  · simp

@[simp] theorem extractTextContents_mergeAdjacentText (nodes : List PMNode) :
    extractTextContents (mergeAdjacentText nodes) = extractTextContents nodes := by
  have loop : ∀ (nodes result : List PMNode), extractTextContents (nodes.foldl mergeText result) =
      extractTextContents result ++ extractTextContents nodes := by
    intro nodes
    induction nodes with
    | nil => intro result; simp
    | cons next rest ih =>
      intro result
      rw [foldl_cons, ih, extractTextContents_mergeText, extractTextContents, append_assoc]
  rw [mergeAdjacentText, loop]
  rfl

end Helpers

/-! ## What a handler keeps -/

/-- The context keeps the text of well-formed nodes up to a height. -/
structure KeepsText (depth : Nat) (ctx : MdastToPmContext) : Prop where
  blocks : ∀ nodes, heights nodes ≤ depth → (∀ node ∈ nodes, node.wellFormed) →
    Kept isVisible (textsAt .block nodes) (extractTextContents (ctx.convertBlockChildren nodes))
  inlines : ∀ nodes, heights nodes ≤ depth → (∀ node ∈ nodes, node.wellFormed) →
    Kept isVisible (textsAt .inline nodes) (extractTextContents (ctx.convertInlineChildren nodes))
  inline : ∀ node marks, node.height ≤ depth → node.wellFormed →
    Kept isVisible (textAt .inline node) (extractTextContents (ctx.convertInline node marks))

/-- The handler keeps the text of a node of its type, given a context that keeps the text of
the node's children. -/
def BlockKeeps (type : MdastType) (handler : MdastToPmBlockHandler) : Prop :=
  ∀ depth ctx node, KeepsText depth ctx → node.type = type → heights node.children ≤ depth →
    node.wellFormed →
      Kept isVisible (textAt .block node) (extractTextContents ((handler node ctx).getD []))

def InlineKeeps (type : MdastType) (handler : MdastToPmInlineHandler) : Prop :=
  ∀ depth ctx node marks, KeepsText depth ctx → node.type = type →
    heights node.children ≤ depth → node.wellFormed →
      Kept isVisible (textAt .inline node) (extractTextContents (handler node marks ctx))

section Handlers

variable {depth : Nat} {ctx : MdastToPmContext} {node : Mdast}

/-- Converting the children one by one as inline content. -/
theorem KeepsText.each (keeps : KeepsText depth ctx) (low : heights node.children ≤ depth)
    (fit : node.wellFormed) (marks : List PMMark) :
    Kept isVisible (textsAt .inline node.children)
      (extractTextContents (node.children.flatMap fun child => ctx.convertInline child marks)) := by
  rw [textsAt_eq, extractTextContents_flatMap]
  apply Kept.flatMap
  intro child among
  exact keeps.inline child marks (le_trans (height_le_heights among) low)
    ((wellFormed_iff.mp fit).2 child among)

theorem KeepsText.blockChildren (keeps : KeepsText depth ctx)
    (low : heights node.children ≤ depth) (fit : node.wellFormed) :
    Kept isVisible (textsAt .block node.children)
      (extractTextContents (ctx.convertBlockChildren node.children)) :=
  keeps.blocks _ low (wellFormed_iff.mp fit).2

theorem KeepsText.inlineChildren (keeps : KeepsText depth ctx)
    (low : heights node.children ≤ depth) (fit : node.wellFormed) :
    Kept isVisible (textsAt .inline node.children)
      (extractTextContents (ctx.convertInlineChildren node.children)) :=
  keeps.inlines _ low (wellFormed_iff.mp fit).2

variable {position : Position}

theorem textAt_of_not_carriesText (silent : carriesText node.type = false) :
    textAt position node =
      textsAt (childPosition position node.type node.children) node.children := by
  have noText : ownTextAt position node.type node.value = [] := by
    rw [ownTextAt, ownText, silent]
    simp
  rw [textAt_eq, noText, nil_append]

theorem textsAt_nil : textsAt position [] = [] := rfl

/-- A node without children has its own text. -/
theorem textAt_of_leaf (leaf : node.children = []) :
    textAt position node = ownTextAt position node.type node.value := by
  rw [textAt_eq, leaf, textsAt_nil, append_nil]

end Handlers

/-! ## The handlers keep the text -/

/-- What is invisible may go: line breaks in an inline literal become spaces. -/
theorem filter_joinLines (value : Str) :
    (joinLines value).filter isVisible = value.filter isVisible := by
  unfold joinLines Chars.replaceChar
  induction value with
  | nil => rfl
  | cons c rest ih =>
    rw [flatMap_cons, filter_append, ih]
    split
    · rename_i isBreak
      rw [isBreak]
      rfl
    · simp [filter_cons]
      split <;> rfl

variable {type : MdastType}

theorem convertMarkChildren_keeps (mark : Mdast → PMMark) (silent : carriesText type = false) :
    InlineKeeps type fun node marks ctx => convertMarkChildren node marks (mark node) ctx := by
  intro depth ctx node marks keeps isType low fit
  rw [textAt_of_not_carriesText (isType ▸ silent)]
  exact keeps.each low fit (marks ++ [mark node])

variable {node : Mdast}

theorem literal_of_carriesText (fit : node.wellFormed) (carries : carriesText node.type = true) :
    node.children = [] ∧ ∃ value, node.value = some value := by
  have fitting := (wellFormed_iff.mp fit).1
  revert fitting carries
  cases node.type <;> simp [carriesText, fits, isSome_iff_exists, and_comm]

theorem kept_ownTextAt (position : Position) (type : MdastType) (value : Option Str) :
    Kept isVisible (ownTextAt position type value) (value.getD []) := by
  unfold ownTextAt ownText
  split
  · exact Kept.nil _
  · split
    · exact Kept.refl _
    · exact Kept.nil _

theorem kept_value {position : Position} {value : Str} (leaf : node.children = [])
    (isValue : node.value = some value) {content : List PMNode}
    (holds : value ≠ [] → extractTextContents content = value) :
    Kept isVisible (textAt position node) (extractTextContents content) := by
  rw [textAt_of_leaf leaf]
  have own := kept_ownTextAt position node.type node.value
  rw [isValue, getD_some] at own
  by_cases empty : value = []
  · rw [empty] at own
    rw [isValue, empty]
    exact own.trans (Kept.nil _)
  · rw [holds empty, isValue]
    exact own

variable {ctx : MdastToPmContext} {depth : Nat}

theorem fallbackInlineToPm_keeps (marks : List PMMark) (keeps : KeepsText depth ctx)
    (low : heights node.children ≤ depth) (fit : node.wellFormed) :
    Kept isVisible (textAt .inline node)
      (extractTextContents (MdastToPm.fallbackInlineToPm node marks ctx)) := by
  unfold MdastToPm.fallbackInlineToPm
  cases silent : carriesText node.type with
  | false =>
    rw [textAt_of_not_carriesText silent]
    split
    · exact keeps.each low fit marks
    · rename_i leaf
      simp only [Bool.not_eq_true', isEmpty_eq_false_iff, ne_eq, not_not] at leaf
      rw [leaf, textsAt_nil]
      exact Kept.nil _
  | true =>
    obtain ⟨leaf, value, isValue⟩ := literal_of_carriesText fit silent
    apply kept_value leaf isValue
    intro nonempty
    simp [leaf, isValue, nonempty]

/-- A type without a block handler is read by its first child. -/
theorem childPosition_of_unregistered {children : List Mdast}
    (unregistered : coreRegistry.mdastToPm.block.get type = none) :
    childPosition .block type children =
      if startsBlock coreRegistry children then .block else .inline := by
  cases type with
  | paragraph => cases unregistered
  | heading => cases unregistered
  | blockquote => cases unregistered
  | list => cases unregistered
  | table => cases unregistered
  | _ => rfl

theorem fallbackBlockToPm_keeps (unregistered : coreRegistry.mdastToPm.block.get node.type = none)
    (keeps : KeepsText depth ctx) (low : heights node.children ≤ depth) (fit : node.wellFormed) :
    Kept isVisible (textAt .block node)
      (extractTextContents ((MdastToPm.fallbackBlockToPm coreRegistry node ctx).getD [])) := by
  unfold MdastToPm.fallbackBlockToPm
  cases silent : carriesText node.type with
  | false =>
    rw [textAt_of_not_carriesText silent, childPosition_of_unregistered unregistered]
    by_cases leaf : node.children = []
    · rw [leaf, textsAt_nil]
      exact Kept.nil _
    · have filled : (!node.children.isEmpty) = true := by simpa using leaf
      rw [if_pos filled]
      cases isBlock : startsBlock coreRegistry node.children with
      | true =>
        have blocks := keeps.blockChildren low fit
        rw [if_pos rfl, if_pos rfl]
        dsimp only
        split
        · rename_i bare
          rw [Bool.and_eq_true] at bare
          rw [texts_of_all_isBareParagraph bare.2] at blocks
          exact blocks
        · exact blocks
      | false =>
        have inlines := keeps.inlineChildren low fit
        rw [if_neg Bool.false_ne_true, if_neg Bool.false_ne_true]
        dsimp only
        split
        · simpa using inlines
        · rename_i empty
          simp only [Bool.not_eq_true', isEmpty_eq_false_iff, ne_eq, not_not] at empty
          rw [empty] at inlines
          exact inlines
  | true =>
    obtain ⟨leaf, value, isValue⟩ := literal_of_carriesText fit silent
    apply kept_value leaf isValue
    intro nonempty
    simp [leaf, isValue, nonempty]

/-! ### Base handlers -/

theorem flushInline_keeps (keeps : KeepsText depth ctx) {inlineBuf : List Mdast}
    (low : heights inlineBuf ≤ depth) (fit : ∀ node ∈ inlineBuf, node.wellFormed) (before : Str)
    (result : List PMNode) (kept : Kept isVisible before (extractTextContents result)) :
    Kept isVisible (before ++ textsAt .inline inlineBuf)
      (extractTextContents (MdastToPm.flushInline ctx result inlineBuf)) := by
  have inlines := keeps.inlines inlineBuf low fit
  unfold MdastToPm.flushInline
  split
  · rename_i empty
    rw [List.isEmpty_iff.mp empty, textsAt_nil, append_nil]
    exact kept
  · dsimp only
    split
    · simpa using kept.append inlines
    · rename_i empty
      simp only [Bool.not_eq_true', isEmpty_eq_false_iff, ne_eq, not_not] at empty
      rw [empty] at inlines
      simpa using kept.append inlines

/-- The loop keeps what stands in the result, in the buffer and among the children to come. -/
theorem liftImages_keeps (keeps : KeepsText depth ctx) (children : List Mdast)
    (low : heights children ≤ depth) (fit : ∀ node ∈ children, node.wellFormed) (before : Str)
    (result : List PMNode) (kept : Kept isVisible before (extractTextContents result))
    (inlineBuf : List Mdast) (lowBuf : heights inlineBuf ≤ depth)
    (fitBuf : ∀ node ∈ inlineBuf, node.wellFormed) :
    Kept isVisible (before ++ textsAt .inline inlineBuf ++ textsAt .inline children)
      (extractTextContents (MdastToPm.liftImages ctx children result inlineBuf)) := by
  induction children generalizing before result inlineBuf with
  | nil =>
    rw [textsAt_nil, append_nil]
    exact flushInline_keeps keeps lowBuf fitBuf before result kept
  | cons child rest ih =>
    have lowRest : heights rest ≤ depth := by
      rw [heights] at low
      omega
    have lowChild : child.height ≤ depth := by
      rw [heights] at low
      omega
    have fitRest : ∀ node ∈ rest, node.wellFormed := fun node among =>
      fit node (mem_cons_of_mem _ among)
    have fitChild := fit child mem_cons_self
    rw [MdastToPm.liftImages]
    split
    · rename_i isImage
      -- an image has no children, so no text is lost with what is not the first node
      have noText : textAt .inline child = [] := by
        have leaf : child.children = [] := by
          have fitting := (wellFormed_iff.mp fitChild).1
          rw [isImage] at fitting
          exact List.isEmpty_iff.mp fitting
        rw [textAt_of_leaf leaf, isImage]
        rfl
      have flushed := flushInline_keeps keeps lowBuf fitBuf before result kept
      have step := ih lowRest fitRest (before ++ textsAt .inline inlineBuf)
        (MdastToPm.flushInline ctx result inlineBuf ++ (ctx.convertInline child []).take 1)
        (by
          rw [extractTextContents_append]
          simpa using flushed.append (Kept.nil (extractTextContents _))) []
        (Nat.zero_le _) (fun _ none => nomatch none)
      rw [textsAt, noText]
      simpa [textsAt_nil] using step
    · have step := ih lowRest fitRest before result kept (inlineBuf ++ [child])
        (heights_le fun node among => by
          rcases mem_append.mp among with buffered | isChild
          · exact le_trans (height_le_heights buffered) lowBuf
          · exact mem_singleton.mp isChild ▸ lowChild)
        (fun node among => by
          rcases mem_append.mp among with buffered | isChild
          · exact fitBuf node buffered
          · exact mem_singleton.mp isChild ▸ fitChild)
      simpa [textsAt_eq, append_assoc] using step

theorem paragraphHandler_keeps : BlockKeeps .paragraph MdastToPm.paragraphHandler := by
  intro depth ctx para keeps isType low fit
  have isInline : childPosition .block para.type para.children = .inline := by
    rw [isType]
    rfl
  rw [textAt_of_not_carriesText (isType ▸ rfl), isInline]
  unfold MdastToPm.paragraphHandler
  dsimp only
  split
  · simpa using keeps.inlineChildren low fit
  · have lifted := liftImages_keeps keeps para.children low (wellFormed_iff.mp fit).2 [] []
      (Kept.refl _) [] (Nat.zero_le _) (fun _ none => nomatch none)
    rw [getD_some]
    split
    · simpa [textsAt_nil] using lifted
    · rename_i empty
      simp only [Bool.not_eq_true', isEmpty_eq_false_iff, ne_eq, not_not] at empty
      rw [empty] at lifted
      simpa [textsAt_nil] using lifted

theorem textHandler_keeps : InlineKeeps .text MdastToPm.textHandler := by
  intro depth ctx text marks keeps isType low fit
  obtain ⟨leaf, value, isValue⟩ := literal_of_carriesText fit (isType ▸ rfl)
  have isText : textAt .inline text = value := by
    rw [textAt_of_leaf leaf, isType, isValue]
    rfl
  rw [isText]
  unfold MdastToPm.textHandler
  simp only [isValue, getD_some]
  split
  · simpa using Kept.refl value
  · apply Kept.of_eq
    have pieces : ∀ parts : List Str, extractTextContents (List.intercalate [hardBreak]
        (parts.map fun part => if !part.isEmpty then [makeText part marks] else [])) =
        parts.flatten := by
      intro parts
      induction parts with
      | nil => rfl
      | cons part rest ih =>
        have one : extractTextContents
            (if !part.isEmpty then [makeText part marks] else []) = part := by
          cases part <;> simp
        cases rest with
        | nil => simpa [List.intercalate] using one
        | cons next more =>
          rw [map_cons] at ih ⊢
          rw [map_cons, intercalate_cons_cons, extractTextContents_append,
            extractTextContents_append, one, ih]
          simp
    rw [pieces, List.splitOn, Kept.filter_splitOnP]
    intro c isBreak
    rw [beq_iff_eq.mp isBreak]
    rfl

/-- Void types hold no text, whatever their handlers make of them. -/
theorem textAt_of_void {position : Position} (fit : node.wellFormed)
    (isVoid : node.type = .thematicBreak ∨ node.type = .break ∨ node.type = .image) :
    textAt position node = [] := by
  have leaf : node.children = [] := by
    have fitting := (wellFormed_iff.mp fit).1
    rcases isVoid with isType | isType | isType <;>
    · rw [isType] at fitting
      exact List.isEmpty_iff.mp fitting
  rw [textAt_of_leaf leaf]
  rcases isVoid with isType | isType | isType <;>
  · rw [isType, ownTextAt, ownText]
    simp [carriesText]

theorem breakHandler_keeps : InlineKeeps .break MdastToPm.breakHandler := by
  intro depth ctx node marks keeps isType low fit
  rw [textAt_of_void fit (.inr (.inl isType))]
  exact Kept.nil _

/-! ### Handlers of the core editor -/

theorem headingMdastHandler_keeps : BlockKeeps .heading headingMdastHandler := by
  intro depth ctx heading keeps isType low fit
  have isInline : childPosition .block heading.type heading.children = .inline := by
    rw [isType]
    rfl
  rw [textAt_of_not_carriesText (isType ▸ rfl), isInline]
  simpa [headingMdastHandler] using keeps.inlineChildren low fit

theorem thematicBreakMdastHandler_keeps : BlockKeeps .thematicBreak thematicBreakMdastHandler := by
  intro depth ctx node keeps isType low fit
  rw [textAt_of_void fit (.inl isType)]
  exact Kept.nil _

theorem blockquoteMdastHandler_keeps : BlockKeeps .blockquote blockquoteMdastHandler := by
  intro depth ctx bq keeps isType low fit
  have isBlock : childPosition .block bq.type bq.children = .block := by
    rw [isType]
    rfl
  rw [textAt_of_not_carriesText (isType ▸ rfl), isBlock]
  simpa [blockquoteMdastHandler] using keeps.blockChildren low fit

theorem codeBlockMdastHandler_keeps : BlockKeeps .code codeBlockMdastHandler := by
  intro depth ctx code keeps isType low fit
  obtain ⟨leaf, value, isValue⟩ := literal_of_carriesText fit (isType ▸ rfl)
  apply kept_value leaf isValue
  intro nonempty
  simp [codeBlockMdastHandler, codeContent, isValue, nonempty]

theorem htmlBlockMdastHandler_keeps : BlockKeeps .html htmlBlockMdastHandler := by
  intro depth ctx html keeps isType low fit
  obtain ⟨leaf, value, isValue⟩ := literal_of_carriesText fit (isType ▸ rfl)
  apply kept_value leaf isValue
  intro nonempty
  simp [htmlBlockMdastHandler, isValue]

theorem inlineCodeMdastHandler_keeps : InlineKeeps .inlineCode inlineCodeMdastHandler := by
  intro depth ctx code marks keeps isType low fit
  obtain ⟨leaf, value, isValue⟩ := literal_of_carriesText fit (isType ▸ rfl)
  have isText : textAt .inline code = value := by
    rw [textAt_of_leaf leaf, isType, isValue]
    rfl
  rw [isText]
  apply Kept.of_eq
  simp [inlineCodeMdastHandler, isValue, filter_joinLines]

/-- The one text that is dropped is the one that `textAt` leaves out. -/
theorem htmlInlineMdastHandler_keeps : InlineKeeps .html htmlInlineMdastHandler := by
  intro depth ctx html marks keeps isType low fit
  obtain ⟨leaf, value, isValue⟩ := literal_of_carriesText fit (isType ▸ rfl)
  unfold htmlInlineMdastHandler
  rw [textAt_of_leaf leaf, isType, isValue, getD_some]
  dsimp only
  split
  · rename_i isTag
    simp [ownTextAt, isTag]
  · rename_i isOther
    apply Kept.of_eq
    simp [ownTextAt, isOther, ownText, carriesText, filter_joinLines]

theorem linkMdastHandler_keeps : InlineKeeps .link linkMdastHandler := by
  intro depth ctx link marks keeps isType low fit
  unfold linkMdastHandler
  split
  · rename_i leaf
    rw [textAt_of_not_carriesText (isType ▸ rfl), List.isEmpty_iff.mp leaf, textsAt_nil]
    exact Kept.nil _
  · exact convertMarkChildren_keeps linkMark rfl depth ctx link marks keeps isType low fit

theorem imageMdastHandler_keeps : InlineKeeps .image imageMdastHandler := by
  intro depth ctx img marks keeps isType low fit
  rw [textAt_of_void fit (.inr (.inr isType))]
  exact Kept.nil _

theorem tableMdastHandler_keeps : BlockKeeps .table tableMdastHandler := by
  intro depth ctx table keeps isType low fit
  have isRows : childPosition .block table.type table.children = .row := by
    rw [isType]
    rfl
  rw [textAt_of_not_carriesText (isType ▸ rfl), isRows]
  have fitting := (wellFormed_iff.mp fit).1
  rw [isType] at fitting
  have rows : ∀ row ∈ table.children, row.type = .tableRow := by
    intro row among
    exact of_decide_eq_true (all_eq_true.mp fitting row among)
  have each : ∀ (isHeader : Bool), ∀ row ∈ table.children, Kept isVisible (textAt .row row)
      (extractTextContent (convertTableRow row isHeader ctx)) := by
    intro isHeader row among
    have isRow := rows row among
    have fitRow := (wellFormed_iff.mp fit).2 row among
    have lowRow : row.height ≤ depth := le_trans (height_le_heights among) low
    have fittingRow := (wellFormed_iff.mp fitRow).1
    rw [isRow] at fittingRow
    rw [textAt_of_not_carriesText (isRow ▸ rfl), convertTableRow,
      extractTextContent_node, textsAt_eq, extractTextContents_eq, flatMap_map]
    apply Kept.flatMap
    intro cell isCellOf
    have isCell : cell.type = .tableCell :=
      of_decide_eq_true (all_eq_true.mp fittingRow cell isCellOf)
    have fitCell := (wellFormed_iff.mp fitRow).2 cell isCellOf
    have lowCell : heights cell.children ≤ depth := by
      have inRow := height_le_heights isCellOf
      rw [height_eq] at lowRow inRow
      omega
    rw [textAt_of_not_carriesText (isCell ▸ rfl)]
    simpa [convertTableCell, childPosition, extractTextContents]
      using keeps.inlineChildren lowCell fitCell
  unfold tableMdastHandler
  split
  · rename_i empty
    rw [List.isEmpty_iff.mp empty]
    exact Kept.nil _
  · rw [getD_some, extractTextContents_singleton, extractTextContent_node,
      textsAt_eq, extractTextContents_eq, mapIdx_eq_zipIdx_map, flatMap_map]
    have indexed : table.children.flatMap (textAt .row) =
        table.children.zipIdx.flatMap fun entry => textAt .row entry.1 := by
      conv_lhs => rw [← zipIdx_map_fst 0 table.children, flatMap_map]
    rw [indexed]
    apply Kept.flatMap
    intro entry among
    exact each _ entry.1 (fst_mem_of_mem_zipIdx among)

/-- Items, their children and the lists nested in them, by induction on the height. -/
theorem convertList_keeps (keeps : KeepsText depth ctx) (bound : Nat) :
    ∀ node : Mdast, node.height ≤ bound → node.type = .list →
      heights node.children ≤ depth → node.wellFormed →
        Kept isVisible (textAt .block node) (extractTextContents (convertList ctx node)) := by
  induction bound with
  | zero =>
    intro node isLow
    rw [height_eq] at isLow
    omega
  | succ bound ih =>
    intro node isLow isType low fit
    have children : ∀ nodes : List Mdast, heights nodes + 1 ≤ bound → heights nodes ≤ depth →
        (∀ child ∈ nodes, child.wellFormed) →
          Kept isVisible (textsAt .block nodes)
            (extractTextContents (convertItemChildren ctx nodes)) := by
      intro nodes
      induction nodes with
      | nil =>
        intro _ _ _
        exact Kept.nil _
      | cons child rest step =>
        intro below deep fits
        rw [heights] at below deep
        have fitChild := fits child mem_cons_self
        have one : Kept isVisible (textsAt .block [child])
            (extractTextContents (ctx.convertBlockChildren [child])) := by
          apply keeps.blocks
          · simp only [heights]
            omega
          · intro node among
            exact mem_singleton.mp among ▸ fitChild
        rw [textsAt, convertItemChildren, extractTextContents_append]
        refine Kept.append ?_ (step (by omega) (by omega) fun node among =>
          fits node (mem_cons_of_mem _ among))
        dsimp only
        split
        · rename_i isList
          rw [height_eq] at below deep
          exact ih child (by rw [height_eq]; omega) isList (by omega) fitChild
        · split
          · rename_i bare
            simp only [Bool.and_eq_true] at bare
            rw [texts_of_all_isBareParagraph bare.1.2] at one
            simpa [textsAt] using one
          · simpa [textsAt] using one
    have items : ∀ (nodes : List Mdast) (kind : ListKind) (order : Option Nat),
        heights nodes ≤ bound → heights nodes ≤ depth →
          (∀ item ∈ nodes, item.wellFormed ∧ item.type = .listItem) →
            Kept isVisible (textsAt .item nodes)
              (extractTextContents (convertListItems ctx kind order nodes)) := by
      intro nodes
      induction nodes with
      | nil =>
        intro _ _ _ _ _
        exact Kept.nil _
      | cons item rest step =>
        intro kind order below deep fits
        rw [heights, height_eq] at below deep
        obtain ⟨fitItem, isItem⟩ := fits item mem_cons_self
        have inner := children item.children (by omega) (by omega) (wellFormed_iff.mp fitItem).2
        rw [textsAt, convertListItems, extractTextContents]
        refine Kept.append ?_ (step kind (order.map Nat.succ) (by omega) (by omega)
          fun node among => fits node (mem_cons_of_mem _ among))
        rw [textAt_of_not_carriesText (isItem ▸ rfl)]
        obtain ⟨type, fields, value, itemChildren⟩ := item
        rw [convertListItem, extractTextContent_node]
        dsimp only [Mdast.children] at inner ⊢
        split
        · exact inner
        · rename_i empty
          simp only [Bool.not_eq_true', isEmpty_eq_false_iff, ne_eq, not_not] at empty
          rw [empty] at inner
          exact inner
    have fitting := (wellFormed_iff.mp fit).1
    rw [isType] at fitting
    have isItems : childPosition .block node.type node.children = .item := by
      rw [isType]
      rfl
    rw [textAt_of_not_carriesText (isType ▸ rfl), isItems]
    rw [height_eq] at isLow
    have all := (wellFormed_iff.mp fit).2
    obtain ⟨type, fields, value, nodes⟩ := node
    rw [convertList]
    exact items nodes _ _ (by simpa [Mdast.children] using isLow) low fun item among =>
      ⟨all item among, of_decide_eq_true (all_eq_true.mp fitting item among)⟩

theorem listMdastHandler_keeps : BlockKeeps .list listMdastHandler := by
  intro depth ctx node keeps isType low fit
  exact convertList_keeps keeps node.height node (le_refl _) isType low fit

/-! ## The engine keeps the text -/

theorem coreBlock_keeps {handler : MdastToPmBlockHandler}
    (registered : coreRegistry.mdastToPm.block.get type = some handler) :
    BlockKeeps type handler := by
  have among : (type, handler) ∈ coreRegistry.mdastToPm.block := Assoc.mem_of_get registered
  have entries : coreRegistry.mdastToPm.block =
      CoreEditor.editorCoreMarkdown.mdastToPm.block ++
        CoreEditor.createBaseRegistry.mdastToPm.block := rfl
  rw [entries] at among
  simp only [CoreEditor.editorCoreMarkdown, CoreEditor.createBaseRegistry, cons_append,
    nil_append, mem_cons, Prod.mk.injEq, not_mem_nil, or_false] at among
  rcases among with ⟨rfl, rfl⟩ | ⟨rfl, rfl⟩ | ⟨rfl, rfl⟩ | ⟨rfl, rfl⟩ | ⟨rfl, rfl⟩ | ⟨rfl, rfl⟩ |
    ⟨rfl, rfl⟩ | ⟨rfl, rfl⟩
  · exact headingMdastHandler_keeps
  · exact thematicBreakMdastHandler_keeps
  · exact blockquoteMdastHandler_keeps
  · exact codeBlockMdastHandler_keeps
  · exact htmlBlockMdastHandler_keeps
  · exact listMdastHandler_keeps
  · exact tableMdastHandler_keeps
  · exact paragraphHandler_keeps

theorem coreInline_keeps {handler : MdastToPmInlineHandler}
    (registered : coreRegistry.mdastToPm.inline.get type = some handler) :
    InlineKeeps type handler := by
  have among : (type, handler) ∈ coreRegistry.mdastToPm.inline := Assoc.mem_of_get registered
  have entries : coreRegistry.mdastToPm.inline =
      CoreEditor.editorCoreMarkdown.mdastToPm.inline ++
        CoreEditor.createBaseRegistry.mdastToPm.inline := rfl
  rw [entries] at among
  simp only [CoreEditor.editorCoreMarkdown, CoreEditor.createBaseRegistry, cons_append,
    nil_append, mem_cons, Prod.mk.injEq, not_mem_nil, or_false] at among
  rcases among with ⟨rfl, rfl⟩ | ⟨rfl, rfl⟩ | ⟨rfl, rfl⟩ | ⟨rfl, rfl⟩ | ⟨rfl, rfl⟩ | ⟨rfl, rfl⟩ |
    ⟨rfl, rfl⟩ | ⟨rfl, rfl⟩ | ⟨rfl, rfl⟩
  · exact convertMarkChildren_keeps (fun _ => .italic) rfl
  · exact convertMarkChildren_keeps (fun _ => .bold) rfl
  · exact inlineCodeMdastHandler_keeps
  · exact linkMdastHandler_keeps
  · exact imageMdastHandler_keeps
  · exact convertMarkChildren_keeps (fun _ => .strike) rfl
  · exact htmlInlineMdastHandler_keeps
  · exact textHandler_keeps
  · exact breakHandler_keeps

theorem convertBlock_keeps (keeps : KeepsText depth ctx) (low : heights node.children ≤ depth)
    (fit : node.wellFormed) :
    Kept isVisible (textAt .block node)
      (extractTextContents (MdastToPm.convertBlock coreRegistry ctx node)) := by
  unfold MdastToPm.convertBlock
  cases registered : coreRegistry.mdastToPm.block.get node.type with
  | some handler => exact coreBlock_keeps registered depth ctx node keeps rfl low fit
  | none => exact fallbackBlockToPm_keeps registered keeps low fit

theorem convertInline_keeps (keeps : KeepsText depth ctx) (marks : List PMMark)
    (low : heights node.children ≤ depth) (fit : node.wellFormed) :
    Kept isVisible (textAt .inline node)
      (extractTextContents (MdastToPm.convertInline coreRegistry ctx node marks)) := by
  unfold MdastToPm.convertInline
  cases registered : coreRegistry.mdastToPm.inline.get node.type with
  | some handler => exact coreInline_keeps registered depth ctx node marks keeps rfl low fit
  | none => exact fallbackInlineToPm_keeps marks keeps low fit

/-- The induction is on the depth: a context keeps the text if the one below it does. -/
theorem createContext_keepsText (depth : Nat) :
    KeepsText depth (MdastToPm.createContext coreRegistry depth) := by
  induction depth with
  | zero =>
    -- no node is that low
    have none_low : ∀ nodes : List Mdast, heights nodes ≤ 0 → nodes = [] := by
      intro nodes low
      cases nodes with
      | nil => rfl
      | cons node rest =>
        rw [heights, height_eq] at low
        omega
    constructor
    · intro nodes low fit
      rw [none_low nodes low]
      exact Kept.nil _
    · intro nodes low fit
      rw [none_low nodes low]
      exact Kept.nil _
    · intro node marks low fit
      rw [height_eq] at low
      omega
  | succ depth ih =>
    have below : ∀ {node : Mdast}, node.height ≤ depth + 1 → heights node.children ≤ depth := by
      intro node low
      rw [height_eq] at low
      omega
    constructor
    · intro nodes low fit
      have all : Kept isVisible (textsAt .block nodes) (extractTextContents
          (nodes.flatMap (MdastToPm.convertBlock coreRegistry
            (MdastToPm.createContext coreRegistry depth)))) := by
        rw [textsAt_eq, extractTextContents_flatMap]
        apply Kept.flatMap
        intro node among
        exact convertBlock_keeps ih (below (le_trans (height_le_heights among) low))
          (fit node among)
      rw [MdastToPm.createContext]
      dsimp only
      rw [MdastToPm.convertBlockChildren]
      split
      · exact all
      · rename_i empty
        simp only [Bool.not_eq_true', isEmpty_eq_false_iff, ne_eq, not_not] at empty
        rw [empty] at all
        exact all
    · intro nodes low fit
      rw [MdastToPm.createContext]
      dsimp only
      rw [MdastToPm.convertInlineChildren, extractTextContents_mergeAdjacentText, textsAt_eq,
        extractTextContents_flatMap]
      apply Kept.flatMap
      intro node among
      exact convertInline_keeps ih [] (below (le_trans (height_le_heights among) low))
        (fit node among)
    · intro node marks low fit
      exact convertInline_keeps ih marks (below low) fit

/-- **Opening a note keeps every visible character of its text, in order.** -/
theorem opened_keeps_text {tree : Mdast} (fit : tree.wellFormed) :
    Kept isVisible (textsAt .block tree.children)
      (extractTextContent (mdastToProseMirror tree)) := by
  rw [mdastToProseMirror, MdastToPm.mdastToProseMirror, extractTextContent_node]
  have low : heights tree.children ≤ tree.height := by
    rw [height_eq]
    omega
  exact (createContext_keepsText tree.height).blockChildren low fit

end Kuku.Markdown
