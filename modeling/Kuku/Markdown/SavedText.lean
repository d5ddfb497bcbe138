/-
# Markdown.SavedText -- saving a note keeps its text

`savedText` reads the text of a document in the order in which it is saved: document order,
except that the lists nested in a list item come behind the item's other blocks.  A text is
promised to be kept if no code mark stands behind another mark of the editor.

* `saved_keeps_text`: the mdast tree of a document of the editor's schema carries, in order,
  every visible character of `savedText`.
* `savedText_eq_text`: where no nested list stands before another block of its item and no
  code mark behind another mark, `savedText` is the text in document order.
-/
import Kuku.Markdown.Contents

namespace Kuku.Markdown

open Kuku.Theory List Option Mdast CoreEditor Kept
open PmToMdast (extractTextContent extractTextContents mergeList textNode trimTrailingSpace
  trimTrailingSpaces trimLeadingSpace trimLeadingSpaces trimAround applyMark stripTrailingSpaces
  stripLeadingSpaces)
open CoreEditor (coreRegistry)

/-! ## Documents of the editor's schema -/

namespace PMNode

def isInline : PMNode → Bool
  | text _ _ => true
  | node .hardBreak _ content => content.isEmpty
  | _ => false

def isText : PMNode → Bool
  | text _ _ => true
  | _ => false

mutual

def isBlock : PMNode → Bool
  | text _ _ => false
  | node type _ content =>
    match type with
    | .paragraph | .heading => content.all isInline
    | .codeBlock => content.all isText
    | .blockquote | .list => !content.isEmpty && allBlocks content
    | .table => !content.isEmpty && allRows content
    | .horizontalRule | .image => content.isEmpty
    | _ => false

def allBlocks : List PMNode → Bool
  | [] => true
  | block :: rest => isBlock block && allBlocks rest

def isRow : PMNode → Bool
  | node .tableRow _ content => allCells content
  | _ => false

def allRows : List PMNode → Bool
  | [] => true
  | row :: rest => isRow row && allRows rest

def isCell : PMNode → Bool
  | node .tableCell _ content => !content.isEmpty && allBlocks content
  | node .tableHeaderCell _ content => !content.isEmpty && allBlocks content
  | _ => false

def allCells : List PMNode → Bool
  | [] => true
  | cell :: rest => isCell cell && allCells rest

end

/-- A document of the schema. -/
def isDoc : PMNode → Bool
  | node .doc _ content => !content.isEmpty && allBlocks content
  | _ => false

end PMNode

open PMNode (isInline isText isBlock allBlocks isRow allRows isCell allCells isDoc)

/-! ## The text in the order in which it is saved -/

/-- The mark has a handler. -/
def isRegistered (mark : PMMark) : Bool := (coreRegistry.pmToMdast.mark.get mark.type).isSome

/-- No code mark stands behind another mark that has a handler. -/
def codeFirst (marks : List PMMark) : Bool :=
  (marks.filter isRegistered).tail.all fun mark => mark ≠ .code

mutual

def savedText : PMNode → Str
  | .text value marks => if codeFirst marks then value else []
  | .node type _ content =>
    match type with
    | .list => itemText content ++ nestedText content
    | .tableCell | .tableHeaderCell => cellText content
    | .codeBlock => extractTextContents content
    | _ => savedTexts content

def savedTexts : List PMNode → Str
  | [] => []
  | node :: rest => savedText node ++ savedTexts rest

/-- The blocks of a list item that are not lists. -/
def itemText : List PMNode → Str
  | [] => []
  | child :: rest => (if child.type = .list then [] else savedText child) ++ itemText rest

/-- The lists nested in a list item. -/
def nestedText : List PMNode → Str
  | [] => []
  | child :: rest => (if child.type = .list then savedText child else []) ++ nestedText rest

/-- What is not a paragraph is saved in a table cell as plain text. -/
def cellText : List PMNode → Str
  | [] => []
  | child :: rest =>
    (if child.type = .paragraph then savedText child else extractTextContent child) ++ cellText rest

end

/-- No nested list stands before another block of its item. -/
def listsLast (content : List PMNode) : Bool :=
  (content.dropWhile fun child => child.type ≠ .list).all fun child => child.type = .list

mutual

def inPlace : PMNode → Bool
  | .text _ marks => codeFirst marks
  | .node type _ content => (type ≠ .list || listsLast content) && allInPlace content

def allInPlace : List PMNode → Bool
  | [] => true
  | node :: rest => inPlace node && allInPlace rest

end

theorem itemText_append_nestedText {content : List PMNode} (last : listsLast content = true) :
    itemText content ++ nestedText content = savedTexts content := by
  have lists : ∀ nodes : List PMNode, nodes.all (fun child => child.type = .list) = true →
      itemText nodes = [] ∧ nestedText nodes = savedTexts nodes := by
    intro nodes
    induction nodes with
    | nil => exact fun _ => ⟨rfl, rfl⟩
    | cons child rest ih =>
      intro all
      rw [all_cons, Bool.and_eq_true] at all
      have isList : child.type = .list := of_decide_eq_true all.1
      obtain ⟨noItem, isNested⟩ := ih all.2
      simp [itemText, nestedText, savedTexts, isList, noItem, isNested]
  induction content with
  | nil => rfl
  | cons child rest ih =>
    by_cases isList : child.type = .list
    · have all : (child :: rest).all (fun child => child.type = .list) = true := by
        simpa [listsLast, isList] using last
      obtain ⟨noItem, isNested⟩ := lists _ all
      rw [noItem, isNested, nil_append]
    · have lastRest : listsLast rest = true := by
        simpa [listsLast, isList] using last
      rw [itemText, nestedText, if_neg isList, if_neg isList, savedTexts, nil_append,
        append_assoc, ih lastRest]

mutual

/-- **In place, the saved text is the text in document order.** -/
theorem savedText_eq_text : (node : PMNode) → inPlace node = true →
    savedText node = extractTextContent node
  | .text value marks, placed => by
    rw [inPlace] at placed
    rw [savedText, if_pos placed, extractTextContent_text]
  | .node type attrs content, placed => by
    rw [inPlace, Bool.and_eq_true] at placed
    obtain ⟨last, all⟩ := placed
    have same := savedTexts_eq_texts content all
    have cells := cellText_eq_texts content all
    rw [extractTextContent_node]
    cases type with
    | list =>
      have lists : listsLast content = true := by simpa using last
      rw [savedText, itemText_append_nestedText lists, same]
    | tableCell => rw [savedText, cells]
    | tableHeaderCell => rw [savedText, cells]
    | codeBlock => rw [savedText]
    | _ =>
      rw [savedText]
      · exact same
      all_goals exact fun isOther => nomatch isOther

theorem savedTexts_eq_texts : (nodes : List PMNode) → allInPlace nodes = true →
    savedTexts nodes = extractTextContents nodes
  | [], _ => rfl
  | node :: rest, placed => by
    rw [allInPlace, Bool.and_eq_true] at placed
    rw [savedTexts, extractTextContents, savedText_eq_text node placed.1,
      savedTexts_eq_texts rest placed.2]

theorem cellText_eq_texts : (nodes : List PMNode) → allInPlace nodes = true →
    cellText nodes = extractTextContents nodes
  | [], _ => rfl
  | node :: rest, placed => by
    rw [allInPlace, Bool.and_eq_true] at placed
    rw [cellText, extractTextContents, savedText_eq_text node placed.1,
      cellText_eq_texts rest placed.2]
    split <;> rfl

end

/-! ## Trimming around line breaks -/

theorem filter_stripTrailingSpaces (value : Str) :
    (stripTrailingSpaces value).filter isVisible = value.filter isVisible := by
  apply filter_rdropWhile
  intro c isBlank
  rw [of_decide_eq_true isBlank]
  rfl

theorem filter_stripLeadingSpaces (value : Str) :
    (stripLeadingSpaces value).filter isVisible = value.filter isVisible := by
  apply filter_dropWhile
  intro c isBlank
  rw [of_decide_eq_true isBlank]
  rfl

/-- Stripping the value of a text strips nothing visible. -/
theorem filter_ownText_map {strip : Str → Str}
    (harmless : ∀ value : Str, (strip value).filter isVisible = value.filter isVisible)
    (type : MdastType) (value : Option Str) :
    (Mdast.ownText type (value.map strip)).filter isVisible =
      (Mdast.ownText type value).filter isVisible := by
  unfold Mdast.ownText
  split
  · cases value with
    | none => rfl
    | some value => exact harmless value
  · rfl

mutual

theorem filter_trimTrailingSpace : (node : Mdast) →
    (trimTrailingSpace node).text.filter isVisible = node.text.filter isVisible
  | .mk type fields value children => by
    rw [trimTrailingSpace]
    split
    · rw [Mdast.text, Mdast.text, filter_append, filter_append,
        filter_ownText_map filter_stripTrailingSpaces]
    · rw [Mdast.text, Mdast.text, filter_append, filter_append, filter_trimTrailingSpaces children]

theorem filter_trimTrailingSpaces : (nodes : List Mdast) →
    (texts (trimTrailingSpaces nodes)).filter isVisible = (texts nodes).filter isVisible
  | [] => rfl
  | [last] => by
    rw [trimTrailingSpaces, texts_singleton, texts_singleton, filter_trimTrailingSpace last]
  | child :: next :: rest => by
    rw [trimTrailingSpaces, texts, texts, filter_append, filter_append,
      filter_trimTrailingSpaces (next :: rest)]

end

mutual

theorem filter_trimLeadingSpace : (node : Mdast) →
    (trimLeadingSpace node).text.filter isVisible = node.text.filter isVisible
  | .mk type fields value children => by
    rw [trimLeadingSpace]
    split
    · rw [Mdast.text, Mdast.text, filter_append, filter_append,
        filter_ownText_map filter_stripLeadingSpaces]
    · rw [Mdast.text, Mdast.text, filter_append, filter_append, filter_trimLeadingSpaces children]

theorem filter_trimLeadingSpaces : (nodes : List Mdast) →
    (texts (trimLeadingSpaces nodes)).filter isVisible = (texts nodes).filter isVisible
  | [] => rfl
  | first :: rest => by
    rw [trimLeadingSpaces, texts, texts, filter_append, filter_append,
      filter_trimLeadingSpace first]

end

theorem filter_modify {change : Mdast → Mdast}
    (harmless : ∀ node, (change node).text.filter isVisible = node.text.filter isVisible)
    (nodes : List Mdast) (i : Nat) :
    (texts (nodes.modify i change)).filter isVisible = (texts nodes).filter isVisible := by
  induction nodes generalizing i with
  | nil => simp
  | cons node rest ih =>
    cases i with
    | zero => simp [texts, harmless]
    | succ i => simp [texts, ih]

theorem filter_trimAround (nodes : List Mdast) (i : Nat) :
    (texts (trimAround nodes i)).filter isVisible = (texts nodes).filter isVisible := by
  unfold trimAround
  split
  · dsimp only
    rw [filter_modify filter_trimLeadingSpace]
    split
    · rw [filter_modify filter_trimTrailingSpace]
    · rfl
  · rfl

/-- The loop over the positions changes nothing visible. -/
theorem filter_foldl_trimAround (positions : List Nat) (nodes : List Mdast) :
    (texts (positions.foldl trimAround nodes)).filter isVisible =
      (texts nodes).filter isVisible := by
  induction positions generalizing nodes with
  | nil => rfl
  | cons i rest ih => rw [foldl_cons, ih, filter_trimAround]

/-! ## Merging lists -/

theorem texts_mergeList (result : List Mdast) (converted : Mdast) :
    texts (mergeList result converted) = texts result ++ converted.text := by
  unfold mergeList
  cases last : result.getLast? with
  | none => simp
  | some prev =>
    dsimp only
    split
    · rename_i joins
      simp only [Bool.and_eq_true, decide_eq_true_eq] at joins
      obtain ⟨⟨isList, prevIsList⟩, -⟩ := joins
      have shape : result = result.dropLast ++ [prev] := (dropLast_append_getLast? _ last).symm
      conv_rhs => rw [shape]
      obtain ⟨type, fields, value, children⟩ := converted
      obtain ⟨prevType, prevFields, prevValue, prevChildren⟩ := prev
      simp only [Mdast.type] at isList prevIsList
      subst isList prevIsList
      simp [Mdast.text, Mdast.children, Mdast.type, Mdast.value, Mdast.ownText, Mdast.carriesText]
    · simp

theorem texts_foldl_mergeList (nodes result : List Mdast) :
    texts (nodes.foldl mergeList result) = texts result ++ texts nodes := by
  induction nodes generalizing result with
  | nil => simp
  | cons node rest ih => rw [foldl_cons, ih, texts_mergeList, texts, append_assoc]

/-! ## Marks -/

theorem applyMark_unregistered {mark : PMMark} (unregistered : isRegistered mark = false)
    (inner : Mdast) : applyMark coreRegistry.pmToMdast.mark inner mark = inner := by
  rw [isRegistered, isSome_eq_false_iff, isNone_iff_eq_none] at unregistered
  rw [applyMark, unregistered]

theorem text_applyMark {mark : PMMark} (isOther : mark ≠ .code) (inner : Mdast) :
    (applyMark coreRegistry.pmToMdast.mark inner mark).text = inner.text := by
  cases mark with
  | code => exact absurd rfl isOther
  | other name attrs => rfl
  | _ =>
    refine Eq.trans (Mdast.text.eq_1 _ _ _ _) ?_
    simp [Mdast.ownText, Mdast.carriesText]

variable {marks : List PMMark}

theorem text_applyMarks (noCode : ∀ mark ∈ marks, mark ≠ .code) (inner : Mdast) :
    (marks.foldl (applyMark coreRegistry.pmToMdast.mark) inner).text = inner.text := by
  induction marks generalizing inner with
  | nil => rfl
  | cons mark rest ih =>
    rw [foldl_cons, ih fun other among => noCode other (mem_cons_of_mem _ among),
      text_applyMark (noCode mark mem_cons_self)]

/-- Only code itself is a code mark, and it is registered. -/
theorem ne_code_of_filter
    (noCode : (marks.filter isRegistered).all (fun mark => mark ≠ .code) = true) :
    ∀ mark ∈ marks, mark ≠ .code := by
  rintro mark among rfl
  have registered : PMMark.code ∈ marks.filter isRegistered := mem_filter.mpr ⟨among, rfl⟩
  exact absurd rfl (of_decide_eq_true (all_eq_true.mp noCode _ registered))

/-- **A text whose code mark comes first is kept under its marks.** -/
theorem text_of_codeFirst (first : codeFirst marks = true) (value : Str) :
    (marks.foldl (applyMark coreRegistry.pmToMdast.mark) (textNode value)).text = value := by
  have plain : (textNode value).text = value := by
    simp [textNode, literal, Mdast.text, Mdast.ownText, Mdast.carriesText]
  induction marks with
  | nil => exact plain
  | cons mark rest ih =>
    rw [foldl_cons]
    cases registered : isRegistered mark with
    | false =>
      rw [applyMark_unregistered registered]
      exact ih (by simpa [codeFirst, registered] using first)
    | true =>
      have noCode : ∀ mark ∈ rest, mark ≠ .code := by
        apply ne_code_of_filter
        simpa [codeFirst, registered] using first
      rw [text_applyMarks noCode]
      by_cases isCode : mark = .code
      · rw [isCode]
        exact (Mdast.text.eq_1 _ _ _ _).trans (append_nil _)
      · rw [text_applyMark isCode, plain]

/-! ## What a context keeps -/

section Heights

variable {nodes : List PMNode} {node : PMNode} {type : PMType} {attrs : PMAttrs}

theorem PMNode.height_le_heights (among : node ∈ nodes) : node.height ≤ PMNode.heights nodes := by
  induction nodes with
  | nil => cases among
  | cons first rest ih =>
    rw [PMNode.heights]
    rcases mem_cons.mp among with rfl | later
    · omega
    · have := ih later
      omega

theorem PMNode.height_node : (PMNode.node type attrs nodes).height = PMNode.heights nodes + 1 := rfl

theorem allBlocks_iff : allBlocks nodes = true ↔ ∀ node ∈ nodes, isBlock node = true := by
  induction nodes with
  | nil => simp [allBlocks]
  | cons node rest ih => simp [allBlocks, ih]

theorem allRows_iff : allRows nodes = true ↔ ∀ node ∈ nodes, isRow node = true := by
  induction nodes with
  | nil => simp [allRows]
  | cons node rest ih => simp [allRows, ih]

theorem allCells_iff : allCells nodes = true ↔ ∀ node ∈ nodes, isCell node = true := by
  induction nodes with
  | nil => simp [allCells]
  | cons node rest ih => simp [allCells, ih]

theorem savedTexts_eq : savedTexts nodes = nodes.flatMap savedText := by
  induction nodes with
  | nil => rfl
  | cons node rest ih => rw [savedTexts, ih, flatMap_cons]

end Heights

/-- The context keeps the text of the schema's nodes up to a height. -/
structure SavesText (depth : Nat) (ctx : PmToMdastContext) : Prop where
  doc : ∀ nodes, PMNode.heights nodes ≤ depth → (∀ node ∈ nodes, isBlock node = true) →
    Kept isVisible (savedTexts nodes) (texts (ctx.convertDocChildren nodes))
  block : ∀ node, node.height ≤ depth → isBlock node = true →
    Kept isVisible (savedText node) (texts (ctx.convertBlockNode node).toList)
  inlines : ∀ nodes, PMNode.heights nodes ≤ depth → (∀ node ∈ nodes, isInline node = true) →
    Kept isVisible (savedTexts nodes) (texts (ctx.convertInlineChildren nodes))
  extract : ctx.extractTextContent = extractTextContent

section Handlers

variable {depth : Nat} {ctx : PmToMdastContext} {attrs : PMAttrs} {content : List PMNode}

/-! ### Lists -/

/-- Items and the lists nested in them, by induction on the height. -/
theorem convertFlatListItem_keeps (saves : SavesText depth ctx) (bound : Nat) :
    ∀ (attrs : PMAttrs) (content : List PMNode), PMNode.heights content < bound →
      PMNode.heights content ≤ depth → allBlocks content = true →
        Kept isVisible (savedText (.node .list attrs content))
          (convertFlatListItem ctx (.node .list attrs content)).text := by
  induction bound with
  | zero => exact fun _ _ impossible => absurd impossible (Nat.not_lt_zero _)
  | succ bound ih =>
    intro attrs content isLow low blocks
    have parts : ∀ nodes : List PMNode, PMNode.heights nodes ≤ bound →
        PMNode.heights nodes ≤ depth → allBlocks nodes = true →
          Kept isVisible (itemText nodes) (texts (itemChildrenOf ctx nodes)) ∧
          Kept isVisible (nestedText nodes) (texts (nestedListsOf ctx nodes)) := by
      intro nodes
      induction nodes with
      | nil => exact fun _ _ _ => ⟨Kept.nil _, Kept.nil _⟩
      | cons child rest step =>
        intro below deep all
        rw [allBlocks, Bool.and_eq_true] at all
        rw [PMNode.heights] at below deep
        obtain ⟨items, nested⟩ := step (by omega) (by omega) all.2
        rw [itemText, nestedText, itemChildrenOf, nestedListsOf]
        by_cases isList : child.type = .list
        · rw [if_pos isList, if_pos isList, if_pos isList, if_pos isList, nil_append, texts]
          refine ⟨items, Kept.append ?_ nested⟩
          cases child with
          | text value marks => cases isList
          | node type childAttrs childContent =>
            obtain rfl : type = .list := isList
            rw [PMNode.height_node] at below deep
            have inner : allBlocks childContent = true := by
              have isBlocks := all.1
              simp only [isBlock, Bool.and_eq_true] at isBlocks
              exact isBlocks.2
            exact ih childAttrs childContent (by omega) (by omega) inner
        · rw [if_neg isList, if_neg isList, if_neg isList, if_neg isList, nil_append, texts_append]
          exact ⟨(saves.block child (by omega) all.1).append items, nested⟩
    obtain ⟨items, nested⟩ := parts content (by omega) low blocks
    have own : ∀ (fields : MdastFields) (children : List Mdast),
        (mk .list fields none children).text = texts children := by
      intro fields children
      rw [Mdast.text]
      rfl
    have itemOwn : ∀ (fields : MdastFields) (children : List Mdast),
        (mk .listItem fields none children).text = texts children := by
      intro fields children
      rw [Mdast.text]
      rfl
    rw [savedText, convertFlatListItem]
    rw [own, texts_singleton, listItemOf, itemOwn, texts_foldl_mergeList]
    refine Kept.append ?_ nested
    split
    · exact items
    · rename_i empty
      simp only [Bool.not_eq_true', isEmpty_eq_false_iff, ne_eq, not_not] at empty
      rw [empty] at items
      exact items

/-! ### Tables -/

/-- A cell keeps its paragraphs as inline content and everything else as plain text. -/
theorem convertPmTableCellChildren_keeps (saves : SavesText depth ctx) {cell : PMNode}
    (low : PMNode.heights cell.content ≤ depth) (blocks : allBlocks cell.content = true) :
    Kept isVisible (cellText cell.content) (texts (convertPmTableCellChildren cell ctx)) := by
  unfold convertPmTableCellChildren
  revert low blocks
  generalize cell.content = children
  induction children with
  | nil => exact fun _ _ => Kept.nil _
  | cons child rest ih =>
    intro low blocks
    rw [allBlocks, Bool.and_eq_true] at blocks
    rw [PMNode.heights] at low
    rw [cellText, flatMap_cons, texts_append]
    refine Kept.append ?_ (ih (by omega) blocks.2)
    by_cases isParagraph : child.type = .paragraph
    · rw [if_pos isParagraph, if_pos isParagraph]
      cases child with
      | text value marks => cases isParagraph
      | node type childAttrs childContent =>
        obtain rfl : type = .paragraph := isParagraph
        rw [PMNode.height_node] at low
        have inline : ∀ node ∈ childContent, isInline node = true := by
          have isBlocks := blocks.1
          rw [isBlock] at isBlocks
          exact all_eq_true.mp isBlocks
        have kept := saves.inlines childContent (by omega) inline
        simpa [savedText, PMNode.content] using kept
    · rw [if_neg isParagraph, if_neg isParagraph, saves.extract]
      dsimp only
      split
      · simp [textNode, literal, Mdast.text, Mdast.ownText, Mdast.carriesText, Kept.refl]
      · rename_i empty
        simp only [Bool.not_eq_true', isEmpty_eq_false_iff, ne_eq, not_not] at empty
        rw [empty]
        exact Kept.nil _

theorem convertPmTableRow_keeps (saves : SavesText depth ctx) {row : PMNode}
    (low : row.height ≤ depth) (isRowNode : isRow row = true) :
    Kept isVisible (savedText row) (convertPmTableRow row ctx).text := by
  cases row with
  | text value marks => cases isRowNode
  | node type rowAttrs cells =>
    have isType : type = .tableRow ∧ allCells cells = true := by
      cases type <;> simp_all [isRow]
    obtain ⟨rfl, all⟩ := isType
    rw [convertPmTableRow, text_parent rfl, savedText, savedTexts_eq, texts_eq, flatMap_map]
    · apply Kept.flatMap
      intro cell among
      have isCellNode := allCells_iff.mp all cell among
      have lowCell := PMNode.height_le_heights among
      rw [convertPmTableCell, text_parent rfl]
      rw [PMNode.height_node] at low
      have content : savedText cell = cellText cell.content ∧
          allBlocks cell.content = true ∧ PMNode.heights cell.content ≤ depth := by
        cases cell with
        | text value marks => cases isCellNode
        | node cellType cellAttrs blocks =>
          rw [PMNode.height_node] at lowCell
          cases cellType <;> simp_all [isCell, savedText, PMNode.content] <;> omega
      rw [content.1]
      exact convertPmTableCellChildren_keeps saves content.2.2 content.2.1
    all_goals exact fun isOther => nomatch isOther

/-! ### The other blocks -/

theorem text_literal {type : MdastType} (carries : Mdast.carriesText type = true)
    (fields : MdastFields) (value : Str) : (mk type fields (some value) []).text = value := by
  rw [Mdast.text, Mdast.ownText, if_pos carries]
  exact append_nil _

theorem codeBlockPmHandler_keeps (saves : SavesText depth ctx) :
    Kept isVisible (extractTextContents content)
      (texts (codeBlockPmHandler (.node .codeBlock attrs content) ctx).toList) := by
  have isValue : ctx.extractTextContent (.node .codeBlock attrs content) =
      extractTextContents content := by
    rw [saves.extract, extractTextContent_node]
  unfold codeBlockPmHandler
  dsimp only
  split
  · rw [toList_some, texts_singleton, literal, text_literal rfl, isValue]
    exact Kept.refl _
  · rw [toList_some, texts_singleton, text_literal rfl, isValue]
    exact Kept.refl _

/-- Every block of the schema is kept by its handler. -/
theorem convertBlockNode_keeps (saves : SavesText depth ctx) {node : PMNode}
    (low : node.height ≤ depth + 1) (block : isBlock node = true) :
    Kept isVisible (savedText node)
      (texts (PmToMdast.convertBlockNode coreRegistry ctx node).toList) := by
  cases node with
  | text value marks => cases block
  | node type attrs content =>
    rw [PMNode.height_node, Nat.add_le_add_iff_right] at low
    unfold PmToMdast.convertBlockNode
    cases type with
    | paragraph =>
      rw [isBlock] at block
      have kept := saves.inlines content low (all_eq_true.mp block)
      refine Kept.trans (of_eq ?_) (Kept.trans kept (of_eq ?_))
      · rw [savedText]
        all_goals exact fun isOther => nomatch isOther
      · exact congrArg _ ((texts_singleton _).trans (text_parent rfl _))
    | heading =>
      rw [isBlock] at block
      have kept := saves.inlines content low (all_eq_true.mp block)
      refine Kept.trans (of_eq ?_) (Kept.trans kept (of_eq ?_))
      · rw [savedText]
        all_goals exact fun isOther => nomatch isOther
      · refine congrArg _ ((texts_singleton _).trans ?_)
        rw [Mdast.text]
        rfl
    | codeBlock =>
      rw [savedText]
      exact codeBlockPmHandler_keeps saves
    | blockquote =>
      simp only [isBlock, Bool.and_eq_true] at block
      have kept := saves.doc content low (allBlocks_iff.mp block.2)
      refine Kept.trans (of_eq ?_) (Kept.trans kept (of_eq ?_))
      · rw [savedText]
        all_goals exact fun isOther => nomatch isOther
      · exact congrArg _ ((texts_singleton _).trans (text_parent rfl _))
    | list =>
      simp only [isBlock, Bool.and_eq_true] at block
      have kept := convertFlatListItem_keeps saves _ attrs content (Nat.lt_succ_self _) low block.2
      exact Kept.trans kept (of_eq (congrArg _ (texts_singleton _)))
    | table =>
      simp only [isBlock, Bool.and_eq_true] at block
      have rows := allRows_iff.mp block.2
      have isTable : tablePmHandler (.node .table attrs content) ctx =
          some (.parent .table (content.map fun row => convertPmTableRow row ctx)) :=
        if_neg (by simpa [PMNode.content] using block.1)
      have isRows : savedText (.node .table attrs content) = savedTexts content := by
        rw [savedText]
        all_goals exact fun isOther => nomatch isOther
      have handled : PmToMdast.convertBlockNode coreRegistry ctx (.node .table attrs content) =
          tablePmHandler (.node .table attrs content) ctx := rfl
      rw [isRows]
      refine Kept.trans ?_ (of_eq (congrArg (fun converted : Option Mdast =>
        (texts converted.toList).filter isVisible) (handled.trans isTable)))
      rw [toList_some, texts_singleton, text_parent rfl, savedTexts_eq, texts_eq, flatMap_map]
      apply Kept.flatMap
      intro row among
      exact convertPmTableRow_keeps saves
        (le_trans (PMNode.height_le_heights among) low) (rows row among)
    | horizontalRule =>
      rw [isBlock, List.isEmpty_iff] at block
      subst block
      rw [savedText]
      · exact Kept.nil _
      all_goals exact fun isOther => nomatch isOther
    | image =>
      rw [isBlock, List.isEmpty_iff] at block
      subst block
      rw [savedText]
      · exact Kept.nil _
      all_goals exact fun isOther => nomatch isOther
    | _ => cases block

/-- A text is converted under its marks, a hard break has no text. -/
theorem convertInlineNode_keeps {node : PMNode} (inline : isInline node = true) :
    Kept isVisible (savedText node)
      (texts (PmToMdast.convertInlineNode coreRegistry ctx node).toList) := by
  cases node with
  | text value marks =>
    have handled : PmToMdast.convertInlineNode coreRegistry ctx (.text value marks) =
        some (marks.foldl (applyMark coreRegistry.pmToMdast.mark) (textNode value)) := rfl
    rw [handled, toList_some, texts_singleton, savedText]
    split
    · rename_i first
      rw [text_of_codeFirst first]
      exact Kept.refl _
    · exact Kept.nil _
  | node type attrs content =>
    have isBreak : type = .hardBreak ∧ content = [] := by
      cases type <;> simp_all [isInline]
    obtain ⟨rfl, rfl⟩ := isBreak
    rw [savedText]
    · exact Kept.nil _
    all_goals exact fun isOther => nomatch isOther

end Handlers

/-! ## The engine keeps the text -/

theorem Mdast.texts_filterMap {convert : PMNode → Option Mdast} (nodes : List PMNode) :
    texts (nodes.filterMap convert) = nodes.flatMap fun node => texts (convert node).toList := by
  induction nodes with
  | nil => rfl
  | cons node rest ih =>
    rw [filterMap_cons, flatMap_cons]
    cases convert node <;> simp [texts, ih]

/-- The induction is on the depth: a context keeps the text if the one below it does. -/
theorem createContext_savesText (depth : Nat) :
    SavesText depth (PmToMdast.createContext coreRegistry depth) := by
  induction depth with
  | zero =>
    -- no node is that low
    have high : ∀ node : PMNode, 0 < node.height := by
      intro node
      cases node with
      | text value marks => exact Nat.one_pos
      | node type attrs content => exact Nat.succ_pos _
    have none_low : ∀ nodes : List PMNode, PMNode.heights nodes ≤ 0 → nodes = [] := by
      intro nodes low
      cases nodes with
      | nil => rfl
      | cons node rest =>
        have := high node
        rw [PMNode.heights] at low
        omega
    constructor
    · intro nodes low blocks
      rw [none_low nodes low]
      exact Kept.nil _
    · intro node low block
      have := high node
      omega
    · intro nodes low inline
      rw [none_low nodes low]
      exact Kept.nil _
    · rfl
  | succ depth ih =>
    constructor
    · intro nodes low blocks
      rw [PmToMdast.createContext]
      dsimp only
      rw [PmToMdast.convertDocChildren, texts_foldl_mergeList, texts_nil,
        nil_append, texts_filterMap, savedTexts_eq]
      apply Kept.flatMap
      intro node among
      exact convertBlockNode_keeps ih (le_trans (PMNode.height_le_heights among) low)
        (blocks node among)
    · intro node low block
      exact convertBlockNode_keeps ih low block
    · intro nodes low inline
      rw [PmToMdast.createContext]
      dsimp only
      rw [PmToMdast.convertInlineChildren]
      refine Kept.trans ?_ (of_eq (filter_foldl_trimAround _ _))
      rw [texts_filterMap, savedTexts_eq]
      apply Kept.flatMap
      intro node among
      exact convertInlineNode_keeps (inline node among)
    · rfl

/-- **Saving a document keeps every visible character of its text, in the saved order.** -/
theorem saved_keeps_text {doc : PMNode} (schema : isDoc doc = true) :
    Kept isVisible (savedTexts doc.content) (proseMirrorToMdast doc).text := by
  rw [proseMirrorToMdast, PmToMdast.proseMirrorToMdast, text_parent rfl]
  cases doc with
  | text value marks => cases schema
  | node type attrs content =>
    have blocks : allBlocks content = true := by
      cases type <;> simp_all [isDoc]
    exact (createContext_savesText _).doc content (Nat.le_succ _) (allBlocks_iff.mp blocks)

end Kuku.Markdown
