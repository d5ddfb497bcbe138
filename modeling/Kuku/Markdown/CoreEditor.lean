/-
# Markdown.CoreEditor -- the handlers of the core editor

The handlers for the CommonMark and GFM types in both directions, and the registry that the
builder assembles of them and the base handlers.
-/
import Kuku.Markdown.MdastToPm
import Kuku.Markdown.PmToMdast

namespace Kuku.Markdown.CoreEditor

open Kuku.Theory
open MdastToPm (convertMarkChildren makeText paragraphOf hardBreak isBareParagraph)

/-! ## mdast to ProseMirror -/

def headingMdastHandler : MdastToPmBlockHandler := fun heading ctx =>
  some [.node .heading { level := heading.fields.depth }
    (ctx.convertInlineChildren heading.children)]

def emphasisMdastHandler : MdastToPmInlineHandler := fun node marks ctx =>
  convertMarkChildren node marks .italic ctx

def strongMdastHandler : MdastToPmInlineHandler := fun node marks ctx =>
  convertMarkChildren node marks .bold ctx

def deleteMdastHandler : MdastToPmInlineHandler := fun node marks ctx =>
  convertMarkChildren node marks .strike ctx

/-- `value.replace(/\n/g, " ")`. -/
def joinLines (value : Str) : Str := Chars.replaceChar '\n' [' '] value

def inlineCodeMdastHandler : MdastToPmInlineHandler := fun code marks _ =>
  [makeText (joinLines (code.value.getD [])) (marks ++ [.code])]

def thematicBreakMdastHandler : MdastToPmBlockHandler := fun _ _ =>
  some [.node .horizontalRule {} []]

def blockquoteMdastHandler : MdastToPmBlockHandler := fun bq ctx =>
  some [.node .blockquote {} (ctx.convertBlockChildren bq.children)]

/-- The content of a code block: no text node for an empty text. -/
def codeContent (value : Str) : List PMNode :=
  if !value.isEmpty then [.text value []] else []

def codeBlockMdastHandler : MdastToPmBlockHandler := fun code _ =>
  some [.node .codeBlock { language := some (code.fields.lang.getD []) }
    (codeContent (code.value.getD []))]

def linkMark (link : Mdast) : PMMark :=
  .link (some link.fields.url) (link.fields.title.filter fun title => !title.isEmpty)

def linkMdastHandler : MdastToPmInlineHandler := fun link marks ctx =>
  if link.children.isEmpty then [makeText link.fields.url (marks ++ [linkMark link])]
  else convertMarkChildren link marks (linkMark link) ctx

def imageMdastHandler : MdastToPmInlineHandler := fun img _ _ =>
  [.node .image { src := some img.fields.url, alt := img.fields.alt } []]

def convertTableCell (cell : Mdast) (isHeader : Bool) (ctx : MdastToPmContext) : PMNode :=
  .node (if isHeader then .tableHeaderCell else .tableCell) {}
    [paragraphOf (ctx.convertInlineChildren cell.children)]

def convertTableRow (row : Mdast) (isHeader : Bool) (ctx : MdastToPmContext) : PMNode :=
  .node .tableRow {} (row.children.map fun cell => convertTableCell cell isHeader ctx)

def tableMdastHandler : MdastToPmBlockHandler := fun table ctx =>
  if table.children.isEmpty then none
  else some [.node .table {}
    (table.children.mapIdx fun index row => convertTableRow row (index == 0) ctx)]

def htmlBlockMdastHandler : MdastToPmBlockHandler := fun html _ =>
  some [.node .codeBlock { language := some "html".toList } [.text (html.value.getD []) []]]

/-- `/^<br\s*\/?>$/` on the trimmed value in lower case.  No other character has `b` or `r`
as its lower case. -/
def isLineBreakTag (value : Str) : Bool :=
  match (trim value).map Text.asciiLowerChar with
  | '<' :: 'b' :: 'r' :: rest =>
    let rest := rest.dropWhile isSpace
    rest = ['>'] || rest = ['/', '>']
  | _ => false

def htmlInlineMdastHandler : MdastToPmInlineHandler := fun html marks _ =>
  let value := html.value.getD []
  if isLineBreakTag value then [hardBreak] else [makeText (joinLines value) marks]

mutual

/-- `listMdastHandler`. -/
def convertList (ctx : MdastToPmContext) : Mdast → List PMNode
  | .mk _ fields _ items =>
    convertListItems ctx (if fields.ordered then .ordered else .bullet)
      (if fields.ordered then some (fields.start.getD 1) else none) items

/-- The items from the given number on. -/
def convertListItems (ctx : MdastToPmContext) (kind : ListKind) (order : Option Nat) :
    List Mdast → List PMNode
  | [] => []
  | item :: rest =>
    convertListItem ctx kind order item :: convertListItems ctx kind (order.map Nat.succ) rest

def convertListItem (ctx : MdastToPmContext) (parentKind : ListKind) (order : Option Nat) :
    Mdast → PMNode
  | .mk _ fields _ children =>
    let content := convertItemChildren ctx children
    .node .list
      { kind := some (if fields.checked.isSome then .task else parentKind)
        order
        checked := fields.checked }
      (if !content.isEmpty then content else [paragraphOf []])

def convertItemChildren (ctx : MdastToPmContext) : List Mdast → List PMNode
  | [] => []
  | child :: rest =>
    let content :=
      if child.type = .list then convertList ctx child
      else
        let result := ctx.convertBlockChildren [child]
        -- skip an empty fallback paragraph
        if result.length = 1 && result.all isBareParagraph && child.type ≠ .paragraph then []
        else result
    content ++ convertItemChildren ctx rest

end

def listMdastHandler : MdastToPmBlockHandler := fun node ctx => some (convertList ctx node)

/-! ## ProseMirror to mdast -/

def headingPmHandler : PmToMdastBlockHandler := fun node ctx =>
  some (.mk .heading { depth := some (node.attrs.level.getD 1) } none
    (ctx.convertInlineChildren node.content))

def boldMarkHandler : PmToMdastMarkHandler := fun _ inner => .parent .strong [inner]

def italicMarkHandler : PmToMdastMarkHandler := fun _ inner => .parent .emphasis [inner]

def strikeMarkPmHandler : PmToMdastMarkHandler := fun _ inner => .parent .delete [inner]

def codeMarkHandler : PmToMdastMarkHandler := fun _ inner =>
  .literal .inlineCode (if inner.type = .text then inner.value.getD [] else [])

def linkMarkPmHandler : PmToMdastMarkHandler := fun mark inner =>
  match mark with
  | .link href title => .mk .link { url := href.getD [], title } none [inner]
  | _ => .mk .link {} none [inner]

def horizontalRulePmHandler : PmToMdastBlockHandler := fun _ _ => some (.parent .thematicBreak [])

def blockquotePmHandler : PmToMdastBlockHandler := fun node ctx =>
  some (.parent .blockquote (ctx.convertDocChildren node.content))

def codeBlockPmHandler : PmToMdastBlockHandler := fun node ctx =>
  let language := node.attrs.language.getD []
  let value := ctx.extractTextContent node
  if language = "html".toList then some (.literal .html value)
  else some (.mk .code { lang := if !language.isEmpty then some language else none } (some value) [])

def imageOf (node : PMNode) : Mdast :=
  .mk .image { url := node.attrs.src.getD [], alt := node.attrs.alt } none []

def imagePmBlockHandler : PmToMdastBlockHandler := fun node _ =>
  some (.parent .paragraph [imageOf node])

def imagePmInlineHandler : PmToMdastInlineHandler := fun node _ => some (imageOf node)

def convertPmTableCellChildren (cell : PMNode) (ctx : PmToMdastContext) : List Mdast :=
  cell.content.flatMap fun child =>
    if child.type = .paragraph then ctx.convertInlineChildren child.content
    else
      let text := ctx.extractTextContent child
      if !text.isEmpty then [PmToMdast.textNode text] else []

def convertPmTableCell (cell : PMNode) (ctx : PmToMdastContext) : Mdast :=
  .parent .tableCell (convertPmTableCellChildren cell ctx)

def convertPmTableRow (row : PMNode) (ctx : PmToMdastContext) : Mdast :=
  .parent .tableRow (row.content.map fun cell => convertPmTableCell cell ctx)

def tablePmHandler : PmToMdastBlockHandler := fun node ctx =>
  if node.content.isEmpty then none
  else some (.parent .table (node.content.map fun row => convertPmTableRow row ctx))

/-- The item of a flat list node: its blocks, then its nested lists, each of which joins a
list of the same kind that it comes to stand behind. -/
def listItemOf (checked : Option Bool) (itemChildren nestedLists : List Mdast) : Mdast :=
  let children := if !itemChildren.isEmpty then itemChildren else [.parent .paragraph []]
  .mk .listItem { checked } none (nestedLists.foldl PmToMdast.mergeList children)

mutual

def convertFlatListItem (ctx : PmToMdastContext) : PMNode → Mdast
  | .text _ _ => .mk .list {} none [listItemOf none [] []]
  | .node _ attrs content =>
    let ordered := attrs.kind = some .ordered
    let checked := if attrs.kind = some .task then some (attrs.checked.getD false) else none
    .mk .list { ordered, start := if ordered then attrs.order else none } none
      [listItemOf checked (itemChildrenOf ctx content) (nestedListsOf ctx content)]

def itemChildrenOf (ctx : PmToMdastContext) : List PMNode → List Mdast
  | [] => []
  | child :: rest =>
    if child.type = .list then itemChildrenOf ctx rest
    else (ctx.convertBlockNode child).toList ++ itemChildrenOf ctx rest

def nestedListsOf (ctx : PmToMdastContext) : List PMNode → List Mdast
  | [] => []
  | child :: rest =>
    if child.type = .list then convertFlatListItem ctx child :: nestedListsOf ctx rest
    else nestedListsOf ctx rest

end

def listPmHandler : PmToMdastBlockHandler := fun node ctx => some (convertFlatListItem ctx node)

/-! ## The registry -/

def createBaseRegistry : ConversionRegistry where
  mdastToPm :=
    { block := [(.paragraph, MdastToPm.paragraphHandler)]
      inline := [(.text, MdastToPm.textHandler), (.break, MdastToPm.breakHandler)] }
  pmToMdast :=
    { block := [(.paragraph, PmToMdast.paragraphHandler)]
      inline :=
        [(.text, PmToMdast.textInlineHandler), (.hardBreak, PmToMdast.hardBreakInlineHandler)] }

def editorCoreMarkdown : ConversionRegistry where
  mdastToPm :=
    { block :=
        [(.heading, headingMdastHandler), (.thematicBreak, thematicBreakMdastHandler),
          (.blockquote, blockquoteMdastHandler), (.code, codeBlockMdastHandler),
          (.html, htmlBlockMdastHandler), (.list, listMdastHandler),
          (.table, tableMdastHandler)]
      inline :=
        [(.emphasis, emphasisMdastHandler), (.strong, strongMdastHandler),
          (.inlineCode, inlineCodeMdastHandler), (.link, linkMdastHandler),
          (.image, imageMdastHandler), (.delete, deleteMdastHandler),
          (.html, htmlInlineMdastHandler)] }
  pmToMdast :=
    { block :=
        [(.heading, headingPmHandler), (.horizontalRule, horizontalRulePmHandler),
          (.blockquote, blockquotePmHandler), (.codeBlock, codeBlockPmHandler),
          (.image, imagePmBlockHandler), (.list, listPmHandler), (.table, tablePmHandler)]
      inline := [(.image, imagePmInlineHandler)]
      mark :=
        [(.bold, boldMarkHandler), (.italic, italicMarkHandler), (.code, codeMarkHandler),
          (.link, linkMarkPmHandler), (.strike, strikeMarkPmHandler)] }

/-- `RegistryBuilder.build`: with mark handlers, the handler of texts applies them. -/
def build (registry : ConversionRegistry) : ConversionRegistry :=
  if !registry.pmToMdast.mark.isEmpty then
    { registry with
      pmToMdast :=
        { registry.pmToMdast with
          inline := registry.pmToMdast.inline.set .text
            (PmToMdast.createTextInlineHandler registry.pmToMdast.mark) } }
  else registry

def coreRegistry : ConversionRegistry :=
  build (mergeRegistries createBaseRegistry editorCoreMarkdown)

def mdastToProseMirror (tree : Mdast) : PMNode := MdastToPm.mdastToProseMirror coreRegistry tree

def proseMirrorToMdast (doc : PMNode) : Mdast := PmToMdast.proseMirrorToMdast coreRegistry doc

end Kuku.Markdown.CoreEditor
