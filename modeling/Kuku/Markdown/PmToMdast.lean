/-
# Markdown.PmToMdast -- saving a note

The engine that turns a ProseMirror document into an mdast tree, the fallbacks for types
without a handler and the handlers of the base registry.  The context is built by recursion
on the depth, as in `Markdown.MdastToPm`.  The loops that change the list they walk over are
folds: the newest list of a run of lists takes in the next one, and a text that is a line
break trims the nodes on both sides of it.
-/
import Kuku.Markdown.Types

namespace Kuku.Markdown.PmToMdast

open Kuku.Theory

/-! ## Helpers for handlers -/

mutual

/-- Recursively extract plain text from a node. -/
def extractTextContent : PMNode → Str
  | .text text _ => text
  | .node _ _ content => extractTextContents content

def extractTextContents : List PMNode → Str
  | [] => []
  | node :: rest => extractTextContent node ++ extractTextContents rest

end

/-! ## Trimming around line breaks -/

def stripTrailingSpaces (value : Str) : Str := value.rdropWhile fun c => c = ' '

def stripLeadingSpaces (value : Str) : Str := value.dropWhile fun c => c = ' '

mutual

def trimTrailingSpace : Mdast → Mdast
  | .mk type fields value children =>
    if type = .text then .mk type fields (value.map stripTrailingSpaces) children
    else .mk type fields value (trimTrailingSpaces children)

/-- Only the last child is trimmed. -/
def trimTrailingSpaces : List Mdast → List Mdast
  | [] => []
  | [last] => [trimTrailingSpace last]
  | child :: next :: rest => child :: trimTrailingSpaces (next :: rest)

end

mutual

def trimLeadingSpace : Mdast → Mdast
  | .mk type fields value children =>
    if type = .text then .mk type fields (value.map stripLeadingSpaces) children
    else .mk type fields value (trimLeadingSpaces children)

/-- Only the first child is trimmed. -/
def trimLeadingSpaces : List Mdast → List Mdast
  | [] => []
  | first :: rest => trimLeadingSpace first :: rest

end

def isNewline (node : Mdast) : Bool := node.type = .text && node.value = some ['\n']

/-- One step of the loop over the positions of the converted children. -/
def trimAround (result : List Mdast) (i : Nat) : List Mdast :=
  if result[i]?.any isNewline then
    let result := if 0 < i then result.modify (i - 1) trimTrailingSpace else result
    result.modify (i + 1) trimLeadingSpace
  else result

/-! ## Fallbacks -/

def textNode (value : Str) : Mdast := .literal .text value

/-- `ctx.extractTextContent` does not depend on the registry. -/
def fallbackBlockToMdast : PmToMdastBlockHandler := fun node ctx =>
  let text := ctx.extractTextContent node
  if !text.isEmpty then some (.parent .paragraph [textNode text]) else none

def hintKeys : List Str :=
  ["label".toList, "alt".toList, "title".toList, "name".toList, "value".toList, "text".toList]

def stringAttrs (attrs : PMAttrs) : Assoc Str Str :=
  (attrs.language.map fun value => ("language".toList, value)).toList ++
    (attrs.src.map fun value => ("src".toList, value)).toList ++
    (attrs.alt.map fun value => ("alt".toList, value)).toList ++ attrs.other

def fallbackInlineToMdast : PmToMdastInlineHandler := fun node ctx =>
  let text := ctx.extractTextContent node
  if !text.isEmpty then some (textNode text)
  else
    let strings := (stringAttrs node.attrs).filter fun attr => !attr.2.isEmpty
    match hintKeys.findSome? (Assoc.get strings) with
    | some value => some (textNode value)
    | none => strings.head?.map fun attr => textNode attr.2

/-! ## The engine -/

/-- One step of the loop of `convertDocChildren`: a list joins the list before it. -/
def mergeList (result : List Mdast) (converted : Mdast) : List Mdast :=
  match result.getLast? with
  | some prev =>
    if converted.type = .list && prev.type = .list &&
        prev.fields.ordered = converted.fields.ordered then
      result.dropLast ++
        [.mk prev.type prev.fields prev.value (prev.children ++ converted.children)]
    else result ++ [converted]
  | none => result ++ [converted]

section Engine

variable (registry : ConversionRegistry)

def convertBlockNode (ctx : PmToMdastContext) (node : PMNode) : Option Mdast :=
  match registry.pmToMdast.block.get node.type with
  | some handler => handler node ctx
  | none => fallbackBlockToMdast node ctx

def convertDocChildren (ctx : PmToMdastContext) (nodes : List PMNode) : List Mdast :=
  (nodes.filterMap (convertBlockNode registry ctx)).foldl mergeList []

def convertInlineNode (ctx : PmToMdastContext) (node : PMNode) : Option Mdast :=
  match registry.pmToMdast.inline.get node.type with
  | some handler => handler node ctx
  | none => fallbackInlineToMdast node ctx

def convertInlineChildren (ctx : PmToMdastContext) (nodes : List PMNode) : List Mdast :=
  let result := nodes.filterMap (convertInlineNode registry ctx)
  (List.range result.length).foldl trimAround result

/-- The context for nodes of at most the given height.  There is no node of height zero. -/
def createContext : Nat → PmToMdastContext
  | 0 =>
    { convertDocChildren := fun _ => []
      convertBlockNode := fun _ => none
      convertInlineChildren := fun _ => []
      convertInlineNode := fun _ => none
      extractTextContent }
  | depth + 1 =>
    let ctx := createContext depth
    { convertDocChildren := convertDocChildren registry ctx
      convertBlockNode := convertBlockNode registry ctx
      convertInlineChildren := convertInlineChildren registry ctx
      convertInlineNode := convertInlineNode registry ctx
      extractTextContent }

def proseMirrorToMdast (json : PMNode) : Mdast :=
  .parent .root ((createContext registry json.height).convertDocChildren json.content)

end Engine

/-! ## Base handlers -/

def paragraphHandler : PmToMdastBlockHandler := fun node ctx =>
  some (.parent .paragraph (ctx.convertInlineChildren node.content))

def textInlineHandler : PmToMdastInlineHandler := fun node _ =>
  some (textNode node.textOrEmpty)

def hardBreakInlineHandler : PmToMdastInlineHandler := fun _ _ => some (.parent .break [])

/-- One step of the loop over the marks of a text. -/
def applyMark (markHandlers : Assoc PMMarkType PmToMdastMarkHandler) (result : Mdast)
    (mark : PMMark) : Mdast :=
  match markHandlers.get mark.type with
  | some handler => handler mark result
  | none => result

def createTextInlineHandler (markHandlers : Assoc PMMarkType PmToMdastMarkHandler) :
    PmToMdastInlineHandler := fun node _ =>
  some (node.marks.foldl (applyMark markHandlers) (textNode node.textOrEmpty))

end Kuku.Markdown.PmToMdast
