/-
# Markdown.MdastToPm -- opening a note

The engine that turns an mdast tree into a ProseMirror document, the fallbacks for types
without a handler and the handlers of the base registry.  The context of the engine calls
itself for the children of a node; here it is built by recursion on the depth to which it is
asked to convert, and a tree is converted with a context as deep as the tree.
-/
import Kuku.Markdown.Types

namespace Kuku.Markdown.MdastToPm

open Kuku.Theory

/-! ## Helpers for handlers -/

/-- A paragraph without content is one whose `content` is absent. -/
def paragraphOf (content : List PMNode) : PMNode := .node .paragraph {} content

def hardBreak : PMNode := .node .hardBreak {} []

def normalizeMarks (marks : List PMMark) : List PMMark :=
  if marks.length < 2 then marks
  else marks.foldl (fun result mark => if mark ∈ result then result else result ++ [mark]) []

def makeText (value : Str) (marks : List PMMark) : PMNode := .text value (normalizeMarks marks)

/-- Accumulate a mark and recurse into children. -/
def convertMarkChildren (node : Mdast) (parentMarks : List PMMark) (mark : PMMark)
    (ctx : MdastToPmContext) : List PMNode :=
  let newMarks := parentMarks ++ [mark]
  node.children.flatMap fun child => ctx.convertInline child newMarks

/-- One step of the loop of `mergeAdjacentText`. -/
def mergeText (result : List PMNode) (next : PMNode) : List PMNode :=
  match result.getLast?, next with
  | some (.text text marks), .text more otherMarks =>
    if marks = otherMarks then result.dropLast ++ [.text (text ++ more) marks]
    else result ++ [next]
  | _, _ => result ++ [next]

def mergeAdjacentText (nodes : List PMNode) : List PMNode := nodes.foldl mergeText []

/-! ## Fallbacks -/

/-- The type of the first child has a block handler. -/
def startsBlock (registry : ConversionRegistry) (children : List Mdast) : Bool :=
  children.head?.any fun child => (registry.mdastToPm.block.get child.type).isSome

def isBareParagraph (node : PMNode) : Bool := node.type = .paragraph && node.content.isEmpty

def fallbackBlockToPm (registry : ConversionRegistry) : MdastToPmBlockHandler := fun node ctx =>
  if !node.children.isEmpty then
    if startsBlock registry node.children then
      let blocks := ctx.convertBlockChildren node.children
      if blocks.length = 1 && blocks.all isBareParagraph then none else some blocks
    else
      let content := ctx.convertInlineChildren node.children
      if !content.isEmpty then some [paragraphOf content] else none
  else
    match node.value with
    | some value => if !value.isEmpty then some [paragraphOf [.text value []]] else none
    | none => none

def fallbackInlineToPm : MdastToPmInlineHandler := fun node marks ctx =>
  if !node.children.isEmpty then
    node.children.flatMap fun child => ctx.convertInline child marks
  else
    match node.value with
    | some value => if !value.isEmpty then [makeText value marks] else []
    | none => []

/-! ## The engine -/

section Engine

variable (registry : ConversionRegistry)

def convertBlock (ctx : MdastToPmContext) (node : Mdast) : List PMNode :=
  match registry.mdastToPm.block.get node.type with
  | some handler => (handler node ctx).getD []
  | none => (fallbackBlockToPm registry node ctx).getD []

def convertBlockChildren (ctx : MdastToPmContext) (nodes : List Mdast) : List PMNode :=
  let result := nodes.flatMap (convertBlock registry ctx)
  if !result.isEmpty then result else [paragraphOf []]

def convertInline (ctx : MdastToPmContext) (node : Mdast) (marks : List PMMark) :
    List PMNode :=
  match registry.mdastToPm.inline.get node.type with
  | some handler => handler node marks ctx
  | none => fallbackInlineToPm node marks ctx

def convertInlineChildren (ctx : MdastToPmContext) (nodes : List Mdast) : List PMNode :=
  mergeAdjacentText (nodes.flatMap fun node => convertInline registry ctx node [])

/-- The context for nodes of at most the given height.  There is no node of height zero. -/
def createContext : Nat → MdastToPmContext
  | 0 =>
    { convertBlockChildren := fun _ => [paragraphOf []]
      convertInlineChildren := fun _ => []
      convertInline := fun _ _ => [] }
  | depth + 1 =>
    let ctx := createContext depth
    { convertBlockChildren := convertBlockChildren registry ctx
      convertInlineChildren := convertInlineChildren registry ctx
      convertInline := convertInline registry ctx }

def mdastToProseMirror (tree : Mdast) : PMNode :=
  .node .doc {} ((createContext registry tree.height).convertBlockChildren tree.children)

end Engine

/-! ## Base handlers -/

def flushInline (ctx : MdastToPmContext) (result : List PMNode) (inlineBuf : List Mdast) :
    List PMNode :=
  if inlineBuf.isEmpty then result
  else
    let content := ctx.convertInlineChildren inlineBuf
    if !content.isEmpty then result ++ [paragraphOf content] else result

/-- The loop that lifts images out of a paragraph. -/
def liftImages (ctx : MdastToPmContext) : List Mdast → List PMNode → List Mdast → List PMNode
  | [], result, inlineBuf => flushInline ctx result inlineBuf
  | child :: rest, result, inlineBuf =>
    if child.type = .image then
      let imageResult := ctx.convertInline child []
      liftImages ctx rest (flushInline ctx result inlineBuf ++ imageResult.take 1) []
    else liftImages ctx rest result (inlineBuf ++ [child])

def paragraphHandler : MdastToPmBlockHandler := fun para ctx =>
  let hasImage := para.children.any fun child => child.type = .image
  if !hasImage then some [paragraphOf (ctx.convertInlineChildren para.children)]
  else
    let result := liftImages ctx para.children [] []
    some (if !result.isEmpty then result else [paragraphOf []])

def textHandler : MdastToPmInlineHandler := fun text marks _ =>
  let value := text.value.getD []
  let parts := value.splitOn '\n'
  if parts.length = 1 then [makeText value marks]
  else
    List.intercalate [hardBreak]
      (parts.map fun part => if !part.isEmpty then [makeText part marks] else [])

def breakHandler : MdastToPmInlineHandler := fun _ _ _ => [hardBreak]

end Kuku.Markdown.MdastToPm
