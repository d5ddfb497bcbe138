/-
# Markdown.Types -- the two document trees and the registry of handlers

A note is an mdast tree on disk and a ProseMirror document in the editor.  An mdast node has
a type, the fields of that type, a value if it is a literal and children otherwise; a node
of the wire format of ProseMirror is a text with marks or a node with attributes and content.
Absent children, content and marks are empty lists, and fields that no converter reads are
left out.

A registry maps the name of a type to the handler of that type, in both directions.  A
handler gets a context with which it converts its children.
-/
import Kuku.Theory.Assoc
import Kuku.Theory.Chars

namespace Kuku.Markdown

open Kuku.Theory

abbrev Str := List Char

/-- JavaScript's white space: what `\s` matches and `trim` strips. -/
def isSpace (c : Char) : Bool := (Text.isSpace c && c.toNat != 0x85) || c.toNat == 0xFEFF

def trim (s : Str) : Str := (s.dropWhile isSpace).rdropWhile isSpace

def isVisible (c : Char) : Bool := !isSpace c

/-! ## mdast -/

/-- `node.type`. -/
inductive MdastType where
  | root | paragraph | heading | thematicBreak | blockquote | list | listItem | code | html
  | table | tableRow | tableCell
  | text | emphasis | strong | delete | inlineCode | break | link | image
  | other (name : Str)
  deriving DecidableEq

structure MdastFields where
  depth : Option Nat := none
  ordered : Bool := false
  start : Option Nat := none
  checked : Option Bool := none
  lang : Option Str := none
  url : Str := []
  title : Option Str := none
  alt : Option Str := none

inductive Mdast where
  | mk (type : MdastType) (fields : MdastFields) (value : Option Str) (children : List Mdast)

namespace Mdast

def type : Mdast → MdastType
  | mk type _ _ _ => type

def fields : Mdast → MdastFields
  | mk _ fields _ _ => fields

def value : Mdast → Option Str
  | mk _ _ value _ => value

def children : Mdast → List Mdast
  | mk _ _ _ children => children

def literal (type : MdastType) (value : Str) : Mdast := mk type {} (some value) []

def parent (type : MdastType) (children : List Mdast) : Mdast := mk type {} none children

mutual

def height : Mdast → Nat
  | mk _ _ _ children => heights children + 1

def heights : List Mdast → Nat
  | [] => 0
  | node :: rest => max (height node) (heights rest)

end

end Mdast

/-! ## ProseMirror -/

inductive ListKind where
  | bullet | ordered | task | toggle
  deriving DecidableEq

inductive PMMark where
  | bold
  | italic
  | strike
  | code
  | link (href : Option Str) (title : Option Str)
  | other (name : Str) (attrs : Str)
  deriving DecidableEq

inductive PMMarkType where
  | bold | italic | strike | code | link
  | other (name : Str)
  deriving DecidableEq

def PMMark.type : PMMark → PMMarkType
  | bold => .bold
  | italic => .italic
  | strike => .strike
  | code => .code
  | link _ _ => .link
  | other name _ => .other name

inductive PMType where
  | doc | paragraph | heading | horizontalRule | blockquote | codeBlock | list
  | table | tableRow | tableCell | tableHeaderCell
  | text | hardBreak | image
  | other (name : Str)
  deriving DecidableEq

/-- `node.attrs`: the attributes of the editor's own types, and the texts among those of
another type. -/
structure PMAttrs where
  level : Option Nat := none
  language : Option Str := none
  src : Option Str := none
  alt : Option Str := none
  kind : Option ListKind := none
  order : Option Nat := none
  checked : Option Bool := none
  other : Assoc Str Str := []

/-- `PMNodeJSON`.  Only a text node has text and marks. -/
inductive PMNode where
  | text (text : Str) (marks : List PMMark)
  | node (type : PMType) (attrs : PMAttrs) (content : List PMNode)

namespace PMNode

def type : PMNode → PMType
  | text _ _ => .text
  | node type _ _ => type

def attrs : PMNode → PMAttrs
  | text _ _ => {}
  | node _ attrs _ => attrs

def content : PMNode → List PMNode
  | text _ _ => []
  | node _ _ content => content

/-- `node.text ?? ""`. -/
def textOrEmpty : PMNode → Str
  | text value _ => value
  | node _ _ _ => []

def marks : PMNode → List PMMark
  | text _ applied => applied
  | node _ _ _ => []

mutual

def height : PMNode → Nat
  | text _ _ => 1
  | node _ _ content => heights content + 1

def heights : List PMNode → Nat
  | [] => 0
  | first :: rest => max (height first) (heights rest)

end

end PMNode

/-! ## Handlers -/

structure MdastToPmContext where
  convertBlockChildren : List Mdast → List PMNode
  convertInlineChildren : List Mdast → List PMNode
  convertInline : Mdast → List PMMark → List PMNode

structure PmToMdastContext where
  convertDocChildren : List PMNode → List Mdast
  convertBlockNode : PMNode → Option Mdast
  convertInlineChildren : List PMNode → List Mdast
  convertInlineNode : PMNode → Option Mdast
  extractTextContent : PMNode → Str

abbrev MdastToPmBlockHandler := Mdast → MdastToPmContext → Option (List PMNode)
abbrev MdastToPmInlineHandler := Mdast → List PMMark → MdastToPmContext → List PMNode
abbrev PmToMdastBlockHandler := PMNode → PmToMdastContext → Option Mdast
abbrev PmToMdastInlineHandler := PMNode → PmToMdastContext → Option Mdast
abbrev PmToMdastMarkHandler := PMMark → Mdast → Mdast

structure MdastToPmHandlers where
  block : Assoc MdastType MdastToPmBlockHandler := []
  inline : Assoc MdastType MdastToPmInlineHandler := []

structure PmToMdastHandlers where
  block : Assoc PMType PmToMdastBlockHandler := []
  inline : Assoc PMType PmToMdastInlineHandler := []
  mark : Assoc PMMarkType PmToMdastMarkHandler := []

structure ConversionRegistry where
  mdastToPm : MdastToPmHandlers
  pmToMdast : PmToMdastHandlers

/-- The entries of `second` overwrite those of `first`. -/
def mergeRegistries (first second : ConversionRegistry) : ConversionRegistry where
  mdastToPm :=
    { block := second.mdastToPm.block ++ first.mdastToPm.block
      inline := second.mdastToPm.inline ++ first.mdastToPm.inline }
  pmToMdast :=
    { block := second.pmToMdast.block ++ first.pmToMdast.block
      inline := second.pmToMdast.inline ++ first.pmToMdast.inline
      mark := second.pmToMdast.mark ++ first.pmToMdast.mark }

end Kuku.Markdown
