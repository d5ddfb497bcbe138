/-
# Markdown.Contents -- the text of the two trees

The text of an mdast tree is the values of its texts, inline code, code blocks and HTML, in
document order; the text of a document is that of its text nodes, which `extractTextContent`
computes.
-/
import Kuku.Markdown.CoreEditor
import Kuku.Theory.Kept

namespace Kuku.Markdown

open Kuku.Theory List
open PmToMdast (extractTextContent extractTextContents)

/-! ## The text of a tree -/

namespace Mdast

/-- The literals whose value is text of the note. -/
def carriesText : MdastType → Bool
  | .text | .inlineCode | .code | .html => true
  | _ => false

def ownText (type : MdastType) (value : Option Str) : Str :=
  if carriesText type then value.getD [] else []

mutual

/-- Every text, in document order. -/
def text : Mdast → Str
  | mk type _ value children => ownText type value ++ texts children

def texts : List Mdast → Str
  | [] => []
  | node :: rest => text node ++ texts rest

end

theorem texts_eq {nodes : List Mdast} : texts nodes = nodes.flatMap text := by
  induction nodes with
  | nil => rfl
  | cons node rest ih => rw [texts, ih, flatMap_cons]

@[simp] theorem texts_nil : texts [] = [] := rfl

@[simp] theorem texts_append (first second : List Mdast) :
    texts (first ++ second) = texts first ++ texts second := by
  induction first with
  | nil => rfl
  | cons node rest ih => rw [cons_append, texts, texts, ih, append_assoc]

@[simp] theorem texts_singleton (node : Mdast) : texts [node] = text node := by
  simp [texts]

@[simp] theorem text_parent {type : MdastType} (silent : carriesText type = false)
    (children : List Mdast) : text (parent type children) = texts children := by
  rw [parent, text, ownText, silent]
  rfl

end Mdast

/-! ## The text of a document -/

section Contents

variable {nodes : List PMNode} {node : PMNode}

theorem extractTextContents_eq : extractTextContents nodes = nodes.flatMap extractTextContent := by
  induction nodes with
  | nil => rfl
  | cons node rest ih => rw [extractTextContents, ih, flatMap_cons]

@[simp] theorem extractTextContents_nil : extractTextContents [] = [] := rfl

@[simp] theorem extractTextContents_append (first second : List PMNode) :
    extractTextContents (first ++ second) =
      extractTextContents first ++ extractTextContents second := by
  rw [extractTextContents_eq, extractTextContents_eq, extractTextContents_eq, flatMap_append]

@[simp] theorem extractTextContents_singleton :
    extractTextContents [node] = extractTextContent node := by
  simp [extractTextContents]

@[simp] theorem extractTextContent_node (type : PMType) (attrs : PMAttrs) (content : List PMNode) :
    extractTextContent (.node type attrs content) = extractTextContents content := by
  rw [extractTextContent]

@[simp] theorem extractTextContent_text (value : Str) (marks : List PMMark) :
    extractTextContent (.text value marks) = value := by
  rw [extractTextContent]

theorem extractTextContents_flatMap {α : Type} (f : α → List PMNode) (parts : List α) :
    extractTextContents (parts.flatMap f) = parts.flatMap fun part => extractTextContents (f part) := by
  induction parts with
  | nil => rfl
  | cons part rest ih => simp [ih]

end Contents

end Kuku.Markdown
