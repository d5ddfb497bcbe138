/-
# Markdown.TextSurvives -- opening and saving a note, together

Structure may be lost between the two trees, text is not:

* `text_survives`: what opening keeps and what saving keeps, with the cases in which that is
  the whole text in document order.
* `text_lost_or_moved`: three documents with less.  An inline line break tag is opened as a hard
  break; a code mark behind another mark loses its text; a paragraph behind a nested list is
  saved before it.
-/
import Kuku.Markdown.OpenedText
import Kuku.Markdown.SavedText

namespace Kuku.Markdown

open Kuku.Theory List
open PmToMdast (extractTextContent)
open CoreEditor (mdastToProseMirror proseMirrorToMdast)

/-- **No visible character of a note's text is lost or moved**, but for inline line break tags
on opening and for nested lists, which are saved behind the other blocks of their item. -/
theorem text_survives :
    (∀ tree : Mdast, tree.wellFormed = true →
      Kept isVisible (Mdast.textsAt .block tree.children)
        (extractTextContent (mdastToProseMirror tree)) ∧
      (Mdast.anyLineBreakTag tree.children = false →
        Mdast.textsAt .block tree.children = Mdast.texts tree.children)) ∧
    (∀ doc : PMNode, PMNode.isDoc doc = true →
      Kept isVisible (savedTexts doc.content) (proseMirrorToMdast doc).text ∧
      (allInPlace doc.content = true → savedTexts doc.content = extractTextContent doc)) := by
  constructor
  · intro tree fit
    exact ⟨opened_keeps_text fit, Mdast.textsAt_eq_texts .block tree.children⟩
  · intro doc schema
    refine ⟨saved_keeps_text schema, fun placed => ?_⟩
    cases doc with
    | text value marks => cases schema
    | node type attrs content =>
      rw [extractTextContent_node]
      exact savedTexts_eq_texts content placed

/-! ## What is lost or moved -/

def paragraph (content : List PMNode) : PMNode := .node .paragraph {} content

def bullet (content : List PMNode) : PMNode := .node .list { kind := some .bullet } content

def lineBreakNote : Mdast := .parent .root [.parent .paragraph [.literal .html "<br>".toList]]

def boldCode : PMNode := .node .doc {} [paragraph [.text ['x'] [.bold, .code]]]

/-- An item that goes on behind the list nested in it. -/
def interruptedItem : PMNode :=
  .node .doc {} [bullet [paragraph [.text ['a'] []], bullet [paragraph [.text ['b'] []]],
    paragraph [.text ['c'] []]]]

theorem text_lost_or_moved :
    ¬ (∀ tree : Mdast, tree.wellFormed = true →
      Kept isVisible (Mdast.texts tree.children) (extractTextContent (mdastToProseMirror tree))) ∧
    ¬ (∀ doc : PMNode, PMNode.isDoc doc = true →
      Kept isVisible (extractTextContent doc) (proseMirrorToMdast doc).text) ∧
    (extractTextContent boldCode = ['x'] ∧ (proseMirrorToMdast boldCode).text = []) ∧
    (extractTextContent interruptedItem = ['a', 'b', 'c'] ∧
      (proseMirrorToMdast interruptedItem).text = ['a', 'c', 'b']) := by
  have lost : extractTextContent boldCode = ['x'] ∧ (proseMirrorToMdast boldCode).text = [] := by
    decide +kernel
  refine ⟨fun always => ?_, fun always => ?_, lost, by decide +kernel⟩
  · have kept := always lineBreakNote (by decide +kernel)
    have opened : extractTextContent (mdastToProseMirror lineBreakNote) = [] := by decide +kernel
    rw [opened, Kept, filter_nil, sublist_nil] at kept
    exact absurd kept (by decide +kernel)
  · have kept := always boldCode (by decide +kernel)
    rw [lost.1, lost.2, Kept, filter_nil, sublist_nil] at kept
    exact absurd kept (by decide)

/-- An item with its nested list last, in bold and in code. -/
def plainNote : PMNode :=
  .node .doc {} [bullet [paragraph [.text ['a'] [.code, .bold]], bullet [paragraph [.text ['b'] []]]]]

theorem text_survives_plainNote :
    Kept isVisible ['a', 'b'] (proseMirrorToMdast plainNote).text := by
  have saved := text_survives.2 plainNote (by decide +kernel)
  have same := saved.2 (by decide +kernel)
  have isText : extractTextContent plainNote = ['a', 'b'] := by decide +kernel
  rw [← isText, ← same]
  exact saved.1

end Kuku.Markdown
