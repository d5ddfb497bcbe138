/-
# Editor.DiffDocument -- the document that shows a change for approval

`diffBlocks` tells the blocks of two ProseMirror documents as unchanged, added, removed and
modified ones, and `buildDiffDocument` wraps them; a modified block shows both texts, the runs
of one side marked.  Blocks and inline nodes are compared by their JSON, which here is equality
of nodes; absent content and marks are empty lists, and what a value of `attrs` is stays open.

Each side can be read back from the wrapped blocks (`Side.read`), except that a modified block
has the attributes of the new one: `shows_change_iff`.
-/
import Kuku.Theory.Alignment

namespace Kuku.DiffView

open Kuku.Theory List Option

/-! ## Documents -/

inductive NodeType where
  | paragraph | heading
  | other (name : List Char)
  deriving DecidableEq

inductive MarkType where
  | diffAdded | diffRemoved
  | other (name : List Char)
  deriving DecidableEq

structure PMMark (α : Type) where
  type : MarkType
  attrs : Option α
  deriving DecidableEq

/-- `PMNodeJSON`. -/
inductive PMNode (α : Type) where
  | text (text : List Char) (marks : List (PMMark α))
  | node (type : NodeType) (attrs : Option α) (content : List (PMNode α)) (marks : List (PMMark α))

section Equality

variable {α : Type} [DecidableEq α]

mutual

def PMNode.decEq : (a b : PMNode α) → Decidable (a = b)
  | .text value marks, .text value' marks' =>
    decidable_of_iff (value = value' ∧ marks = marks') (by simp)
  | .text _ _, .node _ _ _ _ => isFalse nofun
  | .node _ _ _ _, .text _ _ => isFalse nofun
  | .node type attrs content marks, .node type' attrs' content' marks' =>
    match PMNode.decEqs content content' with
    | isTrue same =>
      decidable_of_iff (type = type' ∧ attrs = attrs' ∧ marks = marks') (by simp [same])
    | isFalse differ => isFalse fun same => differ (PMNode.node.inj same).2.2.1

def PMNode.decEqs : (a b : List (PMNode α)) → Decidable (a = b)
  | [], [] => isTrue rfl
  | [], _ :: _ => isFalse nofun
  | _ :: _, [] => isFalse nofun
  | a :: rest, b :: rest' =>
    match PMNode.decEq a b, PMNode.decEqs rest rest' with
    | isTrue same, isTrue sameRest => isTrue (by rw [same, sameRest])
    | isFalse differ, _ => isFalse fun same => differ (List.cons.inj same).1
    | _, isFalse differ => isFalse fun same => differ (List.cons.inj same).2

end

instance : DecidableEq (PMNode α) := PMNode.decEq

end Equality

/-! ## The inline diff -/

inductive InlineToken (α : Type) where
  | text (text : Char) (marks : List (PMMark α))
  | node (node : PMNode α)
  deriving DecidableEq

inductive SegmentType where
  | equal | insert | delete
  deriving DecidableEq

structure SequenceSegment (α : Type) where
  type : SegmentType
  values : List (InlineToken α)

section Inline

variable {α : Type}

def tokenizeInlineContent (content : List (PMNode α)) : List (InlineToken α) :=
  content.flatMap fun node =>
    match node with
    | .text text marks => text.map fun char => .text char marks
    | node => [.node node]

def pushSegment (segments : List (SequenceSegment α)) (type : SegmentType)
    (value : InlineToken α) : List (SequenceSegment α) :=
  match segments.getLast? with
  | some last =>
    if last.type = type then
      segments.dropLast ++ [{ last with values := last.values ++ [value] }]
    else segments ++ [⟨type, [value]⟩]
  | none => segments ++ [⟨type, [value]⟩]

variable [DecidableEq α]

/-- The entry of the score table at two suffixes. -/
def lcsLength : List (InlineToken α) → List (InlineToken α) → Nat
  | [], _ => 0
  | _, [] => 0
  | a :: left, b :: right =>
    if a = b then 1 + lcsLength left right
    else max (lcsLength left (b :: right)) (lcsLength (a :: left) right)
termination_by left right => left.length + right.length
decreasing_by
  all_goals
    simp only [length_cons]
    omega

def diffInlineLoop : List (InlineToken α) → List (InlineToken α) → List (SequenceSegment α) →
    List (SequenceSegment α)
  | [], new, segments => new.foldl (fun segments token => pushSegment segments .insert token) segments
  | old, [], segments => old.foldl (fun segments token => pushSegment segments .delete token) segments
  | a :: old, b :: new, segments =>
    if a = b then diffInlineLoop old new (pushSegment segments .equal a)
    else if lcsLength (a :: old) new ≤ lcsLength old (b :: new) then
      diffInlineLoop old (b :: new) (pushSegment segments .delete a)
    else diffInlineLoop (a :: old) new (pushSegment segments .insert b)
termination_by old new => old.length + new.length
decreasing_by
  all_goals
    simp only [length_cons]
    omega

def diffInlineTokens (oldTokens newTokens : List (InlineToken α)) : List (SequenceSegment α) :=
  diffInlineLoop oldTokens newTokens []

end Inline

/-! ## The block diff -/

section Blocks

variable {α : Type} [DecidableEq α]

def blocksEqual (left right : PMNode α) : Bool := decide (left = right)

def canInlineDiff : PMNode α → PMNode α → Bool
  | .node type _ content _, .node type' _ content' _ =>
    if type ≠ type' then false
    else if type ≠ .paragraph ∧ type ≠ .heading then false
    else
      let leftTokens := tokenizeInlineContent content
      let rightTokens := tokenizeInlineContent content'
      let longestLength := max leftTokens.length rightTokens.length
      longestLength = 0 || longestLength ≤ 2 * lcsLength leftTokens rightTokens
  | _, _ => false

/-- `keep` is unchanged, `change` modified, `remove` removed and `add` added. -/
abbrev BlockDiff (α : Type) := Alignment.Step (PMNode α)

def diffBlocks (oldBlocks newBlocks : List (PMNode α)) : List (BlockDiff α) :=
  Alignment.walk blocksEqual canInlineDiff oldBlocks newBlocks

end Blocks

/-! ## The diff document -/

inductive DiffType where
  | unchanged | added | removed | modified
  deriving DecidableEq

/-- A `diffBlock` node. -/
structure DiffWrapper (α : Type) where
  diffType : DiffType
  content : List (PMNode α)

section Document

variable {α : Type} [DecidableEq α]

def appendDiffMark (marks : List (PMMark α)) (diffType : MarkType) : List (PMMark α) :=
  if marks.any fun mark => mark.type = diffType then marks else marks ++ [⟨diffType, none⟩]

def pushTextNode (nodes : List (PMNode α)) (text : List Char) (marks : List (PMMark α)) :
    List (PMNode α) :=
  if text = [] then nodes
  else
    match nodes.getLast? with
    | some (.text last lastMarks) =>
      if lastMarks = marks then nodes.dropLast ++ [.text (last ++ text) lastMarks]
      else nodes ++ [.text text marks]
    | _ => nodes ++ [.text text marks]

/-- One token of a segment; a node that is not in both contents ends the inline diff. -/
def pushToken (result : List (PMNode α)) : SegmentType × InlineToken α → Option (List (PMNode α))
  | (type, .node node) => if type ≠ .equal then none else some (result ++ [node])
  | (.equal, .text char marks) => some (pushTextNode result [char] marks)
  | (.delete, .text char marks) =>
    some (pushTextNode result [char] (appendDiffMark marks .diffRemoved))
  | (.insert, .text char marks) =>
    some (pushTextNode result [char] (appendDiffMark marks .diffAdded))

/-- The tokens of the segments, each with the type of its segment. -/
def told (segments : List (SequenceSegment α)) : List (SegmentType × InlineToken α) :=
  segments.flatMap fun segment => segment.values.map (segment.type, ·)

def buildInlineDiffContent (oldContent newContent : List (PMNode α)) : Option (List (PMNode α)) :=
  (told (diffInlineTokens (tokenizeInlineContent oldContent)
    (tokenizeInlineContent newContent))).foldlM pushToken []

def buildModifiedBlock : PMNode α → PMNode α → Option (PMNode α)
  | .node type _ content _, .node type' attrs' content' marks' =>
    if type ≠ type' then none
    else if type ≠ .paragraph ∧ type ≠ .heading then none
    else
      (buildInlineDiffContent content content').map fun content =>
        .node type' attrs' content marks'
  | _, _ => none

def wrapBlockDiff : BlockDiff α → List (DiffWrapper α)
  | .keep block => [⟨.unchanged, [block]⟩]
  | .add block => [⟨.added, [block]⟩]
  | .remove block => [⟨.removed, [block]⟩]
  | .change oldBlock newBlock =>
    match buildModifiedBlock oldBlock newBlock with
    | some modifiedBlock => [⟨.modified, [modifiedBlock]⟩]
    | none => [⟨.removed, [oldBlock]⟩, ⟨.added, [newBlock]⟩]

def buildDiffDocument (oldBlocks newBlocks : List (PMNode α)) : List (DiffWrapper α) :=
  let content := (diffBlocks oldBlocks newBlocks).flatMap wrapBlockDiff
  if content = [] then [⟨.unchanged, [.node .paragraph none [] []]⟩] else content

end Document

/-! ## What the two sides show -/

/-- A side of the diff document: its run type, its own mark and the mark of the other side. -/
inductive Side where
  | old | new

namespace Side

def own : Side → SegmentType
  | old => .delete
  | new => .insert

def mark : Side → MarkType
  | old => .diffRemoved
  | new => .diffAdded

def otherMark : Side → MarkType
  | old => .diffAdded
  | new => .diffRemoved

def wrapped : Side → DiffType
  | old => .removed
  | new => .added

end Side

section Reading

variable {α : Type} [DecidableEq α]

/-- A modified block's content without the runs of the other side and without the marks of its
own, adjacent texts with the same marks joined again. -/
def Side.stripNode (side : Side) (nodes : List (PMNode α)) : PMNode α → List (PMNode α)
  | .text text marks =>
    if marks.any fun mark => mark.type = side.otherMark then nodes
    else pushTextNode nodes text (marks.filter fun mark => mark.type ≠ side.mark)
  | node => nodes ++ [node]

def Side.strip (side : Side) (content : List (PMNode α)) : List (PMNode α) :=
  content.foldl side.stripNode []

def Side.stripBlock (side : Side) : PMNode α → PMNode α
  | .node type attrs content marks => .node type attrs (side.strip content) marks
  | node => node

/-- The blocks of a side. -/
def Side.read (side : Side) (wrappers : List (DiffWrapper α)) : List (PMNode α) :=
  wrappers.flatMap fun wrapper =>
    if wrapper.diffType = .unchanged ∨ wrapper.diffType = side.wrapped then wrapper.content
    else if wrapper.diffType = .modified then wrapper.content.map side.stripBlock
    else []

def joinNode (nodes : List (PMNode α)) : PMNode α → List (PMNode α)
  | .text text marks => pushTextNode nodes text marks
  | node => nodes ++ [node]

/-- Inline content as ProseMirror keeps it: no empty text, adjacent texts with the same marks
joined; the schema of a note has no marks of a diff. -/
structure Normal (content : List (PMNode α)) : Prop where
  joined : content.foldl joinNode [] = content
  unmarked : ∀ text marks, .text text marks ∈ content → ∀ mark ∈ marks,
    mark.type ≠ .diffAdded ∧ mark.type ≠ .diffRemoved

structure Document (α : Type) [DecidableEq α] where
  content : List (PMNode α)
  nonempty : content ≠ []
  normal : ∀ type attrs inner marks, .node type attrs inner marks ∈ content → Normal inner

variable {marks : List (PMMark α)}

theorem pushTextNode_append {nodes : List (PMNode α)} {text more : List Char} :
    pushTextNode (pushTextNode nodes text marks) more marks =
      pushTextNode nodes (text ++ more) marks := by
  by_cases noText : text = []
  · simp [pushTextNode, noText]
  · by_cases noMore : more = []
    · simp [pushTextNode, noMore]
    · cases hasLast : nodes.getLast? with
      | none => simp [pushTextNode, noText, noMore, hasLast]
      | some last =>
        cases last with
        | node type attrs content nodeMarks => simp [pushTextNode, noText, noMore, hasLast]
        | text last lastMarks =>
          by_cases same : lastMarks = marks
          · simp [pushTextNode, noText, noMore, hasLast, same]
          · simp [pushTextNode, noText, noMore, hasLast, same]

/-! ## The inline diff read from one side -/

def Side.tokens (side : Side) (tokens : List (SegmentType × InlineToken α)) :
    List (InlineToken α) :=
  tokens.filterMap fun token =>
    if token.1 = .equal ∨ token.1 = side.own then some token.2 else none

variable {segments : List (SequenceSegment α)}

omit [DecidableEq α] in
theorem told_pushSegment {type : SegmentType} {value : InlineToken α} :
    told (pushSegment segments type value) = told segments ++ [(type, value)] := by
  unfold pushSegment
  cases segments using List.reverseRecOn with
  | nil => rfl
  | append_singleton init last =>
    rw [getLast?_concat]
    simp only
    split
    · rename_i same
      subst same
      simp [told]
    · simp [told]

omit [DecidableEq α] in
theorem told_foldl {type : SegmentType} {tokens : List (InlineToken α)} :
    told (tokens.foldl (fun segments token => pushSegment segments type token) segments) =
      told segments ++ tokens.map (type, ·) := by
  induction tokens generalizing segments with
  | nil => simp
  | cons token rest ih => simp [ih, told_pushSegment]

variable {side : Side}

omit [DecidableEq α] in
theorem Side.tokens_append {first second : List (SegmentType × InlineToken α)} :
    side.tokens (first ++ second) = side.tokens first ++ side.tokens second := by
  simp [Side.tokens]

/-- What stands on a side of two lists. -/
def Side.of {β : Type} (side : Side) (old new : β) : β :=
  match side with
  | .old => old
  | .new => new

variable {old new : List (InlineToken α)}

theorem tokens_diffInlineLoop :
    side.tokens (told (diffInlineLoop old new segments)) =
      side.tokens (told segments) ++ side.of old new := by
  fun_induction diffInlineLoop old new segments with
  | case1 new segments =>
    rw [told_foldl, Side.tokens_append]
    cases side with
    | old => simp [Side.tokens, Side.own, Side.of]
    | new => simp [Side.tokens, Side.own, Side.of]
  | case2 old segments _ =>
    rw [told_foldl, Side.tokens_append]
    cases side with
    | old => simp [Side.tokens, Side.own, Side.of]
    | new => simp [Side.tokens, Side.own, Side.of]
  | case3 a old new segments ih =>
    rw [ih, told_pushSegment, Side.tokens_append]
    cases side <;> simp [Side.tokens, Side.of]
  | case4 a old b new segments _ _ ih =>
    rw [ih, told_pushSegment, Side.tokens_append]
    cases side <;> simp [Side.tokens, Side.of, Side.own]
  | case5 a old b new segments _ _ ih =>
    rw [ih, told_pushSegment, Side.tokens_append]
    cases side <;> simp [Side.tokens, Side.of, Side.own]

theorem tokens_diffInlineTokens : side.tokens (told (diffInlineTokens old new)) = side.of old new :=
  tokens_diffInlineLoop

/-! ## The content of a modified block -/

def joinToken (nodes : List (PMNode α)) : InlineToken α → List (PMNode α)
  | .text char marks => pushTextNode nodes [char] marks
  | .node node => nodes ++ [node]

theorem foldl_text {text : List Char} {nodes : List (PMNode α)} :
    (text.map fun char => InlineToken.text char marks).foldl joinToken nodes =
      pushTextNode nodes text marks := by
  induction text generalizing nodes with
  | nil => simp [pushTextNode]
  | cons char rest ih =>
    rw [map_cons, foldl_cons, ih]
    exact pushTextNode_append

/-- The tokens of normal content give it back. -/
theorem foldl_tokenize {content nodes : List (PMNode α)} :
    (tokenizeInlineContent content).foldl joinToken nodes = content.foldl joinNode nodes := by
  induction content generalizing nodes with
  | nil => rfl
  | cons node rest ih =>
    cases node with
    | text text marks =>
      rw [tokenizeInlineContent, flatMap_cons, foldl_append, foldl_text]
      exact ih
    | node type attrs content marks => exact ih

def Unmarked (marks : List (PMMark α)) : Prop :=
  ∀ mark ∈ marks, mark.type ≠ .diffAdded ∧ mark.type ≠ .diffRemoved

theorem unmarked_of_token {content : List (PMNode α)} (normal : Normal content) {char : Char}
    (among : .text char marks ∈ tokenizeInlineContent content) :
    Unmarked marks := by
  obtain ⟨node, isNode, isToken⟩ := mem_flatMap.mp among
  cases node with
  | text text textMarks =>
    obtain ⟨_, -, isText⟩ := mem_map.mp isToken
    cases isText
    exact normal.unmarked text marks isNode
  | node type attrs content nodeMarks =>
    cases mem_singleton.mp isToken

section Strip

variable (side : Side) {nodes : List (PMNode α)} {text : List Char} {marks : List (PMMark α)}

omit [DecidableEq α] in
theorem appendDiffMark_eq {type : MarkType} (absent : ∀ mark ∈ marks, mark.type ≠ type) :
    appendDiffMark marks type = marks ++ [⟨type, none⟩] := by
  unfold appendDiffMark
  rw [if_neg]
  simpa using absent

theorem strip_concat {node : PMNode α} :
    side.strip (nodes ++ [node]) = side.stripNode (side.strip nodes) node := by
  simp [Side.strip]

theorem strip_pushTextNode : side.strip (pushTextNode nodes text marks) =
    if marks.any fun mark => mark.type = side.otherMark then side.strip nodes
    else pushTextNode (side.strip nodes) text (marks.filter fun mark => mark.type ≠ side.mark) := by
  by_cases noText : text = []
  · simp [pushTextNode, noText]
  · have asNew : side.strip (nodes ++ [.text text marks]) =
        if marks.any fun mark => mark.type = side.otherMark then side.strip nodes
        else pushTextNode (side.strip nodes) text
          (marks.filter fun mark => mark.type ≠ side.mark) := strip_concat side
    rw [pushTextNode.eq_def nodes, if_neg noText]
    cases nodes using List.reverseRecOn with
    | nil => exact asNew
    | append_singleton init last =>
      rw [getLast?_concat]
      cases last with
      | node type attrs content nodeMarks => exact asNew
      | text last lastMarks =>
        simp only
        split
        · rename_i same
          subst same
          rw [dropLast_concat, strip_concat, strip_concat]
          simp only [Side.stripNode]
          split
          · rfl
          · exact pushTextNode_append.symm
        · exact asNew

omit [DecidableEq α] in
theorem Unmarked.ne_mark (unmarked : Unmarked marks) : ∀ mark ∈ marks, mark.type ≠ side.mark := by
  intro mark among
  cases side with
  | old => exact (unmarked mark among).2
  | new => exact (unmarked mark among).1

variable (unmarked : Unmarked marks)

include unmarked

omit [DecidableEq α] in
theorem Unmarked.ne_otherMark : ∀ mark ∈ marks, mark.type ≠ side.otherMark := by
  intro mark among
  cases side with
  | old => exact (unmarked mark among).1
  | new => exact (unmarked mark among).2

theorem strip_plain :
    side.strip (pushTextNode nodes text marks) = pushTextNode (side.strip nodes) text marks := by
  have noOther : ¬ (marks.any fun mark => mark.type = side.otherMark) = true := by
    simpa using unmarked.ne_otherMark side
  have all : (marks.filter fun mark => mark.type ≠ side.mark) = marks :=
    filter_eq_self.mpr fun mark among => decide_eq_true (unmarked.ne_mark side mark among)
  rw [strip_pushTextNode, if_neg noOther, all]

theorem strip_own :
    side.strip (pushTextNode nodes text (appendDiffMark marks side.mark)) =
      pushTextNode (side.strip nodes) text marks := by
  have differ : side.mark ≠ side.otherMark := by cases side <;> decide
  have noOther : ¬ ((marks ++ [(⟨side.mark, none⟩ : PMMark α)]).any
      fun mark => mark.type = side.otherMark) = true := by
    simpa [differ] using unmarked.ne_otherMark side
  have all : (marks.filter fun mark => mark.type ≠ side.mark) = marks :=
    filter_eq_self.mpr fun mark among => decide_eq_true (unmarked.ne_mark side mark among)
  rw [strip_pushTextNode, appendDiffMark_eq (unmarked.ne_mark side), if_neg noOther, filter_append,
    all]
  simp

theorem strip_other :
    side.strip (pushTextNode nodes text (appendDiffMark marks side.otherMark)) =
      side.strip nodes := by
  rw [strip_pushTextNode, appendDiffMark_eq (unmarked.ne_otherMark side), if_pos (by simp)]

end Strip

/-- What a token of a document is. -/
def Fits : InlineToken α → Prop
  | .text _ marks => Unmarked marks
  | .node node => ∃ type attrs content marks, node = .node type attrs content marks

/-- **A side of an inline diff** is its tokens joined again. -/
theorem strip_foldlM {tokens : List (SegmentType × InlineToken α)} {nodes result : List (PMNode α)}
    (fits : ∀ token ∈ tokens, Fits token.2) (built : tokens.foldlM pushToken nodes = some result) :
    side.strip result = (side.tokens tokens).foldl joinToken (side.strip nodes) := by
  induction tokens generalizing nodes with
  | nil =>
    cases built
    rfl
  | cons token rest ih =>
    obtain ⟨type, token⟩ := token
    have isFit := fits _ mem_cons_self
    rw [foldlM_cons] at built
    obtain ⟨next, pushed, built⟩ := bind_eq_some_iff.mp built
    rw [ih (fun token later => fits token (mem_cons_of_mem _ later)) built]
    cases token with
    | node node =>
      obtain ⟨nodeType, attrs, content, marks, rfl⟩ := isFit
      cases type with
      | equal =>
        cases pushed
        rw [strip_concat]
        rfl
      | insert => cases pushed
      | delete => cases pushed
    | text char marks =>
      have unmarked : Unmarked marks := isFit
      cases type with
      | equal =>
        cases pushed
        rw [strip_plain side unmarked]
        rfl
      | delete =>
        cases pushed
        cases side with
        | old =>
          have own : Side.old.strip (pushTextNode nodes [char] (appendDiffMark marks .diffRemoved)) =
              pushTextNode (Side.old.strip nodes) [char] marks := strip_own .old unmarked
          rw [own]
          rfl
        | new =>
          have other : Side.new.strip (pushTextNode nodes [char] (appendDiffMark marks .diffRemoved)) =
              Side.new.strip nodes := strip_other .new unmarked
          rw [other]
          rfl
      | insert =>
        cases pushed
        cases side with
        | new =>
          have own : Side.new.strip (pushTextNode nodes [char] (appendDiffMark marks .diffAdded)) =
              pushTextNode (Side.new.strip nodes) [char] marks := strip_own .new unmarked
          rw [own]
          rfl
        | old =>
          have other : Side.old.strip (pushTextNode nodes [char] (appendDiffMark marks .diffAdded)) =
              Side.old.strip nodes := strip_other .old unmarked
          rw [other]
          rfl

theorem fits_tokenize {content : List (PMNode α)} (normal : Normal content)
    {token : InlineToken α} (among : token ∈ tokenizeInlineContent content) : Fits token := by
  cases token with
  | text char marks => exact unmarked_of_token normal among
  | node node =>
    obtain ⟨held, -, isToken⟩ := mem_flatMap.mp among
    cases held with
    | text text marks =>
      obtain ⟨_, -, isText⟩ := mem_map.mp isToken
      cases isText
    | node type attrs content marks =>
      cases mem_singleton.mp isToken
      exact ⟨type, attrs, content, marks, rfl⟩

/-- Every token of the diff is one of a side. -/
theorem mem_told {token : SegmentType × InlineToken α}
    (among : token ∈ told (diffInlineTokens old new)) : token.2 ∈ old ∨ token.2 ∈ new := by
  have onSide : ∀ side : Side, token.1 = .equal ∨ token.1 = side.own →
      token.2 ∈ side.of old new := by
    intro side isOn
    rw [← tokens_diffInlineTokens]
    exact mem_filterMap.mpr ⟨token, among, if_pos isOn⟩
  cases isType : token.1 with
  | equal => exact .inl (onSide .old (.inl isType))
  | delete => exact .inl (onSide .old (.inr isType))
  | insert => exact .inr (onSide .new (.inr isType))

theorem strip_buildInlineDiffContent {old new content : List (PMNode α)} (oldNormal : Normal old)
    (newNormal : Normal new) (built : buildInlineDiffContent old new = some content) :
    side.strip content = side.of old new := by
  have fits : ∀ token ∈ told (diffInlineTokens (tokenizeInlineContent old)
      (tokenizeInlineContent new)), Fits token.2 := by
    intro token among
    rcases mem_told among with inOld | inNew
    · exact fits_tokenize oldNormal inOld
    · exact fits_tokenize newNormal inNew
  rw [strip_foldlM fits built, tokens_diffInlineTokens]
  cases side with
  | old => exact foldl_tokenize.trans oldNormal.joined
  | new => exact foldl_tokenize.trans newNormal.joined

/-! ## The blocks read from one side -/

/-- Equal attributes and marks. -/
def SameFrame : PMNode α → PMNode α → Prop
  | .node _ attrs _ marks, .node _ attrs' _ marks' => attrs = attrs' ∧ marks = marks'
  | _, _ => True

/-- The inline diff does not end at a node: both contents have the same inline nodes. -/
def showsInline : PMNode α → PMNode α → Bool
  | .node _ _ content _, .node _ _ content' _ => (buildInlineDiffContent content content').isSome
  | _, _ => false

def NormalBlock (block : PMNode α) : Prop :=
  ∀ type attrs inner marks, block = .node type attrs inner marks → Normal inner

section Blocks

variable {side : Side} {a b : PMNode α} {old new : List (PMNode α)} {steps : List (BlockDiff α)}

theorem read_append {first second : List (DiffWrapper α)} :
    side.read (first ++ second) = side.read first ++ side.read second := by
  simp [Side.read]

/-- What a modified pair is on both sides. -/
theorem read_change (isNear : canInlineDiff a b = true) (oldNormal : NormalBlock a)
    (newNormal : NormalBlock b) :
    Side.new.read (wrapBlockDiff (.change a b)) = [b] ∧
      ∃ shown, Side.old.read (wrapBlockDiff (.change a b)) = [shown] ∧
        (shown = a ↔ (showsInline a b = true → SameFrame a b)) := by
  cases a with
  | text text marks => cases isNear
  | node type attrs content marks =>
    cases b with
    | text text marks => cases isNear
    | node type' attrs' content' marks' =>
      simp only [canInlineDiff] at isNear
      split at isNear
      · cases isNear
      · rename_i sameType
        split at isNear
        · cases isNear
        · rename_i isText
          have same : type = type' := Classical.not_not.mp sameType
          subst same
          cases built : buildInlineDiffContent content content' with
          | none =>
            have wrapped : wrapBlockDiff (.change (.node type attrs content marks)
                (.node type attrs' content' marks')) =
                [⟨.removed, [.node type attrs content marks]⟩,
                  ⟨.added, [.node type attrs' content' marks']⟩] := by
              simp [wrapBlockDiff, buildModifiedBlock, built]
            rw [wrapped]
            refine ⟨rfl, _, rfl, iff_of_true rfl fun shows => ?_⟩
            simp [showsInline, built] at shows
          | some shown =>
            have strip : ∀ side : Side, side.strip shown = side.of content content' :=
              fun side => strip_buildInlineDiffContent (oldNormal _ _ _ _ rfl)
                (newNormal _ _ _ _ rfl) built
            have wrapped : wrapBlockDiff (.change (.node type attrs content marks)
                (.node type attrs' content' marks')) =
                [⟨.modified, [.node type attrs' shown marks']⟩] := by
              simp only [wrapBlockDiff, buildModifiedBlock, built, ne_eq, not_true,
                if_false, map_some]
              rw [if_neg isText]
            have shownAs : ∀ side : Side, side.read
                [⟨DiffType.modified, [PMNode.node type attrs' shown marks']⟩] =
                [.node type attrs' (side.of content content') marks'] := by
              intro side
              cases side <;> simp [Side.read, Side.wrapped, Side.stripBlock, strip]
            rw [wrapped, shownAs, shownAs]
            refine ⟨rfl, _, rfl, ?_⟩
            simp only [Side.of, PMNode.node.injEq, showsInline, built, isSome_some,
              true_and, SameFrame, forall_true_left]
            exact and_congr eq_comm eq_comm

theorem read_steps (aligns : Alignment.Aligns blocksEqual canInlineDiff old new steps)
    (oldNormal : ∀ block ∈ old, NormalBlock block) (newNormal : ∀ block ∈ new, NormalBlock block) :
    Side.new.read (steps.flatMap wrapBlockDiff) = new ∧
      (Side.old.read (steps.flatMap wrapBlockDiff) = old ↔
        ∀ a b, .change a b ∈ steps → showsInline a b = true → SameFrame a b) := by
  induction aligns with
  | nil => exact ⟨rfl, iff_of_true rfl fun _ _ none => nomatch none⟩
  | @keep a b old new steps isSame _ ih =>
    have same : a = b := of_decide_eq_true isSame
    obtain ⟨ihNew, ihOld⟩ := ih (fun block later => oldNormal block (mem_cons_of_mem _ later))
      fun block later => newNormal block (mem_cons_of_mem _ later)
    have kept : ∀ side : Side, side.read (wrapBlockDiff (.keep a)) = [a] := by
      intro side
      simp [wrapBlockDiff, Side.read]
    rw [flatMap_cons, read_append, read_append, kept, kept, ihNew, ← same]
    refine ⟨rfl, ?_⟩
    rw [singleton_append, List.cons.injEq, and_iff_right rfl, ihOld]
    simp
  | @change a b old new steps isNear _ ih =>
    obtain ⟨ihNew, ihOld⟩ := ih (fun block later => oldNormal block (mem_cons_of_mem _ later))
      fun block later => newNormal block (mem_cons_of_mem _ later)
    obtain ⟨onNew, shown, onOld, isRight⟩ := read_change isNear
      (oldNormal a mem_cons_self) (newNormal b mem_cons_self)
    rw [flatMap_cons, read_append, read_append, onNew, onOld, ihNew]
    refine ⟨rfl, ?_⟩
    rw [singleton_append, List.cons.injEq, ihOld, isRight]
    constructor
    · rintro ⟨first, later⟩ a' b' among
      rcases mem_cons.mp among with isFirst | isLater
      · cases isFirst
        exact first
      · exact later a' b' isLater
    · intro all
      exact ⟨all a b mem_cons_self, fun a' b' later =>
        all a' b' (mem_cons_of_mem _ later)⟩
  | @remove a old new steps _ ih =>
    obtain ⟨ihNew, ihOld⟩ := ih
      (fun block later => oldNormal block (mem_cons_of_mem _ later)) newNormal
    have onOld : Side.old.read (wrapBlockDiff (.remove a)) = [a] := by
      simp [wrapBlockDiff, Side.read, Side.wrapped]
    have onNew : Side.new.read (wrapBlockDiff (.remove a)) = [] := by
      simp [wrapBlockDiff, Side.read, Side.wrapped]
    rw [flatMap_cons, read_append, read_append, onOld, onNew, ihNew]
    refine ⟨rfl, ?_⟩
    rw [singleton_append, List.cons.injEq, and_iff_right rfl, ihOld]
    simp
  | @add b old new steps _ ih =>
    obtain ⟨ihNew, ihOld⟩ := ih oldNormal
      fun block later => newNormal block (mem_cons_of_mem _ later)
    have onOld : Side.old.read (wrapBlockDiff (.add b)) = [] := by
      simp [wrapBlockDiff, Side.read, Side.wrapped]
    have onNew : Side.new.read (wrapBlockDiff (.add b)) = [b] := by
      simp [wrapBlockDiff, Side.read, Side.wrapped]
    rw [flatMap_cons, read_append, read_append, onOld, onNew, ihNew]
    refine ⟨rfl, ?_⟩
    rw [nil_append, ihOld]
    simp

theorem wrapBlockDiff_ne_nil {step : BlockDiff α} : wrapBlockDiff step ≠ [] := by
  cases step with
  | change a b =>
    rw [wrapBlockDiff]
    split <;> exact cons_ne_nil _ _
  | keep _ | remove _ | add _ => exact cons_ne_nil _ _

/-- A document with blocks has no stand-in for them. -/
theorem buildDiffDocument_eq (nonempty : old ≠ []) :
    buildDiffDocument old new = (diffBlocks old new).flatMap wrapBlockDiff := by
  unfold buildDiffDocument
  refine if_neg fun isEmpty => nonempty ?_
  have noStep : diffBlocks old new = [] := by
    rw [flatMap_eq_nil_iff] at isEmpty
    exact eq_nil_iff_forall_not_mem.mpr fun step among =>
      wrapBlockDiff_ne_nil (isEmpty step among)
  have onLeft : (diffBlocks old new).flatMap Alignment.Step.left = old :=
    Alignment.walk_aligns.1.left
  rw [noStep] at onLeft
  exact onLeft.symm

/-- The diff document shows the change: both sides can be read back, and no alignment has fewer
entries that are not unchanged. -/
structure Shows (old new : List (PMNode α)) : Prop where
  readOld : Side.old.read (buildDiffDocument old new) = old
  readNew : Side.new.read (buildDiffDocument old new) = new
  aligns : Alignment.Aligns blocksEqual canInlineDiff old new (diffBlocks old new)
  least : ∀ others, Alignment.Aligns blocksEqual canInlineDiff old new others →
    Alignment.price (diffBlocks old new) ≤ Alignment.price others

/-- **The approval diff shows the change** exactly when the blocks that the preferred least
alignment pairs, and that are shown as one, agree in their attributes and marks. -/
theorem shows_change_iff (old new : Document α) :
    Shows old.content new.content ↔
      ∀ steps, Alignment.FirstLeast blocksEqual canInlineDiff old.content new.content steps →
        ∀ a b, .change a b ∈ steps → showsInline a b = true → SameFrame a b := by
  have first : Alignment.FirstLeast blocksEqual canInlineDiff old.content new.content
      (diffBlocks old.content new.content) := Alignment.walk_firstLeast
  have normal : ∀ document : Document α, ∀ block ∈ document.content, NormalBlock block := by
    rintro document block among type attrs inner marks rfl
    exact document.normal type attrs inner marks among
  have sides := read_steps first.aligns (normal old) (normal new)
  rw [← buildDiffDocument_eq old.nonempty] at sides
  constructor
  · intro shows steps isFirst
    rw [isFirst.unique first]
    exact sides.2.mp shows.readOld
  · intro agree
    exact ⟨sides.2.mpr (agree _ first), sides.1, first.aligns, first.least⟩

def planHeading (level : Nat) : Document Nat where
  content := [.node .heading (some level) [.text "Plan".toList []] []]
  nonempty := cons_ne_nil _ _
  normal := by
    intro type attrs inner marks among
    cases mem_singleton.mp among
    refine ⟨by decide, fun text marks isText mark isMark => ?_⟩
    cases mem_singleton.mp isText
    cases isMark

/-- A heading whose level changes is shown with the new level on both sides. -/
theorem level_not_shown : ¬ ∀ old new : Document Nat, Shows old.content new.content := by
  intro claimed
  have isOld := (claimed (planHeading 1) (planHeading 2)).readOld
  revert isOld
  decide +kernel

end Blocks

end Reading

end Kuku.DiffView
