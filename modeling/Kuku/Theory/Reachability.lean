/-
# Theory.Reachability -- a depth-first walk that marks what it has seen

A graph is given by the successors of its known nodes; a node without an answer is not known.
The walk marks a known node and goes on to each of its successors in turn, unless the node is
marked already.

`visit_reaches`: calls nested more deeply than there are known nodes are never needed, whatever
cycles there are, and the walk marks exactly the known nodes that can be reached.
-/
import Mathlib

namespace Kuku.Theory.Reachability

open List

variable {α : Type} (successors : α → Option (List α))

def Known (node : α) : Prop := (successors node).isSome

def Step (node next : α) : Prop := ∃ nodes, successors node = some nodes ∧ next ∈ nodes

def Reaches : α → α → Prop := Relation.ReflTransGen (Step successors)

/-- What a walk from some nodes adds to the marks. -/
structure Extends (nodes : List α) (visited visited' : Finset α) : Prop where
  grows : visited ⊆ visited'
  reached : ∀ b ∈ visited', b ∈ visited ∨ Known successors b ∧ ∃ a ∈ nodes, Reaches successors a b
  closed : ∀ a ∈ visited', a ∉ visited → ∀ b, Step successors a b → Known successors b →
    b ∈ visited'
  known : ∀ a ∈ nodes, Known successors a → a ∈ visited'

variable {successors} {nodes : List α} {node : α} {visited visited' visited'' : Finset α}

theorem Extends.nil : Extends successors [] visited visited where
  grows := Finset.Subset.refl _
  reached _ member := .inl member
  closed _ member fresh := absurd member fresh
  known := nofun

theorem Extends.cons (first : Extends successors [node] visited visited')
    (rest : Extends successors nodes visited' visited'') :
    Extends successors (node :: nodes) visited visited'' where
  grows := first.grows.trans rest.grows
  reached b member := by
    obtain middle | ⟨isKnown, a, among, reaches⟩ := rest.reached b member
    · obtain before | ⟨isKnown, a, isNode, reaches⟩ := first.reached b middle
      · exact .inl before
      · rw [mem_singleton.mp isNode] at reaches
        exact .inr ⟨isKnown, node, mem_cons_self, reaches⟩
    · exact .inr ⟨isKnown, a, mem_cons_of_mem _ among, reaches⟩
  closed a member fresh b steps isKnown := by
    by_cases middle : a ∈ visited'
    · exact rest.grows (first.closed a middle fresh b steps isKnown)
    · exact rest.closed a member middle b steps isKnown
  known a among isKnown := by
    obtain rfl | among := mem_cons.mp among
    · exact rest.grows (first.known _ mem_cons_self isKnown)
    · exact rest.known a among isKnown

theorem Extends.mem_iff (walked : Extends successors [node] ∅ visited) {b : α} :
    b ∈ visited ↔ Known successors b ∧ Reaches successors node b := by
  constructor
  · intro member
    obtain before | ⟨isKnown, a, isNode, reaches⟩ := walked.reached b member
    · cases before
    · rw [mem_singleton.mp isNode] at reaches
      exact ⟨isKnown, reaches⟩
  · rintro ⟨isKnown, reaches⟩
    induction reaches with
    | refl => exact walked.known node mem_cons_self isKnown
    | @tail b c reaches steps ih =>
      have hasNext : Known successors b := by
        obtain ⟨nodes, isNodes, -⟩ := steps
        rw [Known, isNodes]
        rfl
      exact walked.closed b (ih hasNext) (Finset.notMem_empty b) c steps isKnown

/-! ## The walk -/

variable [DecidableEq α]

/-- The walk from a node, with calls nested at most so deep. -/
def visit (successors : α → Option (List α)) : Nat → α → Finset α → Option (Finset α)
  | 0, _, _ => none
  | calls + 1, node, visited =>
    if node ∈ visited then some visited
    else match successors node with
      | none => some visited
      | some next =>
        next.foldlM (fun visited node => visit successors calls node visited) (insert node visited)

/-- A node is marked, and then its successors are walked. -/
theorem Extends.enter {next : List α} (isNext : successors node = some next)
    (rest : Extends successors next (insert node visited) visited') :
    Extends successors [node] visited visited' where
  grows := (Finset.subset_insert node visited).trans rest.grows
  reached b member := by
    obtain before | ⟨isKnown, a, among, reaches⟩ := rest.reached b member
    · obtain rfl | before := Finset.mem_insert.mp before
      · exact .inr ⟨by rw [Known, isNext]; rfl, b, mem_cons_self, .refl⟩
      · exact .inl before
    · exact .inr ⟨isKnown, node, mem_cons_self, .head ⟨next, isNext, among⟩ reaches⟩
  closed a member fresh b steps isKnown := by
    by_cases isNode : a = node
    · obtain ⟨nodes, isNodes, among⟩ := steps
      rw [isNode, isNext] at isNodes
      cases isNodes
      exact rest.known b among isKnown
    · exact rest.closed a member
        (fun inside => (Finset.mem_insert.mp inside).elim isNode fresh) b steps isKnown
  known a among _ := by
    rw [mem_singleton.mp among]
    exact rest.grows (Finset.mem_insert_self node visited)

/-- **The walk ends when calls may be nested as deep as there are unmarked known nodes.** -/
theorem visit_extends {all : Finset α} (covers : ∀ a, Known successors a → a ∈ all) (calls : Nat)
    (node : α) (visited : Finset α) (enough : (all \ visited).card < calls) :
    ∃ visited', visit successors calls node visited = some visited' ∧
      Extends successors [node] visited visited' := by
  induction calls generalizing node visited with
  | zero => cases enough
  | succ calls ih =>
    have walk (next : List α) : ∀ visited : Finset α, (all \ visited).card < calls →
        ∃ visited', next.foldlM (fun visited node => visit successors calls node visited)
            visited = some visited' ∧ Extends successors next visited visited' := by
      induction next with
      | nil => exact fun visited _ => ⟨visited, rfl, .nil⟩
      | cons first rest ihRest =>
        intro visited enough
        obtain ⟨middle, isMiddle, early⟩ := ih first visited enough
        obtain ⟨visited', isEnd, late⟩ := ihRest middle
          ((Finset.card_le_card (Finset.sdiff_subset_sdiff le_rfl early.grows)).trans_lt enough)
        refine ⟨visited', ?_, early.cons late⟩
        rw [foldlM_cons, isMiddle]
        exact isEnd
    rw [visit]
    split_ifs with marked
    · refine ⟨visited, rfl, Finset.Subset.refl _, fun _ => .inl, fun _ => absurd, ?_⟩
      intro a isNode _
      rw [mem_singleton.mp isNode]
      exact marked
    · cases isNext : successors node with
      | none =>
        refine ⟨visited, rfl, Finset.Subset.refl _, fun _ => .inl, fun _ => absurd, ?_⟩
        intro a isNode isKnown
        rw [mem_singleton.mp isNode, Known, isNext] at isKnown
        cases isKnown
      | some next =>
        have isKnown : node ∈ all := covers node (by rw [Known, isNext]; rfl)
        have fewer : (all \ insert node visited).card < (all \ visited).card := by
          refine Finset.card_lt_card ⟨?_, fun within => ?_⟩
          · exact Finset.sdiff_subset_sdiff le_rfl (Finset.subset_insert node visited)
          · have fresh := within (Finset.mem_sdiff.mpr ⟨isKnown, marked⟩)
            exact (Finset.mem_sdiff.mp fresh).2 (Finset.mem_insert_self node visited)
        obtain ⟨visited', isEnd, rest⟩ := walk next (insert node visited) (by omega)
        exact ⟨visited', isEnd, .enter isNext rest⟩

/-- **The walk marks what is known and can be reached.** -/
theorem visit_reaches {all : Finset α} (covers : ∀ a, Known successors a → a ∈ all) (node : α) :
    ∃ visited, (∀ calls, all.card < calls → visit successors calls node ∅ = some visited) ∧
      ∀ b, b ∈ visited ↔ Known successors b ∧ Reaches successors node b := by
  have ends (calls : Nat) (enough : all.card < calls) :
      ∃ visited, visit successors calls node ∅ = some visited ∧
        ∀ b, b ∈ visited ↔ Known successors b ∧ Reaches successors node b := by
    obtain ⟨visited, isEnd, walked⟩ := visit_extends covers calls node ∅ (by
      rw [Finset.sdiff_empty]
      exact enough)
    exact ⟨visited, isEnd, fun b => walked.mem_iff⟩
  obtain ⟨visited, -, isMark⟩ := ends (all.card + 1) (Nat.lt_succ_self _)
  refine ⟨visited, fun calls enough => ?_, isMark⟩
  obtain ⟨other, isEnd, isSame⟩ := ends calls enough
  rw [isEnd]
  exact congrArg some (Finset.ext fun b => (isSame b).trans (isMark b).symm)

end Kuku.Theory.Reachability
