/-
# Sync.Merge -- the merge of markdown by line numbers

`merge_markdown` takes the lines of three texts by their index, a missing line being empty, and
joins what it chooses.  A line without its end fuses with what follows: that happens where one
side is cut short at such a line and the other grows beyond the base (`Fuses`), and nowhere
else (`whole_lines_iff`).

Texts are their bytes; in UTF-8 the byte of `\n` occurs in no other character.
-/
import Kuku.Sync.SyncError
import Kuku.Theory.Lines

namespace Kuku.Sync

open Kuku.Theory Kuku.Theory.Lines List Option Text

abbrev Plaintext := List UInt8

inductive MarkdownMergeOutcome where
  | merged (text : Plaintext)
  | conflict
  deriving DecidableEq

def isNewline (byte : UInt8) : Bool := byte == 10

def splitLines (text : Plaintext) : List Plaintext := lines isNewline text

def utf8OrConflict (bytes : Plaintext) : Except SyncError Plaintext :=
  match decodeUtf8 bytes with
  | some _ => .ok bytes
  | none => .error (.invalidArgument "markdown merge requires utf-8 content")

def lineAt (ls : List Plaintext) (index : Nat) : Plaintext := ls.getD index []

/-- The line that is pushed, if the three do not conflict. -/
def mergeLine (base localLine remote : Plaintext) : Option Plaintext :=
  if localLine = remote then some localLine
  else if localLine = base then some remote
  else if remote = base then some localLine
  else none

def mergeLines (base localLines remote : List Plaintext) : Option (List Plaintext) :=
  (List.range (max (max base.length localLines.length) remote.length)).mapM fun index =>
    mergeLine (lineAt base index) (lineAt localLines index) (lineAt remote index)

def mergeMarkdown (base localText remote : Plaintext) : Except SyncError MarkdownMergeOutcome := do
  if localText = remote then return .merged localText
  if base = localText then return .merged remote
  if base = remote then return .merged localText
  let base ← utf8OrConflict base
  let localText ← utf8OrConflict localText
  let remote ← utf8OrConflict remote
  match mergeLines (splitLines base) (splitLines localText) (splitLines remote) with
  | some pushed => return .merged pushed.flatten
  | none => return .conflict

/-! ## What the loop pushes -/

section Pushed

variable {base localLines remote pushed : List Plaintext} {i : Nat} {b l r p : Plaintext}

theorem mergeLine_comm : mergeLine b l r = mergeLine b r l := by
  unfold mergeLine
  grind

theorem mergeLine_cases (isPushed : mergeLine b l r = some p) :
    (l = r ∧ p = l) ∨ (l = b ∧ r ≠ b ∧ p = r) ∨ (r = b ∧ l ≠ b ∧ p = l) := by
  unfold mergeLine at isPushed
  grind

theorem mergeLines_comm : mergeLines base localLines remote = mergeLines base remote localLines := by
  unfold mergeLines
  rw [max_assoc, max_assoc, max_comm localLines.length]
  simp only [mergeLine_comm]

theorem map_of_mapM {f : Nat → Option Plaintext} {indices : List Nat}
    (mapped : indices.mapM f = some pushed) : indices.map f = pushed.map some := by
  induction indices generalizing pushed with
  | nil =>
    rw [mapM_nil] at mapped
    cases mapped
    rfl
  | cons index indices ih =>
    rw [mapM_cons] at mapped
    simp only [bind_eq_bind, bind_eq_some_iff, Option.pure_def, Option.some.injEq] at mapped
    obtain ⟨p, isFirst, rest, isRest, rfl⟩ := mapped
    rw [map_cons, map_cons, isFirst, ih isRest]

theorem lineAt_of_le {ls : List Plaintext} (short : ls.length ≤ i) : lineAt ls i = [] := by
  rw [lineAt, getD_eq_getElem?_getD, getElem?_eq_none short, getD_none]

/-- The pushed lines by their index; behind the last all lines are missing. -/
theorem mergeLine_pushed (merged : mergeLines base localLines remote = some pushed) (i : Nat) :
    mergeLine (lineAt base i) (lineAt localLines i) (lineAt remote i) = some (lineAt pushed i) := by
  have all := map_of_mapM merged
  have isLength := congrArg List.length all
  rw [length_map, length_map, length_range] at isLength
  by_cases inside : i < pushed.length
  · have atIndex := congrArg (fun ls => ls[i]?) all
    simp only [getElem?_map, getElem?_range (isLength ▸ inside), map_some,
      getElem?_eq_getElem inside, Option.some.injEq] at atIndex
    rw [atIndex, lineAt, getD_eq_getElem?_getD, getElem?_eq_getElem inside, getD_some]
  · rw [lineAt_of_le (by omega : base.length ≤ i), lineAt_of_le (by omega : localLines.length ≤ i),
      lineAt_of_le (by omega : remote.length ≤ i), lineAt_of_le (by omega : pushed.length ≤ i)]
    rfl

end Pushed

/-! ## Lines that are not whole -/

/-- One side is cut to a changed last line without its end, the other grows beyond the base. -/
def Fuses (base short long : List Plaintext) : Prop :=
  short.length ≤ base.length ∧ base.length < long.length ∧
    ∃ last, short.getLast? = some last ∧ IsOpen isNewline last ∧
      last ≠ lineAt base (short.length - 1)

/-- The line that fuses: the last of the one side and the first beyond the base of the other. -/
def fusedLine (base short long : List Plaintext) : Plaintext :=
  lineAt short (short.length - 1) ++ lineAt long base.length

/-- Every line of the text is a line of one of three. -/
def LinesOf (base localLines remote : List Plaintext) (text : Plaintext) : Prop :=
  ∀ line ∈ splitLines text, line ∈ base ∨ line ∈ localLines ∨ line ∈ remote

section Whole

variable {base localLines remote pushed : List Plaintext} {i j : Nat}

variable {ls : List Plaintext}

theorem lineAt_eq_nil (ruled : Ruled isNewline ls) : lineAt ls i = [] ↔ ls.length ≤ i := by
  constructor
  · intro isNil
    by_contra inside
    have among : lineAt ls i ∈ ls := by
      rw [lineAt, getD_eq_getElem?_getD, getElem?_eq_getElem (by omega), getD_some]
      exact getElem_mem _
    exact ruled.ne_nil among isNil
  · intro short
    rw [lineAt, getD_eq_getElem?_getD, getElem?_eq_none short, getD_none]

theorem lineAt_eq_getElem (inside : i < ls.length) : lineAt ls i = ls[i] := by
  rw [lineAt, getD_eq_getElem?_getD, getElem?_eq_getElem inside, getD_some]

theorem lineAt_mem (inside : i < ls.length) : lineAt ls i ∈ ls := by
  rw [lineAt, getD_eq_getElem?_getD, getElem?_eq_getElem inside, getD_some]
  exact getElem_mem _

/-- An open line that is pushed from one side is its last. -/
theorem length_of_open (ruled : Ruled isNewline ls) (isOpen : IsOpen isNewline (lineAt ls i)) :
    ls.length = i + 1 := by
  have inside : i < ls.length := by
    by_contra outside
    exact isOpen.1 ((lineAt_eq_nil ruled).mpr (by omega))
  by_contra more
  exact (ruled.closed_of_lt (i := i) (by omega)).not_open isOpen

/-- **Only the cut of one side before the growth of the other leaves an open line inside.** -/
theorem fuses_of_open (ruledBase : Ruled isNewline base) (ruledLocal : Ruled isNewline localLines)
    (ruledRemote : Ruled isNewline remote)
    (merged : mergeLines base localLines remote = some pushed) (less : i < j)
    (isOpen : IsOpen isNewline (lineAt pushed i)) (later : lineAt pushed j ≠ [])
    (isLocal : lineAt pushed i = lineAt localLines i) : Fuses base localLines remote := by
  have first := mergeLine_cases (mergeLine_pushed merged i)
  have second := mergeLine_cases (mergeLine_pushed merged j)
  rw [isLocal] at isOpen
  have isLast := length_of_open ruledLocal isOpen
  have noLocal : lineAt localLines j = [] := (lineAt_eq_nil ruledLocal).mpr (by omega)
  rw [noLocal] at second
  -- only the other side has a line here, and the base has none
  have isGrowth : lineAt base j = [] ∧ lineAt remote j ≠ [] := by
    rcases second with ⟨-, isNil⟩ | ⟨isBase, differs, isRemote⟩ | ⟨-, -, isNil⟩
    · exact absurd isNil later
    · exact ⟨isBase.symm, fun isNil => differs (isNil.trans isBase)⟩
    · exact absurd isNil later
  have baseShort : base.length ≤ j := (lineAt_eq_nil ruledBase).mp isGrowth.1
  have remoteLong : j < remote.length := by
    by_contra short
    exact isGrowth.2 ((lineAt_eq_nil ruledRemote).mpr (by omega))
  have closed : IsClosed isNewline (lineAt remote i) := ruledRemote.closed_of_lt (by omega)
  have differ : lineAt localLines i ≠ lineAt remote i := by
    intro same
    exact closed.not_open (same ▸ isOpen)
  have isCut : lineAt remote i = lineAt base i ∧ lineAt localLines i ≠ lineAt base i := by
    rcases first with ⟨same, -⟩ | ⟨-, -, isRemote⟩ | ⟨isBase, changed, -⟩
    · exact absurd same differ
    · exact absurd (isLocal.symm.trans isRemote) differ
    · exact ⟨isBase, changed⟩
  have inBase : i < base.length := by
    by_contra outside
    have isNil := (lineAt_eq_nil ruledBase).mpr (by omega : base.length ≤ i)
    exact closed.ne_nil (isCut.1.trans isNil)
  refine ⟨by omega, by omega, lineAt localLines i, ?_, isOpen, ?_⟩
  · rw [getLast?_eq_getElem?, isLast, lineAt, getD_eq_getElem?_getD, Nat.add_sub_cancel,
      getElem?_eq_getElem (by omega), getD_some]
  · rw [isLast, Nat.add_sub_cancel]
    exact isCut.2

theorem mem_of_pushed (ruledLocal : Ruled isNewline localLines)
    (ruledRemote : Ruled isNewline remote)
    (merged : mergeLines base localLines remote = some pushed) {line : Plaintext}
    (among : line ∈ pushed) (nonempty : line ≠ []) : line ∈ localLines ∨ line ∈ remote := by
  obtain ⟨i, inside, rfl⟩ := mem_iff_getElem.mp among
  have isAt : lineAt pushed i = pushed[i] := by
    rw [lineAt, getD_eq_getElem?_getD, getElem?_eq_getElem inside, getD_some]
  have fromSide : ∀ ls : List Plaintext, Ruled isNewline ls → pushed[i] = lineAt ls i →
      pushed[i] ∈ ls := by
    intro ls ruled isSide
    rw [isSide] at nonempty ⊢
    apply lineAt_mem
    by_contra outside
    exact nonempty ((lineAt_eq_nil ruled).mpr (by omega))
  have cases := mergeLine_cases (mergeLine_pushed merged i)
  rw [isAt] at cases
  rcases cases with ⟨-, isLocal⟩ | ⟨-, -, isRemote⟩ | ⟨-, -, isLocal⟩
  · exact .inl (fromSide _ ruledLocal isLocal)
  · exact .inr (fromSide _ ruledRemote isRemote)
  · exact .inl (fromSide _ ruledLocal isLocal)

/-- Where nothing fuses, the lines of the merged text are the pushed ones. -/
theorem linesOf_of_not_fuses (ruledBase : Ruled isNewline base)
    (ruledLocal : Ruled isNewline localLines) (ruledRemote : Ruled isNewline remote)
    (merged : mergeLines base localLines remote = some pushed)
    (notLocal : ¬ Fuses base localLines remote) (notRemote : ¬ Fuses base remote localLines) :
    LinesOf base localLines remote pushed.flatten := by
  have mem : ∀ {line}, line ∈ pushed → line ≠ [] → line ∈ localLines ∨ line ∈ remote :=
    mem_of_pushed ruledLocal ruledRemote merged
  have ruled : Ruled isNewline (pushed.filter fun line => line ≠ []) := by
    constructor
    · intro line among
      rw [mem_filter, decide_eq_true_eq] at among
      rcases mem among.1 among.2 with isLocal | isRemote
      · exact ruledLocal.line line isLocal
      · exact ruledRemote.line line isRemote
    · rw [pairwise_filter, pairwise_iff_getElem]
      intro i j inside inside' less nonempty nonempty'
      rw [decide_eq_true_eq] at nonempty nonempty'
      have at_ : ∀ n (h : n < pushed.length), lineAt pushed n = pushed[n] := by
        intro n h
        rw [lineAt, getD_eq_getElem?_getD, getElem?_eq_getElem h, getD_some]
      by_contra notClosed
      have isOpen : IsOpen isNewline (lineAt pushed i) := by
        rw [at_ i inside]
        rcases mem (getElem_mem inside) nonempty with isLocal | isRemote
        · exact (ruledLocal.line _ isLocal).resolve_left notClosed
        · exact (ruledRemote.line _ isRemote).resolve_left notClosed
      have later : lineAt pushed j ≠ [] := by rwa [at_ j inside']
      rcases mergeLine_cases (mergeLine_pushed merged i) with
        ⟨-, isLocal⟩ | ⟨-, -, isRemote⟩ | ⟨-, -, isLocal⟩
      · exact notLocal (fuses_of_open ruledBase ruledLocal ruledRemote merged less isOpen later
          isLocal)
      · exact notRemote (fuses_of_open ruledBase ruledRemote ruledLocal
          (mergeLines_comm.trans merged) less isOpen later isRemote)
      · exact notLocal (fuses_of_open ruledBase ruledLocal ruledRemote merged less isOpen later
          isLocal)
  have isFlatten : (pushed.filter fun line => line ≠ []).flatten = pushed.flatten :=
    flatten_filter_ne_nil
  intro line among
  rw [splitLines, ← isFlatten, lines_flatten ruled, mem_filter, decide_eq_true_eq] at among
  exact .inr (mem among.1 among.2)

/-- **Where one side is cut and the other grows, exactly the fused line can be a new one.** -/
theorem linesOf_iff_of_fuses (ruledBase : Ruled isNewline base)
    (ruledLocal : Ruled isNewline localLines) (ruledRemote : Ruled isNewline remote)
    (merged : mergeLines base localLines remote = some pushed)
    (fuses : Fuses base localLines remote) :
    LinesOf base localLines remote pushed.flatten ↔
      fusedLine base localLines remote ∈ base ∨ fusedLine base localLines remote ∈ localLines ∨
        fusedLine base localLines remote ∈ remote := by
  obtain ⟨isCut, grows, last, isLast, isOpen, isChanged⟩ := fuses
  have mem : ∀ {line}, line ∈ pushed → line ≠ [] → line ∈ localLines ∨ line ∈ remote :=
    mem_of_pushed ruledLocal ruledRemote merged
  have cases := fun i => mergeLine_cases (mergeLine_pushed merged i)
  have some : localLines ≠ [] := by
    rintro rfl
    exact nomatch isLast
  have positive := length_pos_iff.mpr some
  have isLength : pushed.length = remote.length := by
    have lengths := congrArg List.length (map_of_mapM merged)
    rw [length_map, length_map, length_range] at lengths
    omega
  have atLast : lineAt localLines (localLines.length - 1) = last := by
    rw [lineAt, getD_eq_getElem?_getD, ← getLast?_eq_getElem?, isLast, getD_some]
  have remoteClosed : ∀ i, i + 1 < remote.length → IsClosed isNewline (lineAt remote i) :=
    fun i before => ruledRemote.closed_of_lt before
  -- the pushed lines: closed ones, the cut line, nothing, and the growth
  have front : ∀ i, i + 1 < localLines.length → IsClosed isNewline (lineAt pushed i) := by
    intro i before
    rcases cases i with ⟨-, isIt⟩ | ⟨-, -, isIt⟩ | ⟨-, -, isIt⟩
    · exact isIt ▸ ruledLocal.closed_of_lt before
    · exact isIt ▸ remoteClosed i (by omega)
    · exact isIt ▸ ruledLocal.closed_of_lt before
  have cut : lineAt pushed (localLines.length - 1) = last := by
    have closed := remoteClosed (localLines.length - 1) (by omega)
    rcases cases (localLines.length - 1) with ⟨same, -⟩ | ⟨isBase, -⟩ | ⟨-, -, isIt⟩
    · rw [← same, atLast] at closed
      exact absurd isOpen closed.not_open
    · exact absurd (atLast.symm.trans isBase) isChanged
    · exact isIt.trans atLast
  have gap : ∀ i, localLines.length ≤ i → i < base.length → lineAt pushed i = [] := by
    intro i behind before
    have noLocal : lineAt localLines i = [] := lineAt_of_le behind
    have isBase : lineAt base i ≠ [] := fun isNil =>
      absurd ((lineAt_eq_nil ruledBase).mp isNil) (by omega)
    rcases cases i with ⟨-, isIt⟩ | ⟨same, -⟩ | ⟨-, -, isIt⟩
    · exact isIt.trans noLocal
    · exact absurd (same.symm.trans noLocal) isBase
    · exact isIt.trans noLocal
  have growth : ∀ i, base.length ≤ i → i < remote.length → lineAt pushed i = lineAt remote i := by
    intro i behind before
    have noLocal : lineAt localLines i = [] := lineAt_of_le (by omega)
    have noBase : lineAt base i = [] := lineAt_of_le behind
    have isRemote : lineAt remote i ≠ [] := fun isNil =>
      absurd ((lineAt_eq_nil ruledRemote).mp isNil) (by omega)
    rcases cases i with ⟨same, -⟩ | ⟨-, -, isIt⟩ | ⟨same, -⟩
    · exact absurd (same.symm.trans noLocal) isRemote
    · exact isIt
    · exact absurd (same.trans noBase) isRemote
  have isJoined : pushed.flatten = (pushed.take (localLines.length - 1) ++
      fusedLine base localLines remote :: remote.drop (base.length + 1)).flatten := by
    have isGap : ((pushed.drop localLines.length).take (base.length - localLines.length)).flatten =
        [] := by
      rw [flatten_eq_nil_iff]
      intro line among
      obtain ⟨i, inside, rfl⟩ := mem_iff_getElem.mp among
      rw [length_take, length_drop] at inside
      rw [getElem_take, getElem_drop, ← lineAt_eq_getElem (by omega)]
      exact gap _ (by omega) (by omega)
    have isGrowth : pushed.drop base.length = remote.drop base.length := by
      apply ext_getElem (by rw [length_drop, length_drop, isLength])
      intro i inside inside'
      rw [length_drop] at inside inside'
      rw [getElem_drop, getElem_drop, ← lineAt_eq_getElem (by omega),
        ← lineAt_eq_getElem (by omega)]
      exact growth _ (by omega) (by omega)
    have isRest : (pushed.drop localLines.length).flatten = (remote.drop base.length).flatten := by
      rw [← take_append_drop (base.length - localLines.length)
        (pushed.drop localLines.length), flatten_append, isGap, drop_drop, nil_append,
        Nat.add_sub_cancel' isCut, isGrowth]
    have isLine : (pushed.drop (localLines.length - 1)) =
        last :: pushed.drop localLines.length := by
      rw [drop_eq_getElem_cons (by omega), Nat.sub_add_cancel positive,
        ← lineAt_eq_getElem (by omega), cut]
    have isFirst : remote.drop base.length =
        lineAt remote base.length :: remote.drop (base.length + 1) := by
      rw [drop_eq_getElem_cons grows, lineAt_eq_getElem grows]
    calc pushed.flatten
        = (pushed.take (localLines.length - 1)).flatten ++
            (pushed.drop (localLines.length - 1)).flatten := by
          rw [← flatten_append, take_append_drop]
      _ = (pushed.take (localLines.length - 1)).flatten ++
            (last ++ (lineAt remote base.length ++ (remote.drop (base.length + 1)).flatten)) := by
          rw [isLine, flatten_cons, isRest, isFirst, flatten_cons]
      _ = _ := by
          rw [flatten_append, flatten_cons, fusedLine, atLast, append_assoc]
  have isLine : (IsClosed isNewline (lineAt remote base.length) →
        IsClosed isNewline (last ++ lineAt remote base.length)) ∧
      (IsOpen isNewline (lineAt remote base.length) →
        IsOpen isNewline (last ++ lineAt remote base.length)) := line_of_open_append isOpen
  have beyond : lineAt remote base.length ∈ remote := lineAt_mem grows
  have ruled : Ruled isNewline (pushed.take (localLines.length - 1) ++
      fusedLine base localLines remote :: remote.drop (base.length + 1)) := by
    have frontClosed : ∀ line ∈ pushed.take (localLines.length - 1), IsClosed isNewline line := by
      intro line among
      obtain ⟨i, inside, rfl⟩ := mem_iff_getElem.mp among
      rw [length_take] at inside
      rw [getElem_take, ← lineAt_eq_getElem (by omega)]
      exact front i (by omega)
    have fusedIs : IsClosed isNewline (fusedLine base localLines remote) ∨
        IsOpen isNewline (fusedLine base localLines remote) := by
      rw [fusedLine, atLast]
      exact (ruledRemote.line _ beyond).imp isLine.1 isLine.2
    constructor
    · intro line among
      rcases mem_append.mp among with isFront | isBack
      · exact .inl (frontClosed line isFront)
      · rcases mem_cons.mp isBack with rfl | isGrowth
        · exact fusedIs
        · exact ruledRemote.line line (mem_of_mem_drop isGrowth)
    · rw [pairwise_append, pairwise_cons]
      refine ⟨?_, ⟨?_, ruledRemote.closed.sublist (drop_sublist _ _)⟩, ?_⟩
      · exact pairwise_of_forall_mem_list fun line among _ _ => frontClosed line among
      · intro line isGrowth
        have more := length_pos_of_mem isGrowth
        rw [length_drop] at more
        rw [fusedLine, atLast]
        exact isLine.1 (remoteClosed base.length (by omega))
      · exact fun line isFront _ _ => frontClosed line isFront
  rw [LinesOf, splitLines, isJoined, lines_flatten ruled]
  constructor
  · intro all
    exact all _ (by simp)
  · intro isFused line among
    rcases mem_append.mp among with isFront | isBack
    · have closed : line ≠ [] := ruled.ne_nil among
      exact .inr (mem (mem_of_mem_take isFront) closed)
    · rcases mem_cons.mp isBack with rfl | isGrowth
      · exact isFused
      · exact .inr (.inr (mem_of_mem_drop isGrowth))

end Whole

/-! ## The merged text -/

/-- The text is joined from lines by their index; where exactly one side differs from the base,
from its line. -/
def Contributes (base localLines remote : List Plaintext) (text : Plaintext) : Prop :=
  ∃ pushed : List Plaintext, pushed.flatten = text ∧ ∀ i,
    (lineAt localLines i ≠ lineAt base i → lineAt remote i = lineAt base i →
      lineAt pushed i = lineAt localLines i) ∧
    (lineAt remote i ≠ lineAt base i → lineAt localLines i = lineAt base i →
      lineAt pushed i = lineAt remote i)

def WholeLines (base localText remote text : Plaintext) : Prop :=
  LinesOf (splitLines base) (splitLines localText) (splitLines remote) text ∧
    Contributes (splitLines base) (splitLines localText) (splitLines remote) text

/-- The line that fuses, if one does, is a line of the three texts. -/
def FusesToLine (base short long : List Plaintext) : Prop :=
  Fuses base short long → fusedLine base short long ∈ base ∨ fusedLine base short long ∈ short ∨
    fusedLine base short long ∈ long

theorem mergeMarkdown_merged {base localText remote text : Plaintext}
    (merged : mergeMarkdown base localText remote = .ok (.merged text)) :
    (localText = remote ∧ text = localText) ∨ (base = localText ∧ text = remote) ∨
      (base = remote ∧ text = localText) ∨
      ∃ pushed, mergeLines (splitLines base) (splitLines localText) (splitLines remote) =
        some pushed ∧ text = pushed.flatten := by
  have utf8 : ∀ {bytes read : Plaintext}, utf8OrConflict bytes = .ok read → read = bytes := by
    intro bytes read isRead
    unfold utf8OrConflict at isRead
    split at isRead
    · exact (Except.ok.inj isRead).symm
    · exact nomatch isRead
  unfold mergeMarkdown at merged
  split_ifs at merged with sameSides sameLocal sameRemote
  · exact .inl ⟨sameSides, (MarkdownMergeOutcome.merged.inj (Except.ok.inj merged)).symm⟩
  · exact .inr (.inl ⟨sameLocal, (MarkdownMergeOutcome.merged.inj (Except.ok.inj merged)).symm⟩)
  · exact .inr (.inr (.inl
      ⟨sameRemote, (MarkdownMergeOutcome.merged.inj (Except.ok.inj merged)).symm⟩))
  · cases isBase : utf8OrConflict base with
    | error e => simp [isBase, bind, Except.bind] at merged
    | ok baseText =>
      cases isLocal : utf8OrConflict localText with
      | error e => simp [isBase, isLocal, bind, Except.bind] at merged
      | ok localRead =>
        cases isRemote : utf8OrConflict remote with
        | error e => simp [isBase, isLocal, isRemote, bind, Except.bind] at merged
        | ok remoteRead =>
          simp only [isBase, isLocal, isRemote, bind, Except.bind] at merged
          rw [utf8 isBase, utf8 isLocal, utf8 isRemote] at merged
          split at merged
          · rename_i pushed isPushed
            exact .inr (.inr (.inr ⟨pushed, isPushed,
              (MarkdownMergeOutcome.merged.inj (Except.ok.inj merged)).symm⟩))
          · exact nomatch merged

section Outcome

variable {base localLines remote : List Plaintext}

/-- Equal sides, or a side equal to the base, leave nothing to fuse. -/
theorem Fuses.apart (fuses : Fuses base localLines remote) :
    base ≠ localLines ∧ base ≠ remote ∧ localLines ≠ remote := by
  obtain ⟨isCut, grows, last, isLast, -, isChanged⟩ := fuses
  refine ⟨?_, ?_, ?_⟩
  · rintro rfl
    apply isChanged
    rw [lineAt, getD_eq_getElem?_getD, ← getLast?_eq_getElem?, isLast, getD_some]
  · rintro rfl
    omega
  · rintro rfl
    omega

theorem contributes_of_merged {pushed : List Plaintext}
    (merged : mergeLines base localLines remote = some pushed) :
    Contributes base localLines remote pushed.flatten := by
  refine ⟨pushed, rfl, fun i => ⟨?_, ?_⟩⟩
  · intro changed isBase
    rcases mergeLine_cases (mergeLine_pushed merged i) with
      ⟨-, isIt⟩ | ⟨same, -⟩ | ⟨-, -, isIt⟩
    · exact isIt
    · exact absurd same changed
    · exact isIt
  · intro changed isBase
    rcases mergeLine_cases (mergeLine_pushed merged i) with
      ⟨same, isIt⟩ | ⟨-, -, isIt⟩ | ⟨same, -⟩
    · exact isIt.trans same
    · exact isIt
    · exact absurd same changed

/-- **A merged text is made of whole lines exactly if no new line fuses in it.** -/
theorem whole_lines_iff (base localText remote text : Plaintext)
    (merged : mergeMarkdown base localText remote = .ok (.merged text)) :
    WholeLines base localText remote text ↔
      FusesToLine (splitLines base) (splitLines localText) (splitLines remote) ∧
        FusesToLine (splitLines base) (splitLines remote) (splitLines localText) := by
  have flat : ∀ text : Plaintext, (splitLines text).flatten = text := flatten_lines
  rcases mergeMarkdown_merged merged with
    ⟨rfl, rfl⟩ | ⟨rfl, rfl⟩ | ⟨rfl, rfl⟩ | ⟨pushed, isPushed, rfl⟩
  · refine iff_of_true ⟨fun line among => .inr (.inl among), splitLines text, flat text, ?_⟩ ?_
    · exact fun i => ⟨fun _ _ => rfl, fun _ _ => rfl⟩
    · exact ⟨fun fuses => absurd rfl fuses.apart.2.2, fun fuses => absurd rfl fuses.apart.2.2⟩
  · refine iff_of_true ⟨fun line among => .inr (.inr among), splitLines text, flat text, ?_⟩ ?_
    · exact fun i => ⟨fun changed _ => absurd rfl changed, fun _ _ => rfl⟩
    · exact ⟨fun fuses => absurd rfl fuses.apart.1, fun fuses => absurd rfl fuses.apart.2.1⟩
  · refine iff_of_true ⟨fun line among => .inr (.inl among), splitLines text, flat text, ?_⟩ ?_
    · exact fun i => ⟨fun _ _ => rfl, fun changed _ => absurd rfl changed⟩
    · exact ⟨fun fuses => absurd rfl fuses.apart.2.1, fun fuses => absurd rfl fuses.apart.1⟩
  · have ruled := fun text : Plaintext => (ruled_lines text : Ruled isNewline (splitLines text))
    have contributes := contributes_of_merged isPushed
    by_cases fusesLocal : Fuses (splitLines base) (splitLines localText) (splitLines remote)
    · have notRemote : ¬ Fuses (splitLines base) (splitLines remote) (splitLines localText) := by
        intro fusesRemote
        have := fusesLocal.1
        have := fusesRemote.2.1
        omega
      have iff := linesOf_iff_of_fuses (ruled base) (ruled localText) (ruled remote) isPushed
        fusesLocal
      constructor
      · exact fun whole => ⟨fun _ => iff.mp whole.1, fun fuses => absurd fuses notRemote⟩
      · exact fun lines => ⟨iff.mpr (lines.1 fusesLocal), contributes⟩
    · by_cases fusesRemote : Fuses (splitLines base) (splitLines remote) (splitLines localText)
      · have iff := linesOf_iff_of_fuses (ruled base) (ruled remote) (ruled localText)
          (mergeLines_comm.trans isPushed) fusesRemote
        have swap : LinesOf (splitLines base) (splitLines localText) (splitLines remote)
            pushed.flatten ↔ LinesOf (splitLines base) (splitLines remote) (splitLines localText)
            pushed.flatten := by
          unfold LinesOf
          simp only [or_comm (a := _ ∈ splitLines localText)]
        constructor
        · exact fun whole =>
            ⟨fun fuses => absurd fuses fusesLocal, fun _ => iff.mp (swap.mp whole.1)⟩
        · exact fun lines => ⟨swap.mpr (iff.mpr (lines.2 fusesRemote)), contributes⟩
      · have lines := linesOf_of_not_fuses (ruled base) (ruled localText) (ruled remote) isPushed
          fusesLocal fusesRemote
        exact iff_of_true ⟨lines, contributes⟩
          ⟨fun fuses => absurd fuses fusesLocal, fun fuses => absurd fuses fusesRemote⟩

end Outcome

/-- Edits of two different lines. -/
theorem whole_lines_edits : WholeLines (utf8 "a\nb\n") (utf8 "A\nb\n")
    (utf8 "a\nB\n") (utf8 "A\nB\n") := by
  refine (whole_lines_iff _ _ _ _ (by decide +kernel)).mpr ⟨?_, ?_⟩
  · exact fun fuses => absurd fuses.2.1 (by decide)
  · exact fun fuses => absurd fuses.2.1 (by decide)

/-- One side drops the last end of line, the other appends: `a` and `b` become `ab`. -/
theorem not_whole_lines : ¬ ∀ base localText remote text,
    mergeMarkdown base localText remote = .ok (.merged text) →
    WholeLines base localText remote text := by
  intro claim
  have whole := claim (utf8 "a\n") (utf8 "a") (utf8 "a\nb") (utf8 "ab") (by decide +kernel)
  have isLine := whole.1 (utf8 "ab") (by decide +kernel)
  exact absurd isLine (by decide +kernel)

/-! ## The order of the two sides, and the shortcuts -/

section Sides

variable {base localText remote text : Plaintext} {ls : List Plaintext} {n : Nat}

/-- What `merge_markdown` does behind its three shortcuts. -/
def mergeByLines (base localText remote : Plaintext) : Except SyncError MarkdownMergeOutcome := do
  let base ← utf8OrConflict base
  let localText ← utf8OrConflict localText
  let remote ← utf8OrConflict remote
  match mergeLines (splitLines base) (splitLines localText) (splitLines remote) with
  | some pushed => return .merged pushed.flatten
  | none => return .conflict

def IsUtf8 (text : Plaintext) : Prop := (decodeUtf8 text).isSome

instance : Decidable (IsUtf8 text) := inferInstanceAs (Decidable (_ = true))

theorem utf8OrConflict_of_isUtf8 (isUtf8 : IsUtf8 text) : utf8OrConflict text = .ok text := by
  obtain ⟨decoded, isDecoded⟩ := isSome_iff_exists.mp isUtf8
  rw [utf8OrConflict, isDecoded]

theorem utf8OrConflict_of_not_isUtf8 (notUtf8 : ¬ IsUtf8 text) :
    utf8OrConflict text = .error (.invalidArgument "markdown merge requires utf-8 content") := by
  rw [IsUtf8, not_isSome_iff_eq_none] at notUtf8
  rw [utf8OrConflict, notUtf8]

theorem mergeByLines_of_isUtf8 (isBase : IsUtf8 base) (isLocal : IsUtf8 localText)
    (isRemote : IsUtf8 remote) : mergeByLines base localText remote =
      .ok (match mergeLines (splitLines base) (splitLines localText) (splitLines remote) with
        | some pushed => .merged pushed.flatten
        | none => .conflict) := by
  rw [mergeByLines, utf8OrConflict_of_isUtf8 isBase, utf8OrConflict_of_isUtf8 isLocal,
    utf8OrConflict_of_isUtf8 isRemote]
  dsimp only [bind, Except.bind, pure, Except.pure]
  cases mergeLines (splitLines base) (splitLines localText) (splitLines remote) <;> rfl

/-- One text that is no UTF-8 is refused in any place, with the same error. -/
theorem mergeByLines_of_not_isUtf8 (notUtf8 : ¬ (IsUtf8 base ∧ IsUtf8 localText ∧ IsUtf8 remote)) :
    mergeByLines base localText remote =
      .error (.invalidArgument "markdown merge requires utf-8 content") := by
  unfold mergeByLines
  by_cases isBase : IsUtf8 base
  · rw [utf8OrConflict_of_isUtf8 isBase]
    by_cases isLocal : IsUtf8 localText
    · rw [utf8OrConflict_of_isUtf8 isLocal,
        utf8OrConflict_of_not_isUtf8 fun isRemote => notUtf8 ⟨isBase, isLocal, isRemote⟩]
      rfl
    · rw [utf8OrConflict_of_not_isUtf8 isLocal]
      rfl
  · rw [utf8OrConflict_of_not_isUtf8 isBase]
    rfl

theorem mergeByLines_comm : mergeByLines base localText remote = mergeByLines base remote localText := by
  by_cases areUtf8 : IsUtf8 base ∧ IsUtf8 localText ∧ IsUtf8 remote
  · obtain ⟨isBase, isLocal, isRemote⟩ := areUtf8
    rw [mergeByLines_of_isUtf8 isBase isLocal isRemote,
      mergeByLines_of_isUtf8 isBase isRemote isLocal, mergeLines_comm]
  · rw [mergeByLines_of_not_isUtf8 areUtf8,
      mergeByLines_of_not_isUtf8 fun swapped => areUtf8 ⟨swapped.1, swapped.2.2, swapped.2.1⟩]

/-- The lines by their index, and empty lines behind them, are the text. -/
theorem flatten_lineAt (covers : ls.length ≤ n) :
    ((List.range n).map (lineAt ls)).flatten = ls.flatten := by
  have whole : (List.range ls.length).map (lineAt ls) = ls := by
    refine ext_getElem (by simp) fun i inside inside' => ?_
    rw [getElem_map, getElem_range, lineAt_eq_getElem inside']
  obtain ⟨more, rfl⟩ := Nat.exists_eq_add_of_le covers
  rw [range_add, map_append, whole, flatten_append, List.map_map]
  have isEmpty : ((List.range more).map (lineAt ls ∘ (ls.length + ·))).flatten = [] := by
    rw [flatten_eq_nil_iff]
    intro line among
    obtain ⟨i, -, rfl⟩ := List.mem_map.mp among
    exact lineAt_of_le (Nat.le_add_right _ _)
  rw [isEmpty, append_nil]

/-- Where every line is decided for one side, the loop pushes the text of that side. -/
theorem mergeByLines_of_chosen (isBase : IsUtf8 base) (isLocal : IsUtf8 localText)
    (isRemote : IsUtf8 remote)
    (covers : (splitLines text).length ≤
      max (max (splitLines base).length (splitLines localText).length) (splitLines remote).length)
    (chosen : ∀ i, mergeLine (lineAt (splitLines base) i) (lineAt (splitLines localText) i)
      (lineAt (splitLines remote) i) = some (lineAt (splitLines text) i)) :
    mergeByLines base localText remote = .ok (.merged text) := by
  rw [mergeByLines_of_isUtf8 isBase isLocal isRemote, mergeLines]
  simp only [chosen]
  have pushed : (List.range (max (max (splitLines base).length (splitLines localText).length)
      (splitLines remote).length)).mapM (fun i => some (lineAt (splitLines text) i)) =
      some ((List.range (max (max (splitLines base).length (splitLines localText).length)
        (splitLines remote).length)).map (lineAt (splitLines text))) :=
    mapM_pure
  rw [pushed]
  exact congrArg (fun text => Except.ok (MarkdownMergeOutcome.merged text))
    ((flatten_lineAt covers).trans (flatten_lines text))

/-- **The two sides may change places, and a shortcut is what the loop would come to.** -/
theorem merge_symmetric (base localText remote : Plaintext) :
    mergeMarkdown base localText remote = mergeMarkdown base remote localText ∧
    (IsUtf8 base → IsUtf8 localText → IsUtf8 remote →
      localText = remote ∨ base = localText ∨ base = remote →
      mergeByLines base localText remote = mergeMarkdown base localText remote) := by
  have behind : ∀ localText remote, localText ≠ remote → base ≠ localText → base ≠ remote →
      mergeMarkdown base localText remote = mergeByLines base localText remote := by
    intro localText remote sides isLocal isRemote
    rw [mergeMarkdown, if_neg sides, if_neg isLocal, if_neg isRemote]
    rfl
  constructor
  · by_cases sides : localText = remote
    · rw [sides]
    · by_cases isLocal : base = localText
      · subst isLocal
        rw [mergeMarkdown, mergeMarkdown, if_neg sides, if_pos rfl, if_neg (Ne.symm sides),
          if_neg sides, if_pos rfl]
      · by_cases isRemote : base = remote
        · subst isRemote
          rw [mergeMarkdown, mergeMarkdown, if_neg sides, if_neg isLocal, if_pos rfl,
            if_neg (Ne.symm sides), if_pos rfl]
        · rw [behind _ _ sides isLocal isRemote, behind _ _ (Ne.symm sides) isRemote isLocal,
            mergeByLines_comm]
  · intro utf8Base utf8Local utf8Remote shortcut
    by_cases sides : localText = remote
    · subst sides
      have merged : mergeMarkdown base localText localText = .ok (.merged localText) := by
        rw [mergeMarkdown, if_pos rfl]
        rfl
      rw [merged]
      exact mergeByLines_of_chosen utf8Base utf8Local utf8Remote (le_max_right _ _)
        fun i => if_pos rfl
    · rcases shortcut with same | rfl | rfl
      · exact absurd same sides
      · have merged : mergeMarkdown base base remote = .ok (.merged remote) := by
          rw [mergeMarkdown, if_neg sides, if_pos rfl]
          rfl
        rw [merged]
        refine mergeByLines_of_chosen utf8Base utf8Local utf8Remote (le_max_right _ _) fun i => ?_
        unfold mergeLine
        grind
      · have merged : mergeMarkdown base localText base = .ok (.merged localText) := by
          rw [mergeMarkdown, if_neg sides, if_neg (Ne.symm sides), if_pos rfl]
          rfl
        rw [merged]
        refine mergeByLines_of_chosen utf8Base utf8Local utf8Remote ?_ fun i => ?_
        · exact (le_max_right _ _).trans (le_max_left _ _)
        · unfold mergeLine
          grind

end Sides

/-- A text of three lines that one side has not touched. -/
theorem merge_symmetric_untouched :
    mergeByLines (utf8 "a\nb\nc") (utf8 "a\nb\nc") (utf8 "a\n") =
      mergeMarkdown (utf8 "a\nb\nc") (utf8 "a\nb\nc") (utf8 "a\n") :=
  (merge_symmetric _ _ _).2 (by decide +kernel) (by decide +kernel) (by decide +kernel)
    (.inr (.inl rfl))

end Kuku.Sync
