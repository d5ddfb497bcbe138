/-
# Theory.Outline -- the stack of headings over a document

A heading pops the stack until it is shorter than its level, and is pushed: `stack` is what a
reader of the headings holds at their end.  It is not always the list of the headings around the
last one (`enclosing`); `paths_eq_lineages_iff` says by the levels when it is.

Of two readers one skips some headings and may name the others differently; `Clear` says by the
headings alone when they hold the same stack at each heading that is not skipped
(`agree_iff_clear`).
-/
import Mathlib

namespace Kuku.Theory.Outline

open List Function

variable {ι α : Type}

/-! ## Each heading after those before it -/

def Each (P : List ι → ι → Prop) (hs : List ι) : Prop :=
  ∀ pre h post, hs = pre ++ h :: post → P pre h

variable {P : List ι → ι → Prop}

theorem each_nil : Each P [] := by
  intro pre h post isNil
  simp at isNil

theorem each_concat {hs : List ι} {h : ι} : Each P (hs ++ [h]) ↔ Each P hs ∧ P hs h := by
  constructor
  · intro each
    refine ⟨?_, each hs h [] rfl⟩
    rintro pre x post rfl
    exact each pre x (post ++ [h]) (by simp)
  · rintro ⟨each, last⟩ pre x post split
    rcases eq_nil_or_concat post with rfl | ⟨post, y, rfl⟩
    · obtain ⟨rfl, same⟩ := append_inj' split rfl
      exact (List.cons.inj same).1 ▸ last
    · have apart : hs ++ [h] = (pre ++ x :: post) ++ [y] := by simpa using split
      exact each pre x post (append_inj' apart rfl).1

theorem Each.of_append {hs more : List ι} (each : Each P (hs ++ more)) :
    Each P hs := by
  rintro pre h post rfl
  exact each pre h (post ++ more) (by simp)

theorem Each.of_mem {hs : List ι} {h : ι} (each : Each P hs) (among : h ∈ hs) : ∃ pre, P pre h := by
  obtain ⟨pre, post, isSplit⟩ := append_of_mem among
  exact ⟨pre, each pre h post isSplit⟩

/-! ## One reader -/

section Stack

variable (level : ι → Nat) (label : ι → α)

/-- What stands at the level of the heading or deeper is popped. -/
def push (stack : List α) (h : ι) : List α := stack.take (level h - 1) ++ [label h]

def stack (hs : List ι) : List α := hs.foldl (push level label) []

/-- The length of the stack, which the levels decide. -/
def depth (hs : List ι) : Nat := hs.foldl (fun d h => min (level h - 1) d + 1) 0

/-- The stacks after each heading. -/
def paths (hs : List ι) : List (List α) := hs.inits.tail.map (stack level label)

variable {level label} {hs : List ι} {h : ι}

@[simp] theorem stack_concat : stack level label (hs ++ [h]) =
    push level label (stack level label hs) h := by
  simp [stack]

@[simp] theorem depth_concat :
    depth level (hs ++ [h]) = min (level h - 1) (depth level hs) + 1 := by
  simp [depth]

@[simp] theorem paths_nil : paths level label ([] : List ι) = [] := rfl

@[simp] theorem paths_concat : paths level label (hs ++ [h]) =
    paths level label hs ++ [push level label (stack level label hs) h] := by
  have nonempty : hs.inits ≠ [] := by cases hs <;> simp
  simp [paths, inits_append, tail_append_of_ne_nil nonempty]

theorem length_stack : (stack level label hs).length = depth level hs := by
  induction hs using List.reverseRecOn with
  | nil => rfl
  | append_singleton hs h ih => simp [push, ih]

theorem stack_map {κ : Type} {f : κ → ι} {ks : List κ} :
    stack level label (ks.map f) = stack (level ∘ f) (label ∘ f) ks := by
  simp only [stack, foldl_map]
  rfl

/-- Only levels and labels matter. -/
theorem stack_congr {κ : Type} {level' : κ → Nat} {label' : κ → α} {ks : List κ}
    (same : hs.map (fun h => (level h, label h)) = ks.map fun k => (level' k, label' k)) :
    stack level label hs = stack level' label' ks := by
  have pairs := congrArg (stack Prod.fst Prod.snd) same
  rw [stack_map, stack_map] at pairs
  exact pairs

theorem paths_congr {κ : Type} {level' : κ → Nat} {label' : κ → α} {ks : List κ}
    (same : hs.map (fun h => (level h, label h)) = ks.map fun k => (level' k, label' k)) :
    paths level label hs = paths level' label' ks := by
  induction hs using List.reverseRecOn generalizing ks with
  | nil =>
    rw [map_nil, eq_comm, map_eq_nil_iff] at same
    rw [same, paths_nil, paths_nil]
  | append_singleton hs h ih =>
    rcases eq_nil_or_concat ks with rfl | ⟨ks, k, rfl⟩
    · simp at same
    · have whole := stack_congr same
      rw [concat_eq_append] at *
      rw [map_append, map_append] at same
      rw [stack_concat, stack_concat] at whole
      rw [paths_concat, paths_concat, ih (append_inj' same rfl).1, whole]

theorem length_paths : (paths level label hs).length = hs.length := by
  induction hs using List.reverseRecOn with
  | nil => rfl
  | append_singleton hs h ih => simp [ih]

theorem paths_append_prefix {more : List ι} :
    paths level label hs <+: paths level label (hs ++ more) := by
  induction more using List.reverseRecOn with
  | nil => rw [append_nil]
  | append_singleton more h ih =>
    rw [← append_assoc, paths_concat]
    exact ih.trans (prefix_append _ _)

theorem mem_stack {a : α} (among : a ∈ stack level label hs) : ∃ h ∈ hs, label h = a := by
  induction hs using List.reverseRecOn with
  | nil => exact nomatch among
  | append_singleton hs h ih =>
    rw [stack_concat, push, mem_append, mem_singleton] at among
    rcases among with old | rfl
    · obtain ⟨x, isIn, isLabel⟩ := ih (mem_of_mem_take old)
      exact ⟨x, mem_append_left _ isIn, isLabel⟩
    · exact ⟨h, mem_append_right _ (mem_singleton_self h), rfl⟩

end Stack

/-! ## The headings around a heading -/

section Enclosing

variable {level : ι → Nat} {label : ι → α} {hs : List ι} {h : ι}

/-- The headings that are open at the end: no later one stands as high as they do. -/
@[grind =] def enclosing (level : ι → Nat) : List ι → List ι
  | [] => []
  | h :: rest =>
    if ∀ x ∈ rest, level h < level x then h :: enclosing level rest else enclosing level rest

/-- The open headings after each heading. -/
def lineages (level : ι → Nat) (label : ι → α) (hs : List ι) : List (List α) :=
  hs.inits.tail.map fun upTo => (enclosing level upTo).map label

/-- A heading is deeper than the one before it, or no level is left out above it. -/
def Nested (level : ι → Nat) (pre : List ι) (h : ι) : Prop :=
  (∀ x ∈ pre.getLast?, level x < level h) ∨ (enclosing level (pre ++ [h])).length = level h

instance {pre : List ι} : Decidable (Nested level pre h) := inferInstanceAs (Decidable (_ ∨ _))

/-- A heading closes those that stand as high or deeper. -/
theorem enclosing_concat : enclosing level (hs ++ [h]) =
    (enclosing level hs).filter (fun x => level x < level h) ++ [h] := by
  induction hs with
  | nil => simp [enclosing]
  | cons x rest ih =>
    have split : (∀ y ∈ rest ++ [h], level x < level y) ↔
        (∀ y ∈ rest, level x < level y) ∧ level x < level h := by
      simp [or_imp, forall_and]
    rw [cons_append, enclosing, enclosing, ih, if_congr split rfl rfl]
    by_cases isOpen : ∀ y ∈ rest, level x < level y
    · by_cases above : level x < level h
      · rw [if_pos ⟨isOpen, above⟩, if_pos isOpen, filter_cons_of_pos (by simpa using above)]
        rfl
      · rw [if_neg fun both => above both.2, if_pos isOpen,
          filter_cons_of_neg (by simpa using above)]
    · rw [if_neg fun both => isOpen both.1, if_neg isOpen]

theorem enclosing_subset : enclosing level hs ⊆ hs := by
  induction hs with
  | nil => exact fun _ among => among
  | cons x rest ih =>
    rw [enclosing]
    split
    · exact cons_subset_cons x ih
    · exact fun y among => mem_cons_of_mem x (ih among)

theorem enclosing_increasing (level : ι → Nat) (hs : List ι) :
    (enclosing level hs).Pairwise fun x y => level x < level y := by
  induction hs with
  | nil => exact .nil
  | cons x rest ih =>
    rw [enclosing]
    split
    · rename_i isOpen
      exact .cons (fun y among => isOpen y (enclosing_subset among)) ih
    · exact ih

theorem enclosing_map {κ : Type} {f : κ → ι} {ks : List κ} :
    enclosing level (ks.map f) = (enclosing (level ∘ f) ks).map f := by
  induction ks with
  | nil => rfl
  | cons k rest ih =>
    rw [map_cons, enclosing, enclosing, ih]
    simp only [forall_mem_map, comp_apply]
    split <;> rfl

/-- Only levels and labels matter. -/
theorem lineages_congr {κ : Type} {level' : κ → Nat} {label' : κ → α} {ks : List κ}
    (same : hs.map (fun h => (level h, label h)) = ks.map fun k => (level' k, label' k)) :
    lineages level label hs = lineages level' label' ks := by
  have onPairs : ∀ {κ : Type} {level : κ → Nat} {label : κ → α} {ks : List κ},
      lineages level label ks =
        lineages Prod.fst Prod.snd (ks.map fun k => (level k, label k)) := by
    intro κ level label ks
    unfold lineages
    rw [map_inits, ← map_tail, map_map]
    refine map_congr_left fun upTo _ => ?_
    rw [comp_apply, enclosing_map, map_map]
    rfl
  rw [onPairs, same, ← onPairs]

@[simp] theorem lineages_concat : lineages level label (hs ++ [h]) =
    lineages level label hs ++ [(enclosing level (hs ++ [h])).map label] := by
  have nonempty : hs.inits ≠ [] := by cases hs <;> simp
  simp [lineages, inits_append, tail_append_of_ne_nil nonempty]

theorem length_lineages : (lineages level label hs).length = hs.length := by
  induction hs using List.reverseRecOn with
  | nil => rfl
  | append_singleton hs h ih => simp [ih]

theorem paths_eq_lineages : paths level label hs = lineages level label hs ↔
    Each (fun pre h => stack level label (pre ++ [h]) = (enclosing level (pre ++ [h])).map label)
      hs := by
  induction hs using List.reverseRecOn with
  | nil => exact iff_of_true rfl each_nil
  | append_singleton hs h ih =>
    rw [each_concat, ← ih, paths_concat, lineages_concat, stack_concat]
    constructor
    · intro same
      obtain ⟨before, last⟩ := append_inj same (by rw [length_paths, length_lineages])
      exact ⟨before, (List.cons.inj last).1⟩
    · rintro ⟨before, last⟩
      rw [before, last]

/-- In a list that increases, what is below a bound stands in front. -/
theorem filter_below_prefix (bound : Nat) {es : List ι}
    (increasing : es.Pairwise fun x y => level x < level y) :
    es.filter (fun x => level x < bound) <+: es := by
  induction es with
  | nil => exact prefix_rfl
  | cons x rest ih =>
    obtain ⟨first, later⟩ := pairwise_cons.mp increasing
    by_cases below : level x < bound
    · rw [filter_cons_of_pos (by simpa using below)]
      exact cons_prefix_cons.mpr ⟨rfl, ih later⟩
    · have none : (x :: rest).filter (fun x => level x < bound) = [] := by
        rw [filter_eq_nil_iff]
        intro y among
        rcases mem_cons.mp among with rfl | inRest
        · simpa using below
        · have := first y inRest
          simp only [decide_eq_true_eq]
          omega
      rw [none]
      exact nil_prefix

/-- So many levels fit between two bounds. -/
theorem length_of_increasing (low bound : Nat) {es : List ι}
    (increasing : es.Pairwise fun x y => level x < level y)
    (inside : ∀ x ∈ es, low ≤ level x ∧ level x < bound) (ordered : low ≤ bound) :
    low + es.length ≤ bound := by
  induction es generalizing low with
  | nil => exact ordered
  | cons x rest ih =>
    obtain ⟨first, later⟩ := pairwise_cons.mp increasing
    obtain ⟨fromLow, belowBound⟩ := inside x mem_cons_self
    have rest := ih (level x + 1) later
      (fun y among => ⟨first y among, (inside y (mem_cons_of_mem _ among)).2⟩) belowBound
    rw [length_cons]
    omega

/-- The last heading stands in its own path. -/
theorem enclosing_getLast? (level : ι → Nat) (hs : List ι) :
    (enclosing level hs).getLast? = hs.getLast? := by
  induction hs using List.reverseRecOn with
  | nil => rfl
  | append_singleton hs h ih => rw [enclosing_concat, getLast?_concat, getLast?_concat]

theorem forall_below_iff {bound : Nat} :
    (∀ x ∈ enclosing level hs, level x < bound) ↔ ∀ x ∈ hs.getLast?, level x < bound := by
  rw [← enclosing_getLast? level]
  have increasing := enclosing_increasing level hs
  rcases eq_nil_or_concat (enclosing level hs) with isNil | ⟨init, last, isConcat⟩
  · rw [isNil]
    exact iff_of_true nofun nofun
  · rw [isConcat, concat_eq_append] at increasing ⊢
    rw [getLast?_concat]
    constructor
    · intro all x isLast
      obtain rfl := Option.mem_some_iff.mp isLast
      exact all _ (by simp)
    · intro atLast x among
      have lastBelow := atLast last rfl
      rcases mem_append.mp among with inInit | isLast
      · have := (pairwise_append.mp increasing).2.2 x inInit last (by simp)
        omega
      · rw [mem_singleton.mp isLast]
        exact lastBelow

theorem nested_iff (positive : ∀ h, 1 ≤ level h) {pre : List ι} : Nested level pre h ↔
    min (level h - 1) (enclosing level pre).length =
      ((enclosing level pre).filter fun x => level x < level h).length := by
  have increasing := enclosing_increasing level pre
  have own := positive h
  have room := length_of_increasing 1 (level h)
    (increasing.sublist (filter_sublist (p := fun x => decide (level x < level h))))
    (fun x among => ⟨positive x, by simpa using (mem_filter.mp among).2⟩) own
  have fewer := length_filter_le (fun x => decide (level x < level h)) (enclosing level pre)
  have all : (∀ x ∈ pre.getLast?, level x < level h) ↔
      ((enclosing level pre).filter fun x => level x < level h).length =
        (enclosing level pre).length := by
    rw [← forall_below_iff, length_filter_eq_length_iff]
    simp
  unfold Nested
  rw [all, enclosing_concat, length_append, length_singleton]
  omega

/-- **The stack is the list of the headings around** exactly where each heading is nested. -/
theorem paths_eq_lineages_iff (positive : ∀ h, 1 ≤ level h) :
    paths level label hs = lineages level label hs ↔ Each (Nested level) hs := by
  rw [paths_eq_lineages]
  induction hs using List.reverseRecOn with
  | nil => exact iff_of_true each_nil each_nil
  | append_singleton hs h ih =>
    rw [each_concat, each_concat, ← ih]
    refine and_congr_right fun before => ?_
    have soFar : stack level label hs = (enclosing level hs).map label := by
      rcases eq_nil_or_concat hs with rfl | ⟨init, last, rfl⟩
      · rfl
      · rw [concat_eq_append] at before ⊢
        exact (each_concat.mp before).2
    have front := filter_below_prefix (level h) (enclosing_increasing level hs)
    rw [nested_iff positive, stack_concat, push, soFar, enclosing_concat, map_append,
      map_singleton, ← map_take]
    constructor
    · intro same
      have lengths := congrArg List.length (append_inj' same rfl).1
      rwa [length_map, length_map, length_take] at lengths
    · intro lengths
      rw [prefix_iff_eq_take.mp front, ← lengths]
      congr 2
      rw [take_eq_take_min]

end Enclosing

/-! ## Two readers -/

section Readers

variable {level : ι → Nat} {label label' : ι → α} {skipped : ι → Bool} {blank : α → Prop}
  {hs : List ι} {h : ι}

def kept (skipped : ι → Bool) (hs : List ι) : List ι := hs.filter fun h => !skipped h

theorem get_kept_of_split {before after : List ι} (isKept : skipped h = false) :
    (kept skipped (before ++ h :: after))[(kept skipped before).length]? = some h := by
  simp [kept, isKept]

/-- A kept heading has its place among all of them. -/
theorem split_of_get_kept {n : Nat} (isNth : (kept skipped hs)[n]? = some h) :
    ∃ before after, hs = before ++ h :: after ∧ skipped h = false ∧
      (kept skipped before).length = n := by
  induction hs using List.reverseRecOn generalizing n with
  | nil => simp [kept] at isNth
  | append_singleton hs x ih =>
    have later : (kept skipped hs)[n]? = some h → ∃ before after,
        hs ++ [x] = before ++ h :: after ∧ skipped h = false ∧
          (kept skipped before).length = n := by
      intro isEarlier
      obtain ⟨before, after, rfl, found⟩ := ih isEarlier
      exact ⟨before, after ++ [x], by simp, found⟩
    cases isSkipped : skipped x with
    | true => exact later (by simpa [kept, isSkipped] using isNth)
    | false =>
      have isConcat : kept skipped (hs ++ [x]) = kept skipped hs ++ [x] := by
        simp [kept, isSkipped]
      rw [isConcat] at isNth
      by_cases inside : n < (kept skipped hs).length
      · exact later (by rwa [getElem?_append_left inside] at isNth)
      · have isLast : n = (kept skipped hs).length := by
          have := (List.getElem?_eq_some_iff.mp isNth).1
          rw [length_append, length_singleton] at this
          omega
        rw [isLast, getElem?_concat_length, Option.some.injEq] at isNth
        obtain rfl := isNth
        exact ⟨hs, [], rfl, isSkipped, isLast.symm⟩

theorem kept_concat_of_skipped (isSkipped : skipped h = true) :
    kept skipped (hs ++ [h]) = kept skipped hs := by
  simp [kept, isSkipped]

theorem kept_concat_of_kept (isKept : skipped h = false) :
    kept skipped (hs ++ [h]) = kept skipped hs ++ [h] := by
  simp [kept, isKept]

variable (level label label' skipped) in
/-- The reader of all headings and the one that skips hold the same stack at a heading. -/
def Agrees (pre : List ι) (h : ι) : Prop :=
  skipped h = false →
    stack level label (pre ++ [h]) = stack level label' (kept skipped (pre ++ [h]))

variable (level label label' skipped) in
/-- The skipped headings right before a heading stay clear of its place in the outline. -/
def Clear (pre : List ι) (h : ι) : Prop :=
  skipped h = false → label h = label' h ∧
    ∀ b ∈ pre.rtakeWhile skipped, level h ≤ level b ∧ level h ≤ depth level (kept skipped pre) + 1

section Assumptions

variable (positive : ∀ h, 1 ≤ level h) (hidden : ∀ h, skipped h = true → blank (label h))
  (solid : ∀ h, skipped h = false → ¬ blank (label' h))

include solid in
theorem not_blank_of_mem {a : α} (among : a ∈ stack level label' (kept skipped hs)) :
    ¬ blank a := by
  obtain ⟨h, isKept, rfl⟩ := mem_stack among
  rw [kept, mem_filter] at isKept
  exact solid h (by simpa using isKept.2)

theorem take_push_eq_iff {whole part : List α} {a : α} {room n : Nat} (isBlank : blank a)
    (solid : ∀ x ∈ part, ¬ blank x) :
    (whole.take room ++ [a]).take n = part.take n ↔
      n ≤ room ∧ n ≤ part.length ∧ whole.take n = part.take n := by
  constructor
  · intro same
    have short : n ≤ (whole.take room).length := by
      by_contra long
      have among : a ∈ (whole.take room ++ [a]).take n := by
        rw [take_of_length_le (by rw [length_append, length_singleton]; omega)]
        simp
      rw [same] at among
      exact solid a (mem_of_mem_take among) isBlank
    have inWhole := short
    rw [length_take] at inWhole
    rw [take_append_of_le_length short, take_take, min_eq_left (by omega)] at same
    have lengths := congrArg List.length same
    rw [length_take, length_take] at lengths
    exact ⟨by omega, by omega, same⟩
  · rintro ⟨inRoom, inPart, same⟩
    have lengths := congrArg List.length same
    rw [length_take, length_take] at lengths
    have short : n ≤ (whole.take room).length := by
      rw [length_take]
      omega
    rw [take_append_of_le_length short, take_take, min_eq_left inRoom, same]

include positive hidden solid in
/-- How far down the stacks agree: skipped headings since the last kept one cut in. -/
theorem take_eq_iff (agree : Each (Agrees level label label' skipped) hs) (n : Nat) :
    (stack level label hs).take n = (stack level label' (kept skipped hs)).take n ↔
      ∀ b ∈ hs.rtakeWhile skipped, n + 1 ≤ level b ∧ n ≤ depth level (kept skipped hs) := by
  induction hs using List.reverseRecOn with
  | nil => simp [kept, stack]
  | append_singleton hs h ih =>
    obtain ⟨before, atLast⟩ := each_concat.mp agree
    specialize ih before
    cases isSkipped : skipped h with
    | false =>
      have same := atLast isSkipped
      rw [same, rtakeWhile_concat_neg _ _ _ (by simp [isSkipped])]
      simp
    | true =>
      rw [kept_concat_of_skipped isSkipped, rtakeWhile_concat_pos _ _ _ isSkipped,
        stack_concat, push, take_push_eq_iff (hidden h isSkipped)
          (fun a => not_blank_of_mem solid), ih, length_stack]
      have atLevel := positive h
      constructor
      · rintro ⟨inRoom, inPart, before⟩ b among
        rcases mem_append.mp among with old | own
        · exact before b old
        · rw [mem_singleton.mp own]
          exact ⟨by omega, inPart⟩
      · intro each
        obtain ⟨inRoom, inPart⟩ := each h (mem_append_right _ (mem_singleton_self h))
        exact ⟨by omega, inPart, fun b old => each b (mem_append_left _ old)⟩

include positive hidden solid in
theorem agrees_iff (agree : Each (Agrees level label label' skipped) hs) :
    Agrees level label label' skipped hs h ↔ Clear level label label' skipped hs h := by
  refine imp_congr_right fun isKept => ?_
  have atLevel := positive h
  rw [kept_concat_of_kept isKept, stack_concat, stack_concat, push, push, and_comm]
  constructor
  · intro same
    obtain ⟨above, own⟩ := append_inj' same rfl
    refine ⟨?_, (List.cons.inj own).1⟩
    intro b isBefore
    have room := (take_eq_iff positive hidden solid agree _).mp above b isBefore
    omega
  · rintro ⟨room, own⟩
    rw [own]
    congr 1
    rw [take_eq_iff positive hidden solid agree]
    intro b isBefore
    have := room b isBefore
    omega

include positive hidden solid in
/-- **Two readers agree at the headings that both see exactly where these are clear.** -/
theorem agree_iff_clear :
    Each (Agrees level label label' skipped) hs ↔ Each (Clear level label label' skipped) hs := by
  induction hs using List.reverseRecOn with
  | nil => exact iff_of_true each_nil each_nil
  | append_singleton hs h ih =>
    rw [each_concat, each_concat, ← ih]
    exact and_congr_right fun agree => agrees_iff positive hidden solid agree

include hidden in
/-- Then a path without blanks stands as often before one reader as before the other. -/
theorem count_paths [BEq (List α)] [LawfulBEq (List α)] {path : List α} (isSolid : ∀ a ∈ path, ¬ blank a)
    (agree : Each (Agrees level label label' skipped) hs) :
    (paths level label hs).count path = (paths level label' (kept skipped hs)).count path := by
  induction hs using List.reverseRecOn with
  | nil => rfl
  | append_singleton hs h ih =>
    obtain ⟨before, atLast⟩ := each_concat.mp agree
    specialize ih before
    cases isSkipped : skipped h with
    | false =>
      have same := atLast isSkipped
      rw [kept_concat_of_kept isSkipped, stack_concat, stack_concat] at same
      rw [kept_concat_of_kept isSkipped, paths_concat, paths_concat, count_append,
        count_append, ih, same]
    | true =>
      have other : push level label (stack level label hs) h ≠ path := by
        rintro rfl
        exact isSolid (label h) (by simp [push]) (hidden h isSkipped)
      rw [kept_concat_of_skipped isSkipped, paths_concat, count_append, ih, count_singleton]
      simp [other]

end Assumptions

end Readers

end Kuku.Theory.Outline
