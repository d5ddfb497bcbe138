/-
# Plugins.Activation -- which activations are under way, and which dependencies they have

`Stacked`: every plugin that is being activated is on the stack of exactly one call, and every
plugin on a stack but the innermost awaits the one above it.  `Passed`: the dependencies of an
activated plugin are activated, and so are those that an activation under way has behind it.
The first holds in every run; the second needs that nobody deactivates a plugin that another
one depends on.
-/
import Kuku.Plugins.Steps

namespace Kuku.Plugins

open Kuku.Theory List Function Assoc

/-! ## Stacks -/

/-- Each plugin on a stack awaits the one above it. -/
def Linked (activating : Assoc Str Frame) : List Str → Prop
  | [] => True
  | [_] => True
  | dependency :: id :: below =>
    (∃ remaining disposers, activating.get id = some ⟨.awaiting dependency remaining, disposers⟩) ∧
      Linked activating (id :: below)

structure Stacked (calls : Slots Nat Call) (activating : Assoc Str Frame) : Prop where
  onStack : ∀ id, (activating.get id).isSome →
    ∃ call stack failing, calls call = some (.activation stack failing) ∧ id ∈ stack
  framed : ∀ call stack failing, calls call = some (.activation stack failing) →
    ∀ id ∈ stack, (activating.get id).isSome
  nodup : ∀ call stack failing, calls call = some (.activation stack failing) → stack.Nodup
  apart : ∀ call other stack stack' failing failing' id,
    calls call = some (.activation stack failing) →
    calls other = some (.activation stack' failing') → id ∈ stack → id ∈ stack' → call = other
  linked : ∀ call stack failing, calls call = some (.activation stack failing) →
    Linked activating stack
  stuck : ∀ call id below error, calls call = some (.activation (id :: below) (some error)) →
    ∃ dependency remaining disposers,
      activating.get id = some ⟨.awaiting dependency remaining, disposers⟩

section

variable {calls calls' : Slots Nat Call} {activating activating' : Assoc Str Frame} {call : Nat}
  {id dependency : Str} {below : List Str} {failing : Option Str} {frame : Frame}

variable {stack : List Str}

theorem Linked.congr (linked : Linked activating stack)
    (same : ∀ other ∈ stack.tail, activating'.get other = activating.get other) :
    Linked activating' stack := by
  induction stack with
  | nil => trivial
  | cons dependency below ih =>
    cases below with
    | nil => trivial
    | cons id below =>
      obtain ⟨⟨remaining, disposers, awaits⟩, rest⟩ := linked
      refine ⟨⟨remaining, disposers, ?_⟩, ?_⟩
      · rw [same id mem_cons_self, awaits]
      · exact ih rest fun other among => same other (mem_cons_of_mem _ among)

theorem Linked.tail (linked : Linked activating (id :: stack)) :
    Linked activating stack := by
  cases stack with
  | nil => trivial
  | cons other below => exact linked.2

variable (stacked : Stacked calls activating)

include stacked

/-- No frame that a stack's links are about is changed. -/
theorem Stacked.innermost (isCall : calls call = some (.activation (id :: below) failing))
    {other : Nat} {failing' : Option Str}
    (isOther : calls other = some (.activation stack failing')) :
    id ∉ stack.tail := by
  intro among
  have same := stacked.apart call other _ stack failing failing' id isCall isOther
    mem_cons_self (mem_of_mem_tail among)
  subst same
  rw [isCall] at isOther
  cases isOther
  exact (nodup_cons.mp (stacked.nodup _ _ _ isCall)).1 among

/-- The innermost activation goes on. -/
theorem Stacked.setFrame (isCall : calls call = some (.activation (id :: below) none)) :
    Stacked calls (activating.put id frame) := by
  have present : ∀ other, ((activating.put id frame).get other).isSome ↔
      (activating.get other).isSome := by
    intro other
    rw [get_put]
    split_ifs with isIt
    · subst isIt
      simp [stacked.framed call _ none isCall other mem_cons_self]
    · rfl
  constructor
  · intro other isActivating
    exact stacked.onStack other ((present other).mp isActivating)
  · intro k stack failing' isOther other among
    exact (present other).mpr (stacked.framed k stack failing' isOther other among)
  · exact stacked.nodup
  · exact stacked.apart
  · intro k stack failing' isOther
    refine (stacked.linked k stack failing' isOther).congr ?_
    intro other among
    refine get_put_of_ne ?_
    rintro rfl
    exact stacked.innermost isCall isOther among
  · intro k other below' error isOther
    obtain ⟨dependency, remaining, disposers, awaits⟩ := stacked.stuck k other below' error isOther
    refine ⟨dependency, remaining, disposers, (get_put_of_ne ?_).trans awaits⟩
    rintro rfl
    have same := stacked.apart call k _ _ _ _ other isCall isOther mem_cons_self mem_cons_self
    rw [same, isOther] at isCall
    cases isCall

/-- A plugin that is not being activated begins, alone or above the plugin that awaits it. -/
theorem Stacked.enter (fresh : activating.get id = none) (above : (calls call = none ∧ below = []) ∨
      ∃ parent rest remaining disposers, below = parent :: rest ∧
        calls call = some (.activation below none) ∧
        activating.get parent = some ⟨.awaiting id remaining, disposers⟩) :
    Stacked (Function.update calls call (some (.activation (id :: below) none)))
      (activating.put id frame) := by
  -- what is below was the stack of this call
  have wasBelow : ∀ other ∈ below, ∃ stack failing, calls call = some (.activation stack failing) ∧
      other ∈ stack := by
    intro other among
    rcases above with ⟨-, rfl⟩ | ⟨parent, rest, remaining, disposers, rfl, isCall, -⟩
    · cases among
    · exact ⟨_, none, isCall, among⟩
  have notBelow : id ∉ below := by
    intro among
    obtain ⟨stack, failing, isCall, onIt⟩ := wasBelow id among
    have := stacked.framed call stack failing isCall id onIt
    simp [fresh] at this
  have notOn : ∀ k stack failing, calls k = some (.activation stack failing) → id ∉ stack := by
    intro k stack failing isCall among
    have := stacked.framed k stack failing isCall id among
    simp [fresh] at this
  have belowIs : ∀ stack failing, calls call = some (.activation stack failing) → stack = below := by
    intro stack failing isCall
    rcases above with ⟨isNone, -⟩ | ⟨parent, rest, remaining, disposers, rfl, isBelow, -⟩
    · rw [isNone] at isCall
      cases isCall
    · rw [isBelow] at isCall
      cases isCall
      rfl
  constructor
  · intro other isActivating
    rw [get_put] at isActivating
    by_cases isIt : other = id
    · exact ⟨call, _, none, update_self _ _ _, isIt ▸ mem_cons_self⟩
    · rw [if_neg isIt] at isActivating
      obtain ⟨k, stack, failing, isCall, among⟩ := stacked.onStack other isActivating
      by_cases same : k = call
      · subst same
        exact ⟨k, _, none, update_self _ _ _,
          mem_cons_of_mem _ (belowIs stack failing isCall ▸ among)⟩
      · exact ⟨k, stack, failing, by rw [update_of_ne same, isCall], among⟩
  · intro k stack failing isCall other among
    rw [get_put]
    split_ifs with isIt
    · rfl
    · by_cases same : k = call
      · subst same
        rw [update_self] at isCall
        cases isCall
        rcases mem_cons.mp among with rfl | among
        · exact absurd rfl isIt
        · obtain ⟨stack, failing, isCall, onIt⟩ := wasBelow other among
          exact stacked.framed k stack failing isCall other onIt
      · rw [update_of_ne same] at isCall
        exact stacked.framed k stack failing isCall other among
  · intro k stack failing isCall
    by_cases same : k = call
    · subst same
      rw [update_self] at isCall
      cases isCall
      refine nodup_cons.mpr ⟨notBelow, ?_⟩
      rcases above with ⟨-, rfl⟩ | ⟨parent, rest, remaining, disposers, rfl, isBelow, -⟩
      · exact nodup_nil
      · exact stacked.nodup k _ none isBelow
    · rw [update_of_ne same] at isCall
      exact stacked.nodup k stack failing isCall
  · -- a plugin on another stack was not on this one, and the new one is on none
    have apart : ∀ k stack failing other, k ≠ call → calls k = some (.activation stack failing) →
        other ∈ stack → other ∉ id :: below := by
      intro k stack failing other differs isCall among onIt
      rcases mem_cons.mp onIt with rfl | onIt
      · exact notOn k stack failing isCall among
      · obtain ⟨stack', failing', isHere, onIt⟩ := wasBelow other onIt
        exact differs (stacked.apart k call stack stack' failing failing' other isCall isHere among onIt)
    intro k k' stack stack' failing failing' other isCall isCall' among among'
    by_cases same : k = call
    · by_cases same' : k' = call
      · rw [same, same']
      · rw [same, update_self] at isCall
        rw [update_of_ne same'] at isCall'
        cases isCall
        exact absurd among (apart k' stack' failing' other same' isCall' among')
    · rw [update_of_ne same] at isCall
      by_cases same' : k' = call
      · rw [same', update_self] at isCall'
        cases isCall'
        exact absurd among' (apart k stack failing other same isCall among)
      · rw [update_of_ne same'] at isCall'
        exact stacked.apart k k' stack stack' failing failing' other isCall isCall' among among'
  · intro k stack failing isCall
    have unchanged : ∀ stack, id ∉ stack.tail → Linked activating stack →
        Linked (activating.put id frame) stack := by
      intro stack absent linked
      refine linked.congr fun other among => get_put_of_ne ?_
      rintro rfl
      exact absent among
    by_cases same : k = call
    · subst same
      rw [update_self] at isCall
      cases isCall
      refine unchanged _ notBelow ?_
      rcases above with ⟨-, rfl⟩ | ⟨parent, rest, remaining, disposers, rfl, isBelow, awaits⟩
      · trivial
      · exact ⟨⟨remaining, disposers, awaits⟩, stacked.linked k _ none isBelow⟩
    · rw [update_of_ne same] at isCall
      exact unchanged stack (fun among => notOn k stack failing isCall (mem_of_mem_tail among))
        (stacked.linked k stack failing isCall)
  · intro k other below' error isCall
    by_cases same : k = call
    · rw [same, update_self] at isCall
      cases isCall
    · rw [update_of_ne same] at isCall
      obtain ⟨dependency, remaining, disposers, awaits⟩ := stacked.stuck k other below' error isCall
      refine ⟨dependency, remaining, disposers, (get_put_of_ne ?_).trans awaits⟩
      rintro rfl
      exact notOn k _ _ isCall mem_cons_self

/-- The innermost activation of a call is left; of the others only the next one may change. -/
theorem Stacked.leave (isCall : calls call = some (.activation (id :: below) failing))
    {error : Option Str} (gone : activating'.get id = none)
    (present : ∀ other, other ≠ id → ((activating'.get other).isSome ↔ (activating.get other).isSome))
    (unchanged : ∀ other, other ≠ id → (error = none → below.head? ≠ some other) →
      activating'.get other = activating.get other) :
    Stacked (Function.update calls call (awaiters below error)) activating' := by
  have distinct := nodup_cons.mp (stacked.nodup call _ failing isCall)
  -- a stack after the step is the one below, or an old one of another call
  have was : ∀ k stack failing',
      Function.update calls call (awaiters below error) k = some (.activation stack failing') →
      (k = call ∧ stack = below) ∨ (k ≠ call ∧ calls k = some (.activation stack failing')) := by
    intro k stack failing' isNow
    by_cases same : k = call
    · subst same
      rw [update_self, awaiters] at isNow
      split_ifs at isNow
      cases isNow
      exact .inl ⟨rfl, rfl⟩
    · rw [update_of_ne same] at isNow
      exact .inr ⟨same, isNow⟩
  have elsewhere : ∀ k stack failing', k ≠ call → calls k = some (.activation stack failing') →
      ∀ other ∈ id :: below, other ∉ stack := by
    intro k stack failing' differs isOther other onIt among
    exact differs (stacked.apart k call stack _ failing' failing other isOther isCall among onIt)
  constructor
  · intro other isActivating
    have differs : other ≠ id := by
      rintro rfl
      simp [gone] at isActivating
    obtain ⟨k, stack, failing', isOther, among⟩ :=
      stacked.onStack other ((present other differs).mp isActivating)
    by_cases same : k = call
    · subst same
      rw [isCall] at isOther
      cases isOther
      have onBelow := (mem_cons.mp among).resolve_left differs
      refine ⟨k, below, error, ?_, onBelow⟩
      rw [update_self, awaiters, if_neg (ne_nil_of_mem onBelow)]
    · exact ⟨k, stack, failing', by rw [update_of_ne same, isOther], among⟩
  · intro k stack failing' isNow other among
    rcases was k stack failing' isNow with ⟨rfl, rfl⟩ | ⟨differs, isOther⟩
    · refine (present other ?_).mpr
        (stacked.framed k _ failing isCall other (mem_cons_of_mem _ among))
      rintro rfl
      exact distinct.1 among
    · refine (present other ?_).mpr (stacked.framed k stack failing' isOther other among)
      rintro rfl
      exact elsewhere k stack failing' differs isOther other mem_cons_self among
  · intro k stack failing' isNow
    rcases was k stack failing' isNow with ⟨rfl, rfl⟩ | ⟨-, isOther⟩
    · exact distinct.2
    · exact stacked.nodup k stack failing' isOther
  · intro k k' stack stack' f f' other isNow isNow' among among'
    rcases was k stack f isNow with ⟨rfl, rfl⟩ | ⟨differs, isOther⟩ <;>
      rcases was k' stack' f' isNow' with ⟨rfl, rfl⟩ | ⟨differs', isOther'⟩
    · rfl
    · exact absurd among' (elsewhere k' stack' f' differs' isOther' other (mem_cons_of_mem _ among))
    · exact absurd among (elsewhere k stack f differs isOther other (mem_cons_of_mem _ among'))
    · exact stacked.apart k k' stack stack' f f' other isOther isOther' among among'
  · intro k stack failing' isNow
    rcases was k stack failing' isNow with ⟨rfl, rfl⟩ | ⟨differs, isOther⟩
    · refine (stacked.linked k _ failing isCall).tail.congr ?_
      intro other among
      cases stack with
      | nil => cases among
      | cons parent rest =>
        refine unchanged other ?_ ?_
        · rintro rfl
          exact distinct.1 (mem_cons_of_mem _ among)
        · rintro - ⟨⟩
          exact (nodup_cons.mp distinct.2).1 among
    · refine (stacked.linked k stack failing' isOther).congr ?_
      intro other among
      have onOther := mem_of_mem_tail among
      refine unchanged other ?_ ?_
      · rintro rfl
        exact elsewhere k stack failing' differs isOther other mem_cons_self onOther
      · intro _ isHead
        exact elsewhere k stack failing' differs isOther other
          (mem_cons_of_mem _ (mem_of_mem_head? isHead)) onOther
  · intro k other below' error' isNow
    rcases was k _ _ isNow with ⟨rfl, rfl⟩ | ⟨differs, isOther⟩
    · -- the plugin below awaited the one that is left
      rw [update_self, awaiters, if_neg (cons_ne_nil _ _)] at isNow
      cases isNow
      obtain ⟨⟨remaining, disposers, awaits⟩, -⟩ := stacked.linked k _ failing isCall
      refine ⟨id, remaining, disposers, (unchanged other ?_ ?_).trans awaits⟩
      · rintro rfl
        exact distinct.1 mem_cons_self
      · rintro ⟨⟩
    · obtain ⟨dependency, remaining, disposers, awaits⟩ := stacked.stuck k other below' error' isOther
      refine ⟨dependency, remaining, disposers, (unchanged other ?_ ?_).trans awaits⟩
      · rintro rfl
        exact elsewhere k _ _ differs isOther other mem_cons_self mem_cons_self
      · intro _ isHead
        exact elsewhere k _ _ differs isOther other
          (mem_cons_of_mem _ (mem_of_mem_head? isHead)) mem_cons_self

/-- A call that activates nothing begins or ends. -/
theorem Stacked.setCall (before : ∀ stack failing, calls call ≠ some (.activation stack failing))
    {value : Option Call} (after : ∀ stack failing, value ≠ some (.activation stack failing)) :
    Stacked (Function.update calls call value) activating := by
  have same : ∀ k stack failing, Function.update calls call value k = some (.activation stack failing) ↔
      calls k = some (.activation stack failing) := by
    intro k stack failing
    by_cases isIt : k = call
    · subst isIt
      rw [update_self]
      exact ⟨fun isNow => absurd isNow (after stack failing), fun was => absurd was (before stack failing)⟩
    · rw [update_of_ne isIt]
  constructor
  · intro id isActivating
    obtain ⟨k, stack, failing, isCall, among⟩ := stacked.onStack id isActivating
    exact ⟨k, stack, failing, (same k stack failing).mpr isCall, among⟩
  · exact fun k stack failing isCall => stacked.framed k stack failing ((same _ _ _).mp isCall)
  · exact fun k stack failing isCall => stacked.nodup k stack failing ((same _ _ _).mp isCall)
  · exact fun k k' stack stack' f f' id isCall isCall' =>
      stacked.apart k k' stack stack' f f' id ((same _ _ _).mp isCall) ((same _ _ _).mp isCall')
  · exact fun k stack failing isCall => stacked.linked k stack failing ((same _ _ _).mp isCall)
  · exact fun k id below error isCall => stacked.stuck k id below error ((same _ _ _).mp isCall)

end

/-! ## Dependencies -/

/-- The dependencies an activation has before it. -/
def Phase.ahead : Phase → List Str
  | .dependencies remaining => remaining
  | .awaiting dependency remaining => dependency :: remaining
  | _ => []

def dependenciesOf (plugins : PluginInstances) (id : Str) : List Str :=
  ((plugins id).map (·.dependencies)).getD []

structure Passed (plugins : PluginInstances) (activated : List Str) (activating : Assoc Str Frame) :
    Prop where
  ended : ∀ id ∈ activated, ∀ dependency ∈ dependenciesOf plugins id, dependency ∈ activated
  underWay : ∀ id frame, activating.get id = some frame →
    ∀ dependency ∈ dependenciesOf plugins id, dependency ∈ activated ∨ dependency ∈ frame.phase.ahead

/-- No plugin depends on this one, or it will ask for it again. -/
def State.unneeded (plugins : PluginInstances) (s : State) (id : Str) : Bool :=
  (s.activated.all fun other => other = id || id ∉ dependenciesOf plugins other) &&
    s.activating.all fun entry => id ∉ dependenciesOf plugins entry.1 || id ∈ entry.2.phase.ahead

section

variable {plugins : PluginInstances} {s s' : State} {label : Label} {call : Nat} {id : Str}
  {below activated : List Str} {frame : Frame} {activating activating' : Assoc Str Frame}

/-- Where every frame has at least as much before it, nothing is missed. -/
theorem Passed.congr (passed : Passed plugins activated activating)
    (frames : ∀ other frame', activating'.get other = some frame' →
      ∃ frame, activating.get other = some frame ∧
        ∀ dependency ∈ frame.phase.ahead, dependency ∈ frame'.phase.ahead) :
    Passed plugins activated activating' where
  ended := passed.ended
  underWay := by
    intro other frame' isFrame dependency needed
    obtain ⟨frame, was, ahead⟩ := frames other frame' isFrame
    exact (passed.underWay other frame was dependency needed).imp_right (ahead dependency)

/-- A frame whose first dependency is there. -/
theorem Passed.setFrame (passed : Passed plugins activated activating) {before : Frame}
    (isFrame : activating.get id = some before)
    (ahead : ∀ dependency ∈ before.phase.ahead,
      dependency ∈ activated ∨ dependency ∈ frame.phase.ahead) :
    Passed plugins activated (activating.put id frame) where
  ended := passed.ended
  underWay := by
    intro other frame' isFrame' dependency needed
    rw [get_put] at isFrame'
    split_ifs at isFrame' with isIt
    · cases isFrame'
      subst isIt
      rcases passed.underWay other before isFrame dependency needed with isThere | isAhead
      · exact .inl isThere
      · exact ahead dependency isAhead
    · exact passed.underWay other frame' isFrame' dependency needed

theorem Passed.enter (passed : Passed plugins activated activating) {dependencies : List Str}
    (isPlugin : dependenciesOf plugins id = dependencies) :
    Passed plugins activated (activating.put id { phase := .dependencies dependencies }) where
  ended := passed.ended
  underWay := by
    intro other frame' isFrame' dependency needed
    rw [get_put] at isFrame'
    split_ifs at isFrame' with isIt
    · cases isFrame'
      subst isIt
      exact .inr (isPlugin ▸ needed)
    · exact passed.underWay other frame' isFrame' dependency needed

theorem Passed.remove (passed : Passed plugins activated activating) :
    Passed plugins activated (activating.remove id) := by
  refine passed.congr ?_
  intro other frame isFrame
  rw [get_remove] at isFrame
  split_ifs at isFrame
  exact ⟨frame, isFrame, fun _ isAhead => isAhead⟩

/-! ## Steps -/

theorem get_resumed {other : Str} (differs : below.head? ≠ some other) :
    (resumed activating below).get other = activating.get other := by
  cases below with
  | nil => rfl
  | cons parent rest =>
    have isOther : other ≠ parent := by
      rintro rfl
      exact differs rfl
    unfold resumed
    dsimp only
    split
    · exact get_put_of_ne isOther
    · rfl

/-- The plugin that awaited goes on with its disposers, one dependency further. -/
theorem get_resumed_some {other : Str} {frame' : Frame}
    (isFrame : (resumed activating below).get other = some frame') :
    activating.get other = some frame' ∨
      ∃ dependency remaining disposers, below.head? = some other ∧
        activating.get other = some ⟨.awaiting dependency remaining, disposers⟩ ∧
        frame' = ⟨.dependencies remaining, disposers⟩ := by
  cases below with
  | nil => exact .inl isFrame
  | cons parent rest =>
    unfold resumed at isFrame
    dsimp only at isFrame
    split at isFrame
    · rename_i dependency remaining disposers awaits
      rw [get_put] at isFrame
      split_ifs at isFrame with isIt
      · cases isFrame
        subst isIt
        exact .inr ⟨dependency, remaining, disposers, rfl, awaits, rfl⟩
      · exact .inl isFrame
    · exact .inl isFrame

theorem isSome_resumed {other : Str} :
    ((resumed activating below).get other).isSome ↔ (activating.get other).isSome := by
  cases below with
  | nil => rfl
  | cons parent rest =>
    unfold resumed
    dsimp only
    split
    · rename_i dependency remaining disposers awaits
      rw [get_put]
      split_ifs with isIt
      · subst isIt
        simp [awaits]
      · rfl
    · rfl

theorem Stacked.fail (stacked : Stacked s.calls s.activating) {failing : Option Str} {error : Str}
    (isCall : s.calls call = some (.activation (id :: below) failing)) :
    Stacked (s.fail call id below error).calls (s.fail call id below error).activating :=
  stacked.leave isCall get_remove_self
    (fun _ differs => by rw [State.fail, State.setCall, get_remove_of_ne differs])
    (fun _ differs _ => get_remove_of_ne differs)

theorem Stacked.succeed (stacked : Stacked s.calls s.activating) {disposers : List Disposer}
    (isCall : s.calls call = some (.activation (id :: below) none)) :
    Stacked (s.succeed call id below disposers).calls (s.succeed call id below disposers).activating := by
  have notBelow := (nodup_cons.mp (stacked.nodup call _ none isCall)).1
  refine stacked.leave isCall ?_ ?_ ?_
  · refine (get_resumed ?_).trans get_remove_self
    intro isHead
    exact notBelow (mem_of_mem_head? isHead)
  · intro other differs
    refine isSome_resumed.trans ?_
    rw [get_remove_of_ne differs]
  · intro other differs notHead
    exact (get_resumed (notHead rfl)).trans (get_remove_of_ne differs)

/-- **Every run keeps its stacks.** -/
theorem Step.stacked (step : Step plugins s label s') (stacked : Stacked s.calls s.activating) :
    Stacked s'.calls s'.activating := by
  cases step with
  | idle => exact stacked
  | entered isFree admitted =>
    exact stacked.enter (admit_entered admitted).2.1 (.inl ⟨isFree, rfl⟩)
  | dependencyThere running _ => exact stacked.setFrame (running_eq.mp running).1
  | dependencyRefused running => exact stacked.fail (running_eq.mp running).1
  | dependencyEntered running admitted =>
    rename_i call id dependency below remaining dependencies disposers
    obtain ⟨isCall, isFrame⟩ := running_eq.mp running
    obtain ⟨-, fresh, -⟩ := admit_entered admitted
    have differs : dependency ≠ id := by
      rintro rfl
      simp [fresh] at isFrame
    have awaiting : Stacked s.calls
        (s.activating.put id ⟨.awaiting dependency remaining, disposers⟩) := stacked.setFrame isCall
    exact awaiting.enter ((get_put_of_ne differs).trans fresh)
      (.inr ⟨id, below, remaining, disposers, rfl, isCall, get_put_self⟩)
  | registered running _ _ => exact stacked.setFrame (running_eq.mp running).1
  | registerThrew running _ _ => exact Stacked.fail stacked (running_eq.mp running).1
  | imported running => exact stacked.setFrame (running_eq.mp running).1
  | importFailed running => exact stacked.fail (running_eq.mp running).1
  | performed running => exact stacked.setFrame (running_eq.mp running).1
  | leftBehind _ => exact stacked
  | returned running => exact stacked.succeed (running_eq.mp running).1
  | threw running => exact Stacked.fail stacked (running_eq.mp running).1
  | unwound isCall => exact stacked.fail isCall
  | deactivation isFree =>
    refine stacked.setCall ?_ fun stack failing isIt => by cases isIt
    intro stack failing isCall
    rw [isFree] at isCall
    cases isCall
  | deactivated isCall =>
    refine stacked.setCall ?_ fun stack failing isIt => by cases isIt
    intro stack failing isActivation
    rw [isCall] at isActivation
    cases isActivation
  | buildSettled _ _ _ => exact stacked
  | buildRefused _ _ _ => exact stacked
  | built _ _ _ => exact stacked
  | outside same =>
    rw [same.calls, same.activating]
    exact stacked

theorem dependenciesOf_some {plugin : KukuPlugin} (isPlugin : plugins id = some plugin) :
    dependenciesOf plugins id = plugin.dependencies := by
  rw [dependenciesOf, isPlugin]
  rfl

theorem Passed.succeed (passed : Passed plugins s.activated s.activating)
    (stacked : Stacked s.calls s.activating) {disposers held : List Disposer}
    (isCall : s.calls call = some (.activation (id :: below) none))
    (isFrame : s.activating.get id = some ⟨.activate, held⟩) :
    Passed plugins (s.succeed call id below disposers).activated
      (s.succeed call id below disposers).activating where
  ended := by
    intro other among dependency needed
    rcases mem_append.mp among with earlier | isIt
    · exact mem_append_left _ (passed.ended other earlier dependency needed)
    · rw [mem_singleton.mp isIt] at needed
      have isThere := passed.underWay id _ isFrame dependency needed
      exact mem_append_left _ (isThere.resolve_right (not_mem_nil))
  underWay := by
    intro other frame' isFrame' dependency needed
    rcases get_resumed_some isFrame' with same | ⟨awaited, remaining, held', isHead, was, rfl⟩
    · rw [get_remove] at same
      split_ifs at same
      exact (passed.underWay other frame' same dependency needed).imp_left (mem_append_left _)
    · -- what the plugin below awaited is the one that is activated now
      rw [get_remove] at was
      split_ifs at was
      cases below with
      | nil => cases isHead
      | cons parent rest =>
        cases isHead
        obtain ⟨⟨remaining', held'', awaits⟩, -⟩ := stacked.linked call _ none isCall
        rw [was] at awaits
        cases awaits
        rcases passed.underWay other _ was dependency needed with isThere | isAhead
        · exact .inl (mem_append_left _ isThere)
        · rcases mem_cons.mp isAhead with rfl | later
          · exact .inl (mem_append_right _ (mem_singleton.mpr rfl))
          · exact .inr later

theorem Passed.deactivate (passed : Passed plugins s.activated s.activating)
    (unneeded : s.unneeded plugins id = true) :
    Passed plugins (s.deactivate call id).activated (s.deactivate call id).activating := by
  simp only [State.unneeded, Bool.and_eq_true, all_eq_true, Bool.or_eq_true,
    decide_eq_true_eq] at unneeded
  constructor
  · intro other among dependency needed
    obtain ⟨was, differs⟩ := mem_filter.mp among
    refine mem_filter.mpr ⟨passed.ended other was dependency needed, ?_⟩
    rw [decide_eq_true_eq]
    rintro rfl
    have isOther : other ≠ dependency := of_decide_eq_true differs
    exact (unneeded.1 other was).elim isOther fun absent => absent needed
  · intro other frame isFrame dependency needed
    rcases passed.underWay other frame isFrame dependency needed with isThere | isAhead
    · by_cases isIt : dependency = id
      · subst isIt
        rcases unneeded.2 _ (mem_of_get isFrame) with absent | isAhead
        · exact absurd needed absent
        · exact .inr isAhead
      · exact .inl (mem_filter.mpr ⟨isThere, decide_eq_true isIt⟩)
    · exact .inr isAhead

/-- **The dependencies of the activated are activated**, while none is deactivated that is needed. -/
theorem Step.passed (step : Step plugins s label s') (stacked : Stacked s.calls s.activating)
    (unneeded : ∀ call id, label = .deactivateSettled call → s.calls call = some (.deactivation id) →
      s.unneeded plugins id = true)
    (passed : Passed plugins s.activated s.activating) :
    Passed plugins s'.activated s'.activating := by
  cases step with
  | idle => exact passed
  | entered _ admitted =>
    obtain ⟨-, -, plugin, isPlugin, rfl⟩ := admit_entered admitted
    exact passed.enter (dependenciesOf_some isPlugin)
  | dependencyThere running isThere =>
    refine passed.setFrame (running_eq.mp running).2 ?_
    intro dependency isAhead
    rcases mem_cons.mp isAhead with rfl | later
    · exact .inl isThere
    · exact .inr later
  | dependencyRefused _ => exact passed.remove
  | dependencyEntered running admitted =>
    obtain ⟨-, -, plugin, isPlugin, rfl⟩ := admit_entered admitted
    refine Passed.enter ?_ (dependenciesOf_some isPlugin)
    exact passed.setFrame (running_eq.mp running).2 fun dependency isAhead => .inr isAhead
  | registered running _ _ =>
    exact passed.setFrame (running_eq.mp running).2 fun dependency isAhead => nomatch isAhead
  | registerThrew _ _ _ => exact passed.remove
  | imported running =>
    exact passed.setFrame (running_eq.mp running).2 fun dependency isAhead => nomatch isAhead
  | importFailed _ => exact passed.remove
  | performed running =>
    exact passed.setFrame (running_eq.mp running).2 fun dependency isAhead => nomatch isAhead
  | leftBehind _ => exact passed
  | returned running =>
    obtain ⟨isCall, isFrame⟩ := running_eq.mp running
    exact passed.succeed stacked isCall isFrame
  | threw _ => exact passed.remove
  | unwound _ => exact passed.remove
  | deactivation _ => exact passed
  | deactivated isCall => exact passed.deactivate (unneeded _ _ rfl isCall)
  | buildSettled _ _ _ => exact passed
  | buildRefused _ _ _ => exact passed
  | built _ _ _ => exact passed
  | outside same =>
    rw [same.activated, same.activating]
    exact passed

end

end Kuku.Plugins
