/-
# Plugins.OnlyActive -- when only active plugins contribute

Once no call is under way the live plugins are the activated ones, and the invariant says that
the registries hold what they have contributed and nothing else.  Every sound step keeps it.
A command is the first thing that goes wrong: its disposer merges a copy of the commands
without it into the store, which leaves it there with its keys (`command_left_behind`).
-/
import Kuku.Plugins.Intact

namespace Kuku.Plugins

open Kuku.Theory List Option

variable (plugins : PluginInstances)

/-! ## What is claimed of a state -/

/-- The registries hold what activated plugins have contributed, with the keys of their commands,
and the dependencies of an activated plugin are activated. -/
structure OnlyActive (s : State) : Prop where
  exact : ∀ c, Registered s.registries c ↔ ∃ id ∈ s.activated, c ∈ s.contributed id
  bound : ∀ key cmd, cmd ∈ (s.registries.keymap.get key).getD [] ↔
    ∃ id reg, s.registries.commands.get id = some reg ∧ reg.contribution = cmd ∧ key ∈ reg.keys
  once : s.activated.Nodup
  dependencies : ∀ id ∈ s.activated, ∀ dependency ∈ dependenciesOf plugins id,
    dependency ∈ s.activated

section

variable {plugins} {s s' : State} {label : Label} {id : Str} {registries : Registries}

/-! ## Runs -/

theorem fitAll_of_registersSoundly {registries : Registries} {declared : List Declared}
    {fault : Option Fault} (soundly : registersSoundly registries id declared fault = true)
    (unreached : ∀ faulty, fault = some faulty → declared.length ≤ faulty.index) :
    fitAll registries id declared = true := by
  cases fault with
  | none => exact soundly
  | some faulty =>
    rwa [registersSoundly, if_neg (Nat.not_lt.mpr (unreached faulty rfl))] at soundly

/-- A fault that is let pass has left the registries as they were. -/
theorem registerUntil_soundly {declared : List Declared} {fault : Fault}
    (soundly : registersSoundly s.registries id declared (some fault) = true)
    (threw : registerUntil s.registries id declared fault = some registries) :
    registries = s.registries := by
  rw [registerUntil, map_eq_some_iff] at threw
  obtain ⟨faulty, isFaulty, rfl⟩ := threw
  rw [registersSoundly, if_pos (List.getElem?_eq_some_iff.mp isFaulty).1] at soundly
  simp only [Bool.and_eq_true, decide_eq_true_eq, Bool.not_eq_true'] at soundly
  rw [soundly.1, soundly.2]
  rfl

/-- **A sound step keeps the invariant.** -/
theorem Step.intact (step : Step plugins s label s') (soundly : sound plugins s label = true)
    (stacked : Stacked s.calls s.activating) (intact : Intact s) : Intact s' := by
  cases step with
  | idle => exact intact
  | entered _ admitted =>
    obtain ⟨inactive, fresh, -⟩ := admit_entered admitted
    exact intact.enter inactive fresh
  | dependencyThere running _ => exact intact.setFrame (running_eq.mp running).2 fun _ => rfl
  | dependencyRefused running =>
    have isFrame := (running_eq.mp running).2
    exact intact.failEmpty isFrame (intact.waiting _ _ isFrame rfl)
  | dependencyEntered running admitted =>
    rename_i call id dependency below remaining dependencies disposers
    obtain ⟨inactive, fresh, -⟩ := admit_entered admitted
    have isFrame := (running_eq.mp running).2
    have differs : dependency ≠ id := by
      rintro rfl
      simp [fresh] at isFrame
    have awaiting : Intact (s.setFrame id ⟨.awaiting dependency remaining, disposers⟩) :=
      intact.setFrame isFrame fun _ => rfl
    exact awaiting.enter inactive ((Assoc.get_put_of_ne differs).trans fresh)
  | registered running isPlugin unreached =>
    simp only [sound, running, isPlugin, all_some] at soundly
    exact intact.registerDeclared (running_eq.mp running).2
      (fitAll_of_registersSoundly soundly unreached)
  | registerThrew running isPlugin threw =>
    simp only [sound, running, isPlugin, all_some] at soundly
    rw [registerUntil_soundly soundly threw]
    have isFrame := (running_eq.mp running).2
    exact intact.failEmpty isFrame (intact.waiting _ _ isFrame rfl)
  | imported running => exact intact.setFrame (running_eq.mp running).2 id
  | importFailed running =>
    simp only [sound, running, List.isEmpty_iff] at soundly
    exact intact.failEmpty (running_eq.mp running).2 soundly
  | performed running =>
    simp only [sound, running, Bool.true_and] at soundly
    exact intact.perform (running_eq.mp running).2 soundly
  | leftBehind running => simp [sound, running] at soundly
  | returned running => exact intact.succeed (running_eq.mp running).2
  | threw running =>
    simp only [sound, running] at soundly
    exact intact.rollBack (running_eq.mp running).2 soundly
  | unwound isCall =>
    obtain ⟨dependency, remaining, disposers, isFrame⟩ := stacked.stuck _ _ _ _ isCall
    exact intact.failEmpty isFrame (intact.waiting _ _ isFrame rfl)
  | deactivation _ => exact intact.setCall
  | deactivated isCall =>
    simp only [sound, isCall] at soundly
    exact intact.deactivate soundly
  | buildSettled isBuild _ _ => exact intact.buildSettled isBuild
  | buildRefused isBuild _ goesOn => simp [sound, isBuild, goesOn] at soundly
  | built isBuild isPending goesOn =>
    simp only [sound, isBuild, goesOn, reduceCtorEq, decide_false, Bool.or_self, Bool.false_or,
      decide_true, Bool.true_and] at soundly
    exact intact.built isBuild isPending goesOn soundly
  | outside same => exact intact.outside same

theorem stacked_start : Stacked ({} : State).calls ({} : State).activating where
  onStack _ isActivating := by cases isActivating
  framed _ _ _ isCall := by cases isCall
  nodup _ _ _ isCall := by cases isCall
  apart _ _ _ _ _ _ _ isCall := by cases isCall
  linked _ _ _ isCall := by cases isCall
  stuck _ _ _ _ isCall := by cases isCall

/-- **An activation under way is on the stack of one call**, in every run. -/
theorem on_one_stack (reached : (system plugins).Reachable s) : Stacked s.calls s.activating := by
  refine reached.keeps (fun s => Stacked s.calls s.activating) ?_ ?_
  · rintro s rfl
    exact stacked_start
  · exact fun s label s' stacked _ stepped => (Step.of_next stepped).stacked stacked

theorem passed_start : Passed plugins ({} : State).activated ({} : State).activating where
  ended _ among := by cases among
  underWay _ _ isFrame := by cases isFrame

theorem intact_start : Intact ({} : State) where
  tidy := ⟨nodup_nil, rfl⟩
  exact c := by
    constructor
    · intro registered
      cases c with
      | command id pluginId contribution =>
        obtain ⟨keys, held⟩ := registered
        cases held
      | listener event handler => cases (registered : handler ∈ ([] : List Handler))
      | fill slot fill => cases (registered : fill ∈ ([] : List SlotFill))
      | _ => cases registered
    · rintro ⟨id, -, among⟩
      cases among
  waiting _ _ _ _ := rfl
  mapped id := by simp
  undone _ _ _ _ among := by cases among
  building _ _ isCell := by simp at isCell
  apart _ among := by cases among
  once := nodup_nil

/-- A run whose steps are sound keeps all three invariants. -/
theorem intact_of_reached
    (reached : (system plugins).ReachableBy (fun s label => sound plugins s label) s) :
    Stacked s.calls s.activating ∧ Passed plugins s.activated s.activating ∧ Intact s := by
  refine reached.keeps (fun s => Stacked s.calls s.activating ∧
    Passed plugins s.activated s.activating ∧ Intact s) ?_ ?_
  · rintro s rfl
    exact ⟨stacked_start, passed_start, intact_start⟩
  · rintro s label s' ⟨stacked, passed, intact⟩ soundly stepped
    have step := Step.of_next stepped
    refine ⟨step.stacked stacked, step.passed stacked ?_ passed, step.intact soundly stacked intact⟩
    rintro call id rfl isCall
    simp only [sound, isCall, State.deactivatesSoundly, Bool.and_eq_true] at soundly
    exact soundly.2

/-- **Only active plugins contribute**, in every quiet state of a run whose steps are sound. -/
theorem only_active_contribute
    (reached : (system plugins).ReachableBy (fun s label => sound plugins s label) s)
    (quiet : s.Quiet) : OnlyActive plugins s := by
  obtain ⟨stacked, passed, intact⟩ := intact_of_reached reached
  -- nothing is being activated, so the live plugins are the activated ones
  have live : ∀ id, s.Live id ↔ id ∈ s.activated := by
    intro id
    refine ⟨fun isLive => isLive.resolve_right ?_, .inl⟩
    intro isActivating
    obtain ⟨call, stack, failing, isCall, -⟩ := stacked.onStack id isActivating
    rw [quiet call] at isCall
    cases isCall
  constructor
  · intro c
    rw [intact.exact]
    simp only [live]
  · intro key cmd
    rw [intact.tidy.keymap]
    exact mem_keyChains intact.tidy.distinct
  · exact intact.once
  · exact passed.ended

end

/-! ## Two runs -/

/-- A command is left behind: its plugin is activated, and then deactivated. -/
def greeter : KukuPlugin where
  commands := [⟨"greeter.hello".toList, "Hello".toList, some ["$mod+H".toList]⟩]

def greeterAlone : PluginInstances := fun id =>
  if id = "greeter".toList then some greeter else none

def greeterRun : List Label :=
  [.activatePlugin 0 "greeter".toList, .register 0 none, .imported 0 none, .activateReturned 0 [],
    .deactivatePlugin 0 "greeter".toList, .deactivateSettled 0]

def greeterEnd : State := (System.run (next greeterAlone) {} greeterRun).getD {}

theorem greeterEnd_ran : System.run (next greeterAlone) {} greeterRun = some greeterEnd := rfl

theorem greeterEnd_quiet : greeterEnd.Quiet :=
  quiet_of_run 0 greeterEnd_ran (by decide) (fun _ _ => rfl) rfl

theorem command_left_behind : ¬ ∀ (plugins : PluginInstances) (s : State),
    (system plugins).Reachable s → s.Quiet → OnlyActive plugins s := by
  intro only
  have reached : (system greeterAlone).Reachable greeterEnd :=
    System.reachable_of_run (.start rfl) greeterEnd_ran
  have active := only greeterAlone greeterEnd reached greeterEnd_quiet
  have registered : Registered greeterEnd.registries
      (.command "greeter.hello".toList "greeter".toList
        ⟨"greeter.hello".toList, "Hello".toList, some ["$mod+H".toList]⟩) := ⟨none, rfl⟩
  obtain ⟨id, isActivated, -⟩ := (active.exact _).mp registered
  exact not_mem_nil isActivated

/-- A plugin with a view and node views that depends on another with a listener: both are
activated, the node views are built, and the dependent is deactivated. -/
def board : KukuPlugin where
  dependencies := ["store".toList]
  views :=
    [{ id := "board.tab".toList
       label := "Board".toList
       slot := .centerTab
       component := "Board".toList }]
  editor := some { extension := "card".toList, nodeViews := some "card view".toList }

def boardAndStore : PluginInstances := fun id =>
  if id = "board".toList then some board
  else if id = "store".toList then some {}
  else none

def boardRun : List Label :=
  [.activatePlugin 0 "board".toList, .activateDependency 0, .register 0 none, .imported 0 none,
    .contextCall 0 (.onEvent "vault:opened".toList "load".toList) true, .activateReturned 0 [],
    .register 0 none, .imported 0 none,
    .contextCall 0 (.setKey "open".toList (some (.plain "1".toList))) true, .activateReturned 0 [],
    .buildEnds 0 .built, .deactivatePlugin 0 "board".toList, .deactivateSettled 0]

def boardEnd : State := (System.run (next boardAndStore) {} boardRun).getD {}

theorem boardEnd_ran : System.run (next boardAndStore) {} boardRun = some boardEnd := rfl

theorem board_active : boardEnd.activated = ["store".toList] ∧ OnlyActive boardAndStore boardEnd :=
  ⟨rfl, only_active_contribute
    (System.reachableBy_of_runWhile (.start rfl)
      (show System.runWhile (sound boardAndStore) (next boardAndStore) {} boardRun = some boardEnd from rfl))
    (quiet_of_run 0 boardEnd_ran (by decide) (fun _ _ => rfl) rfl)⟩

theorem board_above_store : ∃ s, System.run (next boardAndStore) {} (boardRun.take 2) = some s ∧
    s.calls 0 = some (.activation ["store".toList, "board".toList] none) ∧
    Stacked s.calls s.activating :=
  ⟨_, rfl, rfl, on_one_stack (System.reachable_of_run (.start rfl)
    (show System.run (next boardAndStore) {} (boardRun.take 2) = some _ from rfl))⟩

end Kuku.Plugins
