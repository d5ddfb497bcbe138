/-
# Plugins.Steps -- the ways a step can go

`next` is a function of a label; `Step` lists its branches, each with what is known of the state
before, and `Step.of_next` says that these are all.  What is proved of a run is proved by cases
of `Step`.
-/
import Kuku.Plugins.Lifecycle

namespace Kuku.Plugins

open Kuku.Theory List Option

variable (plugins : PluginInstances)

/-- What changes neither who is live nor what is registered. -/
structure Outside (s s' : State) : Prop where
  calls : s'.calls = s.calls
  activating : s'.activating = s.activating
  activated : s'.activated = s.activated
  disposerMap : s'.disposerMap = s.disposerMap
  contributed : s'.contributed = s.contributed
  builds : s'.registries.builds = s.registries.builds
  registered : ∀ c, Registered s'.registries c ↔ Registered s.registries c
  tidy : Tidy s.registries → Tidy s'.registries

/-- The steps, one constructor for each way a label can go. -/
inductive Step (s : State) : Label → State → Prop
  | idle {label : Label} : Step s label s
  | entered {call : Nat} {id : Str} {dependencies : List Str} (isFree : s.calls call = none)
      (admitted : s.admit plugins id = .entered dependencies) :
      Step s (.activatePlugin call id) (s.enter call id dependencies [])
  | dependencyThere {call : Nat} {id dependency : Str} {below remaining : List Str}
      {disposers : List Disposer}
      (running : s.running call = some (id, below, ⟨.dependencies (dependency :: remaining), disposers⟩))
      (isThere : dependency ∈ s.activated) :
      Step s (.activateDependency call) (s.setFrame id ⟨.dependencies remaining, disposers⟩)
  | dependencyRefused {call : Nat} {id dependency error : Str} {below remaining : List Str}
      {disposers : List Disposer}
      (running : s.running call = some (id, below, ⟨.dependencies (dependency :: remaining), disposers⟩)) :
      Step s (.activateDependency call) (s.fail call id below error)
  | dependencyEntered {call : Nat} {id dependency : Str} {below remaining dependencies : List Str}
      {disposers : List Disposer}
      (running : s.running call = some (id, below, ⟨.dependencies (dependency :: remaining), disposers⟩))
      (admitted : s.admit plugins dependency = .entered dependencies) :
      Step s (.activateDependency call)
        ((s.setFrame id ⟨.awaiting dependency remaining, disposers⟩).enter call dependency
          dependencies (id :: below))
  | registered {call : Nat} {id : Str} {below : List Str} {disposers : List Disposer}
      {plugin : KukuPlugin} {fault : Option Fault}
      (running : s.running call = some (id, below, ⟨.dependencies [], disposers⟩))
      (isPlugin : plugins id = some plugin)
      (unreached : ∀ faulty, fault = some faulty → (plugin.declared id).length ≤ faulty.index) :
      Step s (.register call fault) (s.registerDeclared id (plugin.declared id))
  | registerThrew {call : Nat} {id : Str} {below : List Str} {disposers : List Disposer}
      {plugin : KukuPlugin} {fault : Fault} {registries : Registries}
      (running : s.running call = some (id, below, ⟨.dependencies [], disposers⟩))
      (isPlugin : plugins id = some plugin)
      (threw : registerUntil s.registries id (plugin.declared id) fault = some registries) :
      Step s (.register call (some fault))
        ({ s with registries := registries }.fail call id below fault.error)
  | imported {call : Nat} {id : Str} {below : List Str} {disposers : List Disposer}
      (running : s.running call = some (id, below, ⟨.importing, disposers⟩)) :
      Step s (.imported call none) (s.setFrame id ⟨.activate, disposers⟩)
  | importFailed {call : Nat} {id error : Str} {below : List Str} {disposers : List Disposer}
      (running : s.running call = some (id, below, ⟨.importing, disposers⟩)) :
      Step s (.imported call (some error)) (s.fail call id below error)
  | performed {call : Nat} {id : Str} {below : List Str} {disposers : List Disposer}
      {contextCall : ContextCall}
      (running : s.running call = some (id, below, ⟨.activate, disposers⟩)) :
      Step s (.contextCall call contextCall true) (s.perform id ⟨.activate, disposers⟩ contextCall)
  | leftBehind {call : Nat} {id : Str} {below : List Str} {disposers : List Disposer}
      {contextCall : ContextCall}
      (running : s.running call = some (id, below, ⟨.activate, disposers⟩)) :
      Step s (.contextCall call contextCall false)
        { s with registries := contextCall.leave s.registries id }
  | returned {call : Nat} {id : Str} {below : List Str} {disposers returned : List Disposer}
      (running : s.running call = some (id, below, ⟨.activate, disposers⟩)) :
      Step s (.activateReturned call returned) (s.succeed call id below (disposers ++ returned))
  | threw {call : Nat} {id error : Str} {below : List Str} {disposers : List Disposer}
      (running : s.running call = some (id, below, ⟨.activate, disposers⟩)) :
      Step s (.activateThrew call error)
        ({ s with registries := runDisposers s.registries disposers }.fail call id below error)
  | unwound {call : Nat} {id error : Str} {below : List Str}
      (isCall : s.calls call = some (.activation (id :: below) (some error))) :
      Step s (.unwind call) (s.fail call id below error)
  | deactivation {call : Nat} {id : Str} (isFree : s.calls call = none) :
      Step s (.deactivatePlugin call id) (s.setCall call (some (.deactivation id)))
  | deactivated {call : Nat} {id : Str} (isCall : s.calls call = some (.deactivation id)) :
      Step s (.deactivateSettled call) (s.deactivate call id)
  | buildSettled {index : Nat} {ends : BuildEnd} {build : NodeViewBuild}
      (isBuild : s.registries.builds[index]? = some build) (isPending : build.pending = true)
      (settled : build.cancelled = true ∨ ends = .failed) :
      Step s (.buildEnds index ends)
        { s with registries := setBuild s.registries index { build with pending := false } }
  | buildRefused {index : Nat} {build : NodeViewBuild}
      (isBuild : s.registries.builds[index]? = some build) (isPending : build.pending = true)
      (goesOn : build.cancelled = false) :
      Step s (.buildEnds index .refused)
        { s with registries := endBuild s.registries index build .refused }
  | built {index : Nat} {build : NodeViewBuild}
      (isBuild : s.registries.builds[index]? = some build) (isPending : build.pending = true)
      (goesOn : build.cancelled = false) :
      Step s (.buildEnds index .built) (s.inject index build)
  | outside {label : Label} {s' : State} (same : Outside s s') : Step s label s'

variable {plugins} {s s' : State} {label : Label} {call : Nat} {id : Str} {below : List Str}
  {frame : Frame}

theorem running_eq : s.running call = some (id, below, frame) ↔
    s.calls call = some (.activation (id :: below) none) ∧ s.activating.get id = some frame := by
  unfold State.running
  split
  · rename_i other rest isCall
    rw [isCall]
    constructor
    · intro isRunning
      obtain ⟨held, isHeld, same⟩ := map_eq_some_iff.mp isRunning
      cases same
      exact ⟨rfl, isHeld⟩
    · rintro ⟨same, isHeld⟩
      cases same
      rw [isHeld]
      rfl
  · rename_i isOther
    constructor
    · rintro ⟨⟩
    · rintro ⟨isCall, -⟩
      exact absurd isCall (isOther id below)

theorem admit_already {dependency : Str} (already : s.admit plugins dependency = .already) :
    dependency ∈ s.activated := by
  unfold State.admit at already
  split_ifs at already with isThere
  · exact isThere
  · split at already <;> cases already

theorem admit_entered {dependencies : List Str} (entered : s.admit plugins id = .entered dependencies) :
    id ∉ s.activated ∧ s.activating.get id = none ∧
      ∃ plugin, plugins id = some plugin ∧ plugin.dependencies = dependencies := by
  unfold State.admit at entered
  split_ifs at entered with isThere _ _ isActivating
  split at entered
  · cases entered
  · rename_i plugin isPlugin
    cases entered
    exact ⟨isThere, not_isSome_iff_eq_none.mp isActivating, plugin, isPlugin, rfl⟩

/-! ## Every step is one of these -/

theorem outside_updateCommandKeys (commandId : Str) (newKeys : List Str) :
    Outside s { s with registries := updateCommandKeys s.registries commandId newKeys } := by
  unfold updateCommandKeys
  split
  · exact ⟨rfl, rfl, rfl, rfl, rfl, rfl, fun _ => Iff.rfl, id⟩
  · rename_i reg isReg
    refine ⟨rfl, rfl, rfl, rfl, rfl, rfl, ?_, ?_⟩
    · intro c
      rw [registered_rebuildKeymap]
      cases c with
      | command other pluginId contribution =>
        by_cases isIt : other = commandId
        · subst isIt
          obtain ⟨owner, held, keys⟩ := reg
          simp [Registered, isReg]
        · simp [Registered, Assoc.get_put_of_ne isIt]
      | _ => rfl
    · intro tidy
      exact ⟨Assoc.nodup_put tidy.distinct, rfl⟩

theorem outside_createKukuEditor :
    Outside s { s with registries := createKukuEditor s.registries } := by
  unfold createKukuEditor destroyEditor
  refine ⟨rfl, rfl, rfl, rfl, rfl, ?_, ?_, ?_⟩
  · dsimp only
    split_ifs <;> rfl
  · intro c
    dsimp only
    split_ifs <;> cases c <;> rfl
  · intro tidy
    dsimp only
    split_ifs
    · exact ⟨tidy.distinct, tidy.keymap⟩
    · exact ⟨tidy.distinct, tidy.keymap⟩

theorem outside_destroyEditor : Outside s { s with registries := destroyEditor s.registries } where
  calls := rfl
  activating := rfl
  activated := rfl
  disposerMap := rfl
  contributed := rfl
  builds := rfl
  registered c := by cases c <;> rfl
  tidy tidy := ⟨tidy.distinct, tidy.keymap⟩

theorem step_activateDependency {dependency : Str} {remaining : List Str}
    {disposers : List Disposer}
    (running : s.running call = some (id, below, ⟨.dependencies (dependency :: remaining), disposers⟩)) :
    Step plugins s (.activateDependency call)
      (activateDependency plugins s call id below dependency remaining disposers) := by
  unfold activateDependency
  split
  · rename_i already
    exact .dependencyThere running (admit_already already)
  · exact .dependencyRefused running
  · rename_i admitted
    exact .dependencyEntered running admitted

theorem step_register {disposers : List Disposer} {plugin : KukuPlugin} (fault : Option Fault)
    (running : s.running call = some (id, below, ⟨.dependencies [], disposers⟩))
    (isPlugin : plugins id = some plugin) :
    Step plugins s (.register call fault)
      (s.registerStep call id below (plugin.declared id) fault) := by
  unfold State.registerStep
  split
  · exact .registered running isPlugin fun faulty isFault => nomatch isFault
  · rename_i fault
    split
    · rename_i unreached
      refine .registered running isPlugin ?_
      rintro faulty ⟨⟩
      rw [registerUntil, map_eq_none_iff, List.getElem?_eq_none_iff] at unreached
      exact unreached
    · rename_i threw
      exact .registerThrew running isPlugin threw

theorem step_buildEnds {index : Nat} {build : NodeViewBuild} (ends : BuildEnd)
    (isBuild : s.registries.builds[index]? = some build) (isPending : build.pending = true) :
    Step plugins s (.buildEnds index ends) (s.endBuild index build ends) := by
  obtain ⟨pluginId, extension, pending, cancelled, disposer⟩ := build
  cases cancelled with
  | true => exact .buildSettled isBuild isPending (.inl rfl)
  | false =>
    cases ends with
    | built => exact .built isBuild isPending rfl
    | failed => exact .buildSettled isBuild isPending (.inr rfl)
    | refused => exact .buildRefused isBuild isPending rfl

theorem Step.of_next (stepped : next plugins s label = some s') : Step plugins s label s' := by
  cases label with
  | activatePlugin call id =>
    simp only [next] at stepped
    split_ifs at stepped with busy
    split at stepped <;> cases stepped
    · rename_i admitted
      exact .entered (not_isSome_iff_eq_none.mp busy) admitted
    · exact .idle
  | activateDependency call =>
    simp only [next] at stepped
    split at stepped <;> cases stepped
    rename_i running
    exact step_activateDependency running
  | register call fault =>
    simp only [next] at stepped
    split at stepped
    · rename_i running
      obtain ⟨plugin, isPlugin, rfl⟩ := map_eq_some_iff.mp stepped
      exact step_register fault running isPlugin
    · cases stepped
  | imported call error =>
    simp only [next] at stepped
    split at stepped
    · rename_i running
      split at stepped <;> cases stepped
      · exact .imported running
      · exact .importFailed running
    · cases stepped
  | contextCall call contextCall completes =>
    simp only [next] at stepped
    split at stepped
    · rename_i running
      split_ifs at stepped with completed
      · cases stepped
        subst completed
        exact .performed running
      · cases stepped
        rw [Bool.not_eq_true] at completed
        subst completed
        exact .leftBehind running
    · cases stepped
  | activateReturned call returned =>
    simp only [next] at stepped
    split at stepped <;> cases stepped
    rename_i running
    exact .returned running
  | activateThrew call error =>
    simp only [next] at stepped
    split at stepped <;> cases stepped
    rename_i running
    exact .threw running
  | unwind call =>
    simp only [next] at stepped
    split at stepped <;> cases stepped
    rename_i isCall
    exact .unwound isCall
  | deactivatePlugin call id =>
    simp only [next] at stepped
    split_ifs at stepped with busy
    split at stepped <;> cases stepped
    · exact .idle
    · exact .deactivation (not_isSome_iff_eq_none.mp busy)
  | deactivateSettled call =>
    simp only [next] at stepped
    split at stepped <;> cases stepped
    rename_i isCall
    exact .deactivated isCall
  | buildEnds index ends =>
    simp only [next] at stepped
    split at stepped
    · rename_i build isBuild
      by_cases isPending : build.pending = true
      · rw [if_pos isPending] at stepped
        cases stepped
        exact step_buildEnds ends isBuild isPending
      · rw [if_neg isPending] at stepped
        cases stepped
    · cases stepped
  | setDisabledPlugins ids =>
    cases stepped
    exact .outside ⟨rfl, rfl, rfl, rfl, rfl, rfl, fun _ => Iff.rfl, id⟩
  | markPluginFailed id =>
    cases stepped
    exact .outside ⟨rfl, rfl, rfl, rfl, rfl, rfl, fun _ => Iff.rfl, fun tidy => tidy⟩
  | updateCommandKeys commandId newKeys =>
    cases stepped
    exact .outside (outside_updateCommandKeys commandId newKeys)
  | createKukuEditor =>
    cases stepped
    exact .outside outside_createKukuEditor
  | destroyEditor =>
    cases stepped
    exact .outside outside_destroyEditor

/-! ## Whose step it is -/

def Label.moves : Label → Option Nat
  | .activatePlugin call _ => some call
  | .activateDependency call => some call
  | .register call _ => some call
  | .imported call _ => some call
  | .contextCall call _ _ => some call
  | .activateReturned call _ => some call
  | .activateThrew call _ => some call
  | .unwind call => some call
  | .deactivatePlugin call _ => some call
  | .deactivateSettled call => some call
  | _ => none

theorem Step.calls_of_ne (step : Step plugins s label s') {other : Nat}
    (differs : label.moves ≠ some other) : s'.calls other = s.calls other := by
  have moved : ∀ {call : Nat} (value : Option Call), call ≠ other →
      Function.update s.calls call value other = s.calls other :=
    fun value isOther => Function.update_of_ne (Ne.symm isOther) _ _
  have isOther : ∀ {call : Nat}, some call ≠ some other → call ≠ other :=
    fun unequal isIt => unequal (congrArg some isIt)
  cases step with
  | entered _ _ => exact moved _ (isOther differs)
  | dependencyRefused _ => exact moved _ (isOther differs)
  | dependencyEntered _ _ => exact moved _ (isOther differs)
  | registerThrew _ _ _ => exact moved _ (isOther differs)
  | importFailed _ => exact moved _ (isOther differs)
  | returned _ => exact moved _ (isOther differs)
  | threw _ => exact moved _ (isOther differs)
  | unwound _ => exact moved _ (isOther differs)
  | deactivation _ => exact moved _ (isOther differs)
  | deactivated _ => exact moved _ (isOther differs)
  | outside same => rw [same.calls]
  | _ => rfl

/-- Where only one call has moved, a run is quiet when that call has ended. -/
theorem quiet_of_run (call : Nat) {labels : List Label}
    (ran : System.run (next plugins) s labels = some s')
    (others : ∀ label ∈ labels, label.moves = none ∨ label.moves = some call)
    (before : ∀ other, other ≠ call → s.calls other = none)
    (ended : s'.calls call = none) : s'.Quiet := by
  have kept : ∀ other, other ≠ call → s'.calls other = none := by
    induction labels generalizing s with
    | nil =>
      cases ran
      exact before
    | cons label rest ih =>
      simp only [System.run, bind_eq_some_iff] at ran
      obtain ⟨middle, stepped, ran⟩ := ran
      refine ih ran (fun later among => others later (mem_cons_of_mem _ among)) ?_
      intro other differs
      rw [(Step.of_next stepped).calls_of_ne, before other differs]
      intro isIt
      rcases others label mem_cons_self with isNone | isCall
      · rw [isNone] at isIt
        cases isIt
      · rw [isCall] at isIt
        exact differs (Option.some.inj isIt).symm
  intro other
  by_cases isIt : other = call
  · rw [isIt, ended]
  · exact kept other isIt

end Kuku.Plugins
