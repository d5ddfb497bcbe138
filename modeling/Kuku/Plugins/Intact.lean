/-
# Plugins.Intact -- what stands in the registries, and what will take it away

A plugin that is activated or being activated is *live*.  The invariant (`Intact`) is that what
stands in the registries is what live plugins have contributed, and that for each of these
contributions there is a disposer or a name by which it will be taken away.  It survives a step
that is `sound`: commands are only registered and never taken away, a place is used once, a
contribution that throws comes before all others, and nobody is deactivated whom another plugin
depends on or whose name another plugin's contributions bear.
-/
import Kuku.Plugins.Activation
import Kuku.Plugins.Registering

namespace Kuku.Plugins

open Kuku.Theory List Function Option Assoc

variable (plugins : PluginInstances)

/-! ## What is asked of a step -/

/-- The plugins that are activated or being activated. -/
def State.live (s : State) : List Str := s.activated ++ s.activating.map Prod.fst

/-- No fault is reached, or the first thing that is done throws, and has not written. -/
def registersSoundly (registries : Registries) (id : Str) (declared : List Declared) :
    Option Fault → Bool
  | none => fitAll registries id declared
  | some fault =>
    if fault.index < declared.length then fault.index = 0 && !fault.written
    else fitAll registries id declared

/-- No other live plugin has contributed what is taken away. -/
def State.spares (s : State) (id : Str) (taken : Contribution → Bool) : Bool :=
  s.live.all fun other => other = id || (s.contributed other).all fun c => !taken c

/-- A context key that is deleted is no other plugin's; what is registered fits its place. -/
def State.callsSoundly (s : State) (id : Str) : ContextCall → Bool
  | .setKey key none => s.spares id fun c => c = .contextKey (qualified id key)
  | .setKey _ (some _) => true
  | call => (call.record id []).all (fits s.registries)

/-- The disposers undo everything the plugin has contributed, and nothing of another's. -/
def State.rollsBackSoundly (s : State) (id : Str) (disposers : List Disposer) : Bool :=
  ((s.contributed id).all fun c => !c.isCommand && !c.isContextKey) &&
    s.spares id (removesAny s.registries.builds disposers)

/-- An activated plugin has contributed no command, one that is being activated nothing with its
name, and no other plugin anything that goes with this one. -/
def State.deactivatesSoundly (s : State) (id : Str) : Bool :=
  let disposers := (s.disposerMap.get id).getD []
  (id ∉ s.activated || (s.contributed id).all fun c => !c.isCommand) &&
    ((s.activating.get id).isNone || (s.contributed id).all fun c => !sweeps id c) &&
    (s.spares id fun c => removesAny s.registries.builds disposers c || sweeps id c) &&
    s.unneeded plugins id

def sound (s : State) : Label → Bool
  | .register call fault =>
    match s.running call with
    | some (id, _, _) =>
      (plugins id).all fun plugin =>
        registersSoundly s.registries id (plugin.declared id) fault
    | none => true
  | .imported call (some _) =>
    match s.running call with
    | some (id, _, _) => (s.contributed id).isEmpty
    | none => true
  | .contextCall call contextCall completes =>
    match s.running call with
    | some (id, _, _) => completes && s.callsSoundly id contextCall
    | none => true
  | .activateThrew call _ =>
    match s.running call with
    | some (id, _, frame) => s.rollsBackSoundly id frame.disposers
    | none => true
  | .deactivateSettled call =>
    match s.calls call with
    | some (.deactivation id) => s.deactivatesSoundly plugins id
    | _ => true
  | .buildEnds index ends =>
    match s.registries.builds[index]? with
    | some build =>
      build.cancelled || ends = .failed ||
        (ends = .built &&
          fits s.registries (.extension (nodeViewsKey build.pluginId) build.extension))
    | none => true
  | _ => true

/-! ## The invariant -/

def State.Live (s : State) (id : Str) : Prop := id ∈ s.activated ∨ (s.activating.get id).isSome

/-- These are the disposers of a live plugin. -/
def State.Tracks (s : State) (id : Str) (disposers : List Disposer) : Prop :=
  s.disposerMap.get id = some disposers ∨ ∃ phase, s.activating.get id = some { phase, disposers }

def Phase.isWaiting : Phase → Bool
  | .dependencies _ => true
  | .awaiting _ _ => true
  | _ => false

/-- What will become of a contribution when its plugin is deactivated: a command stays, a context
key goes by its name, and everything else has a disposer. -/
def Undone (builds : List NodeViewBuild) (id : Str) (disposers : List Disposer) (c : Contribution) :
    Prop :=
  c.isCommand = true ∨ (c.isContextKey = true ∧ sweeps id c = true) ∨
    removesAny builds disposers c = true

structure Intact (s : State) : Prop where
  tidy : Tidy s.registries
  exact : ∀ c, Registered s.registries c ↔ ∃ id, s.Live id ∧ c ∈ s.contributed id
  waiting : ∀ id frame, s.activating.get id = some frame → frame.phase.isWaiting = true →
    s.contributed id = []
  mapped : ∀ id, (s.disposerMap.get id).isSome ↔ id ∈ s.activated
  undone : ∀ id disposers, s.Tracks id disposers →
    ∀ c ∈ s.contributed id, Undone s.registries.builds id disposers c
  building : ∀ (index : Nat) (cell : NodeViewBuild), s.registries.builds[index]? = some cell →
    cell.pending = true → cell.cancelled = false →
    (∃ extension, .extension cell.pluginId extension ∈ s.contributed cell.pluginId) ∧
      ∃ disposers live markdown, s.Tracks cell.pluginId disposers ∧
        .editor cell.pluginId live (some index) markdown ∈ disposers
  apart : ∀ id ∈ s.activated, s.activating.get id = none
  once : s.activated.Nodup

section

variable {plugins} {s s' : State} {label : Label} {call : Nat} {id : Str} {below : List Str}
  {frame : Frame} {c : Contribution} {registries : Registries}

theorem mem_live : id ∈ s.live ↔ s.Live id := by
  rw [State.live, mem_append, Assoc.mem_keys, State.Live]

theorem spares_iff {taken : Contribution → Bool} : s.spares id taken = true ↔
    ∀ other, other ≠ id → s.Live other → ∀ c ∈ s.contributed other, taken c = false := by
  simp only [State.spares, List.all_eq_true, Bool.or_eq_true, decide_eq_true_eq,
    Bool.not_eq_true', mem_live]
  constructor
  · intro spares other differs isLive
    exact (spares other isLive).resolve_left differs
  · intro spares other isLive
    by_cases isIt : other = id
    · exact .inl isIt
    · exact .inr (spares other isIt isLive)

namespace Intact

theorem notActivated (intact : Intact s) (isFrame : s.activating.get id = some frame) :
    id ∉ s.activated := by
  intro among
  simp [intact.apart id among] at isFrame

variable {disposers : List Disposer}

variable (intact : Intact s)

include intact

theorem tracks_frame (isFrame : s.activating.get id = some frame) (tracks : s.Tracks id disposers) :
    disposers = frame.disposers := by
  rcases tracks with isMapped | ⟨phase, isFrame'⟩
  · refine absurd ((intact.mapped id).mp ?_) (intact.notActivated isFrame)
    rw [isMapped]
    rfl
  · rw [isFrame] at isFrame'
    cases isFrame'
    rfl

theorem tracks_mapped (among : id ∈ s.activated) (tracks : s.Tracks id disposers) :
    (s.disposerMap.get id).getD [] = disposers := by
  rcases tracks with isMapped | ⟨phase, isFrame⟩
  · rw [isMapped]
    rfl
  · exact absurd among (intact.notActivated isFrame)

theorem live_of_tracks (tracks : s.Tracks id disposers) : s.Live id := by
  rcases tracks with isMapped | ⟨phase, isFrame⟩
  · refine .inl ((intact.mapped id).mp ?_)
    rw [isMapped]
    rfl
  · right
    rw [isFrame]
    rfl

theorem tracks_unique {first second : List Disposer} (left : s.Tracks id first)
    (right : s.Tracks id second) : first = second := by
  by_cases among : id ∈ s.activated
  · rw [← intact.tracks_mapped among left, intact.tracks_mapped among right]
  · rcases left with isMapped | ⟨phase, isFrame⟩
    · refine absurd ((intact.mapped id).mp ?_) among
      rw [isMapped]
      rfl
    · exact (intact.tracks_frame isFrame right).symm

/-- Nobody's contributions and disposers are changed, and no frame that waits has contributed. -/
theorem congr (registries : s'.registries = s.registries)
    (contributed : s'.contributed = s.contributed) (activated : s'.activated = s.activated)
    (disposerMap : s'.disposerMap = s.disposerMap)
    (frames : ∀ other, (s'.activating.get other).map (·.disposers) =
      (s.activating.get other).map (·.disposers))
    (waiting : ∀ other frame, s'.activating.get other = some frame →
      frame.phase.isWaiting = true → s.contributed other = []) : Intact s' := by
  have present : ∀ other, (s'.activating.get other).isSome ↔ (s.activating.get other).isSome := by
    intro other
    have same := congrArg Option.isSome (frames other)
    simp only [isSome_map] at same
    rw [same]
  have live : ∀ other, s'.Live other ↔ s.Live other := by
    intro other
    rw [State.Live, State.Live, activated, present]
  have tracks : ∀ other disposers, s'.Tracks other disposers ↔ s.Tracks other disposers := by
    intro other disposers
    have framed : ∀ state : State, (∃ phase, state.activating.get other = some ⟨phase, disposers⟩) ↔
        (state.activating.get other).map (·.disposers) = some disposers := by
      intro state
      rw [map_eq_some_iff]
      constructor
      · rintro ⟨phase, isFrame⟩
        exact ⟨_, isFrame, rfl⟩
      · rintro ⟨⟨phase, _⟩, isFrame, rfl⟩
        exact ⟨phase, isFrame⟩
    rw [State.Tracks, State.Tracks, disposerMap, framed, framed, frames]
  constructor
  · rw [registries]
    exact intact.tidy
  · intro c
    rw [registries, contributed, intact.exact]
    simp only [live]
  · intro other frame isFrame isWaiting
    rw [contributed]
    exact waiting other frame isFrame isWaiting
  · intro other
    rw [disposerMap, activated]
    exact intact.mapped other
  · intro other disposers isTracked c among
    rw [registries]
    rw [contributed] at among
    exact intact.undone other disposers ((tracks other disposers).mp isTracked) c among
  · intro index cell isCell isPending goesOn
    rw [registries] at isCell
    rw [contributed]
    obtain ⟨among, disposers, live, markdown, isTracked, held⟩ :=
      intact.building index cell isCell isPending goesOn
    exact ⟨among, disposers, live, markdown, (tracks _ _).mpr isTracked, held⟩
  · intro other among
    rw [activated] at among
    have absent := intact.apart other among
    rw [← not_isSome_iff_eq_none] at absent ⊢
    exact fun isSome => absent ((present other).mp isSome)
  · rw [activated]
    exact intact.once

/-- An activation goes on with the same disposers. -/
theorem setFrame {phase phase' : Phase} (isFrame : s.activating.get id = some ⟨phase, disposers⟩)
    (waiting : phase'.isWaiting = true → phase.isWaiting = true) :
    Intact (s.setFrame id ⟨phase', disposers⟩) := by
  refine intact.congr rfl rfl rfl rfl ?_ ?_
  · intro other
    rw [State.setFrame, get_put]
    split_ifs with isIt
    · rw [isIt, isFrame]
      rfl
    · rfl
  · intro other frame isFrame' isWaiting
    rw [State.setFrame, get_put] at isFrame'
    split_ifs at isFrame' with isIt
    · cases isFrame'
      subst isIt
      exact intact.waiting other _ isFrame (waiting isWaiting)
    · exact intact.waiting other frame isFrame' isWaiting

/-- A plugin that is not live begins to be activated. -/
theorem enter {dependencies : List Str} (inactive : id ∉ s.activated)
    (fresh : s.activating.get id = none) : Intact (s.enter call id dependencies below) := by
  have notLive : ¬ s.Live id := by
    rintro (among | isSome)
    · exact inactive among
    · simp [fresh] at isSome
  have frames : ∀ other, other ≠ id →
      (s.enter call id dependencies below).activating.get other = s.activating.get other :=
    fun other differs => get_put_of_ne differs
  have frame : (s.enter call id dependencies below).activating.get id =
      some { phase := .dependencies dependencies } := get_put_self
  have others : ∀ other, other ≠ id →
      (s.enter call id dependencies below).contributed other = s.contributed other :=
    fun other differs => update_of_ne differs _ _
  have nothing : (s.enter call id dependencies below).contributed id = [] := update_self _ _ _
  have live : ∀ other, other ≠ id →
      ((s.enter call id dependencies below).Live other ↔ s.Live other) := by
    intro other differs
    exact or_congr Iff.rfl (by rw [frames other differs])
  have tracks : ∀ other, other ≠ id → ∀ disposers,
      ((s.enter call id dependencies below).Tracks other disposers ↔ s.Tracks other disposers) := by
    intro other differs disposers
    exact or_congr Iff.rfl (by simp only [frames other differs])
  constructor
  · exact intact.tidy
  · intro c
    refine (intact.exact c).trans ⟨?_, ?_⟩
    · rintro ⟨other, isLive, among⟩
      have differs : other ≠ id := by
        rintro rfl
        exact notLive isLive
      exact ⟨other, (live other differs).mpr isLive, by rw [others other differs]; exact among⟩
    · rintro ⟨other, isLive, among⟩
      have differs : other ≠ id := by
        rintro rfl
        simp [nothing] at among
      rw [others other differs] at among
      exact ⟨other, (live other differs).mp isLive, among⟩
  · intro other frame' isFrame isWaiting
    by_cases isIt : other = id
    · rw [isIt, nothing]
    · rw [others other isIt]
      rw [frames other isIt] at isFrame
      exact intact.waiting other frame' isFrame isWaiting
  · exact intact.mapped
  · intro other disposers isTracked c among
    have differs : other ≠ id := by
      rintro rfl
      simp [nothing] at among
    rw [others other differs] at among
    exact intact.undone other disposers ((tracks other differs disposers).mp isTracked) c among
  · intro index cell isCell isPending goesOn
    obtain ⟨among, disposers, isLive, markdown, isTracked, held⟩ :=
      intact.building index cell isCell isPending goesOn
    have differs : cell.pluginId ≠ id := by
      intro isIt
      exact notLive (isIt ▸ intact.live_of_tracks isTracked)
    rw [others _ differs]
    exact ⟨among, disposers, isLive, markdown, (tracks _ differs _).mpr isTracked, held⟩
  · intro other among
    have differs : other ≠ id := by
      rintro rfl
      exact inactive among
    rw [frames other differs]
    exact intact.apart other among
  · exact intact.once

variable (isFrame : s.activating.get id = some frame)

include isFrame

/-- An activation is given up, once nothing it has contributed stands any more. -/
theorem fail {error : Str} (tidy : Tidy registries) (exact : ∀ c, Registered registries c ↔
      ∃ other, other ≠ id ∧ s.Live other ∧ c ∈ s.contributed other)
    (keys : ∀ build, injectedKey registries.builds build = injectedKey s.registries.builds build)
    (cells : ∀ (index : Nat) (cell : NodeViewBuild), registries.builds[index]? = some cell →
      cell.pending = true → cell.cancelled = false →
      s.registries.builds[index]? = some cell ∧ cell.pluginId ≠ id) :
    Intact ({ s with registries := registries }.fail call id below error) := by
  have inactive := intact.notActivated isFrame
  have frames : ∀ other, other ≠ id →
      ({ s with registries := registries }.fail call id below error).activating.get other =
        s.activating.get other := fun other differs => get_remove_of_ne differs
  have gone : ({ s with registries := registries }.fail call id below error).activating.get id =
      none := get_remove_self
  have live : ∀ other, ({ s with registries := registries }.fail call id below error).Live other ↔
      other ≠ id ∧ s.Live other := by
    intro other
    by_cases isIt : other = id
    · subst isIt
      simp [State.Live, State.fail, State.setCall, inactive]
    · simp only [State.Live, frames other isIt, ne_eq, isIt, not_false_iff, true_and]
      rfl
  have tracks : ∀ other disposers,
      ({ s with registries := registries }.fail call id below error).Tracks other disposers →
        s.Tracks other disposers := by
    rintro other disposers (isMapped | ⟨phase, isFrame'⟩)
    · exact .inl isMapped
    · have differs : other ≠ id := by
        rintro rfl
        simp [gone] at isFrame'
      exact .inr ⟨phase, (frames other differs).symm.trans isFrame'⟩
  constructor
  · exact tidy
  · intro c
    refine (exact c).trans ?_
    simp only [live, and_assoc]
    rfl
  · intro other frame' isFrame' isWaiting
    have differs : other ≠ id := by
      rintro rfl
      simp [gone] at isFrame'
    rw [frames other differs] at isFrame'
    exact intact.waiting other frame' isFrame' isWaiting
  · exact intact.mapped
  · intro other disposers isTracked c among
    exact (intact.undone other disposers (tracks other disposers isTracked) c among).imp_right
      (Or.imp_right fun removed => (removesAny_congr keys).trans removed)
  · intro index cell isCell isPending goesOn
    obtain ⟨was, differs⟩ := cells index cell isCell isPending goesOn
    obtain ⟨among, disposers, isLive, markdown, isTracked, held⟩ :=
      intact.building index cell was isPending goesOn
    refine ⟨among, disposers, isLive, markdown, ?_, held⟩
    refine isTracked.imp_right ?_
    rintro ⟨phase, isFrame'⟩
    exact ⟨phase, (frames _ differs).trans isFrame'⟩
  · intro other among
    have differs : other ≠ id := by
      rintro rfl
      exact inactive among
    rw [frames other differs]
    exact intact.apart other among
  · exact intact.once

/-- An activation that has contributed nothing is given up. -/
theorem failEmpty {error : Str} (nothing : s.contributed id = []) :
    Intact (s.fail call id below error) := by
  refine Intact.fail intact isFrame intact.tidy ?_ (fun _ => rfl) ?_
  · intro c
    refine (intact.exact c).trans ⟨?_, ?_⟩
    · rintro ⟨other, isLive, among⟩
      refine ⟨other, ?_, isLive, among⟩
      rintro rfl
      simp [nothing] at among
    · rintro ⟨other, -, isLive, among⟩
      exact ⟨other, isLive, among⟩
  · intro index cell isCell isPending goesOn
    refine ⟨isCell, ?_⟩
    intro isIt
    obtain ⟨⟨extension, among⟩, -⟩ := intact.building index cell isCell isPending goesOn
    rw [isIt, nothing] at among
    cases among

/-- The plugin's `activate` has thrown, and its disposers have run. -/
theorem rollBack {error : Str} (soundly : s.rollsBackSoundly id frame.disposers = true) :
    Intact ({ s with registries := runDisposers s.registries frame.disposers }.fail
      call id below error) := by
  simp only [State.rollsBackSoundly, Bool.and_eq_true, List.all_eq_true, Bool.not_eq_true',
    spares_iff] at soundly
  obtain ⟨undone, spared⟩ := soundly
  have isTracked : s.Tracks id frame.disposers := .inr ⟨frame.phase, isFrame⟩
  refine intact.fail isFrame (tidy_runDisposers intact.tidy _) ?_
    (injectedKey_runDisposers frame.disposers) ?_
  · intro c
    rw [registered_runDisposers intact.tidy, intact.exact]
    constructor
    · rintro ⟨⟨other, isLive, among⟩, kept⟩
      refine ⟨other, ?_, isLive, among⟩
      rintro rfl
      -- its own contributions have all been taken away
      obtain ⟨noCommand, noKey⟩ := undone c among
      rcases intact.undone other _ isTracked c among with isCommand | ⟨isKey, -⟩ | removed
      · simp [noCommand] at isCommand
      · simp [noKey] at isKey
      · simp [kept] at removed
    · rintro ⟨other, differs, isLive, among⟩
      exact ⟨⟨other, isLive, among⟩, spared other differs isLive c among⟩
  · intro index cell isCell isPending goesOn
    rw [builds_runDisposers, map_eq_some_iff] at isCell
    obtain ⟨was, isWas, isNow⟩ := isCell
    split_ifs at isNow with isCancelled
    · rw [← isNow] at goesOn
      cases goesOn
    · subst isNow
      refine ⟨isWas, ?_⟩
      intro isIt
      obtain ⟨-, disposers, live, markdown, isTracked', held⟩ :=
        intact.building index was isWas isPending goesOn
      rw [isIt] at isTracked' held
      rw [intact.tracks_frame isFrame isTracked'] at held
      exact isCancelled (List.any_eq_true.mpr ⟨_, held, decide_eq_true rfl⟩)

omit isFrame

/-- The plugin's `activate` has returned. -/
theorem succeed {disposers returned : List Disposer}
    (isFrame : s.activating.get id = some ⟨.activate, disposers⟩) :
    Intact (s.succeed call id below (disposers ++ returned)) := by
  have inactive := intact.notActivated isFrame
  have isSome : ∀ other, other ≠ id →
      (((s.succeed call id below (disposers ++ returned)).activating.get other).isSome ↔
        (s.activating.get other).isSome) := by
    intro other differs
    refine isSome_resumed.trans ?_
    rw [get_remove_of_ne differs]
  have gone : (s.succeed call id below (disposers ++ returned)).activating.get id = none := by
    rw [← not_isSome_iff_eq_none]
    intro isThere
    have := isSome_resumed.mp isThere
    simp at this
  have live : ∀ other, (s.succeed call id below (disposers ++ returned)).Live other ↔ s.Live other := by
    intro other
    by_cases isIt : other = id
    · subst isIt
      simp [State.Live, State.succeed, State.setCall, isFrame]
    · refine or_congr ?_ (isSome other isIt)
      simp [State.succeed, State.setCall, isIt]
  have tracks : ∀ other held,
      (s.succeed call id below (disposers ++ returned)).Tracks other held →
        (other ≠ id ∧ s.Tracks other held) ∨ (other = id ∧ held = disposers ++ returned) := by
    rintro other held (isMapped | ⟨phase, isFrame'⟩)
    · change (s.disposerMap.put id _).get other = _ at isMapped
      rw [get_put] at isMapped
      split_ifs at isMapped with isIt
      · cases isMapped
        exact .inr ⟨isIt, rfl⟩
      · exact .inl ⟨isIt, .inl isMapped⟩
    · have differs : other ≠ id := by
        rintro rfl
        simp [gone] at isFrame'
      refine .inl ⟨differs, .inr ?_⟩
      rcases get_resumed_some isFrame' with same | ⟨dependency, remaining, held', -, was, same⟩
      · exact ⟨phase, (get_remove_of_ne differs).symm.trans same⟩
      · cases same
        exact ⟨_, (get_remove_of_ne differs).symm.trans was⟩
  constructor
  · exact intact.tidy
  · intro c
    refine (intact.exact c).trans ?_
    simp only [live]
    rfl
  · intro other frame' isFrame' isWaiting
    have differs : other ≠ id := by
      rintro rfl
      simp [gone] at isFrame'
    rcases get_resumed_some isFrame' with same | ⟨dependency, remaining, held, -, was, rfl⟩
    · exact intact.waiting other frame' ((get_remove_of_ne differs).symm.trans same) isWaiting
    · exact intact.waiting other _ ((get_remove_of_ne differs).symm.trans was) rfl
  · intro other
    change ((s.disposerMap.put id _).get other).isSome ↔ other ∈ s.activated ++ [id]
    rw [get_put, mem_append, mem_singleton]
    split_ifs with isIt
    · simp [isIt]
    · simp [isIt, intact.mapped other]
  · intro other held isTracked c among
    rcases tracks other held isTracked with ⟨-, was⟩ | ⟨rfl, rfl⟩
    · exact intact.undone other held was c among
    · refine (intact.undone other disposers (.inr ⟨_, isFrame⟩) c among).imp_right
        (Or.imp_right fun removed => ?_)
      change (disposers ++ returned).any _ = true
      rw [any_append, Bool.or_eq_true]
      exact .inl removed
  · intro index cell isCell isPending goesOn
    obtain ⟨among, held, isLive, markdown, isTracked, isHeld⟩ :=
      intact.building index cell isCell isPending goesOn
    refine ⟨among, ?_⟩
    by_cases isIt : cell.pluginId = id
    · rw [isIt] at isTracked isHeld ⊢
      rw [intact.tracks_frame isFrame isTracked] at isHeld
      exact ⟨_, isLive, markdown, .inl get_put_self, mem_append_left _ isHeld⟩
    · refine ⟨held, isLive, markdown, ?_, isHeld⟩
      rcases isTracked with isMapped | ⟨phase, isFrame'⟩
      · exact .inl ((get_put_of_ne isIt).trans isMapped)
      · right
        change ∃ phase, (resumed (s.activating.remove id) below).get cell.pluginId = _
        have was : (s.activating.remove id).get cell.pluginId = some ⟨phase, held⟩ :=
          (get_remove_of_ne isIt).trans isFrame'
        unfold resumed
        split
        · exact ⟨phase, was⟩
        · split
          · rename_i awaits
            rw [get_put]
            split_ifs with isParent
            · rw [← isParent, was] at awaits
              cases awaits
              exact ⟨_, rfl⟩
            · exact ⟨phase, was⟩
          · exact ⟨phase, was⟩
  · intro other among
    rcases mem_append.mp among with earlier | isIt
    · have differs : other ≠ id := by
        rintro rfl
        exact inactive earlier
      rw [← not_isSome_iff_eq_none, isSome other differs]
      simp [intact.apart other earlier]
    · rw [mem_singleton.mp isIt]
      exact gone
  · change (s.activated ++ [id]).Nodup
    rw [nodup_append]
    refine ⟨intact.once, nodup_singleton id, ?_⟩
    intro other among last isLast
    rw [mem_singleton.mp isLast]
    rintro rfl
    exact inactive among

/-- **One live plugin contributes.** -/
theorem contributes {disposers' : List Disposer} (activated : s'.activated = s.activated)
    (disposerMap : s'.disposerMap = s.disposerMap)
    (frames : ∀ other, other ≠ id → s'.activating.get other = s.activating.get other)
    (present : (s'.activating.get id).isSome ↔ (s.activating.get id).isSome)
    (others : ∀ other, other ≠ id → s'.contributed other = s.contributed other)
    (tracks : ∀ held, s'.Tracks id held ↔ held = disposers') (tidy : Tidy s'.registries)
    (exact : ∀ c, Registered s'.registries c ↔ ∃ other, s.Live other ∧ c ∈ s'.contributed other)
    (waiting : ∀ frame, s'.activating.get id = some frame → frame.phase.isWaiting = true →
      s'.contributed id = [])
    (undone : ∀ c ∈ s'.contributed id, Undone s'.registries.builds id disposers' c)
    (keys : ∀ build key, injectedKey s.registries.builds build = some key →
      injectedKey s'.registries.builds build = some key)
    (cells : ∀ (index : Nat) (cell : NodeViewBuild), s'.registries.builds[index]? = some cell →
      cell.pending = true → cell.cancelled = false →
      (cell.pluginId ≠ id ∧ s.registries.builds[index]? = some cell) ∨
        cell.pluginId = id ∧ (∃ extension, .extension id extension ∈ s'.contributed id) ∧
          ∃ live markdown, .editor id live (some index) markdown ∈ disposers') :
    Intact s' := by
  have live : ∀ other, s'.Live other ↔ s.Live other := by
    intro other
    rw [State.Live, State.Live, activated]
    by_cases isIt : other = id
    · rw [isIt, present]
    · rw [frames other isIt]
  have tracksOther : ∀ other held, other ≠ id → (s'.Tracks other held ↔ s.Tracks other held) := by
    intro other held differs
    rw [State.Tracks, State.Tracks, disposerMap, frames other differs]
  constructor
  · exact tidy
  · intro c
    rw [exact]
    simp only [live]
  · intro other frame isFrame isWaiting
    by_cases isIt : other = id
    · subst isIt
      exact waiting frame isFrame isWaiting
    · rw [others other isIt]
      rw [frames other isIt] at isFrame
      exact intact.waiting other frame isFrame isWaiting
  · intro other
    rw [disposerMap, activated]
    exact intact.mapped other
  · intro other held isHeld c among
    by_cases isIt : other = id
    · subst isIt
      rw [(tracks held).mp isHeld]
      exact undone c among
    · rw [others other isIt] at among
      exact (intact.undone other held ((tracksOther other held isIt).mp isHeld) c among).imp_right
        (Or.imp_right (removesAny_mono keys))
  · intro index cell isCell isPending goesOn
    rcases cells index cell isCell isPending goesOn with ⟨differs, was⟩ | ⟨isIt, made, live, markdown, held⟩
    · obtain ⟨made, held, live, markdown, isHeld, among⟩ :=
        intact.building index cell was isPending goesOn
      rw [others _ differs]
      exact ⟨made, held, live, markdown, (tracksOther _ _ differs).mpr isHeld, among⟩
    · rw [isIt]
      exact ⟨made, disposers', live, markdown, (tracks _).mpr rfl, held⟩
  · intro other among
    rw [activated] at among
    have absent := intact.apart other among
    by_cases isIt : other = id
    · subst isIt
      rw [← not_isSome_iff_eq_none, present, absent]
      exact Bool.false_ne_true
    · rw [frames other isIt]
      exact absent
  · rw [activated]
    exact intact.once

/-- The plugin of a frame is not in the map, so the frame's disposers are all it has. -/
theorem tracks_setFrame (isFrame : s.activating.get id = some frame) {frame' : Frame}
    (isFrame' : s'.activating.get id = some frame') (disposerMap : s'.disposerMap = s.disposerMap)
    (held : List Disposer) :
    s'.Tracks id held ↔ held = frame'.disposers := by
  have unmapped : s.disposerMap.get id = none := by
    rw [← not_isSome_iff_eq_none, intact.mapped]
    exact intact.notActivated isFrame
  rw [State.Tracks, disposerMap, unmapped, isFrame']
  constructor
  · rintro (isMapped | ⟨phase, same⟩)
    · cases isMapped
    · cases same
      rfl
  · rintro rfl
    exact .inr ⟨frame'.phase, rfl⟩

theorem exact_contributed {made : List Contribution} (isLive : s.Live id)
    (contributed : Str → List Contribution)
    (others : ∀ other, other ≠ id → contributed other = s.contributed other)
    (own : ∀ c, c ∈ contributed id ↔ c ∈ s.contributed id ∨ c ∈ made)
    (registered : ∀ c, Registered registries c ↔ Registered s.registries c ∨ c ∈ made)
    (c : Contribution) :
    Registered registries c ↔ ∃ other, s.Live other ∧ c ∈ contributed other := by
  rw [registered, intact.exact]
  constructor
  · rintro (⟨other, isLive', among⟩ | isMade)
    · by_cases isIt : other = id
      · subst isIt
        exact ⟨other, isLive', (own c).mpr (.inl among)⟩
      · exact ⟨other, isLive', (others other isIt).symm ▸ among⟩
    · exact ⟨id, isLive, (own c).mpr (.inr isMade)⟩
  · rintro ⟨other, isLive', among⟩
    by_cases isIt : other = id
    · subst isIt
      exact ((own c).mp among).imp_left fun earlier => ⟨other, isLive', earlier⟩
    · exact .inl ⟨other, isLive', others other isIt ▸ among⟩

theorem registerDeclared {declared : List Declared}
    (isFrame : s.activating.get id = some ⟨.dependencies [], disposers⟩)
    (fitting : fitAll s.registries id declared = true) : Intact (s.registerDeclared id declared) := by
  have nothing : s.contributed id = [] := intact.waiting id _ isFrame rfl
  have own : (s.registerDeclared id declared).contributed id =
      declared.flatMap (Declared.made id) := update_self _ _ _
  have frame : (s.registerDeclared id declared).activating.get id =
      some ⟨.importing, (registerAll s.registries id declared).2⟩ := get_put_self
  have isLive : s.Live id := .inr (by rw [isFrame]; rfl)
  obtain ⟨kept, held⟩ := builds_registerAll
  have others : ∀ other, other ≠ id →
      (s.registerDeclared id declared).contributed other = s.contributed other :=
    fun other differs => update_of_ne differs _ _
  have tracks : ∀ ds, (s.registerDeclared id declared).Tracks id ds ↔
      ds = (registerAll s.registries id declared).2 := intact.tracks_setFrame isFrame frame rfl
  refine intact.contributes rfl rfl (fun other differs => get_put_of_ne differs) ?_ others
    tracks (tidy_registerAll intact.tidy) ?_ ?_ ?_ ?_ ?_
  · rw [frame, isFrame]
    exact Iff.rfl
  · refine intact.exact_contributed isLive _ others ?_ fun c => registered_registerAll fitting
    intro c
    rw [own, nothing]
    simp
  · intro frame' isFrame' isWaiting
    rw [frame] at isFrame'
    cases isFrame'
    cases isWaiting
  · intro c among
    rw [own] at among
    exact (removes_registerAll among _).imp_right .inr
  · exact fun build key isKey => kept.injectedKey isKey
  · intro index cell isCell isPending goesOn
    rcases held index cell isCell with was | ⟨isIt, live, markdown, among⟩
    · refine .inl ⟨?_, was⟩
      intro isIt
      obtain ⟨⟨extension, among⟩, -⟩ := intact.building index cell was isPending goesOn
      rw [isIt, nothing] at among
      cases among
    · rw [own]
      exact .inr ⟨isIt, extension_of_held among, live, markdown, among⟩

/-- The node views of a plugin that are being built are in the hands of its disposers. -/
theorem ownCell {index : Nat} {cell : NodeViewBuild} (isTracked : s.Tracks id disposers)
    (isIt : cell.pluginId = id) (was : s.registries.builds[index]? = some cell)
    (isPending : cell.pending = true) (goesOn : cell.cancelled = false) :
    (∃ extension, .extension id extension ∈ s.contributed id) ∧
      ∃ live markdown, .editor id live (some index) markdown ∈ disposers := by
  obtain ⟨made, held, live, markdown, isHeld, among⟩ :=
    intact.building index cell was isPending goesOn
  rw [isIt] at made isHeld among
  rw [intact.tracks_unique isHeld isTracked] at among
  exact ⟨made, live, markdown, among⟩

/-- The plugin calls its context. -/
theorem perform {contextCall : ContextCall}
    (isFrame : s.activating.get id = some ⟨.activate, disposers⟩)
    (soundly : s.callsSoundly id contextCall = true) :
    Intact (s.perform id ⟨.activate, disposers⟩ contextCall) := by
  have isLive : s.Live id := .inr (by rw [isFrame]; rfl)
  have isTracked : s.Tracks id disposers := .inr ⟨_, isFrame⟩
  have own : (s.perform id ⟨.activate, disposers⟩ contextCall).contributed id =
      contextCall.record id (s.contributed id) := update_self _ _ _
  have others : ∀ other, other ≠ id →
      (s.perform id ⟨.activate, disposers⟩ contextCall).contributed other = s.contributed other :=
    fun other differs => update_of_ne differs _ _
  have frame : (s.perform id ⟨.activate, disposers⟩ contextCall).activating.get id =
      some ⟨.activate, disposers ++ (contextCall.perform s.registries id).2⟩ := get_put_self
  have tracks : ∀ ds, (s.perform id ⟨.activate, disposers⟩ contextCall).Tracks id ds ↔
      ds = disposers ++ (contextCall.perform s.registries id).2 :=
    intact.tracks_setFrame isFrame frame rfl
  have builds : (s.perform id ⟨.activate, disposers⟩ contextCall).registries.builds =
      s.registries.builds := builds_perform
  -- what was contributed before and is no longer is the context key that is set anew
  have recorded : ∀ c, c ∈ contextCall.record id (s.contributed id) →
      c ∈ s.contributed id ∨ c ∈ contextCall.record id [] := by
    intro c among
    cases contextCall with
    | setKey key value =>
      rw [mem_record_setKey] at among ⊢
      exact among.imp And.left .inr
    | _ => exact (mem_append.mp among).symm
  have extensions : ∀ extension, .extension id extension ∈ s.contributed id →
      .extension id extension ∈ contextCall.record id (s.contributed id) := by
    intro extension among
    cases contextCall with
    | setKey key value => exact mem_record_setKey.mpr (.inl ⟨among, fun isKey => nomatch isKey⟩)
    | _ => exact mem_cons_of_mem _ among
  refine intact.contributes rfl rfl (fun other differs => get_put_of_ne differs) ?_ others
    tracks (tidy_perform intact.tidy) ?_ ?_ ?_ ?_ ?_
  · rw [frame, isFrame]
    exact Iff.rfl
  · cases isSetKey : contextCall.isSetKey with
    | false =>
      have fitting : (contextCall.record id []).all (fits s.registries) = true := by
        cases contextCall with
        | setKey key value => cases isSetKey
        | _ => exact soundly
      refine intact.exact_contributed isLive _ others ?_ fun c => registered_perform isSetKey fitting
      intro c
      rw [own, record_other isSetKey, mem_append, or_comm]
    | true =>
      cases contextCall with
      | setKey key value =>
        intro c
        refine registered_setContextKey.trans ?_
        rw [intact.exact]
        constructor
        · rintro (⟨⟨other, isLive', among⟩, differs⟩ | ⟨isSome, rfl⟩)
          · by_cases isIt : other = id
            · subst isIt
              exact ⟨other, isLive', own ▸ mem_record_setKey.mpr (.inl ⟨among, differs⟩)⟩
            · exact ⟨other, isLive', (others other isIt).symm ▸ among⟩
          · exact ⟨id, isLive, own ▸ mem_record_setKey.mpr (.inr ⟨isSome, rfl⟩)⟩
        · rintro ⟨other, isLive', among⟩
          by_cases isIt : other = id
          · subst isIt
            rw [own] at among
            exact (mem_record_setKey.mp among).imp_left fun ⟨earlier, differs⟩ =>
              ⟨⟨other, isLive', earlier⟩, differs⟩
          · rw [others other isIt] at among
            by_cases isKey : c = .contextKey (qualified id key)
            · cases value with
              | some value => exact .inr ⟨rfl, isKey⟩
              | none =>
                have spared := spares_iff.mp soundly other isIt isLive' c among
                exact absurd isKey (of_decide_eq_false spared)
            · exact .inl ⟨⟨other, isLive', among⟩, isKey⟩
      | _ => cases isSetKey
  · intro frame' isFrame' isWaiting
    rw [frame] at isFrame'
    cases isFrame'
    cases isWaiting
  · intro c among
    rw [builds]
    rw [own] at among
    rcases recorded c among with earlier | isMade
    · refine (intact.undone id disposers isTracked c earlier).imp_right
        (Or.imp_right fun removed => ?_)
      rw [removesAny, any_append, Bool.or_eq_true]
      exact .inl removed
    · refine (removes_perform isMade s.registries s.registries.builds).imp_right
        (Or.imp_right fun removed => ?_)
      rw [removesAny, any_append, Bool.or_eq_true]
      exact .inr removed
  · intro build key isKey
    rw [builds]
    exact isKey
  · intro index cell isCell isPending goesOn
    rw [builds] at isCell
    by_cases isIt : cell.pluginId = id
    · obtain ⟨⟨extension, among⟩, live, markdown, held⟩ :=
        intact.ownCell isTracked isIt isCell isPending goesOn
      rw [own]
      exact .inr ⟨isIt, ⟨extension, extensions extension among⟩, live, markdown,
        mem_append_left _ held⟩
    · exact .inl ⟨isIt, isCell⟩

/-- The node views of a live plugin have been built and are in use. -/
theorem built {index : Nat} {build : NodeViewBuild}
    (isBuild : s.registries.builds[index]? = some build) (isPending : build.pending = true)
    (goesOn : build.cancelled = false)
    (fitting : fits s.registries (.extension (nodeViewsKey build.pluginId) build.extension) = true) :
    Intact (s.inject index build) := by
  obtain ⟨⟨extension, made⟩, disposers, live, markdown, isTracked, held⟩ :=
    intact.building index build isBuild isPending goesOn
  have isLive := intact.live_of_tracks isTracked
  have settled : endBuild s.registries index build .built =
      setBuild (usePluginExtension s.registries (nodeViewsKey build.pluginId) build.extension).1
        index { build with pending := false, disposer := some s.registries.activeEditor } := by
    rw [endBuild, if_neg (by rw [goesOn]; exact Bool.false_ne_true)]
  have builds : ∀ other, (endBuild s.registries index build .built).builds[other]? =
      if other = index then
        some { build with pending := false, disposer := some s.registries.activeEditor }
      else s.registries.builds[other]? := by
    intro other
    rw [settled, setBuild, usePluginExtension_builds]
    split_ifs with isIt
    · rw [isIt]
      exact getElem?_set_self (List.getElem?_eq_some_iff.mp isBuild).1
    · exact getElem?_set_ne (Ne.symm isIt)
  have keys : ∀ place key, injectedKey s.registries.builds place = some key →
      injectedKey (endBuild s.registries index build .built).builds place = some key := by
    intro place key isKey
    cases place with
    | none => cases isKey
    | some other =>
      rw [injectedKey, bind_some] at isKey ⊢
      rw [builds]
      split_ifs with isIt
      · subst isIt
        rw [isBuild, bind_some, map_eq_some_iff] at isKey
        obtain ⟨was, -, isKey⟩ := isKey
        exact congrArg some isKey
      · exact isKey
  have injected : injectedKey (endBuild s.registries index build .built).builds (some index) =
      some (nodeViewsKey build.pluginId) := by
    rw [injectedKey, bind_some, builds, if_pos rfl]
    rfl
  have tidy : Tidy (endBuild s.registries index build .built) := by
    have used : Tidy (usePluginExtension s.registries (nodeViewsKey build.pluginId)
        build.extension).1 := tidy_usePluginExtension intact.tidy
    rw [settled]
    exact ⟨used.distinct, used.keymap⟩
  have registered : ∀ c, Registered (endBuild s.registries index build .built) c ↔
      Registered s.registries c ∨
        c ∈ [Contribution.extension (nodeViewsKey build.pluginId) build.extension] := by
    intro c
    rw [settled, registered_setBuild, registered_usePluginExtension, registered_setPending fitting,
      mem_singleton]
  have own : (s.inject index build).contributed build.pluginId =
      .extension (nodeViewsKey build.pluginId) build.extension :: s.contributed build.pluginId :=
    update_self _ _ _
  have others : ∀ other, other ≠ build.pluginId →
      (s.inject index build).contributed other = s.contributed other :=
    fun other differs => update_of_ne differs _ _
  have tracks : ∀ ds, (s.inject index build).Tracks build.pluginId ds ↔ ds = disposers :=
    fun ds => ⟨fun isDs => intact.tracks_unique isDs isTracked, fun isIt => isIt ▸ isTracked⟩
  refine intact.contributes rfl rfl (fun _ _ => rfl) Iff.rfl others tracks tidy ?_ ?_ ?_ keys ?_
  · refine intact.exact_contributed isLive _ others ?_ registered
    intro c
    rw [own, mem_cons, mem_singleton, or_comm]
  · intro frame isFrame isWaiting
    rw [intact.waiting _ frame isFrame isWaiting] at made
    cases made
  · intro c among
    rw [own] at among
    rcases mem_cons.mp among with rfl | earlier
    · refine .inr (.inr (List.any_eq_true.mpr ⟨_, held, ?_⟩))
      change Disposer.removes (endBuild s.registries index build .built).builds _ _ = true
      simp [Disposer.removes, Contribution.extensionKey, injected]
    · exact (intact.undone _ _ isTracked c earlier).imp_right (Or.imp_right (removesAny_mono keys))
  · intro other cell isCell isPending' goesOn'
    change (endBuild s.registries index build .built).builds[other]? = some cell at isCell
    rw [builds] at isCell
    split_ifs at isCell with isIt
    · cases isCell
      cases isPending'
    · by_cases isOwn : cell.pluginId = build.pluginId
      · obtain ⟨⟨other', among⟩, isHeld⟩ := intact.ownCell isTracked isOwn isCell isPending' goesOn'
        rw [own]
        exact .inr ⟨isOwn, ⟨other', mem_cons_of_mem _ among⟩, isHeld⟩
      · exact .inl ⟨isOwn, isCell⟩

theorem deactivate (soundly : s.deactivatesSoundly plugins id = true) :
    Intact (s.deactivate call id) := by
  simp only [State.deactivatesSoundly, Bool.and_eq_true, Bool.or_eq_true, decide_eq_true_eq,
    List.all_eq_true, Bool.not_eq_true', spares_iff, Bool.or_eq_false_iff,
    isNone_iff_eq_none] at soundly
  obtain ⟨⟨⟨noCommand, unnamed⟩, spared⟩, -⟩ := soundly
  have kept : ∀ c, Registered (s.deactivate call id).registries c ↔ (Registered s.registries c ∧
      removesAny s.registries.builds ((s.disposerMap.get id).getD []) c = false) ∧
        sweeps id c = false := by
    intro c
    refine registered_sweep.trans ?_
    rw [registered_runDisposers intact.tidy]
  have keys : ∀ build, injectedKey (s.deactivate call id).registries.builds build =
      injectedKey s.registries.builds build :=
    injectedKey_runDisposers ((s.disposerMap.get id).getD [])
  have live : ∀ other, (s.deactivate call id).Live other ↔
      (other ∈ s.activated ∧ other ≠ id) ∨ (s.activating.get other).isSome := by
    intro other
    refine or_congr ?_ Iff.rfl
    exact mem_filter.trans (and_congr Iff.rfl (by simp))
  have wasLive : ∀ other, (s.deactivate call id).Live other → s.Live other :=
    fun other isLive => ((live other).mp isLive).imp_left And.left
  have tracks : ∀ other held, (s.deactivate call id).Tracks other held → s.Tracks other held := by
    rintro other held (isMapped | isFrame)
    · change (s.disposerMap.remove id).get other = some held at isMapped
      rw [get_remove] at isMapped
      split_ifs at isMapped
      exact .inl isMapped
    · exact .inr isFrame
  constructor
  · have ran := tidy_runDisposers intact.tidy ((s.disposerMap.get id).getD [])
    exact ⟨ran.distinct, ran.keymap⟩
  · intro c
    rw [kept, intact.exact]
    constructor
    · rintro ⟨⟨⟨other, isLive, among⟩, unremoved⟩, unswept⟩
      refine ⟨other, (live other).mpr ?_, among⟩
      rcases isLive with isActivated | isActivating
      · refine .inl ⟨isActivated, ?_⟩
        rintro rfl
        -- everything an activated plugin has contributed has been taken away
        obtain ⟨disposers, isMapped⟩ := isSome_iff_exists.mp ((intact.mapped other).mpr isActivated)
        rcases intact.undone other disposers (.inl isMapped) c among with isCommand | ⟨-, named⟩ | removed
        · have isNone := noCommand.resolve_left (fun absent => absent isActivated) c among
          simp [isNone] at isCommand
        · simp [unswept] at named
        · rw [isMapped, getD_some] at unremoved
          simp [unremoved] at removed
      · exact .inr isActivating
    · rintro ⟨other, isLive, among⟩
      have was := wasLive other isLive
      by_cases isIt : other = id
      · subst isIt
        have isActivating := ((live other).mp isLive).resolve_left fun both => both.2 rfl
        obtain ⟨frame, isFrame⟩ := isSome_iff_exists.mp isActivating
        have unmapped : s.disposerMap.get other = none := by
          rw [← not_isSome_iff_eq_none, intact.mapped]
          exact intact.notActivated isFrame
        refine ⟨⟨⟨other, was, among⟩, ?_⟩, ?_⟩
        · rw [unmapped]
          rfl
        · refine unnamed.resolve_left ?_ c among
          simp [isFrame]
      · obtain ⟨unremoved, unswept⟩ := spared other isIt was c among
        exact ⟨⟨⟨other, was, among⟩, unremoved⟩, unswept⟩
  · exact intact.waiting
  · intro other
    change ((s.disposerMap.remove id).get other).isSome ↔
      other ∈ s.activated.filter fun other => other ≠ id
    rw [get_remove, mem_filter]
    split_ifs with isIt
    · simp [isIt]
    · simp [isIt, intact.mapped other]
  · intro other held isTracked c among
    exact (intact.undone other held (tracks other held isTracked) c among).imp_right
      (Or.imp_right fun removed => (removesAny_congr keys).trans removed)
  · intro index cell isCell isPending goesOn
    change (runDisposers s.registries _).builds[index]? = some cell at isCell
    rw [builds_runDisposers, map_eq_some_iff] at isCell
    obtain ⟨was, isWas, isNow⟩ := isCell
    split_ifs at isNow with isCancelled
    · rw [← isNow] at goesOn
      cases goesOn
    · subst isNow
      obtain ⟨made, held, isLive, markdown, isTracked, among⟩ :=
        intact.building index was isWas isPending goesOn
      refine ⟨made, held, isLive, markdown, ?_, among⟩
      refine isTracked.imp_left fun isMapped => ?_
      refine (get_remove_of_ne ?_).trans isMapped
      -- the disposers that have run cancel what is being built
      intro isIt
      rw [isIt] at isMapped among
      rw [isMapped, getD_some] at isCancelled
      exact isCancelled (List.any_eq_true.mpr ⟨_, among, decide_eq_true rfl⟩)
  · intro other among
    exact intact.apart other (mem_filter.mp among).1
  · exact intact.once.filter _

theorem outside (same : Outside s s') : Intact s' := by
  have live : ∀ other, s'.Live other ↔ s.Live other := by
    intro other
    rw [State.Live, State.Live, same.activated, same.activating]
  have tracks : ∀ other held, s'.Tracks other held ↔ s.Tracks other held := by
    intro other held
    rw [State.Tracks, State.Tracks, same.disposerMap, same.activating]
  constructor
  · exact same.tidy intact.tidy
  · intro c
    rw [same.registered, same.contributed, intact.exact]
    simp only [live]
  · rw [same.activating, same.contributed]
    exact intact.waiting
  · rw [same.disposerMap, same.activated]
    exact intact.mapped
  · intro other held isTracked
    rw [same.contributed, same.builds]
    exact intact.undone other held ((tracks other held).mp isTracked)
  · intro index cell isCell isPending goesOn
    rw [same.builds] at isCell
    rw [same.contributed]
    obtain ⟨made, held, isLive, markdown, isTracked, among⟩ :=
      intact.building index cell isCell isPending goesOn
    exact ⟨made, held, isLive, markdown, (tracks _ _).mpr isTracked, among⟩
  · rw [same.activated, same.activating]
    exact intact.apart
  · rw [same.activated]
    exact intact.once

/-- The building of node views ends without any. -/
theorem buildSettled {index : Nat} {build : NodeViewBuild}
    (isBuild : s.registries.builds[index]? = some build) :
    Intact { s with registries := setBuild s.registries index { build with pending := false } } := by
  have builds : ∀ other, (setBuild s.registries index { build with pending := false }).builds[other]? =
      if other = index then some { build with pending := false }
      else s.registries.builds[other]? := by
    intro other
    rw [setBuild]
    split_ifs with isIt
    · rw [isIt]
      exact getElem?_set_self (List.getElem?_eq_some_iff.mp isBuild).1
    · exact getElem?_set_ne (Ne.symm isIt)
  have keys : ∀ place,
      injectedKey (setBuild s.registries index { build with pending := false }).builds place =
        injectedKey s.registries.builds place := by
    intro place
    cases place with
    | none => rfl
    | some other =>
      rw [injectedKey, injectedKey, bind_some, bind_some, builds]
      split_ifs with isIt
      · rw [isIt, isBuild]
        rfl
      · rfl
  constructor
  · exact ⟨intact.tidy.distinct, intact.tidy.keymap⟩
  · exact fun c => registered_setBuild.trans (intact.exact c)
  · exact intact.waiting
  · exact intact.mapped
  · intro other held isTracked c among
    exact (intact.undone other held isTracked c among).imp_right
      (Or.imp_right fun removed => (removesAny_congr keys).trans removed)
  · intro other cell isCell isPending goesOn
    change (setBuild s.registries index { build with pending := false }).builds[other]? = some cell at isCell
    rw [builds] at isCell
    split_ifs at isCell with isIt
    · cases isCell
      cases isPending
    · exact intact.building other cell isCell isPending goesOn
  · exact intact.apart
  · exact intact.once

theorem setCall {value : Option Call} : Intact (s.setCall call value) :=
  intact.congr rfl rfl rfl rfl (fun _ => rfl) intact.waiting

end Intact

end

end Kuku.Plugins
