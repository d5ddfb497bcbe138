/-
# Plugins.Contributions -- what of a plugin's contributions stands in the registries

A `Contribution` is one entry of one registry: its place there and what stands in it.
`Registered` reads it off the registries.  Registering at a place where nothing else stands adds
one contribution and leaves the others; running a disposer takes away what stands at its place; sweeping up after
a plugin takes away what bears the plugin's name.  The disposer of a command takes away nothing
(`removes`): it merges a copy without the command into the store.
-/
import Kuku.Plugins.Registries

namespace Kuku.Plugins

open Kuku.Theory List Assoc

inductive Contribution where
  | command (id : Str) (pluginId : Str) (contribution : CommandContribution)
  | fill (slot : SlotName) (fill : SlotFill)
  | theme (id : Str) (pack : ThemePack)
  | font (id : Str) (pack : FontPack)
  | extension (key : Str) (extension : Extension)
  | markdown (pluginId : Str) (contribution : MarkdownContribution)
  | service (name : Str) (service : Service)
  | listener (event : Str) (handler : Handler)
  | contextKey (key : Str)
  deriving DecidableEq

def Contribution.isCommand : Contribution → Bool
  | .command .. => true
  | _ => false

def Contribution.isContextKey : Contribution → Bool
  | .contextKey _ => true
  | _ => false

/-- The contribution stands in its registry. -/
def Registered (registries : Registries) : Contribution → Prop
  | .command id pluginId contribution =>
    ∃ keys, registries.commands.get id = some ⟨pluginId, contribution, keys⟩
  | .fill slot fill => fill ∈ registries.fills slot
  | .theme id pack => registries.themes.get id = some pack
  | .font id pack => registries.fonts.get id = some pack
  | .extension key extension => registries.pendingExtensions.get key = some extension
  | .markdown pluginId contribution =>
    registries.pendingContributions.get pluginId = some contribution
  | .service name held => registries.services.get name = some held
  | .listener event handler => handler ∈ handlers registries event
  | .contextKey key => (registries.contextKeys.get key).isSome

/-- Nothing else stands at the contribution's place. -/
def fits (registries : Registries) : Contribution → Bool
  | .command id pluginId contribution => (registries.commands.get id).all fun reg =>
    reg.pluginId = pluginId && reg.contribution = contribution
  | .fill slot fill => (registries.fills slot).all fun other => other.id ≠ fill.id || other = fill
  | .theme id pack => (registries.themes.get id).all fun other => other = pack
  | .font id pack => (registries.fonts.get id).all fun other => other = pack
  | .extension key extension => (registries.pendingExtensions.get key).all fun other =>
    other = extension
  | .markdown pluginId contribution => (registries.pendingContributions.get pluginId).all fun other =>
    other = contribution
  | .service name held => (registries.services.get name).all fun other => other = held
  | .listener .. => true
  | .contextKey _ => true

/-- The keymap is the one of the commands. -/
structure Tidy (registries : Registries) : Prop where
  distinct : (registries.commands.map Prod.fst).Nodup
  keymap : registries.keymap = keyChains registries.commands

section

variable {registries : Registries} {c : Contribution} {pluginId key : Str}

/-! ## Registering -/

/-- A value that fits is written: nothing else is at its place afterwards. -/
theorem get_put_fits {κ α : Type} [DecidableEq κ] {entries : Assoc κ α} {key other : κ}
    {value held : α} (fits : ∀ before, entries.get key = some before → before = value) :
    (entries.put key value).get other = some held ↔
      entries.get other = some held ∨ other = key ∧ held = value := by
  rw [get_put]
  split_ifs with isIt
  · subst isIt
    constructor
    · rintro ⟨⟩
      exact .inr ⟨rfl, rfl⟩
    · rintro (isHeld | ⟨-, rfl⟩)
      · rw [fits held isHeld]
      · rfl
  · simp [isIt]

theorem registered_setCommand {cmd : CommandContribution}
    (fitting : fits registries (.command cmd.id pluginId cmd) = true) :
    Registered (setCommand registries pluginId cmd) c ↔
      Registered registries c ∨ c = .command cmd.id pluginId cmd := by
  cases c with
  | command id owner contribution =>
    by_cases same : id = cmd.id
    · subst same
      simp only [fits] at fitting
      cases held : registries.commands.get cmd.id with
      | none => simp [Registered, setCommand, held, and_comm, eq_comm]
      | some reg =>
        obtain ⟨owner', contribution', keys⟩ := reg
        simp only [held, Option.all_some, Bool.and_eq_true, decide_eq_true_eq] at fitting
        obtain ⟨rfl, rfl⟩ := fitting
        simp [Registered, setCommand, held, and_comm, eq_comm]
    · simp [Registered, setCommand, get_put_of_ne same, same]
  | _ => simp [Registered, setCommand, handlers]

theorem registered_rebuildKeymap : Registered (rebuildKeymap registries) c ↔ Registered registries c := by
  cases c <;> rfl

theorem registered_registerPluginCommand {cmd : CommandContribution}
    (fitting : fits registries (.command cmd.id pluginId cmd) = true) :
    Registered (registerPluginCommand registries pluginId cmd).1 c ↔
      Registered registries c ∨ c = .command cmd.id pluginId cmd := by
  rw [registerPluginCommand, registered_rebuildKeymap, registered_setCommand fitting]

theorem registered_registerFill {fill : SlotFill}
    (fitting : fits registries (.fill fill.slot fill) = true) :
    Registered (registerFill registries fill).1 c ↔
      Registered registries c ∨ c = .fill fill.slot fill := by
  cases c with
  | fill slot other =>
    by_cases same : slot = fill.slot
    · subst same
      simp only [fits, all_eq_true, Bool.or_eq_true, decide_eq_true_eq] at fitting
      simp only [Registered, registerFill, setFills, Function.update_self,
        mem_insertionSort, mem_append, mem_singleton, mem_filter,
        decide_eq_true_eq, Contribution.fill.injEq, true_and]
      constructor
      · exact Or.imp_left And.left
      · rintro (among | isIt)
        · exact (fitting other among).imp_left fun differs => ⟨among, differs⟩
        · exact .inr isIt
    · simp [Registered, registerFill, setFills, same]
  | _ => simp [Registered, registerFill, setFills, handlers]

theorem registered_registerThemePack {pack : ThemePack}
    (fitting : fits registries (.theme pack.id pack) = true) :
    Registered (registerThemePack registries pack).1 c ↔
      Registered registries c ∨ c = .theme pack.id pack := by
  simp only [fits, Option.all_eq_true, decide_eq_true_eq] at fitting
  -- merged over itself, a pack stays what it is
  have merged : { pack with
      author := pack.author.or ((registries.themes.get pack.id).bind (·.author)) } = pack := by
    cases held : registries.themes.get pack.id with
    | none => simp
    | some before => simp [fitting before held]
  cases c with
  | theme id other =>
    simp only [Registered, registerThemePack, merged, Contribution.theme.injEq]
    exact get_put_fits fitting
  | _ => simp [Registered, registerThemePack, handlers]

theorem registered_registerFontPack {pack : FontPack}
    (fitting : fits registries (.font pack.id pack) = true) :
    Registered (registerFontPack registries pack).1 c ↔
      Registered registries c ∨ c = .font pack.id pack := by
  simp only [fits, Option.all_eq_true, decide_eq_true_eq] at fitting
  cases c with
  | font id other =>
    simp only [Registered, registerFontPack, Contribution.font.injEq]
    exact get_put_fits fitting
  | _ => simp [Registered, registerFontPack, handlers]

theorem registered_setPending {extension : Extension}
    (fitting : fits registries (.extension key extension) = true) :
    Registered (setPending registries key extension) c ↔
      Registered registries c ∨ c = .extension key extension := by
  simp only [fits, Option.all_eq_true, decide_eq_true_eq] at fitting
  cases c with
  | extension other held =>
    simp only [Registered, setPending, Contribution.extension.injEq]
    exact get_put_fits fitting
  | _ => simp [Registered, setPending, handlers]

/-- Only what is pending counts as registered. -/
theorem registered_usePluginExtension {extension : Extension} :
    Registered (usePluginExtension registries key extension).1 c ↔
      Registered (setPending registries key extension) c := by
  unfold usePluginExtension
  dsimp only
  split_ifs <;> cases c <;> rfl

theorem registered_contributeMarkdown {contribution : MarkdownContribution}
    (fitting : fits registries (.markdown pluginId contribution) = true) :
    Registered (contributeMarkdown registries pluginId contribution) c ↔
      Registered registries c ∨ c = .markdown pluginId contribution := by
  simp only [fits, Option.all_eq_true, decide_eq_true_eq] at fitting
  cases c with
  | markdown other held =>
    simp only [Registered, contributeMarkdown, Contribution.markdown.injEq]
    exact get_put_fits fitting
  | _ => simp [Registered, contributeMarkdown, handlers]

theorem registered_registerService {name : Str} {held : Service}
    (fitting : fits registries (.service name held) = true) :
    Registered (registerService registries name held).1 c ↔
      Registered registries c ∨ c = .service name held := by
  simp only [fits, Option.all_eq_true, decide_eq_true_eq] at fitting
  cases c with
  | service other one =>
    simp only [Registered, registerService, Contribution.service.injEq]
    exact get_put_fits fitting
  | _ => simp [Registered, registerService, handlers]

theorem registered_onEvent {event : Str} {handler : Handler} :
    Registered (onEvent registries event handler).1 c ↔
      Registered registries c ∨ c = .listener event handler := by
  cases c with
  | listener other held =>
    by_cases same : other = event
    · subst same
      have after : handlers (onEvent registries other handler).1 other =
          if handler ∈ handlers registries other then handlers registries other
          else handlers registries other ++ [handler] := by
        simp [onEvent, handlers]
      simp only [Registered, after, Contribution.listener.injEq, true_and]
      split_ifs with among
      · exact ⟨.inl, fun either => either.elim id fun isIt => isIt ▸ among⟩
      · simp
    · simp [Registered, onEvent, handlers, get_put_of_ne same, same]
  | _ => simp [Registered, onEvent]

theorem registered_setContextKey {value : Option ContextValue} :
    Registered (setContextKey registries key value) c ↔
      (Registered registries c ∧ c ≠ .contextKey key) ∨ (value.isSome ∧ c = .contextKey key) := by
  cases c with
  | contextKey other =>
    by_cases same : other = key
    · subst same
      cases value <;> simp [Registered, setContextKey]
    · cases value <;> simp [Registered, setContextKey, get_put_of_ne same,
        get_remove_of_ne same, same]
  | _ => simp [Registered, setContextKey, handlers]

end

/-! ## The keymap -/

theorem mem_joinChain {contribution cmd : CommandContribution} {keys : List Str} {key : Str}
    {chains : Assoc Str (List CommandContribution)} :
    cmd ∈ ((keys.foldl (joinChain contribution) chains).get key).getD [] ↔
      cmd ∈ (chains.get key).getD [] ∨ cmd = contribution ∧ key ∈ keys := by
  induction keys generalizing chains with
  | nil => simp
  | cons first rest ih =>
    rw [foldl_cons, ih, joinChain, get_put]
    split_ifs with isIt
    · subst isIt
      simp
      tauto
    · simp [isIt]

theorem mem_foldl_keys {commands : Assoc Str RegisteredCommand} {cmd : CommandContribution}
    {key : Str} {chains : Assoc Str (List CommandContribution)} :
    cmd ∈ ((commands.foldl (fun chains entry =>
        entry.2.keys.foldl (joinChain entry.2.contribution) chains) chains).get key).getD [] ↔
      cmd ∈ (chains.get key).getD [] ∨
        ∃ entry ∈ commands, entry.2.contribution = cmd ∧ key ∈ entry.2.keys := by
  induction commands generalizing chains with
  | nil => simp
  | cons first rest ih =>
    rw [foldl_cons, ih, mem_joinChain, or_assoc, eq_comm]
    simp only [mem_cons, exists_eq_or_imp]

/-- **A command is bound to the keys it has.** -/
theorem mem_keyChains {commands : Assoc Str RegisteredCommand}
    (distinct : (commands.map Prod.fst).Nodup) {cmd : CommandContribution} {key : Str} :
    cmd ∈ ((keyChains commands).get key).getD [] ↔
      ∃ id reg, commands.get id = some reg ∧ reg.contribution = cmd ∧ key ∈ reg.keys := by
  rw [keyChains, mem_foldl_keys]
  simp only [get_nil, Option.getD_none, not_mem_nil, false_or]
  constructor
  · rintro ⟨⟨id, reg⟩, among, isCmd, isKey⟩
    exact ⟨id, reg, get_of_mem distinct among, isCmd, isKey⟩
  · rintro ⟨id, reg, held, isCmd, isKey⟩
    exact ⟨(id, reg), mem_of_get held, isCmd, isKey⟩

/-! ## Taking away -/

def Contribution.extensionKey : Contribution → Option Str
  | .extension key _ => some key
  | _ => none

def Contribution.markdownOf : Contribution → Option Str
  | .markdown pluginId _ => some pluginId
  | _ => none

/-- The key under which node views have been injected. -/
def injectedKey (builds : List NodeViewBuild) (build : Option Nat) : Option Str :=
  build.bind fun index => builds[index]?.bind fun cell =>
    cell.disposer.map fun _ => nodeViewsKey cell.pluginId

/-- What a disposer takes away. -/
def Disposer.removes (builds : List NodeViewBuild) : Disposer → Contribution → Bool
  | .command _, _ => false
  | .fill slot id, .fill other entry => other = slot && entry.id = id
  | .fill .., _ => false
  | .theme id, .theme other _ => other = id
  | .theme _, _ => false
  | .font id, .font other _ => other = id
  | .font _, _ => false
  | .extension key _, c => c.extensionKey = some key
  | .editor pluginId _ build markdown, c =>
    c.extensionKey = some pluginId ||
      (c.extensionKey.isSome && c.extensionKey = injectedKey builds build) ||
      (markdown && c.markdownOf = some pluginId)
  | .listener event handler, c => c = .listener event handler
  | .service name held, c => c = .service name held

/-- What bears the name of a plugin. -/
def sweeps (pluginId : Str) : Contribution → Bool
  | .fill _ fill => fill.pluginId = pluginId
  | .contextKey key => (pluginId ++ ['.']).isPrefixOf key
  | .listener event _ => (pluginId ++ [':']).isPrefixOf event
  | .service name _ => (pluginId ++ ['.']).isPrefixOf name
  | _ => false

/-- The safety net of `deactivatePlugin`. -/
def sweep (registries : Registries) (pluginId : Str) : Registries :=
  removeServicesByPrefix
    (removeListenersByPrefix
      (deleteContextKeysByPrefix (removeFillsByPlugin registries pluginId) pluginId)
      (pluginId ++ [':']))
    (pluginId ++ ['.'])

section

variable {registries : Registries} {c : Contribution} {pluginId key : Str}

theorem registered_sweep :
    Registered (sweep registries pluginId) c ↔
      Registered registries c ∧ sweeps pluginId c = false := by
  cases c with
  | fill slot fill =>
    simp [Registered, sweep, sweeps, removeServicesByPrefix, removeListenersByPrefix,
      deleteContextKeysByPrefix, removeFillsByPlugin]
  | contextKey key =>
    simp only [Registered, sweep, sweeps, removeServicesByPrefix, removeListenersByPrefix,
      deleteContextKeysByPrefix, removeFillsByPlugin, get_restrict]
    cases (pluginId ++ ['.']).isPrefixOf key <;> simp
  | listener event handler =>
    simp only [Registered, sweep, sweeps, removeServicesByPrefix, removeListenersByPrefix,
      deleteContextKeysByPrefix, removeFillsByPlugin, handlers, get_restrict]
    cases (pluginId ++ [':']).isPrefixOf event <;> simp
  | service name held =>
    simp only [Registered, sweep, sweeps, removeServicesByPrefix, removeListenersByPrefix,
      deleteContextKeysByPrefix, removeFillsByPlugin, get_restrict]
    cases (pluginId ++ ['.']).isPrefixOf name <;> simp
  | _ => simp [Registered, sweep, sweeps, removeServicesByPrefix, removeListenersByPrefix,
      deleteContextKeysByPrefix, removeFillsByPlugin]

theorem tidy_rebuildKeymap (distinct : (registries.commands.map Prod.fst).Nodup) :
    Tidy (rebuildKeymap registries) :=
  ⟨distinct, rfl⟩

/-- **A command is not taken away by its disposer.** -/
theorem disposeCommand_tidy (tidy : Tidy registries) (id : Str) :
    disposeCommand registries id = registries := by
  rw [disposeCommand, merge_remove tidy.distinct, rebuildKeymap, ← tidy.keymap]

theorem registered_disposeFill {slot : SlotName} {id : Str} :
    Registered (disposeFill registries slot id) c ↔
      Registered registries c ∧ (Disposer.fill slot id).removes registries.builds c = false := by
  cases c with
  | fill other fill =>
    by_cases same : other = slot
    · subst same
      simp [Registered, disposeFill, setFills, Disposer.removes]
    · simp [Registered, disposeFill, setFills, Disposer.removes, same]
  | _ => simp [Registered, disposeFill, setFills, Disposer.removes, handlers]

theorem registered_disposeExtension {live : Bool} :
    Registered (disposeExtension registries key live) c ↔
      Registered registries c ∧ c.extensionKey ≠ some key := by
  cases c with
  | extension other held =>
    by_cases same : other = key
    · subst same
      simp [Registered, disposeExtension, Contribution.extensionKey]
    · simp [Registered, disposeExtension, Contribution.extensionKey, get_remove_of_ne same, same]
  | _ => simp [Registered, disposeExtension, Contribution.extensionKey, handlers]

theorem registered_disposeMarkdown :
    Registered (disposeMarkdown registries pluginId) c ↔
      Registered registries c ∧ c.markdownOf ≠ some pluginId := by
  cases c with
  | markdown other held =>
    by_cases same : other = pluginId
    · subst same
      simp [Registered, disposeMarkdown, Contribution.markdownOf]
    · simp [Registered, disposeMarkdown, Contribution.markdownOf, get_remove_of_ne same, same]
  | _ => simp [Registered, disposeMarkdown, Contribution.markdownOf, handlers]

theorem registered_setBuild {index : Nat} {build : NodeViewBuild} :
    Registered (setBuild registries index build) c ↔ Registered registries c := by
  cases c <;> rfl

theorem registered_cancelBuild {build : Option Nat} :
    Registered (cancelBuild registries build) c ↔ Registered registries c ∧
      ¬ (c.extensionKey.isSome ∧ c.extensionKey = injectedKey registries.builds build) := by
  unfold cancelBuild
  cases build with
  | none => cases c.extensionKey <;> simp [injectedKey]
  | some index =>
    simp only [injectedKey, Option.bind_some]
    cases registries.builds[index]? with
    | none => cases c.extensionKey <;> simp
    | some cell =>
      obtain ⟨owner, extension, pending, cancelled, disposer⟩ := cell
      cases disposer with
      | none => cases c.extensionKey <;> simp [registered_setBuild]
      | some live =>
        simp only [registered_disposeExtension, registered_setBuild, Option.map_some,
          Option.bind_some]
        cases c.extensionKey <;> simp

theorem registered_disposeEditor {live markdown : Bool} {build : Option Nat} :
    Registered (disposeEditor registries pluginId live build markdown) c ↔
      Registered registries c ∧
        (Disposer.editor pluginId live build markdown).removes registries.builds c = false := by
  have unused : Registered (disposeExtension (cancelBuild registries build) pluginId live) c ↔
      (Registered registries c ∧
        ¬ (c.extensionKey.isSome ∧ c.extensionKey = injectedKey registries.builds build)) ∧
        c.extensionKey ≠ some pluginId := by
    rw [registered_disposeExtension, registered_cancelBuild]
  unfold disposeEditor
  dsimp only
  split_ifs with contributes
  · rw [registered_disposeMarkdown, unused]
    simp [Disposer.removes, contributes]
    tauto
  · rw [unused]
    simp [Disposer.removes, contributes]
    tauto

theorem registered_disposeListener {event : Str} {handler : Handler} :
    Registered (disposeListener registries event handler) c ↔
      Registered registries c ∧ c ≠ .listener event handler := by
  cases c with
  | listener other held =>
    by_cases same : other = event
    · subst same
      have after : handlers (disposeListener registries other handler) other =
          (handlers registries other).filter fun one => one ≠ handler := by
        unfold disposeListener
        dsimp only
        split_ifs with isEmpty
        · simp only [handlers, get_remove_self] at isEmpty ⊢
          exact isEmpty.symm
        · simp [handlers]
      simp [Registered, after]
    · have after : handlers (disposeListener registries event handler) other =
          handlers registries other := by
        unfold disposeListener
        dsimp only
        split_ifs <;> simp [handlers, get_remove_of_ne same, get_put_of_ne same]
      simp [Registered, after, same]
  | _ => simp [Registered, disposeListener]

theorem registered_disposeService {name : Str} {held : Service} :
    Registered (disposeService registries name held) c ↔
      Registered registries c ∧ c ≠ .service name held := by
  unfold disposeService
  split_ifs with isHeld
  · cases c with
    | service other one =>
      by_cases same : other = name
      · subst same
        simp [Registered, isHeld, eq_comm]
      · simp [Registered, get_remove_of_ne same, same]
    | _ => simp [Registered, handlers]
  · cases c with
    | service other one =>
      simp only [Registered, ne_eq, Contribution.service.injEq]
      constructor
      · intro registered
        refine ⟨registered, ?_⟩
        rintro ⟨rfl, rfl⟩
        exact isHeld registered
      · exact And.left
    | _ => simp [Registered, handlers]

theorem tidy_run (tidy : Tidy registries) (disposer : Disposer) : Tidy (disposer.run registries) := by
  have kept : ∀ {after : Registries}, after.commands = registries.commands →
      after.keymap = registries.keymap → Tidy after := by
    intro after commands keymap
    exact ⟨commands ▸ tidy.distinct, by rw [keymap, commands, tidy.keymap]⟩
  cases disposer with
  | command id =>
    rw [Disposer.run, disposeCommand_tidy tidy id]
    exact tidy
  | editor owner live build markdown =>
    have cancelled : (cancelBuild registries build).commands = registries.commands ∧
        (cancelBuild registries build).keymap = registries.keymap := by
      unfold cancelBuild
      repeat' split
      all_goals exact ⟨rfl, rfl⟩
    simp only [Disposer.run, disposeEditor]
    split_ifs
    · exact kept cancelled.1 cancelled.2
    · exact kept cancelled.1 cancelled.2
  | service name held =>
    simp only [Disposer.run, disposeService]
    split_ifs
    · exact kept rfl rfl
    · exact tidy
  | _ => exact kept rfl rfl

/-- **What a disposer takes away.** -/
theorem registered_run (tidy : Tidy registries) (disposer : Disposer) :
    Registered (disposer.run registries) c ↔
      Registered registries c ∧ disposer.removes registries.builds c = false := by
  cases disposer with
  | command id => simp [Disposer.run, disposeCommand_tidy tidy, Disposer.removes]
  | fill slot id => exact registered_disposeFill
  | theme id =>
    cases c with
    | theme other pack =>
      by_cases same : other = id
      · subst same
        simp [Registered, Disposer.run, Disposer.removes]
      · simp [Registered, Disposer.run, Disposer.removes, get_remove_of_ne same, same]
    | _ => simp [Registered, Disposer.run, Disposer.removes, handlers]
  | font id =>
    cases c with
    | font other pack =>
      by_cases same : other = id
      · subst same
        simp [Registered, Disposer.run, Disposer.removes]
      · simp [Registered, Disposer.run, Disposer.removes, get_remove_of_ne same, same]
    | _ => simp [Registered, Disposer.run, Disposer.removes, handlers]
  | extension key live => simpa [Disposer.run, Disposer.removes] using registered_disposeExtension
  | editor owner live build markdown => exact registered_disposeEditor
  | listener event handler =>
    simpa [Disposer.run, Disposer.removes] using registered_disposeListener
  | service name held => simpa [Disposer.run, Disposer.removes] using registered_disposeService

/-! ## The builds of node views -/

/-- The cell that a disposer cancels. -/
def Disposer.build : Disposer → Option Nat
  | .editor _ _ build _ => build
  | _ => none

def NodeViewBuild.cancel (cell : NodeViewBuild) : NodeViewBuild := { cell with cancelled := true }

theorem builds_run (disposer : Disposer) (index : Nat) :
    (disposer.run registries).builds[index]? = registries.builds[index]?.map fun cell =>
      if disposer.build = some index then cell.cancel else cell := by
  have untouched : registries.builds[index]? = registries.builds[index]?.map fun cell =>
      if (none : Option Nat) = some index then cell.cancel else cell := by simp
  cases disposer with
  | editor owner live build markdown =>
    have cancelled : (disposeEditor registries owner live build markdown).builds =
        (cancelBuild registries build).builds := by
      unfold disposeEditor
      dsimp only
      split_ifs <;> rfl
    rw [Disposer.run, cancelled]
    cases build with
    | none => simp [cancelBuild, Disposer.build]
    | some place =>
      cases held : registries.builds[place]? with
      | none =>
        have same : (cancelBuild registries (some place)).builds = registries.builds := by
          simp [cancelBuild, held]
        rw [same]
        by_cases isIt : place = index
        · subst isIt
          simp [held]
        · simp [Disposer.build, isIt]
      | some cell =>
        have set : (cancelBuild registries (some place)).builds =
            registries.builds.set place cell.cancel := by
          obtain ⟨owner, extension, pending, cancelled, disposer⟩ := cell
          cases disposer <;> simp [cancelBuild, held] <;> rfl
        rw [set, getElem?_set]
        by_cases isIt : place = index
        · subst isIt
          obtain ⟨inside, rfl⟩ := List.getElem?_eq_some_iff.mp held
          simp [Disposer.build, inside]
        · simp [Disposer.build, isIt]
  | service name held =>
    have same : (disposeService registries name held).builds = registries.builds := by
      unfold disposeService
      split_ifs <;> rfl
    rw [Disposer.run, same]
    exact untouched
  | _ => exact untouched

theorem injectedKey_run (disposer : Disposer) (build : Option Nat) :
    injectedKey (disposer.run registries).builds build = injectedKey registries.builds build := by
  cases build with
  | none => rfl
  | some index =>
    simp only [injectedKey, Option.bind_some, builds_run]
    cases registries.builds[index]? with
    | none => rfl
    | some cell =>
      simp only [Option.map_some, Option.bind_some]
      split_ifs <;> rfl

variable {builds others : List NodeViewBuild}

theorem removes_congr (same : ∀ build, injectedKey builds build = injectedKey others build)
    (disposer : Disposer) :
    disposer.removes builds c = disposer.removes others c := by
  cases disposer with
  | editor owner live build markdown => simp [Disposer.removes, same]
  | _ => cases c <;> rfl

/-- What one of some disposers takes away, all of them do. -/
def removesAny (builds : List NodeViewBuild) (disposers : List Disposer) (c : Contribution) : Bool :=
  disposers.any fun disposer => disposer.removes builds c

variable {disposers : List Disposer}

theorem removesAny_congr (same : ∀ build, injectedKey builds build = injectedKey others build) :
    removesAny builds disposers c = removesAny others disposers c := by
  simp only [removesAny, removes_congr same]

/-- With more node views injected, nothing less is taken away. -/
theorem removesAny_mono
    (kept : ∀ build key, injectedKey builds build = some key → injectedKey others build = some key)
    (removed : removesAny builds disposers c = true) : removesAny others disposers c = true := by
  rw [removesAny, any_eq_true] at removed ⊢
  obtain ⟨disposer, among, removes⟩ := removed
  refine ⟨disposer, among, ?_⟩
  cases disposer with
  | editor owner live build markdown =>
    simp only [Disposer.removes, Bool.or_eq_true, Bool.and_eq_true, decide_eq_true_eq] at removes ⊢
    refine removes.imp_left (Or.imp_right fun injected => ⟨injected.1, ?_⟩)
    obtain ⟨key, isKey⟩ := Option.isSome_iff_exists.mp injected.1
    rw [isKey, kept build key (injected.2.symm.trans isKey)]
  | _ => cases c <;> exact removes

theorem runDisposers_append {disposer : Disposer} :
    runDisposers registries (disposer :: disposers) =
      disposer.run (runDisposers registries disposers) := by
  simp [runDisposers]

theorem injectedKey_runDisposers (disposers : List Disposer) (build : Option Nat) :
    injectedKey (runDisposers registries disposers).builds build =
      injectedKey registries.builds build := by
  induction disposers with
  | nil => rfl
  | cons disposer rest ih => rw [runDisposers_append, injectedKey_run, ih]

theorem tidy_runDisposers (tidy : Tidy registries) (disposers : List Disposer) :
    Tidy (runDisposers registries disposers) := by
  induction disposers with
  | nil => exact tidy
  | cons disposer rest ih =>
    rw [runDisposers_append]
    exact tidy_run ih disposer

theorem registered_runDisposers (tidy : Tidy registries) (disposers : List Disposer) :
    Registered (runDisposers registries disposers) c ↔
      Registered registries c ∧ removesAny registries.builds disposers c = false := by
  induction disposers with
  | nil => simp [runDisposers, removesAny]
  | cons disposer rest ih =>
    rw [runDisposers_append, registered_run (tidy_runDisposers tidy rest), ih,
      removes_congr (injectedKey_runDisposers rest)]
    simp [removesAny]
    tauto

theorem builds_runDisposers (disposers : List Disposer) (index : Nat) :
    (runDisposers registries disposers).builds[index]? = registries.builds[index]?.map fun cell =>
      if disposers.any fun disposer => disposer.build = some index then cell.cancel else cell := by
  induction disposers with
  | nil => simp [runDisposers]
  | cons disposer rest ih =>
    rw [runDisposers_append, builds_run, ih]
    cases registries.builds[index]? with
    | none => rfl
    | some cell =>
      simp only [Option.map_some, Option.some.injEq, any_cons, Bool.or_eq_true, decide_eq_true_eq]
      by_cases here : disposer.build = some index <;>
        by_cases later : (rest.any fun disposer => disposer.build = some index) = true <;>
        simp [here, later, NodeViewBuild.cancel]

end

end Kuku.Plugins
