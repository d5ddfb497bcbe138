/-
# Plugins.Registries -- what plugins register, and the functions that take it away again

The registries are module-level stores and maps: commands with the keymap built from them, slot
fills, themes, fonts, the extensions of the editor, markdown contributions, services, event
listeners and context keys.  Every `register…` answers a disposer; a disposer is a closure, and
here it is the data the closure holds.

A store setter that is given an object merges it into the one that is there, and one that is
given `undefined` deletes the key.  Functions, components and other values the registries only
hand on are told apart by a text.  Left out are what is shown or applied of a registered theme
or font, `executePluginCommand`, and the keys of a record that look like array indices, which a
browser lists before the others.
-/
import Kuku.Theory.Store

namespace Kuku.Plugins

open Kuku.Theory

abbrev Str := List Char

/-! ## Contributions -/

structure CommandContribution where
  id : Str
  label : Str
  defaultKeys : Option (List Str)
  deriving DecidableEq

structure RegisteredCommand where
  pluginId : Str
  contribution : CommandContribution
  userKeys : Option (List Str)

inductive SlotName where
  | titleBarLeftAction
  | titleBarRightAction
  | centerTab
  | overlay
  | leftSection
  | rightPanel
  | bottomPanel
  | bottomBar
  | settingsSection
  deriving DecidableEq

structure SlotFill where
  id : Str
  pluginId : Str
  slot : SlotName
  label : Str
  component : Str
  order : Int
  tabType : Option Str
  align : Option Str
  deriving DecidableEq

structure ViewContribution where
  id : Str
  label : Str
  slot : SlotName
  order : Option Int := none
  component : Str
  tabType : Option Str := none

structure StatusBarContribution where
  id : Str
  component : Str
  order : Option Int := none
  align : Option Str := none

structure ThemePack where
  id : Str
  name : Str
  author : Option Str
  variants : List Str
  deriving DecidableEq

structure FontPack where
  id : Str
  name : Str
  sans : Str
  mono : Str
  deriving DecidableEq

abbrev Extension := Str

abbrev MarkdownContribution := Str

/-- `extension` is what the factory returns, `nodeViews` what the node views are built to. -/
structure EditorContribution where
  extension : Extension
  nodeViews : Option Extension := none
  markdown : Option MarkdownContribution := none

abbrev Service := Str

abbrev Handler := Str

inductive ContextValue where
  | plain (value : Str)
  | object (fields : Assoc Str Str)

/-- How an extension leaves the live editor. -/
inductive Unuse where
  | bakedIn
  | used (extension : Extension)

/-- The cell that the building of node views shares with the disposer of their contribution:
`disposer` is set when the built extension has been injected, with whether an editor was live.
`pending` is whether the building still goes on. -/
structure NodeViewBuild where
  pluginId : Str
  extension : Extension
  pending : Bool := true
  cancelled : Bool := false
  disposer : Option Bool := none

structure Registries where
  commands : Assoc Str RegisteredCommand := []
  keymap : Assoc Str (List CommandContribution) := []
  fills : SlotName → List SlotFill := fun _ => []
  themes : Assoc Str ThemePack := []
  fonts : Assoc Str FontPack := []
  activeEditor : Bool := false
  pluginExtensions : Assoc Str Unuse := []
  pendingExtensions : Assoc Str Extension := []
  pendingContributions : Assoc Str MarkdownContribution := []
  services : Assoc Str Service := []
  listeners : Assoc Str (List Handler) := []
  contextKeys : Assoc Str ContextValue := []
  builds : List NodeViewBuild := []

/-- What a disposer holds on to.  `live` is whether an editor was there when the extension was
injected; the disposer of an editor contribution has the number of its cell, if there is one. -/
inductive Disposer where
  | command (id : Str)
  | fill (slot : SlotName) (id : Str)
  | theme (id : Str)
  | font (id : Str)
  | extension (key : Str) (live : Bool)
  | editor (pluginId : Str) (live : Bool) (build : Option Nat) (markdown : Bool)
  | listener (event : Str) (handler : Handler)
  | service (name : Str) (service : Service)

/-! ## Commands and the keymap -/

def RegisteredCommand.keys (command : RegisteredCommand) : List Str :=
  (command.userKeys.or command.contribution.defaultKeys).getD []

/-- A contribution joins the chain of a key. -/
def joinChain (contribution : CommandContribution) (chains : Assoc Str (List CommandContribution))
    (key : Str) : Assoc Str (List CommandContribution) :=
  chains.put key ((chains.get key).getD [] ++ [contribution])

/-- `keyChains`: for each key the contributions that are tried, in order. -/
def keyChains (commands : Assoc Str RegisteredCommand) : Assoc Str (List CommandContribution) :=
  commands.foldl (fun chains entry =>
    entry.2.keys.foldl (joinChain entry.2.contribution) chains) []

def rebuildKeymap (registries : Registries) : Registries :=
  { registries with keymap := keyChains registries.commands }

/-- The entry is merged into the one that is there, which keeps the user's keys. -/
def setCommand (registries : Registries) (pluginId : Str) (cmd : CommandContribution) :
    Registries :=
  { registries with
    commands := registries.commands.put cmd.id
      { pluginId
        contribution := cmd
        userKeys := (registries.commands.get cmd.id).bind (·.userKeys) } }

def registerPluginCommand (registries : Registries) (pluginId : Str) (cmd : CommandContribution) :
    Registries × Disposer :=
  (rebuildKeymap (setCommand registries pluginId cmd), .command cmd.id)

/-- The disposer merges a copy without the key into the commands. -/
def disposeCommand (registries : Registries) (id : Str) : Registries :=
  rebuildKeymap
    { registries with
      commands := registries.commands.merge (registries.commands.remove id) }

def updateCommandKeys (registries : Registries) (commandId : Str) (newKeys : List Str) :
    Registries :=
  match registries.commands.get commandId with
  | none => registries
  | some reg =>
    rebuildKeymap
      { registries with
        commands := registries.commands.put commandId
          { reg with userKeys := if newKeys = [] then none else some newKeys } }

/-! ## Slots -/

def byOrder (first second : SlotFill) : Prop := first.order ≤ second.order

instance : DecidableRel byOrder := fun first second =>
  inferInstanceAs (Decidable (first.order ≤ second.order))

def setFills (registries : Registries) (slot : SlotName) (fills : List SlotFill) : Registries :=
  { registries with fills := Function.update registries.fills slot fills }

def registerFill (registries : Registries) (fill : SlotFill) : Registries × Disposer :=
  (setFills registries fill.slot
    (((registries.fills fill.slot).filter fun entry => entry.id ≠ fill.id) ++ [fill]
      |>.insertionSort byOrder),
    .fill fill.slot fill.id)

def disposeFill (registries : Registries) (slot : SlotName) (id : Str) : Registries :=
  setFills registries slot ((registries.fills slot).filter fun fill => fill.id ≠ id)

def removeFillsByPlugin (registries : Registries) (pluginId : Str) : Registries :=
  { registries with
    fills := fun slot => (registries.fills slot).filter fun fill => fill.pluginId ≠ pluginId }

/-- `activateView`. -/
def viewFill (pluginId : Str) (view : ViewContribution) : SlotFill :=
  { view with pluginId, order := view.order.getD 100, align := none }

/-- `activateStatusBar`. -/
def statusBarFill (pluginId : Str) (item : StatusBarContribution) : SlotFill where
  id := item.id
  pluginId
  slot := .bottomBar
  label := []
  component := item.component
  order := item.order.getD 100
  tabType := none
  align := item.align

/-! ## Themes and fonts -/

/-- The pack is merged into the one that is there, which keeps an author the new one lacks. -/
def registerThemePack (registries : Registries) (pack : ThemePack) : Registries × Disposer :=
  ({ registries with
      themes := registries.themes.put pack.id
        { pack with author := pack.author.or ((registries.themes.get pack.id).bind (·.author)) } },
    .theme pack.id)

def registerFontPack (registries : Registries) (pack : FontPack) : Registries × Disposer :=
  ({ registries with fonts := registries.fonts.put pack.id pack }, .font pack.id)

/-! ## The editor -/

def setPending (registries : Registries) (key : Str) (extension : Extension) : Registries :=
  { registries with pendingExtensions := registries.pendingExtensions.put key extension }

/-- Among the pending extensions, and in the live editor if there is one. -/
def usePluginExtension (registries : Registries) (key : Str) (extension : Extension) :
    Registries × Disposer :=
  let pending := setPending registries key extension
  if registries.activeEditor then
    ({ pending with pluginExtensions := registries.pluginExtensions.put key (.used extension) },
      .extension key true)
  else (pending, .extension key false)

def disposeExtension (registries : Registries) (key : Str) (live : Bool) : Registries :=
  { registries with
    pluginExtensions :=
      if live then registries.pluginExtensions.remove key else registries.pluginExtensions
    pendingExtensions := registries.pendingExtensions.remove key }

def nodeViewsKey (pluginId : Str) : Str := pluginId ++ ":nodeViews".toList

def contributeMarkdown (registries : Registries) (pluginId : Str)
    (contribution : MarkdownContribution) : Registries :=
  { registries with
    pendingContributions := registries.pendingContributions.put pluginId contribution }

def disposeMarkdown (registries : Registries) (pluginId : Str) : Registries :=
  { registries with pendingContributions := registries.pendingContributions.remove pluginId }

/-- The building of the node views goes on by itself. -/
def startBuild (registries : Registries) (pluginId : Str) (nodeViews : Extension) : Registries :=
  { registries with
    builds := registries.builds ++ [{ pluginId, extension := nodeViews }] }

def activateEditorContribution (registries : Registries) (pluginId : Str)
    (contribution : EditorContribution) : Registries × Disposer :=
  let used := (usePluginExtension registries pluginId contribution.extension).1
  let building := match contribution.nodeViews with
    | some nodeViews => startBuild used pluginId nodeViews
    | none => used
  let contributed := match contribution.markdown with
    | some markdown => contributeMarkdown building pluginId markdown
    | none => building
  (contributed, .editor pluginId registries.activeEditor
    (contribution.nodeViews.map fun _ => registries.builds.length) contribution.markdown.isSome)

/-- How the building of node views ends: built, failed, or built and refused by the live editor
after it was put among the pending ones. -/
inductive BuildEnd where
  | built
  | failed
  | refused
  deriving DecidableEq

def setBuild (registries : Registries) (index : Nat) (build : NodeViewBuild) : Registries :=
  { registries with builds := registries.builds.set index build }

/-- What `buildNodeViewExtension(…).then(…)` does with a build when it ends. -/
def endBuild (registries : Registries) (index : Nat) (build : NodeViewBuild) (ends : BuildEnd) :
    Registries :=
  let settled := setBuild registries index { build with pending := false }
  if build.cancelled then settled
  else match ends with
    | .built =>
      setBuild (usePluginExtension registries (nodeViewsKey build.pluginId) build.extension).1
        index { build with pending := false, disposer := some registries.activeEditor }
    | .failed => settled
    | .refused => setPending settled (nodeViewsKey build.pluginId) build.extension

/-- `cancelled = true; nodeViewDisposer?.()`. -/
def cancelBuild (registries : Registries) (build : Option Nat) : Registries :=
  match build with
  | none => registries
  | some index =>
    match registries.builds[index]? with
    | none => registries
    | some cell =>
      let cancelled := setBuild registries index { cell with cancelled := true }
      match cell.disposer with
      | some live => disposeExtension cancelled (nodeViewsKey cell.pluginId) live
      | none => cancelled

def disposeEditor (registries : Registries) (pluginId : Str) (live : Bool) (build : Option Nat)
    (markdown : Bool) : Registries :=
  let unused := disposeExtension (cancelBuild registries build) pluginId live
  if markdown then disposeMarkdown unused pluginId else unused

def destroyEditor (registries : Registries) : Registries :=
  { registries with activeEditor := false, pluginExtensions := [] }

/-- `createKukuEditor`: the pending extensions are part of the new editor. -/
def createKukuEditor (registries : Registries) : Registries :=
  let destroyed := if registries.activeEditor then destroyEditor registries else registries
  { destroyed with
    activeEditor := true
    pluginExtensions := destroyed.pendingExtensions.foldl
      (fun extensions pending => extensions.put pending.1 .bakedIn) destroyed.pluginExtensions }

/-! ## Services, listeners and context keys -/

def registerService (registries : Registries) (name : Str) (service : Service) :
    Registries × Disposer :=
  ({ registries with services := registries.services.put name service }, .service name service)

def disposeService (registries : Registries) (name : Str) (service : Service) : Registries :=
  if registries.services.get name = some service then
    { registries with services := registries.services.remove name }
  else registries

def removeServicesByPrefix (registries : Registries) (start : Str) : Registries :=
  { registries with
    services := registries.services.restrict fun name => !start.isPrefixOf name }

def handlers (registries : Registries) (event : Str) : List Handler :=
  (registries.listeners.get event).getD []

/-- The handlers of an event are a set. -/
def onEvent (registries : Registries) (event : Str) (handler : Handler) : Registries × Disposer :=
  let before := handlers registries event
  ({ registries with
      listeners := registries.listeners.put event
        (if handler ∈ before then before else before ++ [handler]) },
    .listener event handler)

def disposeListener (registries : Registries) (event : Str) (handler : Handler) : Registries :=
  let left := (handlers registries event).filter fun other => other ≠ handler
  { registries with
    listeners :=
      if left = [] then registries.listeners.remove event
      else registries.listeners.put event left }

def removeListenersByPrefix (registries : Registries) (start : Str) : Registries :=
  { registries with
    listeners := registries.listeners.restrict fun event => !start.isPrefixOf event }

/-- What is in the store after an object is set over an object. -/
def ContextValue.over (value : ContextValue) : Option ContextValue → ContextValue
  | some (.object before) =>
    match value with
    | .object fields => .object (before.merge fields)
    | .plain text => .plain text
  | _ => value

/-- `undefined` deletes the key. -/
def setContextKey (registries : Registries) (key : Str) (value : Option ContextValue) :
    Registries :=
  { registries with
    contextKeys := match value with
      | some value => registries.contextKeys.put key (value.over (registries.contextKeys.get key))
      | none => registries.contextKeys.remove key }

def deleteContextKeysByPrefix (registries : Registries) (start : Str) : Registries :=
  { registries with
    contextKeys := registries.contextKeys.restrict fun key => !(start ++ ['.']).isPrefixOf key }

/-! ## Disposers -/

def Disposer.run (registries : Registries) : Disposer → Registries
  | .command id => disposeCommand registries id
  | .fill slot id => disposeFill registries slot id
  | .theme id => { registries with themes := registries.themes.remove id }
  | .font id => { registries with fonts := registries.fonts.remove id }
  | .extension key live => disposeExtension registries key live
  | .editor pluginId live build markdown => disposeEditor registries pluginId live build markdown
  | .listener event handler => disposeListener registries event handler
  | .service name held => disposeService registries name held

def runDisposers (registries : Registries) (disposers : List Disposer) : Registries :=
  disposers.reverse.foldl Disposer.run registries

end Kuku.Plugins
