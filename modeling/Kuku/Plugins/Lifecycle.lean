/-
# Plugins.Lifecycle -- activating and deactivating plugins, any number at a time

`activatePlugin` activates the dependencies one after another, registers what the plugin
declares, awaits the context and then the plugin's own `activate`, which may register more.
`deactivatePlugin` awaits the plugin's `deactivate`, runs the disposers and sweeps up.  Every
await is a place where other calls go on; a call of a dependency and the turn after it are steps
of their own too, which allows more interleavings than one thread has, and none less.

A plugin is what it declares.  What its `activate` does is left to the run: it makes calls of
its context, and returns or throws.  A call that registers can throw as well, and then it has
written or not, and nobody has its disposer.  `contributed` is not in the program: it says what a
plugin has contributed since its activation began.
-/
import Kuku.Plugins.Contributions
import Kuku.Theory.Runs
import Kuku.Theory.Slots

namespace Kuku.Plugins

open Kuku.Theory

structure KukuPlugin where
  dependencies : List Str := []
  commands : List CommandContribution := []
  views : List ViewContribution := []
  statusBar : List StatusBarContribution := []
  themes : List ThemePack := []
  fonts : Option FontPack := none
  editor : Option EditorContribution := none

abbrev PluginInstances := Str → Option KukuPlugin

/-! ## What a plugin declares -/

inductive Declared where
  | command (cmd : CommandContribution)
  | fill (fill : SlotFill)
  | theme (pack : ThemePack)
  | font (pack : FontPack)
  | editor (contribution : EditorContribution)

/-- In the order in which they are registered. -/
def KukuPlugin.declared (plugin : KukuPlugin) (id : Str) : List Declared :=
  plugin.commands.map .command ++
    plugin.views.map (fun view => .fill (viewFill id view)) ++
    plugin.statusBar.map (fun item => .fill (statusBarFill id item)) ++
    plugin.themes.map .theme ++ plugin.fonts.toList.map .font ++ plugin.editor.toList.map .editor

def Declared.register (registries : Registries) (id : Str) : Declared → Registries × Disposer
  | .command cmd => registerPluginCommand registries id cmd
  | .fill entry => registerFill registries entry
  | .theme pack => registerThemePack registries pack
  | .font pack => registerFontPack registries pack
  | .editor contribution => activateEditorContribution registries id contribution

/-- What is left when the registration throws after it has written: the keymap is torn down and
not set again, or the live editor refuses the extension. -/
def Declared.leave (registries : Registries) (id : Str) : Declared → Registries
  | .command cmd => { setCommand registries id cmd with keymap := [] }
  | .editor contribution => setPending registries id contribution.extension
  | declared => (declared.register registries id).1

/-- The contributions that are made by registering. -/
def Declared.made (id : Str) : Declared → List Contribution
  | .command cmd => [.command cmd.id id cmd]
  | .fill entry => [.fill entry.slot entry]
  | .theme pack => [.theme pack.id pack]
  | .font pack => [.font pack.id pack]
  | .editor contribution =>
    .extension id contribution.extension ::
      contribution.markdown.toList.map fun markdown => .markdown id markdown

def registerAll (registries : Registries) (id : Str) : List Declared → Registries × List Disposer
  | [] => (registries, [])
  | declared :: rest =>
    let registered := declared.register registries id
    let others := registerAll registered.1 id rest
    (others.1, registered.2 :: others.2)

/-- A registration throws: which one, whether it has written, and what it says. -/
structure Fault where
  index : Nat
  written : Bool
  error : Str

/-- The registries after the fault, if it is at one of the declared contributions. -/
def registerUntil (registries : Registries) (id : Str) (declared : List Declared) (fault : Fault) :
    Option Registries :=
  declared[fault.index]?.map fun faulty =>
    let before := (registerAll registries id (declared.take fault.index)).1
    if fault.written then faulty.leave before id else before

/-! ## What a plugin registers through its context -/

inductive ContextCall where
  | registerCommand (cmd : CommandContribution)
  | useExtension (extension : Extension)
  | onEvent (event : Str) (handler : Handler)
  | registerService (name : Str) (service : Service)
  | setKey (key : Str) (value : Option ContextValue)

/-- A name under a plugin's own. -/
def qualified (id name : Str) : Str := id ++ ['.'] ++ name

/-- The context of a plugin does the call; what has a disposer is tracked. -/
def ContextCall.perform (registries : Registries) (id : Str) :
    ContextCall → Registries × List Disposer
  | .registerCommand cmd =>
    let registered := registerPluginCommand registries id cmd
    (registered.1, [registered.2])
  | .useExtension extension =>
    let registered := usePluginExtension registries id extension
    (registered.1, [registered.2])
  | .onEvent event handler =>
    let registered := Plugins.onEvent registries event handler
    (registered.1, [registered.2])
  | .registerService name held =>
    let registered := Plugins.registerService registries (qualified id name) held
    (registered.1, [registered.2])
  | .setKey key value => (setContextKey registries (qualified id key) value, [])

def ContextCall.leave (registries : Registries) (id : Str) : ContextCall → Registries
  | .registerCommand cmd => { setCommand registries id cmd with keymap := [] }
  | .useExtension extension => setPending registries id extension
  | call => (call.perform registries id).1

def ContextCall.record (id : Str) (made : List Contribution) : ContextCall → List Contribution
  | .registerCommand cmd => .command cmd.id id cmd :: made
  | .useExtension extension => .extension id extension :: made
  | .onEvent event handler => .listener event handler :: made
  | .registerService name held => .service (qualified id name) held :: made
  | .setKey key value =>
    let others := made.filter fun c => c ≠ .contextKey (qualified id key)
    match value with
    | some _ => .contextKey (qualified id key) :: others
    | none => others

/-! ## The state -/

/-- How far an activation has come.  `awaiting` is for the activation of a dependency. -/
inductive Phase where
  | dependencies (remaining : List Str)
  | awaiting (dependency : Str) (remaining : List Str)
  | importing
  | activate

/-- One activation of one plugin under way. -/
structure Frame where
  phase : Phase
  disposers : List Disposer := []

/-- A call under way.  An activation has the plugins it is activating, the innermost first, and
the error with which the innermost of them is going to be left. -/
inductive Call where
  | activation (stack : List Str) (failing : Option Str)
  | deactivation (id : Str)

structure State where
  registries : Registries := {}
  activated : List Str := []
  disabled : List Str := []
  failed : List Str := []
  activating : Assoc Str Frame := []
  disposerMap : Assoc Str (List Disposer) := []
  calls : Slots Nat Call := fun _ => none
  contributed : Str → List Contribution := fun _ => []

/-- No activation or deactivation is in progress. -/
def State.Quiet (s : State) : Prop := ∀ call, s.calls call = none

/-! ## The guards of `activatePlugin` -/

inductive Admission where
  | already
  | refused (error : Str)
  | entered (dependencies : List Str)

def quote (id : Str) : Str := '"' :: id ++ ['"']

def disabledError (id : Str) : Str := "Plugin ".toList ++ quote id ++ " is disabled.".toList

def failedError (id : Str) : Str :=
  "Cannot activate plugin ".toList ++ quote id ++ " because it previously failed to load.".toList

def circularError (activating : List Str) (id : Str) : Str :=
  "Circular dependency detected: ".toList ++ quote id ++ " is already being activated. ".toList ++
    "Chain: ".toList ++ List.intercalate " → ".toList (activating ++ [id])

def unregisteredError (id : Str) : Str := "Plugin ".toList ++ quote id ++ " not registered".toList

variable (plugins : PluginInstances)

def State.admit (s : State) (id : Str) : Admission :=
  if id ∈ s.activated then .already
  else if id ∈ s.disabled then .refused (disabledError id)
  else if id ∈ s.failed then .refused (failedError id)
  else if (s.activating.get id).isSome then
    .refused (circularError (s.activating.map Prod.fst) id)
  else match plugins id with
    | none => .refused (unregisteredError id)
    | some plugin => .entered plugin.dependencies

/-! ## Moves of an activation -/

def State.setCall (s : State) (call : Nat) (value : Option Call) : State :=
  { s with calls := Function.update s.calls call value }

def State.setFrame (s : State) (id : Str) (frame : Frame) : State :=
  { s with activating := s.activating.put id frame }

/-- `activating.add(id)`, above the plugins that wait for it. -/
def State.enter (s : State) (call : Nat) (id : Str) (dependencies below : List Str) : State :=
  { (s.setFrame id { phase := .dependencies dependencies }).setCall call
      (some (.activation (id :: below) none)) with
    contributed := Function.update s.contributed id [] }

/-- The plugins that wait for the one that is left. -/
def awaiters (below : List Str) (failing : Option Str) : Option Call :=
  if below = [] then none else some (.activation below failing)

/-- `finally { activating.delete(id) }`, with an error. -/
def State.fail (s : State) (call : Nat) (id : Str) (below : List Str) (error : Str) : State :=
  { s with activating := s.activating.remove id }.setCall call (awaiters below (some error))

/-- The activation that awaited this one goes on. -/
def resumed (activating : Assoc Str Frame) : List Str → Assoc Str Frame
  | [] => activating
  | parent :: _ =>
    match activating.get parent with
    | some ⟨.awaiting _ remaining, disposers⟩ =>
      activating.put parent ⟨.dependencies remaining, disposers⟩
    | _ => activating

/-- The plugin is activated, and what awaited it goes on. -/
def State.succeed (s : State) (call : Nat) (id : Str) (below : List Str)
    (disposers : List Disposer) : State :=
  { s with
    disposerMap := s.disposerMap.put id disposers
    activated := s.activated ++ [id]
    activating := resumed (s.activating.remove id) below }.setCall call (awaiters below none)

/-! ## Steps -/

inductive Label where
  | activatePlugin (call : Nat) (id : Str)
  /-- The call of the next dependency. -/
  | activateDependency (call : Nat)
  /-- No dependency is left: what the plugin declares is registered. -/
  | register (call : Nat) (fault : Option Fault)
  /-- The import of the context ends. -/
  | imported (call : Nat) (error : Option Str)
  /-- The plugin's `activate` calls its context; `completes` is whether the call returns. -/
  | contextCall (call : Nat) (contextCall : ContextCall) (completes : Bool)
  /-- The plugin's `activate` returns; its own disposer runs some disposers. -/
  | activateReturned (call : Nat) (returned : List Disposer)
  | activateThrew (call : Nat) (error : Str)
  /-- The error reaches a plugin that was waiting. -/
  | unwind (call : Nat)
  | deactivatePlugin (call : Nat) (id : Str)
  /-- The plugin's `deactivate` has returned or thrown. -/
  | deactivateSettled (call : Nat)
  | buildEnds (index : Nat) (ends : BuildEnd)
  | setDisabledPlugins (ids : List Str)
  | markPluginFailed (id : Str)
  | updateCommandKeys (commandId : Str) (newKeys : List Str)
  | createKukuEditor
  | destroyEditor

/-- The innermost activation of a call that is not failing, and what waits for it. -/
def State.running (s : State) (call : Nat) : Option (Str × List Str × Frame) :=
  match s.calls call with
  | some (.activation (id :: below) none) => (s.activating.get id).map fun frame => (id, below, frame)
  | _ => none

def activateDependency (s : State) (call : Nat) (id : Str) (below : List Str) (dependency : Str)
    (remaining : List Str) (disposers : List Disposer) : State :=
  match s.admit plugins dependency with
  | .already => s.setFrame id ⟨.dependencies remaining, disposers⟩
  | .refused error => s.fail call id below error
  | .entered dependencies =>
    (s.setFrame id ⟨.awaiting dependency remaining, disposers⟩).enter call dependency dependencies
      (id :: below)

/-- The contributions are registered, and the import of the context begins. -/
def State.registerDeclared (s : State) (id : Str) (declared : List Declared) : State :=
  let registered := registerAll s.registries id declared
  { s with
    registries := registered.1
    contributed := Function.update s.contributed id (declared.flatMap (Declared.made id)) }.setFrame
      id ⟨.importing, registered.2⟩

/-- Without a fault, or with one that is not reached, everything is registered. -/
def State.registerStep (s : State) (call : Nat) (id : Str) (below : List Str)
    (declared : List Declared) : Option Fault → State
  | none => s.registerDeclared id declared
  | some fault =>
    match registerUntil s.registries id declared fault with
    | none => s.registerDeclared id declared
    | some registries => { s with registries := registries }.fail call id below fault.error

def State.perform (s : State) (id : Str) (frame : Frame) (call : ContextCall) : State :=
  let performed := call.perform s.registries id
  { s with
    registries := performed.1
    contributed := Function.update s.contributed id (call.record id (s.contributed id)) }.setFrame
      id { frame with disposers := frame.disposers ++ performed.2 }

/-- The end of `deactivatePlugin`. -/
def State.deactivate (s : State) (call : Nat) (id : Str) : State :=
  { s with
    registries := sweep (runDisposers s.registries ((s.disposerMap.get id).getD [])) id
    disposerMap := s.disposerMap.remove id
    activated := s.activated.filter fun other => other ≠ id }.setCall call none

/-- The node views of a plugin are in use. -/
def State.inject (s : State) (index : Nat) (build : NodeViewBuild) : State :=
  { s with
    registries := endBuild s.registries index build .built
    contributed := Function.update s.contributed build.pluginId
      (.extension (nodeViewsKey build.pluginId) build.extension :: s.contributed build.pluginId) }

def State.endBuild (s : State) (index : Nat) (build : NodeViewBuild) (ends : BuildEnd) : State :=
  if !build.cancelled && ends = .built then s.inject index build
  else { s with registries := Plugins.endBuild s.registries index build ends }

def next (s : State) : Label → Option State
  | .activatePlugin call id =>
    if (s.calls call).isSome then none
    else match s.admit plugins id with
      | .entered dependencies => some (s.enter call id dependencies [])
      | _ => some s
  | .activateDependency call =>
    match s.running call with
    | some (id, below, ⟨.dependencies (dependency :: remaining), disposers⟩) =>
      some (activateDependency plugins s call id below dependency remaining disposers)
    | _ => none
  | .register call fault =>
    match s.running call with
    | some (id, below, ⟨.dependencies [], _⟩) =>
      (plugins id).map fun plugin => s.registerStep call id below (plugin.declared id) fault
    | _ => none
  | .imported call error =>
    match s.running call with
    | some (id, below, ⟨.importing, disposers⟩) =>
      match error with
      | none => some (s.setFrame id ⟨.activate, disposers⟩)
      | some error => some (s.fail call id below error)
    | _ => none
  | .contextCall call contextCall completes =>
    match s.running call with
    | some (id, _, ⟨.activate, disposers⟩) =>
      if completes then some (s.perform id ⟨.activate, disposers⟩ contextCall)
      else some { s with registries := contextCall.leave s.registries id }
    | _ => none
  | .activateReturned call returned =>
    match s.running call with
    | some (id, below, ⟨.activate, disposers⟩) =>
      some (s.succeed call id below (disposers ++ returned))
    | _ => none
  | .activateThrew call error =>
    match s.running call with
    | some (id, below, ⟨.activate, disposers⟩) =>
      some ({ s with registries := runDisposers s.registries disposers }.fail call id below error)
    | _ => none
  | .unwind call =>
    match s.calls call with
    | some (.activation (id :: below) (some error)) => some (s.fail call id below error)
    | _ => none
  | .deactivatePlugin call id =>
    if (s.calls call).isSome then none
    else match plugins id with
      | none => some s
      | some _ => some (s.setCall call (some (.deactivation id)))
  | .deactivateSettled call =>
    match s.calls call with
    | some (.deactivation id) => some (s.deactivate call id)
    | _ => none
  | .buildEnds index ends =>
    match s.registries.builds[index]? with
    | some build => if build.pending then some (s.endBuild index build ends) else none
    | none => none
  | .setDisabledPlugins ids => some { s with disabled := ids }
  | .markPluginFailed id => some { s with failed := id :: s.failed }
  | .updateCommandKeys commandId newKeys =>
    some { s with registries := updateCommandKeys s.registries commandId newKeys }
  | .createKukuEditor => some { s with registries := createKukuEditor s.registries }
  | .destroyEditor => some { s with registries := destroyEditor s.registries }

/-- Plugins that are all inactive. -/
def system : System State Label := System.ofStep (fun s => s = {}) (next plugins)

end Kuku.Plugins
