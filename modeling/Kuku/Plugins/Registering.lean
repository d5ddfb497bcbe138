/-
# Plugins.Registering -- what a plugin's contributions do to the registries

For what a plugin declares and for what it registers through its context: a contribution that
fits its place is added and nothing else changes, its disposer takes it away again (a command's does
not), and the cell of node views that are being built is in the hands of its disposer.
-/
import Kuku.Plugins.Lifecycle

namespace Kuku.Plugins

open Kuku.Theory List

/-- Each contribution fits its place when its turn comes. -/
def fitAll (registries : Registries) (id : Str) : List Declared → Bool
  | [] => true
  | declared :: rest =>
    (declared.made id).all (fits registries) && fitAll (declared.register registries id).1 id rest

/-- The builds of one list are those of another, with some behind them. -/
structure Extends (builds more : List NodeViewBuild) : Prop where
  kept : ∀ (index : Nat) (cell : NodeViewBuild), builds[index]? = some cell → more[index]? = some cell

/-- The cells that have come are the plugin's, and their disposers are among these. -/
def Held (builds more : List NodeViewBuild) (id : Str) (disposers : List Disposer) : Prop :=
  ∀ (index : Nat) (cell : NodeViewBuild), more[index]? = some cell →
    builds[index]? = some cell ∨
      cell.pluginId = id ∧ ∃ live markdown, .editor id live (some index) markdown ∈ disposers

theorem Extends.refl (builds : List NodeViewBuild) : Extends builds builds := ⟨fun _ _ held => held⟩

theorem Extends.trans {first second third : List NodeViewBuild} (left : Extends first second)
    (right : Extends second third) : Extends first third :=
  ⟨fun index cell held => right.kept index cell (left.kept index cell held)⟩

theorem Extends.injectedKey {builds more : List NodeViewBuild} (kept : Extends builds more)
    {build : Option Nat} {key : Str} (isKey : Plugins.injectedKey builds build = some key) :
    Plugins.injectedKey more build = some key := by
  simp only [Plugins.injectedKey, Option.bind_eq_some_iff] at isKey ⊢
  obtain ⟨index, isIndex, cell, held, injected⟩ := isKey
  exact ⟨index, isIndex, cell, kept.kept index cell held, injected⟩

section

variable {registries : Registries} {id : Str} {c : Contribution} {declared : Declared}
  {contribution : EditorContribution}

/-! ## The contribution to the editor -/

theorem registered_startBuild {nodeViews : Extension} :
    Registered (startBuild registries id nodeViews) c ↔ Registered registries c := by
  cases c <;> rfl

/-- The registries once the extension is in use and its node views are being built. -/
def building (registries : Registries) (id : Str) (contribution : EditorContribution) : Registries :=
  let used := (usePluginExtension registries id contribution.extension).1
  match contribution.nodeViews with
  | some nodeViews => startBuild used id nodeViews
  | none => used

theorem activateEditorContribution_fst :
    (activateEditorContribution registries id contribution).1 =
      match contribution.markdown with
      | some markdown => contributeMarkdown (building registries id contribution) id markdown
      | none => building registries id contribution := rfl

theorem registered_building (fitting : fits registries (.extension id contribution.extension) = true) :
    Registered (building registries id contribution) c ↔
      Registered registries c ∨ c = .extension id contribution.extension := by
  unfold building
  dsimp only
  split
  · rw [registered_startBuild, registered_usePluginExtension, registered_setPending fitting]
  · rw [registered_usePluginExtension, registered_setPending fitting]

variable {extension : Extension} {key : Str}

theorem usePluginExtension_pendingContributions :
    (usePluginExtension registries key extension).1.pendingContributions =
      registries.pendingContributions := by
  unfold usePluginExtension
  dsimp only
  split_ifs <;> rfl

theorem usePluginExtension_builds :
    (usePluginExtension registries key extension).1.builds = registries.builds := by
  unfold usePluginExtension
  dsimp only
  split_ifs <;> rfl

theorem building_pendingContributions :
    (building registries id contribution).pendingContributions = registries.pendingContributions := by
  unfold building
  dsimp only
  split <;> exact usePluginExtension_pendingContributions

theorem registered_activateEditorContribution
    (fitting : ((Declared.editor contribution).made id).all (fits registries) = true) :
    Registered (activateEditorContribution registries id contribution).1 c ↔
      Registered registries c ∨ c ∈ (Declared.editor contribution).made id := by
  simp only [Declared.made, all_cons, Bool.and_eq_true] at fitting
  rw [activateEditorContribution_fst]
  cases isMarkdown : contribution.markdown with
  | none =>
    simp only [Declared.made, isMarkdown, Option.toList_none, map_nil, mem_singleton]
    exact registered_building fitting.1
  | some markdown =>
    have fitsThere : fits (building registries id contribution) (.markdown id markdown) = true := by
      simpa [fits, building_pendingContributions, isMarkdown] using fitting.2
    simp only [registered_contributeMarkdown fitsThere, registered_building fitting.1, Declared.made,
      isMarkdown, Option.toList_some, map_cons, map_nil, mem_cons, not_mem_nil,
      or_false, or_assoc]

theorem activateEditorContribution_builds :
    (activateEditorContribution registries id contribution).1.builds =
      registries.builds ++ contribution.nodeViews.toList.map fun nodeViews =>
        { pluginId := id, extension := nodeViews } := by
  have kept : (activateEditorContribution registries id contribution).1.builds =
      (building registries id contribution).builds := by
    rw [activateEditorContribution_fst]
    split <;> rfl
  rw [kept, building]
  split
  · rename_i nodeViews isSome
    rw [isSome, startBuild, usePluginExtension_builds]
    rfl
  · rename_i isNone
    rw [isNone, usePluginExtension_builds]
    simp

theorem tidy_usePluginExtension (tidy : Tidy registries) :
    Tidy (usePluginExtension registries key extension).1 := by
  unfold usePluginExtension
  dsimp only
  split_ifs
  · exact ⟨tidy.distinct, tidy.keymap⟩
  · exact ⟨tidy.distinct, tidy.keymap⟩

theorem tidy_activateEditorContribution (tidy : Tidy registries) :
    Tidy (activateEditorContribution registries id contribution).1 := by
  have built : Tidy (building registries id contribution) := by
    have used : Tidy (usePluginExtension registries id contribution.extension).1 :=
      tidy_usePluginExtension tidy
    unfold building
    dsimp only
    split
    · exact ⟨used.distinct, used.keymap⟩
    · exact used
  rw [activateEditorContribution_fst]
  split
  · exact ⟨built.distinct, built.keymap⟩
  · exact built

/-! ## What is declared -/

theorem registered_register (fitting : (declared.made id).all (fits registries) = true) :
    Registered (declared.register registries id).1 c ↔
      Registered registries c ∨ c ∈ declared.made id := by
  cases declared with
  | command cmd =>
    simp only [Declared.made, all_cons, all_nil, Bool.and_true] at fitting
    simpa [Declared.made, Declared.register] using registered_registerPluginCommand fitting
  | fill entry =>
    simp only [Declared.made, all_cons, all_nil, Bool.and_true] at fitting
    simpa [Declared.made, Declared.register] using registered_registerFill fitting
  | theme pack =>
    simp only [Declared.made, all_cons, all_nil, Bool.and_true] at fitting
    simpa [Declared.made, Declared.register] using registered_registerThemePack fitting
  | font pack =>
    simp only [Declared.made, all_cons, all_nil, Bool.and_true] at fitting
    simpa [Declared.made, Declared.register] using registered_registerFontPack fitting
  | editor contribution => exact registered_activateEditorContribution fitting

theorem tidy_registerPluginCommand {cmd : CommandContribution} (tidy : Tidy registries) :
    Tidy (registerPluginCommand registries id cmd).1 :=
  tidy_rebuildKeymap (Assoc.nodup_put tidy.distinct)

theorem tidy_register (tidy : Tidy registries) : Tidy (declared.register registries id).1 := by
  cases declared with
  | command cmd => exact tidy_registerPluginCommand tidy
  | editor contribution => exact tidy_activateEditorContribution tidy
  | _ => exact ⟨tidy.distinct, tidy.keymap⟩

variable {made : Contribution}

/-- A disposer takes away what was contributed with it, unless that is a command. -/
theorem removes_register (isMade : made ∈ declared.made id) (builds : List NodeViewBuild) :
    made.isCommand = true ∨ (declared.register registries id).2.removes builds made = true := by
  cases declared with
  | command cmd =>
    rw [mem_singleton.mp isMade]
    exact .inl rfl
  | editor contribution =>
    right
    rcases mem_cons.mp isMade with rfl | isMarkdown
    · simp [Declared.register, activateEditorContribution, Disposer.removes,
        Contribution.extensionKey]
    · obtain ⟨markdown, isSome, rfl⟩ := mem_map.mp isMarkdown
      simp [Declared.register, activateEditorContribution, Disposer.removes,
        Contribution.extensionKey, Contribution.markdownOf, Option.mem_toList.mp isSome]
  | _ =>
    rw [mem_singleton.mp isMade]
    simp [Declared.register, registerFill, registerThemePack, registerFontPack, Disposer.removes]

theorem builds_register : Extends registries.builds (declared.register registries id).1.builds ∧
    Held registries.builds (declared.register registries id).1.builds id
      [(declared.register registries id).2] := by
  cases declared with
  | editor contribution =>
    refine ⟨⟨?_⟩, ?_⟩
    · intro index cell held
      rw [Declared.register, activateEditorContribution_builds,
        getElem?_append_left (List.getElem?_eq_some_iff.mp held).1, held]
    · intro index cell isCell
      rw [Declared.register, activateEditorContribution_builds, getElem?_append] at isCell
      split_ifs at isCell with inside
      · exact .inl isCell
      · right
        cases isSome : contribution.nodeViews with
        | none => simp [isSome] at isCell
        | some nodeViews =>
          simp only [isSome, Option.toList_some, map_cons, map_nil,
            getElem?_singleton, Option.ite_none_right_eq_some] at isCell
          obtain ⟨isEnd, ⟨⟩⟩ := isCell
          have isIndex : registries.builds.length = index := by omega
          refine ⟨rfl, registries.activeEditor, contribution.markdown.isSome, ?_⟩
          simp [Declared.register, activateEditorContribution, isSome, isIndex]
  | _ => exact ⟨.refl _, fun _ _ isCell => .inl isCell⟩

theorem Held.append {builds middle more : List NodeViewBuild} {first others : List Disposer}
    (left : Held builds middle id first) (right : Held middle more id others) :
    Held builds more id (first ++ others) := by
  intro index cell isCell
  rcases right index cell isCell with earlier | ⟨isIt, live, markdown, among⟩
  · rcases left index cell earlier with first | ⟨isIt, live, markdown, among⟩
    · exact .inl first
    · exact .inr ⟨isIt, live, markdown, mem_append_left _ among⟩
  · exact .inr ⟨isIt, live, markdown, mem_append_right _ among⟩

variable {all : List Declared}

/-- **What a plugin declares is registered**, in whatever order it stands. -/
theorem registered_registerAll (fitting : fitAll registries id all = true) :
    Registered (registerAll registries id all).1 c ↔
      Registered registries c ∨ c ∈ all.flatMap (Declared.made id) := by
  induction all generalizing registries with
  | nil => simp [registerAll]
  | cons declared rest ih =>
    simp only [fitAll, Bool.and_eq_true] at fitting
    rw [registerAll, ih fitting.2, registered_register fitting.1, flatMap_cons, mem_append,
      or_assoc]

/-- A disposer of an editor contribution comes with its extension. -/
theorem extension_of_held {live markdown : Bool} {index : Option Nat}
    (among : .editor id live index markdown ∈ (registerAll registries id all).2) :
    ∃ extension, .extension id extension ∈ all.flatMap (Declared.made id) := by
  induction all generalizing registries with
  | nil => cases among
  | cons declared rest ih =>
    simp only [flatMap_cons, mem_append]
    rcases mem_cons.mp among with isFirst | later
    · cases declared with
      | editor contribution => exact ⟨contribution.extension, .inl mem_cons_self⟩
      | _ => cases isFirst
    · obtain ⟨extension, isMade⟩ := ih later
      exact ⟨extension, .inr isMade⟩

theorem tidy_registerAll (tidy : Tidy registries) : Tidy (registerAll registries id all).1 := by
  induction all generalizing registries with
  | nil => exact tidy
  | cons declared rest ih => exact ih (tidy_register tidy)

theorem removes_registerAll (isMade : made ∈ all.flatMap (Declared.made id))
    (builds : List NodeViewBuild) :
    made.isCommand = true ∨ removesAny builds (registerAll registries id all).2 made = true := by
  induction all generalizing registries with
  | nil => simp at isMade
  | cons declared rest ih =>
    rw [flatMap_cons, mem_append] at isMade
    simp only [registerAll, removesAny, any_cons, Bool.or_eq_true]
    rcases isMade with isFirst | later
    · exact (removes_register isFirst builds).imp_right .inl
    · exact (ih later).imp_right .inr

theorem builds_registerAll :
    Extends registries.builds (registerAll registries id all).1.builds ∧
      Held registries.builds (registerAll registries id all).1.builds id
        (registerAll registries id all).2 := by
  induction all generalizing registries with
  | nil => exact ⟨.refl _, fun _ _ isCell => .inl isCell⟩
  | cons declared rest ih =>
    obtain ⟨extends_, held⟩ := builds_register
    exact ⟨extends_.trans ih.1, held.append ih.2⟩

/-! ## What is registered through a context -/

def ContextCall.isSetKey : ContextCall → Bool
  | .setKey .. => true
  | _ => false

variable {call : ContextCall}

theorem registered_perform (isOther : call.isSetKey = false)
    (fitting : (call.record id []).all (fits registries) = true) :
    Registered (call.perform registries id).1 c ↔ Registered registries c ∨ c ∈ call.record id [] := by
  cases call with
  | registerCommand cmd =>
    simp only [ContextCall.record, all_cons, all_nil, Bool.and_true] at fitting
    simpa [ContextCall.record, ContextCall.perform] using registered_registerPluginCommand fitting
  | useExtension extension =>
    simp only [ContextCall.record, all_cons, all_nil, Bool.and_true] at fitting
    simp only [ContextCall.record, ContextCall.perform, mem_singleton]
    rw [registered_usePluginExtension, registered_setPending fitting]
  | onEvent event handler => simpa [ContextCall.record, ContextCall.perform] using registered_onEvent
  | registerService name held =>
    simp only [ContextCall.record, all_cons, all_nil, Bool.and_true] at fitting
    simpa [ContextCall.record, ContextCall.perform] using registered_registerService fitting
  | setKey key value => cases isOther

theorem record_other (isOther : call.isSetKey = false) (made : List Contribution) :
    call.record id made = call.record id [] ++ made := by
  cases call with
  | setKey key value => cases isOther
  | _ => rfl

theorem mem_record_setKey {value : Option ContextValue} {made : List Contribution} :
    c ∈ (ContextCall.setKey key value).record id made ↔
      (c ∈ made ∧ c ≠ .contextKey (qualified id key)) ∨
        (value.isSome ∧ c = .contextKey (qualified id key)) := by
  cases value <;> simp [ContextCall.record, or_comm]

theorem tidy_perform (tidy : Tidy registries) : Tidy (call.perform registries id).1 := by
  cases call with
  | registerCommand cmd => exact tidy_registerPluginCommand tidy
  | useExtension extension => exact tidy_usePluginExtension tidy
  | _ => exact ⟨tidy.distinct, tidy.keymap⟩

theorem builds_perform : (call.perform registries id).1.builds = registries.builds := by
  cases call with
  | useExtension extension => exact usePluginExtension_builds
  | _ => rfl

theorem sweeps_qualified : sweeps id (.contextKey (qualified id key)) = true := by
  simp [sweeps, qualified]

/-- What is contributed through a context is taken away by its disposer or by its name, unless
it is a command. -/
theorem removes_perform (isMade : made ∈ call.record id []) (registries : Registries)
    (builds : List NodeViewBuild) :
    made.isCommand = true ∨ (made.isContextKey = true ∧ sweeps id made = true) ∨
      removesAny builds (call.perform registries id).2 made = true := by
  cases call with
  | registerCommand cmd =>
    rw [mem_singleton.mp isMade]
    exact .inl rfl
  | useExtension extension =>
    rw [mem_singleton.mp isMade]
    right; right
    unfold ContextCall.perform usePluginExtension
    dsimp only
    split_ifs <;> simp [removesAny, Disposer.removes, Contribution.extensionKey]
  | onEvent event handler =>
    rw [mem_singleton.mp isMade]
    right; right
    simp [ContextCall.perform, onEvent, removesAny, Disposer.removes]
  | registerService name held =>
    rw [mem_singleton.mp isMade]
    right; right
    simp [ContextCall.perform, registerService, removesAny, Disposer.removes]
  | setKey key value =>
    obtain ⟨-, rfl⟩ := (mem_record_setKey.mp isMade).resolve_left fun isThere => by cases isThere.1
    exact .inr (.inl ⟨rfl, sweeps_qualified⟩)

end

end Kuku.Plugins
