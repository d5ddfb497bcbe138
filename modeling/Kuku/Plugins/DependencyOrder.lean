/-
# Plugins.DependencyOrder -- the order in which the bootstrap starts the plugins

`validateAndTopologicalSort` walks the dependencies depth first, with the ids it is inside of on
a stack, and lists an id after the walk of its dependencies.

`sorts_plugins`: on every graph the walk ends and lists every registered id once.  It reports no
error exactly when every dependency is registered and no plugin leads back to itself, and then
every plugin is listed after its dependencies.
-/
import Kuku.Plugins.Lifecycle

namespace Kuku.Plugins

open Kuku.Theory List

/-- `pluginInstances`, in the order of insertion. -/
structure PluginMap where
  entries : Assoc Str KukuPlugin
  nodup : (entries.map Prod.fst).Nodup

structure ValidationResult where
  order : List Str
  errors : List Str

def missingDependency (id dep : Str) : Str :=
  "Plugin ".toList ++ quote id ++ ": missing dependency ".toList ++ quote dep

def circularDependency (stack : List Str) (id : Str) : Str :=
  "Circular dependency: ".toList ++ intercalate " → ".toList stack ++ " → ".toList ++ id

namespace PluginMap

variable (map : PluginMap)

def ids : List Str := map.entries.map Prod.fst

def dependencies (id : Str) : List Str := ((map.entries.get id).map (·.dependencies)).getD []

def missing : List Str := map.ids.flatMap fun id =>
  ((map.dependencies id).filter (· ∉ map.ids)).map (missingDependency id)

/-- The dependencies that the walk goes into. -/
def registered (id : Str) : List Str := (map.dependencies id).filter (· ∈ map.ids)

/-- With calls nested at most so deep.  `visited` is the set of the ids in `order`. -/
def dfs : Nat → List Str → ValidationResult → Str → Option ValidationResult
  | 0, _, _, _ => none
  | calls + 1, stack, found, id =>
    if id ∈ stack then some { found with errors := found.errors ++ [circularDependency stack id] }
    else if id ∈ found.order then some found
    else do
      let found ← (map.registered id).foldlM (dfs calls (stack ++ [id])) found
      return { found with order := found.order ++ [id] }

def validateAndTopologicalSort : Option ValidationResult :=
  map.ids.foldlM (map.dfs (map.ids.length + 1) []) ⟨[], map.missing⟩

def Leads : Str → Str → Prop := Relation.TransGen fun id dep => dep ∈ map.registered id

def Ordered (order : List Str) : Prop :=
  ∀ id ∈ order, ∀ dep ∈ map.registered id, order.idxOf dep < order.idxOf id

structure Good (stack : List Str) (found : ValidationResult) : Prop where
  nodup : found.order.Nodup
  known : ∀ id ∈ found.order, id ∈ map.ids ∧ id ∉ stack
  ordered : found.errors = [] → map.Ordered found.order

/-- What the walk of some ids does. -/
structure Walks (stack todo : List Str) (found found' : ValidationResult) : Prop where
  good : map.Good stack found'
  grows : ∀ id ∈ found.order, id ∈ found'.order
  covers : ∀ id ∈ todo, id ∈ found'.order ∨ id ∈ stack
  clean : found'.errors = [] → found.errors = [] ∧ ∀ id ∈ todo, id ∈ found'.order
  acyclic : (∀ id ∈ map.ids, ¬ map.Leads id id) →
    (∀ below ∈ stack, ∀ id ∈ todo, map.Leads below id) → found.errors = [] → found'.errors = []

variable {map} {stack todo order : List Str} {found : ValidationResult} {plugin : Str}

theorem Ordered.concat (ordered : map.Ordered order) (fresh : plugin ∉ order)
    (before : ∀ dep ∈ map.registered plugin, dep ∈ order) :
    map.Ordered (order ++ [plugin]) := by
  intro id among dep isDep
  have bound : ∀ {other}, order.idxOf other < order.length ↔ other ∈ order := idxOf_lt_length_iff
  by_cases earlier : id ∈ order
  · have lt := ordered id earlier dep isDep
    rwa [idxOf_append_of_mem (bound.mp (lt.trans (bound.mpr earlier))), idxOf_append_of_mem earlier]
  · obtain rfl : id = plugin := by simpa [earlier] using among
    have lt := bound.mpr (before dep isDep)
    rw [idxOf_append_of_mem (before dep isDep), idxOf_append_of_notMem fresh]
    omega

theorem foldlM_walks {visit : ValidationResult → Str → Option ValidationResult}
    (visits : ∀ id ∈ todo, ∀ found, map.Good stack found →
      ∃ found', visit found id = some found' ∧ map.Walks stack [id] found found')
    (good : map.Good stack found) :
    ∃ found', todo.foldlM visit found = some found' ∧ map.Walks stack todo found found' := by
  induction todo generalizing found with
  | nil => exact ⟨found, rfl, good, by simp, by simp, by simp, fun _ _ => id⟩
  | cons id rest ih =>
    rw [forall_mem_cons] at visits
    obtain ⟨middle, isMiddle, first⟩ := visits.1 found good
    obtain ⟨last, isLast, walked⟩ := ih visits.2 first.good
    refine ⟨last, by simp [isMiddle, isLast], walked.good, ?_, ?_, ?_, ?_⟩
    · exact fun other among => walked.grows other (first.grows other among)
    · grind [first.covers, walked.covers, walked.grows]
    · grind [first.clean, walked.clean, walked.grows]
    · intro noCycle leads clean
      refine walked.acyclic noCycle ?_ (first.acyclic noCycle ?_ clean) <;> grind

/-- The ids on the stack are registered, so the stack is never longer than the list of the ids. -/
theorem dfs_walks {calls : Nat} (nodup : stack.Nodup) (within : ∀ id ∈ stack, id ∈ map.ids)
    (enough : map.ids.length < calls + stack.length) (isPlugin : plugin ∈ map.ids)
    (good : map.Good stack found) :
    ∃ found', map.dfs calls stack found plugin = some found' ∧
      map.Walks stack [plugin] found found' := by
  induction calls generalizing stack found plugin with
  | zero =>
    have short := (nodup.subperm within).length_le
    omega
  | succ calls ih =>
    rw [dfs]
    split_ifs with inside done
    · refine ⟨_, rfl, ⟨good.nodup, good.known, by simp⟩, by simp, by simp [inside], by simp, ?_⟩
      exact fun noCycle leads =>
        absurd (leads plugin inside plugin mem_cons_self) (noCycle plugin isPlugin)
    · exact ⟨found, rfl, good, by simp, by simp [done], by simp [done], fun _ _ => id⟩
    · have deeper : map.Good (stack ++ [plugin]) found :=
        ⟨good.nodup, by grind [good.known], good.ordered⟩
      have nodup' : (stack ++ [plugin]).Nodup := by grind
      obtain ⟨last, isLast, walked⟩ := @foldlM_walks map _ (map.registered plugin) _ _
        (fun dep isDep found good => ih nodup' (by grind) (by simp; omega)
          (of_decide_eq_true (mem_filter.mp isDep).2) good) deeper
      have fresh : plugin ∉ last.order := fun among => (walked.good.known plugin among).2 (by simp)
      refine ⟨{ last with order := last.order ++ [plugin] }, by simp [isLast],
        ⟨?_, ?_, ?_⟩, ?_, by simp, ?_, ?_⟩
      · grind [walked.good.nodup]
      · grind [walked.good.known]
      · exact fun clean => (walked.good.ordered clean).concat fresh (walked.clean clean).2
      · grind [walked.grows]
      · exact fun clean => ⟨(walked.clean clean).1, by simp⟩
      · intro noCycle leads
        refine walked.acyclic noCycle fun below among dep isDep => ?_
        by_cases onStack : below ∈ stack
        · exact (leads below onStack plugin mem_cons_self).tail isDep
        · obtain rfl : below = plugin := by simpa [onStack] using among
          exact .single isDep

theorem Ordered.not_leads (ordered : map.Ordered order) (isPlugin : plugin ∈ order) :
    ¬ map.Leads plugin plugin := by
  have before : ∀ {id}, map.Leads plugin id → order.idxOf id < order.idxOf plugin := by
    intro id leads
    induction leads with
    | single isDep => exact ordered plugin isPlugin _ isDep
    | tail _ isDep ih =>
      have among := idxOf_lt_length_iff.mp (ih.trans (idxOf_lt_length_iff.mpr isPlugin))
      exact (ordered _ among _ isDep).trans ih
  exact fun leads => lt_irrefl _ (before leads)

/-- **Plugins are listed after their dependencies.** -/
theorem sorts_plugins (map : PluginMap) :
    ∃ result, map.validateAndTopologicalSort = some result ∧ result.order.Perm map.ids ∧
      (result.errors = [] ↔ (∀ id ∈ map.ids, ∀ dep ∈ map.dependencies id,
        dep ∈ map.ids) ∧ ∀ id ∈ map.ids, ¬ map.Leads id id) ∧
      (result.errors = [] → ∀ id ∈ map.ids, ∀ dep ∈ map.dependencies id,
        result.order.idxOf dep < result.order.idxOf id) := by
  have start : map.Good [] ⟨[], map.missing⟩ := ⟨nodup_nil, by simp, fun _ => by simp [Ordered]⟩
  obtain ⟨result, isResult, walked⟩ := @foldlM_walks map [] map.ids _ (map.dfs _ [])
    (fun id isPlugin found good => dfs_walks nodup_nil (by simp) (Nat.lt_succ_self _) isPlugin good)
    start
  have perm : result.order.Perm map.ids := by
    refine (perm_ext_iff_of_nodup walked.good.nodup map.nodup).mpr fun id => ?_
    exact ⟨fun among => (walked.good.known id among).1,
      fun among => (walked.covers id among).resolve_right not_mem_nil⟩
  have noneMissing : map.missing = [] ↔
      ∀ id ∈ map.ids, ∀ dep ∈ map.dependencies id, dep ∈ map.ids := by
    simp [missing]
  refine ⟨result, isResult, perm,
    ⟨fun clean => ⟨noneMissing.mp (walked.clean clean).1, ?_⟩, ?_⟩, ?_⟩
  · exact fun id among => (walked.good.ordered clean).not_leads (perm.mem_iff.mpr among)
  · exact fun fine => walked.acyclic fine.2 (by simp) (noneMissing.mpr fine.1)
  · intro clean id among dep isDep
    refine walked.good.ordered clean id (perm.mem_iff.mpr among) dep (mem_filter.mpr ⟨isDep, ?_⟩)
    exact decide_eq_true (noneMissing.mp (walked.clean clean).1 id among dep isDep)

end PluginMap

end Kuku.Plugins
