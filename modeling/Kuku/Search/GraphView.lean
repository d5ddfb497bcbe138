/-
# Search.GraphView -- the graph of the notes, and what a filter leaves of it

The snapshot gives every note the set of its neighbours, whichever of the two has the link; the
filter of the view pushes one entry for every link and end.  What it keeps is the part of the
graph between the notes it accepts (`filter_restricts`), but two notes that link to each other
are each other's neighbours twice (`counts_mutual_twice`).
-/
import Kuku.Search.Db

namespace Kuku.Search.GraphView

open Kuku.Theory List Function Table

/-! ## The snapshot of the index -/

def folderLabel (path : DocId) : List Char :=
  if '/' ∈ path then ['/'].intercalate (path.splitOn '/').dropLast else "Root".toList

def docDisplayName (path : DocId) : List Char :=
  stripMarkdownExtension (basenameFromNormalized path)

structure GraphNode where
  id : DocId
  name : List Char
  filePath : DocId
  folder : List Char
  clusterIndex : Nat
  linkCount : Nat
  isOrphan : Bool
  deriving DecidableEq

structure GraphLink where
  source : DocId
  target : DocId
  deriving DecidableEq

structure GraphSnapshot where
  nodes : List GraphNode
  links : List GraphLink
  adjacencyMap : DocId → Option (List DocId)
  unresolvedCount : Nat
  ambiguousCount : Nat

/-- `links` is the set `link_keys`: the vector beside it is sorted in the end. -/
structure Collected where
  adjacency : DocId → List DocId := fun _ => []
  links : List GraphLink := []
  unresolvedCount : Nat := 0
  ambiguousCount : Nat := 0

def connect (adjacency : DocId → List DocId) (a b : DocId) : DocId → List DocId :=
  Function.update adjacency a ((adjacency a).insert b)

def collect (docByUid : Nat → Option DocId) (s : Collected) (row : WikilinkRefRow) : Collected :=
  if row.resolutionKind = .ambiguous then { s with ambiguousCount := s.ambiguousCount + 1 }
  else match row.resolvedTargetUid with
    | none => { s with unresolvedCount := s.unresolvedCount + 1 }
    | some targetUid =>
      match docByUid targetUid with
      | none => s
      | some target =>
        if row.sourceDocId = target then s
        else { s with
          links := s.links.insert ⟨row.sourceDocId, target⟩
          adjacency := connect (connect s.adjacency row.sourceDocId target) target row.sourceDocId }

def loadWikilinkRows (db : Db) : List WikilinkRefRow :=
  sorted (fun row => toLex (row.sourceDocId, row.link.ordinal)) db.wikilinkRefs

/-- A `doc_id` is unique, so taking a note's neighbours out of the map takes them from no other. -/
def getGraphSnapshot (lowercase : List Char → List Char) : Option Db → GraphSnapshot
  | none => ⟨[], [], fun _ => none, 0, 0⟩
  | some db =>
    let docs := db.loadDocIdentities lowercase
    let docByUid := fun uid =>
      (docs.filter fun doc => doc.noteUid = uid).getLast?.map DocIdentity.docId
    let collected := (loadWikilinkRows db).foldl (collect docByUid) {}
    let folders := (sorted id (docs.map fun doc => folderLabel doc.docId)).destutter (· ≠ ·)
    { nodes := sorted GraphNode.filePath (docs.map fun doc =>
        let folder := folderLabel doc.docId
        let neighbours := (collected.adjacency doc.docId).length
        ⟨doc.docId, docDisplayName doc.docId, doc.docId, folder, (folders.idxOf? folder).getD 0,
          neighbours, decide (neighbours = 0)⟩)
      links := sorted (fun link => toLex (link.source, link.target)) collected.links
      adjacencyMap := fun path =>
        if path ∈ docs.map DocIdentity.docId then some (sorted id (collected.adjacency path))
        else none
      unresolvedCount := collected.unresolvedCount
      ambiguousCount := collected.ambiguousCount }

/-! ## The view -/

structure SearchStatus where
  isIndexing : Bool
  lastIndexedAt : Option Nat
  error : Option (List Char)

structure GraphState extends SearchStatus where
  nodes : List GraphNode
  links : List GraphLink
  adjacencyMap : DocId → Option (List DocId)
  clusters : List (List Char)

-- `sort` on an array of strings, by their UTF-16 code units
variable (sort : List (List Char) → List (List Char))

def buildGraphData (snapshot : GraphSnapshot) (status : SearchStatus) : GraphState :=
  ⟨status, snapshot.nodes, snapshot.links, snapshot.adjacencyMap,
    sort (snapshot.nodes.map GraphNode.folder).eraseDups⟩

/-- `adjacencyMap[path]?.push(value)`. -/
def push (map : DocId → Option (List DocId)) (path value : DocId) : DocId → Option (List DocId) :=
  Function.update map path ((map path).map (· ++ [value]))

def isBetween (paths : List DocId) (link : GraphLink) : Bool :=
  decide (link.source ∈ paths) && decide (link.target ∈ paths)

def recount (adjacencyMap : DocId → Option (List DocId)) (clusters : List (List Char))
    (preserveClusterIndices : Bool) (node : GraphNode) : GraphNode :=
  let linkCount := ((adjacencyMap node.filePath).map List.length).getD 0
  { node with
    clusterIndex :=
      if preserveClusterIndices then node.clusterIndex
      else (clusters.idxOf? node.folder).getD 0
    linkCount
    isOrphan := decide (linkCount = 0) }

def filterGraphState (state : GraphState) (nodeFilter : Option (GraphNode → Bool))
    (preserveClusterIndices : Bool) : GraphState :=
  match nodeFilter with
  | none => state
  | some nodeFilter =>
    let sourceNodes := state.nodes.filter nodeFilter
    let includedPaths := sourceNodes.map GraphNode.filePath
    let links := state.links.filter (isBetween includedPaths)
    let empty := includedPaths.foldl (fun map path => Function.update map path (some []))
      fun _ => none
    let adjacencyMap := links.foldl
      (fun map link => push (push map link.source link.target) link.target link.source) empty
    let clusters := if preserveClusterIndices then state.clusters
      else sort (sourceNodes.map GraphNode.folder).eraseDups
    { state with
      nodes := sourceNodes.map (recount adjacencyMap clusters preserveClusterIndices)
      links, adjacencyMap, clusters }

/-! ## Neighbours -/

section Neighbours

variable {adjacency : DocId → List DocId} {links : List GraphLink} {a b path other : DocId}
  {docByUid : Nat → Option DocId} {map : DocId → Option (List DocId)}

theorem mem_connect : other ∈ connect adjacency a b path ↔
    other ∈ adjacency path ∨ (path = a ∧ other = b) := by
  unfold connect Function.update
  split_ifs with isIt
  · subst isIt
    simp [or_comm]
  · simp [isIt]

theorem nodup_connect (distinct : ∀ path, (adjacency path).Nodup) :
    (connect adjacency a b path).Nodup := by
  unfold connect Function.update
  split_ifs with isIt
  · subst isIt
    exact (distinct _).insert
  · exact distinct path

/-- The two are linked, one way or the other. -/
def Joins (links : List GraphLink) (path other : DocId) : Prop :=
  ⟨path, other⟩ ∈ links ∨ ⟨other, path⟩ ∈ links

structure Collected.Linked (s : Collected) : Prop where
  neighbours : ∀ path other, other ∈ s.adjacency path ↔ Joins s.links path other
  distinct : ∀ path, (s.adjacency path).Nodup
  once : s.links.Nodup
  noLoop : ∀ link ∈ s.links, link.source ≠ link.target

theorem Collected.Linked.collect {s : Collected} (linked : s.Linked) (row : WikilinkRefRow) :
    (collect docByUid s row).Linked := by
  unfold GraphView.collect
  split_ifs with isAmbiguous
  · exact { linked with }
  · split
    · exact { linked with }
    · split
      · exact linked
      · split_ifs with isLoop
        · exact linked
        · constructor
          · intro path other
            simp only [mem_connect, linked.neighbours, Joins, mem_insert_iff, GraphLink.mk.injEq]
            grind
          · exact fun path => nodup_connect fun _ => nodup_connect linked.distinct
          · exact linked.once.insert
          · simp only [mem_insert_iff, forall_eq_or_imp]
            exact ⟨isLoop, linked.noLoop⟩

/-- What the filter pushes for one link to the neighbours of a note. -/
def ends (path : DocId) (link : GraphLink) : List DocId :=
  (if link.source = path then [link.target] else []) ++
    if link.target = path then [link.source] else []

theorem foldl_push : links.foldl
    (fun map link => push (push map link.source link.target) link.target link.source) map path =
      (map path).map (· ++ links.flatMap (ends path)) := by
  induction links generalizing map with
  | nil => simp
  | cons link links ih =>
    rw [foldl_cons, ih, flatMap_cons]
    simp only [push, ends, update_apply]
    cases isPath : map path <;> grind

theorem foldl_empty {paths : List DocId} :
    paths.foldl (fun map path => Function.update map path (some [])) map path =
      if path ∈ paths then some [] else map path := by
  induction paths generalizing map with
  | nil => simp
  | cons first paths ih =>
    rw [foldl_cons, ih, update_apply]
    simp only [mem_cons]
    split_ifs <;> simp_all

theorem mem_ends : other ∈ links.flatMap (ends path) ↔ Joins links path other := by
  simp only [mem_flatMap, ends, mem_append, Joins]
  constructor
  · rintro ⟨⟨source, target⟩, among, isEnd⟩
    split_ifs at isEnd <;> simp_all
  · rintro (among | among)
    · exact ⟨_, among, by simp⟩
    · exact ⟨_, among, by simp⟩

theorem nodup_ends (once : links.Nodup) (noLoop : ∀ link ∈ links, link.source ≠ link.target)
    (oneWay : ∀ link ∈ links, ⟨link.target, link.source⟩ ∉ links) :
    (links.flatMap (ends path)).Nodup := by
  rw [nodup_flatMap]
  constructor
  · intro link among
    have isNot := noLoop link among
    unfold ends
    split_ifs <;> simp_all
  · refine once.imp_of_mem ?_
    rintro ⟨a, b⟩ ⟨c, d⟩ isFirst isSecond differs other isOne isTwo
    have noBack := oneWay _ isFirst
    simp only [ends, mem_append] at isOne isTwo
    split_ifs at isOne isTwo <;> simp_all

end Neighbours

/-! ## The filter on the state of a snapshot -/

structure GraphState.Linked (state : GraphState) : Prop where
  neighbours : ∀ node ∈ state.nodes, ∃ neighbours,
    state.adjacencyMap node.filePath = some neighbours ∧ neighbours.Nodup ∧
      node.linkCount = neighbours.length ∧ node.isOrphan = decide (neighbours.length = 0) ∧
      ∀ other, other ∈ neighbours ↔ Joins state.links node.filePath other
  once : state.links.Nodup
  noLoop : ∀ link ∈ state.links, link.source ≠ link.target

def GraphState.HasNode (state : GraphState) (path : DocId) : Prop :=
  ∃ node ∈ state.nodes, node.filePath = path

/-- The filter keeps the accepted nodes and what is between them. -/
structure Restricts (state kept : GraphState) (keep : GraphNode → Bool) : Prop where
  nodes : kept.nodes.map (fun node => (node.id, node.name, node.filePath, node.folder)) =
    (state.nodes.filter keep).map fun node => (node.id, node.name, node.filePath, node.folder)
  links : ∀ link, link ∈ kept.links ↔
    link ∈ state.links ∧ kept.HasNode link.source ∧ kept.HasNode link.target
  adjacency : ∀ node ∈ kept.nodes, ∃ was neighbours,
    state.adjacencyMap node.filePath = some was ∧
      kept.adjacencyMap node.filePath = some neighbours ∧
      (∀ other, other ∈ neighbours ↔ other ∈ was ∧ kept.HasNode other) ∧
      node.linkCount = neighbours.length ∧ (node.isOrphan = true ↔ neighbours = [])

/-- No two accepted nodes link to each other. -/
def GraphState.OneWay (state : GraphState) (keep : GraphNode → Bool) : Prop :=
  ∀ a ∈ state.nodes, ∀ b ∈ state.nodes, keep a = true → keep b = true →
    ⟨a.filePath, b.filePath⟩ ∈ state.links → ⟨b.filePath, a.filePath⟩ ∉ state.links

/-- No adjacency and no count has changed. -/
structure Unchanged (state kept : GraphState) : Prop where
  counts : kept.nodes.map (fun node => (node.filePath, node.linkCount, node.isOrphan)) =
    state.nodes.map fun node => (node.filePath, node.linkCount, node.isOrphan)
  adjacency : ∀ node ∈ state.nodes, ∃ was neighbours,
    state.adjacencyMap node.filePath = some was ∧
      kept.adjacencyMap node.filePath = some neighbours ∧ neighbours.Perm was

/-- The filter does not look at what a filter counts anew. -/
def IgnoresCounts (keep : GraphNode → Bool) : Prop :=
  ∀ node clusterIndex linkCount isOrphan,
    keep { node with clusterIndex, linkCount, isOrphan } = keep node

section Filter

variable {sort : List (List Char) → List (List Char)} {state : GraphState}
  {keep again : GraphNode → Bool} {preserve : Bool} {path : DocId} {node : GraphNode}

theorem linked_snapshot (lowercase : List Char → List Char) (runtime : Option Db)
    (status : SearchStatus) :
    (buildGraphData sort (getGraphSnapshot lowercase runtime) status).Linked := by
  cases runtime with
  | none => exact ⟨nofun, nodup_nil, nofun⟩
  | some db =>
    have linked : ∀ docByUid (rows : List WikilinkRefRow) s, Collected.Linked s →
        (rows.foldl (collect docByUid) s).Linked := by
      intro docByUid rows
      induction rows with
      | nil => exact fun _ linked => linked
      | cons row rows ih => exact fun s linked => ih _ (linked.collect row)
    have collected := linked (fun uid => ((db.loadDocIdentities lowercase).filter fun doc =>
      doc.noteUid = uid).getLast?.map DocIdentity.docId) (loadWikilinkRows db) {}
      ⟨by simp [Joins], fun _ => nodup_nil, nodup_nil, nofun⟩
    constructor
    · intro node among
      simp only [buildGraphData, getGraphSnapshot, mem_sorted, mem_map] at among ⊢
      obtain ⟨doc, isDoc, rfl⟩ := among
      rw [if_pos ⟨doc, isDoc, rfl⟩]
      refine ⟨_, rfl, ?_, ?_, ?_, ?_⟩
      · exact (perm_insertionSort _ _).nodup_iff.mpr (collected.distinct _)
      · exact (perm_insertionSort _ _).length_eq.symm
      · simp [sorted]
      · intro other
        rw [mem_sorted, collected.neighbours]
        simp [Joins]
    · exact (perm_insertionSort _ _).nodup_iff.mpr collected.once
    · simpa [buildGraphData, getGraphSnapshot] using collected.noLoop

variable {kept : GraphState} (isKept : filterGraphState sort state (some keep) preserve = kept)

include isKept

theorem hasNode_iff :
    kept.HasNode path ↔ ∃ node ∈ state.nodes, keep node = true ∧ node.filePath = path := by
  subst isKept
  simp [GraphState.HasNode, filterGraphState, recount, and_assoc]

theorem mem_filtered {link : GraphLink} : link ∈ kept.links ↔
    link ∈ state.links ∧ kept.HasNode link.source ∧ kept.HasNode link.target := by
  rw [hasNode_iff isKept, hasNode_iff isKept]
  subst isKept
  simp [filterGraphState, isBetween, and_assoc]

theorem filtered_adjacency (isNode : kept.HasNode path) :
    kept.adjacencyMap path = some (kept.links.flatMap (ends path)) := by
  rw [hasNode_iff isKept] at isNode
  subst isKept
  refine foldl_push.trans ?_
  rw [foldl_empty, if_pos (by simpa [and_assoc] using isNode)]
  rfl

theorem filtered_nodes : kept.nodes =
    (state.nodes.filter keep).map (recount kept.adjacencyMap kept.clusters preserve) := by
  subst isKept
  rfl

theorem filtered_counts (among : node ∈ kept.nodes) :
    node.linkCount = (kept.links.flatMap (ends node.filePath)).length ∧
      node.isOrphan = decide (node.linkCount = 0) := by
  have isNow := filtered_adjacency isKept ⟨node, among, rfl⟩
  rw [filtered_nodes isKept] at among
  obtain ⟨was, -, rfl⟩ := List.mem_map.mp among
  refine ⟨?_, rfl⟩
  change ((kept.adjacencyMap was.filePath).map List.length).getD 0 = _
  exact congrArg (fun found : Option (List DocId) => (found.map List.length).getD 0) isNow

theorem joins_filtered (isNode : kept.HasNode path) {other : DocId} :
    Joins kept.links path other ↔ Joins state.links path other ∧ kept.HasNode other := by
  simp only [Joins, mem_filtered isKept]
  tauto

theorem restricts (linked : state.Linked) : Restricts state kept keep := by
  refine ⟨by subst isKept; simp [filterGraphState, recount], fun _ => mem_filtered isKept, ?_⟩
  intro node among
  have isNode : kept.HasNode node.filePath := ⟨node, among, rfl⟩
  obtain ⟨before, isBefore, -, isPath⟩ := (hasNode_iff isKept).mp isNode
  obtain ⟨was, isWas, -, -, -, mem_was⟩ := linked.neighbours before isBefore
  rw [isPath] at isWas mem_was
  obtain ⟨isCount, isOrphan⟩ := filtered_counts isKept among
  refine ⟨was, _, isWas, filtered_adjacency isKept isNode, ?_, isCount, ?_⟩
  · intro other
    rw [mem_ends, mem_was, joins_filtered isKept isNode]
  · rw [isOrphan, isCount, decide_eq_true_iff, length_eq_zero_iff]

theorem nodup_filtered (linked : state.Linked) (oneWay : state.OneWay keep) :
    (kept.links.flatMap (ends path)).Nodup := by
  refine nodup_ends ?_ (fun link among => linked.noLoop link ((mem_filtered isKept).mp among).1) ?_
  · subst isKept
    exact linked.once.filter _
  · intro link among isBack
    obtain ⟨isLink, source, target⟩ := (mem_filtered isKept).mp among
    obtain ⟨a, isA, keepsA, isSource⟩ := (hasNode_iff isKept).mp source
    obtain ⟨b, isB, keepsB, isTarget⟩ := (hasNode_iff isKept).mp target
    refine oneWay a isA b isB keepsA keepsB ?_ ?_
    · rwa [isSource, isTarget]
    · rw [isSource, isTarget]
      exact ((mem_filtered isKept).mp isBack).1

omit isKept

theorem unchanged (isAll : filterGraphState sort state (some fun _ => true) preserve = kept)
    (linked : state.Linked) (oneWay : state.OneWay fun _ => true)
    (joined : ∀ link ∈ state.links, state.HasNode link.source ∧ state.HasNode link.target) :
    Unchanged state kept := by
  have perm : ∀ node ∈ state.nodes, ∃ was neighbours, state.adjacencyMap node.filePath = some was ∧
      kept.adjacencyMap node.filePath = some neighbours ∧ neighbours.Perm was := by
    intro node among
    obtain ⟨was, isWas, once, -, -, mem_was⟩ := linked.neighbours node among
    have isNode := (hasNode_iff isAll).mpr ⟨node, among, rfl, rfl⟩
    refine ⟨was, _, isWas, filtered_adjacency isAll isNode, ?_⟩
    refine (perm_ext_iff_of_nodup (nodup_filtered isAll linked oneWay) once).mpr ?_
    intro other
    rw [mem_ends, mem_was, joins_filtered isAll isNode, and_iff_left_iff_imp]
    have isKept : ∀ path, state.HasNode path → kept.HasNode path := by
      rintro path ⟨node, among, isPath⟩
      exact (hasNode_iff isAll).mpr ⟨node, among, rfl, isPath⟩
    rintro (isLink | isLink)
    · exact isKept _ (joined _ isLink).2
    · exact isKept _ (joined _ isLink).1
  refine ⟨?_, perm⟩
  rw [filtered_nodes isAll, filter_true, map_map]
  refine map_congr_left fun node among => ?_
  obtain ⟨was, neighbours, isWas, isNow, same⟩ := perm node among
  obtain ⟨was', isWas', -, isCount, isOrphan, -⟩ := linked.neighbours node among
  cases isWas.symm.trans isWas'
  simp [recount, isNow, isCount, isOrphan, same.length_eq]

theorem filter_recount {nodes : List GraphNode} {map : DocId → Option (List DocId)}
    {clusters : List (List Char)} (ignores : IgnoresCounts again) :
    ((nodes.filter keep).map (recount map clusters preserve)).filter again =
      (nodes.filter fun node => keep node && again node).map (recount map clusters preserve) := by
  rw [filter_map, List.filter_filter]
  congr 2
  funext node
  rw [Bool.and_comm]
  exact congrArg _ (ignores node _ _ _)

theorem recount_recount {map map' : DocId → Option (List DocId)}
    {clusters clusters' : List (List Char)} :
    recount map' clusters' preserve ∘ recount map clusters preserve =
      recount map' clusters' preserve := by
  funext node
  cases preserve <;> rfl

theorem filter_filter (ignores : IgnoresCounts again) :
    filterGraphState sort (filterGraphState sort state (some keep) preserve) (some again) preserve =
      filterGraphState sort state (some fun node => keep node && again node) preserve := by
  have paths : ∀ map clusters, GraphNode.filePath ∘ recount map clusters preserve =
      GraphNode.filePath := fun _ _ => rfl
  have folders : ∀ map clusters, GraphNode.folder ∘ recount map clusters preserve =
      GraphNode.folder := fun _ _ => rfl
  have links : (state.links.filter (isBetween ((state.nodes.filter keep).map GraphNode.filePath))).filter
      (isBetween ((state.nodes.filter fun node => keep node && again node).map GraphNode.filePath)) =
        state.links.filter (isBetween ((state.nodes.filter fun node =>
          keep node && again node).map GraphNode.filePath)) := by
    rw [List.filter_filter]
    refine filter_congr fun link _ => Bool.eq_iff_iff.mpr ?_
    simp only [isBetween, Bool.and_eq_true, decide_eq_true_eq, mem_map, mem_filter]
    grind
  unfold filterGraphState
  simp only [filter_recount ignores, map_map, paths, folders, links, recount_recount]
  cases preserve <;> rfl

/-- **A filter restricts the graph**, without repetitions where no two notes it accepts link to
each other; and it can be applied in two steps where the second does not look at the counts. -/
theorem filter_restricts (sort : List (List Char) → List (List Char))
    (lowercase : List Char → List Char) (runtime : Option Db) (status : SearchStatus)
    (keep again : GraphNode → Bool) (preserve : Bool) :
    let state := buildGraphData sort (getGraphSnapshot lowercase runtime) status
    let filtered := fun keep => filterGraphState sort state (some keep) preserve
    Restricts state (filtered keep) keep ∧
      (state.OneWay keep → ∀ node ∈ (filtered keep).nodes, ∀ neighbours,
        (filtered keep).adjacencyMap node.filePath = some neighbours → neighbours.Nodup) ∧
      (state.OneWay (fun _ => true) →
        (∀ link ∈ state.links, state.HasNode link.source ∧ state.HasNode link.target) →
          Unchanged state (filtered fun _ => true)) ∧
      (IgnoresCounts again → filterGraphState sort (filtered keep) (some again) preserve =
        filtered fun node => keep node && again node) := by
  intro state filtered
  have linked : state.Linked := linked_snapshot lowercase runtime status
  refine ⟨restricts rfl linked, ?_, unchanged rfl linked, filter_filter⟩
  intro oneWay node among neighbours isNow
  rw [filtered_adjacency rfl ⟨node, among, rfl⟩] at isNow
  cases isNow
  exact nodup_filtered rfl linked oneWay

end Filter

def twoNotes (links : List (DocId × Nat)) : GraphState :=
  buildGraphData id (getGraphSnapshot id (some {
    documents := [⟨1, "a.md".toList, none, 0, [], []⟩, ⟨2, "b.md".toList, none, 0, [], []⟩]
    wikilinkRefs := links.map fun link =>
      ⟨0, link.1, ⟨[], none, [], [], 0⟩, some link.2, .exact, none⟩ })) ⟨false, none, none⟩

def isFirst (node : GraphNode) : Bool := decide (node.filePath = "a.md".toList)

/-- Two notes that link to each other are neighbours once, and twice when everything is accepted;
and a note whose neighbour is filtered out is an orphan to the next filter. -/
theorem counts_mutual_twice :
    ((twoNotes [("a.md".toList, 2), ("b.md".toList, 1)]).adjacencyMap "a.md".toList =
        some ["b.md".toList] ∧
      (filterGraphState id (twoNotes [("a.md".toList, 2), ("b.md".toList, 1)])
        (some fun _ => true) false).adjacencyMap "a.md".toList =
          some ["b.md".toList, "b.md".toList]) ∧
      (filterGraphState id (filterGraphState id (twoNotes [("a.md".toList, 2)]) (some isFirst) false)
        (some GraphNode.isOrphan) false).nodes ≠
      (filterGraphState id (twoNotes [("a.md".toList, 2)])
        (some fun node => isFirst node && node.isOrphan) false).nodes := by
  decide +kernel

end Kuku.Search.GraphView
