/-
# Search.Hits -- the section that a body hit names

Chunks are stored with the path of their section only.  Which of the sections of one path it
is, `query_body_hits` and `visit_advanced_body_rows` count: the one by a subquery over the
heading rows up to the chunk's, the other in a pass over all rows in the order of path and
start.  Where no two chunks of a document start together both give `sectionOrdinal`
(`mem_visitAdvancedBodyRows`).
-/
import Kuku.Search.Db

namespace Kuku.Search

open Kuku.Theory List Table

structure SimpleSearchHit where
  docId : DocId
  title : Option (List Char)
  sectionPath : List (List Char)
  sectionOrdinal : Nat
  snippet : List Char
  kind : List Char
  score : Int

structure AdvancedBodyRow where
  docId : DocId
  title : Option (List Char)
  sectionPath : List (List Char)
  sectionOrdinal : Nat
  kind : List Char
  rawText : List Char
  globalStart : Nat

/-- A row that `MATCH` finds, with its rank. -/
structure Match where
  row : ChunkRow
  score : Int

namespace ChunkRow

variable (row : ChunkRow)

def isHeading : Bool := row.chunk.kind = "Heading".toList

def sectionKey : DocId ×ₗ List Char := toLex (row.docId, row.chunk.sectionPathJson)

/-- `ORDER BY doc_id, section_path, global_start`. -/
def sortKey : (DocId ×ₗ List Char) ×ₗ Nat := toLex (row.sectionKey, row.chunk.globalStart)

end ChunkRow

section Queries

variable (pathFromJson : List Char → Option (List (List Char))) (db : Db)

/-- `serde_json::from_str(..).unwrap_or_default()`. -/
def ChunkRow.sectionPath (row : ChunkRow) : List (List Char) :=
  (pathFromJson row.chunk.sectionPathJson).getD []

/-- The title of the document that the row is joined with. -/
def Db.title (docId : DocId) : Option (List Char) :=
  (db.documents.find? fun row => row.docId = docId).bind DocumentRow.title

/-- The subquery of `query_body_hits`. -/
def Db.anchors (row : ChunkRow) : Nat :=
  db.chunkRows.countP fun anchor => decide (anchor.docId = row.docId) &&
    decide (anchor.chunk.sectionPathJson = row.chunk.sectionPathJson) && anchor.isHeading &&
    decide (anchor.chunk.globalStart ≤ row.chunk.globalStart)

def Db.sectionOrdinal (row : ChunkRow) : Nat :=
  if row.chunk.sectionPathJson = "[]".toList then 0 else db.anchors row - 1

def Db.bodyHit (snippetBuilder : List Char → List Char) (found : Match) : SimpleSearchHit :=
  { docId := found.row.docId
    title := db.title found.row.docId
    sectionPath := found.row.sectionPath pathFromJson
    sectionOrdinal := db.sectionOrdinal found.row
    snippet := snippetBuilder found.row.chunk.rawText
    kind := found.row.chunk.kind
    score := found.score }

/-- `found` are the rows that match, best first. -/
def Db.queryBodyHits (found : List Match) (limit : Nat)
    (snippetBuilder : List Char → List Char) : List SimpleSearchHit :=
  (found.take limit).map (db.bodyHit pathFromJson snippetBuilder)

abbrev HeadingCount := Table.Counter (DocId ×ₗ List Char)

def Db.bodyRow (row : ChunkRow) (sectionOrdinal : Nat) : AdvancedBodyRow :=
  { docId := row.docId
    title := db.title row.docId
    sectionPath := row.sectionPath pathFromJson
    sectionOrdinal
    kind := row.chunk.kind
    rawText := row.chunk.rawText
    globalStart := row.chunk.globalStart }

/-- The ordinal of a row of the pass, from the headings that it has counted. -/
def ChunkRow.visitOrdinal (row : ChunkRow) (headingCount : Nat) : Nat :=
  if row.sectionPath pathFromJson = [] then 0
  else if row.isHeading then headingCount
  else headingCount - 1

def ChunkRow.isCounted (row : ChunkRow) : Bool :=
  decide (row.sectionPath pathFromJson ≠ []) && row.isHeading

/-- The pass stops at the row for which `visit` does not ask to continue. -/
def Db.visitRows (visit : AdvancedBodyRow → Bool) :
    HeadingCount → List ChunkRow → List AdvancedBodyRow
  | _, [] => []
  | counter, row :: rest =>
    let entered := counter.enter row.sectionKey
    let visited := db.bodyRow pathFromJson row (row.visitOrdinal pathFromJson entered.count)
    visited ::
      if visit visited then visitRows visit (entered.tick (row.isCounted pathFromJson)) rest
      else []

def Db.visitAdvancedBodyRows (visit : AdvancedBodyRow → Bool) : List AdvancedBodyRow :=
  db.visitRows pathFromJson visit {} (sorted ChunkRow.sortKey db.chunkRows)

end Queries

/-! ## The two counts agree -/

section Agree

variable {pathFromJson : List Char → Option (List (List Char))} {db : Db}
  {visit : AdvancedBodyRow → Bool} {row : ChunkRow} {rows done : List ChunkRow}

theorem mem_visitRows {counter : HeadingCount} {visited : AdvancedBodyRow}
    (counts : Table.Counts ChunkRow.sectionKey (ChunkRow.isCounted pathFromJson) done counter)
    (ordered : (done ++ rows).Pairwise fun a b => a.sectionKey ≤ b.sectionKey)
    (among : visited ∈ db.visitRows pathFromJson visit counter rows) :
    ∃ before row after, rows = before ++ row :: after ∧
      visited = db.bodyRow pathFromJson row (row.visitOrdinal pathFromJson
        (marks ChunkRow.sectionKey (ChunkRow.isCounted pathFromJson) row.sectionKey
          (done ++ before))) := by
  induction rows generalizing done counter with
  | nil => exact nomatch among
  | cons row rest ih =>
    have atRow : (done ++ [row]).Pairwise fun a b => a.sectionKey ≤ b.sectionKey := by
      refine ordered.sublist ?_
      exact List.Sublist.append_left (by simp) done
    have entered := counts.enter atRow
    rcases mem_cons.mp among with isFirst | later
    · refine ⟨[], row, rest, rfl, ?_⟩
      rw [isFirst, entered, append_nil]
    · split at later
      · have again : ((done ++ [row]) ++ rest).Pairwise
            fun a b => a.sectionKey ≤ b.sectionKey := by simpa using ordered
        obtain ⟨before, other, after, isSplit, isVisited⟩ := ih (counts.step atRow) again later
        refine ⟨row :: before, other, after, by rw [isSplit]; rfl, ?_⟩
        rw [isVisited, append_assoc]
        rfl
      · exact nomatch later

theorem marksUpTo_eq_anchors (isSection : row.sectionPath pathFromJson ≠ []) :
    marksUpTo ChunkRow.sectionKey (fun r => r.chunk.globalStart)
      (ChunkRow.isCounted pathFromJson) row.sectionKey row.chunk.globalStart db.chunkRows =
      db.anchors row := by
  apply countP_congr
  intro anchor _
  simp only [ChunkRow.sectionKey, ChunkRow.isCounted, Bool.and_eq_true, decide_eq_true_eq,
    EmbeddingLike.apply_eq_iff_eq, Prod.mk.injEq]
  constructor
  · rintro ⟨⟨⟨isDoc, isPath⟩, -, isHeading⟩, isBefore⟩
    exact ⟨⟨⟨isDoc, isPath⟩, isHeading⟩, isBefore⟩
  · rintro ⟨⟨⟨isDoc, isPath⟩, isHeading⟩, isBefore⟩
    refine ⟨⟨⟨isDoc, isPath⟩, ?_, isHeading⟩, isBefore⟩
    rwa [ChunkRow.sectionPath, isPath]

/-- Empty paths are the ones that are stored as such. -/
def ChunkRow.IsReadable (pathFromJson : List Char → Option (List (List Char))) (row : ChunkRow) :
    Prop :=
  row.sectionPath pathFromJson = [] ↔ row.chunk.sectionPathJson = "[]".toList

/-- **A visited row has the ordinal that a hit on it has.** -/
theorem mem_visitAdvancedBodyRows {visited : AdvancedBodyRow}
    (among : visited ∈ db.visitAdvancedBodyRows pathFromJson visit) :
    ∃ row ∈ db.chunkRows, ∃ ordinal, visited = db.bodyRow pathFromJson row ordinal ∧
      (row.IsReadable pathFromJson →
        ((db.chunkRows.filter fun r => r.docId = row.docId).map
          fun r => r.chunk.globalStart).Nodup →
        ordinal = db.sectionOrdinal row) := by
  have ordered : (sorted ChunkRow.sortKey db.chunkRows).Pairwise fun a b =>
      a.sectionKey < b.sectionKey ∨
        a.sectionKey = b.sectionKey ∧ a.chunk.globalStart ≤ b.chunk.globalStart := by
    have sorted : (sorted ChunkRow.sortKey db.chunkRows).Pairwise fun a b =>
        a.sortKey ≤ b.sortKey := sorted_ordered
    exact sorted.imp fun {a b} le => Prod.Lex.toLex_le_toLex.mp le
  have grouped := ordered.imp fun {a b} le =>
    le.elim (fun less => less.le) fun same => same.1.le
  have isPerm : (sorted ChunkRow.sortKey db.chunkRows).Perm db.chunkRows := perm_insertionSort _ _
  generalize isSorted : sorted ChunkRow.sortKey db.chunkRows = sorted at ordered grouped isPerm
  rw [Db.visitAdvancedBodyRows, isSorted] at among
  obtain ⟨before, row, after, rfl, rfl⟩ := mem_visitRows .start grouped among
  refine ⟨row, isPerm.mem_iff.mp (by simp), _, rfl, ?_⟩
  intro readable distinct
  rw [nil_append, ChunkRow.visitOrdinal, Db.sectionOrdinal]
  by_cases isTop : row.sectionPath pathFromJson = []
  · rw [if_pos isTop, if_pos (readable.mp isTop)]
  · rw [if_neg isTop, if_neg (fun isStored => isTop (readable.mpr isStored))]
    have fresh : ∀ x ∈ after, x.sectionKey = row.sectionKey →
        x.chunk.globalStart ≠ row.chunk.globalStart := by
      intro x isAfter sameKey sameStart
      have sameDoc : x.docId = row.docId := congrArg (fun key => (ofLex key).1) sameKey
      have starts := ((isPerm.filter fun r => r.docId = row.docId).map
        fun r => r.chunk.globalStart).nodup_iff.mpr distinct
      rw [filter_append, filter_cons_of_pos (by simp), map_append, map_cons, nodup_append] at starts
      have isLater : x ∈ after.filter fun r => r.docId = row.docId :=
        mem_filter.mpr ⟨isAfter, decide_eq_true sameDoc⟩
      exact (nodup_cons.mp starts.2.1).1 (sameStart ▸ mem_map_of_mem isLater)
    have counted : marks ChunkRow.sectionKey (ChunkRow.isCounted pathFromJson)
        row.sectionKey before + (row.isCounted pathFromJson).toNat =
        marksUpTo ChunkRow.sectionKey (fun r => r.chunk.globalStart)
          (ChunkRow.isCounted pathFromJson) row.sectionKey row.chunk.globalStart
          (before ++ row :: after) := marks_add_eq ordered fresh
    have total : marksUpTo ChunkRow.sectionKey (fun r => r.chunk.globalStart)
        (ChunkRow.isCounted pathFromJson) row.sectionKey row.chunk.globalStart db.chunkRows =
        db.anchors row := marksUpTo_eq_anchors isTop
    have same : marksUpTo ChunkRow.sectionKey (fun r => r.chunk.globalStart)
        (ChunkRow.isCounted pathFromJson) row.sectionKey row.chunk.globalStart
        (before ++ row :: after) = db.anchors row :=
      (isPerm.countP_eq _).trans total
    rw [← same, ← counted]
    simp only [ChunkRow.isCounted, isTop, ne_eq, not_false_eq_true, decide_true, Bool.true_and]
    cases row.isHeading <;> simp

end Agree

end Kuku.Search
