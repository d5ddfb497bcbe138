/-
# Search.SectionPaths -- the paths of the sections and the headings around them

Indexer and search navigation pop their stacks by length, not by the levels of the headings on
them.  What a section's path should be is `Outline.lineages`: the earlier headings that no later
one closes.  The two are the same exactly where every heading is deeper than the one before it
or has a heading of every level above its own (`section_paths_iff`).
-/
import Kuku.Search.Navigation

namespace Kuku.Search

open Kuku.Theory Indexer Outline

section Paths

variable {crates : Crates} {markdown : List Char} {hs : List Heading}
  {entries : List HeadingEntry}

/-- The sections have the headings around them for their paths. -/
def SectionsEnclosed (crates : Crates) (markdown : List Char) : Prop :=
  (crates.extract markdown).sections.map Section.path =
    [] :: lineages Heading.depth Heading.text (crates.parse markdown).headings

/-- Among entries that show the headings, a path and an ordinal are found at the heading with
these headings around it. -/
def SearchEnclosed (hs : List Heading) : Prop :=
  ∀ entries : List HeadingEntry,
    (entries.map fun entry => (entry.level, entry.text)) = (hs.map fun h => (h.depth, h.text)) →
    ∀ path ≠ [], ∀ ordinal position,
      findSectionHeadingPosition entries path ordinal = some position ↔
        ∃ before entry after, entries = before ++ entry :: after ∧ entry.pos = position ∧
          (enclosing HeadingEntry.level (before ++ [entry])).map HeadingEntry.text = path ∧
          (lineages HeadingEntry.level HeadingEntry.text before).count path = ordinal

theorem kept_of_visible (visible : ∀ h ∈ hs, h.isBlank = false) : kept Heading.isBlank hs = hs := by
  rw [kept, List.filter_eq_self]
  intro h among
  rw [visible h among]
  rfl

theorem extract_paths (visible : ∀ h ∈ (crates.parse markdown).headings, h.isBlank = false) :
    (crates.extract markdown).sections.map Section.path =
      [] :: paths Heading.depth Heading.text (crates.parse markdown).headings := by
  have outlined := outlined_extract crates.lowercase_ne_nil (crates.parse markdown)
  have paths := outlined.paths
  rw [kept_of_visible visible] at paths
  exact paths

/-- Up to each entry the two lists of paths are the same. -/
theorem lineages_before (same : entryPaths entries =
      lineages HeadingEntry.level HeadingEntry.text entries)
    {before after : List HeadingEntry} {entry : HeadingEntry}
    (isSplit : entries = before ++ entry :: after) :
    entryPaths before = lineages HeadingEntry.level HeadingEntry.text before ∧
      entryStack (before ++ [entry]) =
        (enclosing HeadingEntry.level (before ++ [entry])).map HeadingEntry.text := by
  have each := Outline.paths_eq_lineages.mp same
  refine ⟨Outline.paths_eq_lineages.mpr (Outline.Each.of_append (isSplit ▸ each)), ?_⟩
  exact each before entry after isSplit

theorem searchEnclosed_of_paths (same : paths Heading.depth Heading.text hs =
      lineages Heading.depth Heading.text hs) : SearchEnclosed hs := by
  intro entries shows path isSection ordinal position
  have ofEntries : entryPaths entries = lineages HeadingEntry.level HeadingEntry.text entries := by
    rw [entryPaths, paths_congr shows, same, lineages_congr shows]
  rw [findSectionHeadingPosition_eq_some isSection]
  refine exists₃_congr fun before entry after => and_congr_right fun isSplit => and_congr_right
    fun _ => ?_
  obtain ⟨paths, stack⟩ := lineages_before ofEntries isSplit
  rw [IsSought, paths, stack]

/-- **Section paths are the headings around** exactly where every heading is deeper than the one
before it or no level is left out above it. -/
theorem section_paths_iff (crates : Crates) (markdown : List Char)
    (visible : ∀ h ∈ (crates.parse markdown).headings, h.isBlank = false) :
    (SectionsEnclosed crates markdown ∧ SearchEnclosed (crates.parse markdown).headings) ↔
      Outline.Each (Outline.Nested Heading.depth) (crates.parse markdown).headings := by
  have onPaths : paths Heading.depth Heading.text (crates.parse markdown).headings =
      lineages Heading.depth Heading.text (crates.parse markdown).headings ↔
        Outline.Each (Outline.Nested Heading.depth) (crates.parse markdown).headings :=
    paths_eq_lineages_iff depth_pos
  rw [← onPaths, SectionsEnclosed, extract_paths visible]
  constructor
  · rintro ⟨same, -⟩
    exact (List.cons.inj same).2
  · intro same
    exact ⟨congrArg _ same, searchEnclosed_of_paths same⟩

/-- The crates, with a parser that is right about texts with these headings. -/
def outlineCrates (headings : List Heading) : Crates :=
  { sampleCrates with parse := fun _ => ⟨[], [], headings.map .heading⟩ }

/-- A second heading of level 2 does not close the first one. -/
theorem sibling_stays_open : ¬ ∀ (crates : Crates) (markdown : List Char),
    (∀ h ∈ (crates.parse markdown).headings, h.isBlank = false) →
    SectionsEnclosed crates markdown ∧ SearchEnclosed (crates.parse markdown).headings := by
  intro always
  have enclosed := (always (outlineCrates [heading .h2 ['A'], heading .h2 ['B']])
    "## A\n## B".toList (by decide)).1
  rw [SectionsEnclosed, extract_paths (by decide)] at enclosed
  revert enclosed
  decide

theorem section_paths_of_nested :
    (SectionsEnclosed (outlineCrates [heading .h1 ['A'], heading .h2 ['B']])
        "# A\n## B".toList ∧ SearchEnclosed [heading .h1 ['A'], heading .h2 ['B']]) ↔
      Outline.Each (Outline.Nested Heading.depth) [heading .h1 ['A'], heading .h2 ['B']] :=
  section_paths_iff (outlineCrates [heading .h1 ['A'], heading .h2 ['B']]) "# A\n## B".toList
    (by decide)

end Paths

end Kuku.Search
