/-
# Knowledge.ProtectedPaths -- the paths of an assistant's file tools

`normalize_ai_raw_mutation_path` of `protected_paths.rs` reads a path as the knowledge
files' check does, but it leaves out empty and dot segments instead of refusing them, and
it looks at control characters and at a drive letter before it decodes anything.  So more
of what it returns is refused the second time (`normalizedAgain_iff`).  The module ends with
both normal forms side by side and a path of each kind.
-/
import Kuku.Knowledge.SafePaths

namespace Kuku.Knowledge

open Kuku.Theory List Function Text

structure ProtectedPathError where
  message : String
  deriving DecidableEq

def hasDrivePrefix : Chars → Bool
  | letter :: ':' :: _ => letter.isAlpha
  | _ => false

/-- `percent_decode_segment` of `protected_paths.rs`: its errors name no field. -/
def decodeRawSegment (raw : String) : Except ProtectedPathError String :=
  (percentDecodeSegment raw "").mapError fun error => ⟨error.message⟩

section Crates

variable (crates : Crates)

def rawMutationSegments : List String → Except ProtectedPathError (List String)
  | [] => .ok []
  | raw :: rest => do
    if raw = "" then rawMutationSegments rest
    else
      let decoded ← decodeRawSegment raw
      let segment := crates.nfc decoded
      if segment = "." then rawMutationSegments rest
      else if segment = ".." then .error ⟨"Path traversal is not allowed"⟩
      else return segment :: (← rawMutationSegments rest)

def normalizeAiRawMutationPath (value : String) : Except ProtectedPathError String := do
  let trimmed := trim value
  if trimmed = "" then .error ⟨"Path is empty"⟩
  if startsWith trimmed "/" ∨ startsWith trimmed "\\" ∨ hasDrivePrefix trimmed.toList then
    .error ⟨"Absolute paths are not allowed"⟩
  if trimmed.toList.any isControl then .error ⟨"Path contains NUL or control characters"⟩
  let segments ← rawMutationSegments crates (rawSegments value)
  if segments = [] then .error ⟨"Path is empty"⟩
  return join '/' segments

end Crates

/-! ## The segments that are kept -/

section Kept

variable {crates : Crates} {raw decoded value path : String} {raws segments : List String}

theorem decodeRawSegment_ok : decodeRawSegment raw = .ok decoded ↔
    percentDecodeSegment raw "" = .ok decoded := by
  rw [decodeRawSegment]
  cases percentDecodeSegment raw "" <;> simp [Except.mapError]

/-- What the kept segments of a list are decoded to. -/
def keptOf (nfc : String → String) (raws : List String) : List String :=
  ((raws.filter fun raw => raw ≠ "").filterMap fun raw =>
    (percentDecodeSegment raw "").toOption).filter fun decoded => nfc decoded ≠ "."

/-- What the kept segments of a path are decoded to. -/
def keptSegments (nfc : String → String) (value : String) : List String :=
  keptOf nfc (rawSegments value)

/-- The kept segments are some of all segments, decoded and composed. -/
structure Keeps (nfc : String → String) (raws kept decodeds segments : List String) : Prop where
  among : kept.Sublist raws
  nonempty : ∀ raw ∈ kept, raw ≠ ""
  decoding : List.Forall₂ (fun raw decoded => percentDecodeSegment raw "" = .ok decoded)
    kept decodeds
  composed : decodeds.map nfc = segments
  notDot : ∀ segment ∈ segments, segment ≠ "." ∧ segment ≠ ".."

theorem exists_keeps (accepted : rawMutationSegments crates raws = .ok segments) :
    ∃ kept, Keeps crates.nfc raws kept (keptOf crates.nfc raws) segments := by
  induction raws generalizing segments with
  | nil =>
    cases accepted
    exact ⟨[], List.Sublist.refl _, by simp, .nil, rfl, by simp⟩
  | cons raw rest ih =>
    rw [rawMutationSegments] at accepted
    by_cases isEmpty : raw = ""
    · rw [if_pos isEmpty] at accepted
      obtain ⟨kept, among, nonempty, decoding, composed, notDot⟩ := ih accepted
      refine ⟨kept, among.cons raw, nonempty, ?_, ?_, notDot⟩
      · simpa [keptOf, isEmpty] using decoding
      · simpa [keptOf, isEmpty] using composed
    · rw [if_neg isEmpty] at accepted
      obtain ⟨decoded, isDecoded, accepted⟩ := bind_ok.mp accepted
      rw [decodeRawSegment_ok] at isDecoded
      by_cases isDot : crates.nfc decoded = "."
      · simp only [isDot, if_true] at accepted
        obtain ⟨kept, among, nonempty, decoding, composed, notDot⟩ := ih accepted
        have same : keptOf crates.nfc (raw :: rest) = keptOf crates.nfc rest := by
          simp [keptOf, isEmpty, isDecoded, Except.toOption, isDot]
        rw [same]
        exact ⟨kept, among.cons raw, nonempty, decoding, composed, notDot⟩
      · simp only [if_neg isDot] at accepted
        split_ifs at accepted with isDots
        obtain ⟨later, isLater, isResult⟩ := bind_ok.mp accepted
        cases isResult
        obtain ⟨kept, among, nonempty, decoding, composed, notDot⟩ := ih isLater
        have same : keptOf crates.nfc (raw :: rest) = decoded :: keptOf crates.nfc rest := by
          simp [keptOf, isEmpty, isDecoded, Except.toOption, isDot]
        rw [same]
        refine ⟨raw :: kept, among.cons_cons raw, ?_, .cons isDecoded decoding, ?_, ?_⟩
        · simpa using ⟨isEmpty, nonempty⟩
        · rw [map_cons, composed]
        · simpa using ⟨⟨isDot, isDots⟩, notDot⟩

/-- Segments that are kept and decode to themselves are collected as they are. -/
theorem rawMutationSegments_of_plain
    (plain : ∀ segment ∈ segments, segment ≠ "" ∧ percentDecodeSegment segment "" = .ok segment ∧
      crates.nfc segment = segment ∧ segment ≠ "." ∧ segment ≠ "..") :
    rawMutationSegments crates segments = .ok segments := by
  induction segments with
  | nil => rfl
  | cons segment rest ih =>
    obtain ⟨nonempty, isDecoded, composed, notDot, notDots⟩ := plain segment mem_cons_self
    have later := ih fun other among => plain other (mem_cons_of_mem _ among)
    rw [rawMutationSegments, if_neg nonempty, decodeRawSegment_ok.mpr isDecoded]
    simp only [bind, Except.bind, composed, if_neg notDot, if_neg notDots, later]
    rfl

theorem normalized_ok : normalizeAiRawMutationPath crates value = .ok path ↔
    trim value ≠ "" ∧
      (startsWith (trim value) "/" = false ∧
        startsWith (trim value) "\\" = false ∧
        hasDrivePrefix (trim value).toList = false) ∧
      (trim value).toList.any isControl = false ∧
      ∃ segments, rawMutationSegments crates (rawSegments value) = .ok segments ∧
        segments ≠ [] ∧ path = join '/' segments := by
  constructor
  · intro accepted
    simp only [normalizeAiRawMutationPath, bind, Except.bind, pure, Except.pure] at accepted
    split_ifs at accepted with isEmpty isAbsolute hasControl
    split at accepted
    · cases accepted
    · rename_i segments ran
      split_ifs at accepted with isNone
      cases accepted
      simp only [not_or, Bool.not_eq_true] at isAbsolute hasControl
      exact ⟨isEmpty, isAbsolute, hasControl, segments, ran, isNone, rfl⟩
  · rintro ⟨nonempty, relative, noControl, segments, ran, isSome, rfl⟩
    simp only [normalizeAiRawMutationPath, bind, Except.bind, pure, Except.pure,
      if_neg nonempty, relative, noControl, Bool.false_eq_true, or_self, if_false, ran,
      if_neg isSome]

/-- What the first pass found out about the segments it kept. -/
theorem valid_of_keeps (isNfc : IsNfc crates.nfc) {kept decodeds : List String}
    (keeps : Keeps crates.nfc (rawSegments value) kept decodeds segments) :
    ∀ segment ∈ segments, IsSegment crates.nfc segment := by
  obtain ⟨sublist, nonempty, decoding, rfl, -⟩ := keeps
  intro segment among
  obtain ⟨decoded, isKept, rfl⟩ := mem_map.mp among
  obtain ⟨raw, isRaw, isDecoded⟩ := mapM_ok_right (mapM_ok_iff.mpr decoding) isKept
  exact isSegment_of_decoded isNfc (nonempty raw isRaw)
    (clean_of_mem_rawSegments (sublist.subset isRaw)) isDecoded

/-- A drive letter in front of a path is in its first segment. -/
theorem hasDrivePrefix_join {first : String} {rest : List String} (nonempty : first ≠ "") :
    hasDrivePrefix (join '/' (first :: rest)).toList = hasDrivePrefix first.toList := by
  obtain ⟨tail, isPath, isTail⟩ : ∃ tail, (join '/' (first :: rest)).toList =
      first.toList ++ tail ∧ (tail = [] ∨ ∃ more, tail = '/' :: more) := by
    rw [join, String.toList_ofList, map_cons]
    cases rest with
    | nil => exact ⟨[], by simp, .inl rfl⟩
    | cons next more =>
      rw [map_cons, intercalate_cons_cons, append_assoc]
      exact ⟨_, rfl, .inr ⟨_, rfl⟩⟩
  rw [isPath]
  rcases chars : first.toList with _ | ⟨c, _ | ⟨d, more⟩⟩
  · exact absurd (String.toList_eq_nil_iff.mp chars) nonempty
  · rcases isTail with rfl | ⟨more, rfl⟩ <;> rfl
  · by_cases isColon : d = ':'
    · rw [isColon]
      rfl
    · simp [hasDrivePrefix, isColon]

/-- No segment is left out of a path that is put together from kept ones. -/
theorem length_rawSegments_join (nonempty : segments ≠ [])
    (clean : ∀ segment ∈ segments, ∀ c ∈ segment.toList, isSeparator c = false) :
    (rawSegments (join '/' segments)).length = segments.length := by
  have notSpace : ∀ c, isSpace c = true → isSeparator c = false := by
    intro c isSpaced
    rw [← Bool.not_eq_true]
    intro isSep
    rcases of_decide_eq_true isSep with rfl | rfl <;> cases isSpaced
  have some := length_pos_of_ne_nil nonempty
  rw [rawSegments, length_map, Segments.length_splitOnP, countP_trim notSpace, join,
    String.toList_ofList, Segments.countP_intercalate rfl, length_map]
  · omega
  · intro piece isPiece
    obtain ⟨segment, isSegment, rfl⟩ := mem_map.mp isPiece
    exact clean segment isSegment

/-- What is kept of a path is settled, and has no control character and no drive letter. -/
structure SettledRaw (nfc : String → String) (kept : List String) : Prop where
  settled : Settled kept
  noControl : ∀ decoded ∈ kept, decoded.toList.any isControl = false
  noDrive : ∀ first ∈ kept.head?, hasDrivePrefix (nfc first).toList = false

theorem any_isControl_join :
    (join '/' segments).toList.any isControl = false ↔
      ∀ segment ∈ segments, segment.toList.any isControl = false := by
  rw [join, String.toList_ofList, any_eq_false]
  constructor
  · intro none segment isSegment
    rw [any_eq_false]
    exact fun c within => none c
      ((Segments.infix_intercalate (mem_map_of_mem isSegment)).subset within)
  · intro none c within
    rcases Segments.mem_intercalate within with rfl | ⟨piece, isPiece, within⟩
    · exact Bool.false_ne_true
    · obtain ⟨segment, isSegment, rfl⟩ := mem_map.mp isPiece
      exact any_eq_false.mp (none segment isSegment) c within

theorem settledRaw_iff_map (isNfc : IsNfc crates.nfc) {decodeds : List String} :
    SettledRaw crates.nfc decodeds ↔ Settled (decodeds.map crates.nfc) ∧
      (∀ segment ∈ decodeds.map crates.nfc, segment.toList.any isControl = false) ∧
      ∀ first ∈ (decodeds.map crates.nfc).head?, hasDrivePrefix first.toList = false := by
  have control : ∀ decoded, (crates.nfc decoded).toList.any isControl = false ↔
      decoded.toList.any isControl = false := by
    intro decoded
    rw [any_eq_false, any_eq_false]
    constructor
    · exact fun none c within isCtl =>
        none c ((isNfc.mem_iff decoded c (by simp [isSyntax, isCtl])).mpr within) isCtl
    · exact fun none c within isCtl =>
        none c ((isNfc.mem_iff decoded c (by simp [isSyntax, isCtl])).mp within) isCtl
  constructor
  · rintro ⟨settled, noControl, noDrive⟩
    refine ⟨(settled_map_iff isNfc).mpr settled, ?_, ?_⟩
    · intro segment among
      obtain ⟨decoded, isDecoded, rfl⟩ := mem_map.mp among
      exact (control decoded).mpr (noControl decoded isDecoded)
    · intro first isFirst
      rw [head?_map] at isFirst
      obtain ⟨decoded, isDecoded, rfl⟩ := Option.map_eq_some_iff.mp isFirst
      exact noDrive decoded isDecoded
  · rintro ⟨settled, noControl, noDrive⟩
    refine ⟨(settled_map_iff isNfc).mp settled, ?_, ?_⟩
    · exact fun decoded isDecoded => (control decoded).mp (noControl _ (mem_map_of_mem isDecoded))
    · intro first isFirst
      exact noDrive _ (by rw [head?_map]; exact Option.mem_map_of_mem _ isFirst)

theorem normalized_of_settled (nonempty : segments ≠ [])
    (valid : ∀ segment ∈ segments, IsSegment crates.nfc segment)
    (notDot : ∀ segment ∈ segments, segment ≠ "." ∧ segment ≠ "..") (settled : Settled segments)
    (noControl : ∀ segment ∈ segments, segment.toList.any isControl = false)
    (noDrive : ∀ first ∈ segments.head?, hasDrivePrefix first.toList = false) :
    normalizeAiRawMutationPath crates (join '/' segments) = .ok (join '/' segments) := by
  obtain ⟨trimmed, cut⟩ := rawSegments_join nonempty valid settled
  obtain ⟨isPath, notSlash, notBackslash⟩ := join_relative nonempty valid
  refine normalized_ok.mpr ?_
  rw [trimmed, cut]
  refine ⟨isPath, ⟨notSlash, notBackslash, ?_⟩, any_isControl_join.mpr noControl, segments,
    rawMutationSegments_of_plain ?_, nonempty, rfl⟩
  · obtain ⟨first, rest, rfl⟩ := exists_cons_of_ne_nil nonempty
    rw [hasDrivePrefix_join (valid first mem_cons_self).nonempty]
    exact noDrive first rfl
  · intro segment among
    have isValid := valid segment among
    exact ⟨isValid.nonempty, percentDecodeSegment_of_not_mem (settled.percent segment among),
      isValid.composed, notDot segment among⟩

theorem normalizedAgain_iff (isNfc : IsNfc crates.nfc)
    (accepted : normalizeAiRawMutationPath crates value = .ok path) :
    normalizeAiRawMutationPath crates path = .ok path ↔
      SettledRaw crates.nfc (keptSegments crates.nfc value) := by
  obtain ⟨-, -, -, segments, ran, nonempty, rfl⟩ := normalized_ok.mp accepted
  obtain ⟨kept, keeps⟩ := exists_keeps ran
  have valid := valid_of_keeps isNfc keeps
  have clean := fun segment among => (valid segment among).clean
  rw [settledRaw_iff_map isNfc, keptSegments, keeps.composed]
  constructor
  · intro again
    obtain ⟨-, ⟨-, -, noDrive⟩, noControl, others, ranAgain, isSome, same⟩ := normalized_ok.mp again
    obtain ⟨keptAgain, keepsAgain⟩ := exists_keeps ranAgain
    have isSame := join_inj nonempty isSome clean
      (fun segment among => (valid_of_keeps isNfc keepsAgain segment among).clean) same
    subst isSame
    -- as many segments are kept as there are
    have isAll : keptAgain = rawSegments (join '/' segments) := by
      refine keepsAgain.among.eq_of_length ?_
      rw [length_rawSegments_join nonempty clean, keepsAgain.decoding.length_eq,
        ← congrArg List.length keepsAgain.composed, length_map]
    have decoding := keepsAgain.decoding
    rw [isAll] at decoding
    have settled := settled_of_again isNfc nonempty valid decoding keepsAgain.composed
    rw [(rawSegments_join nonempty valid settled).1] at noDrive noControl
    refine ⟨settled, any_isControl_join.mp noControl, ?_⟩
    obtain ⟨first, rest, rfl⟩ := exists_cons_of_ne_nil nonempty
    rw [hasDrivePrefix_join (valid first mem_cons_self).nonempty] at noDrive
    intro other isOther
    cases isOther
    exact noDrive
  · rintro ⟨settled, noControl, noDrive⟩
    exact normalized_of_settled nonempty valid keeps.notDot settled noControl noDrive

/-! ## Paths that are their own normal form -/

structure IsOwnPath (nfc : String → String) (path : String) : Prop where
  start : leadsWithSpace path = false
  stop : trailsWithSpace path = false
  noDrive : hasDrivePrefix path.toList = false
  plain : ∀ c ∈ path.toList, c ≠ '%' ∧ c ≠ '\\' ∧ isControl c = false
  names : ∀ name ∈ split '/' path, name ≠ "" ∧ name ≠ "." ∧ name ≠ ".." ∧ nfc name = name

/-- A path that is its own normal form is put together from settled segments. -/
theorem exists_settled_of_self (isNfc : IsNfc crates.nfc)
    (accepted : normalizeAiRawMutationPath crates path = .ok path) :
    ∃ segments, segments ≠ [] ∧ path = join '/' segments ∧
      (∀ segment ∈ segments, IsSegment crates.nfc segment) ∧
      (∀ segment ∈ segments, segment ≠ "." ∧ segment ≠ "..") ∧ Settled segments := by
  have settled := (normalizedAgain_iff isNfc accepted).mp accepted
  obtain ⟨-, -, -, segments, ran, nonempty, isPath⟩ := normalized_ok.mp accepted
  obtain ⟨kept, keeps⟩ := exists_keeps ran
  rw [settledRaw_iff_map isNfc, keptSegments, keeps.composed] at settled
  exact ⟨segments, nonempty, isPath, valid_of_keeps isNfc keeps, keeps.notDot, settled.1⟩

theorem split_join (nonempty : segments ≠ [])
    (clean : ∀ segment ∈ segments, ∀ c ∈ segment.toList, isSeparator c = false) :
    split '/' (join '/' segments) = segments := by
  have noSlash : ∀ piece ∈ segments.map String.toList, '/' ∉ piece := by
    intro piece isPiece among
    obtain ⟨segment, isSegment, rfl⟩ := mem_map.mp isPiece
    exact Bool.eq_false_iff.mp (clean segment isSegment '/' among) rfl
  rw [split, join, String.toList_ofList,
    splitOn_intercalate '/' noSlash (by simpa using nonempty), map_map]
  simp [comp_def]

theorem join_split (path : String) : join '/' (split '/' path) = path := by
  rw [split, join, map_map]
  simp [comp_def]

theorem normalized_self_iff (isNfc : IsNfc crates.nfc) :
    normalizeAiRawMutationPath crates path = .ok path ↔ IsOwnPath crates.nfc path := by
  constructor
  · intro accepted
    obtain ⟨segments, nonempty, rfl, valid, notDot, settled⟩ := exists_settled_of_self isNfc accepted
    obtain ⟨-, ⟨-, -, noDrive⟩, noControl, -⟩ := normalized_ok.mp accepted
    have trimmed := (rawSegments_join nonempty valid settled).1
    rw [trimmed] at noDrive noControl
    have clean := fun segment among => (valid segment among).clean
    refine ⟨?_, ?_, noDrive, fun c among => ?_, fun name isName => ?_⟩
    · rw [← trimmed, leadsWithSpace_trim]
    · rw [← trimmed, trailsWithSpace_trim]
    · have notControl := Bool.eq_false_iff.mpr (any_eq_false.mp noControl c among)
      rw [join, String.toList_ofList] at among
      rcases Segments.mem_intercalate among with rfl | ⟨piece, isPiece, within⟩
      · exact ⟨by decide, by decide, rfl⟩
      · obtain ⟨segment, isSegment, rfl⟩ := mem_map.mp isPiece
        have notSeparator := of_decide_eq_false (clean segment isSegment c within)
        rw [not_or] at notSeparator
        refine ⟨?_, notSeparator.2, notControl⟩
        rintro rfl
        exact settled.percent segment isSegment within
    · rw [split_join nonempty clean] at isName
      have isValid := valid name isName
      exact ⟨isValid.nonempty, (notDot name isName).1, (notDot name isName).2, isValid.composed⟩
  · intro own
    have nonempty : split '/' path ≠ [] := by
      simp [split]
    have within : ∀ name ∈ split '/' path, ∀ c ∈ name.toList, c ∈ path.toList ∧ c ≠ '/' := by
      intro name isName c among
      constructor
      · rw [← join_split path, join, String.toList_ofList]
        exact (Segments.infix_intercalate (mem_map_of_mem isName)).subset among
      · obtain ⟨piece, isPiece, rfl⟩ := mem_map.mp isName
        rw [String.toList_ofList] at among
        simpa using Segments.clean_of_mem_splitOnP isPiece c among
    have absent : ∀ name ∈ split '/' path, '%' ∉ name.toList := fun name isName among =>
      (own.plain '%' (within name isName '%' among).1).1 rfl
    have valid : ∀ name ∈ split '/' path, IsSegment crates.nfc name := by
      intro name isName
      obtain ⟨isSome, -, -, composed⟩ := own.names name isName
      refine ⟨isSome, composed, fun c among => ?_, single_of_not_mem (absent name isName)⟩
      obtain ⟨isChar, notSlash⟩ := within name isName c among
      exact decide_eq_false (not_or.mpr ⟨notSlash, (own.plain c isChar).2.1⟩)
    have isPath := join_split path
    have accepted := normalized_of_settled nonempty valid
      (fun name isName => ⟨(own.names name isName).2.1, (own.names name isName).2.2.1⟩)
      ⟨absent, fun first isFirst => ?_, fun last isLast => ?_⟩ (fun name isName => ?_)
      fun first isFirst => ?_
    · rwa [isPath] at accepted
    · obtain ⟨rest, isSplit⟩ := List.head?_eq_some_iff.mp isFirst
      have isSome := (valid first (isSplit ▸ mem_cons_self)).nonempty
      rw [← @leadsWithSpace_join _ rest isSome, ← isSplit, isPath, own.start]
    · obtain ⟨front, isSplit⟩ := List.getLast?_eq_some_iff.mp isLast
      have isSome := (valid last (by rw [isSplit]; simp)).nonempty
      rw [← @trailsWithSpace_join _ front isSome, ← isSplit, isPath, own.stop]
    · rw [any_eq_false]
      exact fun c among => Bool.eq_false_iff.mp (own.plain c (within name isName c among).1).2.2
    · obtain ⟨rest, isSplit⟩ := List.head?_eq_some_iff.mp isFirst
      have isSome := (valid first (isSplit ▸ mem_cons_self)).nonempty
      rw [← @hasDrivePrefix_join _ rest isSome, ← isSplit, isPath, own.noDrive]

/-- A returned path is safe.  It is accepted unchanged again exactly when what its segments were
decoded to has no percent sign and no white space at the ends of the path; the assistant's file
tools ask in addition that no control character was decoded, and that no drive letter stands in
front of what is kept. -/
theorem paths_again_iff (isNfc : IsNfc crates.nfc) (value path : String) :
    (∀ field later, validateSafeVaultRelativePath crates value field = .ok path →
      IsSafePath crates.nfc path ∧
        (validateSafeVaultRelativePath crates path later = .ok path ↔
          Settled (decodedSegments value))) ∧
    (normalizeAiRawMutationPath crates value = .ok path →
      (normalizeAiRawMutationPath crates path = .ok path ↔
        SettledRaw crates.nfc (keptSegments crates.nfc value))) :=
  ⟨fun _ _ accepted => validated_again_iff isNfc accepted,
    fun accepted => normalizedAgain_iff isNfc accepted⟩

end Kept

/-! ## Poles -/

theorem isNfc_composed : IsNfc composedCrates.nfc where
  again _ := rfl
  nonempty _ isEmpty := isEmpty
  mem_iff _ _ _ := Iff.rfl
  leads _ := rfl
  trails _ := rfl
  encoding _ encoded := encoded

theorem paths_again_plain :
    (IsSafePath composedCrates.nfc "a b.md" ∧
      (validateSafeVaultRelativePath composedCrates "a b.md" "path" = .ok "a b.md" ↔
        Settled (decodedSegments "a%20b.md"))) ∧
    (normalizeAiRawMutationPath composedCrates "a b.md" = .ok "a b.md" ↔
      SettledRaw composedCrates.nfc (keptSegments composedCrates.nfc "a%20b.md")) :=
  have both := paths_again_iff isNfc_composed "a%20b.md" "a b.md"
  ⟨both.1 "path" "path" (by decide +kernel), both.2 (by decide +kernel)⟩

/-- An encoded percent sign is decoded, and then it is a malformed encoding. -/
theorem percent_sign_refused :
    ¬ ∀ value path, validateSafeVaultRelativePath composedCrates value "path" = .ok path →
      validateSafeVaultRelativePath composedCrates path "path" = .ok path := by
  intro claim
  have first : validateSafeVaultRelativePath composedCrates "100%25.md" "path" =
      .ok "100%.md" := by decide +kernel
  have second : validateSafeVaultRelativePath composedCrates "100%.md" "path" =
      .error ⟨"path", "Malformed percent encoding"⟩ := by decide +kernel
  cases (claim _ _ first).symm.trans second

end Kuku.Knowledge
