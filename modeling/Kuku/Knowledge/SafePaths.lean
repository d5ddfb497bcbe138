/-
# Knowledge.SafePaths -- which paths are accepted unchanged a second time

`validate_safe_vault_relative_path` trims a path, cuts it at its separators, decodes each
segment and composes it.  What it returns is a safe path (`validated_ok`), but
what it decodes may stand in the way of a second pass: a percent sign no longer encodes
anything, and white space at the ends is trimmed away.  `Settled` excludes the two, and a
returned path is accepted unchanged exactly when the decoded segments are settled
(`validated_again_iff`).

`IsNfc` is what is used of Unicode composition: it does nothing a second time, it keeps
separators, percent signs and control characters and makes none, and white space at the
ends stays there.
-/
import Kuku.Knowledge.Markdown
import Kuku.Theory.Except
import Kuku.Theory.Segments
import Kuku.Theory.Utf8

namespace Kuku.Knowledge

open Kuku.Theory List Text

variable {raw decoded field value segment : String}

/-! ## Decoding -/

section Bytes

variable {bytes output : List UInt8} {byte : UInt8}

/-- What the decoder turns into what. -/
inductive PercentDecodes : List UInt8 → List UInt8 → Prop where
  | nil : PercentDecodes [] []
  | plain {byte : UInt8} {rest more : List UInt8} (notPercent : byte ≠ 37)
      (later : PercentDecodes rest more) : PercentDecodes (byte :: rest) (byte :: more)
  | encoded {high low h l : UInt8} {rest more : List UInt8} (isHigh : hexValue high = some h)
      (isLow : hexValue low = some l) (notSlash : h <<< 4 ||| l ≠ 47)
      (notBackslash : h <<< 4 ||| l ≠ 92) (later : PercentDecodes rest more) :
      PercentDecodes (37 :: high :: low :: rest) ((h <<< 4 ||| l) :: more)

theorem percentDecodes_of_ok (accepted : percentDecodeBytes bytes = .ok output) :
    PercentDecodes bytes output := by
  induction bytes using percentDecodeBytes.induct generalizing output with
  | case1 =>
    cases accepted
    exact .nil
  | case2 high low rest h isHigh l isLow decoded isSeparator =>
    simp only [percentDecodeBytes, isHigh, isLow] at accepted
    rw [if_pos isSeparator] at accepted
    cases accepted
  | case3 high low rest h isHigh l isLow decoded notSeparator =>
    rename_i ih
    simp only [percentDecodeBytes, isHigh, isLow] at accepted
    rw [if_neg notSeparator] at accepted
    obtain ⟨more, isRest, isOutput⟩ := bind_ok.mp accepted
    cases isOutput
    rw [not_or] at notSeparator
    exact .encoded isHigh isLow notSeparator.1 notSeparator.2 (ih isRest)
  | case4 high low rest h isHigh notLow =>
    rw [percentDecodeBytes, isHigh] at accepted
    cases isLow : hexValue low with
    | some l => exact (notLow l isLow).elim
    | none => rw [isLow] at accepted; cases accepted
  | case5 high low rest notHigh =>
    rw [percentDecodeBytes] at accepted
    cases isHigh : hexValue high with
    | some h => exact (notHigh h isHigh).elim
    | none => rw [isHigh] at accepted; cases accepted
  | case6 rest short =>
    rw [percentDecodeBytes.eq_3 _ _ short, if_pos rfl] at accepted
    cases accepted
  | case7 byte rest short notPercent ih =>
    rw [percentDecodeBytes.eq_3 _ _ short, if_neg notPercent] at accepted
    obtain ⟨more, isRest, isOutput⟩ := bind_ok.mp accepted
    cases isOutput
    exact .plain notPercent (ih isRest)

theorem percentDecodeBytes_of_not_mem (absent : 37 ∉ bytes) :
    percentDecodeBytes bytes = .ok bytes := by
  induction bytes with
  | nil => rfl
  | cons byte rest ih =>
    rw [mem_cons, not_or] at absent
    have notPercent : byte ≠ 37 := fun isPercent => absent.1 isPercent.symm
    rw [percentDecodeBytes.eq_3 byte rest fun _ _ _ isPercent _ => notPercent isPercent,
      if_neg notPercent, ih absent.2]
    rfl

namespace PercentDecodes

theorem mem_of_separator (decodes : PercentDecodes bytes output)
    (isSeparator : byte = 47 ∨ byte = 92) (among : byte ∈ output) : byte ∈ bytes := by
  induction decodes with
  | nil => exact among
  | plain notPercent later ih =>
    rcases mem_cons.mp among with rfl | among
    · exact mem_cons_self
    · exact mem_cons_of_mem _ (ih among)
  | encoded isHigh isLow notSlash notBackslash later ih =>
    rcases mem_cons.mp among with rfl | among
    · rcases isSeparator with isSlash | isBackslash
      · exact absurd isSlash notSlash
      · exact absurd isBackslash notBackslash
    · exact mem_cons_of_mem _ (mem_cons_of_mem _ (mem_cons_of_mem _ (ih among)))

theorem ne_nil (decodes : PercentDecodes bytes output) (nonempty : bytes ≠ []) : output ≠ [] := by
  cases decodes with
  | nil => exact absurd rfl nonempty
  | plain => exact cons_ne_nil _ _
  | encoded => exact cons_ne_nil _ _

end PercentDecodes

theorem containsPercentEncoding_of_part {part whole : List UInt8} (within : part <:+: whole)
    (encoded : containsPercentEncoding part = true) : containsPercentEncoding whole = true := by
  rw [containsPercentEncoding, any_eq_true] at encoded ⊢
  obtain ⟨suffix, isSuffix, isEncoding⟩ := encoded
  obtain ⟨front, back, rfl⟩ := within
  obtain ⟨start, rfl⟩ := (mem_tails _ _).mp isSuffix
  refine ⟨suffix ++ back, (mem_tails _ _).mpr ⟨front ++ start, by simp⟩, ?_⟩
  split at isEncoding
  · exact isEncoding
  · cases isEncoding

/-- A percent sign that is decoded stands in front of two digits. -/
theorem PercentDecodes.percent_not_mem (decodes : PercentDecodes bytes output)
    (single : containsPercentEncoding bytes = false) : 37 ∉ bytes := by
  induction decodes with
  | nil => exact not_mem_nil
  | plain notPercent later ih =>
    rename_i byte rest more
    rw [mem_cons, not_or]
    refine ⟨notPercent.symm, ih ?_⟩
    rw [← Bool.not_eq_true] at single ⊢
    exact fun encoded =>
      single (containsPercentEncoding_of_part (infix_cons infix_rfl) encoded)
  | encoded isHigh isLow notSlash notBackslash later ih =>
    simp [containsPercentEncoding, isHigh, isLow] at single

end Bytes

theorem percentDecodeSegment_ok : percentDecodeSegment raw field = .ok decoded ↔
    percentDecodeBytes (utf8 raw) = .ok (utf8 decoded) ∧
      containsPercentEncoding (utf8 decoded) = false := by
  constructor
  · intro accepted
    obtain ⟨output, isOutput, rest⟩ := bind_ok.mp accepted
    cases isText : decodeUtf8 output with
    | none => rw [isText] at rest; cases rest
    | some chars =>
      rw [isText] at rest
      have isUtf8 := utf8_of_decodeUtf8 isText
      cases single : containsPercentEncoding output with
      | true => simp only [single, if_true] at rest; cases rest
      | false =>
        simp only [single, Bool.false_eq_true, if_false] at rest
        cases rest
        rw [isUtf8]
        cases ran : percentDecodeBytes (utf8 raw) with
        | error error => rw [ran] at isOutput; cases isOutput
        | ok bytes =>
          rw [ran] at isOutput
          cases isOutput
          exact ⟨rfl, single⟩
  · rintro ⟨ran, single⟩
    unfold percentDecodeSegment
    rw [ran]
    simp only [Except.mapError, bind, Except.bind, decodeUtf8_utf8, single,
      Bool.false_eq_true, if_false, pure, Except.pure, String.ofList_toList]

theorem single_of_not_mem (absent : '%' ∉ raw.toList) :
    containsPercentEncoding (utf8 raw) = false := by
  rw [← Bool.not_eq_true, containsPercentEncoding, any_eq_true]
  rintro ⟨suffix, isSuffix, isEncoding⟩
  split at isEncoding
  · exact absent ((mem_utf8_iff (c := '%') rfl).mp
      (((mem_tails _ _).mp isSuffix).subset mem_cons_self))
  · cases isEncoding

theorem percentDecodeSegment_of_not_mem (absent : '%' ∉ raw.toList) :
    percentDecodeSegment raw field = .ok raw := by
  have noByte : 37 ∉ utf8 raw := fun among =>
    absent ((mem_utf8_iff (c := '%') rfl).mp among)
  exact percentDecodeSegment_ok.mpr ⟨percentDecodeBytes_of_not_mem noByte, single_of_not_mem absent⟩

theorem percent_not_mem_of_decoded (accepted : percentDecodeSegment raw field = .ok decoded)
    (single : containsPercentEncoding (utf8 raw) = false) : '%' ∉ raw.toList := by
  have decodes := percentDecodes_of_ok (percentDecodeSegment_ok.mp accepted).1
  exact fun among =>
    decodes.percent_not_mem single ((mem_utf8_iff (c := '%') rfl).mpr among)

theorem decoded_ne_empty (accepted : percentDecodeSegment raw field = .ok decoded)
    (nonempty : raw ≠ "") : decoded ≠ "" := by
  have decodes := percentDecodes_of_ok (percentDecodeSegment_ok.mp accepted).1
  exact fun isEmpty =>
    decodes.ne_nil (mt Text.utf8_eq_nil.mp nonempty) (Text.utf8_eq_nil.mpr isEmpty)

/-- The two characters a path is cut at. -/
def isSeparator (c : Char) : Bool := decide (c = '/' ∨ c = '\\')

theorem isSeparator_decoded (accepted : percentDecodeSegment raw field = .ok decoded)
    (clean : ∀ c ∈ raw.toList, isSeparator c = false) :
    ∀ c ∈ decoded.toList, isSeparator c = false := by
  have decodes := percentDecodes_of_ok (percentDecodeSegment_ok.mp accepted).1
  intro c among
  rw [← Bool.not_eq_true]
  intro isSep
  have notRaw := fun isRaw => Bool.eq_false_iff.mp (clean c isRaw) isSep
  rcases of_decide_eq_true isSep with rfl | rfl
  · exact notRaw ((mem_utf8_iff rfl).mp
      (decodes.mem_of_separator (.inl rfl) ((mem_utf8_iff rfl).mpr among)))
  · exact notRaw ((mem_utf8_iff rfl).mp
      (decodes.mem_of_separator (.inr rfl) ((mem_utf8_iff rfl).mpr among)))

/-! ## Composing -/

/-- A character that composing neither makes nor takes away. -/
def isSyntax (c : Char) : Bool := decide (c = '%') || isSeparator c || isControl c

structure IsNfc (nfc : String → String) : Prop where
  again (text : String) : nfc (nfc text) = nfc text
  nonempty (text : String) : nfc text = "" → text = ""
  mem_iff (text : String) (c : Char) : isSyntax c = true → (c ∈ (nfc text).toList ↔ c ∈ text.toList)
  leads (text : String) : leadsWithSpace (nfc text) = leadsWithSpace text
  trails (text : String) : trailsWithSpace (nfc text) = trailsWithSpace text
  encoding (text : String) : containsPercentEncoding (utf8 (nfc text)) = true →
    containsPercentEncoding (utf8 text) = true

/-- No percent sign, and no white space at the ends of the path. -/
structure Settled (segments : List String) : Prop where
  percent : ∀ segment ∈ segments, '%' ∉ segment.toList
  start : ∀ first ∈ segments.head?, leadsWithSpace first = false
  stop : ∀ last ∈ segments.getLast?, trailsWithSpace last = false

/-- A segment that came out of decoding and composing. -/
structure IsSegment (nfc : String → String) (segment : String) : Prop where
  nonempty : segment ≠ ""
  composed : nfc segment = segment
  clean : ∀ c ∈ segment.toList, isSeparator c = false
  single : containsPercentEncoding (utf8 segment) = false

/-- What a path is cut into. -/
def rawSegments (value : String) : List String :=
  ((trim value).toList.splitOnP isSeparator).map String.ofList

/-- What the segments of a path are decoded to. -/
def decodedSegments (value : String) : List String :=
  (rawSegments value).filterMap fun raw => (percentDecodeSegment raw "").toOption

theorem clean_of_mem_rawSegments (among : raw ∈ rawSegments value) :
    ∀ c ∈ raw.toList, isSeparator c = false := by
  obtain ⟨piece, isPiece, rfl⟩ := mem_map.mp among
  rw [String.toList_ofList]
  exact Segments.clean_of_mem_splitOnP isPiece

section Nfc

variable {nfc : String → String} {segments : List String}

theorem settled_map_iff (isNfc : IsNfc nfc) : Settled (segments.map nfc) ↔ Settled segments := by
  have percent := fun text => isNfc.mem_iff text '%' rfl
  constructor
  · intro settled
    refine ⟨fun segment among => ?_, fun first isFirst => ?_, fun last isLast => ?_⟩
    · exact mt (percent segment).mpr (settled.percent _ (mem_map_of_mem among))
    · rw [← isNfc.leads]
      exact settled.start _ (by rw [head?_map]; exact Option.mem_map_of_mem nfc isFirst)
    · rw [← isNfc.trails]
      exact settled.stop _ (by rw [getLast?_map]; exact Option.mem_map_of_mem nfc isLast)
  · intro settled
    refine ⟨fun segment among => ?_, fun first isFirst => ?_, fun last isLast => ?_⟩
    · obtain ⟨source, isSource, rfl⟩ := mem_map.mp among
      exact mt (percent source).mp (settled.percent _ isSource)
    · rw [head?_map] at isFirst
      obtain ⟨source, isSource, rfl⟩ := Option.map_eq_some_iff.mp isFirst
      rw [isNfc.leads, settled.start _ isSource]
    · rw [getLast?_map] at isLast
      obtain ⟨source, isSource, rfl⟩ := Option.map_eq_some_iff.mp isLast
      rw [isNfc.trails, settled.stop _ isSource]

theorem isSegment_of_decoded (isNfc : IsNfc nfc) (nonempty : raw ≠ "")
    (clean : ∀ c ∈ raw.toList, isSeparator c = false)
    (accepted : percentDecodeSegment raw field = .ok decoded) : IsSegment nfc (nfc decoded) where
  nonempty isEmpty := decoded_ne_empty accepted nonempty (isNfc.nonempty _ isEmpty)
  composed := isNfc.again decoded
  clean c among := by
    cases isSep : isSeparator c with
    | false => rfl
    | true =>
      have isSource := (isNfc.mem_iff decoded c (by simp [isSyntax, isSep])).mp among
      exact isSep.symm.trans (isSeparator_decoded accepted clean c isSource)
  single := by
    rw [← Bool.not_eq_true]
    intro encoded
    exact Bool.eq_false_iff.mp (percentDecodeSegment_ok.mp accepted).2 (isNfc.encoding _ encoded)

/-! ## A path that is put together -/

theorem splitOnP_join (nonempty : segments ≠ [])
    (clean : ∀ segment ∈ segments, ∀ c ∈ segment.toList, isSeparator c = false) :
    (join '/' segments).toList.splitOnP isSeparator = segments.map String.toList := by
  rw [join, String.toList_ofList]
  refine Segments.splitOnP_intercalate rfl (by simpa using nonempty) ?_
  intro piece among
  obtain ⟨segment, isSegment, rfl⟩ := mem_map.mp among
  exact clean segment isSegment

theorem join_inj {others : List String} (nonempty : segments ≠ []) (others_nonempty : others ≠ [])
    (clean : ∀ segment ∈ segments, ∀ c ∈ segment.toList, isSeparator c = false)
    (others_clean : ∀ segment ∈ others, ∀ c ∈ segment.toList, isSeparator c = false)
    (same : join '/' segments = join '/' others) : segments = others := by
  have pieces : (join '/' segments).toList.splitOnP isSeparator =
      (join '/' others).toList.splitOnP isSeparator := by rw [same]
  rw [splitOnP_join nonempty clean, splitOnP_join others_nonempty others_clean] at pieces
  exact map_injective_iff.mpr (fun _ _ => String.toList_inj.mp) pieces

theorem exists_toList_join {first : String} {rest : List String} (nonempty : first ≠ "") :
    ∃ c more, (join '/' (first :: rest)).toList = c :: more ∧ first.toList.head? = some c := by
  have isHead := @Segments.head?_intercalate _ '/' _ (rest.map String.toList)
    (mt String.toList_eq_nil_iff.mp nonempty)
  cases chars : first.toList with
  | nil => exact absurd (String.toList_eq_nil_iff.mp chars) nonempty
  | cons c later =>
    rw [chars, head?_cons, head?_eq_some_iff] at isHead
    obtain ⟨more, isPath⟩ := isHead
    refine ⟨c, more, ?_, rfl⟩
    rw [join, String.toList_ofList, map_cons, chars, isPath]

theorem join_relative (nonempty : segments ≠ [])
    (valid : ∀ segment ∈ segments, IsSegment nfc segment) :
    join '/' segments ≠ "" ∧ startsWith (join '/' segments) "/" = false ∧
      startsWith (join '/' segments) "\\" = false := by
  obtain ⟨first, rest, rfl⟩ := exists_cons_of_ne_nil nonempty
  have isFirst := valid first mem_cons_self
  obtain ⟨c, more, isPath, isHead⟩ := @exists_toList_join _ rest isFirst.nonempty
  have clean := of_decide_eq_false (isFirst.clean c (mem_of_head? isHead))
  rw [not_or] at clean
  refine ⟨?_, ?_, ?_⟩
  · intro isEmpty
    rw [isEmpty] at isPath
    cases isPath
  · simp [startsWith, isPath, List.isPrefixOf, Ne.symm clean.1]
  · simp [startsWith, isPath, List.isPrefixOf, Ne.symm clean.2]

theorem leadsWithSpace_join {first : String} {rest : List String} (nonempty : first ≠ "") :
    leadsWithSpace (join '/' (first :: rest)) = leadsWithSpace first := by
  rw [leadsWithSpace, leadsWithSpace, join, String.toList_ofList, map_cons,
    Segments.head?_intercalate (mt String.toList_eq_nil_iff.mp nonempty)]

theorem trailsWithSpace_join {last : String} {front : List String} (nonempty : last ≠ "") :
    trailsWithSpace (join '/' (front ++ [last])) = trailsWithSpace last := by
  rw [trailsWithSpace, trailsWithSpace, join, String.toList_ofList, map_append,
    map_singleton, Segments.getLast?_intercalate (mt String.toList_eq_nil_iff.mp nonempty)]

/-- Settled segments are cut out of their path again. -/
theorem rawSegments_join (nonempty : segments ≠ [])
    (valid : ∀ segment ∈ segments, IsSegment nfc segment) (settled : Settled segments) :
    trim (join '/' segments) = join '/' segments ∧ rawSegments (join '/' segments) = segments := by
  have start : leadsWithSpace (join '/' segments) = false := by
    obtain ⟨first, rest, rfl⟩ := exists_cons_of_ne_nil nonempty
    rw [leadsWithSpace_join (valid _ mem_cons_self).nonempty]
    exact settled.start first rfl
  have stop : trailsWithSpace (join '/' segments) = false := by
    obtain ⟨front, last, isConcat⟩ := eq_nil_or_concat segments |>.resolve_left nonempty
    rw [concat_eq_append] at isConcat
    subst isConcat
    rw [trailsWithSpace_join (valid _ (by simp)).nonempty]
    exact settled.stop last (by simp)
  have trimmed := trim_of_ends start stop
  refine ⟨trimmed, ?_⟩
  rw [rawSegments, trimmed, splitOnP_join nonempty fun segment among => (valid segment among).clean,
    map_map]
  simp [Function.comp_def]

/-- No percent sign is left in a segment of a path whose segments are decoded already. -/
theorem percent_not_mem_of_again (nonempty : segments ≠ [])
    (valid : ∀ segment ∈ segments, IsSegment nfc segment)
    (among : raw ∈ rawSegments (join '/' segments))
    (accepted : percentDecodeSegment raw field = .ok decoded) : '%' ∉ raw.toList := by
  obtain ⟨piece, isPiece, rfl⟩ := mem_map.mp among
  obtain ⟨whole, isWhole, within⟩ := Segments.infix_of_mem_splitOnP (Text.trim_infix _) isPiece
  rw [splitOnP_join nonempty fun segment among => (valid segment among).clean] at isWhole
  obtain ⟨segment, isSegment, rfl⟩ := mem_map.mp isWhole
  refine percent_not_mem_of_decoded accepted ?_
  rw [← Bool.not_eq_true]
  intro encoded
  have inSegment := containsPercentEncoding_of_part (Text.utf8_infix within) encoded
  rw [String.ofList_toList] at inSegment
  exact Bool.eq_false_iff.mp (valid segment isSegment).single inSegment

theorem leadsWithSpace_rawSegments : ∀ first ∈ (rawSegments value).head?,
    leadsWithSpace first = false := by
  intro first isFirst
  obtain ⟨rest, cut⟩ := Segments.exists_splitOnP_eq_cons isSeparator (trim value).toList
  rw [rawSegments, cut, map_cons, head?_cons, Option.mem_some_iff] at isFirst
  have trimmed := leadsWithSpace_trim value
  rw [← isFirst, leadsWithSpace, String.toList_ofList]
  rw [leadsWithSpace] at trimmed
  cases chars : (trim value).toList with
  | nil => rfl
  | cons c rest =>
    rw [chars] at trimmed
    rw [takeWhile_cons]
    split
    · exact trimmed
    · rfl

theorem trailsWithSpace_rawSegments : ∀ last ∈ (rawSegments value).getLast?,
    trailsWithSpace last = false := by
  intro last isLast
  obtain ⟨front, cut⟩ := Segments.exists_splitOnP_eq_concat isSeparator (trim value).toList
  rw [rawSegments, cut, map_append, map_singleton, getLast?_concat, Option.mem_some_iff] at isLast
  have trimmed := trailsWithSpace_trim value
  rw [← isLast, trailsWithSpace, String.toList_ofList]
  rw [trailsWithSpace] at trimmed
  rcases eq_nil_or_concat (trim value).toList with chars | ⟨init, c, chars⟩
  · rw [chars]
    rfl
  · rw [chars, concat_eq_append] at trimmed ⊢
    by_cases isSep : isSeparator c = true
    · rw [rtakeWhile_concat_neg _ _ _ (by simp [isSep])]
      rfl
    · rw [rtakeWhile_concat_pos _ _ _ (by simp [isSep])]
      simpa using trimmed

/-- A second pass that ends where the first ended found settled segments. -/
theorem settled_of_again (isNfc : IsNfc nfc) (nonempty : segments ≠ [])
    (valid : ∀ segment ∈ segments, IsSegment nfc segment) {decodeds : List String}
    (related : List.Forall₂ (fun raw decoded => percentDecodeSegment raw field = .ok decoded)
      (rawSegments (join '/' segments)) decodeds)
    (same : decodeds.map nfc = segments) : Settled segments := by
  have plain : ∀ raw ∈ rawSegments (join '/' segments), '%' ∉ raw.toList := by
    intro raw among
    obtain ⟨decoded, -, accepted⟩ := mapM_ok_left (mapM_ok_iff.mpr related) among
    exact percent_not_mem_of_again nonempty valid among accepted
  have isRaw : decodeds = rawSegments (join '/' segments) := by
    have unchanged : List.Forall₂ Eq (rawSegments (join '/' segments)) decodeds := by
      refine ((forall₂_and_left _ _).mpr ⟨plain, related⟩).imp ?_
      rintro raw decoded ⟨absent, accepted⟩
      rw [percentDecodeSegment_of_not_mem absent] at accepted
      exact Except.ok.inj accepted
    rw [forall₂_eq_eq_eq] at unchanged
    exact unchanged.symm
  rw [← same, settled_map_iff isNfc, isRaw]
  exact ⟨plain, leadsWithSpace_rawSegments, trailsWithSpace_rawSegments⟩

theorem decodedSegments_of_forall₂ {decodeds : List String}
    (related : List.Forall₂ (fun raw decoded => percentDecodeSegment raw field = .ok decoded)
      (rawSegments value) decodeds) : decodedSegments value = decodeds := by
  rw [decodedSegments]
  generalize rawSegments value = raws at related
  induction related with
  | nil => rfl
  | cons isFirst _ ih =>
    have accepted : percentDecodeSegment _ "" = .ok _ :=
      percentDecodeSegment_ok.mpr (percentDecodeSegment_ok.mp isFirst)
    rw [filterMap_cons, accepted, ih]
    rfl

end Nfc

/-! ## The first pass -/

section Crates

variable {crates : Crates} {path : String}

structure IsSafeSegment (nfc : String → String) (segment : String) : Prop where
  nonempty : segment ≠ ""
  composed : nfc segment = segment
  notDot : segment ≠ "." ∧ segment ≠ ".."
  notReserved : isReservedFilename segment = false
  clean : ∀ c ∈ segment.toList, c ≠ '/' ∧ c ≠ '\\' ∧ isControl c = false

/-- Segments joined by slashes, at least one. -/
def IsSafePath (nfc : String → String) (path : String) : Prop :=
  path ≠ "" ∧ ∃ segments, segments ≠ [] ∧ path = join '/' segments ∧
    ∀ segment ∈ segments, IsSafeSegment nfc segment

theorem normalizeSegment_ok : normalizeSegment crates raw field = .ok segment ↔
    raw ≠ "" ∧ ∃ decoded, percentDecodeSegment raw field = .ok decoded ∧
      segment = crates.nfc decoded ∧ segment ≠ "." ∧ segment ≠ ".." ∧
      isReservedFilename segment = false ∧ segment.toList.any isControl = false := by
  constructor
  · intro accepted
    simp only [normalizeSegment, bind, Except.bind, pure, Except.pure] at accepted
    split_ifs at accepted with isEmpty
    cases isDecoded : percentDecodeSegment raw field with
    | error error => rw [isDecoded] at accepted; cases accepted
    | ok decoded =>
      rw [isDecoded] at accepted
      simp only at accepted
      split_ifs at accepted with isDot isReserved hasControl
      cases accepted
      rw [not_or] at isDot
      exact ⟨isEmpty, decoded, rfl, rfl, isDot.1, isDot.2, Bool.eq_false_iff.mpr isReserved,
        Bool.eq_false_iff.mpr hasControl⟩
  · rintro ⟨nonempty, decoded, isDecoded, rfl, notDot, notDots, notReserved, noControl⟩
    simp only [normalizeSegment, bind, Except.bind, pure, Except.pure, if_neg nonempty, isDecoded,
      if_neg (not_or.mpr ⟨notDot, notDots⟩), notReserved, noControl, Bool.false_eq_true, if_false]

theorem validated_ok : validateSafeVaultRelativePath crates value field = .ok path ↔
    trim value ≠ "" ∧
      (startsWith (trim value) "/" = false ∧
        startsWith (trim value) "\\" = false ∧
        hasWindowsDrivePrefix (trim value).toList = false) ∧
      (trim value).toList.any isControl = false ∧
      ∃ segments, List.Forall₂ (fun raw segment => normalizeSegment crates raw field = .ok segment)
        (rawSegments value) segments ∧ path = join '/' segments := by
  constructor
  · intro accepted
    simp only [validateSafeVaultRelativePath] at accepted
    simp only [bind, Except.bind, pure, Except.pure] at accepted
    split_ifs at accepted with isEmpty isAbsolute hasControl
    split at accepted
    · cases accepted
    · rename_i segments ran
      cases accepted
      simp only [not_or, Bool.not_eq_true] at isAbsolute hasControl
      exact ⟨isEmpty, isAbsolute, hasControl, segments, mapM_ok_iff.mp ran, rfl⟩
  · rintro ⟨nonempty, relative, noControl, segments, related, rfl⟩
    have ran := mapM_ok_iff.mpr related
    rw [rawSegments] at ran
    simp only [validateSafeVaultRelativePath, bind, Except.bind, pure, Except.pure,
      if_neg nonempty, relative, noControl, Bool.false_eq_true, or_self, if_false]
    unfold isSeparator at ran
    rw [ran]

/-- The segments of a returned path are the decoded ones, composed. -/
theorem exists_decoded {raws segments : List String}
    (related : List.Forall₂ (fun raw segment => normalizeSegment crates raw field = .ok segment)
      raws segments) :
    ∃ decodeds, List.Forall₂ (fun raw decoded => percentDecodeSegment raw field = .ok decoded)
      raws decodeds ∧ decodeds.map crates.nfc = segments := by
  induction related with
  | nil => exact ⟨[], .nil, rfl⟩
  | cons isFirst _ ih =>
    obtain ⟨decodeds, decoding, rfl⟩ := ih
    obtain ⟨-, decoded, isDecoded, rfl, -⟩ := normalizeSegment_ok.mp isFirst
    exact ⟨decoded :: decodeds, .cons isDecoded decoding, rfl⟩

theorem valid_of_related (isNfc : IsNfc crates.nfc) {segments : List String}
    (related : List.Forall₂ (fun raw segment => normalizeSegment crates raw field = .ok segment)
      (rawSegments value) segments) :
    segments ≠ [] ∧ ∀ segment ∈ segments,
      IsSegment crates.nfc segment ∧ IsSafeSegment crates.nfc segment := by
  constructor
  · rintro rfl
    have none := List.forall₂_nil_right_iff.mp related
    rw [rawSegments, map_eq_nil_iff] at none
    exact splitOnP_ne_nil _ _ none
  · intro segment among
    obtain ⟨raw, isRaw, isSegment⟩ := mapM_ok_right (mapM_ok_iff.mpr related) among
    obtain ⟨nonempty, decoded, isDecoded, isComposed, notDot, notDots, notReserved, noControl⟩ :=
      normalizeSegment_ok.mp isSegment
    have isValid : IsSegment crates.nfc segment := by
      rw [isComposed]
      exact isSegment_of_decoded isNfc nonempty (clean_of_mem_rawSegments isRaw) isDecoded
    refine ⟨isValid, isValid.nonempty, isValid.composed, ⟨notDot, notDots⟩, notReserved,
      fun c within => ?_⟩
    have clean := of_decide_eq_false (isValid.clean c within)
    rw [not_or] at clean
    rw [any_eq_false] at noControl
    exact ⟨clean.1, clean.2, Bool.eq_false_iff.mpr (noControl c within)⟩

/-- A path of settled safe segments is accepted as it is. -/
theorem validated_of_settled {segments : List String} (nonempty : segments ≠ [])
    (valid : ∀ segment ∈ segments, IsSegment crates.nfc segment ∧ IsSafeSegment crates.nfc segment)
    (settled : Settled segments) :
    validateSafeVaultRelativePath crates (join '/' segments) field = .ok (join '/' segments) := by
  have safe := fun segment among => (valid segment among).2
  obtain ⟨trimmed, cut⟩ :=
    rawSegments_join nonempty (fun segment among => (valid segment among).1) settled
  have clean : ∀ c ∈ (join '/' segments).toList, c ≠ '\\' ∧ isControl c = false := by
    intro c among
    rw [join, String.toList_ofList] at among
    rcases Segments.mem_intercalate among with rfl | ⟨piece, isPiece, within⟩
    · exact ⟨by decide, rfl⟩
    · obtain ⟨segment, isSegment, rfl⟩ := mem_map.mp isPiece
      exact ((safe segment isSegment).clean c within).2
  obtain ⟨isPath, notSlash, notBackslash⟩ :=
    join_relative nonempty fun segment among => (valid segment among).1
  refine validated_ok.mpr ?_
  rw [trimmed, cut]
  refine ⟨isPath, ⟨notSlash, notBackslash, ?_⟩, ?_, segments, List.forall₂_same.mpr ?_, rfl⟩
  · rw [← Bool.not_eq_true]
    unfold hasWindowsDrivePrefix
    split
    · rename_i third more isDrive
      have within : '\\' ∈ (join '/' segments).toList := by
        rw [isDrive]
        simp
      exact absurd rfl (clean _ within).1
    · exact Bool.false_ne_true
  · rw [any_eq_false]
    exact fun c among => Bool.eq_false_iff.mp (clean c among).2
  · intro segment among
    have isSafe := safe segment among
    refine normalizeSegment_ok.mpr ⟨isSafe.nonempty, segment,
      percentDecodeSegment_of_not_mem (settled.percent segment among), isSafe.composed.symm,
      isSafe.notDot.1, isSafe.notDot.2, isSafe.notReserved, ?_⟩
    rw [any_eq_false]
    exact fun c within => Bool.eq_false_iff.mp (isSafe.clean c within).2.2

/-- A returned path is safe, and it is accepted unchanged again exactly when what the segments
were decoded to is settled. -/
theorem validated_again_iff (isNfc : IsNfc crates.nfc) {later : String}
    (accepted : validateSafeVaultRelativePath crates value field = .ok path) :
    IsSafePath crates.nfc path ∧
      (validateSafeVaultRelativePath crates path later = .ok path ↔
        Settled (decodedSegments value)) := by
  obtain ⟨-, -, -, segments, related, rfl⟩ := validated_ok.mp accepted
  obtain ⟨decodeds, decoding, isNormal⟩ := exists_decoded related
  obtain ⟨nonempty, valid⟩ := valid_of_related isNfc related
  have isSegment := fun segment among => (valid segment among).1
  rw [decodedSegments_of_forall₂ decoding, ← settled_map_iff isNfc, isNormal]
  refine ⟨⟨(join_relative nonempty isSegment).1, segments, nonempty, rfl,
    fun segment among => (valid segment among).2⟩, fun again => ?_,
    validated_of_settled nonempty valid⟩
  obtain ⟨-, -, -, others, relatedAgain, same⟩ := validated_ok.mp again
  obtain ⟨othersNonempty, othersValid⟩ := valid_of_related isNfc relatedAgain
  have isSame := join_inj nonempty othersNonempty
    (fun segment among => (isSegment segment among).clean)
    (fun segment among => (othersValid segment among).1.clean) same
  obtain ⟨decodedsAgain, decodingAgain, isNormalAgain⟩ := exists_decoded relatedAgain
  exact settled_of_again isNfc nonempty isSegment decodingAgain (isNormalAgain.trans isSame.symm)

end Crates

end Kuku.Knowledge
