import MuniRag.Embeddings.Indexer
import MuniRag.Lib.Segments

/-!
# When the identity of a chunk tells it apart

The string that is hashed joins ten fields with bars and the titles of the section path with
slashes, and escapes nothing.  `identity_iff` says exactly which chunks share their string with
no chunk of other fields: the chunks of a nested section always do.
-/

namespace Embeddings

open Documents

/-- What the hashed string is built from. -/
@[ext]
structure IdentityFields (ν : Type) where
  documentKey : JsString
  documentVersion : JsString
  sectionPath : List JsString
  sectionType : SectionType
  citationLabel : JsString
  pageStart : Option ν
  pageEnd : Option ν
  articleNumber : JsString
  contentSha256 : JsString
  chunkOrdinal : Nat

section Identity

variable {ν : Type} (numbers : Json.NumberText ν) (sha256Hex : JsString → JsString)

def EmbeddingChunk.identityFields (chunk : EmbeddingChunk ν) : IdentityFields ν where
  documentKey := chunk.source.documentKey
  documentVersion := chunk.source.documentVersion
  sectionPath := chunk.source.sectionPath
  sectionType := chunk.source.sectionType
  citationLabel := chunk.source.citationLabel.getD []
  pageStart := chunk.source.pageStart
  pageEnd := chunk.source.pageEnd
  articleNumber := chunk.source.articleNumber.getD []
  contentSha256 := chunk.contentSha256
  chunkOrdinal := chunk.chunkOrdinal

/-- The string that `buildChunkId` hashes for the chunk. -/
def EmbeddingChunk.identityInput (chunk : EmbeddingChunk ν) : JsString :=
  buildChunkIdentityInput numbers chunk.source chunk.contentSha256 chunk.chunkOrdinal

/-- The chunk is in the plan of some document. -/
def Planned (chunk : EmbeddingChunk ν) : Prop :=
  ∃ document input options maxChunks chunks,
    planChunks numbers sha256Hex document input options maxChunks = .ok chunks ∧ chunk ∈ chunks

/-! ## Readings of a string -/

/-- The segment can be a page, or the blank for none. -/
def PageSlot (segment : JsString) : Prop :=
  ∃ page : Option ν, numberOrEmpty numbers page = segment

/-- The segment can be a section type. -/
def TypeSlot (segment : JsString) : Prop := ∃ sectionType : SectionType, sectionType.text = segment

/-- The segments between the section type and the digest. -/
def tailSegments (fields : IdentityFields ν) : List JsString :=
  fields.citationLabel.splitOn 0x7c ++ [numberOrEmpty numbers fields.pageStart,
    numberOrEmpty numbers fields.pageEnd] ++ fields.articleNumber.splitOn 0x7c

/-- The string can be read in one way only. -/
structure Unmistakable (fields : IdentityFields ν) : Prop where
  documentKey : 0x7c ∉ fields.documentKey
  documentVersion : 0x7c ∉ fields.documentVersion
  sectionPath : ∃ title, fields.sectionPath = [title] ∧ title ≠ [] ∧ 0x2f ∉ title ∧ 0x7c ∉ title
  /-- The pages are where they can only be. -/
  pages : ∀ label first last article,
    tailSegments numbers fields = label ++ [first, last] ++ article → label ≠ [] → article ≠ [] →
      PageSlot numbers first → PageSlot numbers last → label = fields.citationLabel.splitOn 0x7c
  /-- No later segment can be the section type. -/
  sectionType : ∀ before type label first last article,
    tailSegments numbers fields = before ++ [type] ++ label ++ [first, last] ++ article →
      TypeSlot type → label ≠ [] → article ≠ [] → PageSlot numbers first →
        ¬ PageSlot numbers last

variable {numbers sha256Hex} {chunk other : EmbeddingChunk ν} {fields : IdentityFields ν}

/-- A label and an article number without bars leave one reading of the tail. -/
theorem tail_of_noBars (hlabel : 0x7c ∉ fields.citationLabel)
    (harticle : 0x7c ∉ fields.articleNumber) :
    (tailSegments numbers fields).length = 4 := by
  rw [tailSegments, List.splitOn_eq_singleton hlabel, List.splitOn_eq_singleton harticle]
  rfl

/-! ## Segments of the hashed string -/

theorem typeText_noBar (sectionType : SectionType) : 0x7c ∉ sectionType.text := by
  cases sectionType <;> decide

theorem typeText_injective {a b : SectionType} (h : a.text = b.text) : a = b := by
  revert h
  cases a <;> cases b <;> decide

theorem page_noBar (page : Option ν) : 0x7c ∉ numberOrEmpty numbers page := by
  cases page with
  | none => exact List.not_mem_nil
  | some n => exact fun h => absurd (numbers.units n _ h) (by decide)

theorem page_injective {a b : Option ν}
    (h : numberOrEmpty numbers a = numberOrEmpty numbers b) : a = b := by
  cases a with
  | none =>
      cases b with
      | none => rfl
      | some n => exact absurd h.symm (numbers.nonempty n)
  | some m =>
      cases b with
      | none => exact absurd h (numbers.nonempty m)
      | some n => exact congrArg some (numbers.injective h)

theorem ordinal_noBar (n : Int) : 0x7c ∉ Api.numberText n := by
  intro h
  rcases Api.mem_numberText h with hdigit | hsign
  · exact absurd hdigit (by decide)
  · exact absurd hsign (by decide)

/-- The segments in front of the tail. -/
def headSegments (fields : IdentityFields ν) : List JsString :=
  fields.documentKey.splitOn 0x7c ++ fields.documentVersion.splitOn 0x7c ++
    ((js "/").intercalate fields.sectionPath).splitOn 0x7c

theorem splitOn_identityInput (hdigest : 0x7c ∉ chunk.contentSha256) :
    (chunk.identityInput numbers).splitOn 0x7c = headSegments chunk.identityFields ++
      [chunk.source.sectionType.text] ++ tailSegments numbers chunk.identityFields ++
        [chunk.contentSha256, Api.numberText chunk.chunkOrdinal] := by
  have hbar : js "|" = [0x7c] := by decide
  rw [EmbeddingChunk.identityInput, buildChunkIdentityInput, hbar,
    Segments.splitOn_intercalate_fields (List.cons_ne_nil _ _)]
  simp only [List.flatMap_cons, List.flatMap_nil, List.append_nil,
    List.splitOn_eq_singleton (typeText_noBar _), List.splitOn_eq_singleton (page_noBar _),
    List.splitOn_eq_singleton hdigest, List.splitOn_eq_singleton (ordinal_noBar _),
    headSegments, tailSegments, EmbeddingChunk.identityFields, List.append_assoc,
    List.cons_append, List.nil_append]

/-! ## Plans of other documents -/

theorem planChunks_ok {document : NormalizedDocument ν} {input : PlanChunksInput}
    {options : ChunkPlannerOptions} {maxChunks : Int} {chunks : List (EmbeddingChunk ν)}
    (h : planChunks numbers sha256Hex document input options maxChunks = .ok chunks) :
    ValidPolicy options ∧ 1 ≤ maxChunks ∧ maxChunks ≤ maxSafeInteger := by
  unfold planChunks at h
  cases hpolicy : assertPlannerOptions options with
  | error error =>
      rw [hpolicy] at h
      cases h
  | ok _ =>
      rw [hpolicy] at h
      by_cases hbounds : maxChunks < 1 ∨ maxChunks > maxSafeInteger
      · simp only [if_pos hbounds] at h
        cases h
      · unfold assertPlannerOptions at hpolicy
        split_ifs at hpolicy with hmax hoverlap
        exact ⟨⟨by omega, by omega⟩, by omega, by omega⟩

/-- A chunk of a plan with its place. -/
theorem mem_chunksFrom {document : NormalizedDocument ν} {input : PlanChunksInput}
    {planned : List (NormalizedSection ν × JsString)} {first : Nat} :
    chunk ∈ chunksFrom numbers sha256Hex document input first planned ↔
      ∃ i entry text, planned[i]? = some (entry, text) ∧
        chunk = chunkOf numbers sha256Hex document entry input text (first + i) := by
  induction planned generalizing first with
  | nil => simp [chunksFrom]
  | cons head planned ih =>
      rw [chunksFrom, List.mem_cons, ih]
      constructor
      · rintro (rfl | ⟨i, entry, text, hi, rfl⟩)
        · exact ⟨0, head.1, head.2, rfl, rfl⟩
        · exact ⟨i + 1, entry, text, hi, by rw [Nat.add_assoc, Nat.add_comm 1]⟩
      · rintro ⟨i, entry, text, hi, rfl⟩
        cases i with
        | zero =>
            obtain rfl := Option.some.inj hi
            exact .inl rfl
        | succ i => exact .inr ⟨i, entry, text, hi, by rw [Nat.add_assoc, Nat.add_comm 1]⟩

theorem take_chunksFrom {document : NormalizedDocument ν} {input : PlanChunksInput}
    {planned : List (NormalizedSection ν × JsString)} {first : Nat} (n : Nat) :
    (chunksFrom numbers sha256Hex document input first planned).take n =
      chunksFrom numbers sha256Hex document input first (planned.take n) := by
  induction planned generalizing first n with
  | nil => simp [chunksFrom]
  | cons head planned ih =>
      cases n with
      | zero => rfl
      | succ n =>
          rw [List.take_succ_cons, chunksFrom, chunksFrom, List.take_succ_cons, ih]

/-- **Other fields.**  The fields of a section and the keys of the document can be anything
else: the same texts are planned with the same ordinals. -/
theorem Planned.retarget (h : Planned numbers sha256Hex chunk) (input' : PlanChunksInput)
    (change : NormalizedSection ν → NormalizedSection ν)
    (htext : ∀ entry, (change entry).text = entry.text) :
    ∃ other document entry, Planned numbers sha256Hex other ∧
      other.source = sourceFromSection document (change entry) input' ∧
      other.contentSha256 = chunk.contentSha256 ∧ other.chunkOrdinal = chunk.chunkOrdinal := by
  obtain ⟨document, input, options, maxChunks, chunks, hplan, hmem⟩ := h
  obtain ⟨hpolicy, hpos, hsafe⟩ := planChunks_ok hplan
  rw [planChunks_eq hpolicy hpos hsafe] at hplan
  obtain rfl := Except.ok.inj hplan
  rw [fullPlan, take_chunksFrom, mem_chunksFrom] at hmem
  obtain ⟨i, entry, text, hi, rfl⟩ := hmem
  let document' : NormalizedDocument ν := { document with sections := document.sections.map change }
  have hsame : ∀ entry, sectionTexts options.maxChars.toNat options.overlapChars.toNat
      (change entry) = sectionTexts options.maxChars.toNat options.overlapChars.toNat entry := by
    intro entry
    rw [sectionTexts, sectionTexts, htext]
  have hplanned : (document'.sections.flatMap fun entry =>
      (sectionTexts options.maxChars.toNat options.overlapChars.toNat entry).map fun text =>
        (entry, text)) = (document.sections.flatMap fun entry =>
          (sectionTexts options.maxChars.toNat options.overlapChars.toNat entry).map fun text =>
            (entry, text)).map fun planned => (change planned.1, planned.2) := by
    rw [List.flatMap_map, List.map_flatMap]
    refine List.flatMap_congr fun entry _ => ?_
    rw [hsame, List.map_map]
    rfl
  refine ⟨chunkOf numbers sha256Hex document' (change entry) input' text (1 + i), document', entry,
    ⟨document', input', options, maxChunks, _, planChunks_eq hpolicy hpos hsafe, ?_⟩, rfl, rfl, rfl⟩
  rw [fullPlan, take_chunksFrom, mem_chunksFrom, hplanned]
  refine ⟨i, change entry, text, ?_, rfl⟩
  rw [length_chunksFrom] at hi ⊢
  rw [List.length_map, ← List.map_take, List.getElem?_map, hi]
  rfl

theorem Planned.digest (h : Planned numbers sha256Hex chunk) :
    ∃ text, chunk.contentSha256 = sha256Hex text := by
  obtain ⟨document, input, options, maxChunks, chunks, hplan, hmem⟩ := h
  obtain ⟨hpolicy, hpos, hsafe⟩ := planChunks_ok hplan
  rw [planChunks_eq hpolicy hpos hsafe] at hplan
  obtain rfl := Except.ok.inj hplan
  obtain ⟨i, entry, text, -, rfl⟩ := mem_chunksFrom.mp (List.mem_of_mem_take hmem)
  exact ⟨text, rfl⟩

/-! ## The string as a text of the fields -/

/-- The tail between its bars. -/
theorem intercalate_tail : [0x7c].intercalate (tailSegments numbers fields) =
    fields.citationLabel ++ 0x7c :: (numberOrEmpty numbers fields.pageStart ++ 0x7c ::
      (numberOrEmpty numbers fields.pageEnd ++ 0x7c :: fields.articleNumber)) := by
  have hlabel : fields.citationLabel.splitOn 0x7c ≠ [] := List.splitOn_ne_nil _ _
  have harticle : fields.articleNumber.splitOn 0x7c ≠ [] := List.splitOn_ne_nil _ _
  rw [tailSegments, Segments.intercalate_append (by simp) harticle,
    Segments.intercalate_append hlabel (List.cons_ne_nil _ _), List.intercalate_splitOn,
    List.intercalate_splitOn, Segments.intercalate_cons (List.cons_ne_nil _ _),
    List.intercalate_singleton]
  simp only [List.append_assoc, List.cons_append]

/-- The string, with the tail in one piece. -/
def IdentityFields.input (numbers : Json.NumberText ν) (fields : IdentityFields ν) : JsString :=
  fields.documentKey ++ 0x7c :: (fields.documentVersion ++ 0x7c ::
    ((js "/").intercalate fields.sectionPath ++ 0x7c :: (fields.sectionType.text ++ 0x7c ::
      ([0x7c].intercalate (tailSegments numbers fields) ++ 0x7c ::
        (fields.contentSha256 ++ 0x7c :: Api.numberText fields.chunkOrdinal)))))

theorem identityInput_eq (chunk : EmbeddingChunk ν) :
    chunk.identityInput numbers = chunk.identityFields.input numbers := by
  have hbar : js "|" = [0x7c] := by decide
  rw [IdentityFields.input, intercalate_tail, EmbeddingChunk.identityInput,
    buildChunkIdentityInput, hbar]
  repeat rw [Segments.intercalate_cons (List.cons_ne_nil _ _)]
  rw [List.intercalate_singleton]
  simp only [EmbeddingChunk.identityFields, List.append_assoc, List.cons_append]

/-- Fields with the digest and the ordinal of a planned chunk are those of a planned chunk. -/
theorem Planned.exists_other (h : Planned numbers sha256Hex chunk)
    (hdigest : fields.contentSha256 = chunk.contentSha256)
    (hordinal : fields.chunkOrdinal = chunk.chunkOrdinal) :
    ∃ other, Planned numbers sha256Hex other ∧ other.identityFields = fields := by
  obtain ⟨other, document, entry, hplanned, hsource, hdigest', hordinal'⟩ := h.retarget
    ⟨fields.documentKey, fields.documentVersion⟩ (fun entry =>
      { entry with
        sectionPath := fields.sectionPath
        sectionType := fields.sectionType
        citationLabel := some fields.citationLabel
        pageStart := fields.pageStart
        pageEnd := fields.pageEnd
        articleNumber := some fields.articleNumber }) fun _ => rfl
  refine ⟨other, hplanned, ?_⟩
  rw [EmbeddingChunk.identityFields, hsource, hdigest', hordinal', ← hdigest, ← hordinal]
  rfl

/-! ## One reading -/

theorem headSegments_shape (fields : IdentityFields ν) :
    ∃ key version path rest, headSegments fields = key :: version :: path :: rest ∧
      (rest = [] → fields.documentKey = key ∧ fields.documentVersion = version ∧
        (js "/").intercalate fields.sectionPath = path) := by
  obtain ⟨key, keys, hkeys⟩ :=
    List.exists_cons_of_ne_nil (List.splitOn_ne_nil 0x7c fields.documentKey)
  obtain ⟨version, versions, hversions⟩ :=
    List.exists_cons_of_ne_nil (List.splitOn_ne_nil 0x7c fields.documentVersion)
  obtain ⟨path, paths, hpaths⟩ := List.exists_cons_of_ne_nil
    (List.splitOn_ne_nil 0x7c ((js "/").intercalate fields.sectionPath))
  rw [headSegments, hkeys, hversions, hpaths]
  cases keys with
  | nil =>
      cases versions with
      | nil =>
          refine ⟨key, version, path, paths, rfl, ?_⟩
          rintro rfl
          exact ⟨(Segments.splitOn_eq_singleton_iff.mp hkeys).1,
            (Segments.splitOn_eq_singleton_iff.mp hversions).1,
            (Segments.splitOn_eq_singleton_iff.mp hpaths).1⟩
      | cons next versions =>
          exact ⟨key, version, next, versions ++ path :: paths, rfl, fun h => by simp at h⟩
  | cons next keys =>
      cases keys with
      | nil => exact ⟨key, next, version, versions ++ path :: paths, rfl, fun h => by simp at h⟩
      | cons third keys =>
          exact ⟨key, next, third, keys ++ version :: (versions ++ path :: paths), by simp,
            fun h => by simp at h⟩

theorem path_of_title {path : List JsString} {title : JsString}
    (h : (js "/").intercalate path = title) (hne : title ≠ []) (hslash : 0x2f ∉ title) :
    path = [title] := by
  have hsep : js "/" = [0x2f] := by decide
  rw [hsep] at h
  cases path with
  | nil => exact absurd h.symm hne
  | cons first rest =>
      cases rest with
      | nil =>
          rw [List.intercalate_singleton] at h
          rw [h]
      | cons next rest =>
          refine absurd ?_ hslash
          rw [← h]
          exact Segments.mem_intercalate (List.cons_ne_nil _ _) (by simp)

/-- A string that can be read in one way only is that of its fields. -/
theorem Unmistakable.fields_eq (h : Unmistakable numbers chunk.identityFields)
    (hdigest : 0x7c ∉ chunk.contentSha256) (hdigest' : 0x7c ∉ other.contentSha256)
    (hsame : other.identityInput numbers = chunk.identityInput numbers) :
    other.identityFields = chunk.identityFields := by
  have hsegments := congrArg (List.splitOn 0x7c) hsame
  rw [splitOn_identityInput hdigest, splitOn_identityInput hdigest'] at hsegments
  obtain ⟨hfront, hend⟩ := List.append_inj' hsegments rfl
  obtain ⟨hdigests, hordinals⟩ := List.cons.inj hend
  have hordinal := Api.numberText_injective (List.cons.inj hordinals).1
  -- The segments of the chunk in front of its tail.
  obtain ⟨title, hpath, hne, hslash, hbar⟩ := h.sectionPath
  have hsep : js "/" = [0x2f] := by decide
  have hhead : headSegments chunk.identityFields =
      [chunk.identityFields.documentKey, chunk.identityFields.documentVersion, title] := by
    rw [headSegments, List.splitOn_eq_singleton h.documentKey,
      List.splitOn_eq_singleton h.documentVersion, hpath, hsep, List.intercalate_singleton,
      List.splitOn_eq_singleton hbar]
    rfl
  obtain ⟨key, version, path, rest, hother, hexact⟩ := headSegments_shape other.identityFields
  have hlabel : other.identityFields.citationLabel.splitOn 0x7c ≠ [] := List.splitOn_ne_nil _ _
  have harticle : other.identityFields.articleNumber.splitOn 0x7c ≠ [] := List.splitOn_ne_nil _ _
  rw [hhead, hother] at hfront
  simp only [List.cons_append, List.nil_append, List.append_assoc, List.cons.injEq] at hfront
  obtain ⟨hkey, hversion, htitle, htail⟩ := hfront
  cases rest with
  | cons next rest =>
      simp only [List.cons_append, List.cons.injEq] at htail
      obtain ⟨-, htail⟩ := htail
      refine absurd ⟨other.identityFields.pageEnd, rfl⟩ (h.sectionType rest
        other.source.sectionType.text _ _ _ _ ?_ ⟨_, rfl⟩ hlabel harticle
          ⟨other.identityFields.pageStart, rfl⟩)
      rw [← htail, tailSegments]
      simp only [List.append_assoc, List.cons_append, List.nil_append]
  | nil =>
      simp only [List.nil_append, List.cons.injEq] at htail
      obtain ⟨htype, htail⟩ := htail
      obtain ⟨hkey', hversion', hpath'⟩ := hexact rfl
      have hlabels := h.pages _ _ _ _ htail.symm hlabel harticle
        ⟨other.identityFields.pageStart, rfl⟩ ⟨other.identityFields.pageEnd, rfl⟩
      have hrest := htail
      rw [tailSegments, tailSegments, hlabels, List.append_assoc, List.append_assoc,
        List.append_right_inj] at hrest
      simp only [List.cons_append, List.nil_append, List.cons.injEq] at hrest
      obtain ⟨hstart, hstop, harticles⟩ := hrest
      have hjoin : ∀ {a b : JsString}, a.splitOn 0x7c = b.splitOn 0x7c → a = b := by
        intro a b hab
        have hjoined := @List.intercalate_splitOn _ a _ _ (0x7c : UInt16)
        rw [← hjoined, hab, List.intercalate_splitOn]
      have hpaths : other.identityFields.sectionPath = chunk.identityFields.sectionPath := by
        rw [hpath]
        exact path_of_title (hpath'.trans htitle) hne hslash
      exact IdentityFields.ext (hkey'.trans hkey) (hversion'.trans hversion) hpaths
        (typeText_injective htype) (hjoin hlabels) (page_injective hstart) (page_injective hstop)
        (hjoin harticles) hdigests (Int.ofNat.inj hordinal)

/-! ## Other readings -/

/-- Every other reading of the string of a planned chunk is that of a planned chunk. -/
theorem Planned.fields_eq (h : Planned numbers sha256Hex chunk)
    (hinjective : ∀ other, Planned numbers sha256Hex other →
      other.identityInput numbers = chunk.identityInput numbers →
        other.identityFields = chunk.identityFields)
    (hdigest : fields.contentSha256 = chunk.contentSha256)
    (hordinal : fields.chunkOrdinal = chunk.chunkOrdinal)
    (hinput : fields.input numbers = chunk.identityFields.input numbers) :
    fields = chunk.identityFields := by
  obtain ⟨other, hplanned, hfields⟩ := h.exists_other hdigest hordinal
  rw [← hfields]
  refine hinjective other hplanned ?_
  rw [identityInput_eq, identityInput_eq, hfields, hinput]

theorem length_ne_of_bar {a b : JsString} : a ≠ a ++ 0x7c :: b := by
  intro h
  have hlength := congrArg List.length h
  rw [List.length_append, List.length_cons] at hlength
  omega

theorem mem_tail_noBar {segment : JsString} (h : segment ∈ tailSegments numbers fields) :
    0x7c ∉ segment := by
  rw [tailSegments, List.append_assoc] at h
  rcases List.mem_append.mp h with h | h
  · exact Segments.not_mem_of_mem_splitOn h
  · rcases List.mem_append.mp h with h | h
    · rcases List.mem_cons.mp h with rfl | h
      · exact page_noBar _
      · rw [List.mem_singleton.mp h]
        exact page_noBar _
    · exact Segments.not_mem_of_mem_splitOn h

/-- The fields with the label, the pages and the article number read from a tail. -/
def IdentityFields.reread (fields : IdentityFields ν) (label article : List JsString)
    (pageStart pageEnd : Option ν) : IdentityFields ν :=
  { fields with
    citationLabel := [0x7c].intercalate label
    pageStart, pageEnd
    articleNumber := [0x7c].intercalate article }

theorem intercalate_reread {label article : List JsString} {pageStart pageEnd : Option ν}
    (hlabel : label ≠ []) (harticle : article ≠ []) :
    [0x7c].intercalate (tailSegments numbers (fields.reread label article pageStart pageEnd)) =
      [0x7c].intercalate (label ++ [numberOrEmpty numbers pageStart, numberOrEmpty numbers pageEnd]
        ++ article) := by
  rw [intercalate_tail, Segments.intercalate_append (by simp [hlabel]) harticle,
    Segments.intercalate_append hlabel (List.cons_ne_nil _ _),
    Segments.intercalate_cons (List.cons_ne_nil _ _), List.intercalate_singleton]
  simp only [IdentityFields.reread, List.append_assoc, List.cons_append]

theorem intercalate_shift {path type type' : JsString} {before rest : List JsString}
    (hrest : rest ≠ []) :
    [0x7c].intercalate ([path, type] ++ before) ++ 0x7c :: (type' ++ 0x7c ::
      [0x7c].intercalate rest) = path ++ 0x7c :: (type ++ 0x7c ::
        [0x7c].intercalate (before ++ [type'] ++ rest)) := by
  have htype : type' ++ 0x7c :: [0x7c].intercalate rest = [0x7c].intercalate (type' :: rest) :=
    (Segments.intercalate_cons hrest).symm
  have hwhole : before ++ type' :: rest ≠ [] := List.append_ne_nil_of_right_ne_nil _
    (List.cons_ne_nil _ _)
  rw [htype, ← Segments.intercalate_append (by simp) (List.cons_ne_nil _ _), List.append_assoc,
    List.append_assoc, List.singleton_append, List.cons_append, List.cons_append, List.nil_append,
    Segments.intercalate_cons (List.cons_ne_nil _ _), Segments.intercalate_cons hwhole]

theorem Planned.unmistakable (h : Planned numbers sha256Hex chunk)
    (hinjective : ∀ other, Planned numbers sha256Hex other →
      other.identityInput numbers = chunk.identityInput numbers →
        other.identityFields = chunk.identityFields) :
    Unmistakable numbers chunk.identityFields := by
  have hsep : js "/" = [0x2f] := by decide
  constructor
  case documentKey =>
    intro hbar
    obtain ⟨a, b, hkey⟩ := List.append_of_mem hbar
    have hfields : { chunk.identityFields with
        documentKey := a
        documentVersion := b ++ 0x7c :: chunk.identityFields.documentVersion } =
          chunk.identityFields := h.fields_eq hinjective rfl rfl
      (by simp only [IdentityFields.input, hkey, List.append_assoc, List.cons_append]; rfl)
    have hsame := (congrArg IdentityFields.documentKey hfields).trans hkey
    exact length_ne_of_bar hsame
  case documentVersion =>
    intro hbar
    obtain ⟨a, b, hversion⟩ := List.append_of_mem hbar
    have hfields : { chunk.identityFields with
        documentKey := chunk.identityFields.documentKey ++ 0x7c :: a
        documentVersion := b } = chunk.identityFields := h.fields_eq hinjective rfl rfl
      (by simp only [IdentityFields.input, hversion, List.append_assoc, List.cons_append]; rfl)
    exact length_ne_of_bar (congrArg IdentityFields.documentKey hfields).symm
  case sectionPath =>
    have hpath : ∀ path, (js "/").intercalate path =
        (js "/").intercalate chunk.identityFields.sectionPath →
          path = chunk.identityFields.sectionPath := by
      intro path hsame
      have hfields : { chunk.identityFields with sectionPath := path } = chunk.identityFields :=
        h.fields_eq hinjective rfl rfl (by simp only [IdentityFields.input, hsame]; rfl)
      exact congrArg IdentityFields.sectionPath hfields
    rw [hsep] at hpath
    have hone := hpath [[0x2f].intercalate chunk.identityFields.sectionPath]
      (List.intercalate_singleton ..)
    refine ⟨_, hone.symm, fun hnil => ?_, fun hslash => ?_, fun hbar => ?_⟩
    · rw [← hone, hnil] at hpath
      exact absurd (hpath [] rfl) (List.cons_ne_nil _ _).symm
    · obtain ⟨a, b, htitle⟩ := List.append_of_mem hslash
      have htwo := hpath [a, b] (by
        rw [Segments.intercalate_cons (List.cons_ne_nil _ _), List.intercalate_singleton, htitle])
      rw [← hone] at htwo
      cases htwo
    · obtain ⟨a, b, htitle⟩ := List.append_of_mem hbar
      have hfields : { chunk.identityFields with
          documentVersion := chunk.identityFields.documentVersion ++ 0x7c :: a
          sectionPath := [b] } = chunk.identityFields := h.fields_eq hinjective rfl rfl (by
        simp only [IdentityFields.input, hsep, htitle, List.intercalate_singleton,
          List.append_assoc, List.cons_append]
        rfl)
      exact length_ne_of_bar (congrArg IdentityFields.documentVersion hfields).symm
  case pages =>
    rintro label first last article htail hlabel harticle ⟨pageStart, rfl⟩ ⟨pageEnd, rfl⟩
    have hfields : chunk.identityFields.reread label article pageStart pageEnd =
        chunk.identityFields := h.fields_eq hinjective rfl rfl (by
        rw [IdentityFields.input, intercalate_reread hlabel harticle, ← htail]
        rfl)
    have hlabels := congrArg IdentityFields.citationLabel hfields
    rw [← hlabels]
    refine (Segments.splitOn_intercalate hlabel fun segment hsegment => ?_).symm
    refine @mem_tail_noBar _ numbers chunk.identityFields _ ?_
    rw [htail]
    exact List.mem_append_left _ (List.mem_append_left _ hsegment)
  case sectionType =>
    rintro before type label first last article htail ⟨sectionType, rfl⟩ hlabel harticle
      ⟨pageStart, rfl⟩ ⟨pageEnd, rfl⟩
    have hfields : { chunk.identityFields.reread label article pageStart pageEnd with
        sectionPath := [[0x7c].intercalate ([[0x2f].intercalate chunk.identityFields.sectionPath,
          chunk.identityFields.sectionType.text] ++ before)]
        sectionType := sectionType } = chunk.identityFields := h.fields_eq hinjective rfl rfl (by
      have hshift := @intercalate_shift ([0x2f].intercalate chunk.identityFields.sectionPath)
        chunk.identityFields.sectionType.text sectionType.text before
        (label ++ [numberOrEmpty numbers pageStart, numberOrEmpty numbers pageEnd] ++ article)
        (by simp [hlabel])
      have htail' : tailSegments numbers chunk.identityFields = before ++ [sectionType.text] ++
          (label ++ [numberOrEmpty numbers pageStart, numberOrEmpty numbers pageEnd] ++
            article) := by
        rw [htail]
        simp only [List.append_assoc]
      rw [← htail', ← @intercalate_reread _ _ chunk.identityFields _ _ _ _ hlabel harticle]
        at hshift
      unfold IdentityFields.input
      refine congrArg (fun text => chunk.identityFields.documentKey ++ 0x7c ::
        (chunk.identityFields.documentVersion ++ 0x7c :: text)) ?_
      rw [hsep, List.intercalate_singleton]
      have hlong := congrArg (· ++ 0x7c :: (chunk.identityFields.contentSha256 ++ 0x7c ::
        Api.numberText chunk.identityFields.chunkOrdinal)) hshift
      simp only [List.append_assoc, List.cons_append] at hlong ⊢
      exact hlong)
    have hpath := congrArg IdentityFields.sectionPath hfields
    have hlong := congrArg (fun path => ([0x2f].intercalate path).length) hpath
    simp only [List.intercalate_singleton] at hlong
    rw [List.cons_append, Segments.intercalate_cons (by simp), List.length_append,
      List.length_cons] at hlong
    omega

/-- **Identity.**  No chunk with other fields has the hashed string of a planned chunk exactly when
its string can be read in one way only. -/
theorem identity_iff (hhex : ∀ text, 0x7c ∉ sha256Hex text)
    (h : Planned numbers sha256Hex chunk) :
    (∀ other, Planned numbers sha256Hex other →
      other.identityInput numbers = chunk.identityInput numbers →
        other.identityFields = chunk.identityFields) ↔
      Unmistakable numbers chunk.identityFields := by
  refine ⟨h.unmistakable, fun hone other hother hsame => ?_⟩
  obtain ⟨text, htext⟩ := h.digest
  obtain ⟨text', htext'⟩ := hother.digest
  have hdigest : 0x7c ∉ chunk.contentSha256 := by
    rw [htext]
    exact hhex text
  have hdigest' : 0x7c ∉ other.contentSha256 := by
    rw [htext']
    exact hhex text'
  exact hone.fields_eq hdigest hdigest' hsame

end Identity

/-! ## Two documents with one chunk -/

def sampleText : JsString := js "Solicitud firmada."

def sampleDigest : JsString :=
  js "f584cb9a917d4561" ++ js "ac14753c055d3c29" ++ js "7b8ffa90732390e8" ++ js "51e28f27e57376d3"

/-- On the texts of the samples. -/
def sampleSha256Hex (text : JsString) : JsString :=
  if text = sampleText then sampleDigest
  else if text = js "reglamento|2024|" ++ js "Requisitos|section|" ++
      js "Reglamento, Requisitos||||" ++ sampleDigest ++ js "|1" then
    js "a3f216ed2c44b259" ++ js "e5a1de0768f90955" ++ js "57d1c4a3ae84f5ae" ++ js "f9ca92ac23abf1b4"
  else
    js "a871c1300f651e51" ++ js "5a436a4d3ab4f255" ++ js "ed755dd8b0215af7" ++ js "887e8d34e51f3905"

theorem sampleSha256Hex_noBar (text : JsString) : 0x7c ∉ sampleSha256Hex text := by
  unfold sampleSha256Hex
  split_ifs <;> decide

def requisitos : NormalizedSection Unit where
  heading := some (js "Requisitos")
  sectionType := .section
  sectionPath := [js "Requisitos"]
  text := sampleText
  pageStart := none
  pageEnd := none
  articleNumber := none
  citationLabel := some (js "Reglamento, Requisitos")
  metadata := []

def reglamento : NormalizedDocument Unit where
  title := js "Reglamento"
  sourceFormat := .markdown
  text := sampleText
  sections := [requisitos]
  metadata := []

/-- The only chunk of the document under a key and a version. -/
def reglamentoChunk (input : PlanChunksInput) : EmbeddingChunk Unit :=
  chunkOf sampleNumbers sampleSha256Hex reglamento requisitos input sampleText 1

theorem reglamentoChunk_planned (input : PlanChunksInput) :
    Planned sampleNumbers sampleSha256Hex (reglamentoChunk input) := by
  have htexts : sectionTexts 32 8 requisitos = [sampleText] := by decide +kernel
  have hplanned : (reglamento.sections.flatMap fun entry =>
      (sectionTexts 32 8 entry).map fun text => (entry, text)) = [(requisitos, sampleText)] := by
    change (List.flatMap _ [requisitos]) = _
    rw [List.flatMap_singleton, htexts]
    rfl
  refine ⟨reglamento, input, ⟨32, 8⟩, 10, _, planChunks_eq (by unfold ValidPolicy; decide)
    (by decide) (by decide), ?_⟩
  have hfull : fullPlan sampleNumbers sampleSha256Hex reglamento input 32 8 =
      [reglamentoChunk input] := congrArg (chunksFrom _ _ _ _ 1) hplanned
  change _ ∈ (fullPlan sampleNumbers sampleSha256Hex reglamento input 32 8).take (min
    (fullPlan sampleNumbers sampleSha256Hex reglamento input 32 8).length 11)
  rw [hfull]
  exact List.mem_singleton.mpr rfl

/-- A bar at the end of a key and one at the start of a version are the same. -/
theorem identity_shared : ¬ ∀ (sha256Hex : JsString → JsString), (∀ text, 0x7c ∉ sha256Hex text) →
    ∀ chunk other : EmbeddingChunk Unit, Planned sampleNumbers sha256Hex chunk →
      Planned sampleNumbers sha256Hex other →
        other.identityInput sampleNumbers = chunk.identityInput sampleNumbers →
          other.identityFields = chunk.identityFields := by
  intro h
  have hfields := h sampleSha256Hex sampleSha256Hex_noBar
    (reglamentoChunk ⟨js "reglamento|2024", js "v1"⟩) (reglamentoChunk ⟨js "reglamento", js "2024|v1"⟩)
    (reglamentoChunk_planned _) (reglamentoChunk_planned _) (by decide +kernel)
  have hkeys := congrArg IdentityFields.documentKey hfields
  revert hkeys
  change js "reglamento" ≠ js "reglamento|2024"
  decide

/-- A chunk of a section without subsections, under a key and a version without bars. -/
theorem identity_iff_sample :
    (∀ other, Planned sampleNumbers sampleSha256Hex other →
      other.identityInput sampleNumbers =
        (reglamentoChunk ⟨js "reglamento", js "2024"⟩).identityInput sampleNumbers →
        other.identityFields = (reglamentoChunk ⟨js "reglamento", js "2024"⟩).identityFields) ↔
      Unmistakable sampleNumbers (reglamentoChunk ⟨js "reglamento", js "2024"⟩).identityFields :=
  identity_iff sampleSha256Hex_noBar (reglamentoChunk_planned _)

end Embeddings
