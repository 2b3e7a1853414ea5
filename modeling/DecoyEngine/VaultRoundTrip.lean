import DecoyEngine.Data.Checked
import DecoyEngine.Vault

namespace DecoyEngine.Vault

open DecoyEngine.Data DecoyEngine.Determinism

/-! What a vault file gives back, whole and cut short. -/

def sourcesOf (entries : List Entry) (key : VaultKey) : List String :=
  (entries.filter fun entry => entry.key = key).map Entry.source

/-- What the dictionary holds for a key after its sources. -/
def verdict : List String → Option (Option String)
  | [] => none
  | source :: rest => if ∀ other ∈ rest, other = source then some (some source) else some none

theorem verdict_append (sources : List String) (source : String) :
    verdict (sources ++ [source]) =
      match verdict sources with
      | some held => if held ≠ some source then some none else some held
      | none => some (some source) := by
  cases sources with
  | nil => simp [verdict]
  | cons first rest =>
      rw [List.cons_append, verdict, verdict]
      by_cases agree : ∀ other ∈ rest, other = first
      · rw [if_pos agree]
        by_cases same : source = first
        · subst same
          have all : ∀ other ∈ rest ++ [source], other = source := by
            intro other member
            rcases List.mem_append.mp member with old | last
            · exact agree other old
            · exact List.mem_singleton.mp last
          rw [if_pos all]
          simp
        · have differ : ¬ ∀ other ∈ rest ++ [source], other = first := fun all =>
            same (all source (List.mem_append_right _ List.mem_cons_self))
          have held : ¬ some first = some source := fun equal => same (Option.some.inj equal).symm
          rw [if_neg differ]
          simp [held]
      · have differ : ¬ ∀ other ∈ rest ++ [source], other = first := fun all =>
          agree fun other member => all other (List.mem_append_left _ member)
        rw [if_neg agree, if_neg differ]
        simp

theorem find_collapse (entries : List Entry) (key : VaultKey) :
    (collapse entries).find key = verdict (sourcesOf entries key) := by
  induction entries using List.reverseRecOn with
  | nil => rfl
  | append_singleton entries entry ih =>
      have step : collapse (entries ++ [entry]) = collapseStep (collapse entries) entry := by
        rw [collapse, List.foldl_append]
        rfl
      rw [step, collapseStep]
      by_cases here : entry.key = key
      · have sources : sourcesOf (entries ++ [entry]) key =
            sourcesOf entries key ++ [entry.source] := by
          simp [sourcesOf, here]
        rw [here, sources, verdict_append, ih]
        cases held : verdict (sourcesOf entries key) with
        | none => simp [Dict.find_set]
        | some value =>
            by_cases same : value = some entry.source
            · simp [same, ih, held]
            · simp [same, Dict.find_set]
      · have sources : sourcesOf (entries ++ [entry]) key = sourcesOf entries key := by
          simp [sourcesOf, here]
        have other : ¬ key = entry.key := fun same => here same.symm
        rw [sources, ← ih]
        split
        · split
          · rw [Dict.find_set, if_neg other]
          · rfl
        · rw [Dict.find_set, if_neg other]

theorem mem_sourcesOf {entries : List Entry} {key : VaultKey} {source : String} :
    source ∈ sourcesOf entries key ↔ ⟨key.1, key.2, source⟩ ∈ entries := by
  rw [sourcesOf, List.mem_map]
  constructor
  · rintro ⟨entry, member, rfl⟩
    obtain ⟨member, same⟩ := List.mem_filter.mp member
    rw [← of_decide_eq_true same]
    exact member
  · intro member
    exact ⟨_, List.mem_filter.mpr ⟨member, decide_eq_true rfl⟩, rfl⟩

/-- The key has the one source. -/
def SoleSource (entries : List Entry) (key : VaultKey) (source : String) : Prop :=
  ⟨key.1, key.2, source⟩ ∈ entries ∧
    ∀ other, ⟨key.1, key.2, other⟩ ∈ entries → other = source

def Conflicting (entries : List Entry) (key : VaultKey) : Prop :=
  ∃ left ∈ entries, ∃ right ∈ entries,
    left.key = key ∧ right.key = key ∧ left.source ≠ right.source

instance (entries : List Entry) (key : VaultKey) : Decidable (Conflicting entries key) :=
  inferInstanceAs (Decidable (∃ left ∈ entries, ∃ right ∈ entries, _ ∧ _ ∧ _))

/-- The keys with two sources or more, each once. -/
def conflictingKeys (entries : List Entry) : List VaultKey :=
  ((entries.map Entry.key).dedup).filter fun key => Conflicting entries key

theorem verdict_eq_source {sources : List String} {source : String} :
    verdict sources = some (some source) ↔
      source ∈ sources ∧ ∀ other ∈ sources, other = source := by
  cases sources with
  | nil => simp [verdict]
  | cons first rest =>
      rw [verdict]
      by_cases agree : ∀ other ∈ rest, other = first
      · rw [if_pos agree, Option.some.injEq, Option.some.injEq]
        constructor
        · rintro rfl
          refine ⟨List.mem_cons_self, fun other member => ?_⟩
          rcases List.mem_cons.mp member with same | later
          · exact same
          · exact agree other later
        · intro sole
          exact sole.2 first List.mem_cons_self
      · rw [if_neg agree]
        simp only [Option.some.injEq, reduceCtorEq, false_iff]
        intro sole
        apply agree
        intro other member
        rw [sole.2 other (List.mem_cons_of_mem _ member), sole.2 first List.mem_cons_self]

theorem verdict_eq_conflict {sources : List String} :
    verdict sources = some none ↔ ∃ left ∈ sources, ∃ right ∈ sources, left ≠ right := by
  cases sources with
  | nil => simp [verdict]
  | cons first rest =>
      rw [verdict]
      by_cases agree : ∀ other ∈ rest, other = first
      · have all : ∀ other ∈ first :: rest, other = first := by
          intro other member
          rcases List.mem_cons.mp member with same | later
          · exact same
          · exact agree other later
        rw [if_pos agree]
        simp only [Option.some.injEq, reduceCtorEq, false_iff]
        rintro ⟨left, leftIn, right, rightIn, differ⟩
        exact differ ((all left leftIn).trans (all right rightIn).symm)
      · rw [if_neg agree]
        simp only [true_iff]
        push Not at agree
        obtain ⟨other, member, differ⟩ := agree
        exact ⟨other, List.mem_cons_of_mem _ member, first, List.mem_cons_self, differ⟩

theorem find_collapse_source {entries : List Entry} {key : VaultKey} {source : String} :
    (collapse entries).find key = some (some source) ↔ SoleSource entries key source := by
  rw [find_collapse, verdict_eq_source, mem_sourcesOf]
  apply and_congr_right
  intro _
  apply forall_congr'
  intro other
  rw [mem_sourcesOf]

theorem find_collapse_conflict {entries : List Entry} {key : VaultKey} :
    (collapse entries).find key = some none ↔ Conflicting entries key := by
  rw [find_collapse, verdict_eq_conflict]
  constructor
  · rintro ⟨left, leftIn, right, rightIn, differ⟩
    exact ⟨_, mem_sourcesOf.mp leftIn, _, mem_sourcesOf.mp rightIn, rfl, rfl, differ⟩
  · rintro ⟨left, leftIn, right, rightIn, rfl, same, differ⟩
    refine ⟨left.source, mem_sourcesOf.mpr leftIn, right.source, ?_, differ⟩
    rw [mem_sourcesOf, ← same]
    exact rightIn

theorem mem_keys_collapse {entries : List Entry} {key : VaultKey} :
    key ∈ (collapse entries).keys ↔ key ∈ entries.map Entry.key := by
  rw [← not_iff_not, ← Dict.find_eq_none, find_collapse]
  have empty : verdict (sourcesOf entries key) = none ↔ sourcesOf entries key = [] := by
    cases sourcesOf entries key with
    | nil => simp [verdict]
    | cons first rest =>
        rw [verdict]
        split <;> simp
  rw [empty, sourcesOf, List.map_eq_nil_iff, List.filter_eq_nil_iff]
  simp

theorem ambiguousDropped_collapse (entries : List Entry) :
    ambiguousDropped (collapse entries) = (conflictingKeys entries).length := by
  have keys : (collapse entries).keys.Perm (entries.map Entry.key).dedup :=
    (List.perm_ext_iff_of_nodup (collapse entries).distinct (List.nodup_dedup _)).mpr fun key =>
      mem_keys_collapse.trans List.mem_dedup.symm
  have values : ambiguousDropped (collapse entries) =
      (collapse entries).keys.countP fun key => Conflicting entries key := by
    rw [ambiguousDropped, Dict.keys, List.countP_map]
    apply List.countP_congr
    intro item member
    have found := Dict.mem_entries.mp (show (item.1, item.2) ∈ (collapse entries).entries from member)
    rw [Function.comp_apply, decide_eq_true_eq, decide_eq_true_eq, ← find_collapse_conflict, found,
      Option.some.injEq]
  rw [values, keys.countP_eq, List.countP_eq_length_filter, conflictingKeys]

theorem mem_vaultRows {byKey : Dict VaultKey (Option String)} {row : Entry} :
    row ∈ vaultRows byKey ↔ byKey.find row.key = some (some row.source) := by
  rw [vaultRows, List.mem_insertionSort, List.mem_filterMap, ← Dict.mem_entries]
  constructor
  · rintro ⟨⟨key, value⟩, member, built⟩
    obtain ⟨source, known, rfl⟩ := Option.map_eq_some_iff.mp built
    cases known
    exact member
  · intro member
    exact ⟨_, member, rfl⟩

theorem nodup_vaultRows (byKey : Dict VaultKey (Option String)) :
    ((vaultRows byKey).map Entry.key).Nodup := by
  rw [vaultRows, ((List.perm_insertionSort _ _).map _).nodup_iff, List.map_filterMap]
  have sub : (byKey.entries.filterMap fun item =>
      (item.2.map fun source => (⟨item.1.1, item.1.2, source⟩ : Entry)).map Entry.key).Sublist
      byKey.keys := by
    rw [Dict.keys, ← List.filterMap_eq_map]
    generalize byKey.entries = items
    induction items with
    | nil => exact List.Sublist.slnil
    | cons item items ih =>
        cases known : item.2 with
        | none => simpa [known] using ih.cons item.1
        | some source => simpa [known, Entry.key] using ih.cons_cons item.1
  exact byKey.distinct.sublist sub

section Frames

variable {before block bytes rest : Bytes}

theorem readFrame_framed (framing : frame block = some bytes) :
    readFrame (before ++ bytes ++ rest) before.length =
      .ok (block, (before ++ bytes).length) := by
  obtain ⟨head, rfl, width, length⟩ := frame_cases framing
  have prefixAt : ((before ++ (head ++ block) ++ rest).drop before.length).take 4 = head := by
    rw [List.append_assoc, List.drop_left, List.append_assoc, ← width, List.take_left]
  have bodyAt : (before ++ (head ++ block) ++ rest).drop (before.length + 4) = block ++ rest := by
    rw [List.append_assoc, ← List.drop_drop, List.drop_left, List.append_assoc, ← width,
      List.drop_left]
  have long : ¬ (before ++ (head ++ block) ++ rest).length < before.length + 4 := by
    simp only [List.length_append]
    omega
  have whole : ¬ (before ++ (head ++ block) ++ rest).length < before.length + 4 + block.length := by
    simp only [List.length_append]
    omega
  rw [readFrame, if_neg long, prefixAt, length]
  refine (if_neg whole).trans ?_
  rw [bodyAt, List.take_left, List.length_append, List.length_append, width, Nat.add_assoc]

theorem readFrame_cut (before : Bytes) (framing : frame block = some bytes) {count : Nat}
    (short : count < bytes.length) :
    ∃ error, readFrame (before ++ bytes.take count) before.length = .error error := by
  obtain ⟨head, rfl, width, length⟩ := frame_cases framing
  rw [List.length_append] at short
  have size : (before ++ (head ++ block).take count).length = before.length + count := by
    rw [List.length_append, List.length_take, List.length_append, Nat.min_eq_left (by omega)]
  rw [readFrame]
  by_cases tiny : (before ++ (head ++ block).take count).length < before.length + 4
  · exact ⟨_, if_pos tiny⟩
  · rw [if_neg tiny]
    have prefixAt : ((before ++ (head ++ block).take count).drop before.length).take 4 = head := by
      rw [List.drop_left, List.take_take, Nat.min_eq_left (by omega), ← width, List.take_left]
    have stops : (before ++ (head ++ block).take count).length <
        before.length + 4 + block.length := by omega
    rw [prefixAt, length]
    exact ⟨_, if_pos stops⟩

end Frames

/-- A chunk of rows and the frame it is written as. -/
structure Framing (codec : Codec) (rows : List Entry) (bytes : Bytes) : Prop where
  framing : ∃ token, frame token = some bytes ∧ readChunk codec token = .ok rows

theorem Framing.of_chunkFrame {codec : Codec} (roundTrips : codec.RoundTrips)
    {chunk : List Entry × Nat} {bytes : Bytes} (written : chunkFrame codec chunk = .ok bytes) :
    Framing codec chunk.1 bytes := by
  rw [chunkFrame] at written
  cases table : codec.writeTable chunk.1 with
  | none => simp [table] at written
  | some payload =>
      simp only [table, framed] at written
      cases framing : frame (codec.encrypt chunk.2 payload) with
      | none => simp [framing] at written
      | some whole =>
          simp only [framing, Except.ok.injEq] at written
          subst written
          refine ⟨_, framing, ?_⟩
          simp only [readChunk, roundTrips.token, roundTrips.table _ _ table]

theorem Framing.length {codec : Codec} {rows : List Entry} {bytes : Bytes}
    (framing : Framing codec rows bytes) : 4 ≤ bytes.length := by
  obtain ⟨_, framed, _⟩ := framing.framing
  obtain ⟨head, rfl, width, _⟩ := frame_cases framed
  rw [List.length_append]
  omega

def rowItems (rows : List Entry) : List (VaultKey × String) :=
  rows.map fun row => (row.key, row.source)

theorem loadChunks_frames {codec : Codec} {chunks : List (List Entry)} {frames : List Bytes}
    (framings : List.Forall₂ (Framing codec) chunks frames) (before rest : Bytes) {fuel : Nat}
    (enough : (frames.flatten ++ rest).length ≤ fuel) (mapping : Dict VaultKey String) :
    ∃ left, rest.length ≤ left ∧
      loadChunks codec (before ++ frames.flatten ++ rest) fuel before.length mapping =
        loadChunks codec (before ++ frames.flatten ++ rest) left
          (before ++ frames.flatten).length (mapping.sets (rowItems chunks.flatten)) := by
  induction framings generalizing before fuel mapping with
  | nil => exact ⟨fuel, by simpa using enough, by simp [rowItems, Dict.sets]⟩
  | cons framing framings ih =>
      rename_i rows bytes chunks frames
      have width := framing.length
      obtain ⟨token, framed, read⟩ := framing.framing
      rw [List.flatten_cons, List.append_assoc, List.length_append] at enough
      obtain ⟨fuel, rfl⟩ : ∃ previous, fuel = previous + 1 :=
        ⟨fuel - 1, by omega⟩
      have assoc : before ++ (bytes :: frames).flatten ++ rest =
          before ++ bytes ++ (frames.flatten ++ rest) := by
        simp only [List.flatten_cons, List.append_assoc]
      have inside : before.length < (before ++ bytes ++ (frames.flatten ++ rest)).length := by
        simp only [List.length_append]
        omega
      obtain ⟨left, covered, loaded⟩ := ih (before ++ bytes)
        (show (frames.flatten ++ rest).length ≤ fuel by omega) (mapping.sets (rowItems rows))
      refine ⟨left, covered, ?_⟩
      have items : rowItems (rows :: chunks).flatten = rowItems rows ++ rowItems chunks.flatten := by
        rw [List.flatten_cons, rowItems, List.map_append]
        rfl
      have step : loadChunks codec (before ++ bytes ++ (frames.flatten ++ rest)) (fuel + 1)
          before.length mapping =
            loadChunks codec (before ++ bytes ++ (frames.flatten ++ rest)) fuel
              (before ++ bytes).length (mapping.sets (rowItems rows)) := by
        rw [loadChunks, if_pos inside, readFrame_framed framed]
        change (readChunk codec token >>= _) = _
        rw [read]
        rfl
      rw [assoc, step, ← List.append_assoc, loaded, items, Dict.sets, Dict.sets, Dict.sets,
        List.foldl_append, List.flatten_cons, ← List.append_assoc]

theorem loadChunks_end (codec : Codec) (blob : Bytes) (fuel : Nat) (mapping : Dict VaultKey String) :
    loadChunks codec blob fuel blob.length mapping = .ok mapping := by
  cases fuel with
  | zero => rfl
  | succ fuel => rw [loadChunks, if_neg (Nat.lt_irrefl _)]

theorem loadChunks_cut {codec : Codec} {block bytes : Bytes} (before : Bytes)
    (framing : frame block = some bytes) {count : Nat} (some : 0 < count)
    (short : count < bytes.length) {fuel : Nat} (enough : count ≤ fuel)
    (mapping : Dict VaultKey String) :
    ∃ error, loadChunks codec (before ++ bytes.take count) fuel before.length mapping =
      .error error := by
  obtain ⟨fuel, rfl⟩ : ∃ previous, fuel = previous + 1 := ⟨fuel - 1, by omega⟩
  have inside : before.length < (before ++ bytes.take count).length := by
    rw [List.length_append, List.length_take]
    omega
  obtain ⟨error, refused⟩ := readFrame_cut before framing short
  rw [loadChunks, if_pos inside, refused]
  exact ⟨error, rfl⟩

theorem loadHeader_utf8 (text : String) : loadHeader (utf8 text) = FlatJson.loads text.toList := by
  have decoded : String.fromUTF8? ⟨(utf8 text).toArray⟩ = some text := by
    rw [utf8, Array.toArray_toList]
    exact dif_pos text.isValidUTF8
  rw [loadHeader, decoded, Option.bind_some]

theorem loadHeader_vaultHeader (ambiguous chunkRows chunkCount : Nat) :
    loadHeader (utf8 (String.ofList (FlatJson.dumps
      (vaultHeader ambiguous chunkRows chunkCount)))) =
      some (vaultHeader ambiguous chunkRows chunkCount) := by
  have plain : ∀ member ∈ vaultHeader ambiguous chunkRows chunkCount,
      FlatJson.Member.Plain member := by
    intro member memberIn
    simp only [vaultHeader, List.mem_cons, List.not_mem_nil, or_false] at memberIn
    have plainText : ∀ name ∈ ["ambiguous_dropped", "chunk_count", "chunk_rows", "format",
        "seed_protocol_version", vaultFormatVersion], ∀ ch ∈ name.toList, FlatJson.isPlain ch := by
      decide
    rcases memberIn with rfl | rfl | rfl | rfl | rfl
    · exact ⟨plainText "ambiguous_dropped" (by simp), trivial⟩
    · exact ⟨plainText "chunk_count" (by simp), trivial⟩
    · exact ⟨plainText "chunk_rows" (by simp), trivial⟩
    · exact ⟨plainText "format" (by simp), plainText vaultFormatVersion (by simp)⟩
    · exact ⟨plainText "seed_protocol_version" (by simp), trivial⟩
  rw [loadHeader_utf8, String.toList_ofList, FlatJson.loads_dumps plain]

theorem loadVault_header {codec : Codec} {ambiguous chunkRows chunkCount : Nat}
    {headerFrame : Bytes}
    (framing : frame (utf8 (String.ofList (FlatJson.dumps
      (vaultHeader ambiguous chunkRows chunkCount)))) = some headerFrame) (rest : Bytes) :
    loadVault codec (magic ++ headerFrame ++ rest) =
      (loadChunks codec (magic ++ headerFrame ++ rest) (magic ++ headerFrame ++ rest).length
        (magic ++ headerFrame).length Dict.empty).map fun mapping => (mapping, ambiguous) := by
  have starts : magic <+: magic ++ headerFrame ++ rest := by
    rw [List.append_assoc]
    exact List.prefix_append _ _
  rw [loadVault, if_neg (not_not.mpr starts), readFrame_framed framing]
  simp only [bind, Except.bind, loadHeader_vaultHeader]
  change (loadChunks codec _ _ _ _ >>= _) = _
  cases loadChunks codec (magic ++ headerFrame ++ rest) (magic ++ headerFrame ++ rest).length
    (magic ++ headerFrame).length Dict.empty <;> rfl

/-- The parts of a written file. -/
structure Written (codec : Codec) (chunkRows : Nat) (entries : List Entry) (headerFrame : Bytes)
    (frames : List Bytes) : Prop where
  header : ∃ chunkCount, frame (utf8 (String.ofList (FlatJson.dumps
    (vaultHeader (ambiguousDropped (collapse entries)) chunkRows chunkCount)))) = some headerFrame
  chunks : List.Forall₂ (Framing codec) (rangeSlices chunkRows (vaultRows (collapse entries))) frames

theorem Written.of_vaultParts {codec : Codec} (roundTrips : codec.RoundTrips) {chunkRows : Nat}
    {entries : List Entry} {parts : List Bytes}
    (written : vaultParts codec chunkRows entries = .ok parts) :
    ∃ headerFrame frames, parts = magic :: headerFrame :: frames ∧
      Written codec chunkRows entries headerFrame frames := by
  obtain ⟨headerFrame, headed, written⟩ := bind_eq_ok written
  obtain ⟨frames, chunked, written⟩ := bind_eq_ok written
  cases written
  refine ⟨headerFrame, frames, rfl,
    ⟨((vaultRows (collapse entries)).length + chunkRows - 1) / chunkRows, ?_⟩, ?_⟩
  · rw [framed] at headed
    split at headed
    · rename_i framing
      cases headed
      exact framing
    · cases headed
  · have related := (mapM_eq_ok.mp chunked).imp fun _ _ success =>
      Framing.of_chunkFrame roundTrips success
    rw [← List.zipIdx_map_fst 0 (rangeSlices chunkRows (vaultRows (collapse entries)))]
    exact List.forall₂_map_left_iff.mpr related

section File

variable {codec : Codec} {chunkRows : Nat} {entries : List Entry} {headerFrame : Bytes}
  {frames : List Bytes}

theorem Written.load_front (written : Written codec chunkRows entries headerFrame frames)
    (count : Nat) :
    loadVault codec (magic ++ headerFrame ++ (frames.take count).flatten) =
      .ok (Dict.empty.sets (rowItems
        ((rangeSlices chunkRows (vaultRows (collapse entries))).take count).flatten),
        ambiguousDropped (collapse entries)) := by
  obtain ⟨_, framing⟩ := written.header
  have front := List.forall₂_take count written.chunks
  have enough : ((frames.take count).flatten ++ []).length ≤
      (magic ++ headerFrame ++ (frames.take count).flatten).length := by
    rw [List.append_nil, List.length_append]
    omega
  obtain ⟨left, _, loaded⟩ := loadChunks_frames front (magic ++ headerFrame) [] enough Dict.empty
  rw [List.append_nil] at loaded
  rw [loadVault_header framing, loaded, loadChunks_end]
  rfl

theorem Written.load_inside (written : Written codec chunkRows entries headerFrame frames)
    {front behind : List Bytes} {bytes : Bytes} (split : frames = front ++ bytes :: behind)
    {count : Nat} (some : 0 < count) (short : count < bytes.length) :
    ∃ error, loadVault codec (magic ++ headerFrame ++ (front.flatten ++ bytes.take count)) =
      .error error := by
  obtain ⟨_, framing⟩ := written.header
  have chunks := written.chunks
  rw [split] at chunks
  have fronts := List.forall₂_take_append _ _ _ chunks
  obtain ⟨_, _, cut, _, _⟩ :=
    List.forall₂_cons_right_iff.mp (List.forall₂_drop_append _ _ _ chunks)
  obtain ⟨token, framed, _⟩ := cut.framing
  have enough : (front.flatten ++ bytes.take count).length ≤
      (magic ++ headerFrame ++ front.flatten ++ bytes.take count).length := by
    simp only [List.length_append]
    omega
  obtain ⟨left, covered, loaded⟩ :=
    loadChunks_frames fronts (magic ++ headerFrame) (bytes.take count) enough Dict.empty
  rw [List.length_take, Nat.min_eq_left (Nat.le_of_lt short)] at covered
  rw [loadVault_header framing, ← List.append_assoc, loaded]
  obtain ⟨error, refused⟩ := loadChunks_cut (magic ++ headerFrame ++ front.flatten)
    framed some short covered _
  exact ⟨error, congrArg _ refused⟩

end File

theorem exists_cut_part {parts : List Bytes} {cut : Nat} (short : cut < parts.flatten.length) :
    ∃ front part behind count, parts = front ++ part :: behind ∧ count < part.length ∧
      cut = front.flatten.length + count ∧
      parts.flatten.take cut = front.flatten ++ part.take count := by
  induction parts generalizing cut with
  | nil => cases short
  | cons part parts ih =>
      by_cases inside : cut < part.length
      · refine ⟨[], part, parts, cut, rfl, inside, by simp, ?_⟩
        rw [List.flatten_cons, List.take_append_of_le_length (Nat.le_of_lt inside)]
        rfl
      · have later : cut - part.length < parts.flatten.length := by
          rw [List.flatten_cons, List.length_append] at short
          omega
        obtain ⟨front, next, behind, count, split, within, position, taken⟩ := ih later
        refine ⟨part :: front, next, behind, count, by rw [split]; rfl, within, ?_, ?_⟩
        · rw [List.flatten_cons, List.length_append]
          omega
        · rw [List.flatten_cons, List.flatten_cons, List.take_append, taken,
            List.take_of_length_le (Nat.not_lt.mp inside), List.append_assoc]

/-- The file is cut right behind its header frame or behind a chunk frame. -/
def AtFrameEnd (parts : List Bytes) (cut : Nat) : Prop :=
  ∃ count, 2 ≤ count ∧ count < parts.length ∧ cut = (parts.take count).flatten.length

theorem loadVault_cut {codec : Codec} {chunkRows : Nat} {entries : List Entry}
    {headerFrame : Bytes} {frames : List Bytes}
    (written : Written codec chunkRows entries headerFrame frames) {cut : Nat}
    (short : cut < (magic :: headerFrame :: frames).flatten.length)
    (inside : ¬ AtFrameEnd (magic :: headerFrame :: frames) cut) :
    ∃ error, loadVault codec ((magic :: headerFrame :: frames).flatten.take cut) = .error error := by
  obtain ⟨front, part, behind, count, split, within, position, taken⟩ := exists_cut_part short
  rw [taken]
  match front, split with
  | [], split =>
      obtain ⟨rfl, _⟩ := List.cons.inj split
      refine ⟨.badMagic, if_pos fun starts => ?_⟩
      have longer := starts.length_le
      rw [List.flatten_nil, List.nil_append, List.length_take] at longer
      omega
  | [first], split =>
      simp only [List.cons_append, List.nil_append, List.cons.injEq] at split
      obtain ⟨rfl, rfl, _⟩ := split
      obtain ⟨_, framing⟩ := written.header
      obtain ⟨error, refused⟩ := readFrame_cut magic framing within
      have flat : [magic].flatten = magic := by simp
      rw [flat, loadVault, if_neg (not_not.mpr (List.prefix_append _ _)), refused]
      exact ⟨error, rfl⟩
  | first :: second :: front, split =>
      simp only [List.cons_append, List.cons.injEq] at split
      obtain ⟨rfl, rfl, rest⟩ := split
      have positive : 0 < count := by
        by_contra zero
        apply inside
        refine ⟨front.length + 2, by omega, ?_, ?_⟩
        · rw [rest, List.length_cons, List.length_cons, List.length_append, List.length_cons]
          omega
        · rw [position, Nat.eq_zero_of_not_pos zero, rest]
          simp
      have assoc : (magic :: headerFrame :: front).flatten ++ part.take count =
          magic ++ headerFrame ++ (front.flatten ++ part.take count) := by
        simp only [List.flatten_cons, List.append_assoc]
      rw [assoc]
      exact written.load_inside rest positive within

theorem mem_rowItems {rows : List Entry} {key : VaultKey} {source : String} :
    (key, source) ∈ rowItems rows ↔ ⟨key.1, key.2, source⟩ ∈ rows := by
  rw [rowItems, List.mem_map]
  constructor
  · rintro ⟨row, member, same⟩
    cases same
    exact member
  · intro member
    exact ⟨_, member, rfl⟩

theorem find_vaultRows (entries : List Entry) (key : VaultKey) (source : String) :
    ((Dict.empty : Dict VaultKey String).sets (rowItems (vaultRows (collapse entries)))).find key =
      some source ↔ SoleSource entries key source := by
  have distinct : ((rowItems (vaultRows (collapse entries))).map Prod.fst).Nodup := by
    rw [rowItems, List.map_map]
    exact nodup_vaultRows (collapse entries)
  have held : Dict.find ⟨rowItems (vaultRows (collapse entries)), distinct⟩ key = some source ↔
      (key, source) ∈ rowItems (vaultRows (collapse entries)) := Dict.mem_entries.symm
  rw [Dict.find_sets_empty distinct]
  refine held.trans ?_
  rw [mem_rowItems, mem_vaultRows, ← find_collapse_source]
  rfl

theorem soleSource_congr {left right : List Entry} (same : ∀ entry, entry ∈ left ↔ entry ∈ right)
    (key : VaultKey) (source : String) :
    SoleSource left key source ↔ SoleSource right key source := by
  rw [SoleSource, SoleSource, same]
  apply and_congr_right
  intro _
  apply forall_congr'
  intro other
  rw [same]

theorem conflicting_congr {left right : List Entry} (same : ∀ entry, entry ∈ left ↔ entry ∈ right)
    (key : VaultKey) : Conflicting left key ↔ Conflicting right key := by
  simp only [Conflicting, same]

theorem length_conflictingKeys_congr {left right : List Entry}
    (same : ∀ entry, entry ∈ left ↔ entry ∈ right) :
    (conflictingKeys left).length = (conflictingKeys right).length := by
  have keys : (left.map Entry.key).dedup.Perm (right.map Entry.key).dedup :=
    (List.perm_ext_iff_of_nodup (List.nodup_dedup _) (List.nodup_dedup _)).mpr fun key => by
      simp only [List.mem_dedup, List.mem_map, same]
  have filters : (right.map Entry.key).dedup.filter (fun key => Conflicting left key) =
      (right.map Entry.key).dedup.filter (fun key => Conflicting right key) := by
    apply List.filter_congr
    intro key _
    exact decide_eq_decide.mpr (conflicting_congr same key)
  rw [conflictingKeys, conflictingKeys, ← filters]
  exact (keys.filter _).length_eq

/-- A written vault gives back the keys with one source and the number of the others; cut short
it is refused, except right behind its header frame or a chunk frame. -/
theorem vault_gives_back_unambiguous_entries {codec : Codec} (roundTrips : codec.RoundTrips)
    {chunkRows : Nat} (positive : 0 < chunkRows) {added entries : List Entry}
    (iterated : entries.Perm added.dedup) {parts : List Bytes}
    (written : vaultParts codec chunkRows entries = .ok parts) :
    write codec chunkRows entries = .ok parts.flatten ∧
    (∃ mapping, loadVault codec parts.flatten = .ok (mapping, (conflictingKeys added).length) ∧
      ∀ key source, mapping.find key = some source ↔ SoleSource added key source) ∧
    ∀ cut < parts.flatten.length,
      (∃ error, loadVault codec (parts.flatten.take cut) = .error error) ↔
        ¬ AtFrameEnd parts cut := by
  have same : ∀ entry, entry ∈ entries ↔ entry ∈ added := fun entry =>
    iterated.mem_iff.trans List.mem_dedup
  have saved : write codec chunkRows entries = .ok parts.flatten := by
    rw [write, written]
    rfl
  obtain ⟨headerFrame, frames, rfl, file⟩ := Written.of_vaultParts roundTrips written
  refine ⟨saved, ?_, ?_⟩
  · have loaded := file.load_front frames.length
    have slices : (rangeSlices chunkRows (vaultRows (collapse entries))).length = frames.length :=
      file.chunks.length_eq
    rw [List.take_length, ← slices, List.take_length, rangeSlices_flatten positive,
      ambiguousDropped_collapse, length_conflictingKeys_congr same, List.append_assoc] at loaded
    refine ⟨_, loaded, fun key source => ?_⟩
    rw [find_vaultRows, soleSource_congr same]
  · intro cut short
    refine ⟨?_, loadVault_cut file short⟩
    rintro ⟨error, refused⟩ ⟨count, atLeast, less, position⟩
    obtain ⟨count, rfl⟩ := Nat.exists_eq_add_of_le' atLeast
    have front : (magic :: headerFrame :: frames).flatten.take cut =
        magic ++ headerFrame ++ (frames.take count).flatten := by
      have whole : (magic :: headerFrame :: frames).flatten =
          ((magic :: headerFrame :: frames).take (count + 2)).flatten ++
            ((magic :: headerFrame :: frames).drop (count + 2)).flatten := by
        rw [← List.flatten_append, List.take_append_drop]
      rw [whole, position, List.take_left]
      simp
    rw [front, file.load_front count] at refused
    cases refused

/-! A vault with one row: `x2` stands for two cities. -/

/-- A codec that can write one table. -/
def oneTable (rows : List Entry) : Codec where
  writeTable table := if table = rows then some [80, 65, 82, 49] else none
  readTable bytes := if bytes = [80, 65, 82, 49] then some rows else none
  encrypt draw payload := UInt8.ofNat draw :: payload
  decrypt token := some token.tail

theorem oneTable_roundTrips (rows : List Entry) : (oneTable rows).RoundTrips := by
  refine ⟨fun table bytes written => ?_, fun _ _ => rfl⟩
  simp only [oneTable] at written ⊢
  split at written
  · rename_i known
    cases written
    rw [known]
    rfl
  · cases written

def rome : Entry := ⟨"city", "x1", "Rome"⟩

def cities : List Entry := [rome, ⟨"city", "x2", "Oslo"⟩, rome, ⟨"city", "x2", "Bern"⟩]

theorem vaultParts_cities :
    ∃ parts, vaultParts (oneTable [rome]) 65536 cities.dedup = .ok parts := by
  have success : (vaultParts (oneTable [rome]) 65536 cities.dedup).toBool = true := by
    decide +kernel
  cases written : vaultParts (oneTable [rome]) 65536 cities.dedup with
  | ok parts => exact ⟨parts, rfl⟩
  | error error =>
      rw [written] at success
      cases success

theorem vault_gives_back_unambiguous_entries_cities :
    ∃ parts mapping, loadVault (oneTable [rome]) parts.flatten = .ok (mapping, 1) ∧
      mapping.find ("city", "x1") = some "Rome" ∧ mapping.find ("city", "x2") ≠ some "Oslo" ∧
      ∀ cut < parts.flatten.length,
        (∃ error, loadVault (oneTable [rome]) (parts.flatten.take cut) = .error error) ↔
          ¬ AtFrameEnd parts cut := by
  obtain ⟨parts, written⟩ := vaultParts_cities
  obtain ⟨_, ⟨mapping, loaded, holds⟩, refused⟩ := vault_gives_back_unambiguous_entries
    (oneTable_roundTrips [rome]) (by decide) (List.Perm.refl cities.dedup) written
  refine ⟨parts, mapping, loaded, ?_, ?_, refused⟩
  · apply (holds _ _).mpr
    refine ⟨by decide, fun other member => ?_⟩
    simpa [cities, rome] using member
  · intro found
    have sole := ((holds _ _).mp found).2 "Bern" (by decide)
    exact absurd sole (by decide)

/-- Cut right behind its header, the same file loads as an empty vault. -/
theorem vault_without_its_chunks_loads :
    ∃ file cut mapping, write (oneTable [rome]) 65536 cities.dedup = .ok file ∧
      cut < file.length ∧ loadVault (oneTable [rome]) (file.take cut) = .ok (mapping, 1) ∧
      mapping.find ("city", "x1") = none ∧ SoleSource cities ("city", "x1") "Rome" := by
  obtain ⟨parts, written⟩ := vaultParts_cities
  obtain ⟨headerFrame, frames, rfl, file⟩ :=
    Written.of_vaultParts (oneTable_roundTrips [rome]) written
  have slices : (rangeSlices 65536 (vaultRows (collapse cities.dedup))).length = 1 := by
    decide +kernel
  obtain ⟨chunk, rfl⟩ : ∃ chunk, frames = [chunk] :=
    List.length_eq_one_iff.mp (file.chunks.length_eq.symm.trans slices)
  obtain ⟨_, _, framing, _, _⟩ := List.forall₂_cons_right_iff.mp file.chunks
  have width := framing.length
  have dropped : ambiguousDropped (collapse cities.dedup) = 1 := by decide +kernel
  have loaded := file.load_front 0
  rw [List.take_zero, List.take_zero, dropped, List.flatten_nil, List.append_nil] at loaded
  have front : (magic :: headerFrame :: [chunk]).flatten.take (magic ++ headerFrame).length =
      magic ++ headerFrame := by
    rw [List.flatten_cons, List.flatten_cons, ← List.append_assoc, List.take_left]
  refine ⟨[magic, headerFrame, chunk].flatten, (magic ++ headerFrame).length, Dict.empty, ?_, ?_,
    ?_, rfl, by decide, ?_⟩
  · rw [write, written]
    rfl
  · simp only [List.flatten_cons, List.flatten_nil, List.length_append]
    omega
  · rw [front]
    exact loaded
  · intro other member
    simpa [cities, rome] using member

end DecoyEngine.Vault
