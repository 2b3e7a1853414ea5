import DecoyEngine.Io.CsvFields

namespace DecoyEngine.Io

open DecoyEngine.Data

/-! Splitting a record undoes quoting, and fails on no record of text the framer emits. -/

variable {phase : Phase}

theorem quoted_of_trailing {init : List Char} {ch : Char} (lineBreak : ch = '\r' ∨ ch = '\n')
    (run : charRun .fieldStart (init ++ [ch]) = some phase) :
    phase = .quoted := by
  rw [charRun_append] at run
  obtain ⟨middle, -, last⟩ := Option.bind_eq_some_iff.mp run
  have moved : charStep middle ch = some phase := by
    rw [charRun_cons] at last
    obtain ⟨next, moved, same⟩ := Option.bind_eq_some_iff.mp last
    cases same
    exact moved
  cases middle with
  | pendingCr => cases moved
  | quoted =>
      have notQuote : ch ≠ '"' := by
        cases lineBreak with
        | inl cr => rw [cr]; decide
        | inr lf => rw [lf]; decide
      rw [charStep, if_neg notQuote] at moved
      cases moved
      rfl
  | _ =>
      simp only [charStep, if_pos lineBreak] at moved
      cases moved

variable {text : List Char}

theorem removeSuffix_absent {ch : Char} (absent : text.getLast? ≠ some ch) :
    removeSuffix ch text = text := if_neg absent

theorem removeSuffix_present (ch : Char) (init : List Char) :
    removeSuffix ch (init ++ [ch]) = init := by
  rw [removeSuffix, if_pos List.getLast?_concat, List.dropLast_concat]

theorem getLast?_ne_lineBreak {ch : Char} (run : charRun .fieldStart text = some phase)
    (outside : phase ≠ .quoted) (lineBreak : ch = '\r' ∨ ch = '\n') : text.getLast? ≠ some ch := by
  intro last
  obtain ⟨init, isText⟩ := List.getLast?_eq_some_iff.mp last
  rw [isText] at run
  exact outside (quoted_of_trailing lineBreak run)

theorem utf8Encode_snoc {before : Bytes} {ch : Char} (ascii : ch.toNat < 128)
    (encoded : utf8Encode text = before ++ [UInt8.ofNat ch.toNat]) :
    ∃ init, text = init ++ [ch] ∧ utf8Encode init = before := by
  cases List.eq_nil_or_concat text with
  | inl empty =>
      rw [empty] at encoded
      have lengths := congrArg List.length encoded
      rw [List.length_append, List.length_singleton] at lengths
      cases lengths
  | inr snoc =>
      obtain ⟨init, last, rfl⟩ := snoc
      rw [List.concat_eq_append] at encoded ⊢
      rw [utf8Encode, List.flatMap_append, List.flatMap_singleton] at encoded
      cases utf8EncodeChar_cases last with
      | inl single =>
          rw [single.2] at encoded
          obtain ⟨inits, lasts⟩ := List.append_inj' encoded rfl
          have codes := congrArg UInt8.toNat (List.head_eq_of_cons_eq lasts)
          rw [UInt8.toNat_ofNat', UInt8.toNat_ofNat', Nat.mod_eq_of_lt (by omega),
            Nat.mod_eq_of_lt (by omega)] at codes
          have same : last = ch := Char.ext (UInt32.toNat_inj.mp codes)
          exact ⟨init, by rw [same], inits⟩
      | inr wide =>
          obtain ⟨-, nonempty, high⟩ := wide
          have ends := congrArg List.getLast? encoded
          rw [List.getLast?_append_of_ne_nil _ nonempty, List.getLast?_concat] at ends
          have above := high _ (List.mem_of_getLast? ends)
          rw [UInt8.toNat_ofNat', Nat.mod_eq_of_lt (by omega)] at above
          omega

theorem unterminated_text {body terminator : Bytes} (closed : Closed body)
    (known : terminator ∈ recordEnds) (encoded : utf8Encode text = body ++ terminator) :
    ∃ phase, charRun .fieldStart (removeSuffix '\r' (removeSuffix '\n' text)) = some phase ∧
      phase ≠ .quoted ∧ utf8Encode (removeSuffix '\r' (removeSuffix '\n' text)) = body := by
  obtain ⟨phase, run, outside⟩ := closed
  have plain : ∀ chars, utf8Encode chars = body →
      charRun .fieldStart chars = some phase ∧ removeSuffix '\n' chars = chars ∧
        removeSuffix '\r' chars = chars := by
    intro chars isBody
    rw [← isBody, byteRun_utf8Encode] at run
    exact ⟨run, removeSuffix_absent (getLast?_ne_lineBreak run outside (.inr rfl)),
      removeSuffix_absent (getLast?_ne_lineBreak run outside (.inl rfl))⟩
  have stripped : ∃ chars, utf8Encode chars = body ∧
      removeSuffix '\r' (removeSuffix '\n' text) = chars := by
    simp only [recordEnds, List.mem_cons, List.not_mem_nil, or_false] at known
    rcases known with rfl | rfl | rfl | rfl
    · rw [List.append_nil] at encoded
      obtain ⟨-, noLf, noCr⟩ := plain text encoded
      exact ⟨text, encoded, by rw [noLf, noCr]⟩
    · obtain ⟨init, rfl, isBody⟩ := utf8Encode_snoc (show ('\n').toNat < 128 by decide) encoded
      obtain ⟨-, -, noCr⟩ := plain init isBody
      exact ⟨init, isBody, by rw [removeSuffix_present, noCr]⟩
    · have pair : body ++ [crByte, lfByte] = (body ++ [crByte]) ++ [lfByte] := by simp
      rw [pair] at encoded
      obtain ⟨front, rfl, isFront⟩ := utf8Encode_snoc (show ('\n').toNat < 128 by decide) encoded
      obtain ⟨init, rfl, isBody⟩ := utf8Encode_snoc (show ('\r').toNat < 128 by decide) isFront
      exact ⟨init, isBody, by rw [removeSuffix_present, removeSuffix_present]⟩
    · obtain ⟨init, rfl, isBody⟩ := utf8Encode_snoc (show ('\r').toNat < 128 by decide) encoded
      have noLf : (init ++ ['\r']).getLast? ≠ some '\n' := by
        rw [List.getLast?_concat]
        decide
      exact ⟨init, isBody, by rw [removeSuffix_absent noLf, removeSuffix_present]⟩
  obtain ⟨chars, isBody, same⟩ := stripped
  rw [same]
  exact ⟨phase, (plain chars isBody).1, outside, isBody⟩

theorem quotedPart_of_closed (run : charRun .quoted text = some phase) (outside : phase ≠ .quoted) :
    ∃ part rest, quotedPart text = some (part, rest) ∧ rest.head? ≠ some '"' ∧
      charRun .afterQuote rest = some phase := by
  induction text using quotedPart.induct with
  | case1 => exact absurd (Option.some.inj run).symm outside
  | case2 rest ih =>
      obtain ⟨part, after, found, head, closing⟩ := ih run
      exact ⟨'"' :: part, after, by rw [quotedPart, found]; rfl, head, closing⟩
  | case3 rest notDoubled =>
      refine ⟨[], rest, quotedPart.eq_3 rest notDoubled, ?_, run⟩
      intro head
      obtain ⟨others, isRest⟩ := List.head?_eq_some_iff.mp head
      exact notDoubled others isRest
  | case4 ch rest notDoubled notQuote ih =>
      have other : ch ≠ '"' := fun same => notQuote same
      have stays : charRun .quoted rest = some phase := by
        rw [charRun_cons, charStep, if_neg other] at run
        exact run
      obtain ⟨part, after, found, head, closing⟩ := ih stays
      exact ⟨ch :: part, after, by rw [quotedPart.eq_4 _ _ notDoubled notQuote, found]; rfl, head,
        closing⟩

theorem rest_of_unquoted (run : charRun .unquoted text = some phase) :
    text.dropWhile (· ≠ ',') = [] ∨
      ∃ rest, text.dropWhile (· ≠ ',') = ',' :: rest ∧ charRun .fieldStart rest = some phase := by
  induction text with
  | nil => exact .inl rfl
  | cons ch rest ih =>
      obtain ⟨next, moved, tail⟩ := Option.bind_eq_some_iff.mp run
      by_cases comma : ch = ','
      · subst comma
        have isStart : next = .fieldStart := (Option.some.inj moved).symm
        exact .inr ⟨rest, rfl, isStart ▸ tail⟩
      · have stays : next = .unquoted := by
          simp only [charStep, onQuote, if_neg comma] at moved
          split_ifs at moved <;> exact (Option.some.inj moved).symm
        rw [List.dropWhile_cons_of_pos (by simpa using comma)]
        exact ih (stays ▸ tail)

/-- A text that does not begin with a quote goes on unquoted, or with the next field. -/
theorem rest_of_start {start : Phase} (open' : start ≠ .quoted) (head : text.head? ≠ some '"')
    (run : charRun start text = some phase) :
    text.dropWhile (· ≠ ',') = [] ∨
      ∃ rest, text.dropWhile (· ≠ ',') = ',' :: rest ∧ charRun .fieldStart rest = some phase := by
  cases text with
  | nil => exact .inl rfl
  | cons ch rest =>
      have notQuote : ch ≠ '"' := fun same => head (congrArg some same)
      obtain ⟨next, moved, tail⟩ := Option.bind_eq_some_iff.mp run
      by_cases comma : ch = ','
      · subst comma
        have isStart : next = .fieldStart := by
          cases start <;> first | exact absurd rfl open' | cases moved <;> rfl
        exact .inr ⟨rest, rfl, isStart ▸ tail⟩
      · have unquoted : next = .unquoted := by
          cases start with
          | quoted => exact absurd rfl open'
          | pendingCr => cases moved
          | _ =>
              simp only [charStep, if_neg notQuote, if_neg comma] at moved
              split_ifs at moved
              exact (Option.some.inj moved).symm
        rw [List.dropWhile_cons_of_pos (by simpa using comma)]
        exact rest_of_unquoted (unquoted ▸ tail)

theorem splitField_of_closed (run : charRun .fieldStart text = some phase)
    (outside : phase ≠ .quoted) :
    ∃ field after, splitField text = some (field, after) ∧
      (after = [] ∨ ∃ rest, after = ',' :: rest ∧ charRun .fieldStart rest = some phase) := by
  by_cases quote : ∃ rest, text = '"' :: rest
  · obtain ⟨rest, rfl⟩ := quote
    obtain ⟨part, after, found, head, closing⟩ := quotedPart_of_closed run outside
    refine ⟨part ++ after.takeWhile (· ≠ ','), after.dropWhile (· ≠ ','), ?_, ?_⟩
    · rw [splitField, found]
      rfl
    · exact rest_of_start (by decide : Phase.afterQuote ≠ .quoted) head closing
  · have notQuote : ∀ rest, text ≠ '"' :: rest := fun rest same => quote ⟨rest, same⟩
    have head : text.head? ≠ some '"' := by
      intro same
      obtain ⟨rest, isText⟩ := List.head?_eq_some_iff.mp same
      exact notQuote rest isText
    exact ⟨_, _, splitField.eq_2 _ notQuote,
      rest_of_start (by decide : Phase.fieldStart ≠ .quoted) head run⟩

theorem splitText_of_closed (text : List Char) (run : charRun .fieldStart text = some phase)
    (outside : phase ≠ .quoted) :
    ∃ fields, splitText text = some fields ∧ fields ≠ [] := by
  induction hlen : text.length using Nat.strong_induction_on generalizing text with
  | _ length ih =>
      obtain ⟨field, after, found, shape⟩ := splitField_of_closed run outside
      have shorter := length_splitField found
      rw [splitText]
      split
      · rename_i none'
        rw [found] at none'
        cases none'
      · exact ⟨_, rfl, List.cons_ne_nil _ _⟩
      · exact ⟨_, rfl, List.cons_ne_nil _ _⟩
      · rename_i field' comma rest _ same
        rw [found] at same
        cases same
        obtain ⟨others, isAfter, tail⟩ := shape.resolve_left (List.cons_ne_nil _ _)
        cases isAfter
        rw [List.length_cons] at shorter
        obtain ⟨fields, split, -⟩ := ih rest.length (by omega) rest tail rfl
        exact ⟨field :: fields, by rw [split]; rfl, List.cons_ne_nil _ _⟩

/-- The characters of a field between its quotes. -/
def escaped (field : List Char) : List Char :=
  field.flatMap fun ch => if ch = '"' then ['"', '"'] else [ch]

theorem quoteField_append (field rest : List Char) :
    quoteField field ++ rest = '"' :: (escaped field ++ '"' :: rest) := by
  simp [quoteField, escaped]

theorem quotedPart_escaped (field : List Char) {rest : List Char} (next : rest.head? ≠ some '"') :
    quotedPart (escaped field ++ '"' :: rest) = some (field, rest) := by
  induction field with
  | nil =>
      apply quotedPart.eq_3
      intro others isRest
      exact next (by rw [isRest]; rfl)
  | cons ch field ih =>
      rw [escaped, List.flatMap_cons, ← escaped]
      by_cases quote : ch = '"'
      · rw [if_pos quote, quote]
        change quotedPart ('"' :: '"' :: (escaped field ++ '"' :: rest)) = _
        rw [quotedPart, ih]
        rfl
      · rw [if_neg quote]
        change quotedPart (ch :: (escaped field ++ '"' :: rest)) = _
        rw [quotedPart.eq_4 _ _ (fun _ same => absurd same quote) (fun same => absurd same quote),
          ih]
        rfl

theorem splitField_quoted (field : List Char) {rest : List Char}
    (shape : rest = [] ∨ ∃ others, rest = ',' :: others) :
    splitField (quoteField field ++ rest) = some (field, rest) := by
  have next : rest.head? ≠ some '"' := by
    rcases shape with rfl | ⟨others, rfl⟩
    · nofun
    · intro same
      cases same
  rw [quoteField_append, splitField, quotedPart_escaped field next, Option.map_some]
  rcases shape with rfl | ⟨others, rfl⟩ <;> simp

theorem quotedRecord_singleton (field : List Char) : quotedRecord [field] = quoteField field := by
  simp [quotedRecord]

theorem quotedRecord_cons (field second : List Char) (rest : List (List Char)) :
    quotedRecord (field :: second :: rest) =
      quoteField field ++ ',' :: quotedRecord (second :: rest) := by
  simp [quotedRecord, List.intercalate_cons_cons]

theorem quotedRecord_head (field : List Char) (rest : List (List Char)) :
    ∃ others, quotedRecord (field :: rest) = '"' :: others := by
  cases rest with
  | nil =>
      rw [quotedRecord_singleton]
      exact ⟨_, rfl⟩
  | cons second rest =>
      rw [quotedRecord_cons, quoteField_append]
      exact ⟨_, rfl⟩

theorem splitText_quotedRecord (field : List Char) (rest : List (List Char)) :
    splitText (quotedRecord (field :: rest)) = some (field :: rest) := by
  induction rest generalizing field with
  | nil =>
      have found := splitField_quoted field (.inl rfl)
      rw [List.append_nil, ← quotedRecord_singleton] at found
      rw [splitText]
      split <;> rename_i same <;> rw [found] at same <;> cases same
      rfl
  | cons second rest ih =>
      have found := splitField_quoted field (.inr ⟨quotedRecord (second :: rest), rfl⟩)
      rw [← quotedRecord_cons] at found
      obtain ⟨others, isNext⟩ := quotedRecord_head second rest
      rw [isNext] at found
      rw [splitText]
      split <;> rename_i same <;> rw [found] at same <;> cases same
      rw [← isNext, ih]
      rfl

theorem charRun_escaped (field rest : List Char) :
    charRun .quoted (escaped field ++ rest) = charRun .quoted rest := by
  induction field with
  | nil => rfl
  | cons ch field ih =>
      rw [escaped, List.flatMap_cons, ← escaped]
      by_cases quote : ch = '"'
      · rw [if_pos quote]
        exact ih
      · have stays : charStep .quoted ch = some .quoted := by rw [charStep, if_neg quote]
        rw [if_neg quote, List.append_assoc, List.singleton_append, charRun_cons, stays]
        exact ih

theorem charRun_quoteField (field rest : List Char) :
    charRun .fieldStart (quoteField field ++ rest) = charRun .afterQuote rest := by
  rw [quoteField_append]
  exact charRun_escaped field ('"' :: rest)

theorem charRun_quotedRecord (field : List Char) (rest : List (List Char)) :
    charRun .fieldStart (quotedRecord (field :: rest)) = some .afterQuote := by
  induction rest generalizing field with
  | nil =>
      have closed := charRun_quoteField field []
      rw [List.append_nil] at closed
      rw [quotedRecord_singleton, closed]
      rfl
  | cons second rest ih =>
      rw [quotedRecord_cons, charRun_quoteField]
      exact ih second

theorem bom_not_prefix {others : List Char} : ¬ bom <+: utf8Encode ('"' :: others) := by
  intro marked
  obtain ⟨rest, same⟩ := marked
  have heads := congrArg List.head? same
  rw [utf8Encode, List.flatMap_cons] at heads
  cases heads

theorem utf8Encode_lineEnd {terminator : List Char} (known : terminator ∈ lineEnds) :
    utf8Encode terminator ∈ recordEnds := by
  revert terminator
  decide

theorem allRecords_of_closed {body terminator : Bytes} (nonempty : body ≠ [])
    (run : byteRun .fieldStart body = some .afterQuote) (known : terminator ∈ recordEnds) :
    (Machine.start.feed (body ++ terminator)).allRecords = [(body, terminator)] ∧
      (Machine.start.feed (body ++ terminator)).phase ≠ .quoted := by
  have fed : Machine.start.feed body = ⟨[], body, .afterQuote⟩ := feed_byteRun run
  rw [Machine.feed_append, fed]
  simp only [recordEnds, List.mem_cons, List.not_mem_nil, or_false] at known
  rcases known with rfl | rfl | rfl | rfl
  · refine ⟨?_, Phase.noConfusion⟩
    simp [Machine.feed, Machine.allRecords, Machine.tail, nonempty]
  · exact ⟨rfl, Phase.noConfusion⟩
  · exact ⟨rfl, Phase.noConfusion⟩
  · exact ⟨rfl, Phase.noConfusion⟩

theorem framed_of_closed {cap : Int} {blockSize : Nat} {body terminator : Bytes}
    (accepted : 4 ≤ blockSize) (nonempty : body ≠ []) (unmarked : ¬ bom <+: body ++ terminator)
    (run : byteRun .fieldStart body = some .afterQuote) (known : terminator ∈ recordEnds)
    (fits : (body.length : Int) ≤ cap) :
    iterCsvRecords cap blockSize (body ++ terminator) =
      some ([body ++ terminator], .finished) := by
  obtain ⟨records, outside⟩ := allRecords_of_closed nonempty run known
  have machine : machineRun (body ++ terminator) = Machine.start.feed (body ++ terminator) :=
    if_neg unmarked
  have whole : streamRecords (body ++ terminator) = [(body, terminator)] := by
    rw [streamRecords, machine, records]
  have notQuoted : endsInQuotes (body ++ terminator) = false := by
    rw [endsInQuotes, machine]
    exact decide_eq_false outside
  have kept : [(body, terminator)].takeWhile (Machine.fits cap) = [(body, terminator)] := by
    have inside : Machine.fits cap (body, terminator) = true := decide_eq_true fits
    rw [List.takeWhile_cons_of_pos inside, List.takeWhile_nil]
  rw [iterCsvRecords_eq accepted, referenceFraming, whole, kept, if_neg (Nat.lt_irrefl _),
    notQuoted, if_neg Bool.false_ne_true]
  rfl

/-- What the splitter owes to the framer: quoted fields come back through it, and of the records
that it emits the valid UTF-8 ones are split, the first one and those that begin with no BOM. -/
structure FieldsExact : Prop where
  inverse : ∀ fields terminator cap blockSize, fields ≠ [] → terminator ∈ lineEnds →
    4 ≤ blockSize → ((utf8Encode (quotedRecord fields)).length : Int) ≤ cap →
      ∃ record, iterCsvRecords cap blockSize (utf8Encode (quotedRecord fields ++ terminator)) =
          some ([record], .finished) ∧ splitRecordFields record = some fields
  total : ∀ cap blockSize stream framed index record,
    iterCsvRecords cap blockSize stream = some framed → framed.1[index]? = some record →
      (index = 0 ∨ ¬ bom <+: record) →
        ((∃ fields, splitRecordFields record = some fields ∧ fields ≠ []) ↔
          ∃ text, decodeSig record = some text)

theorem split_of_framed {cap : Int} {blockSize : Nat} {stream : Bytes} {framed : Framed}
    {index : Nat} {record : Bytes} (run : iterCsvRecords cap blockSize stream = some framed)
    (found : framed.1[index]? = some record) (unmarked : index = 0 ∨ ¬ bom <+: record)
    (decoded : decodeSig record = some text) :
    ∃ fields, splitRecordFields record = some fields ∧ fields ≠ [] := by
  obtain ⟨⟨marked, terminator⟩, rfl, inStream, at'⟩ := recordAt_of_framed run found
  obtain ⟨⟨body, isBody, closed⟩, known⟩ := at'
  -- the mark the decoder strips is the one the framer has kept
  have stripped : (if bom <+: joinRecord (marked, terminator) then
      (joinRecord (marked, terminator)).drop bom.length else joinRecord (marked, terminator)) =
        body ++ terminator := by
    have joined : joinRecord (marked, terminator) =
        (if index = 0 then leadOf stream else []) ++ (body ++ terminator) := by
      rw [joinRecord, isBody, List.append_assoc]
    by_cases first : index = 0
    · rw [if_pos first] at joined
      rw [leadOf] at joined
      by_cases streamMarked : bom <+: stream
      · rw [if_pos streamMarked] at joined
        rw [joined, if_pos (List.prefix_append _ _), List.drop_left]
      · rw [if_neg streamMarked, List.nil_append] at joined
        have recordPrefix : joinRecord (marked, terminator) <+: stream := by
          rw [first] at inStream
          have whole := flatten_streamRecords stream
          cases records : streamRecords stream with
          | nil =>
              rw [records] at inStream
              cases inStream
          | cons head rest =>
              rw [records] at inStream whole
              cases inStream
              exact ⟨_, whole⟩
        rw [if_neg fun has => streamMarked (has.trans recordPrefix), joined]
    · rw [if_neg first, List.nil_append] at joined
      rw [if_neg (unmarked.resolve_left first), joined]
  have encoded : utf8Encode text = body ++ terminator := by
    rw [decodeSig, stripped] at decoded
    exact (utf8Encode_of_utf8Decode decoded).symm
  obtain ⟨phase, chars, outside, -⟩ := unterminated_text closed known encoded
  obtain ⟨fields, split, nonempty⟩ := splitText_of_closed _ chars outside
  exact ⟨fields, by rw [splitRecordFields, decoded]; exact split, nonempty⟩

theorem split_of_quoted {fields : List (List Char)} {terminator : List Char} {cap : Int}
    {blockSize : Nat} (some' : fields ≠ []) (known : terminator ∈ lineEnds)
    (accepted : 4 ≤ blockSize)
    (fits : ((utf8Encode (quotedRecord fields)).length : Int) ≤ cap) :
    ∃ record, iterCsvRecords cap blockSize (utf8Encode (quotedRecord fields ++ terminator)) =
        some ([record], .finished) ∧ splitRecordFields record = some fields := by
  obtain ⟨field, rest, rfl⟩ := List.exists_cons_of_ne_nil some'
  obtain ⟨others, head⟩ := quotedRecord_head field rest
  have run := charRun_quotedRecord field rest
  rw [← byteRun_utf8Encode] at run
  have split : utf8Encode (quotedRecord (field :: rest) ++ terminator) =
      utf8Encode (quotedRecord (field :: rest)) ++ utf8Encode terminator := List.flatMap_append
  have nonempty : utf8Encode (quotedRecord (field :: rest)) ≠ [] := by
    rw [head]
    nofun
  have unmarked : ¬ bom <+: utf8Encode (quotedRecord (field :: rest) ++ terminator) := by
    rw [head]
    exact bom_not_prefix
  refine ⟨utf8Encode (quotedRecord (field :: rest) ++ terminator), ?_, ?_⟩
  · rw [split] at unmarked ⊢
    exact framed_of_closed accepted nonempty unmarked run (utf8Encode_lineEnd known) fits
  · have decoded : decodeSig (utf8Encode (quotedRecord (field :: rest) ++ terminator)) =
        some (quotedRecord (field :: rest) ++ terminator) := by
      rw [decodeSig, if_neg unmarked, utf8Decode_utf8Encode]
    obtain ⟨phase, -, -, same⟩ := unterminated_text ⟨_, run, by decide⟩
      (utf8Encode_lineEnd known) split
    have chars := congrArg utf8Decode same
    rw [utf8Decode_utf8Encode, utf8Decode_utf8Encode] at chars
    rw [splitRecordFields, decoded]
    dsimp only
    rw [Option.some.inj chars, splitText_quotedRecord]

/-- Splitting inverts quoting through the framer, for every list of fields and every line end; and
of the records that the framer emits, splitting fails on those alone that are no UTF-8. -/
theorem csv_fields_exact : FieldsExact where
  inverse := fun _ _ _ _ some' known accepted fits => split_of_quoted some' known accepted fits
  total := by
    intro cap blockSize stream framed index record run found unmarked
    constructor
    · intro ⟨fields, split, _⟩
      cases decoded : decodeSig record with
      | none =>
          rw [splitRecordFields, decoded] at split
          cases split
      | some text => exact ⟨text, rfl⟩
    · intro ⟨text, decoded⟩
      exact split_of_framed run found unmarked decoded

theorem splitText_unterminated (split : splitField text = none) :
    splitText text = none := by
  rw [splitText]
  split
  · rfl
  all_goals simp_all

/-- A framed record that is no UTF-8 has no fields; and neither has a later record that begins with
a BOM, where the quote behind it is data to the framer and opens a field once the BOM is gone. -/
theorem invalid_utf8_unsplit :
    (iterCsvRecords 10 4 [0xFF] = some ([[0xFF]], .finished) ∧ splitRecordFields [0xFF] = none) ∧
    iterCsvRecords 10 4 ([97, 10] ++ bom ++ [34, 98]) =
      some ([[97, 10], bom ++ [34, 98]], .finished) ∧
    decodeSig (bom ++ [34, 98]) = some ['"', 'b'] ∧ splitRecordFields (bom ++ [34, 98]) = none := by
  refine ⟨⟨by decide +kernel, ?_⟩, by decide +kernel, by decide +kernel, ?_⟩
  · have undecoded : decodeSig [0xFF] = none := by decide +kernel
    rw [splitRecordFields, undecoded]
  · have decoded : decodeSig (bom ++ [34, 98]) = some ['"', 'b'] := by decide +kernel
    rw [splitRecordFields, decoded]
    exact splitText_unterminated (by decide)

end DecoyEngine.Io
