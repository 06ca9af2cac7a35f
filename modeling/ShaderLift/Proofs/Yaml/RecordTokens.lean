import ShaderLift.Proofs.Yaml.ScannerStep

/-!
# Tokens of records

A list of records is written line by line, and the scanner takes each line
apart: a dash for each record, and a name, a colon and a text for each entry.
The indentation of the lines gives the tokens that open and close collections.
-/

namespace ShaderLift
namespace Yaml
namespace Scanner

/-! ## Names -/

/-- A lower-case letter or an underscore. -/
def isNameChar (c : Char) : Bool :=
  c.isLower || c == '_'

/-- A name that a reader takes for a key. -/
structure IsKey (key : List Char) : Prop where
  nonempty : key ≠ []
  chars : ∀ c ∈ key, isNameChar c = true
  short : key.length ≤ 1024
  isText : resolvePlain key = .text

theorem ne_of_isNameChar
    {c : Char}
    (named : isNameChar c = true)
    (mark : Char)
    (other : isNameChar mark = false) : c ≠ mark := by
  rintro rfl
  rw [named] at other
  contradiction

theorem isGap_of_isNameChar
    {c : Char}
    (named : isNameChar c = true) : isGap c = false := by
  have other := ne_of_isNameChar named
  simp [isGap, isWhite, isBreak, other '\x00' rfl, other '\r' rfl, other ' ' rfl,
    other '\t' rfl, other '\n' rfl, other '\x85' rfl, other '\u2028' rfl,
    other '\u2029' rfl]

theorem isPlainStep_of_isNameChar
    {c : Char}
    (named : isNameChar c = true) : Place.isPlainStep c = true := by
  have noGap := isGap_of_isNameChar named
  have noMark := ne_of_isNameChar named '\ufeff' rfl
  simp only [isGap, isWhite, Bool.or_eq_false_iff] at noGap
  simp [Place.isPlainStep, noGap, noMark]

theorem plainStarts_of_isNameChar
    {c : Char}
    (named : isNameChar c = true)
    (rest : List Char) : plainStarts false (c :: rest) = true := by
  have unlisted : "-?:,[]\x7b\x7d#&*!|>'\"%@`".toList.contains c = false := by
    have marks : ("-?:,[]\x7b\x7d#&*!|>'\"%@`".toList.all fun mark =>
        !isNameChar mark) = true := rfl
    cases listed : "-?:,[]\x7b\x7d#&*!|>'\"%@`".toList.contains c with
    | false => rfl
    | true =>
        have other := List.all_eq_true.mp marks c (List.contains_iff_mem.mp listed)
        rw [named] at other
        contradiction
  rw [plainStarts, isWhite_of_isGap (isGap_of_isNameChar named), unlisted]
  rfl

theorem hasDivider_name
    {key : List Char}
    (named : ∀ c ∈ key, isNameChar c = true)
    (afterGap : Bool) : hasDivider afterGap key = false := by
  induction key generalizing afterGap with
  | nil => rfl
  | cons c key inductionHypothesis =>
      obtain ⟨namedHead, named⟩ := List.forall_mem_cons.mp named
      have noColon := ne_of_isNameChar namedHead ':' rfl
      have noHash := ne_of_isNameChar namedHead '#' rfl
      simp [hasDivider, noColon, noHash, inductionHypothesis named]

theorem takePlain_name
    {key : List Char}
    (isKey : IsKey key)
    (indent fuel : Nat)
    (more : List Char) :
    takePlain false indent (fuel + 1) (key ++ ':' :: ' ' :: more) =
      ⟨key, false, ':' :: ' ' :: more⟩ := by
  have noGap : ∀ c ∈ key, isGap c = false := fun c member =>
    isGap_of_isNameChar (isKey.chars c member)
  have undivided : hasDivider false (key ++ []) = false := by
    rw [List.append_nil]
    exact hasDivider_name isKey.chars false
  have spaced : plainSpacing (':' :: ' ' :: more) = ⟨[], false, 0, ':' :: ' ' :: more⟩ :=
    plainSpacing_spaces (StartsVisible.cons rfl _) 0
  rw [takePlain, takePlainWord_append noGap undivided rfl rfl]
  simp [spaced]

/-- The scanner behind a name that may be a key. -/
def named
    (place : Place)
    (tokens : List Token)
    (indent : Int)
    (outer : List Int)
    (candidate : Candidate) : Scanner :=
  { waiting place tokens indent outer with candidate := some candidate }

theorem takePlainScalar_ready
    (place : Place)
    (tokens : List Token)
    (indent : Int)
    (outer : List Int) :
    (ready place tokens indent outer).takePlainScalar =
      let scanned := takePlain false (indent + 1).toNat (place.rest.length + 1) place.rest
      .ok { named (place.moveTo scanned.rest) (tokens ++ [.scalar true scanned.text])
        indent outer ⟨tokens.length, indent == place.column, place.line, place.column,
          place.index⟩ with keyAllowed := scanned.broken } :=
  rfl

theorem refreshAll_named
    {place : Place}
    {candidate : Candidate}
    (fresh : isFresh place candidate = true)
    (tokens : List Token)
    (indent : Int)
    (outer : List Int) :
    (named place tokens indent outer candidate).refreshAll =
      .ok (named place tokens indent outer candidate) := by
  have kept : refresh place (some candidate) = .ok (some candidate) := by
    simp [refresh, fresh]
  change (refresh place (some candidate)).bind _ = _
  rw [kept]
  rfl

theorem takeToken_colon
    (scanner : Scanner)
    (more : List Char) : scanner.takeToken ':' (' ' :: more) = scanner.takeValue := by
  simp [takeToken, atDocumentMark, atWordEnd, isWhite]

/-- The tokens that open a mapping at the second column, unless it is open. -/
def openingTokens (indent : Int) : List Token :=
  if indent < 2 then [.blockMappingStart] else []

/-- The collections around an open mapping at the second column. -/
def aroundMapping (indent : Int) (outer : List Int) : List Int :=
  if indent < 2 then indent :: outer else outer

theorem takeValue_named
    {indent : Int}
    (shallow : indent ≤ 2)
    (place : Place)
    (name : Token)
    (tokens : List Token)
    (outer : List Int)
    (required : Bool)
    (line index : Nat) :
    (named place (tokens ++ [name]) indent outer
        ⟨tokens.length, required, line, 2, index⟩).takeValue =
      .ok (waiting (place.skip 1)
        (tokens ++ openingTokens indent ++ [.key, name, .value]) 2
        (aroundMapping indent outer)) := by
  unfold openingTokens aroundMapping
  by_cases isNew : indent < 2
  · simp [takeValue, named, waiting, ready, insertAt, inFlow, openBlock, takeMark, emit,
      isNew]
    rfl
  · have same : indent = 2 := by omega
    subst same
    simp [takeValue, named, waiting, ready, insertAt, inFlow, openBlock, takeMark, emit]
    rfl

/-- A name is taken as a scalar that may be a key. -/
theorem leads_key
    {scanner : Scanner}
    {key more : List Char}
    {line index : Nat}
    {tokens : List Token}
    {indent : Int}
    {outer : List Int}
    (isKey : IsKey key)
    (stands : scanner.toNextToken =
      ready ⟨key ++ ':' :: ' ' :: more, line, 2, index⟩ tokens indent outer)
    (shallow : indent ≤ 2) :
    Leads 1 scanner
      (named ⟨':' :: ' ' :: more, line, 2 + key.length, index + key.length⟩
        (tokens ++ [.scalar true key]) indent outer
        ⟨tokens.length, indent == 2, line, 2, index⟩) := by
  have moved : (⟨key ++ ':' :: ' ' :: more, line, 2, index⟩ : Place).moveTo
      (':' :: ' ' :: more) =
      ⟨':' :: ' ' :: more, line, 2 + key.length, index + key.length⟩ := by
    rw [Place.moveTo_append rfl]
    exact Place.skip_append rfl fun c member =>
      isPlainStep_of_isNameChar (isKey.chars c member)
  have taken : (ready ⟨key ++ ':' :: ' ' :: more, line, 2, index⟩ tokens indent
      outer).takePlainScalar =
      .ok (named ⟨':' :: ' ' :: more, line, 2 + key.length, index + key.length⟩
        (tokens ++ [.scalar true key]) indent outer
        ⟨tokens.length, indent == 2, line, 2, index⟩) := by
    rw [takePlainScalar_ready, takePlain_name isKey]
    dsimp only
    rw [moved]
    rfl
  obtain ⟨c, rest, rfl⟩ := List.exists_cons_of_ne_nil isKey.nonempty
  have named := isKey.chars c List.mem_cons_self
  apply leads_taken stands rfl shallow rfl
  rw [takeToken_plain (plainStarts_of_isNameChar named _) rfl (Nat.succ_ne_zero 1)]
  exact taken

/-- A name and its colon. -/
theorem leads_name
    {scanner : Scanner}
    {key more : List Char}
    {tokens : List Token}
    {indent : Int}
    {outer : List Int}
    (isKey : IsKey key)
    (stands : GoesOn scanner 2 (key ++ ':' :: ' ' :: more) tokens indent outer)
    (shallow : indent ≤ 2)
    (starts : StartsToken more) :
    ∃ next place, Leads 2 scanner next ∧ place.rest = more ∧ 2 ≤ place.column ∧
      next.toNextToken =
        waiting place
          (tokens ++ openingTokens indent ++ [.key, .scalar true key, .value]) 2
          (aroundMapping indent outer) := by
  obtain ⟨line, index, stands⟩ := stands
  have waitsForColon : StartsToken (':' :: ' ' :: more) :=
    ⟨.inr (StartsVisible.cons rfl _), by simp, by simp⟩
  have fresh : isFresh
      ⟨':' :: ' ' :: more, line, 2 + key.length, index + key.length⟩
      ⟨tokens.length, indent == 2, line, 2, index⟩ = true := by
    have short := isKey.short
    simp [isFresh, short]
  have colon : Leads 1
      (named ⟨':' :: ' ' :: more, line, 2 + key.length, index + key.length⟩
        (tokens ++ [.scalar true key]) indent outer
        ⟨tokens.length, indent == 2, line, 2, index⟩)
      (waiting ⟨' ' :: more, line, 2 + key.length + 1, index + key.length + 1⟩
        (tokens ++ openingTokens indent ++ [.key, .scalar true key, .value]) 2
        (aroundMapping indent outer)) := by
    apply leads_taken (toNextToken_of_startsToken waitsForColon)
      (refreshAll_named fresh _ _ _) ?_ rfl ?_
    · show indent ≤ ((2 + key.length : Nat) : Int)
      omega
    · rw [takeToken_colon, takeValue_named shallow]
      rfl
  refine ⟨_, _, (leads_key isKey stands shallow).trans colon, ?_, ?_,
    toNextToken_space rfl starts⟩
  · rfl
  · show 2 ≤ 2 + key.length + 1 + 1
    omega

/-! ## Entries and records -/

/-- The tokens of one entry. -/
def entryTokens (entry : String × String) : List Token :=
  [.key, .scalar true entry.1.toList, .value, scalarToken entry.2.toList]

/-- The tokens of one record. -/
def recordTokens (record : List (String × String)) : List Token :=
  .blockEntry :: .blockMappingStart :: (record.flatMap entryTokens ++ [.blockEnd])

/-- One entry behind its margin, up to the next line. -/
theorem leads_entry
    {scanner : Scanner}
    {entry : String × String}
    {column count : Nat}
    {left : List Char}
    {tokens : List Token}
    {indent : Int}
    {outer : List Int}
    (isKey : IsKey entry.1.toList)
    (stands : GoesOn scanner 2
      (entry.1.toList ++ ':' :: ' ' :: (writeScalar column entry.2.toList ++
        '\n' :: (List.replicate count ' ' ++ left))) tokens indent outer)
    (indented : indent ≤ 2)
    (shallow : count < 3)
    (starts : StartsToken left) :
    ∃ next, Leads 3 scanner next ∧
      GoesOn next count left (tokens ++ openingTokens indent ++ entryTokens entry) 2
        (aroundMapping indent outer) := by
  obtain ⟨colon, place, leadsColon, ahead, inside, waits⟩ :=
    leads_name isKey stands indented (startsToken_writeScalar column _ _)
  obtain ⟨next, leadsNext, goesOn⟩ := leads_scalar waits ahead inside shallow starts
  refine ⟨next, leadsColon.trans leadsNext, ?_⟩
  simpa [entryTokens] using goesOn

theorem takeToken_dash
    (scanner : Scanner)
    (more : List Char) :
    scanner.takeToken '-' (' ' :: more) = scanner.takeBlockEntry := by
  simp [takeToken, atDocumentMark, atWordEnd, isWhite]

/-- The dash of the first record opens the list. -/
theorem leads_firstDash
    {scanner : Scanner}
    {more : List Char}
    (stands : GoesOn scanner 0 ('-' :: ' ' :: more) [] (-1) [])
    (starts : StartsToken more) :
    ∃ next, Leads 1 scanner next ∧
      GoesOn next 2 more [.blockSequenceStart, .blockEntry] 0 [-1] := by
  obtain ⟨line, index, stands⟩ := stands
  refine ⟨ready ⟨' ' :: more, line, 1, index + 1⟩ [.blockSequenceStart, .blockEntry] 0
    [-1], ?_, line, index + 2, toNextToken_space rfl starts⟩
  apply leads_taken stands rfl (show (-1 : Int) ≤ 0 by decide) rfl
  rw [takeToken_dash]
  rfl

/-- The dash of another record closes the one before it. -/
theorem leads_dash
    {scanner : Scanner}
    {more : List Char}
    {tokens : List Token}
    (stands : GoesOn scanner 0 ('-' :: ' ' :: more) tokens 2 [0, -1])
    (starts : StartsToken more) :
    ∃ next, Leads 1 scanner next ∧
      GoesOn next 2 more (tokens ++ [.blockEnd, .blockEntry]) 0 [-1] := by
  obtain ⟨line, index, stands⟩ := stands
  refine ⟨ready ⟨' ' :: more, line, 1, index + 1⟩ (tokens ++ [.blockEnd, .blockEntry]) 0
    [-1], ?_, line, index + 2, toNextToken_space rfl starts⟩
  apply @leads_one scanner
    (ready ⟨'-' :: ' ' :: more, line, 0, index⟩ tokens 2 [0, -1]) _ '-' (' ' :: more)
  · rw [stands]
    rfl
  · rfl
  · rw [takeToken_dash, List.append_cons tokens]
    rfl

/-- The end of the text closes all collections. -/
theorem scanAll_end
    {scanner : Scanner}
    {tokens : List Token}
    (stands : GoesOn scanner 0 [] tokens 2 [0, -1])
    (fuel : Nat) :
    scanAll (fuel + 1) scanner = ⟨tokens ++ [.blockEnd, .blockEnd], none⟩ := by
  obtain ⟨line, index, stands⟩ := stands
  rw [scanAll, stands, List.append_cons tokens]
  rfl

/-! ## All lines -/

/-- The lines of the other entries of a record and of the records behind it. -/
def linesOf (entries : List (String × String)) (records : Records) : List Char :=
  entries.flatMap (writeEntry [' ', ' ']) ++ records.flatMap writeRecord

/-- How the first of these lines is indented. -/
def indentOf (entries : List (String × String)) : Nat :=
  if entries.isEmpty then 0 else 2

/-- Records that are read again: each has entries, and their names are keys. -/
def AreReadable (records : Records) : Prop :=
  ∀ record ∈ records, record ≠ [] ∧ ∀ entry ∈ record, IsKey entry.1.toList

/-- The line of an entry behind its margin, and the lines behind it. -/
def entryLine (column : Nat) (entry : String × String) (rest : List Char) : List Char :=
  entry.1.toList ++ ':' :: ' ' :: (writeScalar column entry.2.toList ++ '\n' :: rest)

theorem exists_writeEntry
    (opening : List Char)
    (entry : String × String) :
    ∃ column, ∀ rest, writeEntry opening entry ++ rest =
      opening ++ entryLine column entry rest := by
  refine ⟨(opening ++ entry.1.toList ++ [':', ' ']).length, ?_⟩
  intro rest
  simp [writeEntry, entryLine]

theorem length_entryLine
    (column : Nat)
    (entry : String × String)
    (rest : List Char) : 3 + rest.length ≤ (entryLine column entry rest).length := by
  simp only [entryLine, List.length_append, List.length_cons]
  omega

theorem exists_linesOf_cons
    (entry : String × String)
    (entries : List (String × String))
    (records : Records) :
    ∃ column, linesOf (entry :: entries) records =
      ' ' :: ' ' :: entryLine column entry (linesOf entries records) := by
  obtain ⟨column, written⟩ := exists_writeEntry [' ', ' '] entry
  refine ⟨column, ?_⟩
  rw [linesOf, List.flatMap_cons, List.append_assoc]
  exact written (linesOf entries records)

theorem exists_linesOf_record
    (first : String × String)
    (rest : List (String × String))
    (records : Records) :
    ∃ column, linesOf [] ((first :: rest) :: records) =
      '-' :: ' ' :: entryLine column first (linesOf rest records) := by
  obtain ⟨column, written⟩ := exists_writeEntry ['-', ' '] first
  refine ⟨column, ?_⟩
  rw [linesOf, List.flatMap_nil, List.nil_append, List.flatMap_cons, writeRecord,
    List.append_assoc]
  exact written (linesOf rest records)

theorem startsToken_entryLine
    {entry : String × String}
    (isKey : IsKey entry.1.toList)
    (column : Nat)
    (rest : List Char) : StartsToken (entryLine column entry rest) := by
  obtain ⟨c, more, key⟩ := List.exists_cons_of_ne_nil isKey.nonempty
  have member : c ∈ entry.1.toList := key ▸ List.mem_cons_self
  have named := isKey.chars c member
  have noHash := ne_of_isNameChar named '#' rfl
  have noMark := ne_of_isNameChar named '\ufeff' rfl
  rw [entryLine, key, List.cons_append]
  exact ⟨.inr (StartsVisible.cons (isWhite_of_isGap (isGap_of_isNameChar named)) _),
    by simpa using noHash, by simpa using noMark⟩

/-- Lines start with their indentation and then with a token. -/
theorem exists_left
    {entries : List (String × String)}
    {records : Records}
    (keys : ∀ entry ∈ entries, IsKey entry.1.toList)
    (readable : AreReadable records) :
    ∃ left, linesOf entries records =
        List.replicate (indentOf entries) ' ' ++ left ∧ StartsToken left := by
  cases entries with
  | cons entry entries =>
      obtain ⟨column, written⟩ := exists_linesOf_cons entry entries records
      exact ⟨_, written, startsToken_entryLine (keys entry List.mem_cons_self) _ _⟩
  | nil =>
      cases records with
      | nil => exact ⟨[], rfl, .inl rfl, by simp, by simp⟩
      | cons record records =>
          obtain ⟨nonempty, _⟩ := readable record List.mem_cons_self
          obtain ⟨first, rest, rfl⟩ := List.exists_cons_of_ne_nil nonempty
          obtain ⟨column, written⟩ := exists_linesOf_record first rest records
          exact ⟨_, written, .inr (StartsVisible.cons rfl _), by simp, by simp⟩

/-- The scanner takes the line of an entry and goes on with the next one. -/
theorem leads_entryLine
    {scanner : Scanner}
    {entries : List (String × String)}
    {records : Records}
    {column : Nat}
    {tokens : List Token}
    {indent : Int}
    {outer : List Int}
    (entry : String × String)
    (isKey : IsKey entry.1.toList)
    (keys : ∀ entry ∈ entries, IsKey entry.1.toList)
    (readable : AreReadable records)
    (stands : GoesOn scanner 2 (entryLine column entry (linesOf entries records)) tokens
      indent outer)
    (indented : indent ≤ 2) :
    ∃ next left, linesOf entries records =
        List.replicate (indentOf entries) ' ' ++ left ∧
      Leads 3 scanner next ∧
      GoesOn next (indentOf entries) left
        (tokens ++ openingTokens indent ++ entryTokens entry) 2
        (aroundMapping indent outer) := by
  obtain ⟨left, lines, starts⟩ := exists_left keys readable
  have shallow : indentOf entries < 3 := by
    unfold indentOf
    split <;> omega
  rw [lines] at stands
  obtain ⟨next, leads, goesOn⟩ := leads_entry isKey stands indented shallow starts
  exact ⟨next, left, lines, leads, goesOn⟩

/-- The scanner takes the other entries of a record. -/
theorem leads_entries
    {scanner : Scanner}
    {entries : List (String × String)}
    {records : Records}
    {left : List Char}
    {tokens : List Token}
    (keys : ∀ entry ∈ entries, IsKey entry.1.toList)
    (readable : AreReadable records)
    (lines : linesOf entries records = List.replicate (indentOf entries) ' ' ++ left)
    (stands : GoesOn scanner (indentOf entries) left tokens 2 [0, -1]) :
    ∃ count next,
      count + (linesOf [] records).length ≤ (linesOf entries records).length ∧
      Leads count scanner next ∧
      GoesOn next 0 (linesOf [] records) (tokens ++ entries.flatMap entryTokens) 2
        [0, -1] := by
  induction entries generalizing scanner left tokens with
  | nil =>
      refine ⟨0, scanner, by omega, fun _ => rfl, ?_⟩
      rw [show linesOf [] records = left from lines, List.flatMap_nil, List.append_nil]
      exact stands
  | cons entry entries inductionHypothesis =>
      obtain ⟨isKey, keys⟩ := List.forall_mem_cons.mp keys
      obtain ⟨column, written⟩ := exists_linesOf_cons entry entries records
      rw [written] at lines ⊢
      cases lines
      obtain ⟨middle, left, lines, leads, goesOn⟩ :=
        leads_entryLine entry isKey keys readable stands (Int.le_refl 2)
      obtain ⟨count, next, bounded, leadsOn, ends⟩ :=
        inductionHypothesis keys lines goesOn
      refine ⟨count + 3, next, ?_, leads.trans leadsOn, ?_⟩
      · have long := length_entryLine column entry (linesOf entries records)
        rw [List.length_cons, List.length_cons]
        omega
      · simpa [openingTokens] using ends

/-- The scanner takes a record behind its dash. -/
theorem leads_record
    {scanner : Scanner}
    {rest : List (String × String)}
    {others : Records}
    {column : Nat}
    {tokens : List Token}
    (first : String × String)
    (isKey : IsKey first.1.toList)
    (keys : ∀ entry ∈ rest, IsKey entry.1.toList)
    (readable : AreReadable others)
    (stands : GoesOn scanner 2 (entryLine column first (linesOf rest others)) tokens 0
      [-1]) :
    ∃ count next,
      count + (linesOf [] others).length ≤
        (entryLine column first (linesOf rest others)).length ∧
      Leads count scanner next ∧
      GoesOn next 0 (linesOf [] others)
        (tokens ++ .blockMappingStart :: (first :: rest).flatMap entryTokens) 2
        [0, -1] := by
  have long := length_entryLine column first (linesOf rest others)
  obtain ⟨middle, left, lines, leadsEntry, goesOn⟩ :=
    leads_entryLine first isKey keys readable stands (by decide)
  obtain ⟨count, next, bounded, leadsEntries, goesOn⟩ :=
    leads_entries keys readable lines goesOn
  refine ⟨count + 3, next, by omega, leadsEntry.trans leadsEntries, ?_⟩
  simpa [openingTokens, aroundMapping] using goesOn

/-- The scanner takes a record behind its dash and all records behind it. -/
theorem leads_records
    {scanner : Scanner}
    {rest : List (String × String)}
    {others : Records}
    {column : Nat}
    {tokens : List Token}
    (first : String × String)
    (isKey : IsKey first.1.toList)
    (keys : ∀ entry ∈ rest, IsKey entry.1.toList)
    (readable : AreReadable others)
    (stands : GoesOn scanner 2 (entryLine column first (linesOf rest others)) tokens 0
      [-1]) :
    ∃ count next, count ≤ (entryLine column first (linesOf rest others)).length ∧
      Leads count scanner next ∧
      ∀ fuel, scanAll (fuel + 1) next =
        ⟨tokens ++ .blockMappingStart :: ((first :: rest).flatMap entryTokens ++
          .blockEnd :: (others.flatMap recordTokens ++ [.blockEnd])), none⟩ := by
  induction others generalizing scanner first rest column tokens with
  | nil =>
      obtain ⟨count, last, bounded, leads, goesOn⟩ :=
        leads_record first isKey keys readable stands
      refine ⟨count, last, by omega, leads, ?_⟩
      intro fuel
      rw [scanAll_end goesOn fuel]
      simp
  | cons record others inductionHypothesis =>
      obtain ⟨more, last, bounded, leads, goesOn⟩ :=
        leads_record first isKey keys readable stands
      obtain ⟨⟨nonempty, nextKeys⟩, readableOthers⟩ := List.forall_mem_cons.mp readable
      obtain ⟨next, nextRest, rfl⟩ := List.exists_cons_of_ne_nil nonempty
      obtain ⟨nextKey, nextKeys⟩ := List.forall_mem_cons.mp nextKeys
      obtain ⟨nextColumn, written⟩ := exists_linesOf_record next nextRest others
      rw [written, List.length_cons, List.length_cons] at bounded
      rw [written] at goesOn
      obtain ⟨dashed, leadsDash, goesOn⟩ :=
        leads_dash goesOn (startsToken_entryLine nextKey _ _)
      obtain ⟨count, final, short, leadsRecords, ends⟩ :=
        inductionHypothesis next nextKey nextKeys readableOthers goesOn
      refine ⟨count + (1 + more), final, by omega,
        (leads.trans leadsDash).trans leadsRecords, ?_⟩
      intro fuel
      rw [ends fuel]
      simp [recordTokens]

end Scanner

/-! ## Documents -/

theorem all_isKept_writeScalar
    (column : Nat)
    (text : List Char) : (writeScalar column text).all isKept = true := by
  have quotes : isKept '"' = true ∧ isKept '\'' = true := by decide
  unfold writeScalar styleOf
  cases plain : allowsPlain text with
  | true => exact all_isKept_writePlain (isPlain_of_allowsPlain plain).writable false column
  | false =>
      cases single : allowsSingle text with
      | true =>
          have kept := all_isKept_writeSingle (fitsSingle_of_allowsSingle single).writable
            none (column + 1)
          simpa [quotes] using kept
      | false =>
          have kept := all_isKept_writeDouble true true (column + 1) text
          simpa [quotes] using kept

theorem isKept_of_isNameChar
    {c : Char}
    (named : Scanner.isNameChar c = true) : isKept c = true := by
  have other := Scanner.ne_of_isNameChar named '\r' rfl
  have letters : 97 ≤ c.toNat ∧ c.toNat ≤ 122 ∨ c.toNat = 95 := by
    simp only [Scanner.isNameChar, Bool.or_eq_true, beq_iff_eq] at named
    rcases named with lower | rfl
    · left
      have bounds : (decide (97 ≤ c.val) && decide (c.val ≤ 122)) = true := lower
      simpa [UInt32.le_iff_toNat_le, ← Char.toNat_val] using bounds
    · exact .inr rfl
  simp only [isKept, isAllowed, Bool.and_eq_true, Bool.or_eq_true, decide_eq_true_eq,
    beq_iff_eq, bne_iff_ne]
  exact ⟨by omega, other⟩

theorem all_isKept_writeEntry
    {opening : List Char}
    {entry : String × String}
    (opens : opening.all isKept = true)
    (isKey : Scanner.IsKey entry.1.toList) :
    (writeEntry opening entry).all isKept = true := by
  have key : entry.1.toList.all isKept = true :=
    List.all_eq_true.mpr fun c member => isKept_of_isNameChar (isKey.chars c member)
  have marks : isKept ':' = true ∧ isKept ' ' = true ∧ isKept '\n' = true := by decide
  simp only [writeEntry, List.all_append, List.all_cons, List.all_nil, opens, key, marks,
    all_isKept_writeScalar, Bool.and_self]

/-- Every character of the lines of records is kept by a reader. -/
theorem all_isKept_records
    {records : Records}
    (readable : Scanner.AreReadable records) :
    (records.flatMap writeRecord).all isKept = true := by
  rw [List.all_flatMap, List.all_eq_true]
  intro record member
  obtain ⟨nonempty, keys⟩ := readable record member
  obtain ⟨first, rest, rfl⟩ := List.exists_cons_of_ne_nil nonempty
  obtain ⟨isKey, keys⟩ := List.forall_mem_cons.mp keys
  rw [writeRecord, List.all_append, all_isKept_writeEntry rfl isKey, Bool.true_and,
    List.all_flatMap, List.all_eq_true]
  intro entry member
  exact all_isKept_writeEntry rfl (keys entry member)

/-- The tokens of a list of records. -/
def recordsTokens (records : Records) : List Token :=
  .blockSequenceStart :: (records.flatMap Scanner.recordTokens ++ [.blockEnd])

theorem tokens_writeRecords
    {records : Records}
    (nonempty : records ≠ [])
    (readable : Scanner.AreReadable records) :
    tokens (writeRecords records) = ⟨recordsTokens records, none⟩ := by
  have written : writeRecords records = Scanner.linesOf [] records := by
    obtain ⟨record, more, rfl⟩ := List.exists_cons_of_ne_nil nonempty
    rfl
  have allowed : (Scanner.linesOf [] records).all isAllowed = true := by
    have kept := List.all_eq_true.mp (all_isKept_records readable)
    refine List.all_eq_true.mpr fun c member => ?_
    have keptChar := kept c member
    simp only [isKept, Bool.and_eq_true] at keptChar
    exact keptChar.1
  rw [tokens, written, if_pos allowed]
  obtain ⟨record, others, rfl⟩ := List.exists_cons_of_ne_nil nonempty
  obtain ⟨⟨someEntry, keys⟩, readableOthers⟩ := List.forall_mem_cons.mp readable
  obtain ⟨first, rest, rfl⟩ := List.exists_cons_of_ne_nil someEntry
  obtain ⟨isKey, keys⟩ := List.forall_mem_cons.mp keys
  obtain ⟨column, lines⟩ := Scanner.exists_linesOf_record first rest others
  rw [lines]
  have dash : StartsToken
      ('-' :: ' ' :: Scanner.entryLine column first (Scanner.linesOf rest others)) :=
    ⟨.inr (StartsVisible.cons rfl _), by simp, by simp⟩
  obtain ⟨dashed, leadsDash, goesOn⟩ := Scanner.leads_firstDash
    ⟨0, 0, Scanner.toNextToken_of_startsToken dash⟩
    (Scanner.startsToken_entryLine isKey column _)
  obtain ⟨count, next, short, leadsRecords, ends⟩ :=
    Scanner.leads_records first isKey keys readableOthers goesOn
  obtain ⟨spare, enough⟩ : ∃ spare,
      ('-' :: ' ' :: Scanner.entryLine column first
        (Scanner.linesOf rest others)).length + 1 = spare + 1 + (count + 1) := by
    refine ⟨(Scanner.entryLine column first (Scanner.linesOf rest others)).length + 1 -
      count, ?_⟩
    rw [List.length_cons, List.length_cons]
    omega
  rw [enough]
  refine ((leadsDash.trans leadsRecords) (spare + 1)).trans ?_
  rw [ends]
  simp [recordsTokens, Scanner.recordTokens]

end Yaml
end ShaderLift
