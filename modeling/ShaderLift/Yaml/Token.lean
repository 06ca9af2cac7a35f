import ShaderLift.Yaml.Scalar

/-!
# Tokens of a document

A document is cut into tokens.  Indentation becomes tokens that open and close
block collections.  A token that may turn out to be a key is a candidate: if a
colon follows it on the same line, a key mark is put before it, and before
that the start of a block mapping if the candidate stands deeper than the
collection around it.
-/

namespace ShaderLift
namespace Yaml

/-- A token of a document. -/
inductive Token
  /-- A directive; only those for the version and for tags have a value. -/
  | versionDirective (major : Nat)
  | tagDirective (handle uri : List Char)
  | otherDirective
  | documentStart
  | documentEnd
  | blockSequenceStart
  | blockMappingStart
  | blockEnd
  | flowSequenceStart
  | flowSequenceEnd
  | flowMappingStart
  | flowMappingEnd
  | flowEntry
  | blockEntry
  | key
  | value
  | reference (name : List Char)
  | anchor (name : List Char)
  | tag (handle : Option (List Char)) (suffix : List Char)
  | scalar (plain : Bool) (text : List Char)
deriving Repr, DecidableEq

/-! ## Place in the text -/

/-- A place in a text: what follows, and how it is counted. -/
structure Place where
  rest : List Char
  line : Nat := 0
  column : Nat := 0
  index : Nat := 0
deriving Repr, DecidableEq

namespace Place

/-- Pass over so many characters.  A byte order mark takes no column. -/
def skip : Nat → Place → Place
  | 0, place => place
  | count + 1, place =>
      match place.rest with
      | [] => place
      | c :: rest =>
          skip count
            (if isBreak c then ⟨rest, place.line + 1, 0, place.index + 1⟩
            else
              ⟨rest, place.line,
                if c = '\ufeff' then place.column else place.column + 1,
                place.index + 1⟩)

/-- Go to the place where the given end of the text starts. -/
def moveTo (place : Place) (rest : List Char) : Place :=
  place.skip (place.rest.length - rest.length)

end Place

/-- Pass over spaces, comments and line ends.  Also says whether a line end was
passed.  The first argument says whether a comment is open. -/
def dropBlank : Bool → List Char → Bool × List Char
  | _, [] => (false, [])
  | inComment, c :: rest =>
      if isBreak c then (true, (dropBlank false rest).2)
      else if inComment then dropBlank true rest
      else if c = ' ' then dropBlank false rest
      else if c = '#' then dropBlank true rest
      else (false, c :: rest)

/-! ## Tags, anchors and directives -/

/-- Read the name of an anchor or an alias behind its mark. -/
def takeAnchor (text : List Char) : Except Fault (List Char × List Char) :=
  let name := text.takeWhile isAnchorChar
  let rest := text.dropWhile isAnchorChar
  let ends := rest.head?.all fun c =>
    isWhite c || "?:,]\x7d%@`".toList.contains c
  if name.isEmpty || !ends then .error .malformed else .ok (name, rest)

/-- A character of a tag other than the percent sign. -/
def isUriChar (c : Char) : Bool :=
  c.isAlphanum || "-;/?:@&=+$,_.!~*'()[]".toList.contains c

/-- Read a tag or its beginning.  Octets behind percent signs are read as
characters of one byte.  The fuel bounds the number of characters. -/
def takeUri : Nat → List Char → Except Fault (List Char × List Char)
  | 0, text => .ok ([], text)
  | _ + 1, [] => .ok ([], [])
  | fuel + 1, c :: rest =>
      if c = '%' then
        match takeHex 2 0 rest with
        | none => .error .malformed
        | some (code, left) =>
            if 0x80 ≤ code then .error .malformed
            else do
              let (uri, left) ← takeUri fuel left
              pure (Char.ofNat code :: uri, left)
      else if isUriChar c then do
        let (uri, left) ← takeUri fuel rest
        pure (c :: uri, left)
      else .ok ([], c :: rest)

/-- Read a tag that must not be empty. -/
def takeSuffix (text : List Char) : Except Fault (List Char × List Char) := do
  let (uri, rest) ← takeUri (text.length + 1) text
  if uri.isEmpty then throw .malformed
  pure (uri, rest)

/-- Read the handle of a tag: a mark, or a name between two marks. -/
def takeHandle (text : List Char) : Except Fault (List Char × List Char) :=
  match text with
  | '!' :: rest =>
      if rest.head? == some ' ' then .ok (['!'], rest)
      else
        let name := rest.takeWhile isAnchorChar
        match rest.dropWhile isAnchorChar with
        | '!' :: left => .ok ('!' :: name ++ ['!'], left)
        | _ => .error .malformed
  | _ => .error .malformed

/-- A tag token ends before a space, a line end or the end of the text. -/
def atTagEnd (text : List Char) : Bool :=
  text.head?.all fun c => c == ' ' || isBreak c

/-- Read a tag from its mark on. -/
def takeTag (text : List Char) : Except Fault (Token × List Char) := do
  let (token, rest) ←
    match text.drop 1 with
    | '<' :: inside => do
        let (uri, rest) ← takeSuffix inside
        match rest with
        | '>' :: left => pure (Token.tag none uri, left)
        | _ => throw .malformed
    | inside =>
        if atWordEnd inside then pure (Token.tag none ['!'], inside)
        else do
          let word := inside.takeWhile fun c => !(c == ' ' || isBreak c)
          let (handle, rest) ←
            if word.contains '!' then takeHandle text
            else pure (['!'], inside)
          let (suffix, left) ← takeSuffix rest
          pure (Token.tag (some handle) suffix, left)
  if atTagEnd rest then pure (token, rest) else throw .malformed

/-- Read a decimal number. -/
def takeNumber (text : List Char) : Except Fault (Nat × List Char) :=
  let digits := text.takeWhile Char.isDigit
  if digits.isEmpty then .error .malformed
  else
    .ok (Text.ofDigits 10 (digits.map fun c => c.toNat - 48),
      text.dropWhile Char.isDigit)

/-- Read a directive behind its mark, up to the end of its line. -/
def takeDirective (text : List Char) : Except Fault (Token × List Char) := do
  let name := text.takeWhile isAnchorChar
  let rest := text.dropWhile isAnchorChar
  if name.isEmpty || !atTagEnd rest then throw .malformed
  let spaces := fun (left : List Char) => left.dropWhile (· == ' ')
  let (token, rest) ←
    if name = "YAML".toList then do
      let (major, rest) ← takeNumber (spaces rest)
      match rest with
      | '.' :: rest =>
          let (_, rest) ← takeNumber rest
          if atTagEnd rest then pure (Token.versionDirective major, rest)
          else throw .malformed
      | _ => throw .malformed
    else if name = "TAG".toList then do
      let (handle, rest) ← takeHandle (spaces rest)
      if rest.head? != some ' ' then throw .malformed
      let (uri, rest) ← takeSuffix (spaces rest)
      if atTagEnd rest then pure (Token.tagDirective handle uri, rest)
      else throw .malformed
    else pure (Token.otherDirective, rest.dropWhile fun c => !isBreak c)
  let left ← dropCommentLine rest
  pure (token, left)

/-! ## The scanner -/

/-- A token that may turn out to be a key. -/
structure Candidate where
  /-- How many tokens stand before it. -/
  before : Nat
  /-- The token must be a key, because of its indentation. -/
  required : Bool
  line : Nat
  column : Nat
  index : Nat
deriving Repr, DecidableEq

/-- What the scanner knows between two tokens. -/
structure Scanner where
  place : Place
  tokens : List Token := []
  /-- Indentation of the innermost block collection, or -1. -/
  indent : Int := -1
  /-- Indentation of the collections around it. -/
  outer : List Int := []
  /-- A key may start here. -/
  keyAllowed : Bool := true
  /-- The candidate of the innermost flow collection, or outside all. -/
  candidate : Option Candidate := none
  /-- The candidates of the levels around it, the innermost first. -/
  around : List (Option Candidate) := []
deriving Repr, DecidableEq

namespace Scanner

/-- The scanner is inside a flow collection. -/
def inFlow (scanner : Scanner) : Bool :=
  !scanner.around.isEmpty

/-- Put a token behind the others. -/
def emit (scanner : Scanner) (token : Token) : Scanner :=
  { scanner with tokens := scanner.tokens ++ [token] }

/-- Put tokens before all but the first `count` ones. -/
def insertAt (scanner : Scanner) (count : Nat) (added : List Token) : Scanner :=
  { scanner with
    tokens := scanner.tokens.take count ++ added ++ scanner.tokens.drop count }

/-- Go to the place where the given end of the text starts. -/
def moveTo (scanner : Scanner) (rest : List Char) : Scanner :=
  { scanner with place := scanner.place.moveTo rest }

/-- A candidate stays one on its line and for 1024 characters. -/
def isFresh (place : Place) (candidate : Candidate) : Bool :=
  candidate.line == place.line && place.index - candidate.index ≤ 1024

/-- Forget a candidate that is too far away; a required one is an error. -/
def refresh
    (place : Place)
    (candidate : Option Candidate) : Except Fault (Option Candidate) :=
  match candidate with
  | none => .ok none
  | some found =>
      if isFresh place found then .ok (some found)
      else if found.required then .error .malformed
      else .ok none

/-- Forget all candidates that are too far away. -/
def refreshAll (scanner : Scanner) : Except Fault Scanner := do
  let candidate ← refresh scanner.place scanner.candidate
  let around ← scanner.around.mapM (refresh scanner.place)
  pure { scanner with candidate := candidate, around := around }

/-- Forget the candidate of this level; a required one is an error. -/
def dropCandidate (scanner : Scanner) : Except Fault Scanner :=
  match scanner.candidate with
  | none => .ok scanner
  | some candidate =>
      if candidate.required then .error .malformed
      else .ok { scanner with candidate := none }

/-- Remember the next token as a candidate if a key may start here. -/
def saveCandidate (scanner : Scanner) : Except Fault Scanner := do
  if scanner.keyAllowed then
    let dropped ← scanner.dropCandidate
    let place := scanner.place
    pure { dropped with
      candidate := some
        { before := scanner.tokens.length
          required := !scanner.inFlow && scanner.indent == place.column
          line := place.line
          column := place.column
          index := place.index } }
  else pure scanner

/-- Close block collections that are indented deeper than the column.  The
list bounds their number. -/
def closeBlocks (column : Int) :
    List Int → Int → List Token → List Int × Int × List Token
  | [], indent, tokens => ([], indent, tokens)
  | next :: outer, indent, tokens =>
      if column < indent then
        closeBlocks column outer next (tokens ++ [.blockEnd])
      else (next :: outer, indent, tokens)

/-- Close block collections that are indented deeper than the column; inside
flow collections indentation does not count. -/
def unwind (scanner : Scanner) (column : Int) : Scanner :=
  if scanner.inFlow then scanner
  else
    let (outer, indent, tokens) :=
      closeBlocks column scanner.outer scanner.indent scanner.tokens
    { scanner with outer := outer, indent := indent, tokens := tokens }

/-- Open a block collection at a column that is deeper than the innermost one,
putting its token before all but the first `count` ones. -/
def openBlock
    (scanner : Scanner)
    (column count : Nat)
    (start : Token) : Scanner :=
  if scanner.indent < column then
    { scanner.insertAt count [start] with
      outer := scanner.indent :: scanner.outer
      indent := column }
  else scanner

/-- Pass over blanks before the next token.  A byte order mark may start the
text.  Behind a line end a key may start, outside flow collections. -/
def toNextToken (scanner : Scanner) : Scanner :=
  let start : Scanner :=
    if scanner.place.index = 0 && scanner.place.rest.head? == some '\ufeff' then
      { scanner with place := scanner.place.skip 1 }
    else scanner
  let (broken, rest) := dropBlank false start.place.rest
  let moved := start.moveTo rest
  if broken && !moved.inFlow then { moved with keyAllowed := true } else moved

/-- Take a mark of so many characters as a token. -/
def takeMark (scanner : Scanner) (length : Nat) (token : Token) : Scanner :=
  { scanner.emit token with place := scanner.place.skip length }

/-- A directive or a document mark closes all block collections. -/
def leaveBlocks (scanner : Scanner) : Except Fault Scanner := do
  let closed ← (scanner.unwind (-1)).dropCandidate
  pure { closed with keyAllowed := false }

/-- Take a mark that opens a flow collection. -/
def openFlow (scanner : Scanner) (token : Token) : Except Fault Scanner := do
  let saved ← scanner.saveCandidate
  let marked := saved.takeMark 1 token
  pure { marked with
    candidate := none
    around := saved.candidate :: saved.around
    keyAllowed := true }

/-- Take a mark that closes a flow collection. -/
def closeFlow (scanner : Scanner) (token : Token) : Except Fault Scanner := do
  let dropped ← scanner.dropCandidate
  match dropped.around with
  | [] => throw .malformed
  | candidate :: around =>
      let marked := dropped.takeMark 1 token
      pure { marked with
        candidate := candidate, around := around, keyAllowed := false }

/-- Take a comma. -/
def takeFlowEntry (scanner : Scanner) : Except Fault Scanner := do
  let dropped ← { scanner with keyAllowed := true }.dropCandidate
  pure (dropped.takeMark 1 .flowEntry)

/-- Take the dash of a list item. -/
def takeBlockEntry (scanner : Scanner) : Except Fault Scanner := do
  let opened ←
    if scanner.inFlow then pure scanner
    else if !scanner.keyAllowed then throw .malformed
    else
      pure (scanner.openBlock scanner.place.column scanner.tokens.length
        .blockSequenceStart)
  let dropped ← { opened with keyAllowed := true }.dropCandidate
  pure (dropped.takeMark 1 .blockEntry)

/-- Take the question mark of an explicit key. -/
def takeKey (scanner : Scanner) : Except Fault Scanner := do
  let opened ←
    if scanner.inFlow then pure scanner
    else if !scanner.keyAllowed then throw .malformed
    else
      pure (scanner.openBlock scanner.place.column scanner.tokens.length
        .blockMappingStart)
  let dropped ← { opened with keyAllowed := !scanner.inFlow }.dropCandidate
  pure (dropped.takeMark 1 .key)

/-- Take the colon of a value.  A candidate before it becomes a key. -/
def takeValue (scanner : Scanner) : Except Fault Scanner := do
  match scanner.candidate with
  | some candidate =>
      let keyed :=
        { scanner with candidate := none }.insertAt candidate.before [.key]
      let opened :=
        if scanner.inFlow then keyed
        else keyed.openBlock candidate.column candidate.before .blockMappingStart
      pure ({ opened with keyAllowed := false }.takeMark 1 .value)
  | none =>
      if scanner.inFlow then
        pure ({ scanner with keyAllowed := false }.takeMark 1 .value)
      else if !scanner.keyAllowed then throw .malformed
      else
        let opened :=
          scanner.openBlock scanner.place.column scanner.tokens.length
            .blockMappingStart
        pure ({ opened with keyAllowed := true }.takeMark 1 .value)

/-- Take a token that may be a key. -/
def takeContent
    (scanner : Scanner)
    (take : List Char → Except Fault (Token × List Char)) : Except Fault Scanner := do
  let saved ← scanner.saveCandidate
  let (token, rest) ← take scanner.place.rest
  pure (({ saved with keyAllowed := false }.emit token).moveTo rest)

/-- The column at which text inside the innermost block collection starts. -/
def contentIndent (scanner : Scanner) : Nat :=
  (scanner.indent + 1).toNat

/-- Take a plain scalar.  A key may start behind it if it ends with a line. -/
def takePlainScalar (scanner : Scanner) : Except Fault Scanner := do
  let saved ← scanner.saveCandidate
  let text := scanner.place.rest
  let scanned := takePlain scanner.inFlow scanner.contentIndent (text.length + 1) text
  pure (({ saved with keyAllowed := scanned.broken }.emit
    (.scalar true scanned.text)).moveTo scanned.rest)

/-- Take a block scalar.  A key may start behind it. -/
def takeBlockScalar
    (scanner : Scanner)
    (folded : Bool) : Except Fault Scanner := do
  let dropped ← { scanner with keyAllowed := true }.dropCandidate
  let (text, rest) ←
    takeBlock folded scanner.contentIndent (scanner.place.rest.drop 1)
  pure ((dropped.emit (.scalar false text)).moveTo rest)

/-- A plain scalar may start with this text. -/
def plainStarts (inFlow : Bool) (text : List Char) : Bool :=
  match text with
  | [] => false
  | c :: rest =>
      !(isWhite c || "-?:,[]\x7b\x7d#&*!|>'\"%@`".toList.contains c) ||
        (!atWordEnd rest && (c == '-' || (!inFlow && (c == '?' || c == ':'))))

/-- Take one token, which starts with the given character. -/
def takeToken
    (scanner : Scanner)
    (c : Char)
    (rest : List Char) : Except Fault Scanner := do
  let inFlow := scanner.inFlow
  let text := c :: rest
  if c = '%' && scanner.place.column = 0 then
    let closed ← scanner.leaveBlocks
    let (token, left) ← takeDirective rest
    pure ((closed.emit token).moveTo left)
  else if scanner.place.column = 0 && atDocumentMark text then
    let closed ← scanner.leaveBlocks
    pure (closed.takeMark 3 (if c = '-' then .documentStart else .documentEnd))
  else if c = '[' then scanner.openFlow .flowSequenceStart
  else if c = '{' then scanner.openFlow .flowMappingStart
  else if c = ']' then scanner.closeFlow .flowSequenceEnd
  else if c = '}' then scanner.closeFlow .flowMappingEnd
  else if c = ',' then scanner.takeFlowEntry
  else if c = '-' && atWordEnd rest then scanner.takeBlockEntry
  else if c = '?' && (inFlow || atWordEnd rest) then scanner.takeKey
  else if c = ':' && (inFlow || atWordEnd rest) then scanner.takeValue
  else if c = '*' then
    scanner.takeContent fun _ => do
      let (name, left) ← takeAnchor rest
      pure (.reference name, left)
  else if c = '&' then
    scanner.takeContent fun _ => do
      let (name, left) ← takeAnchor rest
      pure (.anchor name, left)
  else if c = '!' then scanner.takeContent takeTag
  else if c = '|' && !inFlow then scanner.takeBlockScalar false
  else if c = '>' && !inFlow then scanner.takeBlockScalar true
  else if c = '\'' || c = '"' then
    scanner.takeContent fun _ => do
      let (content, left) ← takeQuoted (c == '"') (rest.length + 1) rest
      pure (.scalar false content, left)
  else if plainStarts inFlow text then scanner.takePlainScalar
  else throw .malformed

/-- The end of the text closes all block collections. -/
def finish (scanner : Scanner) : Except Fault Scanner :=
  (scanner.unwind (-1)).dropCandidate

end Scanner

/-- The tokens of a text up to its end or to the first fault. -/
structure TokenStream where
  tokens : List Token
  fault : Option Fault
deriving Repr, DecidableEq

/-- Take all tokens.  The fuel bounds their number. -/
def scanAll : Nat → Scanner → TokenStream
  | 0, scanner => ⟨scanner.tokens, some .malformed⟩
  | fuel + 1, scanner =>
      let ahead := scanner.toNextToken
      match ahead.refreshAll with
      | .error fault => ⟨ahead.tokens, some fault⟩
      | .ok fresh =>
          let unwound := fresh.unwind fresh.place.column
          match unwound.place.rest with
          | [] =>
              match unwound.finish with
              | .error fault => ⟨unwound.tokens, some fault⟩
              | .ok finished => ⟨finished.tokens, none⟩
          | c :: rest =>
              match unwound.takeToken c rest with
              | .error fault => ⟨unwound.tokens, some fault⟩
              | .ok next => scanAll fuel next

/-- The tokens of a text. -/
def tokens (text : List Char) : TokenStream :=
  if text.all isAllowed then
    scanAll (text.length + 1) { place := { rest := text } }
  else ⟨[], some .malformed⟩

end Yaml
end ShaderLift
