import ShaderLift.Text.Quoted

/-!
# Text as bytes

Text is stored in UTF-8.  Decoding reads one byte after another and remembers
the character that is not complete yet.  A byte that fits nowhere is an error
that names the bytes of the broken character.

Text that was read from escapes may hold halves of surrogate pairs, which are
no characters and have no bytes.  In such a text characters that occur nowhere
else stand for the halves, and a list of them goes with it.
-/

namespace ShaderLift
namespace Text

/-- The bytes of a text. -/
def encode (text : List Char) : List UInt8 :=
  text.flatMap String.utf8EncodeChar

/-! ## Halves of surrogate pairs -/

/-- Characters that stand for halves of surrogate pairs, each with the code of
its half. -/
abbrev Surrogates :=
  List (Char × Nat)

/-- Halves of surrogate pairs that follow each other in a text. -/
structure EncodeError where
  /-- Position of the first half. -/
  start : Nat
  /-- How many halves there are. -/
  count : Nat
  /-- The code of the first half. -/
  code : Nat
deriving Repr, DecidableEq

/-- The wording of an error. -/
def EncodeError.message (error : EncodeError) : String :=
  if error.count = 1 then
    let code := String.ofList (hexDigits 4 error.code)
    s!"'utf-8' codec can't encode character '\\u{code}' in position " ++
      s!"{error.start}: surrogates not allowed"
  else
    let last := error.start + error.count - 1
    s!"'utf-8' codec can't encode characters in position " ++
      s!"{error.start}-{last}: surrogates not allowed"

/-- The first halves in a text that starts at a position. -/
def encodeError? (surrogates : Surrogates) :
    Nat → List Char → Option EncodeError
  | _, [] => none
  | position, c :: rest =>
      match surrogates.lookup c with
      | none => encodeError? surrogates (position + 1) rest
      | some code =>
          let more := rest.takeWhile fun d => (surrogates.lookup d).isSome
          some ⟨position, more.length + 1, code⟩

/-- The bytes of a text in which some characters stand for halves. -/
def encodeMarked
    (surrogates : Surrogates)
    (text : List Char) : Except EncodeError (List UInt8) :=
  match encodeError? surrogates 0 text with
  | none => .ok (encode text)
  | some error => .error error

/-- A text has bytes exactly if no character stands for a half. -/
theorem encodeError?_eq_none_iff
    {surrogates : Surrogates}
    {position : Nat}
    {text : List Char} :
    encodeError? surrogates position text = none ↔
      ∀ c ∈ text, surrogates.lookup c = none := by
  induction text generalizing position with
  | nil => simp [encodeError?]
  | cons c rest inductionHypothesis =>
      rw [List.forall_mem_cons, ← @inductionHypothesis (position + 1),
        encodeError?]
      cases surrogates.lookup c with
      | none => simp
      | some code => simp

@[simp] theorem encodeError?_nil
    (position : Nat)
    (text : List Char) : encodeError? [] position text = none :=
  encodeError?_eq_none_iff.mpr fun _ _ => rfl

/-! ## Decoding -/

/-- Why bytes are no text. -/
inductive DecodeReason
  | invalidStart
  | invalidContinuation
  | unexpectedEnd
deriving Repr, DecidableEq

/-- The bytes that are no character. -/
structure DecodeError where
  /-- Position of the first byte. -/
  start : Nat
  /-- How many bytes there are. -/
  count : Nat
  /-- The first byte. -/
  first : UInt8
  reason : DecodeReason
deriving Repr, DecidableEq

/-- The wording of a reason. -/
def DecodeReason.message : DecodeReason → String
  | .invalidStart => "invalid start byte"
  | .invalidContinuation => "invalid continuation byte"
  | .unexpectedEnd => "unexpected end of data"

/-- The wording of an error. -/
def DecodeError.message (error : DecodeError) : String :=
  let reason := error.reason.message
  if error.count = 1 then
    let byte := String.ofList (hexDigits 2 error.first.toNat)
    s!"'utf-8' codec can't decode byte 0x{byte} in position {error.start}: {reason}"
  else
    let last := error.start + error.count - 1
    s!"'utf-8' codec can't decode bytes in position {error.start}-{last}: {reason}"

/-- A character whose first bytes have been read. -/
structure Pending where
  /-- Position of the first byte. -/
  start : Nat
  first : UInt8
  /-- How many bytes have been read. -/
  count : Nat
  /-- The bits read so far. -/
  code : Nat
  /-- How many bytes are missing. -/
  missing : Nat
  /-- The least and greatest next byte. -/
  least : Nat
  greatest : Nat
deriving Repr, DecidableEq

/-- What a first byte announces; nothing if no character starts with it.  The
bounds of the second byte keep out overlong forms, surrogates and codes beyond
the last character. -/
def pendingOf (start : Nat) (byte : UInt8) : Option Pending :=
  let n := byte.toNat
  if n < 0xC2 then none
  else if n < 0xE0 then some ⟨start, byte, 1, n - 0xC0, 1, 0x80, 0xBF⟩
  else if n < 0xF0 then
    let least := if n = 0xE0 then 0xA0 else 0x80
    let greatest := if n = 0xED then 0x9F else 0xBF
    some ⟨start, byte, 1, n - 0xE0, 2, least, greatest⟩
  else if n < 0xF5 then
    let least := if n = 0xF0 then 0x90 else 0x80
    let greatest := if n = 0xF4 then 0x8F else 0xBF
    some ⟨start, byte, 1, n - 0xF0, 3, least, greatest⟩
  else none

/-- The error of a character that is not completed. -/
def Pending.error (pending : Pending) (reason : DecodeReason) : DecodeError :=
  ⟨pending.start, pending.count, pending.first, reason⟩

/-- Decode bytes from a position on, with the character that is open. -/
def decodeFrom :
    Nat → Option Pending → List UInt8 → Except DecodeError (List Char)
  | _, none, [] => .ok []
  | _, some pending, [] => .error (pending.error .unexpectedEnd)
  | position, none, byte :: rest =>
      if byte.toNat < 0x80 then
        (decodeFrom (position + 1) none rest).map (Char.ofNat byte.toNat :: ·)
      else
        match pendingOf position byte with
        | none => .error ⟨position, 1, byte, .invalidStart⟩
        | some pending => decodeFrom (position + 1) (some pending) rest
  | position, some pending, byte :: rest =>
      let n := byte.toNat
      if n < pending.least || pending.greatest < n then
        .error (pending.error .invalidContinuation)
      else
        let code := 64 * pending.code + (n - 0x80)
        if pending.missing = 1 then
          (decodeFrom (position + 1) none rest).map (Char.ofNat code :: ·)
        else
          decodeFrom (position + 1)
            (some { pending with
              count := pending.count + 1, code := code
              missing := pending.missing - 1, least := 0x80
              greatest := 0xBF }) rest

/-- Decode bytes. -/
def decode (bytes : List UInt8) : Except DecodeError (List Char) :=
  decodeFrom 0 none bytes

/-- How many bytes are read at once where bytes are read piece by piece. -/
def pieceSize : Nat :=
  8192

/-- Where the decoder stands when a piece comes in: at the piece, or at the
character that the piece before it left open. -/
def pieceStart (bytes : List UInt8) (boundary : Nat) : Nat :=
  match decode (bytes.take boundary) with
  | .ok _ => boundary
  | .error error => error.start

/-- The error is in a surrogate of which a piece ends behind the second byte.
Such a character is looked at again with the next piece. -/
def isDeferred (bytes : List UInt8) (error : DecodeError) : Bool :=
  let stop := error.start + 2
  error.first == 0xED && error.count == 1 &&
    (bytes.drop (error.start + 1)).head?.any
      (fun byte => 0xA0 ≤ byte.toNat && byte.toNat ≤ 0xBF) &&
    (stop % pieceSize == 0 || stop == bytes.length)

/-- Where the decoder stood when it met an error. -/
def standpoint (bytes : List UInt8) (error : DecodeError) : Nat :=
  match error.reason with
  | .unexpectedEnd => error.start
  | .invalidStart => pieceStart bytes (error.start / pieceSize * pieceSize)
  | .invalidContinuation =>
      if isDeferred bytes error then error.start
      else
        pieceStart bytes
          ((error.start + error.count) / pieceSize * pieceSize)

/-- Decode bytes that are read piece by piece.  A position counts from where
the decoder stood when the piece with the wrong byte came in; a character that
the end cuts off is reported on its own. -/
def decodePieces (bytes : List UInt8) : Except DecodeError (List Char) :=
  match decode bytes with
  | .ok text => .ok text
  | .error error =>
      .error { error with start := error.start - standpoint bytes error }

end Text
end ShaderLift
