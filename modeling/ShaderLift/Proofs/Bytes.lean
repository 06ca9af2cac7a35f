import ShaderLift.Text.Lines
import ShaderLift.Text.Utf8

/-!
# Text that is stored and read again

Decoding the bytes of a text gives the text.  One character takes one to four
bytes: the first announces the others, and each of those lies within the bounds
that keep out overlong forms and surrogates.
-/

namespace ShaderLift
namespace Text

/-! ## One character -/

/-- A first byte opens the character that it announces. -/
theorem decodeFrom_first
    {position : Nat}
    {byte : UInt8}
    {pending : Pending}
    (announced : pendingOf position byte = some pending)
    (rest : List UInt8) :
    decodeFrom position none (byte :: rest) =
      decodeFrom (position + 1) (some pending) rest := by
  have high : ¬ byte.toNat < 0x80 := by
    intro low
    have early : byte.toNat < 0xC2 := by omega
    simp [pendingOf, early] at announced
  rw [decodeFrom, if_neg high, announced]

/-- A byte within the bounds goes on with the character that is open. -/
theorem decodeFrom_middle
    {pending : Pending}
    {byte : UInt8}
    (fits : pending.least ≤ byte.toNat ∧ byte.toNat ≤ pending.greatest)
    (unfinished : pending.missing ≠ 1)
    (position : Nat)
    (rest : List UInt8) :
    decodeFrom position (some pending) (byte :: rest) =
      decodeFrom (position + 1)
        (some { pending with
          count := pending.count + 1
          code := 64 * pending.code + (byte.toNat - 0x80)
          missing := pending.missing - 1
          least := 0x80
          greatest := 0xBF }) rest := by
  have inside : ¬ (byte.toNat < pending.least ∨ pending.greatest < byte.toNat) := by
    omega
  rw [decodeFrom]
  simp [inside, unfinished]

/-- The last byte completes the character that is open. -/
theorem decodeFrom_last
    {pending : Pending}
    {byte : UInt8}
    (fits : pending.least ≤ byte.toNat ∧ byte.toNat ≤ pending.greatest)
    (closes : pending.missing = 1)
    (position : Nat)
    (rest : List UInt8) :
    decodeFrom position (some pending) (byte :: rest) =
      (decodeFrom (position + 1) none rest).map
        (Char.ofNat (64 * pending.code + (byte.toNat - 0x80)) :: ·) := by
  have inside : ¬ (byte.toNat < pending.least ∨ pending.greatest < byte.toNat) := by
    omega
  rw [decodeFrom]
  simp [inside, closes]

/-- A code that takes one byte. -/
theorem decodeFrom_one
    {code : Nat}
    (small : code < 0x80)
    (position : Nat)
    (rest : List UInt8) :
    decodeFrom position none (UInt8.ofNat code :: rest) =
      (decodeFrom (position + 1) none rest).map (Char.ofNat code :: ·) := by
  have byte := UInt8.toNat_ofNat_of_lt' (show code < 256 by omega)
  have low : (UInt8.ofNat code).toNat < 0x80 := by rw [byte]; exact small
  rw [decodeFrom, if_pos low, byte]

/-- A code that takes two bytes. -/
theorem decodeFrom_two
    {code : Nat}
    (large : 0x80 ≤ code)
    (small : code < 0x800)
    (position : Nat)
    (rest : List UInt8) :
    decodeFrom position none
        (UInt8.ofNat (code / 64 % 0x20 + 0xc0) ::
          UInt8.ofNat (code % 0x40 + 0x80) :: rest) =
      (decodeFrom (position + 2) none rest).map (Char.ofNat code :: ·) := by
  have first := UInt8.toNat_ofNat_of_lt' (show code / 64 % 0x20 + 0xc0 < 256 by omega)
  have second := UInt8.toNat_ofNat_of_lt' (show code % 0x40 + 0x80 < 256 by omega)
  have announced : pendingOf position (UInt8.ofNat (code / 64 % 0x20 + 0xc0)) =
      some ⟨position, UInt8.ofNat (code / 64 % 0x20 + 0xc0), 1,
        code / 64 % 0x20, 1, 0x80, 0xBF⟩ := by
    unfold pendingOf
    rw [first]
    simp only [Nat.add_sub_cancel]
    rw [if_neg (by omega), if_pos (by omega)]
  have whole : 64 * (code / 64 % 0x20) + code % 0x40 = code := by omega
  rw [decodeFrom_first announced,
    decodeFrom_last (by rw [second]; dsimp only; omega) rfl, second]
  simp only [Nat.add_sub_cancel, whole]

/-- A code that takes three bytes.  The bounds of the second byte are those of
the first code of three bytes and of the surrogates. -/
theorem decodeFrom_three
    {code : Nat}
    (large : 0x800 ≤ code)
    (small : code < 0x10000)
    (noSurrogate : code < 0xD800 ∨ 0xDFFF < code)
    (position : Nat)
    (rest : List UInt8) :
    decodeFrom position none
        (UInt8.ofNat (code / 4096 % 0x10 + 0xe0) ::
          UInt8.ofNat (code / 64 % 0x40 + 0x80) ::
          UInt8.ofNat (code % 0x40 + 0x80) :: rest) =
      (decodeFrom (position + 3) none rest).map (Char.ofNat code :: ·) := by
  have first := UInt8.toNat_ofNat_of_lt'
    (show code / 4096 % 0x10 + 0xe0 < 256 by omega)
  have second := UInt8.toNat_ofNat_of_lt'
    (show code / 64 % 0x40 + 0x80 < 256 by omega)
  have third := UInt8.toNat_ofNat_of_lt' (show code % 0x40 + 0x80 < 256 by omega)
  obtain ⟨least, greatest, announced, bounds⟩ : ∃ least greatest,
      pendingOf position (UInt8.ofNat (code / 4096 % 0x10 + 0xe0)) =
        some ⟨position, UInt8.ofNat (code / 4096 % 0x10 + 0xe0), 1,
          code / 4096 % 0x10, 2, least, greatest⟩ ∧
      least ≤ code / 64 % 0x40 + 0x80 ∧ code / 64 % 0x40 + 0x80 ≤ greatest := by
    unfold pendingOf
    rw [first]
    simp only [Nat.add_sub_cancel]
    rw [if_neg (by omega), if_neg (by omega), if_pos (by omega)]
    refine ⟨_, _, rfl, ?_⟩
    split <;> split <;> omega
  have whole : 64 * (64 * (code / 4096 % 0x10) + code / 64 % 0x40) +
      code % 0x40 = code := by omega
  rw [decodeFrom_first announced,
    decodeFrom_middle (by rw [second]; exact bounds) (by simp), second,
    decodeFrom_last (by rw [third]; dsimp only; omega) rfl, third]
  simp only [Nat.add_sub_cancel, whole]

/-- A code that takes four bytes. -/
theorem decodeFrom_four
    {code : Nat}
    (large : 0x10000 ≤ code)
    (small : code < 0x110000)
    (position : Nat)
    (rest : List UInt8) :
    decodeFrom position none
        (UInt8.ofNat (code / 262144 % 0x08 + 0xf0) ::
          UInt8.ofNat (code / 4096 % 0x40 + 0x80) ::
          UInt8.ofNat (code / 64 % 0x40 + 0x80) ::
          UInt8.ofNat (code % 0x40 + 0x80) :: rest) =
      (decodeFrom (position + 4) none rest).map (Char.ofNat code :: ·) := by
  have first := UInt8.toNat_ofNat_of_lt'
    (show code / 262144 % 0x08 + 0xf0 < 256 by omega)
  have second := UInt8.toNat_ofNat_of_lt'
    (show code / 4096 % 0x40 + 0x80 < 256 by omega)
  have third := UInt8.toNat_ofNat_of_lt' (show code / 64 % 0x40 + 0x80 < 256 by omega)
  have fourth := UInt8.toNat_ofNat_of_lt' (show code % 0x40 + 0x80 < 256 by omega)
  obtain ⟨least, greatest, announced, bounds⟩ : ∃ least greatest,
      pendingOf position (UInt8.ofNat (code / 262144 % 0x08 + 0xf0)) =
        some ⟨position, UInt8.ofNat (code / 262144 % 0x08 + 0xf0), 1,
          code / 262144 % 0x08, 3, least, greatest⟩ ∧
      least ≤ code / 4096 % 0x40 + 0x80 ∧
      code / 4096 % 0x40 + 0x80 ≤ greatest := by
    unfold pendingOf
    rw [first]
    simp only [Nat.add_sub_cancel]
    rw [if_neg (by omega), if_neg (by omega), if_neg (by omega),
      if_pos (by omega)]
    refine ⟨_, _, rfl, ?_⟩
    split <;> split <;> omega
  have whole : 64 * (64 * (64 * (code / 262144 % 0x08) + code / 4096 % 0x40) +
      code / 64 % 0x40) + code % 0x40 = code := by omega
  rw [decodeFrom_first announced,
    decodeFrom_middle (by rw [second]; exact bounds) (by simp), second,
    decodeFrom_middle (by rw [third]; dsimp only; omega) (by simp), third,
    decodeFrom_last (by rw [fourth]; dsimp only; omega) rfl, fourth]
  simp only [Nat.add_sub_cancel, whole]

/-! ## Whole texts -/

/-- Decoding takes the bytes of one character off the front. -/
theorem decodeFrom_encodeChar
    (c : Char)
    (position : Nat)
    (rest : List UInt8) :
    ∃ next, decodeFrom position none (String.utf8EncodeChar c ++ rest) =
      (decodeFrom next none rest).map (c :: ·) := by
  have valid : c.toNat < 0xD800 ∨ (0xDFFF < c.toNat ∧ c.toNat < 0x110000) :=
    c.valid
  have decoded : Char.ofNat c.toNat = c := Char.ofNat_toNat c
  have code : c.val.toNat = c.toNat := rfl
  unfold String.utf8EncodeChar
  rw [code]
  by_cases one : c.toNat ≤ 0x7f
  · rw [if_pos one, List.singleton_append, decodeFrom_one (by omega), decoded]
    exact ⟨_, rfl⟩
  by_cases two : c.toNat ≤ 0x7ff
  · rw [if_neg one, if_pos two]
    simp only [List.cons_append, List.nil_append]
    rw [decodeFrom_two (by omega) (by omega), decoded]
    exact ⟨_, rfl⟩
  by_cases three : c.toNat ≤ 0xffff
  · rw [if_neg one, if_neg two, if_pos three]
    simp only [List.cons_append, List.nil_append]
    rw [decodeFrom_three (by omega) (by omega) (by omega), decoded]
    exact ⟨_, rfl⟩
  · rw [if_neg one, if_neg two, if_neg three]
    simp only [List.cons_append, List.nil_append]
    rw [decodeFrom_four (by omega) (by omega), decoded]
    exact ⟨_, rfl⟩

/-- The bytes of a text are decoded to the text. -/
theorem decode_encode (text : List Char) : decode (encode text) = .ok text := by
  suffices ∀ position, decodeFrom position none (encode text) = .ok text from
    this 0
  induction text with
  | nil => intro position; rfl
  | cons c text inductionHypothesis =>
      intro position
      obtain ⟨next, taken⟩ := decodeFrom_encodeChar c position (encode text)
      have split : encode (c :: text) =
          String.utf8EncodeChar c ++ encode text := rfl
      rw [split, taken, inductionHypothesis]
      rfl

theorem decodePieces_encode (text : List Char) :
    decodePieces (encode text) = .ok text := by
  rw [decodePieces, decode_encode]

/-- A text without carriage returns has unified line ends. -/
theorem unifyLineEnds_of_not_mem
    {text : List Char}
    (free : '\r' ∉ text) : unifyLineEnds text = text := by
  induction text with
  | nil => rfl
  | cons c text inductionHypothesis =>
      rw [List.mem_cons, not_or] at free
      rw [unifyLineEnds, inductionHypothesis free.2]
      · intro _ equal _
        exact free.1 equal.symm
      · intro equal
        exact free.1 equal.symm

end Text
end ShaderLift
