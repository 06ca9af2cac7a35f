/-!
# Blank characters and trimming

Blank characters separate words in shader sources, prompts and replies.  The
set is wider than ASCII: it holds every space, line end and separator that an
editor may leave in a file.
-/

namespace ShaderLift
namespace Text

/-- Blank characters: tab to carriage return, the four information
separators, and every character that is a space or a line end. -/
def isBlank (c : Char) : Bool :=
  let n := c.toNat
  (9 ≤ n && n ≤ 13) || (28 ≤ n && n ≤ 32) || n == 0x85 || n == 0xA0 ||
    n == 0x1680 || (0x2000 ≤ n && n ≤ 0x200A) || n == 0x2028 ||
    n == 0x2029 || n == 0x202F || n == 0x205F || n == 0x3000

/-- A space or a tab, the blanks that stay inside a line. -/
def isSpaceOrTab (c : Char) : Bool :=
  c == ' ' || c == '\t'

/-- Remove the longest suffix whose characters all satisfy `drops`. -/
def dropTrailing (drops : Char → Bool) : List Char → List Char
  | [] => []
  | c :: cs =>
      match dropTrailing drops cs with
      | [] => if drops c then [] else [c]
      | kept => c :: kept

/-- Remove blanks at both ends. -/
def trim (text : List Char) : List Char :=
  dropTrailing isBlank (text.dropWhile isBlank)

/-- Every character of the text is blank. -/
def isAllBlank (text : List Char) : Bool :=
  text.all isBlank

@[simp] theorem dropTrailing_nil (drops : Char → Bool) :
    dropTrailing drops [] = [] :=
  rfl

theorem dropTrailing_append_kept
    {drops : Char → Bool}
    {text : List Char}
    (kept : ∃ c ∈ text.getLast?, drops c = false)
    (rest : List Char) :
    dropTrailing drops (text ++ rest) = text ++ dropTrailing drops rest := by
  induction text with
  | nil => simp at kept
  | cons c cs inductionHypothesis =>
      rw [List.cons_append, dropTrailing]
      cases cs with
      | nil =>
          have keeps : drops c = false := by simpa using kept
          cases behind : dropTrailing drops rest <;> simp [behind, keeps]
      | cons d ds =>
          rw [inductionHypothesis (by simpa using kept)]
          rfl

/-- A text that is visible at both ends has no blanks to trim. -/
theorem trim_of_visible_ends
    {text : List Char}
    (starts : ∀ c ∈ text.head?, isBlank c = false)
    (ends : ∀ c ∈ text.getLast?, isBlank c = false) : trim text = text := by
  cases text with
  | nil => rfl
  | cons c rest =>
      have last : (c :: rest).getLast? = some (rest.getLast?.getD c) :=
        List.getLast?_cons
      have shown : isBlank c = false := starts c rfl
      have kept := dropTrailing_append_kept ⟨_, last, ends _ last⟩ []
      rw [dropTrailing_nil, List.append_nil] at kept
      rw [trim, List.dropWhile_cons_of_neg (by simp [shown]), kept]

/-- Trimming a string is trimming its characters. -/
def trimmed (text : String) : String :=
  String.ofList (trim text.toList)

@[simp] theorem toList_trimmed (text : String) :
    (trimmed text).toList = trim text.toList := by
  simp [trimmed]

end Text
end ShaderLift
