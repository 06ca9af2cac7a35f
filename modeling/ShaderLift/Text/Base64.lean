/-!
# Bytes in base sixty-four

Four digits stand for three bytes.  Characters that are no digits are passed
over.  Where the bytes end within a group of digits, signs of equality fill it
up, and whatever follows a group that was filled up is ignored.
-/

namespace ShaderLift
namespace Base64

/-- The value of a digit. -/
def digit? (c : Char) : Option Nat :=
  if 'A' ≤ c && c ≤ 'Z' then some (c.toNat - 65)
  else if 'a' ≤ c && c ≤ 'z' then some (c.toNat - 71)
  else if c.isDigit then some (c.toNat + 4)
  else if c = '+' then some 62
  else if c = '/' then some 63
  else none

/-- The bytes that are complete in a group of at most four digits. -/
def groupBytes (group : List Nat) : List UInt8 :=
  let bits := (group ++ List.replicate (4 - group.length) 0).foldl
    (fun bits digit => 64 * bits + digit) 0
  [bits / 65536, bits / 256, bits].take (group.length - 1)
    |>.map fun byte => UInt8.ofNat (byte % 256)

/-- Decode from within a group, of which some digits and some fillers have been
read. -/
def decodeFrom : List Nat → Nat → List Char → Option (List UInt8)
  | group, _, [] => if group.isEmpty then some [] else none
  | group, fillers, c :: rest =>
      if c = '=' then
        if group.length < 2 then decodeFrom group fillers rest
        else if group.length + fillers + 1 < 4 then
          decodeFrom group (fillers + 1) rest
        else some (groupBytes group)
      else
        match digit? c with
        | none => decodeFrom group fillers rest
        | some digit =>
            let grown := group ++ [digit]
            if grown.length < 4 then decodeFrom grown 0 rest
            else (decodeFrom [] 0 rest).map (groupBytes grown ++ ·)

/-- The bytes that a text stands for, if no group is left open. -/
def decode (text : List Char) : Option (List UInt8) :=
  decodeFrom [] 0 text

example : decode "aGk=".toList = some [104, 105] := by decide

end Base64
end ShaderLift
