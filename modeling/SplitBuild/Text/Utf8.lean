/-!
# Bytes as text

The contents of a file are bytes. `lossy` reads them as UTF-8 and puts
the replacement character in place of each longest stretch that starts a
character without finishing it. Contents that are a text are read as that
text (`lossy_toByteArray`), so only bytes that no text has are replaced.
-/

namespace SplitBuild

namespace Text

/-- How the first byte of a character of several bytes restricts what
follows: the least and the greatest second byte, and how many bytes
follow in all. -/
def follow? (first : UInt8) : Option (UInt8 × UInt8 × Nat) :=
  if 0xC2 ≤ first ∧ first ≤ 0xDF then some (0x80, 0xBF, 1)
  else if first = 0xE0 then some (0xA0, 0xBF, 2)
  else if first = 0xED then some (0x80, 0x9F, 2)
  else if 0xE1 ≤ first ∧ first ≤ 0xEF then some (0x80, 0xBF, 2)
  else if first = 0xF0 then some (0x90, 0xBF, 3)
  else if 0xF1 ≤ first ∧ first ≤ 0xF3 then some (0x80, 0xBF, 3)
  else if first = 0xF4 then some (0x80, 0x8F, 3)
  else none

/-- The byte at a place lies between two bounds. -/
def byteWithin (bytes : ByteArray) (i : Nat) (lo hi : UInt8) : Bool :=
  match bytes[i]? with
  | some b => lo ≤ b && b ≤ hi
  | none => false

/-- The length of the stretch that one replacement character stands for,
at a place where no character is encoded. -/
def brokenLength (bytes : ByteArray) (i : Nat) : Nat :=
  match bytes[i]?.bind follow? with
  | none => 1
  | some (lo, hi, following) =>
    if byteWithin bytes (i + 1) lo hi then
      if following = 3 && byteWithin bytes (i + 2) 0x80 0xBF then 3 else 2
    else 1

/-- A replacement stands for at least one byte. -/
theorem brokenLength_pos (bytes : ByteArray) (i : Nat) : 0 < brokenLength bytes i := by
  unfold brokenLength
  split
  · omega
  · split
    · split <;> omega
    · omega

/-- The characters encoded from a place on, with replacements. -/
def lossyFrom (bytes : ByteArray) (i : Nat) : List Char :=
  if i < bytes.size then
    match bytes.utf8DecodeChar? i with
    | some c => c :: lossyFrom bytes (i + c.utf8Size)
    | none => '\uFFFD' :: lossyFrom bytes (i + brokenLength bytes i)
  else []
termination_by bytes.size - i
decreasing_by
  · have := c.utf8Size_pos
    omega
  · have := brokenLength_pos bytes i
    omega

/-- The text of some bytes, with replacements where they are no text. -/
def lossy (bytes : ByteArray) : String :=
  match String.fromUTF8? bytes with
  | some s => s
  | none => String.ofList (lossyFrom bytes 0)

/-- The bytes of a text are read as that text. -/
@[simp] theorem lossy_toByteArray (s : String) : lossy s.toByteArray = s := by
  unfold lossy String.fromUTF8?
  rw [dif_pos s.isValidUTF8]
  rfl

end Text

end SplitBuild
