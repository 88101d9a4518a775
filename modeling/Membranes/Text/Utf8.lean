/-!
# Reading UTF-8

`decode` turns bytes into characters. The lead byte of a character fixes the ranges of the bytes that
must follow, so a decoder needs no more state than the ranges still owed; the first byte outside its
range ends the reading, and the fault says how many bytes were good up to there.
-/

namespace Membranes.Text

/-- Why bytes are not UTF-8. -/
inductive Utf8Fault where
  /-- The `length` bytes from `index` on begin no character. -/
  | invalid (length index : Nat)
  /-- The bytes end inside the character that begins at `index`. -/
  | incomplete (index : Nat)
deriving DecidableEq, Repr

/-- The wording of a fault in UTF-8. -/
def Utf8Fault.message : Utf8Fault → String
  | .invalid length index => s!"invalid utf-8 sequence of {length} bytes from index {index}"
  | .incomplete index => s!"incomplete utf-8 byte sequence from index {index}"

/-- A closed range of bytes. -/
structure ByteRange where
  /-- The least byte of the range. -/
  least : UInt8
  /-- The greatest byte of the range. -/
  greatest : UInt8
deriving DecidableEq, Repr

/-- Whether a byte lies in a range. -/
def ByteRange.holds (range : ByteRange) (b : UInt8) : Bool :=
  range.least ≤ b && b ≤ range.greatest

/-- The bytes that continue a character. -/
def continuation : ByteRange := ⟨0x80, 0xBF⟩

/-- What a lead byte says: the bits it contributes and the ranges of the bytes that must follow. The
second byte is narrowed where the full range would give an overlong form, a surrogate or a number
above the last code point. -/
def lead? (b : UInt8) : Option (Nat × List ByteRange) :=
  if b ≤ 0x7F then some (b.toNat, [])
  else if 0xC2 ≤ b ∧ b ≤ 0xDF then some (b.toNat % 32, [continuation])
  else if b = 0xE0 then some (b.toNat % 16, [⟨0xA0, 0xBF⟩, continuation])
  else if b = 0xED then some (b.toNat % 16, [⟨0x80, 0x9F⟩, continuation])
  else if 0xE1 ≤ b ∧ b ≤ 0xEF then some (b.toNat % 16, [continuation, continuation])
  else if b = 0xF0 then some (b.toNat % 8, [⟨0x90, 0xBF⟩, continuation, continuation])
  else if b = 0xF4 then some (b.toNat % 8, [⟨0x80, 0x8F⟩, continuation, continuation])
  else if 0xF1 ≤ b ∧ b ≤ 0xF3 then some (b.toNat % 8, [continuation, continuation, continuation])
  else none

/-- Decodes the rest of the bytes. `start` is the index of the open character, `seen` the number of
its bytes read so far and `value` their bits, `owed` the ranges of those still to come; `done` holds
the finished characters, latest first. -/
def decodeFrom (start seen value : Nat) (owed : List ByteRange) (done : List Char) :
    List UInt8 → Except Utf8Fault (List Char)
  | [] => if owed.isEmpty then .ok done.reverse else .error (.incomplete start)
  | b :: rest =>
    match owed with
    | range :: later =>
      if range.holds b then
        let total := value * 64 + b.toNat % 64
        if later.isEmpty then
          decodeFrom (start + seen + 1) 0 0 [] (Char.ofNat total :: done) rest
        else decodeFrom start (seen + 1) total later done rest
      else .error (.invalid seen start)
    | [] =>
      match lead? b with
      | none => .error (.invalid 1 start)
      | some (bits, []) => decodeFrom (start + 1) 0 0 [] (Char.ofNat bits :: done) rest
      | some (bits, ranges) => decodeFrom start 1 bits ranges done rest

/-- The characters that bytes encode, or where they stop being UTF-8. -/
def decode (bytes : List UInt8) : Except Utf8Fault (List Char) :=
  decodeFrom 0 0 0 [] [] bytes

end Membranes.Text
