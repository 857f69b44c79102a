/-!
# Quoted bodies in bytes

A quoted body can be split off without decoding the text, by indices into the bytes of its UTF-8
form: quotes and backslashes are single bytes there. A backslash has one byte skipped, which may be
the first of several that the character after it has.

Every access is checked here. An index without a byte, and one where the text cannot be cut because
it is no boundary between characters, is a fault of the whole scan.
-/

namespace TaggedRows.Tag

/-- What an access by an index can fail with. -/
inductive IndexFault where
  | outOfRange
  | noBoundary
  deriving DecidableEq, Repr

/-- The byte of a backslash. -/
def backslashByte : UInt8 := 0x5c

/-- The byte of a quote. -/
def quoteByte : UInt8 := 0x22

/-- The byte at an index. -/
def byteAt (text : String) (i : Nat) : Except IndexFault UInt8 :=
  if h : i < text.utf8ByteSize then .ok (text.getUTF8Byte ⟨i⟩ h) else .error .outOfRange

/-- The texts before and behind an index. -/
def cutAt (text : String) (i : Nat) : Except IndexFault (String × String) :=
  if h : (⟨i⟩ : String.Pos.Raw).IsValid text then
    let place := text.pos ⟨i⟩ h
    .ok ((text.sliceTo place).copy, (text.sliceFrom place).copy)
  else .error .noBoundary

/-- Splits a text at the first quote from an index on that no backslash has skipped: the body before
it and what follows it. -/
def scanQuoted (text : String) (i : Nat) : Except IndexFault (Option (String × String)) :=
  if i < text.utf8ByteSize then do
    let b ← byteAt text i
    if b = backslashByte then scanQuoted text (i + 2)
    else if b = quoteByte then
      let (body, _) ← cutAt text i
      let (_, rest) ← cutAt text (i + 1)
      return some (body, rest)
    else scanQuoted text (i + 1)
  else return none
termination_by text.utf8ByteSize - i

/-- Splits a text that begins after an opening quote at the closing quote. -/
def splitBytes (text : String) : Except IndexFault (Option (String × String)) :=
  scanQuoted text 0

end TaggedRows.Tag
