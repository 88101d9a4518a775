import Membranes.Binary.Basic
import Membranes.Blake3
import Membranes.Shape.Basic

/-!
# Content checksums

The checksum of a shape and a buffer is the first word of the digest of their content: the axis sizes
and then the bit patterns of the elements, each as a little-endian word. Nothing separates the two
parts, and nothing needs to: the sizes fix how many elements follow.
-/

namespace Membranes

/-- Appends a word, lowest byte first. -/
@[inline] def pushWord (data : ByteArray) (word : UInt32) : ByteArray :=
  (((data.push word.toUInt8).push (word >>> 8).toUInt8).push (word >>> 16).toUInt8).push
    (word >>> 24).toUInt8

/-- The bytes that are hashed for a shape and a buffer. -/
def contentBytes (shape : Shape) (buffer : Array Binary32) : ByteArray :=
  buffer.foldl (fun data x => pushWord data x.bits) (shape.axes.foldl pushWord ByteArray.empty)

/-- The checksum of a shape and a buffer. -/
def checksumOf (shape : Shape) (buffer : Array Binary32) : UInt32 :=
  (Blake3.digest (contentBytes shape buffer)).w0

end Membranes
