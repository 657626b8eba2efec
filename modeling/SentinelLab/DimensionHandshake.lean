import SentinelLab.Library.Bytes
import SentinelLab.Library.SinglePrecision

/-! `DimensionHandshake`: validation of a raw frame and extraction of its features. The header is
read in place, in the byte order of the host. -/

namespace SentinelLab.DimensionHandshake
open Library.Bytes Library.SinglePrecision

def slabMagic : BitVec 32 := 0x534C4142

def sizeofSlabHeader : Nat := 24

structure DimensionValidationResult where
  valid : Bool := false
  dimensions : BitVec 32 := 0
  expectedTotalBytes : Nat := 0
  errorMessage : String := ""
  deriving DecidableEq, Repr

/-- A `uint32_t` field of the header; `none` is a read outside the frame. -/
def field32 (host : Endian) (frame : List Byte) (offset : Nat) : Option (BitVec 32) :=
  (load frame offset 4).map fun bytes => BitVec.ofNat 32 (host.decode bytes)

def validateFrame (host : Endian) (frame : List Byte) : Option DimensionValidationResult :=
  if frame.length < sizeofSlabHeader then
    some { errorMessage := "Frame smaller than 24-byte SLAB header" }
  else do
    let magic ← field32 host frame 0
    if magic ≠ slabMagic then some { errorMessage := "Invalid SLAB magic header constant" }
    else do
      let dimensions ← field32 host frame 16
      if dimensions = 0 ∨ dimensions.toNat > 1024 then
        some { errorMessage := "Dimension count out of bounds [1..1024]" }
      else
        let requiredBytes := sizeofSlabHeader + dimensions.toNat * 4
        if frame.length < requiredBytes then
          some { errorMessage := "Truncated SLAB payload: insufficient bytes for dimensions" }
        else some { valid := true, dimensions, expectedTotalBytes := requiredBytes }

def extractFeatures (host : Endian) (frame : List Byte) (dimensions : BitVec 32) : Option (List Binary32) :=
  if frame.length < sizeofSlabHeader + dimensions.toNat * 4 then some []
  else (load frame sizeofSlabHeader (dimensions.toNat * 4)).map host.words

theorem validateFrame_of_other_magic {host : Endian} {frame : List Byte} {magic : BitVec 32}
    (loaded : field32 host frame 0 = some magic) (other : magic ≠ slabMagic) :
    ∃ message, validateFrame host frame = some { errorMessage := message } := by
  unfold validateFrame
  by_cases short : frame.length < sizeofSlabHeader
  · exact ⟨_, if_pos short⟩
  · rw [if_neg short, loaded]
    exact ⟨_, if_pos other⟩

end SentinelLab.DimensionHandshake
