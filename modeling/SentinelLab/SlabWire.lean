import SentinelLab.NetworkIngest
import SentinelLab.DimensionHandshake

/-! The two encoders of SLAB frames, each against the decoder of the other pair. -/

namespace SentinelLab.SlabWire
open Inet Benchmark NetworkIngest DimensionHandshake Library.Bytes Library.SinglePrecision

/-- `struct.pack` of an unsigned field; `none` is a `struct.error`. -/
def packUnsigned (order : Endian) (width value : Nat) : Option (List Byte) :=
  if value < 256 ^ width then some (order.encode width value) else none

def packInt (order : Endian) (value : Int) : Option (List Byte) :=
  if -2 ^ 31 ≤ value ∧ value < 2 ^ 31 then some (order.encode 4 (BitVec.ofInt 32 value).toNat) else none

/-- The frame of `blast_dataset`: `=IQIII` and the payload in the byte order of the host. -/
def blastDataset (host : Endian) (eventId label : Nat) (features : List Binary32) : Option (List Byte) := do
  let magic ← packUnsigned host 4 0x534C4142
  let eventId ← packUnsigned host 8 eventId
  let label ← packUnsigned host 4 label
  let dimensions ← packUnsigned host 4 features.length
  let flags ← packUnsigned host 4 0
  some (magic ++ (eventId ++ label ++ dimensions ++ flags ++ host.unwords features))

/-- The datagram of `stream_packets_to_sentinel`: `!4sQii` and the payload in the byte order of
the host. -/
def streamPackets (host : Endian) (eventId : Nat) (groundTruth : Int) (features : List Binary32) :
    Option (List Byte) := do
  let eventId ← packUnsigned .big 8 eventId
  let groundTruth ← packInt .big groundTruth
  let numFeatures ← packInt .big features.length
  some (slab ++ (eventId ++ groundTruth ++ numFeatures ++ host.unwords features))

def BlastIngested (host : Endian) (inetNtop : InAddr → String) (now : Int) (clientAddr : SockaddrIn)
    (eventId label : Nat) (features : List Binary32) : Prop :=
  ∃ frame ev, blastDataset host eventId label features = some frame ∧
    ingest host inetNtop now clientAddr frame = some (some ev) ∧
    ev.eventId.toNat = eventId ∧ ev.groundTruthLabel = label ∧ ev.features = features

def StreamValidated (host : Endian) (eventId : Nat) (groundTruth : Int) (features : List Binary32) : Prop :=
  ∃ frame result, streamPackets host eventId groundTruth features = some frame ∧
    validateFrame host frame = some result ∧ result.valid = true ∧
    result.dimensions.toNat = features.length ∧ extractFeatures host frame result.dimensions = some features

theorem ingest_blastDataset (inetNtop : InAddr → String) (now : Int) (clientAddr : SockaddrIn)
    (eventId label : Nat) (features : List Binary32) (frame : List Byte)
    (packed : blastDataset .little eventId label features = some frame) :
    ingest .little inetNtop now clientAddr frame = some none := by
  have magic : packUnsigned .little 4 0x534C4142 = some [0x42, 0x41, 0x4C, 0x53] := by decide
  simp only [blastDataset, magic, Option.bind_eq_bind, Option.bind_some, Option.bind_eq_some_iff,
    Option.some.injEq] at packed
  obtain ⟨_, _, _, _, _, _, _, _, rfl⟩ := packed
  have start (rest : List Byte) :
      load (recvfrom ([0x42, 0x41, 0x4C, 0x53] ++ rest)) 0 4 = some [0x42, 0x41, 0x4C, 0x53] :=
    load_append [0x42, 0x41, 0x4C, 0x53] (rest.take 8188)
  exact parse_of_other_magic (start _) (by decide)

theorem validateFrame_streamPackets (eventId : Nat) (groundTruth : Int) (features : List Binary32)
    (frame : List Byte) (packed : streamPackets .little eventId groundTruth features = some frame) :
    ∃ message, validateFrame .little frame = some { errorMessage := message } := by
  simp only [streamPackets, Option.bind_eq_bind, Option.bind_eq_some_iff, Option.some.injEq] at packed
  obtain ⟨_, _, _, _, _, _, rfl⟩ := packed
  have start (rest : List Byte) : field32 .little (slab ++ rest) 0 = some 0x42414C53 := by
    have loaded : load (slab ++ rest) 0 4 = some slab := load_append slab rest
    rw [field32, loaded]
    rfl
  exact validateFrame_of_other_magic (start _) (by decide)

/-- Neither encoder is understood by the decoder of the other pair, on any input. -/
theorem slab_formats_disagree (inetNtop : InAddr → String) (now : Int) (clientAddr : SockaddrIn)
    (eventId label : Nat) (groundTruth : Int) (features : List Binary32) :
    ¬BlastIngested .little inetNtop now clientAddr eventId label features ∧
      ¬StreamValidated .little eventId groundTruth features := by
  constructor
  · intro ingested
    obtain ⟨frame, ev, packed, parsed, _⟩ := ingested
    rw [ingest_blastDataset inetNtop now clientAddr eventId label features frame packed] at parsed
    cases parsed
  · intro validated
    obtain ⟨frame, result, packed, checked, valid, _⟩ := validated
    obtain ⟨message, refused⟩ := validateFrame_streamPackets eventId groundTruth features frame packed
    rw [refused] at checked
    cases checked
    cases valid

theorem slab_formats_disagree_on_one_feature :
    (∃ frame, blastDataset .little 1 0 [0x3F800000] = some frame ∧
      ingest .little inetNtop 0 ⟨(0x9C, 0x40), ⟨127, 0, 0, 1⟩⟩ frame = some none) ∧
    ∃ frame, streamPackets .little 1 0 [0x3F800000] = some frame ∧
      validateFrame .little frame = some { errorMessage := "Invalid SLAB magic header constant" } := by
  exact ⟨⟨_, rfl, by decide⟩, _, rfl, by decide⟩

end SentinelLab.SlabWire
