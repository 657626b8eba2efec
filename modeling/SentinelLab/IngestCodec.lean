import SentinelLab.SlabWire

/-! The datagrams of the evaluation clients through the ingest parser, and back. The client and the
host may differ in byte order: the header is in network order, the features travel as they are. -/

namespace SentinelLab.IngestCodec
open Inet Benchmark NetworkIngest SlabWire Library.Bytes Library.SinglePrecision

/-- The datagram of a client, where every field of its header fits. -/
def clientDatagram (client : Endian) (eventId : Nat) (groundTruth : Int) (features : List Binary32) : List Byte :=
  slab ++ (Endian.big.encode 8 eventId ++ (Endian.big.encode 4 (BitVec.ofInt 32 groundTruth).toNat ++
    (Endian.big.encode 4 features.length ++ client.unwords features)))

theorem packInt_length {count : Nat} (fits : count < 2 ^ 31) :
    packInt .big count = some (Endian.big.encode 4 count) := by
  have range : -2 ^ 31 ≤ (count : Int) ∧ (count : Int) < 2 ^ 31 := by omega
  have value : (BitVec.ofInt 32 count).toNat = count := by
    rw [BitVec.toNat_ofInt]
    omega
  rw [packInt, if_pos range, value]

theorem streamPackets_eq (client : Endian) {eventId : Nat} {groundTruth : Int} {features : List Binary32}
    (id : eventId < 2 ^ 64) (low : -2 ^ 31 ≤ groundTruth) (high : groundTruth < 2 ^ 31)
    (count : features.length < 2 ^ 31) :
    streamPackets client eventId groundTruth features = some (clientDatagram client eventId groundTruth features) := by
  have packedId : packUnsigned .big 8 eventId = some (Endian.big.encode 8 eventId) := if_pos id
  have packedTruth : packInt .big groundTruth = some (Endian.big.encode 4 (BitVec.ofInt 32 groundTruth).toNat) :=
    if_pos ⟨low, high⟩
  simp only [streamPackets, packedId, packedTruth, packInt_length count, Option.bind_eq_bind, Option.bind_some,
    clientDatagram, List.append_assoc]

theorem streamPackets_eq_some {client : Endian} {eventId : Nat} {groundTruth : Int} {features : List Binary32}
    {frame : List Byte} (packed : streamPackets client eventId groundTruth features = some frame) :
    features.length < 2 ^ 31 ∧ frame = clientDatagram client eventId groundTruth features := by
  have whole := packed
  simp only [streamPackets, packUnsigned, packInt, Option.bind_eq_bind, Option.bind_eq_some_iff] at packed
  obtain ⟨_, id, _, truth, _, count, _⟩ := packed
  split at id
  case isFalse => cases id
  split at truth
  case isFalse => cases truth
  split at count
  case isFalse => cases count
  next fits range small =>
    have few : features.length < 2 ^ 31 := by omega
    rw [streamPackets_eq client fits range.1 range.2 few] at whole
    cases whole
    exact ⟨few, rfl⟩

/-! ## The fields of a client's datagram -/

variable (client host : Endian) (eventId : Nat) (groundTruth : Int) (features : List Binary32)

theorem length_clientDatagram :
    (clientDatagram client eventId groundTruth features).length = 20 + 4 * features.length := by
  simp only [clientDatagram, List.length_append, Endian.length_encode, Endian.length_unwords, slab,
    List.length_cons, List.length_nil]
  omega

theorem header_fields {id truth count rest buffer : List Byte} (idWidth : id.length = 8)
    (truthWidth : truth.length = 4) (countWidth : count.length = 4)
    (shape : buffer = slab ++ (id ++ (truth ++ (count ++ rest)))) :
    buffer.take 4 = slab ∧ (buffer.drop 4).take 8 = id ∧ (buffer.drop 12).take 4 = truth ∧
      (buffer.drop 16).take 4 = count ∧ buffer.drop 20 = rest := by
  have after4 : buffer.drop 4 = id ++ (truth ++ (count ++ rest)) := by
    rw [shape]
    exact List.drop_left' rfl
  have after12 : buffer.drop 12 = truth ++ (count ++ rest) := by
    rw [show 12 = 4 + 8 from rfl, ← List.drop_drop, after4, List.drop_left' idWidth]
  have after16 : buffer.drop 16 = count ++ rest := by
    rw [show 16 = 12 + 4 from rfl, ← List.drop_drop, after12, List.drop_left' truthWidth]
  have after20 : buffer.drop 20 = rest := by
    rw [show 20 = 16 + 4 from rfl, ← List.drop_drop, after16, List.drop_left' countWidth]
  have front : buffer.take 4 = slab := by
    rw [shape]
    exact List.take_left' rfl
  rw [after4, after12, after16]
  exact ⟨front, List.take_left' idWidth, List.take_left' truthWidth, List.take_left' countWidth, after20⟩

theorem recvfrom_clientDatagram : recvfrom (clientDatagram client eventId groundTruth features) =
    slab ++ (Endian.big.encode 8 eventId ++ (Endian.big.encode 4 (BitVec.ofInt 32 groundTruth).toNat ++
      (Endian.big.encode 4 features.length ++ (client.unwords features).take 8172))) := by
  have field (width value room : Nat) (fits : width ≤ room) :
      (Endian.big.encode width value).take room = Endian.big.encode width value :=
    List.take_of_length_le (by rw [Endian.length_encode]; exact fits)
  have magic : slab.take 8192 = slab := by decide
  have length : slab.length = 4 := by decide
  simp only [recvfrom, clientDatagram, sizeofBuffer, List.take_append, magic, length, Endian.length_encode,
    field 8 _ (8192 - 4) (by decide), field 4 _ (8192 - 4 - 8) (by decide),
    field 4 _ (8192 - 4 - 8 - 4) (by decide)]

theorem clientDatagram_fields : let buffer := recvfrom (clientDatagram client eventId groundTruth features)
    buffer.take 4 = slab ∧ (buffer.drop 4).take 8 = Endian.big.encode 8 eventId ∧
      (buffer.drop 12).take 4 = Endian.big.encode 4 (BitVec.ofInt 32 groundTruth).toNat ∧
      (buffer.drop 16).take 4 = Endian.big.encode 4 features.length ∧
      buffer.drop 20 = (client.unwords features).take 8172 :=
  header_fields (Endian.length_encode ..) (Endian.length_encode ..) (Endian.length_encode ..)
    (recvfrom_clientDatagram client eventId groundTruth features)

theorem clientDatagram_declared (count : features.length < 2 ^ 31) :
    declaredFeatures (recvfrom (clientDatagram client eventId groundTruth features)) = features.length := by
  have fields := clientDatagram_fields client eventId groundTruth features
  rw [declaredFeatures, fields.2.2.2.1, Endian.decode_encode _ (by omega)]

/-- The buffer is the boundary: a datagram that is longer loses features that it declares. -/
theorem clientDatagram_complete (count : features.length < 2 ^ 31) :
    CompleteFrame (recvfrom (clientDatagram client eventId groundTruth features)) ↔
      20 + 4 * features.length ≤ 8192 := by
  have fields := clientDatagram_fields client eventId groundTruth features
  have long : (recvfrom (clientDatagram client eventId groundTruth features)).length =
      min 8192 (20 + 4 * features.length) := by
    rw [recvfrom, List.length_take, length_clientDatagram, sizeofBuffer]
  rw [CompleteFrame, clientDatagram_declared client eventId groundTruth features count, long]
  constructor
  · intro complete
    omega
  · intro fits
    exact ⟨by omega, fields.1, by omega⟩

theorem frameEvent_clientDatagram (inetNtop : InAddr → String) (now : Int) (clientAddr : SockaddrIn)
    (id : eventId < 2 ^ 64) (low : -2 ^ 31 ≤ groundTruth) (high : groundTruth < 2 ^ 31)
    (fits : 20 + 4 * features.length ≤ 8192) :
    let ev := frameEvent host inetNtop now clientAddr
      (recvfrom (clientDatagram client eventId groundTruth features))
    ev.eventId.toNat = eventId ∧ ev.groundTruthLabel = groundTruth ∧
      ev.features = host.words (client.unwords features) := by
  have fields := clientDatagram_fields client eventId groundTruth features
  have truth : (BitVec.ofInt 32 groundTruth).toNat < 256 ^ 4 := (BitVec.ofInt 32 groundTruth).isLt
  have packedId : eventId < 256 ^ 8 := id
  have payload : (client.unwords features).length = 4 * features.length := client.length_unwords features
  simp only [frameEvent, fields.2.1, fields.2.2.1, fields.2.2.2.2, Endian.decode_encode _ truth,
    Endian.decode_encode _ packedId, clientDatagram_declared client eventId groundTruth features (by omega)]
  refine ⟨?_, ?_, ?_⟩
  · rw [BitVec.toNat_ofNat, Nat.mod_eq_of_lt id]
  · rw [BitVec.ofNat_toNat, BitVec.setWidth_eq, BitVec.toInt_ofInt_eq_self (by decide) low high]
  · rw [List.take_take, List.take_of_length_le (by omega)]

/-- The parser gives back what a client packed as long as the buffer holds it, ignores it otherwise,
and never offers fewer or more features than a datagram declares. -/
theorem ingest_inverts_streamPackets (inetNtop : InAddr → String) (now : Int) (clientAddr : SockaddrIn) :
    (∀ (eventId : Nat) (groundTruth : Int) (features : List Binary32),
      eventId < 2 ^ 64 → -2 ^ 31 ≤ groundTruth → groundTruth < 2 ^ 31 →
      (20 + 4 * features.length ≤ 8192 → ∃ frame ev,
        streamPackets client eventId groundTruth features = some frame ∧
        ingest host inetNtop now clientAddr frame = some (some ev) ∧
        ev.eventId.toNat = eventId ∧ ev.groundTruthLabel = groundTruth ∧
        host.unwords ev.features = client.unwords features ∧ (client = host → ev.features = features)) ∧
      (8192 < 20 + 4 * features.length → ∀ frame,
        streamPackets client eventId groundTruth features = some frame →
        ingest host inetNtop now clientAddr frame = some none)) ∧
    ∀ datagram, ∃ offered, ingest host inetNtop now clientAddr datagram = some offered ∧
      ∀ ev, offered = some ev → ev.features.length = declaredFeatures datagram ∧
        20 + 4 * ev.features.length ≤ (recvfrom datagram).length ∧
        host.unwords ev.features = ((recvfrom datagram).drop 20).take (4 * ev.features.length) := by
  constructor
  · intro eventId groundTruth features id low high
    constructor
    · intro fits
      have count : features.length < 2 ^ 31 := by omega
      have complete := (clientDatagram_complete client eventId groundTruth features count).mpr fits
      have fields := frameEvent_clientDatagram client host eventId groundTruth features inetNtop now clientAddr
        id low high fits
      have words : 4 ∣ (client.unwords features).length := by
        rw [client.length_unwords]
        exact Nat.dvd_mul_right ..
      refine ⟨_, _, streamPackets_eq client id low high count, ingest_eq_some.mpr ⟨complete, rfl⟩,
        fields.1, fields.2.1, ?_, ?_⟩
      · rw [fields.2.2, host.unwords_words words]
      · intro same
        rw [fields.2.2, same, host.words_unwords]
    · intro long frame packed
      obtain ⟨count, rfl⟩ := streamPackets_eq_some packed
      apply ingest_eq_none.mpr
      rw [clientDatagram_complete client eventId groundTruth features count]
      omega
  · intro datagram
    refine ⟨_, parse_eq _, ?_⟩
    intro ev offered
    have offer : ingest host inetNtop now clientAddr datagram = some (some ev) := by
      rw [ingest, parse_eq, offered]
    obtain ⟨complete, rfl⟩ := ingest_eq_some.mp offer
    obtain ⟨count, payload⟩ := @frameEvent_features host inetNtop now clientAddr _ complete
    have inside := complete.2.2
    rw [count, payload, declaredFeatures_recvfrom, Nat.mul_comm 4]
    rw [declaredFeatures_recvfrom] at inside
    exact ⟨rfl, inside, rfl⟩

/-- A packet with a negative label, a datagram at the boundary and one beyond it. -/
theorem ingest_inverts_streamPackets_at_boundary :
    (∃ frame ev, streamPackets .little 7 (-3) [0x3F800000, 0xC0000000] = some frame ∧
      ingest .little inetNtop 0 ⟨(0x9C, 0x40), ⟨127, 0, 0, 1⟩⟩ frame = some (some ev) ∧
      ev.eventId.toNat = 7 ∧ ev.groundTruthLabel = -3 ∧
      ev.features = [0x3F800000, 0xC0000000]) ∧
    ∀ frame, streamPackets .little 7 (-3) (List.replicate 2044 0) = some frame →
      ingest .little inetNtop 0 ⟨(0x9C, 0x40), ⟨127, 0, 0, 1⟩⟩ frame = some none := by
  have inverts := (ingest_inverts_streamPackets .little .little inetNtop 0 ⟨(0x9C, 0x40), ⟨127, 0, 0, 1⟩⟩).1
  constructor
  · obtain ⟨frame, ev, packed, offered, id, truth, _, same⟩ :=
      (inverts 7 (-3) [0x3F800000, 0xC0000000] (by decide) (by decide) (by decide)).1 (by decide)
    exact ⟨frame, ev, packed, offered, id, truth, same rfl⟩
  · apply (inverts 7 (-3) (List.replicate 2044 0) (by decide) (by decide) (by decide)).2
    rw [List.length_replicate]
    decide

end SentinelLab.IngestCodec
