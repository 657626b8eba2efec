import SentinelLab.SlabWire

/-! The frames of the raw-socket blaster through `DimensionHandshake`, and what the handshake grants
on any bytes. Both sides work in the byte order of the host. -/

namespace SentinelLab.HandshakeCodec
open DimensionHandshake SlabWire Library.Bytes Library.SinglePrecision

def payloadBytes (frame : List Byte) (dimensions : BitVec 32) : List Byte :=
  (frame.drop sizeofSlabHeader).take (dimensions.toNat * 4)

/-- A view of exactly the declared payload, all of it inside the frame. -/
def WholeView (host : Endian) (frame : List Byte) (dimensions : BitVec 32) (view : List Binary32) : Prop :=
  sizeofSlabHeader + dimensions.toNat * 4 ≤ frame.length ∧ view.length = dimensions.toNat ∧
    host.unwords view = payloadBytes frame dimensions

theorem extractFeatures_of_short {host : Endian} {frame : List Byte} {dimensions : BitVec 32}
    (short : frame.length < sizeofSlabHeader + dimensions.toNat * 4) :
    extractFeatures host frame dimensions = some [] := if_pos short

theorem extractFeatures_of_whole {host : Endian} {frame : List Byte} {dimensions : BitVec 32}
    (whole : sizeofSlabHeader + dimensions.toNat * 4 ≤ frame.length) :
    extractFeatures host frame dimensions = some (host.words (payloadBytes frame dimensions)) := by
  rw [extractFeatures, if_neg (by omega), load_eq_some whole]
  rfl

theorem wholeView_words (host : Endian) {frame : List Byte} {dimensions : BitVec 32}
    (whole : sizeofSlabHeader + dimensions.toNat * 4 ≤ frame.length) :
    WholeView host frame dimensions (host.words (payloadBytes frame dimensions)) := by
  have long : (payloadBytes frame dimensions).length = dimensions.toNat * 4 := by
    rw [payloadBytes, List.length_take, List.length_drop]
    omega
  refine ⟨whole, ?_, ?_⟩
  · rw [host.length_words, long, Nat.mul_div_cancel _ (by decide)]
  · apply host.unwords_words
    rw [long]
    exact Nat.dvd_mul_left ..

theorem validateFrame_total (host : Endian) (frame : List Byte) :
    ∃ result, validateFrame host frame = some result := by
  unfold validateFrame
  by_cases short : frame.length < sizeofSlabHeader
  · exact ⟨_, if_pos short⟩
  · have header : 24 ≤ frame.length := Nat.le_of_not_lt short
    rw [if_neg short, field32, field32, load_eq_some (show 0 + 4 ≤ frame.length by omega),
      load_eq_some (show 16 + 4 ≤ frame.length by omega)]
    simp only [Option.map_some, Option.bind_eq_bind, Option.bind_some]
    split
    · exact ⟨_, rfl⟩
    · split
      · exact ⟨_, rfl⟩
      · split
        · exact ⟨_, rfl⟩
        · exact ⟨_, rfl⟩

theorem validateFrame_valid {host : Endian} {frame : List Byte} {result : DimensionValidationResult}
    (checked : validateFrame host frame = some result) (valid : result.valid = true) :
    0 < result.dimensions.toNat ∧ result.dimensions.toNat ≤ 1024 ∧
      result.expectedTotalBytes = sizeofSlabHeader + result.dimensions.toNat * 4 ∧
      sizeofSlabHeader + result.dimensions.toNat * 4 ≤ frame.length := by
  unfold validateFrame at checked
  split at checked
  · cases checked
    cases valid
  · simp only [Option.bind_eq_bind, Option.bind_eq_some_iff] at checked
    obtain ⟨magic, _, checked⟩ := checked
    split at checked
    · cases checked
      cases valid
    · simp only [Option.bind_eq_some_iff] at checked
      obtain ⟨dimensions, _, checked⟩ := checked
      split at checked
      · cases checked
        cases valid
      · next bounded =>
        split at checked
        · cases checked
          cases valid
        · next whole =>
          have nonzero : dimensions.toNat ≠ 0 := by
            intro zero
            exact bounded (.inl (BitVec.eq_of_toNat_eq zero))
          have positive : 0 < dimensions.toNat := by omega
          have small : dimensions.toNat ≤ 1024 := by omega
          cases checked
          exact ⟨positive, small, rfl, Nat.le_of_not_lt whole⟩

theorem validateFrame_of_whole {host : Endian} {frame : List Byte} {dimensions : BitVec 32}
    (magic : field32 host frame 0 = some slabMagic) (declared : field32 host frame 16 = some dimensions)
    (positive : 0 < dimensions.toNat) (bounded : dimensions.toNat ≤ 1024)
    (whole : sizeofSlabHeader + dimensions.toNat * 4 ≤ frame.length) :
    validateFrame host frame = some
      { valid := true, dimensions, expectedTotalBytes := sizeofSlabHeader + dimensions.toNat * 4 } := by
  have inRange : ¬(dimensions = 0 ∨ dimensions.toNat > 1024) := by
    intro outside
    rcases outside with zero | large
    · rw [zero] at positive
      exact absurd positive (by decide)
    · omega
  rw [validateFrame, if_neg (by omega), magic]
  simp only [Option.bind_eq_bind, Option.bind_some, ne_eq, not_true_eq_false, if_false, declared]
  rw [if_neg inRange, if_neg (by omega)]

/-! ## The frames of the blaster -/

variable (host : Endian) (eventId label : Nat) (features : List Binary32)

/-- A blasted frame, where every field of its header fits. -/
def blastedFrame : List Byte :=
  host.encode 4 0x534C4142 ++ (host.encode 8 eventId ++ host.encode 4 label ++ host.encode 4 features.length ++
    host.encode 4 0 ++ host.unwords features)

theorem blastDataset_eq (id : eventId < 2 ^ 64) (fits : label < 2 ^ 32) (count : features.length < 2 ^ 32) :
    blastDataset host eventId label features = some (blastedFrame host eventId label features) := by
  have packed (width value : Nat) (small : value < 256 ^ width) :
      packUnsigned host width value = some (host.encode width value) := if_pos small
  simp only [blastDataset, packed 4 0x534C4142 (by decide), packed 8 eventId id, packed 4 label fits,
    packed 4 features.length count, packed 4 0 (by decide), Option.bind_eq_bind, Option.bind_some, blastedFrame]

theorem length_blastedFrame : (blastedFrame host eventId label features).length = 24 + features.length * 4 := by
  simp only [blastedFrame, List.length_append, Endian.length_encode, Endian.length_unwords]
  omega

theorem blastedFrame_magic : field32 host (blastedFrame host eventId label features) 0 = some slabMagic := by
  have loaded : load (blastedFrame host eventId label features) 0 4 = some (host.encode 4 0x534C4142) :=
    load_field (show ([] : List Byte).length = 0 from rfl) (host.length_encode ..)
  rw [field32, loaded, Option.map_some, host.decode_encode (by decide)]
  rfl

theorem blastedFrame_dimensions (count : features.length < 2 ^ 32) :
    field32 host (blastedFrame host eventId label features) 16 = some (BitVec.ofNat 32 features.length) := by
  have header : (host.encode 4 0x534C4142 ++ host.encode 8 eventId ++ host.encode 4 label).length = 16 := by
    simp only [List.length_append, Endian.length_encode]
  have loaded : load (blastedFrame host eventId label features) 16 4 = some (host.encode 4 features.length) := by
    have field (rest : List Byte) : load (_ ++ (host.encode 4 features.length ++ rest)) 16 4 = _ :=
      load_field header (host.length_encode ..)
    have read := field (host.encode 4 0 ++ host.unwords features)
    simpa only [blastedFrame, List.append_assoc] using read
  rw [field32, loaded, Option.map_some, host.decode_encode count]

theorem payloadBytes_blastedFrame {dimensions : BitVec 32} (declared : dimensions.toNat = features.length) :
    payloadBytes (blastedFrame host eventId label features) dimensions = host.unwords features := by
  have header : (host.encode 4 0x534C4142 ++ (host.encode 8 eventId ++ (host.encode 4 label ++
      (host.encode 4 features.length ++ host.encode 4 0)))).length = sizeofSlabHeader := by
    simp only [List.length_append, Endian.length_encode, sizeofSlabHeader]
  have shape : blastedFrame host eventId label features = host.encode 4 0x534C4142 ++ (host.encode 8 eventId ++
      (host.encode 4 label ++ (host.encode 4 features.length ++ host.encode 4 0))) ++ host.unwords features := by
    simp only [blastedFrame, List.append_assoc]
  rw [payloadBytes, shape, List.drop_left' header]
  apply List.take_of_length_le
  rw [host.length_unwords, declared, Nat.mul_comm]

/-- The handshake gives back what the blaster packed, and on any bytes grants a view of the declared
payload inside the frame or none. -/
theorem handshake_inverts_blastDataset (host : Endian) :
    (∀ (eventId label : Nat) (features : List Binary32),
      eventId < 2 ^ 64 → label < 2 ^ 32 → 1 ≤ features.length → features.length ≤ 1024 →
      ∃ frame result, blastDataset host eventId label features = some frame ∧
        validateFrame host frame = some result ∧ result.valid = true ∧
        result.dimensions.toNat = features.length ∧ result.expectedTotalBytes = frame.length ∧
        extractFeatures host frame result.dimensions = some features) ∧
    (∀ frame, ∃ result, validateFrame host frame = some result ∧ (result.valid = true →
      ∃ view, extractFeatures host frame result.dimensions = some view ∧
        WholeView host frame result.dimensions view)) ∧
    ∀ frame dimensions, ∃ view, extractFeatures host frame dimensions = some view ∧
      (view = [] ∨ WholeView host frame dimensions view) := by
  have extract (frame : List Byte) (dimensions : BitVec 32) : ∃ view,
      extractFeatures host frame dimensions = some view ∧ (view = [] ∨ WholeView host frame dimensions view) := by
    by_cases short : frame.length < sizeofSlabHeader + dimensions.toNat * 4
    · exact ⟨[], extractFeatures_of_short short, .inl rfl⟩
    · have whole : sizeofSlabHeader + dimensions.toNat * 4 ≤ frame.length := Nat.le_of_not_lt short
      exact ⟨_, extractFeatures_of_whole whole, .inr (wholeView_words host whole)⟩
  refine ⟨?_, ?_, extract⟩
  · intro eventId label features id fits positive bounded
    have declared : (BitVec.ofNat 32 features.length).toNat = features.length := by
      rw [BitVec.toNat_ofNat]
      omega
    have length := length_blastedFrame host eventId label features
    have whole : sizeofSlabHeader + (BitVec.ofNat 32 features.length).toNat * 4 ≤
        (blastedFrame host eventId label features).length := by
      rw [declared, length, sizeofSlabHeader]
    refine ⟨_, _, blastDataset_eq host eventId label features id fits (by omega),
      validateFrame_of_whole (blastedFrame_magic ..) (blastedFrame_dimensions host eventId label features (by omega))
        (by omega) (by omega) whole, rfl, declared, ?_, ?_⟩
    · rw [declared, length, sizeofSlabHeader]
    · rw [extractFeatures_of_whole whole, payloadBytes_blastedFrame host eventId label features declared,
        host.words_unwords]
  · intro frame
    obtain ⟨result, checked⟩ := validateFrame_total host frame
    refine ⟨result, checked, ?_⟩
    intro valid
    have whole := (validateFrame_valid checked valid).2.2.2
    exact ⟨_, extractFeatures_of_whole whole, wholeView_words host whole⟩

theorem handshake_inverts_blastDataset_largest_label : ∃ frame result,
    blastDataset .little 1 0xFFFFFFFF [0x3F800000] = some frame ∧ validateFrame .little frame = some result ∧
      result.valid = true ∧ result.dimensions.toNat = 1 ∧ result.expectedTotalBytes = frame.length ∧
      extractFeatures .little frame result.dimensions = some [0x3F800000] :=
  (handshake_inverts_blastDataset .little).1 1 0xFFFFFFFF [0x3F800000] (by decide) (by decide) (by decide) (by decide)

end SentinelLab.HandshakeCodec
