import SentinelLab.Benchmark
import SentinelLab.Inet

/-! What the listener loop of `NetworkIngestReceiver` makes of one datagram. -/

namespace SentinelLab.NetworkIngest
open Inet Benchmark Library.Bytes Library.SinglePrecision

/-- `be64toh`, `ntohl` and `ntohs`: the memory of a host integer read in network order. -/
def ntoh (host : Endian) (width value : Nat) : Nat := Endian.big.decode (host.encode width value)

structure SockaddrIn where
  sinPort : Byte × Byte
  sinAddr : InAddr
  deriving DecidableEq, Repr

def sizeofBuffer : Nat := 8192

def slab : List Byte := [0x53, 0x4C, 0x41, 0x42]

/-- `strcmp(magic, "SLAB") == 0` for four bytes followed by a null. -/
def strcmpSlab (magic : List Byte) : Bool := magic.takeWhile (· ≠ 0) = slab

/-- The body of the loop after `recvfrom` put `buffer.length` bytes into the buffer. `none` is a
read of bytes that were not received, `some none` a datagram that is ignored. -/
def parse (host : Endian) (inetNtop : InAddr → String) (now : Int) (clientAddr : SockaddrIn)
    (buffer : List Byte) : Option (Option BenchmarkEvent) :=
  if 20 ≤ buffer.length then do
    let magic ← load buffer 0 4
    if strcmpSlab magic then do
      let rawId ← load buffer 4 8
      let rawLabel ← load buffer 12 4
      let numFeatures ← load buffer 16 4
      let eventId : BitVec 64 := BitVec.ofNat 64 (ntoh host 8 (host.decode rawId))
      let groundTruthLabel : BitVec 32 := BitVec.ofNat 32 (ntoh host 4 (host.decode rawLabel))
      let nFeat := ntoh host 4 (host.decode numFeatures)
      if 20 + nFeat * 4 ≤ buffer.length then do
        let features ← load buffer 20 (nFeat * 4)
        let sinPort := host.decode [clientAddr.sinPort.1, clientAddr.sinPort.2]
        some (some
          { tIngest := now
            eventId
            groundTruthLabel := groundTruthLabel.toInt
            features := host.words features
            sourceIp := inetNtop clientAddr.sinAddr
            port := BitVec.ofNat 16 (ntoh host 2 sinPort) })
      else some none
    else some none
  else some none

/-- `recvfrom` cuts a datagram off at the size of the buffer. -/
def recvfrom (datagram : List Byte) : List Byte := datagram.take sizeofBuffer

/-- The event that the listener offers to the queue. -/
def ingest (host : Endian) (inetNtop : InAddr → String) (now : Int) (clientAddr : SockaddrIn)
    (datagram : List Byte) : Option (Option BenchmarkEvent) :=
  parse host inetNtop now clientAddr (recvfrom datagram)

variable {host : Endian} {inetNtop : InAddr → String} {now : Int} {clientAddr : SockaddrIn}

theorem parse_of_other_magic {buffer magic : List Byte} (loaded : load buffer 0 4 = some magic)
    (other : strcmpSlab magic = false) : parse host inetNtop now clientAddr buffer = some none := by
  unfold parse
  by_cases long : 20 ≤ buffer.length
  · simp [long, loaded, other]
  · simp [long]

def declaredFeatures (datagram : List Byte) : Nat := Endian.big.decode ((datagram.drop 16).take 4)

/-- A header with the magic, and no more features declared than the bytes that follow it hold. -/
def CompleteFrame (buffer : List Byte) : Prop :=
  20 ≤ buffer.length ∧ buffer.take 4 = slab ∧ 20 + declaredFeatures buffer * 4 ≤ buffer.length

instance (buffer : List Byte) : Decidable (CompleteFrame buffer) :=
  inferInstanceAs (Decidable (_ ∧ _ ∧ _))

/-- The event of a complete frame, with every field read in network order but the features. -/
def frameEvent (host : Endian) (inetNtop : InAddr → String) (now : Int) (clientAddr : SockaddrIn)
    (buffer : List Byte) : BenchmarkEvent :=
  { tIngest := now
    eventId := BitVec.ofNat 64 (Endian.big.decode ((buffer.drop 4).take 8))
    groundTruthLabel := (BitVec.ofNat 32 (Endian.big.decode ((buffer.drop 12).take 4))).toInt
    features := host.words ((buffer.drop 20).take (declaredFeatures buffer * 4))
    sourceIp := inetNtop clientAddr.sinAddr
    port := BitVec.ofNat 16 (ntoh host 2 (host.decode [clientAddr.sinPort.1, clientAddr.sinPort.2])) }

theorem ntoh_decode {bytes : List Byte} {width : Nat} (long : bytes.length = width) :
    ntoh host width (host.decode bytes) = Endian.big.decode bytes := by
  rw [ntoh, host.encode_decode long]

theorem strcmpSlab_iff {magic : List Byte} (four : magic.length = 4) : strcmpSlab magic = true ↔ magic = slab := by
  unfold strcmpSlab
  rw [decide_eq_true_iff]
  constructor
  · intro equal
    have start : magic.takeWhile (· ≠ 0) <+: magic := List.takeWhile_prefix _
    rw [equal] at start
    exact (start.eq_of_length four.symm).symm
  · intro equal
    rw [equal]
    decide

theorem declaredFeatures_recvfrom (datagram : List Byte) :
    declaredFeatures (recvfrom datagram) = declaredFeatures datagram := by
  rw [declaredFeatures, recvfrom, sizeofBuffer, List.drop_take, List.take_take]
  rfl

theorem parse_eq (buffer : List Byte) :
    parse host inetNtop now clientAddr buffer =
      some (if CompleteFrame buffer then some (frameEvent host inetNtop now clientAddr buffer) else none) := by
  unfold parse
  by_cases long : 20 ≤ buffer.length
  · have width (offset count : Nat) (inside : offset + count ≤ 20) :
        ((buffer.drop offset).take count).length = count := by
      simp only [List.length_take, List.length_drop]
      omega
    have four : (buffer.take 4).length = 4 := width 0 4 (by decide)
    rw [if_pos long, load_eq_some (show 0 + 4 ≤ buffer.length by omega),
      load_eq_some (show 4 + 8 ≤ buffer.length by omega), load_eq_some (show 12 + 4 ≤ buffer.length by omega),
      load_eq_some (show 16 + 4 ≤ buffer.length by omega)]
    simp only [Option.bind_eq_bind, Option.bind_some, List.drop_zero, strcmpSlab_iff four,
      ntoh_decode (width 4 8 (by decide)), ntoh_decode (width 12 4 (by decide)),
      ntoh_decode (width 16 4 (by decide))]
    by_cases magic : buffer.take 4 = slab
    · rw [if_pos magic]
      by_cases whole : 20 + declaredFeatures buffer * 4 ≤ buffer.length
      · have whole' := whole
        unfold declaredFeatures at whole'
        rw [if_pos whole', load_eq_some whole', if_pos ⟨long, magic, whole⟩]
        rfl
      · rw [if_neg fun complete : CompleteFrame buffer => whole complete.2.2]
        exact if_neg whole
    · rw [if_neg magic, if_neg fun complete : CompleteFrame buffer => magic complete.2.1]
  · rw [if_neg long, if_neg fun complete : CompleteFrame buffer => long complete.1]

theorem parse_isSome (buffer : List Byte) : (parse host inetNtop now clientAddr buffer).isSome := by
  rw [parse_eq]
  rfl

theorem parse_eq_some {buffer : List Byte} {ev : BenchmarkEvent} :
    parse host inetNtop now clientAddr buffer = some (some ev) ↔
      CompleteFrame buffer ∧ frameEvent host inetNtop now clientAddr buffer = ev := by
  rw [parse_eq, Option.some.injEq]
  by_cases complete : CompleteFrame buffer
  · simp [complete]
  · simp [complete]

theorem parse_sourceIp {buffer : List Byte} {ev : BenchmarkEvent}
    (parsed : parse host inetNtop now clientAddr buffer = some (some ev)) :
    ev.sourceIp = inetNtop clientAddr.sinAddr := by
  obtain ⟨_, rfl⟩ := parse_eq_some.mp parsed
  rfl

/-- The listener offers exactly the complete frames, each as its event. -/
theorem ingest_eq_some {datagram : List Byte} {ev : BenchmarkEvent} :
    ingest host inetNtop now clientAddr datagram = some (some ev) ↔
      CompleteFrame (recvfrom datagram) ∧ frameEvent host inetNtop now clientAddr (recvfrom datagram) = ev :=
  parse_eq_some

theorem ingest_eq_none {datagram : List Byte} :
    ingest host inetNtop now clientAddr datagram = some none ↔ ¬CompleteFrame (recvfrom datagram) := by
  rw [ingest, parse_eq, Option.some.injEq]
  by_cases complete : CompleteFrame (recvfrom datagram)
  · simp [complete]
  · simp [complete]

theorem frameEvent_features {buffer : List Byte} (complete : CompleteFrame buffer) :
    (frameEvent host inetNtop now clientAddr buffer).features.length = declaredFeatures buffer ∧
      host.unwords (frameEvent host inetNtop now clientAddr buffer).features =
        (buffer.drop 20).take (declaredFeatures buffer * 4) := by
  have long : ((buffer.drop 20).take (declaredFeatures buffer * 4)).length = declaredFeatures buffer * 4 := by
    have inside := complete.2.2
    simp only [List.length_take, List.length_drop]
    omega
  constructor
  · rw [frameEvent, host.length_words, long, Nat.mul_div_cancel _ (by decide)]
  · apply host.unwords_words
    rw [long]
    exact Nat.dvd_mul_left ..

theorem ingest_now (now : Int) (datagram : List Byte) :
    ingest host inetNtop now clientAddr datagram =
      (ingest host inetNtop 0 clientAddr datagram).map (Option.map fun ev => { ev with tIngest := now }) := by
  rw [ingest, ingest, parse_eq, parse_eq]
  by_cases complete : CompleteFrame (recvfrom datagram)
  · rw [if_pos complete, if_pos complete]
    rfl
  · rw [if_neg complete, if_neg complete]
    rfl

end SentinelLab.NetworkIngest
