import SentinelLab.Library.Bytes

/-! IPv4 addresses: the four bytes of `struct in_addr`, their value as a host integer, and the
textual form that `inet_pton` reads and `inet_ntop` writes. -/

namespace SentinelLab.Inet
open Library.Bytes

/-- The bytes of `struct in_addr`, in network order. -/
structure InAddr where
  a : Byte
  b : Byte
  c : Byte
  d : Byte
  deriving DecidableEq, Repr

def InAddr.bytes (addr : InAddr) : List Byte := [addr.a, addr.b, addr.c, addr.d]

abbrev Key := BitVec 32

/-- `addr.s_addr`: the four bytes read as a `uint32_t` of the host. -/
def InAddr.sAddr (host : Endian) (addr : InAddr) : Key := BitVec.ofNat 32 (host.decode addr.bytes)

theorem InAddr.bytes_injective {first second : InAddr} (same : first.bytes = second.bytes) :
    first = second := by
  cases first
  cases second
  simpa [bytes] using same

/-- The key of a map is the memory of the address, whatever the byte order of the host. -/
theorem ofNat_decode_injective (host : Endian) {first second : List Byte} (four : first.length = 4)
    (four' : second.length = 4)
    (same : BitVec.ofNat 32 (host.decode first) = BitVec.ofNat 32 (host.decode second)) :
    first = second := by
  have low := host.decode_lt first
  have high := host.decode_lt second
  rw [four] at low
  rw [four'] at high
  apply host.decode_injective (four.trans four'.symm)
  have values := congrArg BitVec.toNat same
  simpa only [BitVec.toNat_ofNat, Nat.mod_eq_of_lt (show host.decode first < 2 ^ 32 by omega),
    Nat.mod_eq_of_lt (show host.decode second < 2 ^ 32 by omega)] using values

theorem InAddr.sAddr_injective (host : Endian) : Function.Injective (InAddr.sAddr host) := by
  intro first second same
  exact bytes_injective (ofNat_decode_injective host rfl rfl same)

/-- The two library functions, with what the repository relies on: `inet_pton` reads what
`inet_ntop` writes. -/
structure Codec where
  pton : String → Option InAddr
  ntop : InAddr → String
  pton_ntop : ∀ addr, pton (ntop addr) = some addr

/-- A canonical dotted quad. -/
def Codec.Quad (codec : Codec) := { ip : String // ∃ addr, codec.ntop addr = ip }

theorem Codec.ntop_injective (codec : Codec) : Function.Injective codec.ntop := by
  intro first second same
  have parsed := congrArg codec.pton same
  simpa [codec.pton_ntop] using parsed

def Codec.key (codec : Codec) (host : Endian) (ip : String) : Option Key := (codec.pton ip).map (InAddr.sAddr host)

@[simp] theorem Codec.key_ntop (codec : Codec) (host : Endian) (addr : InAddr) :
    codec.key host (codec.ntop addr) = some (addr.sAddr host) := by
  simp [key, codec.pton_ntop]

/-! ## The decimal codec of the C library -/

def fieldValue (field : List Char) : Nat :=
  field.foldl (fun value digit => 10 * value + (digit.toNat - '0'.toNat)) 0

/-- A field is read if it is the decimal of a byte, without superfluous zeros. -/
def field? (field : List Char) : Option Byte :=
  if fieldValue field ≤ 255 ∧ Nat.toDigits 10 (fieldValue field) = field then
    some (BitVec.ofNat 8 (fieldValue field))
  else none

def inetPton (src : String) : Option InAddr :=
  match src.toList.splitOn '.' with
  | [a, b, c, d] => do some ⟨← field? a, ← field? b, ← field? c, ← field? d⟩
  | _ => none

def inetNtop (addr : InAddr) : String :=
  String.ofList (['.'].intercalate (addr.bytes.map fun byte => Nat.toDigits 10 byte.toNat))

theorem field_toDigits (byte : Byte) : field? (Nat.toDigits 10 byte.toNat) = some byte := by
  revert byte
  decide +kernel

theorem dot_notMem_toDigits (byte : Byte) : '.' ∉ Nat.toDigits 10 byte.toNat := by
  revert byte
  decide +kernel

theorem inetPton_inetNtop (addr : InAddr) : inetPton (inetNtop addr) = some addr := by
  have fields : (inetNtop addr).toList.splitOn '.' =
      addr.bytes.map fun byte => Nat.toDigits 10 byte.toNat := by
    rw [inetNtop, String.toList_ofList]
    apply List.splitOn_intercalate
    · intro field member
      obtain ⟨byte, _, rfl⟩ := List.mem_map.mp member
      exact dot_notMem_toDigits byte
    · simp [InAddr.bytes]
  simp [inetPton, fields, InAddr.bytes, field_toDigits]

theorem field_injective {first second : List Char} {byte : Byte} (read : field? first = some byte)
    (read' : field? second = some byte) : first = second := by
  unfold field? at read read'
  split at read <;> cases read
  next small =>
  split at read'
  next small' =>
    have same : fieldValue first = fieldValue second := by
      have values := congrArg BitVec.toNat (Option.some.inj read')
      simp only [BitVec.toNat_ofNat] at values
      omega
    rw [← small.2, ← small'.2, same]
  · cases read'

theorem inetPton_injective {first second : String} {addr : InAddr} (read : inetPton first = some addr)
    (read' : inetPton second = some addr) : first = second := by
  have fields (src : String) (parsed : inetPton src = some addr) :
      ∃ a b c d, src.toList.splitOn '.' = [a, b, c, d] ∧ field? a = some addr.a ∧
        field? b = some addr.b ∧ field? c = some addr.c ∧ field? d = some addr.d := by
    unfold inetPton at parsed
    split at parsed
    next a b c d pieces =>
      simp only [Option.bind_eq_bind, Option.bind_eq_some_iff, Option.some.injEq] at parsed
      obtain ⟨_, first, _, second, _, third, _, fourth, rfl⟩ := parsed
      exact ⟨a, b, c, d, pieces, first, second, third, fourth⟩
    · cases parsed
  obtain ⟨a, b, c, d, pieces, first_a, first_b, first_c, first_d⟩ := fields first read
  obtain ⟨a', b', c', d', pieces', second_a, second_b, second_c, second_d⟩ := fields second read'
  have same : first.toList.splitOn '.' = second.toList.splitOn '.' := by
    rw [pieces, pieces', field_injective first_a second_a, field_injective first_b second_b,
      field_injective first_c second_c, field_injective first_d second_d]
  have joined := congrArg (['.'].intercalate ·) same
  simp only [List.intercalate_splitOn] at joined
  exact String.toList_injective joined

def dottedQuad : Codec := ⟨inetPton, inetNtop, inetPton_inetNtop⟩

theorem dottedQuad_key_injective (host : Endian) (first second : String) (key : Key)
    (read : dottedQuad.key host first = some key) (read' : dottedQuad.key host second = some key) :
    first = second := by
  obtain ⟨addr, parsed, rfl⟩ := Option.map_eq_some_iff.mp read
  obtain ⟨addr', parsed', same⟩ := Option.map_eq_some_iff.mp read'
  obtain rfl := InAddr.sAddr_injective host same
  exact inetPton_injective parsed parsed'

end SentinelLab.Inet
