import SentinelLab.Library.Bytes

/-! Modbus TCP frames for reading holding registers (function code 3). -/

namespace SentinelLab.Library.Modbus
open Bytes

/-- Holding register 40001 has address 0. -/
abbrev Registers : Type := BitVec 16 → BitVec 16

structure ReadRequest where
  transaction : BitVec 16
  unit : Byte
  start : BitVec 16
  count : BitVec 16
  deriving DecidableEq

/-- The 7-byte MBAP header; the length counts what follows it, with the unit. -/
def header (transaction : BitVec 16) (unit : Byte) (length : Nat) : List Byte :=
  Endian.big.encode 2 transaction.toNat ++ [0, 0] ++ Endian.big.encode 2 length ++ [unit]

def ReadRequest.encode (request : ReadRequest) : List Byte :=
  header request.transaction request.unit 6 ++
    ([3] ++ Endian.big.encode 2 request.start.toNat ++ Endian.big.encode 2 request.count.toNat)

def ReadRequest.decode : List Byte → Option ReadRequest
  | [t1, t0, p1, p0, l1, l0, unit, function, s1, s0, c1, c0] =>
      if [p1, p0, l1, l0, function] = [0, 0, 0, 6, 3] then some ⟨t1 ++ t0, unit, s1 ++ s0, c1 ++ c0⟩ else none
  | _ => none

theorem encode_two (word : BitVec 16) :
    Endian.big.encode 2 word.toNat = [word.extractLsb' 8 8, word.extractLsb' 0 8] := by
  have high : BitVec.ofNat 8 (word.toNat / 256) = word.extractLsb' 8 8 := by
    apply BitVec.eq_of_toNat_eq
    simp [BitVec.extractLsb'_toNat, Nat.shiftRight_eq_div_pow]
  have low : BitVec.ofNat 8 word.toNat = word.extractLsb' 0 8 := by
    apply BitVec.eq_of_toNat_eq
    simp [BitVec.extractLsb'_toNat]
  simp only [Endian.encode, toLittle, List.reverse_cons, List.reverse_nil, List.nil_append, List.singleton_append,
    high, low]

theorem join_bytes (word : BitVec 16) : word.extractLsb' 8 8 ++ word.extractLsb' 0 8 = word := by
  apply BitVec.eq_of_getLsbD_eq
  intro index bound
  rw [BitVec.getLsbD_append]
  by_cases low : index < 8
  · simp [low]
  · rw [if_neg low, BitVec.getLsbD_extractLsb']
    have above : 8 + (index - 8) = index := by omega
    have byte : index - 8 < 8 := by omega
    simp [above, byte]

/-- A request is read back as it was written. -/
theorem decode_encode (request : ReadRequest) : ReadRequest.decode request.encode = some request := by
  have six : Endian.big.encode 2 6 = [0, 6] := by decide
  simp only [ReadRequest.encode, header, encode_two, six, List.cons_append, List.nil_append, ReadRequest.decode,
    ↓reduceIte, join_bytes]

def ReadRequest.values (request : ReadRequest) (registers : Registers) : List (BitVec 16) :=
  (List.range request.count.toNat).map fun k => registers (request.start + BitVec.ofNat 16 k)

/-- The standard response: header, function code, byte count and the registers. -/
def response (registers : Registers) (request : ReadRequest) : List Byte :=
  header request.transaction request.unit (3 + 2 * request.count.toNat) ++
    [3, BitVec.ofNat 8 (2 * request.count.toNat)] ++
      (request.values registers).flatMap fun value => Endian.big.encode 2 value.toNat

/-- A device that answers requests for 1 to 125 registers, as many as the byte count can tell. -/
def serve (registers : Registers) (frame : List Byte) : Option (List Byte) :=
  (ReadRequest.decode frame).bind fun request =>
    if 1 ≤ request.count.toNat ∧ request.count.toNat ≤ 125 then some (response registers request) else none

theorem serve_encode (registers : Registers) (request : ReadRequest) (some_asked : 1 ≤ request.count.toNat)
    (fits : request.count.toNat ≤ 125) : serve registers request.encode = some (response registers request) := by
  rw [serve, decode_encode, Option.bind_some, if_pos ⟨some_asked, fits⟩]

theorem length_words (words : List (BitVec 16)) :
    (words.flatMap fun value => Endian.big.encode 2 value.toNat).length = 2 * words.length := by
  induction words with
  | nil => rfl
  | cons word rest ih =>
    rw [List.flatMap_cons, List.length_append, Endian.length_encode, ih, List.length_cons]
    omega

theorem length_header (transaction : BitVec 16) (unit : Byte) (length : Nat) :
    (header transaction unit length).length = 7 := by
  simp only [header, List.length_append, Endian.length_encode, List.length_cons, List.length_nil]

theorem length_response (registers : Registers) (request : ReadRequest) :
    (response registers request).length = 9 + 2 * request.count.toNat := by
  simp only [response, List.length_append, length_header, length_words, ReadRequest.values, List.length_map,
    List.length_range, List.length_cons, List.length_nil]

theorem load_register (registers : Registers) (request : ReadRequest) {k : Nat} (asked : k < request.count.toNat) :
    load (response registers request) (9 + 2 * k) 2 =
      some (Endian.big.encode 2 (registers (request.start + BitVec.ofNat 16 k)).toNat) := by
  have inside : k < (request.values registers).length := by simpa [ReadRequest.values] using asked
  have split : request.values registers =
      (request.values registers).take k ++ registers (request.start + BitVec.ofNat 16 k) ::
        (request.values registers).drop (k + 1) := by
    have at_k : (request.values registers)[k] = registers (request.start + BitVec.ofNat 16 k) := by
      simp [ReadRequest.values]
    rw [← at_k, ← List.drop_eq_getElem_cons inside, List.take_append_drop]
  rw [response, split, List.flatMap_append, List.flatMap_cons, ← List.append_assoc]
  apply load_field _ (Endian.length_encode ..)
  simp only [List.length_append, length_header, length_words, List.length_take, List.length_cons, List.length_nil,
    min_eq_left inside.le]

end SentinelLab.Library.Modbus
