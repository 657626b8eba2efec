import Mathlib

/-! Naturals of a fixed width as bytes in memory, in either byte order. -/

namespace SentinelLab.Library.Bytes

abbrev Byte := BitVec 8

inductive Endian where
  | little
  | big
  deriving DecidableEq, Repr

def toLittle : Nat → Nat → List Byte
  | 0, _ => []
  | width + 1, value => BitVec.ofNat 8 value :: toLittle width (value / 256)

def ofLittle : List Byte → Nat
  | [] => 0
  | byte :: rest => byte.toNat + 256 * ofLittle rest

def Endian.encode : Endian → Nat → Nat → List Byte
  | .little, width, value => toLittle width value
  | .big, width, value => (toLittle width value).reverse

def Endian.decode : Endian → List Byte → Nat
  | .little, bytes => ofLittle bytes
  | .big, bytes => ofLittle bytes.reverse

theorem ofLittle_lt (bytes : List Byte) : ofLittle bytes < 256 ^ bytes.length := by
  induction bytes with
  | nil => simp [ofLittle]
  | cons byte rest ih =>
    have small : byte.toNat < 256 := byte.isLt
    simp only [ofLittle, List.length_cons, pow_succ]
    omega

theorem Endian.decode_lt (order : Endian) (bytes : List Byte) : order.decode bytes < 256 ^ bytes.length := by
  cases order with
  | little => exact ofLittle_lt bytes
  | big => simpa [decode] using ofLittle_lt bytes.reverse

theorem ofLittle_injective {first second : List Byte} (lengths : first.length = second.length)
    (same : ofLittle first = ofLittle second) : first = second := by
  induction first generalizing second with
  | nil => exact (List.eq_nil_of_length_eq_zero lengths.symm).symm
  | cons byte rest ih =>
    cases second with
    | nil => simp at lengths
    | cons byte' rest' =>
      have small : byte.toNat < 256 := byte.isLt
      have small' : byte'.toNat < 256 := byte'.isLt
      simp only [ofLittle] at same
      have heads : byte = byte' := BitVec.eq_of_toNat_eq (by omega)
      have tails : rest = rest' := ih (by simpa using lengths) (by omega)
      rw [heads, tails]

theorem length_toLittle (width value : Nat) : (toLittle width value).length = width := by
  induction width generalizing value with
  | zero => rfl
  | succ width ih => rw [toLittle, List.length_cons, ih]

@[simp] theorem Endian.length_encode (order : Endian) (width value : Nat) :
    (order.encode width value).length = width := by
  cases order with
  | little => exact length_toLittle width value
  | big => exact (List.length_reverse ..).trans (length_toLittle width value)

theorem ofLittle_toLittle (width value : Nat) : ofLittle (toLittle width value) = value % 256 ^ width := by
  induction width generalizing value with
  | zero => simp [toLittle, ofLittle, Nat.mod_one]
  | succ width ih =>
    have split : value % (256 * 256 ^ width) = value % 256 + 256 * (value / 256 % 256 ^ width) := Nat.mod_mul
    rw [pow_succ, Nat.mul_comm, split, toLittle, ofLittle, ih, BitVec.toNat_ofNat]

theorem Endian.decode_encode_mod (order : Endian) (width value : Nat) :
    order.decode (order.encode width value) = value % 256 ^ width := by
  cases order with
  | little => exact ofLittle_toLittle width value
  | big => simp only [encode, decode, List.reverse_reverse, ofLittle_toLittle]

theorem Endian.decode_encode (order : Endian) {width value : Nat} (fits : value < 256 ^ width) :
    order.decode (order.encode width value) = value := by
  rw [decode_encode_mod, Nat.mod_eq_of_lt fits]

theorem Endian.decode_injective (order : Endian) {first second : List Byte}
    (lengths : first.length = second.length) (same : order.decode first = order.decode second) :
    first = second := by
  cases order with
  | little => exact ofLittle_injective lengths same
  | big => exact List.reverse_injective (ofLittle_injective (by simpa using lengths) same)

theorem Endian.encode_decode (order : Endian) {bytes : List Byte} {width : Nat} (long : bytes.length = width) :
    order.encode width (order.decode bytes) = bytes := by
  subst long
  apply order.decode_injective (order.length_encode ..)
  exact order.decode_encode (order.decode_lt bytes)

/-- Reading `width` bytes at `offset`; a read that is not inside the buffer is a fault. -/
def load (buffer : List Byte) (offset width : Nat) : Option (List Byte) :=
  if offset + width ≤ buffer.length then some ((buffer.drop offset).take width) else none

theorem load_eq_some {buffer : List Byte} {offset width : Nat} (inside : offset + width ≤ buffer.length) :
    load buffer offset width = some ((buffer.drop offset).take width) := if_pos inside

theorem load_eq_bytes {buffer : List Byte} {offset width : Nat} (inside : offset + width ≤ buffer.length) :
    load buffer offset width = some ((List.range width).map fun index => buffer.getD (offset + index) 0) := by
  rw [load_eq_some inside, Option.some.injEq]
  apply List.ext_getElem
  · simp only [List.length_take, List.length_drop, List.length_map, List.length_range]
    omega
  · intro index bound bound'
    simp only [List.length_map, List.length_range] at bound'
    simp [List.getElem_take, List.getElem_drop, List.getElem?_eq_getElem (show offset + index < buffer.length by omega)]

theorem load_append (first second : List Byte) :
    load (first ++ second) 0 first.length = some first := by
  have inside : 0 + first.length ≤ (first ++ second).length := by simp
  rw [load_eq_some inside]
  simp

theorem load_field {before field after : List Byte} {offset width : Nat} (start : before.length = offset)
    (long : field.length = width) : load (before ++ (field ++ after)) offset width = some field := by
  have inside : offset + width ≤ (before ++ (field ++ after)).length := by
    simp only [List.length_append]
    omega
  rw [load_eq_some inside, List.drop_left' start, List.take_left' long]

/-! ## Arrays of 32-bit words -/

/-- The words in memory order; up to three bytes at the end make no word. -/
def Endian.words (order : Endian) : List Byte → List (BitVec 32)
  | a :: b :: c :: d :: rest => BitVec.ofNat 32 (order.decode [a, b, c, d]) :: order.words rest
  | _ => []

def Endian.unwords (order : Endian) (words : List (BitVec 32)) : List Byte :=
  words.flatMap fun word => order.encode 4 word.toNat

theorem Endian.length_words (order : Endian) (bytes : List Byte) :
    (order.words bytes).length = bytes.length / 4 := by
  induction bytes using words.induct with
  | case1 a b c d rest ih =>
    simp only [words, List.length_cons, ih]
    omega
  | case2 bytes short =>
    rw [words.eq_2 order bytes short]
    have few : bytes.length < 4 := by
      rcases bytes with _ | ⟨a, _ | ⟨b, _ | ⟨c, _ | ⟨d, rest⟩⟩⟩⟩
      case cons.cons.cons.cons => exact absurd rfl (short a b c d rest)
      all_goals simp
    exact (Nat.div_eq_of_lt few).symm

theorem Endian.words_append (order : Endian) {front : List Byte} (four : front.length = 4) (rest : List Byte) :
    order.words (front ++ rest) = BitVec.ofNat 32 (order.decode front) :: order.words rest := by
  rcases front with _ | ⟨a, _ | ⟨b, _ | ⟨c, _ | ⟨d, _ | ⟨e, more⟩⟩⟩⟩⟩
  case cons.cons.cons.cons.nil => rfl
  all_goals simp at four

theorem Endian.unwords_cons (order : Endian) (word : BitVec 32) (rest : List (BitVec 32)) :
    order.unwords (word :: rest) = order.encode 4 word.toNat ++ order.unwords rest := List.flatMap_cons

theorem Endian.length_unwords (order : Endian) (words : List (BitVec 32)) :
    (order.unwords words).length = 4 * words.length := by
  induction words with
  | nil => rfl
  | cons word rest ih =>
    rw [unwords_cons, List.length_append, order.length_encode, ih, List.length_cons]
    omega

theorem Endian.words_unwords (order : Endian) (words : List (BitVec 32)) :
    order.words (order.unwords words) = words := by
  induction words with
  | nil => rfl
  | cons word rest ih =>
    have fits : word.toNat < 256 ^ 4 := word.isLt
    rw [unwords_cons, order.words_append (order.length_encode ..), ih, order.decode_encode fits,
      BitVec.ofNat_toNat, BitVec.setWidth_eq]

theorem Endian.unwords_words (order : Endian) {bytes : List Byte} (whole : 4 ∣ bytes.length) :
    order.unwords (order.words bytes) = bytes := by
  induction bytes using words.induct with
  | case1 a b c d rest ih =>
    have whole' : 4 ∣ rest.length := by
      simp only [List.length_cons] at whole
      omega
    have fits : order.decode [a, b, c, d] < 2 ^ 32 := lt_of_lt_of_eq (order.decode_lt _) (by norm_num)
    have four : [a, b, c, d].length = 4 := rfl
    rw [words, unwords_cons, ih whole', BitVec.toNat_ofNat, Nat.mod_eq_of_lt fits, order.encode_decode four]
    rfl
  | case2 bytes short =>
    have none := order.length_words bytes
    rw [words.eq_2 order bytes short, List.length_nil] at none
    have empty : bytes = [] := List.eq_nil_of_length_eq_zero (by omega)
    rw [empty]
    rfl

end SentinelLab.Library.Bytes
