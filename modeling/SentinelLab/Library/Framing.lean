import Mathlib

/-! Streams of packets whose header declares the length of the whole packet. -/

namespace SentinelLab.Library.Framing

structure PacketFormat (α : Type*) where
  /-- Length of a header. -/
  header : Nat
  positive : 0 < header
  /-- The length that a header declares; `none` if it is no header. -/
  declared : List α → Option Nat

variable {α : Type*} (format : PacketFormat α)

def PacketFormat.next (stream : List α) : Option Nat :=
  (format.declared (stream.take format.header)).filter
    fun total => format.header ≤ total ∧ total ≤ stream.length

def PacketFormat.splitFuel : Nat → List α → List (List α) × List α
  | 0, stream => ([], stream)
  | fuel + 1, stream =>
    match format.next stream with
    | none => ([], stream)
    | some total =>
      let later := splitFuel fuel (stream.drop total)
      (stream.take total :: later.1, later.2)

/-- The packets of a stream and what is left over. -/
def PacketFormat.split (stream : List α) : List (List α) × List α := format.splitFuel stream.length stream

/-- A packet that declares its own length. -/
def PacketFormat.WellFramed (packet : List α) : Prop :=
  format.header ≤ packet.length ∧ format.declared (packet.take format.header) = some packet.length

instance (packet : List α) : Decidable (format.WellFramed packet) :=
  inferInstanceAs (Decidable (_ ∧ _))

variable {format}

theorem next_eq_some {stream : List α} {total : Nat} : format.next stream = some total ↔
    format.declared (stream.take format.header) = some total ∧ format.header ≤ total ∧ total ≤ stream.length := by
  rw [PacketFormat.next, Option.filter_eq_some_iff, decide_eq_true_iff]

theorem next_wellFramed {packet : List α} (framed : format.WellFramed packet) (rest : List α) :
    format.next (packet ++ rest) = some packet.length := by
  apply next_eq_some.mpr
  rw [List.take_append_of_le_length framed.1, List.length_append]
  exact ⟨framed.2, framed.1, Nat.le_add_right ..⟩

theorem wellFramed_congr {packet other : List α} (header : packet.take format.header = other.take format.header)
    (length : packet.length = other.length) : format.WellFramed packet ↔ format.WellFramed other := by
  rw [PacketFormat.WellFramed, PacketFormat.WellFramed, header, length]

theorem wellFramed_append_iff {packet : List α} (framed : format.WellFramed packet) (more : List α) :
    format.WellFramed (packet ++ more) ↔ more = [] := by
  constructor
  · rintro ⟨_, declared⟩
    rw [List.take_append_of_le_length framed.1, framed.2, List.length_append] at declared
    have total := Option.some.inj declared
    exact List.eq_nil_of_length_eq_zero (by omega)
  · rintro rfl
    rw [List.append_nil]
    exact framed

theorem splitFuel_wellFramed (fuel : Nat) (stream : List α) :
    ∀ packet ∈ (format.splitFuel fuel stream).1, format.WellFramed packet := by
  induction fuel generalizing stream with
  | zero => simp [PacketFormat.splitFuel]
  | succ fuel ih =>
    rw [PacketFormat.splitFuel]
    split
    · simp
    · next total found =>
      obtain ⟨declared, whole, inside⟩ := next_eq_some.mp found
      intro packet member
      rcases List.mem_cons.mp member with first | later
      · have length : (stream.take total).length = total := by
          rw [List.length_take]
          omega
        rw [first, PacketFormat.WellFramed, length, List.take_take, Nat.min_eq_left whole]
        exact ⟨whole, declared⟩
      · exact ih _ packet later

/-- Framed packets are split off one after the other, up to a rest that begins with no packet. -/
theorem splitFuel_flatten_append (packets : List (List α)) (framed : ∀ packet ∈ packets, format.WellFramed packet)
    (rest : List α) (stuck : format.next rest = none) (fuel : Nat)
    (enough : (packets.flatten ++ rest).length ≤ fuel) :
    format.splitFuel fuel (packets.flatten ++ rest) = (packets, rest) := by
  induction packets generalizing fuel with
  | nil =>
    rw [List.flatten_nil, List.nil_append]
    cases fuel with
    | zero => rfl
    | succ fuel => rw [PacketFormat.splitFuel, stuck]
  | cons packet packets ih =>
    have first := framed packet List.mem_cons_self
    have later (other : List α) (member : other ∈ packets) := framed other (List.mem_cons_of_mem _ member)
    have positive := format.positive
    have long := first.1
    rw [List.flatten_cons, List.append_assoc, List.length_append] at enough
    cases fuel with
    | zero => omega
    | succ fuel =>
      rw [List.flatten_cons, List.append_assoc, PacketFormat.splitFuel, next_wellFramed first]
      simp only [List.drop_left, List.take_left]
      rw [ih later fuel (by omega)]

theorem next_of_short {stream : List α} (short : stream.length < format.header) : format.next stream = none := by
  apply Option.eq_none_iff_forall_ne_some.mpr
  intro total found
  obtain ⟨_, whole, inside⟩ := next_eq_some.mp found
  omega

theorem split_flatten_append (packets : List (List α)) (framed : ∀ packet ∈ packets, format.WellFramed packet)
    (rest : List α) (stuck : format.next rest = none) :
    format.split (packets.flatten ++ rest) = (packets, rest) :=
  splitFuel_flatten_append packets framed rest stuck _ le_rfl

theorem splitFuel_flatten (packets : List (List α)) (framed : ∀ packet ∈ packets, format.WellFramed packet)
    (fuel : Nat) (enough : packets.flatten.length ≤ fuel) :
    format.splitFuel fuel packets.flatten = (packets, []) := by
  have stopped := splitFuel_flatten_append packets framed [] (next_of_short format.positive) fuel
  rw [List.append_nil] at stopped
  exact stopped enough

/-- A stream is split into the packets it was made of exactly if every packet declares its own
length. -/
theorem split_flatten_iff (packets : List (List α)) :
    format.split packets.flatten = (packets, []) ↔ ∀ packet ∈ packets, format.WellFramed packet := by
  constructor
  · intro same packet member
    apply splitFuel_wellFramed packets.flatten.length packets.flatten
    rw [← PacketFormat.split, same]
    exact member
  · intro framed
    exact splitFuel_flatten packets framed _ le_rfl

end SentinelLab.Library.Framing
