import SentinelLab.Library.Modbus

/-! The two Python harnesses that read the temperature of the PLC: `HilCoSimulator` asks for two
registers, `MatrixLiveTap` for three, and both take bytes 11 and 12 of the answer. -/

namespace SentinelLab.ModbusTap
open Library.Bytes Library.Modbus

abbrev Exchange : Type := List Byte → Option (List Byte)

/-- `(resp[offset] << 8) | resp[offset + 1]` -/
def register (resp : List Byte) (offset : Nat) : Nat :=
  (resp.getD offset 0).toNat <<< 8 ||| (resp.getD (offset + 1) 0).toNat

/-- Modbus Read Holding Registers Query (FC03, Start=1, Count=2) -/
def hilQuery : List Byte := [0x00, 0x01, 0x00, 0x00, 0x00, 0x06, 0x01, 0x03, 0x00, 0x01, 0x00, 0x02]

def queryPlcModbusTemp (exchange : Exchange) : ℚ :=
  match (exchange hilQuery).map (·.take 256) with
  | some resp => if 13 ≤ resp.length then (register resp 11 : ℚ) else 85
  | none => 85

structure PhysicalTelemetry where
  tempC : ℚ
  vibration : ℚ
  setpoint : Nat
  deriving DecidableEq

/-- Modbus FC03 Read Holding Registers 40001..40003 -/
def tapQuery : List Byte := [0x00, 0x01, 0x00, 0x00, 0x00, 0x06, 0x01, 0x03, 0x00, 0x00, 0x00, 0x03]

def readPlcPhysicalTelemetry (exchange : Exchange) : PhysicalTelemetry :=
  match (exchange tapQuery).map (·.take 256) with
  | some resp =>
      if 15 ≤ resp.length then
        { tempC := register resp 11, vibration := register resp 13, setpoint := register resp 9 }
      else { tempC := 85, vibration := 1200, setpoint := 500 }
  | none => { tempC := 85, vibration := 1200, setpoint := 500 }

/-! ## What the offsets read -/

theorem register_of_load {resp bytes : List Byte} {offset : Nat} (loaded : load resp offset 2 = some bytes) :
    register resp offset = Endian.big.decode bytes := by
  have inside : offset + 2 ≤ resp.length := by
    unfold load at loaded
    split at loaded
    · assumption
    · cases loaded
  rw [load_eq_bytes inside, Option.some.injEq] at loaded
  have low : (resp.getD (offset + 1) 0).toNat < 2 ^ 8 := (resp.getD (offset + 1) 0).isLt
  rw [register, ← Nat.shiftLeft_add_eq_or_of_lt low, Nat.shiftLeft_eq, ← loaded]
  simp only [List.range_succ, List.range_zero, List.nil_append, List.cons_append, List.map_cons, List.map_nil,
    Nat.add_zero, Endian.decode, List.reverse_cons, List.reverse_nil, ofLittle]
  omega

theorem register_response (registers : Registers) (request : ReadRequest) {k offset : Nat} {address : BitVec 16}
    (asked : k < request.count.toNat) (offset_eq : offset = 9 + 2 * k)
    (address_eq : address = request.start + BitVec.ofNat 16 k) :
    register (response registers request) offset = (registers address).toNat := by
  subst offset_eq address_eq
  have fits : (registers (request.start + BitVec.ofNat 16 k)).toNat < 256 ^ 2 :=
    (registers (request.start + BitVec.ofNat 16 k)).isLt
  rw [register_of_load (load_register registers request asked), Endian.decode_encode _ fits]

def hilRequest : ReadRequest := ⟨1, 1, 1, 2⟩

def tapRequest : ReadRequest := ⟨1, 1, 0, 3⟩

theorem hilQuery_eq : hilQuery = hilRequest.encode := by decide

theorem tapQuery_eq : tapQuery = tapRequest.encode := by decide

theorem take_response (registers : Registers) (request : ReadRequest) (short : request.count.toNat ≤ 123) :
    (response registers request).take 256 = response registers request := by
  apply List.take_of_length_le
  rw [length_response]
  omega

theorem queryPlcModbusTemp_serve (registers : Registers) :
    queryPlcModbusTemp (serve registers) = ((registers 2).toNat : ℚ) := by
  have served : serve registers hilQuery = some (response registers hilRequest) := by
    rw [hilQuery_eq]
    exact serve_encode registers hilRequest (by decide) (by decide)
  have second : register (response registers hilRequest) 11 = (registers 2).toNat :=
    register_response registers hilRequest (show 1 < 2 by decide) rfl (by decide)
  have long : 13 ≤ (response registers hilRequest).length := (length_response registers hilRequest).ge
  rw [queryPlcModbusTemp, served, Option.map_some, take_response registers hilRequest (by decide)]
  simp only [if_pos long, second]

theorem readPlcPhysicalTelemetry_serve (registers : Registers) :
    readPlcPhysicalTelemetry (serve registers) =
      { tempC := ((registers 1).toNat : ℚ), vibration := ((registers 2).toNat : ℚ),
        setpoint := (registers 0).toNat } := by
  have served : serve registers tapQuery = some (response registers tapRequest) := by
    rw [tapQuery_eq]
    exact serve_encode registers tapRequest (by decide) (by decide)
  have first : register (response registers tapRequest) 9 = (registers 0).toNat :=
    register_response registers tapRequest (show 0 < 3 by decide) rfl (by decide)
  have second : register (response registers tapRequest) 11 = (registers 1).toNat :=
    register_response registers tapRequest (show 1 < 3 by decide) rfl (by decide)
  have third : register (response registers tapRequest) 13 = (registers 2).toNat :=
    register_response registers tapRequest (show 2 < 3 by decide) rfl (by decide)
  have long : 15 ≤ (response registers tapRequest).length := (length_response registers tapRequest).ge
  rw [readPlcPhysicalTelemetry, served, Option.map_some, take_response registers tapRequest (by decide)]
  simp only [if_pos long, first, second, third]

/-- The co-simulator reads the vibration as the temperature, so the harnesses agree on holding
register 40002 exactly where 40003 holds the same value. -/
theorem same_temperature_iff (registers : Registers) :
    queryPlcModbusTemp (serve registers) = ((registers 1).toNat : ℚ) ∧
        queryPlcModbusTemp (serve registers) = (readPlcPhysicalTelemetry (serve registers)).tempC ↔
      registers 2 = registers 1 := by
  rw [queryPlcModbusTemp_serve, readPlcPhysicalTelemetry_serve, and_self, Nat.cast_inj, BitVec.toNat_inj]

/-- A PLC at 130 °C with a vibration of 12. -/
theorem overheated_plc_read_as_vibration :
    ∃ registers : Registers, registers 1 = 130 ∧ queryPlcModbusTemp (serve registers) = 12 ∧
      (readPlcPhysicalTelemetry (serve registers)).tempC = 130 := by
  refine ⟨fun address => if address = 1 then 130 else 12, rfl, ?_, ?_⟩
  · rw [queryPlcModbusTemp_serve]
    rfl
  · rw [readPlcPhysicalTelemetry_serve]
    rfl

/-! ## Runs of polls -/

structure CoSimulation where
  maxTemp : ℚ := 85
  breached : Bool := false

/-- One round of the loop of `run_co_simulation`. -/
def CoSimulation.poll (maxSafeTemp : ℚ) (simulation : CoSimulation) (exchange : Exchange) : CoSimulation :=
  let temp := queryPlcModbusTemp exchange
  { maxTemp := max simulation.maxTemp temp
    breached := if maxSafeTemp < temp ∧ !simulation.breached then true else simulation.breached }

def runCoSimulation (maxSafeTemp : ℚ) (polls : List Exchange) : CoSimulation :=
  polls.foldl (CoSimulation.poll maxSafeTemp) {}

/-- `max_observed_temp` after the loop of `stream_inspection`. -/
def maxObservedTemp (polls : List Exchange) : ℚ :=
  polls.foldl (fun maxTemp exchange => max maxTemp (readPlcPhysicalTelemetry exchange).tempC) 0

def invariantsMaintained (maxTempC : ℚ) (polls : List Exchange) : Bool := decide (maxObservedTemp polls ≤ maxTempC)

theorem poll_breached (maxSafeTemp : ℚ) (simulation : CoSimulation) (exchange : Exchange) :
    (simulation.poll maxSafeTemp exchange).breached = true ↔
      simulation.breached = true ∨ maxSafeTemp < queryPlcModbusTemp exchange := by
  unfold CoSimulation.poll
  cases already : simulation.breached with
  | true => simp
  | false => simp

theorem runCoSimulation_breached_iff (maxSafeTemp : ℚ) (plc : List Registers) :
    (runCoSimulation maxSafeTemp (plc.map serve)).breached = true ↔
      ∃ registers ∈ plc, maxSafeTemp < ((registers 2).toNat : ℚ) := by
  have from_any (simulation : CoSimulation) :
      ((plc.map serve).foldl (CoSimulation.poll maxSafeTemp) simulation).breached = true ↔
        simulation.breached = true ∨ ∃ registers ∈ plc, maxSafeTemp < ((registers 2).toNat : ℚ) := by
    induction plc generalizing simulation with
    | nil => simp
    | cons registers rest ih =>
      rw [List.map_cons, List.foldl_cons, ih, poll_breached, queryPlcModbusTemp_serve, or_assoc]
      simp only [List.mem_cons, exists_eq_or_imp]
  rw [runCoSimulation, from_any]
  simp

theorem invariantsMaintained_iff (maxTempC : ℚ) (nonneg : 0 ≤ maxTempC) (plc : List Registers) :
    invariantsMaintained maxTempC (plc.map serve) = true ↔
      ∀ registers ∈ plc, ((registers 1).toNat : ℚ) ≤ maxTempC := by
  have from_any (start : ℚ) :
      (plc.map serve).foldl (fun maxTemp exchange => max maxTemp (readPlcPhysicalTelemetry exchange).tempC) start ≤
          maxTempC ↔ start ≤ maxTempC ∧ ∀ registers ∈ plc, ((registers 1).toNat : ℚ) ≤ maxTempC := by
    induction plc generalizing start with
    | nil => simp
    | cons registers rest ih =>
      rw [List.map_cons, List.foldl_cons, ih, readPlcPhysicalTelemetry_serve, max_le_iff, and_assoc]
      simp only [List.mem_cons, forall_eq_or_imp]
  rw [invariantsMaintained, decide_eq_true_iff, maxObservedTemp, from_any]
  exact and_iff_right nonneg

end SentinelLab.ModbusTap
