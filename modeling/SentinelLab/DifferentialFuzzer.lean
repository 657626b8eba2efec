import SentinelLab.SessionStream

/-! `DifferentialFuzzer` and the script `ScadaDifferentialFuzzer`: mutated PDUs, the oracle, and what a
peer that frames its stream by the length fields makes of the mutations. -/

namespace SentinelLab.DifferentialFuzzer
open Library.Bytes Library.Framing

inductive MutationType where
  | mbapLengthCorruption
  | dualFunctionCode
  | cotpHeaderTruncate
  | trailingPadding
  deriving DecidableEq, Repr

inductive OracleClassification where
  | benignNormal
  | defenseSuccessful
  | parserDesyncVulnerability
  | mitigationFailure
  deriving DecidableEq, Repr

structure DesyncVerdict where
  desyncFound : Bool := false
  classification : OracleClassification := .benignNormal
  protocolName : String := ""
  port : BitVec 16 := 0
  mutatedPayload : List Byte := []
  vulnerabilityExplanation : String := ""

/-- The values that the static generator will give. -/
abbrev Generator : Type := Stream' (BitVec 32)

/-- `static_cast<uint8_t>(gen() % modulus)` -/
def draw (modulus : Nat) (gen : Generator) : Byte × Generator :=
  (BitVec.ofNat 8 (gen.head.toNat % modulus), gen.tail)

def draws (modulus : Nat) : Nat → Generator → List Byte × Generator
  | 0, gen => ([], gen)
  | count + 1, gen =>
      let (byte, gen) := draw modulus gen
      let (bytes, gen) := draws modulus count gen
      (byte :: bytes, gen)

def fc05Override : List Byte := [0x05, 0x00, 0x01, 0xFF, 0x00]

def mutatePdu (seedPdu : List Byte) (strategy : MutationType) (gen : Generator) : List Byte × Generator :=
  if seedPdu.length < 8 then (seedPdu, gen)
  else
    match strategy with
    | .mbapLengthCorruption =>
        let (high, gen) := draw 255 gen
        let (low, gen) := draw 255 gen
        ((seedPdu.set 4 high).set 5 low, gen)
    | .dualFunctionCode => (if 12 ≤ seedPdu.length then seedPdu ++ fc05Override else seedPdu, gen)
    | .cotpHeaderTruncate =>
        if seedPdu.head? = some 0x03 then
          let (reserved, gen) := draw 4 gen
          (seedPdu.set 1 reserved, gen)
        else (seedPdu, gen)
    | .trailingPadding =>
        let (padding, gen) := draws 256 32 gen
        (seedPdu ++ padding, gen)

def vulnerabilityExplanation (mutatedPdu : List Byte) (protocolName : String) (port : BitVec 16) : String :=
  "🚨 [SCADA REQUEST SMUGGLING ZERO-DAY]: Gateway passed frame as benign (V_gateway = PASS), " ++
  "but target PLC executed state change (V_plc = STATE_CHANGED) on " ++ protocolName ++ " (Port " ++
  toString port.toNat ++ "). Payload Size: " ++ toString mutatedPdu.length ++ " bytes."

def evaluateOracle (mutatedPdu : List Byte) (gatewayPassed plcStateChanged : Bool) (protocolName : String)
    (port : BitVec 16) : DesyncVerdict :=
  let verdict : DesyncVerdict := { protocolName, port, mutatedPayload := mutatedPdu }
  if gatewayPassed && !plcStateChanged then { verdict with classification := .benignNormal }
  else if !gatewayPassed && !plcStateChanged then { verdict with classification := .defenseSuccessful }
  else if !gatewayPassed && plcStateChanged then { verdict with classification := .mitigationFailure }
  else
    { verdict with
      desyncFound := true
      classification := .parserDesyncVulnerability
      vulnerabilityExplanation := vulnerabilityExplanation mutatedPdu protocolName port }

/-- Calls of `mutate_pdu` one after the other, on whatever instances: the generator is static. -/
def campaign : List (List Byte × MutationType) → Generator → List (List Byte) × Generator
  | [], gen => ([], gen)
  | (seedPdu, strategy) :: calls, gen =>
      let (mutated, gen) := mutatePdu seedPdu strategy gen
      let (later, gen) := campaign calls gen
      (mutated :: later, gen)

/-! ## A peer that goes by the length fields -/

/-- The first six bytes of an MBAP header: transaction, protocol 0, and the length of what follows. -/
def mbap : PacketFormat Byte where
  header := 6
  positive := by decide
  declared
    | [_, _, p1, p0, high, low] => if [p1, p0] = [0, 0] then some (6 + Endian.big.decode [high, low]) else none
    | _ => none

def generators : List (List Byte × MutationType) → Generator → List Generator
  | [], _ => []
  | (seedPdu, strategy) :: calls, gen => gen :: generators calls (mutatePdu seedPdu strategy gen).2

/-- The target, by the length field that it goes by. -/
inductive Peer where
  | modbus
  | s7comm
  deriving DecidableEq, Repr

def Peer.format : Peer → PacketFormat Byte
  | .modbus => mbap
  | .s7comm => SessionStream.tpkt

/-- The call leaves a frame of the peer framed. Bytes 4 and 5 are no part of a TPKT header, and byte 1 is
reserved in it. -/
def Peer.Keeps (peer : Peer) (seedPdu : List Byte) (strategy : MutationType) (gen : Generator) : Prop :=
  match strategy with
  | .mbapLengthCorruption =>
      peer = .modbus → 8 ≤ seedPdu.length →
        seedPdu[4]? = some (draw 255 gen).1 ∧ seedPdu[5]? = some (draw 255 gen.tail).1
  | .dualFunctionCode => seedPdu.length < 12
  | .cotpHeaderTruncate => True
  | .trailingPadding => seedPdu.length < 8

theorem mbap_wellFramed_iff {packet : List Byte} : mbap.WellFramed packet ↔
    ∃ t1 t0 high low rest, packet = t1 :: t0 :: 0 :: 0 :: high :: low :: rest ∧
      Endian.big.decode [high, low] = rest.length := by
  constructor
  · intro framed
    obtain ⟨long, declared⟩ := framed
    match packet, long with
    | t1 :: t0 :: p1 :: p0 :: high :: low :: rest, _ =>
      simp only [mbap, List.take_succ_cons, List.take_zero, List.length_cons] at declared
      split at declared
      next protocol =>
        simp only [List.cons.injEq, and_true] at protocol
        obtain ⟨rfl, rfl⟩ := protocol
        refine ⟨t1, t0, high, low, rest, rfl, ?_⟩
        have total := Option.some.inj declared
        omega
      next => cases declared
  · rintro ⟨t1, t0, high, low, rest, rfl, length⟩
    refine ⟨by simp [mbap], ?_⟩
    simp only [mbap, List.take_succ_cons, List.take_zero, List.length_cons, ↓reduceIte, length]
    rw [Nat.add_comm]

theorem length_draws (modulus count : Nat) (gen : Generator) : (draws modulus count gen).1.length = count := by
  induction count generalizing gen with
  | zero => rfl
  | succ count ih =>
    rw [draws, List.length_cons, ih]

variable {seedPdu : List Byte} {strategy : MutationType} {gen : Generator}

theorem mbap_corrupted_iff (framed : mbap.WellFramed seedPdu) (high low : Byte) :
    mbap.WellFramed ((seedPdu.set 4 high).set 5 low) ↔ seedPdu[4]? = some high ∧ seedPdu[5]? = some low := by
  obtain ⟨t1, t0, oldHigh, oldLow, rest, rfl, length⟩ := mbap_wellFramed_iff.mp framed
  have corrupted : (((t1 :: t0 :: 0 :: 0 :: oldHigh :: oldLow :: rest : List Byte).set 4 high).set 5 low) =
      t1 :: t0 :: 0 :: 0 :: high :: low :: rest := rfl
  have old : (t1 :: t0 :: 0 :: 0 :: oldHigh :: oldLow :: rest : List Byte)[4]? = some oldHigh ∧
      (t1 :: t0 :: 0 :: 0 :: oldHigh :: oldLow :: rest : List Byte)[5]? = some oldLow := ⟨rfl, rfl⟩
  rw [corrupted, mbap_wellFramed_iff, old.1, old.2, Option.some.injEq, Option.some.injEq]
  constructor
  · rintro ⟨_, _, newHigh, newLow, others, same, declared⟩
    simp only [List.cons.injEq, true_and] at same
    obtain ⟨_, _, rfl, rfl, rfl⟩ := same
    have equal : [high, low] = [oldHigh, oldLow] := Endian.decode_injective .big rfl (declared.trans length.symm)
    simp only [List.cons.injEq, and_true] at equal
    exact ⟨equal.1.symm, equal.2.symm⟩
  · rintro ⟨rfl, rfl⟩
    exact ⟨t1, t0, oldHigh, oldLow, rest, rfl, length⟩

theorem mbap_transaction (framed : mbap.WellFramed seedPdu) (byte : Byte) : mbap.WellFramed (seedPdu.set 1 byte) := by
  obtain ⟨t1, t0, high, low, rest, rfl, length⟩ := mbap_wellFramed_iff.mp framed
  exact mbap_wellFramed_iff.mpr ⟨t1, byte, high, low, rest, rfl, length⟩

theorem fc05Override_ne_nil : fc05Override ≠ [] := by decide

theorem draws_ne_nil (gen : Generator) : (draws 256 32 gen).1 ≠ [] := by
  intro none
  have long := length_draws 256 32 gen
  rw [none] at long
  cases long

theorem tpkt_wellFramed_iff {packet : List Byte} : SessionStream.tpkt.WellFramed packet ↔
    ∃ reserved high low rest, packet = 3 :: reserved :: high :: low :: rest ∧
      Endian.big.decode [high, low] = rest.length + 4 := by
  constructor
  · intro framed
    obtain ⟨long, declared⟩ := framed
    match packet, long with
    | version :: reserved :: high :: low :: rest, _ =>
      simp only [SessionStream.tpkt, List.take_succ_cons, List.take_zero, List.length_cons] at declared
      split at declared
      next three =>
        subst three
        exact ⟨reserved, high, low, rest, rfl, Option.some.inj declared⟩
      next => cases declared
  · rintro ⟨reserved, high, low, rest, rfl, length⟩
    refine ⟨by simp [SessionStream.tpkt], ?_⟩
    simp only [SessionStream.tpkt, List.take_succ_cons, List.take_zero, List.length_cons, ↓reduceIte, length]

theorem tpkt_corrupted (framed : SessionStream.tpkt.WellFramed seedPdu) (high low : Byte) :
    SessionStream.tpkt.WellFramed ((seedPdu.set 4 high).set 5 low) := by
  refine (wellFramed_congr ?_ ?_).mpr framed
  · rw [List.take_set_of_le (by decide), List.take_set_of_le (by decide)]
  · rw [List.length_set, List.length_set]

theorem tpkt_reserved (framed : SessionStream.tpkt.WellFramed seedPdu) (byte : Byte) :
    SessionStream.tpkt.WellFramed (seedPdu.set 1 byte) := by
  obtain ⟨reserved, high, low, rest, rfl, length⟩ := tpkt_wellFramed_iff.mp framed
  exact tpkt_wellFramed_iff.mpr ⟨byte, high, low, rest, rfl, length⟩

variable {peer : Peer}

theorem corrupted_iff (framed : peer.format.WellFramed seedPdu) (high low : Byte) :
    peer.format.WellFramed ((seedPdu.set 4 high).set 5 low) ↔
      (peer = .modbus → seedPdu[4]? = some high ∧ seedPdu[5]? = some low) := by
  cases peer with
  | modbus => exact (mbap_corrupted_iff framed high low).trans ⟨fun same _ => same, fun same => same rfl⟩
  | s7comm => exact iff_of_true (tpkt_corrupted framed high low) nofun

theorem byte_one (framed : peer.format.WellFramed seedPdu) (byte : Byte) :
    peer.format.WellFramed (seedPdu.set 1 byte) := by
  cases peer with
  | modbus => exact mbap_transaction framed byte
  | s7comm => exact tpkt_reserved framed byte

theorem mutatePdu_framed_iff (framed : peer.format.WellFramed seedPdu) :
    peer.format.WellFramed (mutatePdu seedPdu strategy gen).1 ↔ peer.Keeps seedPdu strategy gen := by
  unfold mutatePdu Peer.Keeps
  by_cases short : seedPdu.length < 8
  · rw [if_pos short]
    cases strategy with
    | mbapLengthCorruption => exact iff_of_true framed fun _ long => absurd short (by omega)
    | dualFunctionCode => exact iff_of_true framed (by dsimp only; omega)
    | cotpHeaderTruncate => exact iff_of_true framed trivial
    | trailingPadding => exact iff_of_true framed short
  · rw [if_neg short]
    have long : 8 ≤ seedPdu.length := Nat.le_of_not_lt short
    cases strategy with
    | mbapLengthCorruption =>
      have corrupted := corrupted_iff framed (draw 255 gen).1 (draw 255 gen.tail).1
      exact corrupted.trans ⟨fun kept modbus _ => kept modbus, fun kept modbus => kept modbus long⟩
    | dualFunctionCode =>
      dsimp only
      split
      next whole =>
        rw [wellFramed_append_iff framed]
        exact iff_of_false fc05Override_ne_nil (by omega)
      next few => exact iff_of_true framed (by omega)
    | cotpHeaderTruncate =>
      dsimp only
      split
      · exact iff_of_true (byte_one framed _) trivial
      · exact iff_of_true framed trivial
    | trailingPadding =>
      dsimp only
      rw [wellFramed_append_iff framed]
      exact iff_of_false (draws_ne_nil gen) short

theorem campaign_cons (call : List Byte × MutationType) (calls : List (List Byte × MutationType))
    (gen : Generator) : (campaign (call :: calls) gen).1 =
      (mutatePdu call.1 call.2 gen).1 :: (campaign calls (mutatePdu call.1 call.2 gen).2).1 := rfl

theorem campaign_append (calls later : List (List Byte × MutationType)) (gen : Generator) :
    (campaign (calls ++ later) gen).1 = (campaign calls gen).1 ++ (campaign later (campaign calls gen).2).1 := by
  induction calls generalizing gen with
  | nil => rfl
  | cons call calls ih => rw [List.cons_append, campaign_cons, campaign_cons, ih, List.cons_append]; rfl

def Peer.KeepsAll (peer : Peer) (calls : List (List Byte × MutationType)) (gen : Generator) : Prop :=
  ∀ call ∈ calls.zip (generators calls gen), peer.Keeps call.1.1 call.1.2 call.2

theorem keepsAll_cons (call : List Byte × MutationType) (calls : List (List Byte × MutationType)) :
    peer.KeepsAll (call :: calls) gen ↔
      peer.Keeps call.1 call.2 gen ∧ peer.KeepsAll calls (mutatePdu call.1 call.2 gen).2 :=
  List.forall_mem_cons

theorem campaign_wellFramed_iff (calls : List (List Byte × MutationType))
    (seeds : ∀ call ∈ calls, peer.format.WellFramed call.1) (gen : Generator) :
    (∀ mutated ∈ (campaign calls gen).1, peer.format.WellFramed mutated) ↔ peer.KeepsAll calls gen := by
  induction calls generalizing gen with
  | nil => exact iff_of_true (List.forall_mem_nil _) (List.forall_mem_nil _)
  | cons call calls ih =>
    obtain ⟨first, later⟩ := List.forall_mem_cons.mp seeds
    rw [campaign_cons, List.forall_mem_cons, keepsAll_cons, mutatePdu_framed_iff first, ih later]

/-- Frames in a row are split again after the mutations exactly if every call kept its frame: a
`COTP_HEADER_TRUNCATE` always does, and an MBAP corruption always does for S7. -/
theorem campaign_framed_iff (peer : Peer) (calls : List (List Byte × MutationType)) (gen : Generator)
    (seeds : ∀ call ∈ calls, peer.format.WellFramed call.1) :
    peer.format.split (campaign calls gen).1.flatten = ((campaign calls gen).1, []) ↔ peer.KeepsAll calls gen := by
  rw [split_flatten_iff]
  exact campaign_wellFramed_iff calls seeds gen

theorem campaign_framed_iff_tpkt :
    let setup : List Byte := [0x03, 0x00, 0x00, 0x08, 0x02, 0xF0, 0x80, 0x32]
    let calls : List (List Byte × MutationType) := [(setup, .mbapLengthCorruption), (setup, .trailingPadding)]
    let sent := (campaign calls (Stream'.const 0)).1
    SessionStream.tpkt.split sent.flatten = (sent, []) ↔ Peer.s7comm.KeepsAll calls (Stream'.const 0) := by
  intro setup calls
  apply campaign_framed_iff .s7comm calls (Stream'.const 0)
  decide

theorem fc05Override_stuck (rest : List Byte) : peer.format.next (fc05Override ++ rest) = none := by
  have headless : peer.format.declared ((fc05Override ++ rest).take peer.format.header) = none := by
    cases peer with
    | modbus => cases rest <;> rfl
    | s7comm => rfl
  rw [PacketFormat.next, headless]
  rfl

/-- If the calls before the first dual function code kept their frames, the peer never sees a packet
again behind it: it splits off the frames up to that call and its seed, and holds everything else. -/
theorem dual_function_code_ends_stream (peer : Peer) (calls later : List (List Byte × MutationType))
    (seedPdu : List Byte) (gen : Generator) (seeds : ∀ call ∈ calls, peer.format.WellFramed call.1)
    (kept : peer.KeepsAll calls gen) (framed : peer.format.WellFramed seedPdu) (long : 12 ≤ seedPdu.length) :
    peer.format.split (campaign (calls ++ (seedPdu, .dualFunctionCode) :: later) gen).1.flatten =
      ((campaign calls gen).1 ++ [seedPdu],
        fc05Override ++ (campaign later (campaign calls gen).2).1.flatten) := by
  have appended : mutatePdu seedPdu .dualFunctionCode (campaign calls gen).2 =
      (seedPdu ++ fc05Override, (campaign calls gen).2) := by
    rw [mutatePdu, if_neg (by omega), if_pos long]
  have stream : (campaign (calls ++ (seedPdu, .dualFunctionCode) :: later) gen).1.flatten =
      ((campaign calls gen).1 ++ [seedPdu]).flatten ++
        (fc05Override ++ (campaign later (campaign calls gen).2).1.flatten) := by
    rw [campaign_append, campaign_cons, appended]
    simp only [List.flatten_append, List.flatten_cons, List.flatten_nil, List.append_nil, List.append_assoc]
  rw [stream]
  apply split_flatten_append _ _ _ (fc05Override_stuck _)
  intro packet member
  rcases List.mem_append.mp member with earlier | last
  · exact (campaign_wellFramed_iff calls seeds gen).mpr kept packet earlier
  · rw [List.mem_singleton.mp last]
    exact framed

theorem dual_function_code_ends_stream_read :
    let readRequest : List Byte := [0x00, 0x01, 0x00, 0x00, 0x00, 0x06, 0x01, 0x03, 0x00, 0x01, 0x00, 0x02]
    mbap.split (campaign [(readRequest, .cotpHeaderTruncate), (readRequest, .dualFunctionCode),
        (readRequest, .cotpHeaderTruncate)] (Stream'.const 0)).1.flatten =
      ([readRequest, readRequest], fc05Override ++ readRequest) :=
  dual_function_code_ends_stream .modbus [(_, .cotpHeaderTruncate)] [(_, .cotpHeaderTruncate)] _ (Stream'.const 0)
    (List.forall_mem_singleton.mpr (by decide)) (List.forall_mem_singleton.mpr trivial) (by decide) (by decide)

/-! ## The script -/

/-- What `random` gives in one call of `mutate_modbus_pdu`. -/
inductive Choice where
  | mbapLenCorrupt (high low : Byte)
  | dualFc
  | trailingPad (padding : Vector Byte 16)

def mutateModbusPdu (seed : List Byte) : Choice → List Byte
  | .mbapLenCorrupt high low => if 6 ≤ seed.length then (seed.set 4 high).set 5 low else seed
  | .dualFc => seed ++ fc05Override
  | .trailingPad padding => seed ++ padding.toList

def fc03Seed : List Byte := [0x00, 0x01, 0x00, 0x00, 0x00, 0x06, 0x01, 0x03, 0x00, 0x01, 0x00, 0x02]

/-- What the environment gives in one iteration: the choice, and whether the two `send_pdu` were answered. -/
structure Iteration where
  choice : Choice
  vGatewayPass : Bool
  vPlcExecuted : Bool

/-- The count, and what was printed: number of the iteration and mutated frame. -/
structure Report where
  desyncBugsFound : Nat := 0
  printed : List (Nat × List Byte) := []

def fuzzFrom (i : Nat) (report : Report) : List Iteration → Report
  | [] => report
  | iteration :: later =>
      let mutated := mutateModbusPdu fc03Seed iteration.choice
      let report :=
        if iteration.vGatewayPass && iteration.vPlcExecuted then
          { desyncBugsFound := report.desyncBugsFound + 1, printed := report.printed ++ [(i, mutated)] }
        else report
      fuzzFrom (i + 1) report later

def runFuzzingLoop (iterations : List Iteration) : Report := fuzzFrom 1 {} iterations

def Iteration.verdict (iteration : Iteration) (protocolName : String) (port : BitVec 16) : DesyncVerdict :=
  evaluateOracle (mutateModbusPdu fc03Seed iteration.choice) iteration.vGatewayPass iteration.vPlcExecuted
    protocolName port

theorem evaluateOracle_desyncFound (mutatedPdu : List Byte) (gatewayPassed plcStateChanged : Bool)
    (protocolName : String) (port : BitVec 16) :
    (evaluateOracle mutatedPdu gatewayPassed plcStateChanged protocolName port).desyncFound =
      (gatewayPassed && plcStateChanged) := by
  cases gatewayPassed <;> cases plcStateChanged <;> rfl

theorem evaluateOracle_mutatedPayload (mutatedPdu : List Byte) (gatewayPassed plcStateChanged : Bool)
    (protocolName : String) (port : BitVec 16) :
    (evaluateOracle mutatedPdu gatewayPassed plcStateChanged protocolName port).mutatedPayload = mutatedPdu := by
  cases gatewayPassed <;> cases plcStateChanged <;> rfl

theorem fuzzFrom_report (protocolName : String) (port : BitVec 16) (iterations : List Iteration) (i : Nat)
    (report : Report) :
    let found := (iterations.zipIdx i).filter fun entry => (entry.1.verdict protocolName port).desyncFound
    fuzzFrom i report iterations =
      { desyncBugsFound := report.desyncBugsFound + found.length
        printed := report.printed ++
          found.map fun entry => (entry.2, (entry.1.verdict protocolName port).mutatedPayload) } := by
  dsimp only
  induction iterations generalizing i report with
  | nil => rw [List.zipIdx_nil, List.filter_nil, List.map_nil, List.append_nil]; rfl
  | cons iteration later ih =>
    have found : (iteration.verdict protocolName port).desyncFound =
        (iteration.vGatewayPass && iteration.vPlcExecuted) := evaluateOracle_desyncFound ..
    have payload : (iteration.verdict protocolName port).mutatedPayload = mutateModbusPdu fc03Seed iteration.choice :=
      evaluateOracle_mutatedPayload ..
    rw [fuzzFrom, ih, List.zipIdx_cons, List.filter_cons, found]
    split
    · rw [List.length_cons, List.map_cons, payload, List.append_assoc, List.singleton_append]
      dsimp only
      congr 1
      omega
    · rfl

/-- The script reports the iterations at which the oracle finds a desync, each once and in order. -/
theorem runFuzzingLoop_agrees (protocolName : String) (port : BitVec 16) (iterations : List Iteration) :
    let found := (iterations.zipIdx 1).filter fun entry => (entry.1.verdict protocolName port).desyncFound
    (runFuzzingLoop iterations).desyncBugsFound = found.length ∧
      (runFuzzingLoop iterations).printed =
        found.map fun entry => (entry.2, (entry.1.verdict protocolName port).mutatedPayload) := by
  have report := fuzzFrom_report protocolName port iterations 1 {}
  dsimp only at report ⊢
  rw [runFuzzingLoop, report]
  exact ⟨Nat.zero_add _, List.nil_append _⟩

theorem fc03Seed_framed : mbap.WellFramed fc03Seed := by decide

theorem mutateModbusPdu_framed_iff (choice : Choice) :
    mbap.WellFramed (mutateModbusPdu fc03Seed choice) ↔ mutateModbusPdu fc03Seed choice = fc03Seed := by
  cases choice with
  | mbapLenCorrupt high low =>
    have corrupted : mutateModbusPdu fc03Seed (.mbapLenCorrupt high low) = (fc03Seed.set 4 high).set 5 low := rfl
    rw [corrupted, mbap_corrupted_iff fc03Seed_framed]
    constructor
    · rintro ⟨first, second⟩
      have high0 : high = 0x00 := (Option.some.inj first).symm
      have low6 : low = 0x06 := (Option.some.inj second).symm
      rw [high0, low6]
      rfl
    · intro same
      rw [← same]
      exact ⟨rfl, rfl⟩
  | dualFc =>
    rw [mutateModbusPdu, wellFramed_append_iff fc03Seed_framed, List.append_right_eq_self]
  | trailingPad padding =>
    rw [mutateModbusPdu, wellFramed_append_iff fc03Seed_framed, List.append_right_eq_self]

/-- A connection of the script carries a frame exactly if it carries the seed, and what the script
sends in all is a stream of frames exactly if no iteration mutated anything. -/
theorem loop_stream_framed_iff (choices : List Choice) :
    let sent := choices.map (mutateModbusPdu fc03Seed)
    (∀ mutated ∈ sent, mbap.split mutated = ([mutated], []) ↔ mutated = fc03Seed) ∧
      (mbap.split sent.flatten = (sent, []) ↔ ∀ mutated ∈ sent, mutated = fc03Seed) := by
  dsimp only
  constructor
  · rw [List.forall_mem_map]
    intro choice _
    rw [← mutateModbusPdu_framed_iff choice, ← @List.forall_mem_singleton _ mbap.WellFramed, ← split_flatten_iff,
      List.flatten_singleton]
  · rw [split_flatten_iff, List.forall_mem_map, List.forall_mem_map]
    exact forall₂_congr fun choice _ => mutateModbusPdu_framed_iff choice

def Choice.Shared : Choice → Prop
  | .mbapLenCorrupt high low => high ≠ 255 ∧ low ≠ 255
  | .dualFc => True
  | .trailingPad _ => False

theorem draw_ne_255 (gen : Generator) : (draw 255 gen).1 ≠ 255 := by
  intro full
  have value : (BitVec.ofNat 8 (gen.head.toNat % 255)).toNat = 255 := congrArg BitVec.toNat full
  rw [BitVec.toNat_ofNat] at value
  have below := Nat.mod_lt gen.head.toNat (show 0 < 255 by decide)
  omega

theorem draw_of_ne_255 {byte : Byte} (below : byte ≠ 255) (later : Generator) :
    draw 255 (Stream'.cons (byte.setWidth 32) later) = (byte, later) := by
  have small : byte.toNat < 255 := by
    have bound := byte.isLt
    have other : byte.toNat ≠ 255 := fun full => below (BitVec.eq_of_toNat_eq full)
    omega
  rw [draw, Stream'.head_cons, Stream'.tail_cons, BitVec.toNat_setWidth_of_le (by decide), Nat.mod_eq_of_lt small,
    BitVec.ofNat_toNat, BitVec.setWidth_eq]

theorem length_padded (gen : Generator) : (mutatePdu fc03Seed .trailingPadding gen).1.length = 44 := by
  have padded : (mutatePdu fc03Seed .trailingPadding gen).1 = fc03Seed ++ (draws 256 32 gen).1 := rfl
  rw [padded, List.length_append, length_draws]
  rfl

/-- The script and the C++ fuzzer make the same frame of the seed for all choices but those that draw a
255 and those that pad: 16 bytes there, 32 here. -/
theorem script_shared_iff (choice : Choice) :
    (∃ strategy gen, (mutatePdu fc03Seed strategy gen).1 = mutateModbusPdu fc03Seed choice) ↔ choice.Shared := by
  cases choice with
  | mbapLenCorrupt high low =>
    have frame : mutateModbusPdu fc03Seed (.mbapLenCorrupt high low) = (fc03Seed.set 4 high).set 5 low := rfl
    have bytes : (mutateModbusPdu fc03Seed (.mbapLenCorrupt high low))[4]? = some high ∧
        (mutateModbusPdu fc03Seed (.mbapLenCorrupt high low))[5]? = some low := ⟨rfl, rfl⟩
    constructor
    · rintro ⟨strategy, gen, same⟩
      rw [← same] at bytes
      obtain ⟨first, second⟩ := bytes
      cases strategy with
      | mbapLengthCorruption =>
        have drawn : (mutatePdu fc03Seed .mbapLengthCorruption gen).1[4]? = some (draw 255 gen).1 ∧
            (mutatePdu fc03Seed .mbapLengthCorruption gen).1[5]? = some (draw 255 gen.tail).1 := ⟨rfl, rfl⟩
        rw [← Option.some.inj (drawn.1.symm.trans first), ← Option.some.inj (drawn.2.symm.trans second)]
        exact ⟨draw_ne_255 gen, draw_ne_255 gen.tail⟩
      | dualFunctionCode =>
        have longer : 17 = 12 := congrArg List.length same
        cases longer
      | cotpHeaderTruncate =>
        have unchanged : (mutatePdu fc03Seed .cotpHeaderTruncate gen).1 = fc03Seed := rfl
        rw [unchanged] at first second
        rw [← Option.some.inj first, ← Option.some.inj second]
        exact ⟨by decide, by decide⟩
      | trailingPadding =>
        have padded := congrArg List.length same
        rw [length_padded] at padded
        cases padded
    · rintro ⟨highDrawn, lowDrawn⟩
      let gen := Stream'.cons (high.setWidth 32) (Stream'.cons (low.setWidth 32) (Stream'.const 0))
      refine ⟨.mbapLengthCorruption, gen, ?_⟩
      have drawn : (mutatePdu fc03Seed .mbapLengthCorruption gen).1 =
          (fc03Seed.set 4 (draw 255 gen).1).set 5 (draw 255 gen.tail).1 := rfl
      have firstDraw : (draw 255 gen).1 = high := congrArg Prod.fst (draw_of_ne_255 highDrawn _)
      have secondDraw : (draw 255 gen.tail).1 = low := congrArg Prod.fst (draw_of_ne_255 lowDrawn _)
      rw [drawn, firstDraw, secondDraw, frame]
  | dualFc => exact iff_of_true ⟨.dualFunctionCode, Stream'.const 0, rfl⟩ trivial
  | trailingPad padding =>
    refine iff_of_false ?_ id
    rintro ⟨strategy, gen, same⟩
    have length := congrArg List.length same
    have script : (mutateModbusPdu fc03Seed (.trailingPad padding)).length = 28 := by
      rw [mutateModbusPdu, List.length_append, Vector.length_toList]
      rfl
    rw [script] at length
    cases strategy with
    | mbapLengthCorruption => cases length
    | dualFunctionCode => cases length
    | cotpHeaderTruncate => cases length
    | trailingPadding =>
      rw [length_padded] at length
      cases length

end SentinelLab.DifferentialFuzzer
