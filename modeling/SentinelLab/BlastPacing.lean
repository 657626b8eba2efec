import SentinelLab.Library.Binary64
import SentinelLab.Library.Pacing
import SentinelLab.Library.Transition
import SentinelLab.SlabWire

/-! The rate limit of `SlabSocketBlaster.blast_dataset`. The clock, in nanoseconds, and the socket are
choices of the environment; the period and the time to sleep are computed with machine numbers. -/

namespace SentinelLab.BlastPacing
open Inet NetworkIngest Library.Bytes Library.SinglePrecision Library.Binary64 Library.Pacing Library.Transition

structure SlabSocketBlaster where
  rateLimitEps : Int := 60000
  /-- A socket could be opened. -/
  sock : Bool := true

abbrev Row := Nat × List Binary32

/-- `none` is an `OverflowError`. -/
def periodNs (arith : Doubles) (blaster : SlabSocketBlaster) : Option Int :=
  if blaster.rateLimitEps > 0 then
    (arith.ofInteger blaster.rateLimitEps).map fun rate => truncate (arith.div (arith.round (10 ^ 9 : Int)) rate)
  else some 0

structure State where
  idx : Nat
  nextTxTime : Int
  /-- The last instant at which the environment answered. -/
  clock : Int
  sentAt : List Int

def start (nextTxTime : Int) : State := ⟨0, nextTxTime, nextTxTime, []⟩

/-- The readings of one round: `perf_counter_ns`, the return of `time.sleep`, and `send`, which may raise. -/
structure Tick where
  now : Int
  wake : Int
  sent : Int
  accepted : Bool

def sleepSeconds (arith : Doubles) (delayNs : Int) : ℚ := arith.div (arith.round delayNs) (arith.round (10 ^ 9 : Int))

/-- The clock does not decrease, and a sleep lasts at least as long as requested. -/
def Legal (arith : Doubles) (periodNs : Int) (state : State) (tick : Tick) : Prop :=
  if periodNs > 0 then
    state.clock ≤ tick.now ∧
      if tick.now < state.nextTxTime then
        (tick.now : ℚ) + sleepSeconds arith (state.nextTxTime - tick.now) * (10 ^ 9 : Int) ≤ tick.wake ∧
          tick.wake ≤ tick.sent
      else tick.now ≤ tick.sent
  else state.clock ≤ tick.sent

instance (arith : Doubles) (periodNs : Int) (state : State) (tick : Tick) :
    Decidable (Legal arith periodNs state tick) := by
  unfold Legal
  infer_instance

/-- One round of the loop. There is none after the last row or a `struct.error`. -/
def step (arith : Doubles) (host : Endian) (blaster : SlabSocketBlaster) (rows : List Row) (periodNs : Int)
    (state : State) (tick : Tick) : Option (State × Option (List Byte)) := do
  let (label, features) ← rows[state.idx]?
  let frame ← SlabWire.blastDataset host (state.idx + 1) label features
  if Legal arith periodNs state tick then
    let sends := blaster.sock && tick.accepted
    some
      ({ idx := state.idx + 1
         nextTxTime := if periodNs > 0 then state.nextTxTime + periodNs else state.nextTxTime
         clock := tick.sent
         sentAt := if sends then state.sentAt ++ [tick.sent] else state.sentAt },
        if sends then some frame else none)
  else none

def blastMachine (arith : Doubles) (host : Endian) (blaster : SlabSocketBlaster) (rows : List Row) (periodNs : Int) :
    Machine State Tick (Option (List Byte)) :=
  ⟨step arith host blaster rows periodNs⟩

/-- At most one frame more than the rate allows since `nextTxTime` was first read. -/
def RateKept (rateLimitEps nextTxTime : Int) (state : State) : Prop :=
  ∀ t : Nat, (reached (nextTxTime + t) state.sentAt : ℚ) ≤ 1 + t * rateLimitEps / 10 ^ 9

def RateRespected (arith : Doubles) (rateLimitEps : Int) (numSamples : Nat) : Prop :=
  ∀ host sock rows period nextTxTime trace final, rows.length = numSamples →
    periodNs arith ⟨rateLimitEps, sock⟩ = some period →
    Run (blastMachine arith host ⟨rateLimitEps, sock⟩ rows period) (start nextTxTime) trace final →
    RateKept rateLimitEps nextTxTime final

/-! ## The period -/

theorem periodNs_eq (arith : Doubles) {rateLimitEps : Int} (sock : Bool) (positive : 1 ≤ rateLimitEps) :
    periodNs arith ⟨rateLimitEps, sock⟩ =
      if rateLimitEps < overflowLimit then some (10 ^ 9 / rateLimitEps) else none := by
  have above : 0 < rateLimitEps := positive
  have quotient : truncate (arith.div (arith.round (10 ^ 9 : Int)) (arith.round rateLimitEps)) = 10 ^ 9 / rateLimitEps :=
    truncate_div arith (by decide) (by decide) above
  unfold periodNs Doubles.ofInteger
  rw [if_pos above, abs_of_pos above]
  split
  next fits => rw [Option.map_some, quotient]
  next overflows => rfl

/-! ## What a round leaves behind -/

theorem step_cases {arith : Doubles} {host : Endian} {blaster : SlabSocketBlaster} {rows : List Row} {period : Int}
    {state next : State} {tick : Tick} {obs : Option (List Byte)}
    (taken : step arith host blaster rows period state tick = some (next, obs)) :
    state.idx < rows.length ∧ Legal arith period state tick ∧ next.idx = state.idx + 1 ∧
      next.nextTxTime = (if period > 0 then state.nextTxTime + period else state.nextTxTime) ∧
      next.clock = tick.sent ∧
      (next.sentAt = state.sentAt ∨ next.sentAt = state.sentAt ++ [tick.sent]) := by
  simp only [step, Option.bind_eq_bind, Option.bind_eq_some_iff, Prod.exists] at taken
  obtain ⟨label, features, row, frame, packed, taken⟩ := taken
  split at taken
  next legal =>
    cases taken
    refine ⟨(List.getElem?_eq_some_iff.mp row).1, legal, rfl, rfl, rfl, ?_⟩
    dsimp only
    split
    next => exact .inr rfl
    next => exact .inl rfl
  next illegal => contradiction

/-! ## A period without remainder -/

structure OnTime (nextTxTime period : Int) (state : State) : Prop where
  due : state.nextTxTime = nextTxTime + state.idx * period
  ahead : state.nextTxTime ≤ state.clock + period
  few : state.sentAt.length ≤ state.idx
  paced : Paced nextTxTime period state.sentAt

theorem onTime_start (nextTxTime : Int) {period : Int} (positive : 0 < period) :
    OnTime nextTxTime period (start nextTxTime) where
  due := by simp [start]
  ahead := by
    change nextTxTime ≤ nextTxTime + period
    omega
  few := le_rfl
  paced := Paced.nil

theorem due_le_sent {arith : Doubles} {period : Int} {state : State} {tick : Tick} (positive : 0 < period)
    (short : period ≤ 10 ^ 9) (ahead : state.nextTxTime ≤ state.clock + period) (legal : Legal arith period state tick) :
    state.nextTxTime ≤ tick.sent := by
  unfold Legal at legal
  rw [if_pos positive] at legal
  obtain ⟨forward, awake⟩ := legal
  split at awake
  next early =>
    obtain ⟨slept, sent⟩ := awake
    have near : ((state.nextTxTime - tick.now : Int) : ℚ) - 1 <
        sleepSeconds arith (state.nextTxTime - tick.now) * (10 ^ 9 : Int) :=
      lt_div_mul arith (by omega) (by omega) (by decide) (by decide)
    have late : ((state.nextTxTime - 1 : Int) : ℚ) < tick.wake := by
      push_cast at near slept ⊢
      linarith
    have whole : state.nextTxTime - 1 < tick.wake := by exact_mod_cast late
    omega
  next due => omega

theorem onTime_step {arith : Doubles} {host : Endian} {blaster : SlabSocketBlaster} {rows : List Row}
    {nextTxTime period : Int} {state next : State} {tick : Tick} {obs : Option (List Byte)} (positive : 0 < period)
    (short : period ≤ 10 ^ 9) (before : OnTime nextTxTime period state)
    (taken : step arith host blaster rows period state tick = some (next, obs)) : OnTime nextTxTime period next := by
  obtain ⟨_, legal, idx, due, clock, sends⟩ := step_cases taken
  rw [if_pos positive] at due
  have sent := due_le_sent positive short before.ahead legal
  constructor
  · rw [due, before.due, idx]
    push_cast
    ring
  · rw [due, clock]
    omega
  · rw [idx]
    rcases sends with same | more
    · rw [same]
      exact before.few.trans (Nat.le_succ _)
    · rw [more, List.length_append, List.length_singleton]
      exact Nat.succ_le_succ before.few
  · rcases sends with same | more
    · rw [same]
      exact before.paced
    · rw [more]
      apply before.paced.append
      have places : (state.sentAt.length : Int) * period ≤ state.idx * period := by
        apply Int.mul_le_mul_of_nonneg_right _ positive.le
        exact_mod_cast before.few
      have due_now := before.due
      omega

theorem rateKept_of_onTime {rateLimitEps nextTxTime period : Int} {state : State} (whole : period * rateLimitEps = 10 ^ 9)
    (positive : 0 < period) (rate : 1 ≤ rateLimitEps) (onTime : OnTime nextTxTime period state) :
    RateKept rateLimitEps nextTxTime state := by
  intro t
  have rate_nonneg : (0 : ℚ) ≤ rateLimitEps := by exact_mod_cast Int.le_of_lt rate
  rcases Nat.eq_zero_or_pos (reached (nextTxTime + t) state.sentAt) with none | some_reached
  · rw [none, Nat.cast_zero]
    positivity
  · have place := onTime.paced.reached_le positive.le some_reached
    set count := reached (nextTxTime + t) state.sentAt
    have periods : (((count : Int) - 1) * period : Int) ≤ t := by omega
    have frames : ((count : Int) - 1) * 10 ^ 9 ≤ t * rateLimitEps := by
      calc ((count : Int) - 1) * 10 ^ 9 = ((count : Int) - 1) * period * rateLimitEps := by rw [← whole]; ring
        _ ≤ t * rateLimitEps := Int.mul_le_mul_of_nonneg_right periods (Int.le_of_lt rate)
    have scaled : ((count : ℚ) - 1) * 10 ^ 9 ≤ t * rateLimitEps := by exact_mod_cast frames
    have bounded : (count : ℚ) - 1 ≤ t * rateLimitEps / 10 ^ 9 := (le_div_iff₀ (by positivity)).mpr scaled
    linarith

theorem rateRespected_of_dvd (arith : Doubles) {rateLimitEps : Int} (positive : 1 ≤ rateLimitEps)
    (divides : rateLimitEps ∣ 10 ^ 9) (numSamples : Nat) : RateRespected arith rateLimitEps numSamples := by
  intro host sock rows period nextTxTime trace final _ computed run
  rw [periodNs_eq arith sock positive] at computed
  split at computed
  next fits =>
    obtain rfl := Option.some.inj computed
    have whole : 10 ^ 9 / rateLimitEps * rateLimitEps = 10 ^ 9 := Int.ediv_mul_cancel divides
    have some_period : 0 < 10 ^ 9 / rateLimitEps :=
      Int.ediv_pos_of_pos_of_dvd (by decide) (Int.le_of_lt positive) divides
    have short : 10 ^ 9 / rateLimitEps ≤ 10 ^ 9 := Int.ediv_le_self _ (by decide)
    apply rateKept_of_onTime whole some_period positive
    apply run.invariant (OnTime nextTxTime (10 ^ 9 / rateLimitEps)) _ (onTime_start nextTxTime some_period)
    intro state tick obs next before taken
    exact onTime_step some_period short before taken
  next overflows => cases computed

theorem rateRespected_of_le_one (arith : Doubles) {rateLimitEps : Int} (positive : 1 ≤ rateLimitEps) {numSamples : Nat}
    (few : numSamples ≤ 1) : RateRespected arith rateLimitEps numSamples := by
  intro host sock rows period nextTxTime trace final length_eq _ run t
  have sent : final.sentAt.length ≤ final.idx ∧ final.idx ≤ rows.length := by
    apply run.invariant (fun state => state.sentAt.length ≤ state.idx ∧ state.idx ≤ rows.length) _
      ⟨le_rfl, Nat.zero_le _⟩
    intro state tick obs next before taken
    obtain ⟨inside, _, idx, _, _, sends⟩ := step_cases taken
    rw [idx]
    rcases sends with same | more
    · rw [same]
      omega
    · rw [more, List.length_append, List.length_singleton]
      omega
  have one : reached (nextTxTime + t) final.sentAt ≤ 1 := by
    calc reached (nextTxTime + t) final.sentAt ≤ final.sentAt.length := List.countP_le_length
      _ ≤ 1 := by omega
  have rate_nonneg : (0 : ℚ) ≤ rateLimitEps := by exact_mod_cast Int.le_of_lt positive
  have allowed : (0 : ℚ) ≤ t * rateLimitEps / 10 ^ 9 := by positivity
  have counted : (reached (nextTxTime + t) final.sentAt : ℚ) ≤ 1 := by exact_mod_cast one
  linarith

/-! ## A period with remainder -/

theorem step_due (arith : Doubles) {rateLimitEps period : Int} {more : Nat} {state : State} {frame : List Byte}
    {instant : Int} (inside : state.idx < more) (due : state.nextTxTime ≤ instant) (after : state.clock ≤ instant)
    (packed : SlabWire.blastDataset .little (state.idx + 1) 0 [] = some frame) :
    step arith .little ⟨rateLimitEps, true⟩ (List.replicate more (0, [])) period state ⟨instant, instant, instant, true⟩ =
      some
        (⟨state.idx + 1, if period > 0 then state.nextTxTime + period else state.nextTxTime, instant,
          state.sentAt ++ [instant]⟩, some frame) := by
  have row : (List.replicate more ((0, []) : Row))[state.idx]? = some (0, []) := List.getElem?_replicate_of_lt inside
  have legal : Legal arith period state ⟨instant, instant, instant, true⟩ := by
    unfold Legal
    rw [if_neg (not_lt.mpr due)]
    split
    next => exact ⟨after, le_rfl⟩
    next => exact after
  unfold step
  rw [row]
  simp only [Option.bind_eq_bind, Option.bind_some, packed]
  rw [if_pos legal]
  rfl

theorem two_frames (arith : Doubles) {period : Int} (nonneg : 0 ≤ period) (rateLimitEps : Int) (more : Nat) :
    ∃ trace final,
      Run (blastMachine arith .little ⟨rateLimitEps, true⟩ (List.replicate (more + 2) (0, [])) period) (start 0) trace
        final ∧ final.sentAt = [0, period] := by
  obtain ⟨frame, packed⟩ : ∃ frame, SlabWire.blastDataset .little 1 0 [] = some frame := ⟨_, rfl⟩
  obtain ⟨frame', packed'⟩ : ∃ frame, SlabWire.blastDataset .little 2 0 [] = some frame := ⟨_, rfl⟩
  have first := @step_due arith rateLimitEps period (more + 2) (start 0) frame 0 (Nat.succ_pos _) le_rfl le_rfl packed
  refine ⟨_, _, (Run.single first).trans (Run.single (step_due arith (Nat.succ_lt_succ (Nat.succ_pos _)) ?_ nonneg packed')), rfl⟩
  change (if period > 0 then 0 + period else 0) ≤ period
  split
  next => omega
  next => exact nonneg

theorem not_respected (arith : Doubles) {rateLimitEps : Int} (positive : 1 ≤ rateLimitEps) (fits : rateLimitEps < overflowLimit)
    (remainder : ¬rateLimitEps ∣ 10 ^ 9) (more : Nat) : ¬RateRespected arith rateLimitEps (more + 2) := by
  intro respected
  have period_nonneg : 0 ≤ 10 ^ 9 / rateLimitEps := Int.ediv_nonneg (by decide) (Int.le_of_lt positive)
  obtain ⟨period, quotient⟩ : ∃ period : Nat, (period : Int) = 10 ^ 9 / rateLimitEps :=
    ⟨(10 ^ 9 / rateLimitEps).toNat, Int.toNat_of_nonneg period_nonneg⟩
  rw [← quotient] at period_nonneg
  obtain ⟨trace, final, run, sent⟩ := two_frames arith period_nonneg rateLimitEps more
  have computed : periodNs arith ⟨rateLimitEps, true⟩ = some (period : Int) := by
    rw [periodNs_eq arith true positive, if_pos fits, quotient]
  have kept := respected .little true (List.replicate (more + 2) (0, [])) period 0 trace final
    List.length_replicate computed run period
  have both : reached (0 + (period : Int)) final.sentAt = 2 := by
    rw [sent, reached, Int.zero_add]
    simp
  have short : (period : Int) * rateLimitEps < 10 ^ 9 := by
    rw [quotient]
    apply lt_of_le_of_ne (Int.ediv_mul_le _ (by omega))
    intro same
    exact remainder (Dvd.intro_left _ same)
  have below : (period : ℚ) * rateLimitEps / 10 ^ 9 < 1 := by
    rw [div_lt_one (by positivity)]
    exact_mod_cast short
  rw [both] at kept
  push_cast at kept
  linarith

/-- The rate is kept exactly where it divides the nanoseconds of a second, where there is no second frame, or
where it is so large that the period is an `OverflowError`. -/
theorem rate_respected_iff (arith : Doubles) (rateLimitEps : Int) (positive : 1 ≤ rateLimitEps) (numSamples : Nat) :
    RateRespected arith rateLimitEps numSamples ↔
      rateLimitEps ∣ 10 ^ 9 ∨ numSamples ≤ 1 ∨ overflowLimit ≤ rateLimitEps := by
  constructor
  · intro respected
    by_contra none
    rw [not_or, not_or, not_le, not_le] at none
    obtain ⟨remainder, several, fits⟩ := none
    obtain ⟨more, rfl⟩ := Nat.exists_eq_add_of_le' several
    exact not_respected arith positive fits remainder more respected
  · rintro (divides | few | large)
    · exact rateRespected_of_dvd arith positive divides numSamples
    · exact rateRespected_of_le_one arith positive few
    · intro host sock rows period nextTxTime trace final _ computed
      rw [periodNs_eq arith sock positive, if_neg (not_lt.mpr large)] at computed
      cases computed

theorem rate_respected_thousand : RateRespected binary64 1000 1000 :=
  (rate_respected_iff binary64 1000 (by decide) 1000).mpr (.inl (by decide))

/-- The default rate: 60000 periods of 16666 nanoseconds are less than a second. -/
theorem rate_exceeded_default : ¬RateRespected binary64 60000 1000 :=
  not_respected binary64 (by decide) (lt_overflowLimit (by decide)) (by decide) 998

end SentinelLab.BlastPacing
