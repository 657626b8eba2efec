import SentinelLab.DaemonTelemetry
import SentinelLab.Library.JsonReader
import SentinelLab.Library.DecimalLiteral

/-! The answers of `ResearchRESTServer` as text, and what `query_results` of the evaluation script
reads from them. A stream writes six significant digits of a double. -/

namespace SentinelLab.RestApi
open Benchmark Library.Csv Library.DecimalText Library.NumberText Library.Json

/-! ## The server -/

def responseHead : String :=
  "HTTP/1.1 200 OK\r\nAccess-Control-Allow-Origin: *\r\nContent-Type: application/json\r\n\r\n"

def responseBody (m : BenchmarkMetrics) (blockedIpsCount : Nat) : List Char :=
  "\x7b\"total_events\":".toList ++ integer m.totalEvents ++
    ",\"throughput_eps\":".toList ++ general 6 m.throughputEps ++
    ",\"mean_latency_us\":".toList ++ general 6 m.latencyMeanUs ++
    ",\"p95_latency_us\":".toList ++ general 6 m.latencyP95Us ++
    ",\"p99_latency_us\":".toList ++ general 6 m.latencyP99Us ++
    ",\"blocked_ips_count\":".toList ++ integer blockedIpsCount ++ "\x7d".toList

def response (m : BenchmarkMetrics) (blockedIpsCount : Nat) : List Char :=
  responseHead.toList ++ responseBody m blockedIpsCount

/-! ## The client -/

/-- What `requests.get` hands on of an answer. -/
structure Answer where
  statusCode : Nat
  text : List Char

/-- An answer without a length is read up to the end of the connection. -/
def ReadsAnswers (get : List Char → Option Answer) : Prop :=
  ∀ body, get (responseHead.toList ++ body) = some ⟨200, body⟩

def codes (name : String) : List Nat := name.toList.map Char.toNat

def figure : Value → Option ℚ
  | .number literal => some literal.value
  | .bool truth => some (if truth then 1 else 0)
  | _ => none

structure Results where
  totalEvents : Option Value
  throughputEps : ℚ
  meanLatencyUs : ℚ
  p95LatencyUs : ℚ
  p99LatencyUs : ℚ
  blockedIpsCount : Option Value

/-- `data.get(name, 0)`, formatted. -/
def getFigure (data : Value) (name : String) : Option ℚ :=
  match data.member (codes name) with
  | none => some 0
  | some value => figure value

def printed (data : Value) : Option Results := do
  let throughputEps ← getFigure data "throughput_eps"
  let meanLatencyUs ← getFigure data "mean_latency_us"
  let p95LatencyUs ← getFigure data "p95_latency_us"
  let p99LatencyUs ← getFigure data "p99_latency_us"
  return {
    totalEvents := data.member (codes "total_events")
    throughputEps, meanLatencyUs, p95LatencyUs, p99LatencyUs
    blockedIpsCount := data.member (codes "blocked_ips_count") }

/-- `query_results`, with `get` for the part of `requests.get` behind the connection; `none` if
nothing is printed, or the query is caught as failed. -/
def queryResults (get : List Char → Option Answer) (sent : List Char) : Option Results := do
  let resp ← get sent
  if resp.statusCode = 200 then
    let data ← read resp.text
    match data with
    | .object _ => printed data
    | _ => none
  else none

/-! ## What is read back -/

theorem layout_flatten (tokens : List Token) : Layout tokens tokens.flatten := by
  have layout : Layout ((tokens.map fun token => (([] : List Char), token)).map Prod.snd)
      (layOut (tokens.map fun token => ([], token)) []) := layout_layOut (by simp [blank_nil]) blank_nil
  rw [List.map_map] at layout
  have text : layOut (tokens.map fun token => ([], token)) [] = tokens.flatten := by
    simp [layOut, List.flatMap_map, List.flatMap_id']
  rw [text] at layout
  simpa using layout

theorem integer_literal (n : Nat) : ∃ literal : Literal, literal.text = integer n ∧ literal.value = n := by
  have text : integer n = digitText (numeralDigits n) := by
    rw [← toDigits_eq]
    exact String.toList_ofList
  by_cases zero : n = 0
  · subst zero
    refine ⟨formed_zero.literal false none, rfl, ?_⟩
    rw [zero_value, Nat.cast_zero]
  · obtain ⟨digit, others, front, nonzero⟩ := head_numeralDigits (Nat.pos_of_ne_zero zero)
    have some_digit : numeralDigits n ≠ [] := by simp [front]
    have leading : (numeralDigits n).head? = some 0 → (numeralDigits n).length = 1 := by simp [front, nonzero]
    have formed := formed_fractionOf [] some_digit leading
    use formed.literal false none
    constructor
    · rw [Literal.text, if_neg (by simp [Formed.literal]), literal_unsignedText, text]
      simp [digitText, decimals]
    · rw [Literal.value, if_neg (by simp [Formed.literal]), literal_magnitude, List.append_nil, value_numeralDigits]
      simp [Literal.exponentValue, Formed.literal]

def entry (name : String) (unescaped : unescape name.toList = some (codes name)) (literal : Literal) :
    JsonString × Value :=
  (⟨name.toList, codes name, unescaped⟩, .number literal)

structure Figures where
  totalEvents : Literal
  throughputEps : Literal
  meanLatencyUs : Literal
  p95LatencyUs : Literal
  p99LatencyUs : Literal
  blockedIpsCount : Literal

def Figures.data (figures : Figures) : Value :=
  .object [entry "total_events" rfl figures.totalEvents, entry "throughput_eps" rfl figures.throughputEps,
    entry "mean_latency_us" rfl figures.meanLatencyUs, entry "p95_latency_us" rfl figures.p95LatencyUs,
    entry "p99_latency_us" rfl figures.p99LatencyUs, entry "blocked_ips_count" rfl figures.blockedIpsCount]

structure Figures.Write (figures : Figures) (m : BenchmarkMetrics) (blockedIpsCount : Nat) : Prop where
  totalEvents : figures.totalEvents.text = integer m.totalEvents
  throughputEps : figures.throughputEps.text = general 6 m.throughputEps
  meanLatencyUs : figures.meanLatencyUs.text = general 6 m.latencyMeanUs
  p95LatencyUs : figures.p95LatencyUs.text = general 6 m.latencyP95Us
  p99LatencyUs : figures.p99LatencyUs.text = general 6 m.latencyP99Us
  blockedIpsCount : figures.blockedIpsCount.text = integer blockedIpsCount

theorem Figures.Write.body {figures : Figures} {m : BenchmarkMetrics} {blockedIpsCount : Nat}
    (write : figures.Write m blockedIpsCount) : figures.data.tokens.flatten = responseBody m blockedIpsCount := by
  obtain ⟨totalEvents, throughputEps, meanLatencyUs, p95LatencyUs, p99LatencyUs, blocked⟩ := write
  unfold responseBody
  rw [← totalEvents, ← throughputEps, ← meanLatencyUs, ← p95LatencyUs, ← p99LatencyUs, ← blocked]
  simp [Figures.data, entry, Value.tokens, memberTokens, commaSeparated, JsonString.text]

variable {get : List Char → Option Answer}

theorem queryResults_response (reads : ReadsAnswers get) {figures : Figures} {m : BenchmarkMetrics}
    {blockedIpsCount : Nat} (write : figures.Write m blockedIpsCount) :
    queryResults get (response m blockedIpsCount) = some {
      totalEvents := some (.number figures.totalEvents)
      throughputEps := figures.throughputEps.value
      meanLatencyUs := figures.meanLatencyUs.value
      p95LatencyUs := figures.p95LatencyUs.value
      p99LatencyUs := figures.p99LatencyUs.value
      blockedIpsCount := some (.number figures.blockedIpsCount) } := by
  have layout := layout_flatten figures.data.tokens
  rw [write.body] at layout
  have found := read_eq_some_iff.mpr layout
  unfold queryResults
  rw [response, reads, Option.bind_eq_bind, Option.bind_some]
  dsimp only
  rw [if_pos rfl, found]
  rfl

/-! ## The figures of a run -/

/-- Off by half a unit of the sixth digit at most. -/
def Near (shown exact : ℚ) : Prop := |shown - exact| ≤ 5 / 10 ^ 6 * |exact|

theorem near_general (number : ℚ) : Near (roundSignificant 6 number) number := by
  have unit : (1 / 2 * (10 : ℚ) ^ (1 - ((6 : Nat) : Int))) = 5 / 10 ^ 6 := by norm_num
  have six : 0 < 6 := by decide
  have error := roundSignificant_error six number
  rw [unit] at error
  exact error

/-- The counts are printed exactly, the other figures to six digits. -/
structure Tells (results : Results) (m : BenchmarkMetrics) (blockedIpsCount : Nat) : Prop where
  totalEvents : results.totalEvents.bind figure = some (m.totalEvents : ℚ)
  throughputEps : results.throughputEps = roundSignificant 6 m.throughputEps
  meanLatencyUs : Near results.meanLatencyUs m.latencyMeanUs
  p95LatencyUs : Near results.p95LatencyUs m.latencyP95Us
  p99LatencyUs : Near results.p99LatencyUs m.latencyP99Us
  blockedIpsCount : results.blockedIpsCount.bind figure = some (blockedIpsCount : ℚ)

theorem queryResults_tells (reads : ReadsAnswers get) (m : BenchmarkMetrics) (blockedIpsCount : Nat) :
    ∃ results, queryResults get (response m blockedIpsCount) = some results ∧ Tells results m blockedIpsCount := by
  have six : 0 < 6 := by decide
  obtain ⟨totalEvents, total_text, total_value⟩ := integer_literal m.totalEvents
  obtain ⟨throughputEps, throughput_text, throughput_value⟩ := general_literal six m.throughputEps
  obtain ⟨meanLatencyUs, mean_text, mean_value⟩ := general_literal six m.latencyMeanUs
  obtain ⟨p95LatencyUs, p95_text, p95_value⟩ := general_literal six m.latencyP95Us
  obtain ⟨p99LatencyUs, p99_text, p99_value⟩ := general_literal six m.latencyP99Us
  obtain ⟨blocked, blocked_text, blocked_value⟩ := integer_literal blockedIpsCount
  have write : Figures.Write ⟨totalEvents, throughputEps, meanLatencyUs, p95LatencyUs, p99LatencyUs, blocked⟩ m
      blockedIpsCount := ⟨total_text, throughput_text, mean_text, p95_text, p99_text, blocked_text⟩
  refine ⟨_, queryResults_response reads write, ?_⟩
  constructor
  · exact congrArg some total_value
  · exact throughput_value
  · dsimp only
    rw [mean_value]
    exact near_general _
  · dsimp only
    rw [p95_value]
    exact near_general _
  · dsimp only
    rw [p99_value]
    exact near_general _
  · exact congrArg some blocked_value

theorem computeMetrics_throughput (benchmarker : Benchmarker) :
    (computeMetrics benchmarker 1).throughputEps = (computeMetrics benchmarker 1).totalEvents := by
  unfold computeMetrics
  dsimp only
  split
  next empty => rw [empty]; rfl
  next some =>
    obtain ⟨truePositives, falsePositives, trueNegatives, falseNegatives, counted⟩ := foldl_tally_fields
      benchmarker.recordedEvents (latencies
        { totalEvents := benchmarker.latenciesUs.length
          throughputEps := if 0 < (1 : ℚ) then benchmarker.latenciesUs.length / 1 else 0 }
        (benchmarker.latenciesUs.mergeSort fun first second => first ≤ second))
    rw [counted]
    unfold ratios
    dsimp only
    split <;> simp [latencies]

theorem logged_totalEvents (events : List BenchmarkEvent) :
    (computeMetrics (Daemon.logged events) 1).totalEvents = events.length := by
  rw [Daemon.computeMetrics_totalEvents, Daemon.logged_eq, List.length_map]

/-- What the answer to one client says about the events that were accepted before. -/
def DescribesLog (accepted : List BenchmarkEvent) (results : Results) : Prop :=
  ∃ events : List BenchmarkEvent, events.map Daemon.untouched <+: accepted.map Daemon.untouched ∧
    results.totalEvents.bind figure = some (events.length : ℚ) ∧
    Near results.throughputEps events.length ∧
    (events.length < 10 ^ 6 → results.throughputEps = events.length) ∧
    Near results.meanLatencyUs (computeMetrics (Daemon.logged events) 1).latencyMeanUs ∧
    Near results.p95LatencyUs (computeMetrics (Daemon.logged events) 1).latencyP95Us ∧
    Near results.p99LatencyUs (computeMetrics (Daemon.logged events) 1).latencyP99Us

theorem Tells.describes {results : Results} {m : BenchmarkMetrics} {blockedIpsCount : Nat}
    {accepted : List BenchmarkEvent} (tells : Tells results m blockedIpsCount)
    (described : Daemon.DescribesPrefix accepted m 1) : DescribesLog accepted results := by
  obtain ⟨events, initially, rfl⟩ := described
  have throughput := tells.throughputEps
  rw [computeMetrics_throughput, logged_totalEvents] at throughput
  refine ⟨events, initially, ?_, ?_, ?_, tells.meanLatencyUs, tells.p95LatencyUs, tells.p99LatencyUs⟩
  · rw [tells.totalEvents, logged_totalEvents]
  · rw [throughput]
    exact near_general _
  · intro small
    rw [throughput]
    exact roundSignificant_natCast small

/-- Neither count is smaller in the later answer. -/
def CountsOn (earlier later : Results) : Prop :=
  ∃ total blocked total' blocked' : Nat,
    earlier.totalEvents.bind figure = some (total : ℚ) ∧ earlier.blockedIpsCount.bind figure = some (blocked : ℚ) ∧
    later.totalEvents.bind figure = some (total' : ℚ) ∧ later.blockedIpsCount.bind figure = some (blocked' : ℚ) ∧
    total ≤ total' ∧ blocked ≤ blocked'

theorem read_responses (reads : ReadsAnswers get) {told : List (BenchmarkMetrics × Nat)} {accepted : List BenchmarkEvent}
    (ordered : told.Pairwise fun earlier later => Daemon.CountsUp earlier.1 later.1 ∧ earlier.2 ≤ later.2)
    (described : ∀ entry ∈ told, Daemon.DescribesPrefix accepted entry.1 1) :
    ∃ answers : List Results, (told.map fun entry => queryResults get (response entry.1 entry.2)) = answers.map some ∧
      (answers.map fun answer => answer.blockedIpsCount.bind figure) = (told.map fun entry => some (entry.2 : ℚ)) ∧
      answers.Pairwise CountsOn ∧ (∀ answer ∈ answers, DescribesLog accepted answer) ∧
      ∀ answer ∈ answers, ∃ entry ∈ told, Tells answer entry.1 entry.2 := by
  induction told with
  | nil => exact ⟨[], rfl, rfl, List.Pairwise.nil, by simp, by simp⟩
  | cons entry told ih =>
    obtain ⟨first, others⟩ := List.pairwise_cons.mp ordered
    obtain ⟨answers, read, blocked, counts, describe, tell⟩ :=
      ih others fun other member => described other (List.mem_cons_of_mem _ member)
    obtain ⟨results, found, tells⟩ := queryResults_tells reads entry.1 entry.2
    refine ⟨results :: answers, ?_, ?_, ?_, ?_, ?_⟩
    · rw [List.map_cons, List.map_cons, found, read]
    · rw [List.map_cons, List.map_cons, tells.blockedIpsCount, blocked]
    · rw [List.pairwise_cons]
      refine ⟨?_, counts⟩
      intro answer member
      obtain ⟨later, inside, tells'⟩ := tell answer member
      obtain ⟨up, no_fewer⟩ := first later inside
      exact ⟨_, _, _, _, tells.totalEvents, tells.blockedIpsCount, tells'.totalEvents, tells'.blockedIpsCount,
        up.total, no_fewer⟩
    · intro answer member
      rcases List.mem_cons.mp member with rfl | member
      · exact tells.describes (described entry List.mem_cons_self)
      · exact describe answer member
    · intro answer member
      rcases List.mem_cons.mp member with rfl | member
      · exact ⟨entry, List.mem_cons_self, tells⟩
      · obtain ⟨later, inside, tells'⟩ := tell answer member
        exact ⟨later, List.mem_cons_of_mem _ inside, tells'⟩

def splitHead : List Char → Option (List Char × List Char)
  | [] => none
  | c :: rest =>
      if ['\r', '\n', '\r', '\n'].isPrefixOf (c :: rest) then some ([], rest.drop 3)
      else (splitHead rest).map fun parts => (c :: parts.1, parts.2)

def statusDigits (head : List Char) : List Char :=
  ((head.takeWhile (· ≠ '\r')).splitOn ' ').getD 1 []

def readToEnd (sent : List Char) : Option Answer :=
  (splitHead sent).map fun (head, text) =>
    ⟨(statusDigits head).foldl (fun code digit => 10 * code + (digit.toNat - '0'.toNat)) 0, text⟩

theorem readToEnd_reads : ReadsAnswers readToEnd := by
  intro body
  rfl

end SentinelLab.RestApi
