import SentinelLab.Library.Json
import SentinelLab.Library.Lines

/-! The configuration loaders of `DriftProfiler`, `HilCoupler` and `PmuProfiler`: a search through
the lines of a JSON profile, and what it finds in each layout of the profile. -/

namespace SentinelLab.ProfileLoading

open Library.NumberText Library.Json Library.Lines

variable {D : Type}

/-! ## The loaders -/

/-- The fields of `DriftConfig`, `HilConfig` and `PmuConfig` that are loaded. -/
structure Config (D : Type) where
  bwtMinThreshold : D
  maxSafeTempC : D
  ipcThreshold : D
  llcMissThreshold : D

def bwtKey : List Char := "bwt_min_threshold".toList

def temperatureKey : List Char := "max_safe_temperature_c".toList

def ipcKey : List Char := "ipc_alert_threshold".toList

def llcKey : List Char := "llc_miss_rate_alert_threshold".toList

/-- `line.find(key) != std::string::npos` -/
def mentions (key line : List Char) : Bool := decide (key <:+: line)

/-- `std::stod` of what follows the first colon; `none` without a colon, and for an exception. -/
def behindColon (platform : Platform D) (line : List Char) : Option D :=
  match line.dropWhile (· != ':') with
  | _ :: rest => stod platform rest
  | [] => none

/-- Assigned unless there is no colon or the conversion throws. -/
def assigned (platform : Platform D) (line : List Char) (current : D) : D :=
  (behindColon platform line).getD current

/-- A file that cannot be opened leaves the configuration. -/
def loadLines (scanLine : Config D → List Char → Config D) (file : Option (List Char)) (config : Config D) : Config D :=
  match file with
  | some text => (getlines text).foldl scanLine config
  | none => config

def DriftProfiler.scanLine (platform : Platform D) (config : Config D) (line : List Char) : Config D :=
  if mentions bwtKey line then { config with bwtMinThreshold := assigned platform line config.bwtMinThreshold }
  else config

def DriftProfiler.loadConfig (platform : Platform D) (file : Option (List Char)) (config : Config D) : Config D :=
  loadLines (DriftProfiler.scanLine platform) file config

def HilCoupler.scanLine (platform : Platform D) (config : Config D) (line : List Char) : Config D :=
  if mentions temperatureKey line then { config with maxSafeTempC := assigned platform line config.maxSafeTempC }
  else config

def HilCoupler.loadConfig (platform : Platform D) (file : Option (List Char)) (config : Config D) : Config D :=
  loadLines (HilCoupler.scanLine platform) file config

/-- A line with both keys counts for the first only. -/
def PmuProfiler.scanLine (platform : Platform D) (config : Config D) (line : List Char) : Config D :=
  if mentions ipcKey line then { config with ipcThreshold := assigned platform line config.ipcThreshold }
  else if mentions llcKey line then { config with llcMissThreshold := assigned platform line config.llcMissThreshold }
  else config

def PmuProfiler.loadConfig (platform : Platform D) (file : Option (List Char)) (config : Config D) : Config D :=
  loadLines (PmuProfiler.scanLine platform) file config

/-! ## One threshold -/

inductive Threshold where
  | bwtMin
  | maxSafeTemperature
  | ipcAlert
  | llcMissRateAlert
  deriving DecidableEq

namespace Threshold

def key : Threshold → List Char
  | bwtMin => bwtKey
  | maxSafeTemperature => temperatureKey
  | ipcAlert => ipcKey
  | llcMissRateAlert => llcKey

def sectionName : Threshold → List Char
  | bwtMin => "drift_profile".toList
  | maxSafeTemperature => "hil_profile".toList
  | ipcAlert | llcMissRateAlert => "pmu_profile".toList

def of (config : Config D) : Threshold → D
  | bwtMin => config.bwtMinThreshold
  | maxSafeTemperature => config.maxSafeTempC
  | ipcAlert => config.ipcThreshold
  | llcMissRateAlert => config.llcMissThreshold

def scanLine (platform : Platform D) : Threshold → Config D → List Char → Config D
  | bwtMin => DriftProfiler.scanLine platform
  | maxSafeTemperature => HilCoupler.scanLine platform
  | ipcAlert | llcMissRateAlert => PmuProfiler.scanLine platform

def loadConfig (platform : Platform D) (file : Option (List Char)) (config : Config D) : Threshold → Config D
  | bwtMin => DriftProfiler.loadConfig platform file config
  | maxSafeTemperature => HilCoupler.loadConfig platform file config
  | ipcAlert | llcMissRateAlert => PmuProfiler.loadConfig platform file config

/-- The key stands on the line, and no key that its loader looks for before. -/
def Heeds (threshold : Threshold) (line : List Char) : Prop :=
  threshold.key <:+: line ∧ (threshold = llcMissRateAlert → ¬ipcKey <:+: line)

instance (threshold : Threshold) (line : List Char) : Decidable (threshold.Heeds line) :=
  inferInstanceAs (Decidable (_ ∧ _))

def reading (threshold : Threshold) (platform : Platform D) (line : List Char) : Option D :=
  if threshold.Heeds line then behindColon platform line else none

theorem loadConfig_eq (threshold : Threshold) (platform : Platform D) (text : List Char) (config : Config D) :
    threshold.loadConfig platform (some text) config = (getlines text).foldl (threshold.scanLine platform) config := by
  cases threshold <;> rfl

theorem mentions_iff {key line : List Char} : mentions key line = true ↔ key <:+: line := decide_eq_true_iff

theorem of_scanLine (threshold : Threshold) (platform : Platform D) (config : Config D) (line : List Char) :
    threshold.of (threshold.scanLine platform config line) =
      (threshold.reading platform line).getD (threshold.of config) := by
  have heeds_iff : threshold.Heeds line ↔
      mentions threshold.key line = true ∧ (threshold = llcMissRateAlert → ¬mentions ipcKey line = true) := by
    rw [mentions_iff, mentions_iff]
    rfl
  unfold reading
  cases threshold with
  | bwtMin =>
    simp only [heeds_iff, reduceCtorEq, false_implies, and_true, key, scanLine, DriftProfiler.scanLine]
    split <;> rfl
  | maxSafeTemperature =>
    simp only [heeds_iff, reduceCtorEq, false_implies, and_true, key, scanLine, HilCoupler.scanLine]
    split <;> rfl
  | ipcAlert =>
    simp only [heeds_iff, reduceCtorEq, false_implies, and_true, key, scanLine, PmuProfiler.scanLine]
    split
    · rfl
    · split <;> rfl
  | llcMissRateAlert =>
    simp only [heeds_iff, true_implies, key, scanLine, PmuProfiler.scanLine]
    by_cases shadowed : mentions ipcKey line = true
    · simp only [shadowed, not_true_eq_false, and_false, ↓reduceIte]
      rfl
    · simp only [shadowed, not_false_eq_true, and_true, Bool.false_eq_true, ↓reduceIte]
      split <;> rfl

theorem of_foldl_scanLine (threshold : Threshold) (platform : Platform D) (lines : List (List Char))
    (config : Config D) :
    threshold.of (lines.foldl (threshold.scanLine platform) config) =
      lines.foldl (fun current line => (threshold.reading platform line).getD current) (threshold.of config) := by
  induction lines generalizing config with
  | nil => rfl
  | cons line lines ih =>
    rw [List.foldl_cons, List.foldl_cons, ih, of_scanLine]

end Threshold

/-! ## The last line that is read counts -/

section LastReading

variable {L : Type} {reading : L → Option D} {lines : List L}

theorem foldl_silent (silent : ∀ line ∈ lines, reading line = none) (initial : D) :
    lines.foldl (fun current line => (reading line).getD current) initial = initial := by
  induction lines with
  | nil => rfl
  | cons line lines ih =>
    have first := silent line List.mem_cons_self
    rw [List.foldl_cons, first]
    exact ih fun other member => silent other (List.mem_cons_of_mem _ member)

theorem foldl_last {before after : List L} {line : L} {number : D} (read : reading line = some number)
    (silent : ∀ other ∈ after, reading other = none) (initial : D) :
    (before ++ line :: after).foldl (fun current line => (reading line).getD current) initial = number := by
  rw [List.foldl_append, List.foldl_cons, read]
  exact foldl_silent silent number

theorem last_reading (reading : L → Option D) (lines : List L) :
    (∀ line ∈ lines, reading line = none) ∨
      ∃ before line after number, lines = before ++ line :: after ∧ reading line = some number ∧
        ∀ other ∈ after, reading other = none := by
  induction lines with
  | nil => exact Or.inl fun line member => absurd member List.not_mem_nil
  | cons first lines ih =>
    rcases ih with silent | ⟨before, line, after, number, rfl, read, silent⟩
    · match read : reading first with
      | some number => exact Or.inr ⟨[], first, lines, number, rfl, read, silent⟩
      | none =>
        apply Or.inl
        intro line member
        rcases List.mem_cons.mp member with rfl | later
        · exact read
        · exact silent line later
    · exact Or.inr ⟨first :: before, line, after, number, rfl, read, silent⟩

end LastReading

/-! ## A profile and the place of its number -/

def codes (name : List Char) : List Nat := name.map Char.toNat

/-- A JSON document that assigns a number to the key of a threshold, in one of its layouts. -/
structure Profile (threshold : Threshold) where
  value : Value
  literal : Literal
  setting : value.setting (codes threshold.sectionName) (codes threshold.key) = some literal
  text : List Char
  layout : Layout value.tokens text

namespace Profile

variable {threshold : Threshold} (profile : Profile threshold) (platform : Platform D) (config : Config D)

def loaded : D := threshold.of (threshold.loadConfig platform (some profile.text) config)

/-- The number of the profile on the platform, as `float` of the value from `json.load`. -/
def number : D := platform.nearest profile.literal.value

abbrev Stand : Type := Place profile.value (codes threshold.key) profile.literal profile.text

theorem stands : Nonempty profile.Stand := place_of_setting profile.setting profile.layout

variable {profile}

def Stand.start (place : profile.Stand) : List Char := lineStart (place.lead ++ (place.name.text ++ place.gap))

def Stand.finish (place : profile.Stand) : List Char := lineEnd (place.space ++ (profile.literal.text ++ place.rest))

def Stand.line (place : profile.Stand) : List Char := place.start ++ ':' :: place.finish

def Stand.earlier (place : profile.Stand) : List (List Char) :=
  linesBefore (place.lead ++ (place.name.text ++ place.gap))

def Stand.later (place : profile.Stand) : List (List Char) :=
  linesAfter (place.space ++ (profile.literal.text ++ place.rest))

/-- Name, colon and number where the loader looks for them: on one line that it heeds, with no
colon before, and the number within the range of the platform. -/
structure Stand.Plain (place : profile.Stand) (platform : Platform D) : Prop where
  heeds : threshold.Heeds place.line
  first_colon : ':' ∉ place.start
  same_line : '\n' ∉ place.space
  in_range : platform.rangeError profile.literal.value = false

theorem Stand.getlines_eq (place : profile.Stand) : getlines profile.text = place.earlier ++ place.line :: place.later := by
  have lines := getlines_at (place.lead ++ (place.name.text ++ place.gap)) (by decide : ':' ≠ '\n')
    (place.space ++ (profile.literal.text ++ place.rest))
  rw [← place.text_eq] at lines
  exact lines

theorem isSpace_of_blank {gap : List Char} (blank : Blank gap) : ∀ c ∈ gap, isSpace c := by
  intro c member
  have space := blank c member
  simp only [List.mem_cons, List.not_mem_nil, or_false] at space
  rcases space with rfl | rfl | rfl | rfl <;> rfl

theorem behindColon_line {start : List Char} (first : ':' ∉ start) (finish : List Char) :
    behindColon platform (start ++ ':' :: finish) = stod platform finish := by
  have skipped : ∀ c ∈ start, (c != ':') = true := by
    intro c member
    rw [bne_iff_ne]
    rintro rfl
    exact first member
  unfold behindColon
  rw [List.dropWhile_append_of_pos skipped, List.dropWhile_cons_of_neg (by decide)]

theorem ended_lineEnd {rest : List Char} (ended : Ended rest) : Ended (lineEnd rest) := by
  cases rest with
  | nil => exact ended
  | cons c rest =>
    intro first front
    unfold lineEnd at front
    by_cases inner : (c != '\n') = true
    · rw [List.takeWhile_cons, if_pos inner] at front
      exact ended first front
    · rw [List.takeWhile_cons, if_neg inner] at front
      cases front

theorem lineEnd_append {text : List Char} (unbroken : '\n' ∉ text) (rest : List Char) :
    lineEnd (text ++ rest) = text ++ lineEnd rest := by
  apply List.takeWhile_append_of_pos
  intro c member
  rw [bne_iff_ne]
  rintro rfl
  exact unbroken member

theorem lineEnd_of_break {text : List Char} (broken : '\n' ∈ text) (rest : List Char) :
    lineEnd (text ++ rest) = lineEnd text := by
  obtain ⟨front, back, rfl⟩ := List.append_of_mem broken
  induction front with
  | nil => rfl
  | cons c front ih =>
    unfold lineEnd at ih ⊢
    simp only [List.cons_append, List.takeWhile_cons]
    rw [ih (by simp)]

theorem Stand.behindColon_same_line (place : profile.Stand) (first : ':' ∉ place.start) (same : '\n' ∉ place.space) :
    behindColon platform place.line =
      if platform.rangeError profile.literal.value then none else some (profile.number platform) := by
  have unbroken : '\n' ∉ profile.literal.text := by
    intro member
    have space := not_space_text member
    revert space
    decide
  have finish : place.finish = place.space ++ (profile.literal.text ++ lineEnd place.rest) := by
    unfold Stand.finish
    rw [lineEnd_append same, lineEnd_append unbroken]
  unfold Stand.line
  rw [behindColon_line platform first, finish]
  exact stod_text platform profile.literal (isSpace_of_blank place.space_blank) (ended_lineEnd place.ended)

theorem Stand.behindColon_broken (place : profile.Stand) (first : ':' ∉ place.start) (broken : '\n' ∈ place.space) :
    behindColon platform place.line = none := by
  unfold Stand.line Stand.finish
  rw [behindColon_line platform first, lineEnd_of_break broken]
  apply stod_blank
  intro c member
  exact isSpace_of_blank place.space_blank c (List.takeWhile_subset _ member)

theorem Stand.Plain.reading {platform : Platform D} {place : profile.Stand} (plain : place.Plain platform) :
    threshold.reading platform place.line = some (profile.number platform) := by
  rw [Threshold.reading, if_pos plain.heeds,
    place.behindColon_same_line platform plain.first_colon plain.same_line, plain.in_range]
  rfl

/-! ## When the number of the profile is loaded -/

variable (profile)

theorem loaded_eq : profile.loaded platform config =
    (getlines profile.text).foldl (fun current line => (threshold.reading platform line).getD current)
      (threshold.of config) := by
  rw [loaded, threshold.loadConfig_eq, threshold.of_foldl_scanLine]

/-- The number is read where it stands, and no later line is read. -/
def ReadInPlace : Prop :=
  ∃ place : profile.Stand, place.Plain platform ∧ ∀ line ∈ place.later, threshold.reading platform line = none

/-- The last line that is read has a number behind its first colon that is not the profile's own,
but the same on the platform. -/
def SameElsewhere : Prop :=
  ∃ before line after, getlines profile.text = before ++ line :: after ∧
    (∀ other ∈ after, threshold.reading platform other = none) ∧
    (∀ place : profile.Stand, place.earlier = before → ¬place.Plain platform) ∧
    threshold.Heeds line ∧ behindColon platform line = some (profile.number platform)

variable {profile} {platform} in
/-- The layout alone is enough, whatever was in force before. -/
theorem ReadInPlace.loaded (inPlace : profile.ReadInPlace platform) :
    profile.loaded platform config = profile.number platform := by
  obtain ⟨place, plain, silent⟩ := inPlace
  rw [loaded_eq, place.getlines_eq]
  exact foldl_last plain.reading silent _

/-- No line is read, and the number was in force before. -/
def SameByDefault : Prop :=
  (∀ line ∈ getlines profile.text, threshold.reading platform line = none) ∧
    threshold.of config = profile.number platform

/-- Loading gives the number of the profile for the layouts that have it where the loader looks for
it, and for others by coincidence only. -/
theorem loaded_number_iff :
    profile.loaded platform config = profile.number platform ↔
      profile.ReadInPlace platform ∨ profile.SameElsewhere platform ∨ profile.SameByDefault platform config := by
  constructor
  · intro same
    rw [loaded_eq] at same
    rcases last_reading (threshold.reading platform) (getlines profile.text) with
      silent | ⟨before, line, after, number, lines, read, silent⟩
    · rw [foldl_silent silent] at same
      exact Or.inr (Or.inr ⟨silent, same⟩)
    · rw [lines, foldl_last read silent] at same
      subst same
      by_cases own : ∃ place : profile.Stand, place.earlier = before ∧ place.Plain platform
      · obtain ⟨place, rfl, plain⟩ := own
        have split := place.getlines_eq.symm.trans lines
        obtain ⟨-, rfl⟩ := List.cons.inj (List.append_cancel_left split)
        exact Or.inl ⟨place, plain, silent⟩
      · apply Or.inr (Or.inl _)
        unfold Threshold.reading at read
        split at read
        next heeds =>
          exact ⟨before, line, after, lines, silent, fun place same plain => own ⟨place, same, plain⟩, heeds, read⟩
        next => cases read
  · rintro (inPlace | ⟨before, line, after, lines, silent, -, heeds, read⟩ | ⟨silent, same⟩)
    · exact inPlace.loaded config
    · rw [loaded_eq, lines]
      apply foldl_last _ silent
      rw [Threshold.reading, if_pos heeds, read]
    · rw [loaded_eq, foldl_silent silent]
      exact same

/-- Where only the line of the member is read and its colon is the first, a line break between the
colon and the number, or a number out of range, leaves the default in force. -/
theorem loaded_number_iff_of_alone (place : profile.Stand) (heeds : threshold.Heeds place.line)
    (first : ':' ∉ place.start)
    (alone : ∀ line ∈ place.earlier ++ place.later, threshold.reading platform line = none) :
    profile.loaded platform config = profile.number platform ↔
      ('\n' ∉ place.space ∧ platform.rangeError profile.literal.value = false) ∨
        threshold.of config = profile.number platform := by
  have later : ∀ line ∈ place.later, threshold.reading platform line = none :=
    fun line member => alone line (List.mem_append_right _ member)
  have unread (none_read : behindColon platform place.line = none) :
      profile.loaded platform config = threshold.of config := by
    rw [loaded_eq, place.getlines_eq]
    apply foldl_silent
    intro line member
    rcases List.mem_append.mp member with earlier | own
    · exact alone line (List.mem_append_left _ earlier)
    · rcases List.mem_cons.mp own with rfl | behind
      · rw [Threshold.reading, none_read, ite_self]
      · exact later line behind
  by_cases broken : '\n' ∈ place.space
  · rw [unread (place.behindColon_broken platform first broken)]
    simp only [broken, not_true_eq_false, false_and, false_or]
  · have read := place.behindColon_same_line platform first broken
    by_cases range : platform.rangeError profile.literal.value = true
    · rw [if_pos range] at read
      rw [unread read]
      simp only [range, Bool.true_eq_false, and_false, false_or]
    · have in_range := Bool.eq_false_iff.mpr range
      have plain : place.Plain platform := ⟨heeds, first, broken, in_range⟩
      have inPlace : profile.ReadInPlace platform := ⟨place, plain, later⟩
      have own := inPlace.loaded config
      simp only [own, broken, in_range, not_false_eq_true, and_self, true_or]

end Profile

/-! ## A profile with its number on a line of its own -/

def exact : Platform ℚ where
  nearest := id
  infinity _ := 0
  nan := 0
  rangeError _ := false

def defaults : Config ℚ where
  bwtMinThreshold := -1 / 100
  maxSafeTempC := 120
  ipcThreshold := 1 / 2
  llcMissThreshold := 15 / 100

def sectionString : JsonString := ⟨"drift_profile".toList, codes "drift_profile".toList, by decide⟩

def keyString : JsonString := ⟨bwtKey, codes bwtKey, by decide⟩

def fivePercent : Literal := ⟨true, [0], some [0, 5], none, by decide, by decide, by decide⟩

def strictValue : Value := .object [(sectionString, .object [(keyString, .number fivePercent)])]

/-- The profile, with a line break behind the colon of its threshold. -/
def brokenLine : Profile .bwtMin where
  value := strictValue
  literal := fivePercent
  setting := by rfl
  text := "\x7b\n  \"drift_profile\": \x7b\n    \"bwt_min_threshold\":\n      -0.05\n  \x7d\n\x7d\n".toList
  layout := @layout_layOut [([], ['\x7b']), ("\n  ".toList, sectionString.text), ([], [':']), ([' '], ['\x7b']),
    ("\n    ".toList, keyString.text), ([], [':']), ("\n      ".toList, fivePercent.text), ("\n  ".toList, ['\x7d']),
    (['\n'], ['\x7d'])] ['\n'] (by decide) (by decide)

theorem broken_line_overlooked : brokenLine.loaded exact defaults ≠ brokenLine.number exact := by
  have kept : brokenLine.loaded exact defaults = -1 / 100 := by rfl
  have digits : value 10 [0, 0, 5] = 5 := by decide
  have own : brokenLine.number exact = -5 / 100 := by
    change -((value 10 [0, 0, 5] : ℚ) / 10 ^ 2 * 10 ^ (0 : Int)) = -5 / 100
    rw [digits]
    norm_num
  rw [kept, own]
  norm_num

end SentinelLab.ProfileLoading
