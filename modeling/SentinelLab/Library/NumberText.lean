import Mathlib

/-! Numbers in text: the number literals of JSON, and what the C library reads at the start of a
text. The range in which a reading is an error, and the nearest number of the machine, are left
to the platform. -/

namespace SentinelLab.Library.NumberText

/-! ## Runs of digits -/

def decimalDigit (c : Char) : Option Nat := if '0' ≤ c ∧ c ≤ '9' then some (c.toNat - 48) else none

def hexDigit (c : Char) : Option Nat :=
  if '0' ≤ c ∧ c ≤ '9' then some (c.toNat - 48)
  else if 'a' ≤ c ∧ c ≤ 'f' then some (c.toNat - 87)
  else if 'A' ≤ c ∧ c ≤ 'F' then some (c.toNat - 55)
  else none

def digitRun (digit : Char → Option Nat) : List Char → List Nat × List Char
  | [] => ([], [])
  | c :: rest =>
      match digit c with
      | some value => (value :: (digitRun digit rest).1, (digitRun digit rest).2)
      | none => ([], c :: rest)

def value (base : Nat) (digits : List Nat) : Nat := Nat.ofDigits base digits.reverse

/-! ## Reading the start of a text -/

inductive Reading where
  | finite (number : ℚ)
  | infinite (negative : Bool)
  | nan
  deriving DecidableEq

def signedRun : List Char → Int
  | '+' :: rest => value 10 (digitRun decimalDigit rest).1
  | '-' :: rest => -value 10 (digitRun decimalDigit rest).1
  | rest => value 10 (digitRun decimalDigit rest).1

def fractionRun (digit : Char → Option Nat) : List Char → List Nat × List Char
  | '.' :: rest => digitRun digit rest
  | rest => ([], rest)

def markedRun (markers : List Char) : List Char → Int
  | c :: rest => if c ∈ markers then signedRun rest else 0
  | [] => 0

def unsignedNumber (base : Nat) (digit : Char → Option Nat) (markers : List Char) (scale : ℚ) (text : List Char) :
    Option ℚ :=
  let whole := digitRun digit text
  let fraction := fractionRun digit whole.2
  if whole.1 ++ fraction.1 = [] then none
  else
    some ((value base (whole.1 ++ fraction.1) : ℚ) / (base : ℚ) ^ fraction.1.length *
      scale ^ markedRun markers fraction.2)

/-- A name of a special value, in any mixture of cases. -/
def startsWith : List Char → List Char → Bool
  | [], _ => true
  | first :: name, c :: text => c.toLower == first && startsWith name text
  | _ :: _, [] => false

def magnitude (text : List Char) : Option Reading :=
  if startsWith ['i', 'n', 'f'] text then some (.infinite false)
  else if startsWith ['n', 'a', 'n'] text then some .nan
  else
    let hexadecimal :=
      if startsWith ['0', 'x'] text then unsignedNumber 16 hexDigit ['p', 'P'] 2 (text.drop 2) else none
    (hexadecimal.orElse fun _ => unsignedNumber 10 decimalDigit ['e', 'E'] 10 text).map .finite

def Reading.negate : Reading → Reading
  | .finite number => .finite (-number)
  | .infinite negative => .infinite !negative
  | .nan => .nan

def isSpace (c : Char) : Bool := c ∈ [' ', '\t', '\n', '\x0b', '\x0c', '\r']

/-- `strtod`; `none` is no conversion. -/
def strtod (text : List Char) : Option Reading :=
  match text.dropWhile isSpace with
  | '+' :: rest => magnitude rest
  | '-' :: rest => (magnitude rest).map Reading.negate
  | rest => magnitude rest

/-- The floating-point numbers of a platform, as far as text is converted to them. -/
structure Platform (D : Type) where
  nearest : ℚ → D
  infinity : Bool → D
  nan : D
  rangeError : ℚ → Bool

/-- `std::stod`; `none` is an exception. -/
def stod {D : Type} (platform : Platform D) (text : List Char) : Option D :=
  (strtod text).bind fun reading =>
    match reading with
    | .finite number => if platform.rangeError number then none else some (platform.nearest number)
    | .infinite negative => some (platform.infinity negative)
    | .nan => some platform.nan

/-! ## Literals -/

def digitChar (digit : Fin 10) : Char := Nat.digitChar digit

def digitText (digits : List (Fin 10)) : List Char := digits.map digitChar

def numerals (digits : List (Fin 10)) : List Nat := digits.map Fin.val

structure Exponent where
  upper : Bool
  sign : Option Bool
  digits : List (Fin 10)
  nonempty : digits ≠ []

def Exponent.signedText (exponent : Exponent) : List Char :=
  (match exponent.sign with
    | some true => ['-']
    | some false => ['+']
    | none => []) ++ digitText exponent.digits

def Exponent.text (exponent : Exponent) : List Char :=
  (if exponent.upper then 'E' else 'e') :: exponent.signedText

def Exponent.value (exponent : Exponent) : Int :=
  match exponent.sign with
  | some true => -NumberText.value 10 (numerals exponent.digits)
  | _ => NumberText.value 10 (numerals exponent.digits)

/-- A number literal of JSON: no digit before a 0 that is not alone, no part without a digit. -/
structure Literal where
  negative : Bool
  whole : List (Fin 10)
  fraction : Option (List (Fin 10))
  exponent : Option Exponent
  some_digit : whole ≠ []
  no_leading_zero : whole.head? = some 0 → whole.length = 1
  some_decimal : fraction ≠ some []

structure Formed (whole : List (Fin 10)) (fraction : Option (List (Fin 10))) : Prop where
  some_digit : whole ≠ []
  no_leading_zero : whole.head? = some 0 → whole.length = 1
  some_decimal : fraction ≠ some []

theorem formed_iff (whole : List (Fin 10)) (fraction : Option (List (Fin 10))) :
    Formed whole fraction ↔
      whole ≠ [] ∧ (whole.head?.map Fin.val = some 0 → whole.length = 1) ∧ fraction ≠ some [] := by
  have zero : whole.head?.map Fin.val = some 0 ↔ whole.head? = some 0 := by
    cases whole with
    | nil => simp
    | cons digit others => simp
  constructor
  · intro formed
    exact ⟨formed.some_digit, fun front => formed.no_leading_zero (zero.mp front), formed.some_decimal⟩
  · rintro ⟨some_digit, no_leading_zero, some_decimal⟩
    exact ⟨some_digit, fun front => no_leading_zero (zero.mpr front), some_decimal⟩

instance (whole : List (Fin 10)) (fraction : Option (List (Fin 10))) : Decidable (Formed whole fraction) :=
  decidable_of_iff _ (formed_iff whole fraction).symm

def Formed.literal {whole : List (Fin 10)} {fraction : Option (List (Fin 10))} (formed : Formed whole fraction)
    (negative : Bool) (exponent : Option Exponent) : Literal :=
  ⟨negative, whole, fraction, exponent, formed.some_digit, formed.no_leading_zero, formed.some_decimal⟩

def Literal.decimals (literal : Literal) : List (Fin 10) := literal.fraction.getD []

def Literal.fractionText (literal : Literal) : List Char :=
  match literal.fraction with
  | some digits => '.' :: digitText digits
  | none => []

def Literal.exponentText (literal : Literal) : List Char :=
  match literal.exponent with
  | some exponent => exponent.text
  | none => []

def Literal.unsignedText (literal : Literal) : List Char :=
  digitText literal.whole ++ (literal.fractionText ++ literal.exponentText)

def Literal.text (literal : Literal) : List Char :=
  if literal.negative then '-' :: literal.unsignedText else literal.unsignedText

def Literal.exponentValue (literal : Literal) : Int :=
  match literal.exponent with
  | some exponent => exponent.value
  | none => 0

def Literal.magnitude (literal : Literal) : ℚ :=
  (NumberText.value 10 (numerals (literal.whole ++ literal.decimals)) : ℚ) / (10 : ℚ) ^ literal.decimals.length *
    (10 : ℚ) ^ literal.exponentValue

def Literal.value (literal : Literal) : ℚ := if literal.negative then -literal.magnitude else literal.magnitude

/-! ## What is read at the start of a literal -/

def Stops (rest : List Char) : Prop := ∀ c ∈ rest.head?, decimalDigit c = none

theorem decimalDigit_digitChar (digit : Fin 10) : decimalDigit (digitChar digit) = some digit.val := by
  revert digit
  decide

theorem digitRun_of_stops {rest : List Char} (stops : Stops rest) : digitRun decimalDigit rest = ([], rest) := by
  cases rest with
  | nil => rfl
  | cons c rest =>
    have none : decimalDigit c = none := stops c rfl
    rw [digitRun, none]

theorem digitRun_digitText (digits : List (Fin 10)) {rest : List Char} (stops : Stops rest) :
    digitRun decimalDigit (digitText digits ++ rest) = (numerals digits, rest) := by
  induction digits with
  | nil => exact digitRun_of_stops stops
  | cons digit digits ih =>
    change digitRun decimalDigit (digitChar digit :: (digitText digits ++ rest)) = _
    rw [digitRun, decimalDigit_digitChar, ih]
    rfl

theorem digitChar_ne_sign (digit : Fin 10) : digitChar digit ≠ '+' ∧ digitChar digit ≠ '-' := by
  revert digit
  decide

/-- What a member's value may be followed by: blank space, or the next punctuation. -/
def Ended (rest : List Char) : Prop := ∀ c ∈ rest.head?, c ∈ [' ', '\t', '\n', '\r', ',', ']', '}']

theorem Ended.not_digit {rest : List Char} (ended : Ended rest) : Stops rest := by
  intro c front
  have follow := ended c front
  simp only [List.mem_cons, List.not_mem_nil, or_false] at follow
  rcases follow with rfl | rfl | rfl | rfl | rfl | rfl | rfl <;> decide

theorem signedRun_signedText (exponent : Exponent) {rest : List Char} (stops : Stops rest) :
    signedRun (exponent.signedText ++ rest) = exponent.value := by
  unfold Exponent.signedText Exponent.value
  match exponent.sign with
  | some true => simp [signedRun, digitRun_digitText exponent.digits stops]
  | some false => simp [signedRun, digitRun_digitText exponent.digits stops]
  | none =>
    have run := digitRun_digitText exponent.digits stops
    match digits : exponent.digits with
    | [] => exact absurd digits exponent.nonempty
    | digit :: others =>
      rw [digits] at run
      obtain ⟨plus, minus⟩ := digitChar_ne_sign digit
      simp only [List.nil_append]
      rw [signedRun, run]
      · intro _ same
        exact plus (List.cons.inj same).1
      · intro _ same
        exact minus (List.cons.inj same).1

theorem Ended.not_marker {rest : List Char} (ended : Ended rest) : markedRun ['e', 'E'] rest = 0 := by
  cases rest with
  | nil => rfl
  | cons c rest =>
    have follow := ended c rfl
    simp only [List.mem_cons, List.not_mem_nil, or_false] at follow
    rcases follow with rfl | rfl | rfl | rfl | rfl | rfl | rfl <;> simp [markedRun]

theorem Ended.not_point {rest : List Char} (ended : Ended rest) (behind : List Char) : rest ≠ '.' :: behind := by
  rintro rfl
  have follow := ended '.' rfl
  revert follow
  decide

theorem markedRun_exponentText (literal : Literal) {rest : List Char} (ended : Ended rest) :
    markedRun ['e', 'E'] (literal.exponentText ++ rest) = literal.exponentValue := by
  unfold Literal.exponentText Literal.exponentValue
  match literal.exponent with
  | none => exact ended.not_marker
  | some exponent =>
    have run := signedRun_signedText exponent ended.not_digit
    simp only [Exponent.text, List.cons_append, markedRun, run]
    cases exponent.upper <;> rfl

theorem stops_exponentText (literal : Literal) {rest : List Char} (ended : Ended rest) :
    Stops (literal.exponentText ++ rest) := by
  unfold Literal.exponentText
  match literal.exponent with
  | none => exact ended.not_digit
  | some exponent =>
    intro c front
    cases upper : exponent.upper <;>
      simp only [Exponent.text, upper, List.cons_append, List.head?_cons, Option.mem_def, Option.some.injEq] at front <;>
      subst front <;> decide

theorem point_notMem_exponentText (literal : Literal) {rest : List Char} (ended : Ended rest) (behind : List Char) :
    literal.exponentText ++ rest ≠ '.' :: behind := by
  unfold Literal.exponentText
  match literal.exponent with
  | none => exact ended.not_point behind
  | some exponent =>
    intro same
    have front := (List.cons.inj same).1
    cases upper : exponent.upper <;> simp [upper] at front

theorem fractionRun_of_no_point {digit : Char → Option Nat} {text : List Char}
    (no_point : ∀ behind, text ≠ '.' :: behind) : fractionRun digit text = ([], text) := by
  unfold fractionRun
  split
  next rest => exact absurd rfl (no_point rest)
  next => rfl

theorem fractionRun_fractionText (literal : Literal) {rest : List Char} (ended : Ended rest) :
    fractionRun decimalDigit (literal.fractionText ++ (literal.exponentText ++ rest)) =
      (numerals literal.decimals, literal.exponentText ++ rest) := by
  unfold Literal.fractionText Literal.decimals
  match literal.fraction with
  | some digits => exact digitRun_digitText digits (stops_exponentText literal ended)
  | none => exact fractionRun_of_no_point (point_notMem_exponentText literal ended)

theorem stops_fractionText (literal : Literal) {rest : List Char} (ended : Ended rest) :
    Stops (literal.fractionText ++ (literal.exponentText ++ rest)) := by
  unfold Literal.fractionText
  match literal.fraction with
  | some digits =>
    intro c front
    obtain rfl : '.' = c := Option.some.inj front
    decide
  | none => exact stops_exponentText literal ended

theorem unsignedNumber_unsignedText (literal : Literal) {rest : List Char} (ended : Ended rest) :
    unsignedNumber 10 decimalDigit ['e', 'E'] 10 (literal.unsignedText ++ rest) = some literal.magnitude := by
  have digits : numerals literal.whole ++ numerals literal.decimals ≠ [] := by
    intro empty
    have whole := (List.append_eq_nil_iff.mp empty).1
    exact literal.some_digit (List.map_eq_nil_iff.mp whole)
  have joined : numerals literal.whole ++ numerals literal.decimals = numerals (literal.whole ++ literal.decimals) :=
    List.map_append.symm
  have count : (numerals literal.decimals).length = literal.decimals.length := List.length_map _
  unfold unsignedNumber Literal.unsignedText
  simp only [List.append_assoc]
  rw [digitRun_digitText literal.whole (stops_fractionText literal ended)]
  simp only [fractionRun_fractionText literal ended]
  rw [if_neg digits, markedRun_exponentText literal ended, count, joined]
  rfl

theorem not_startsWith {first c : Char} (name text : List Char) (other : c.toLower ≠ first) :
    startsWith (first :: name) (c :: text) = false := by
  rw [startsWith, beq_eq_false_iff_ne.mpr other, Bool.false_and]

theorem digitChar_toLower (digit : Fin 10) :
    (digitChar digit).toLower ≠ 'i' ∧ (digitChar digit).toLower ≠ 'n' ∧ (digitChar digit).toLower ≠ 'x' ∧
      (digit ≠ 0 → (digitChar digit).toLower ≠ '0') := by
  revert digit
  decide

theorem Ended.toLower {c : Char} {rest : List Char} (ended : Ended (c :: rest)) : c.toLower ≠ 'x' := by
  have follow := ended c rfl
  simp only [List.mem_cons, List.not_mem_nil, or_false] at follow
  rcases follow with rfl | rfl | rfl | rfl | rfl | rfl | rfl <;> decide

theorem toLower_behind_whole (literal : Literal) {rest behind : List Char} {c : Char} (ended : Ended rest)
    (split : literal.fractionText ++ (literal.exponentText ++ rest) = c :: behind) : c.toLower ≠ 'x' := by
  unfold Literal.fractionText Literal.exponentText at split
  match fraction : literal.fraction with
  | some digits =>
    rw [fraction] at split
    obtain rfl : '.' = c := (List.cons.inj split).1
    decide
  | none =>
    match exponent : literal.exponent with
    | some scale =>
      rw [fraction, exponent] at split
      have front := (List.cons.inj split).1
      subst front
      cases scale.upper <;> decide
    | none =>
      rw [fraction, exponent] at split
      obtain rfl : rest = c :: behind := split
      exact ended.toLower

theorem decimal_unsignedText (literal : Literal) {rest : List Char} (ended : Ended rest) :
    startsWith ['0', 'x'] (literal.unsignedText ++ rest) = false := by
  have behind : literal.unsignedText ++ rest =
      digitText literal.whole ++ (literal.fractionText ++ (literal.exponentText ++ rest)) := by
    simp only [Literal.unsignedText, List.append_assoc]
  rw [behind]
  match whole : literal.whole with
  | [] => exact absurd whole literal.some_digit
  | digit :: others =>
    by_cases zero : digit = 0
    · have single := literal.no_leading_zero (by rw [whole, zero]; rfl)
      obtain rfl : others = [] := by
        rw [whole] at single
        exact List.length_eq_zero_iff.mp (Nat.succ.inj single)
      subst zero
      change startsWith ['0', 'x'] ('0' :: (literal.fractionText ++ (literal.exponentText ++ rest))) = false
      match tail : literal.fractionText ++ (literal.exponentText ++ rest) with
      | [] => rfl
      | c :: text =>
        have other := toLower_behind_whole literal ended tail
        change (_ && startsWith ['x'] (c :: text)) = false
        rw [not_startsWith _ _ other, Bool.and_false]
    · exact not_startsWith _ _ ((digitChar_toLower digit).2.2.2 zero)

theorem unsignedText_front (literal : Literal) (rest : List Char) :
    ∃ digit others, literal.unsignedText ++ rest = digitChar digit :: others := by
  match whole : literal.whole with
  | [] => exact absurd whole literal.some_digit
  | digit :: others =>
    use digit, digitText others ++ (literal.fractionText ++ literal.exponentText) ++ rest
    rw [Literal.unsignedText, whole]
    rfl

theorem magnitude_unsignedText (literal : Literal) {rest : List Char} (ended : Ended rest) :
    magnitude (literal.unsignedText ++ rest) = some (.finite literal.magnitude) := by
  have read := unsignedNumber_unsignedText literal ended
  have decimal := decimal_unsignedText literal ended
  obtain ⟨digit, others, front⟩ := unsignedText_front literal rest
  obtain ⟨i, n, -, -⟩ := digitChar_toLower digit
  unfold magnitude
  rw [read, decimal, front, not_startsWith _ _ i, not_startsWith _ _ n]
  rfl

theorem dropWhile_blank {gap text : List Char} (blank : ∀ c ∈ gap, isSpace c)
    (front : ∀ c ∈ text.head?, isSpace c = false) : (gap ++ text).dropWhile isSpace = text := by
  rw [List.dropWhile_append_of_pos blank]
  cases text with
  | nil => rfl
  | cons c rest => exact List.dropWhile_cons_of_neg (by rw [front c rfl]; exact Bool.false_ne_true)

theorem isSpace_digitChar (digit : Fin 10) : isSpace (digitChar digit) = false := by
  revert digit
  decide

/-- Behind blank space, the number read is the literal. -/
theorem strtod_text (literal : Literal) {gap rest : List Char} (blank : ∀ c ∈ gap, isSpace c) (ended : Ended rest) :
    strtod (gap ++ (literal.text ++ rest)) = some (.finite literal.value) := by
  have unsigned := magnitude_unsignedText literal ended
  obtain ⟨digit, others, front⟩ := unsignedText_front literal rest
  unfold Literal.text Literal.value strtod
  by_cases negative : literal.negative = true
  · simp only [if_pos negative, List.cons_append]
    have dropped : (gap ++ '-' :: (literal.unsignedText ++ rest)).dropWhile isSpace =
        '-' :: (literal.unsignedText ++ rest) := by
      apply dropWhile_blank blank
      intro c head
      obtain rfl : '-' = c := Option.some.inj head
      decide
    rw [dropped]
    simp only [unsigned, Option.map_some, Reading.negate]
  · simp only [if_neg negative]
    have dropped : (gap ++ (literal.unsignedText ++ rest)).dropWhile isSpace = literal.unsignedText ++ rest := by
      apply dropWhile_blank blank
      intro c head
      rw [front] at head
      obtain rfl : digitChar digit = c := Option.some.inj head
      exact isSpace_digitChar digit
    obtain ⟨plus, minus⟩ := digitChar_ne_sign digit
    rw [dropped]
    split
    next text same =>
      rw [front] at same
      exact absurd (List.cons.inj same).1 plus
    next text same =>
      rw [front] at same
      exact absurd (List.cons.inj same).1 minus
    next => exact unsigned

theorem stod_text {D : Type} (platform : Platform D) (literal : Literal) {gap rest : List Char}
    (blank : ∀ c ∈ gap, isSpace c) (ended : Ended rest) :
    stod platform (gap ++ (literal.text ++ rest)) =
      if platform.rangeError literal.value then none else some (platform.nearest literal.value) := by
  rw [stod, strtod_text literal blank ended, Option.bind_some]

theorem stod_blank {D : Type} (platform : Platform D) {gap : List Char} (blank : ∀ c ∈ gap, isSpace c) :
    stod platform gap = none := by
  have dropped : (gap ++ []).dropWhile isSpace = [] := by
    apply dropWhile_blank blank
    intro c front
    cases front
  rw [List.append_nil] at dropped
  rw [stod, strtod, dropped]
  rfl

/-! ## No space in a literal -/

theorem not_space_digitText {digits : List (Fin 10)} {c : Char} (member : c ∈ digitText digits) : isSpace c = false := by
  obtain ⟨digit, -, rfl⟩ := List.mem_map.mp member
  exact isSpace_digitChar digit

theorem not_space_signedText {exponent : Exponent} {c : Char} (member : c ∈ exponent.signedText) :
    isSpace c = false := by
  rcases List.mem_append.mp member with sign | digits
  · split at sign
    next => exact List.mem_singleton.mp sign ▸ rfl
    next => exact List.mem_singleton.mp sign ▸ rfl
    next => cases sign
  · exact not_space_digitText digits

theorem not_space_unsignedText {literal : Literal} {c : Char} (member : c ∈ literal.unsignedText) :
    isSpace c = false := by
  rcases List.mem_append.mp member with whole | behind
  · exact not_space_digitText whole
  · rcases List.mem_append.mp behind with fraction | exponent
    · unfold Literal.fractionText at fraction
      split at fraction
      next =>
        rcases List.mem_cons.mp fraction with rfl | digits
        · rfl
        · exact not_space_digitText digits
      next => cases fraction
    · unfold Literal.exponentText at exponent
      split at exponent
      next scale _ =>
        rcases List.mem_cons.mp exponent with rfl | signed
        · cases scale.upper <;> rfl
        · exact not_space_signedText signed
      next => cases exponent

theorem not_space_text {literal : Literal} {c : Char} (member : c ∈ literal.text) : isSpace c = false := by
  unfold Literal.text at member
  split at member
  next =>
    rcases List.mem_cons.mp member with rfl | unsigned
    · rfl
    · exact not_space_unsignedText unsigned
  next => exact not_space_unsignedText member

end SentinelLab.Library.NumberText
