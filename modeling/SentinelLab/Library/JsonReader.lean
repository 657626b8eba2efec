import SentinelLab.Library.Json

/-! Reading JSON: a text is cut into tokens, and the tokens are read as a value by recursive
descent. What is read is exactly the values of which the text is a layout. -/

namespace SentinelLab.Library.Json
open SentinelLab.Library.NumberText

/-! ## Numbers -/

def literalDigits : List Char → List (Fin 10) × List Char
  | [] => ([], [])
  | c :: rest =>
      match (List.finRange 10).find? fun digit => digitChar digit == c with
      | some digit => (digit :: (literalDigits rest).1, (literalDigits rest).2)
      | none => ([], c :: rest)

def literalSign : List Char → Option Bool × List Char
  | '-' :: rest => (some true, rest)
  | '+' :: rest => (some false, rest)
  | rest => (none, rest)

def literalFraction : List Char → Option (List (Fin 10)) × List Char
  | '.' :: rest => (some (literalDigits rest).1, (literalDigits rest).2)
  | rest => (none, rest)

def literalExponent : List Char → Option (Option Exponent)
  | [] => some none
  | marker :: rest =>
      let signed := literalSign rest
      let digits := literalDigits signed.2
      if nonempty : digits.1 ≠ [] then
        some (some { upper := marker = 'E', sign := signed.1, digits := digits.1, nonempty })
      else none

def leadingNumber (token : Token) : Option Literal :=
  let unsigned := if token.head? = some '-' then token.tail else token
  let whole := literalDigits unsigned
  let fraction := literalFraction whole.2
  (literalExponent fraction.2).bind fun exponent =>
    if formed : Formed whole.1 fraction.1 then some (formed.literal (token.head? = some '-') exponent) else none

def readNumber (token : Token) : Option Literal := (leadingNumber token).filter fun literal => literal.text = token

theorem readNumber_sound {token : Token} {literal : Literal} (found : readNumber token = some literal) :
    literal.text = token := by
  rw [readNumber, Option.filter_eq_some_iff] at found
  exact of_decide_eq_true found.2

theorem find_digitChar (digit : Fin 10) :
    ((List.finRange 10).find? fun other => digitChar other == digitChar digit) = some digit := by
  revert digit
  decide

theorem find_of_stops {c : Char} (stops : decimalDigit c = none) :
    ((List.finRange 10).find? fun digit => digitChar digit == c) = none := by
  rw [List.find?_eq_none]
  intro digit _ same
  rw [← eq_of_beq same, decimalDigit_digitChar] at stops
  cases stops

theorem literalDigits_digitText (digits : List (Fin 10)) {rest : List Char} (stops : Stops rest) :
    literalDigits (digitText digits ++ rest) = (digits, rest) := by
  induction digits with
  | nil =>
    cases rest with
    | nil => rfl
    | cons c rest =>
      change literalDigits (c :: rest) = _
      rw [literalDigits, find_of_stops (stops c rfl)]
  | cons digit digits ih =>
    change literalDigits (digitChar digit :: (digitText digits ++ rest)) = _
    rw [literalDigits, find_digitChar, ih]

theorem literalSign_signedText (exponent : Exponent) :
    literalSign exponent.signedText = (exponent.sign, digitText exponent.digits) := by
  unfold Exponent.signedText
  match exponent.sign with
  | some true => rfl
  | some false => rfl
  | none =>
    match digits : exponent.digits with
    | [] => exact absurd digits exponent.nonempty
    | digit :: others =>
      obtain ⟨plus, minus⟩ := digitChar_ne_sign digit
      change literalSign (digitChar digit :: digitText others) = _
      unfold literalSign
      split
      next same => exact absurd (List.cons.inj same).1 minus
      next same => exact absurd (List.cons.inj same).1 plus
      next => rfl

theorem stops_nil : Stops [] := by
  intro c front
  cases front

theorem literalExponent_text (literal : Literal) : literalExponent literal.exponentText = some literal.exponent := by
  unfold Literal.exponentText
  match found : literal.exponent with
  | none => rfl
  | some exponent =>
    have digits := literalDigits_digitText exponent.digits stops_nil
    rw [List.append_nil] at digits
    simp only [Exponent.text, literalExponent, literalSign_signedText, digits]
    rw [dif_pos exponent.nonempty]
    cases upper : exponent.upper <;> simp [← upper]

theorem literalFraction_text (literal : Literal) :
    literalFraction (literal.fractionText ++ literal.exponentText) = (literal.fraction, literal.exponentText) := by
  have ended : Ended [] := by
    intro c front
    cases front
  have stops := stops_exponentText literal ended
  have no_point := point_notMem_exponentText literal ended
  simp only [List.append_nil] at stops no_point
  unfold Literal.fractionText
  match literal.fraction with
  | some digits =>
    change literalFraction ('.' :: (digitText digits ++ literal.exponentText)) = _
    rw [literalFraction, literalDigits_digitText digits stops]
  | none =>
    rw [List.nil_append]
    unfold literalFraction
    split
    next rest same => exact absurd same (no_point rest)
    next => rfl

theorem readNumber_text (literal : Literal) : readNumber literal.text = some literal := by
  have ended : Ended [] := by
    intro c front
    cases front
  obtain ⟨digit, others, front⟩ := unsignedText_front literal []
  rw [List.append_nil] at front
  have stops := stops_fractionText literal ended
  rw [List.append_nil] at stops
  have signed : (if literal.text.head? = some '-' then literal.text.tail else literal.text) = literal.unsignedText ∧
      decide (literal.text.head? = some '-') = literal.negative := by
    unfold Literal.text
    cases literal.negative with
    | true => simp
    | false => simp [front, (digitChar_ne_sign digit).2]
  have whole : literalDigits literal.unsignedText = (literal.whole, literal.fractionText ++ literal.exponentText) :=
    literalDigits_digitText literal.whole stops
  rw [readNumber, Option.filter_eq_some_iff]
  refine ⟨?_, decide_eq_true rfl⟩
  unfold leadingNumber
  simp only [signed.1, signed.2, whole, literalFraction_text, literalExponent_text, Option.bind_some]
  rw [dif_pos ⟨literal.some_digit, literal.no_leading_zero, literal.some_decimal⟩]
  rfl

/-! ## Strings -/

def quoted : List Char → Option (List Char × List Char)
  | [] => none
  | '"' :: rest => some ([], rest)
  | '\\' :: c :: rest => (quoted rest).map fun found => ('\\' :: c :: found.1, found.2)
  | c :: rest => (quoted rest).map fun found => (c :: found.1, found.2)

def readString (token : Token) : Option JsonString :=
  match token with
  | '"' :: rest =>
      match quoted rest with
      | some (raw, []) =>
          match unescaped : unescape raw with
          | some content => some ⟨raw, content, unescaped⟩
          | none => none
      | _ => none
  | _ => none

theorem quoted_plain {c : Char} (rest : List Char) (quote : c ≠ '"') (escape : c ≠ '\\') :
    quoted (c :: rest) = (quoted rest).map fun found => (c :: found.1, found.2) := by
  rw [quoted]
  · intro same
    exact quote same
  · intro d others same _
    exact escape same

theorem hexDigit_plain {c : Char} {digit : Nat} (read : hexDigit c = some digit) : c ≠ '"' ∧ c ≠ '\\' := by
  constructor
  · rintro rfl
    simp [hexDigit] at read
  · rintro rfl
    simp [hexDigit] at read

theorem codeUnit_plain {a b c d : Char} {unit : Nat} (read : codeUnit a b c d = some unit) :
    (a ≠ '"' ∧ a ≠ '\\') ∧ (b ≠ '"' ∧ b ≠ '\\') ∧ (c ≠ '"' ∧ c ≠ '\\') ∧ d ≠ '"' ∧ d ≠ '\\' := by
  obtain ⟨digits, each, _⟩ := Option.bind_eq_some_iff.mp read
  simp only [List.mapM_cons, List.mapM_nil, Option.bind_eq_bind, Option.bind_eq_some_iff, Option.pure_def] at each
  obtain ⟨_, first, _, ⟨_, second, _, ⟨_, third, _, ⟨_, fourth, _⟩, _⟩, _⟩, _⟩ := each
  exact ⟨hexDigit_plain first, hexDigit_plain second, hexDigit_plain third, hexDigit_plain fourth⟩

theorem quoted_raw {raw : List Char} {content : List Nat} (unescaped : unescape raw = some content)
    (rest : List Char) : quoted (raw ++ '"' :: rest) = some (raw, rest) := by
  induction raw using unescape.induct generalizing content with
  | case1 => rfl
  | case2 a b c d raw ih =>
    rw [unescape] at unescaped
    obtain ⟨unit, digits, later⟩ := Option.bind_eq_some_iff.mp unescaped
    obtain ⟨content, found, _⟩ := Option.bind_eq_some_iff.mp later
    obtain ⟨⟨a_quote, a_escape⟩, ⟨b_quote, b_escape⟩, ⟨c_quote, c_escape⟩, d_quote, d_escape⟩ := codeUnit_plain digits
    change quoted ('\\' :: 'u' :: a :: b :: c :: d :: (raw ++ '"' :: rest)) = _
    rw [quoted, quoted_plain _ a_quote a_escape, quoted_plain _ b_quote b_escape, quoted_plain _ c_quote c_escape,
      quoted_plain _ d_quote d_escape, ih found]
    rfl
  | case3 mark raw not_unit ih =>
    rw [unescape] at unescaped
    · obtain ⟨unit, marked, later⟩ := Option.bind_eq_some_iff.mp unescaped
      obtain ⟨content, found, _⟩ := Option.bind_eq_some_iff.mp later
      change quoted ('\\' :: mark :: (raw ++ '"' :: rest)) = _
      rw [quoted, ih found, Option.map_some]
    · exact not_unit
  | case4 c raw not_unit not_escape refused =>
    rw [unescape, if_pos refused] at unescaped
    · cases unescaped
    · exact not_unit
    · exact not_escape
  | case5 c raw not_unit not_escape accepted ih =>
    rw [unescape, if_neg accepted] at unescaped
    · obtain ⟨content, found, _⟩ := Option.bind_eq_some_iff.mp unescaped
      change quoted (c :: (raw ++ '"' :: rest)) = _
      rw [quoted_plain _ (fun same => accepted (Or.inl same)) (fun same => accepted (Or.inr (Or.inl same))),
        ih found, Option.map_some]
    · exact not_unit
    · exact not_escape

theorem readString_text (string : JsonString) : readString string.text = some string := by
  obtain ⟨raw, content, unescaped⟩ := string
  have scanned := quoted_raw unescaped []
  unfold readString JsonString.text
  simp only [scanned]
  split
  next other found =>
    rw [unescaped] at found
    cases found
    rfl
  next missing =>
    rw [unescaped] at missing
    cases missing

theorem quoted_sound {text raw rest : List Char} (found : quoted text = some (raw, rest)) :
    text = raw ++ '"' :: rest := by
  induction text using quoted.induct generalizing raw with
  | case1 => cases found
  | case2 rest =>
    cases found
    rfl
  | case3 c behind ih =>
    rw [quoted] at found
    obtain ⟨⟨raw, after⟩, later, same⟩ := Option.map_eq_some_iff.mp found
    cases same
    rw [ih later]
    rfl
  | case4 c behind quote escape ih =>
    rw [quoted] at found
    · obtain ⟨⟨raw, after⟩, later, same⟩ := Option.map_eq_some_iff.mp found
      cases same
      rw [ih later]
      rfl
    · exact quote
    · exact escape

theorem readString_sound {token : Token} {string : JsonString} (found : readString token = some string) :
    string.text = token := by
  unfold readString at found
  split at found
  next rest =>
    split at found
    next raw scanned =>
      split at found
      next content unescaped =>
        cases found
        rw [quoted_sound scanned]
        rfl
      next => cases found
    next => cases found
  next => cases found

/-! ## Values -/

def readScalar (token : Token) : Option Value :=
  if token = "null".toList then some .null
  else if token = "true".toList then some (.bool true)
  else if token = "false".toList then some (.bool false)
  else if token.head? = some '"' then (readString token).map .string
  else (readNumber token).map .number

mutual

def readValue : Nat → List Token → Option (Value × List Token)
  | fuel + 1, token :: rest =>
      if token = ['['] then
        if rest.head? = some [']'] then some (.array [], rest.tail)
        else (readItems fuel rest).map fun found => (.array found.1, found.2)
      else if token = ['\x7b'] then
        if rest.head? = some ['\x7d'] then some (.object [], rest.tail)
        else (readMembers fuel rest).map fun found => (.object found.1, found.2)
      else (readScalar token).map fun scalar => (scalar, rest)
  | _, _ => none

def readItems : Nat → List Token → Option (List Value × List Token)
  | fuel + 1, tokens =>
      (readValue fuel tokens).bind fun item =>
        if item.2.head? = some [','] then
          (readItems fuel item.2.tail).map fun found => (item.1 :: found.1, found.2)
        else if item.2.head? = some [']'] then some ([item.1], item.2.tail)
        else none
  | _, _ => none

def readMembers : Nat → List Token → Option (List (JsonString × Value) × List Token)
  | fuel + 1, name :: colon :: tokens =>
      if colon = [':'] then
        (readString name).bind fun name =>
          (readValue fuel tokens).bind fun value =>
            if value.2.head? = some [','] then
              (readMembers fuel value.2.tail).map fun found => ((name, value.1) :: found.1, found.2)
            else if value.2.head? = some ['\x7d'] then some ([(name, value.1)], value.2.tail)
            else none
      else none
  | _, _ => none

end

theorem readScalar_sound {token : Token} {value : Value} (found : readScalar token = some value) :
    value.tokens = [token] := by
  unfold readScalar at found
  split at found
  next same =>
    cases found
    rw [same, Value.tokens]
  · split at found
    next same =>
      cases found
      rw [same, Value.tokens, if_pos rfl]
    · split at found
      next same =>
        cases found
        rw [same, Value.tokens, if_neg Bool.false_ne_true]
      · split at found
        · obtain ⟨string, read, rfl⟩ := Option.map_eq_some_iff.mp found
          rw [Value.tokens, readString_sound read]
        · obtain ⟨literal, read, rfl⟩ := Option.map_eq_some_iff.mp found
          rw [Value.tokens, readNumber_sound read]

theorem cons_of_head {tokens : List Token} {token : Token} (front : tokens.head? = some token) :
    tokens = token :: tokens.tail := by
  cases tokens with
  | nil => cases front
  | cons first rest =>
    cases front
    rfl

/-- Whatever is read was written in front. -/
structure ReadsBack (fuel : Nat) : Prop where
  value : ∀ {tokens value rest}, readValue fuel tokens = some (value, rest) → tokens = value.tokens ++ rest
  items : ∀ {tokens items rest}, readItems fuel tokens = some (items, rest) →
    items ≠ [] ∧ tokens = commaSeparated (itemTokens items) ++ [']'] :: rest
  members : ∀ {tokens members rest}, readMembers fuel tokens = some (members, rest) →
    members ≠ [] ∧ tokens = commaSeparated (memberTokens members) ++ ['\x7d'] :: rest

theorem ReadsBack.value_succ {fuel : Nat} (back : ReadsBack fuel) {tokens rest : List Token} {value : Value}
    (found : readValue (fuel + 1) tokens = some (value, rest)) : tokens = value.tokens ++ rest := by
  match tokens with
  | [] => cases found
  | token :: behind =>
    rw [readValue] at found
    split at found
    next opening =>
      split at found
      next closing =>
        cases found
        rw [opening, Value.tokens, itemTokens, commaSeparated, cons_of_head closing]
        rfl
      next =>
        obtain ⟨⟨items, after⟩, read, same⟩ := Option.map_eq_some_iff.mp found
        cases same
        rw [opening, (back.items read).2, Value.tokens]
        simp
    next =>
      split at found
      next opening =>
        split at found
        next closing =>
          cases found
          rw [opening, Value.tokens, memberTokens, commaSeparated, cons_of_head closing]
          rfl
        next =>
          obtain ⟨⟨members, after⟩, read, same⟩ := Option.map_eq_some_iff.mp found
          cases same
          rw [opening, (back.members read).2, Value.tokens]
          simp
      next =>
        obtain ⟨scalar, read, same⟩ := Option.map_eq_some_iff.mp found
        cases same
        rw [readScalar_sound read]
        rfl

theorem itemTokens_ne_nil {items : List Value} (nonempty : items ≠ []) : itemTokens items ≠ [] := by
  cases items with
  | nil => exact absurd rfl nonempty
  | cons => simp [itemTokens]

theorem memberTokens_ne_nil {members : List (JsonString × Value)} (nonempty : members ≠ []) :
    memberTokens members ≠ [] := by
  rw [memberTokens_eq]
  simpa using nonempty

theorem ReadsBack.items_succ {fuel : Nat} (back : ReadsBack fuel) {tokens rest : List Token} {items : List Value}
    (found : readItems (fuel + 1) tokens = some (items, rest)) :
    items ≠ [] ∧ tokens = commaSeparated (itemTokens items) ++ [']'] :: rest := by
  rw [readItems] at found
  obtain ⟨⟨item, behind⟩, read, found⟩ := Option.bind_eq_some_iff.mp found
  dsimp only at found
  rw [back.value read]
  split at found
  next comma =>
    obtain ⟨⟨others, after⟩, more, same⟩ := Option.map_eq_some_iff.mp found
    cases same
    obtain ⟨nonempty, later⟩ := back.items more
    refine ⟨by simp, ?_⟩
    rw [cons_of_head comma, later, itemTokens, commaSeparated_cons _ (itemTokens_ne_nil nonempty)]
    simp
  next =>
    split at found
    next closing =>
      cases found
      refine ⟨by simp, ?_⟩
      rw [itemTokens, itemTokens, commaSeparated, ← cons_of_head closing]
    next => cases found

theorem ReadsBack.members_succ {fuel : Nat} (back : ReadsBack fuel) {tokens rest : List Token}
    {members : List (JsonString × Value)} (found : readMembers (fuel + 1) tokens = some (members, rest)) :
    members ≠ [] ∧ tokens = commaSeparated (memberTokens members) ++ ['\x7d'] :: rest := by
  match tokens with
  | [] => cases found
  | [_] => cases found
  | name :: colon :: behind =>
    rw [readMembers] at found
    split at found
    next separated =>
      obtain ⟨string, named, found⟩ := Option.bind_eq_some_iff.mp found
      obtain ⟨⟨value, behind⟩, read, found⟩ := Option.bind_eq_some_iff.mp found
      dsimp only at found
      rw [separated, ← readString_sound named, back.value read]
      split at found
      next comma =>
        obtain ⟨⟨others, after⟩, more, same⟩ := Option.map_eq_some_iff.mp found
        cases same
        obtain ⟨nonempty, later⟩ := back.members more
        refine ⟨by simp, ?_⟩
        rw [cons_of_head comma, later, memberTokens, commaSeparated_cons _ (memberTokens_ne_nil nonempty)]
        simp
      next =>
        split at found
        next closing =>
          cases found
          refine ⟨by simp, ?_⟩
          rw [memberTokens, memberTokens, commaSeparated, List.cons_append, List.cons_append, ← cons_of_head closing]
        next => cases found
    next => cases found

theorem readsBack (fuel : Nat) : ReadsBack fuel := by
  induction fuel with
  | zero =>
    constructor
    · intro tokens value rest found
      cases found
    · intro tokens items rest found
      cases found
    · intro tokens members rest found
      cases found
  | succ fuel back => exact ⟨back.value_succ, back.items_succ, back.members_succ⟩

theorem literal_front (literal : Literal) :
    ∃ c others, literal.text = c :: others ∧ (c = '-' ∨ ∃ digit, c = digitChar digit) := by
  obtain ⟨digit, others, front⟩ := unsignedText_front literal []
  rw [List.append_nil] at front
  unfold Literal.text
  split
  · exact ⟨_, _, rfl, Or.inl rfl⟩
  · exact ⟨_, _, front, Or.inr ⟨digit, rfl⟩⟩

theorem literal_ne (literal : Literal) (c : Char) (others : List Char) (sign : c ≠ '-')
    (digits : ∀ digit, digitChar digit ≠ c) : literal.text ≠ c :: others := by
  obtain ⟨front, behind, text, minus | ⟨digit, same⟩⟩ := literal_front literal
  · rw [text, minus]
    intro equal
    exact sign (List.cons.inj equal).1.symm
  · rw [text, same]
    intro equal
    exact digits digit (List.cons.inj equal).1

theorem readScalar_number (literal : Literal) : readScalar literal.text = some (.number literal) := by
  unfold readScalar
  have quote : literal.text.head? ≠ some '"' := by
    intro front
    have opened : literal.text = '"' :: literal.text.tail := by
      cases text : literal.text with
      | nil => simp [text] at front
      | cons c others => simpa [text] using front
    exact literal_ne literal '"' _ (by decide) (by decide) opened
  have null : literal.text ≠ "null".toList := literal_ne literal 'n' _ (by decide) (by decide)
  have true_word : literal.text ≠ "true".toList := literal_ne literal 't' _ (by decide) (by decide)
  have false_word : literal.text ≠ "false".toList := literal_ne literal 'f' _ (by decide) (by decide)
  rw [if_neg null, if_neg true_word, if_neg false_word, if_neg quote, readNumber_text, Option.map_some]

theorem readScalar_string (string : JsonString) : readScalar string.text = some (.string string) := by
  unfold readScalar
  rw [if_neg (by simp [JsonString.text]), if_neg (by simp [JsonString.text]), if_neg (by simp [JsonString.text]),
    if_pos (by simp [JsonString.text]), readString_text, Option.map_some]

theorem tokens_front (value : Value) : ∃ token others, value.tokens = token :: others ∧ token ≠ [']'] := by
  cases value with
  | null => exact ⟨_, [], by rw [Value.tokens], by decide⟩
  | bool truth =>
    refine ⟨_, [], by rw [Value.tokens], ?_⟩
    cases truth <;> decide
  | number literal => exact ⟨_, [], by rw [Value.tokens], literal_ne literal ']' _ (by decide) (by decide)⟩
  | string string => exact ⟨_, [], by rw [Value.tokens], by simp [JsonString.text]⟩
  | array items => exact ⟨_, _, by rw [Value.tokens], by decide⟩
  | object members => exact ⟨_, _, by rw [Value.tokens], by decide⟩

theorem commaSeparated_front (first : List Token) (rest : List (List Token)) :
    ∃ others, commaSeparated (first :: rest) = first ++ others := by
  cases rest with
  | nil => exact ⟨[], by simp [commaSeparated]⟩
  | cons next rest => exact ⟨_, commaSeparated_cons first (by simp)⟩

/-- Whatever is written in front is read, if there is fuel for its tokens. -/
structure ReadsAll (fuel : Nat) : Prop where
  value : ∀ (value : Value) (rest : List Token), value.tokens.length ≤ fuel →
    readValue fuel (value.tokens ++ rest) = some (value, rest)
  items : ∀ (items : List Value) (rest : List Token), items ≠ [] →
    (commaSeparated (itemTokens items)).length < fuel →
    readItems fuel (commaSeparated (itemTokens items) ++ [']'] :: rest) = some (items, rest)
  members : ∀ (members : List (JsonString × Value)) (rest : List Token), members ≠ [] →
    (commaSeparated (memberTokens members)).length < fuel →
    readMembers fuel (commaSeparated (memberTokens members) ++ ['\x7d'] :: rest) = some (members, rest)

theorem readValue_scalar {fuel : Nat} {token : Token} {value : Value} (read : readScalar token = some value)
    (array : token ≠ ['[']) (object : token ≠ ['\x7b']) (rest : List Token) :
    readValue (fuel + 1) (token :: rest) = some (value, rest) := by
  rw [readValue, if_neg array, if_neg object, read, Option.map_some]

theorem ReadsAll.value_succ {fuel : Nat} (all : ReadsAll fuel) (value : Value) (rest : List Token)
    (enough : value.tokens.length ≤ fuel + 1) : readValue (fuel + 1) (value.tokens ++ rest) = some (value, rest) := by
  cases value with
  | null =>
    rw [Value.tokens]
    exact readValue_scalar rfl (by decide) (by decide) rest
  | bool truth =>
    rw [Value.tokens]
    cases truth
    · exact readValue_scalar rfl (by decide) (by decide) rest
    · exact readValue_scalar rfl (by decide) (by decide) rest
  | number literal =>
    rw [Value.tokens]
    exact readValue_scalar (readScalar_number literal) (literal_ne literal '[' _ (by decide) (by decide))
      (literal_ne literal '\x7b' _ (by decide) (by decide)) rest
  | string string =>
    rw [Value.tokens]
    exact readValue_scalar (readScalar_string string) (by simp [JsonString.text]) (by simp [JsonString.text]) rest
  | array items =>
    rw [Value.tokens] at enough ⊢
    rw [List.cons_append, List.append_assoc, readValue, if_pos rfl]
    cases items with
    | nil => rfl
    | cons item items =>
      obtain ⟨token, others, front, opened⟩ := tokens_front item
      obtain ⟨behind, separated⟩ := commaSeparated_front item.tokens (itemTokens items)
      have first : (commaSeparated (itemTokens (item :: items)) ++ ([[']']] ++ rest)).head? = some token := by
        rw [itemTokens, separated, front]
        rfl
      rw [if_neg (by simpa only [first, Option.some.injEq] using opened), List.singleton_append,
        all.items (item :: items) rest (by simp) (by simp only [List.length_cons, List.length_append] at enough; omega)]
      rfl
  | object members =>
    rw [Value.tokens] at enough ⊢
    rw [List.cons_append, List.append_assoc, readValue, if_neg (by decide), if_pos rfl]
    cases members with
    | nil => rfl
    | cons member members =>
      obtain ⟨name, value⟩ := member
      obtain ⟨behind, separated⟩ := commaSeparated_front (name.text :: [':'] :: value.tokens) (memberTokens members)
      have first : (commaSeparated (memberTokens ((name, value) :: members)) ++ ([['\x7d']] ++ rest)).head? =
          some name.text := by
        rw [memberTokens, separated]
        rfl
      rw [if_neg (by rw [first]; simp [JsonString.text]), List.singleton_append,
        all.members ((name, value) :: members) rest (by simp)
          (by simp only [List.length_cons, List.length_append] at enough; omega)]
      rfl

theorem readItems_last {fuel : Nat} {tokens rest : List Token} {item : Value}
    (read : readValue fuel tokens = some (item, [']'] :: rest)) :
    readItems (fuel + 1) tokens = some ([item], rest) := by
  rw [readItems, read]
  rfl

theorem readItems_more {fuel : Nat} {tokens rest : List Token} {item : Value}
    (read : readValue fuel tokens = some (item, [','] :: rest)) :
    readItems (fuel + 1) tokens = (readItems fuel rest).map fun found => (item :: found.1, found.2) := by
  rw [readItems, read]
  rfl

theorem readMembers_last {fuel : Nat} {tokens rest : List Token} (name : JsonString) {value : Value}
    (read : readValue fuel tokens = some (value, ['\x7d'] :: rest)) :
    readMembers (fuel + 1) (name.text :: [':'] :: tokens) = some ([(name, value)], rest) := by
  rw [readMembers, if_pos rfl, readString_text, Option.bind_some, read]
  rfl

theorem readMembers_more {fuel : Nat} {tokens rest : List Token} (name : JsonString) {value : Value}
    (read : readValue fuel tokens = some (value, [','] :: rest)) :
    readMembers (fuel + 1) (name.text :: [':'] :: tokens) =
      (readMembers fuel rest).map fun found => ((name, value) :: found.1, found.2) := by
  rw [readMembers, if_pos rfl, readString_text, Option.bind_some, read]
  rfl

theorem ReadsAll.items_succ {fuel : Nat} (all : ReadsAll fuel) (items : List Value) (rest : List Token)
    (nonempty : items ≠ []) (enough : (commaSeparated (itemTokens items)).length < fuel + 1) :
    readItems (fuel + 1) (commaSeparated (itemTokens items) ++ [']'] :: rest) = some (items, rest) := by
  match items with
  | [] => exact absurd rfl nonempty
  | [item] =>
    simp only [itemTokens, commaSeparated] at enough ⊢
    exact readItems_last (all.value item _ (by omega))
  | item :: next :: items =>
    rw [itemTokens, commaSeparated_cons _ (itemTokens_ne_nil (by simp))] at enough ⊢
    rw [List.length_append, List.length_cons] at enough
    rw [List.append_assoc, List.cons_append, readItems_more (all.value item _ (by omega)),
      all.items (next :: items) rest (by simp) (by omega)]
    rfl

theorem ReadsAll.members_succ {fuel : Nat} (all : ReadsAll fuel) (members : List (JsonString × Value))
    (rest : List Token) (nonempty : members ≠ [])
    (enough : (commaSeparated (memberTokens members)).length < fuel + 1) :
    readMembers (fuel + 1) (commaSeparated (memberTokens members) ++ ['\x7d'] :: rest) = some (members, rest) := by
  match members with
  | [] => exact absurd rfl nonempty
  | [(name, value)] =>
    simp only [memberTokens, commaSeparated, List.length_cons] at enough ⊢
    exact readMembers_last name (all.value value _ (by omega))
  | (name, value) :: next :: members =>
    rw [memberTokens, commaSeparated_cons _ (memberTokens_ne_nil (by simp))] at enough ⊢
    simp only [List.length_append, List.length_cons] at enough
    rw [List.append_assoc, List.cons_append, List.cons_append, List.cons_append,
      readMembers_more name (all.value value _ (by omega)), all.members (next :: members) rest (by simp) (by omega)]
    rfl

theorem readsAll (fuel : Nat) : ReadsAll fuel := by
  induction fuel with
  | zero =>
    constructor
    · intro value rest enough
      obtain ⟨token, others, front, _⟩ := tokens_front value
      simp [front] at enough
    · intro items rest _ enough
      cases enough
    · intro members rest _ enough
      cases enough
  | succ fuel all => exact ⟨all.value_succ, all.items_succ, all.members_succ⟩

/-! ## Tokens -/

def isBlank (c : Char) : Bool := c ∈ [' ', '\t', '\n', '\r']

def isMark (c : Char) : Bool := c ∈ ['[', ']', '\x7b', '\x7d', ',', ':']

def wordChar (c : Char) : Bool := !isBlank c && !isMark c && c != '"'

def cutToken (c : Char) (rest : List Char) : Option (Token × List Char) :=
  if isMark c then some ([c], rest)
  else if c = '"' then (quoted rest).map fun found => ('"' :: (found.1 ++ ['"']), found.2)
  else some (c :: rest.takeWhile wordChar, rest.dropWhile wordChar)

def cut : Nat → List Char → Option (List Token)
  | 0, _ => none
  | fuel + 1, text =>
      match text.dropWhile isBlank with
      | [] => some []
      | c :: rest => (cutToken c rest).bind fun found => (cut fuel found.2).map (found.1 :: ·)

theorem blank_takeWhile (text : List Char) : Blank (text.takeWhile isBlank) := by
  intro c member
  have blank := List.mem_takeWhile_imp member
  simpa [isBlank] using blank

theorem cutToken_sound {c : Char} {rest behind : List Char} {token : Token}
    (found : cutToken c rest = some (token, behind)) : c :: rest = token ++ behind := by
  unfold cutToken at found
  split at found
  · cases found
    rfl
  · split at found
    next quote =>
      obtain ⟨⟨raw, after⟩, scanned, same⟩ := Option.map_eq_some_iff.mp found
      cases same
      rw [quote, quoted_sound scanned]
      simp
    next =>
      cases found
      rw [List.cons_append, List.takeWhile_append_dropWhile]

/-- A text is a layout of the tokens it is cut into. -/
theorem cut_sound (fuel : Nat) {text : List Char} {tokens : List Token} (found : cut fuel text = some tokens) :
    Layout tokens text := by
  induction fuel generalizing text tokens with
  | zero => cases found
  | succ fuel ih =>
    have whole := List.takeWhile_append_dropWhile (p := isBlank) (l := text)
    rw [cut] at found
    split at found
    next nothing =>
      cases found
      rw [nothing, List.append_nil] at whole
      rw [← whole]
      exact .done (blank_takeWhile text)
    next c rest front =>
      obtain ⟨⟨token, behind⟩, first, later⟩ := Option.bind_eq_some_iff.mp found
      obtain ⟨others, more, rfl⟩ := Option.map_eq_some_iff.mp later
      rw [front, cutToken_sound first] at whole
      rw [← whole]
      exact .token (blank_takeWhile text) token (ih more)

inductive Shape : Token → Prop
  | mark {c : Char} (mark : isMark c = true) : Shape [c]
  | string (string : JsonString) : Shape string.text
  | word {c : Char} {rest : List Char} (chars : ∀ d ∈ c :: rest, wordChar d = true) : Shape (c :: rest)

def Mark (token : Token) : Prop := ∃ c, isMark c = true ∧ token = [c]

/-- Of two neighbours, one is a punctuation mark. -/
def Cuttable : List Token → Prop
  | [] => True
  | token :: rest => Shape token ∧ (Mark token ∨ ∀ next ∈ rest.head?, Mark next) ∧ Cuttable rest

def WordEnds (text : List Char) : Prop := ∀ c ∈ text.head?, wordChar c = false

theorem wordChar_of_blank {c : Char} (blank : c ∈ [' ', '\t', '\n', '\r']) : wordChar c = false := by
  have blank' : isBlank c = true := by simpa [isBlank] using blank
  rw [wordChar, blank']
  rfl

theorem wordChar_of_mark {c : Char} (mark : isMark c = true) : wordChar c = false := by
  rw [wordChar, mark, Bool.not_true, Bool.and_false, Bool.false_and]

theorem wordEnds_of_layout {tokens : List Token} {text : List Char} (layout : Layout tokens text)
    (marked : ∀ next ∈ tokens.head?, Mark next) : WordEnds text := by
  intro c front
  cases layout with
  | done blank => exact wordChar_of_blank (blank c (List.mem_of_mem_head? front))
  | token blank token rest =>
    rename_i gap others behind
    match gap with
    | [] =>
      obtain ⟨d, mark, rfl⟩ := marked _ rfl
      cases front
      exact wordChar_of_mark mark
    | space :: gap =>
      cases front
      exact wordChar_of_blank (blank _ List.mem_cons_self)

theorem cutToken_word {c : Char} {word behind : List Char} (chars : ∀ d ∈ c :: word, wordChar d = true)
    (ends : WordEnds behind) : cutToken c (word ++ behind) = some (c :: word, behind) := by
  have first := chars c List.mem_cons_self
  have others (d : Char) (member : d ∈ word) := chars d (List.mem_cons_of_mem c member)
  simp only [wordChar, Bool.and_eq_true, Bool.not_eq_true', bne_iff_ne, ne_eq] at first
  have stop : behind.takeWhile wordChar = [] ∧ behind.dropWhile wordChar = behind := by
    cases behind with
    | nil => exact ⟨rfl, rfl⟩
    | cons d behind =>
      have ended : ¬wordChar d = true := by
        rw [ends d rfl]
        exact Bool.false_ne_true
      exact ⟨List.takeWhile_cons_of_neg ended, List.dropWhile_cons_of_neg ended⟩
  rw [cutToken, first.1.2, if_neg Bool.false_ne_true, if_neg first.2, List.takeWhile_append_of_pos others,
    List.dropWhile_append_of_pos others, stop.1, stop.2, List.append_nil]

theorem cutToken_shape {token : Token} (shape : Shape token) {behind : List Char}
    (ends : Mark token ∨ WordEnds behind) :
    ∃ c rest, token ++ behind = c :: rest ∧ isBlank c = false ∧ cutToken c rest = some (token, behind) := by
  cases shape with
  | mark mark =>
    rename_i c
    refine ⟨c, behind, rfl, ?_, by rw [cutToken, mark, if_pos rfl]⟩
    simp only [isMark, List.mem_cons, List.not_mem_nil, or_false, decide_eq_true_eq] at mark
    rcases mark with rfl | rfl | rfl | rfl | rfl | rfl <;> decide
  | string string =>
    have scanned := quoted_raw string.unescaped behind
    refine ⟨'"', string.raw ++ '"' :: behind, by simp [JsonString.text], by decide, ?_⟩
    rw [cutToken, if_neg (by decide), if_pos rfl, scanned]
    rfl
  | word chars =>
    rename_i c word
    have first := chars c List.mem_cons_self
    refine ⟨c, word ++ behind, rfl, ?_, ?_⟩
    · simp only [wordChar, Bool.and_eq_true, Bool.not_eq_true'] at first
      exact first.1.1
    · apply cutToken_word chars
      rcases ends with ⟨d, mark, same⟩ | ends
      · cases same
        rw [wordChar_of_mark mark] at first
        cases first
      · exact ends

theorem cut_layout {tokens : List Token} {text : List Char} (layout : Layout tokens text) (cuttable : Cuttable tokens)
    {fuel : Nat} (enough : text.length < fuel) : cut fuel text = some tokens := by
  induction layout generalizing fuel with
  | done blank =>
    obtain ⟨fuel, rfl⟩ := Nat.exists_eq_succ_of_ne_zero (Nat.ne_of_gt (Nat.zero_lt_of_lt enough))
    have nothing := List.dropWhile_eq_nil_iff.mpr fun c member => (by simpa [isBlank] using blank c member : isBlank c = true)
    rw [cut, nothing]
  | token blank token rest ih =>
    rename_i gap others behind
    obtain ⟨fuel, rfl⟩ := Nat.exists_eq_succ_of_ne_zero (Nat.ne_of_gt (Nat.zero_lt_of_lt enough))
    obtain ⟨shape, neighbours, later⟩ := cuttable
    obtain ⟨c, text, front, solid, found⟩ := cutToken_shape shape (neighbours.imp_right (wordEnds_of_layout rest))
    have spaces (d : Char) (member : d ∈ gap) : isBlank d = true := by simpa [isBlank] using blank d member
    have dropped : (gap ++ (token ++ behind)).dropWhile isBlank = c :: text := by
      rw [List.dropWhile_append_of_pos spaces, front, List.dropWhile_cons_of_neg (by simp [solid])]
    have shorter : behind.length < fuel := by
      have lengths := congrArg List.length front
      simp only [List.length_append, List.length_cons] at lengths enough
      have some_char : token ≠ [] := by
        cases shape with
        | mark => simp
        | string string => simp [JsonString.text]
        | word => simp
      have positive := List.length_pos_iff.mpr some_char
      omega
    rw [cut, dropped]
    simp only [found, Option.bind_some, ih later shorter, Option.map_some]

theorem wordChar_digitChar (digit : Fin 10) : wordChar (digitChar digit) = true := by
  revert digit
  decide

theorem literalText_chars (literal : Literal) : ∀ c ∈ literal.text, wordChar c = true := by
  have digit_char (digits : List (Fin 10)) : ∀ c ∈ digitText digits, wordChar c = true := by
    intro c member
    obtain ⟨digit, _, rfl⟩ := List.mem_map.mp member
    exact wordChar_digitChar digit
  have exponent_char (exponent : Exponent) : ∀ c ∈ exponent.text, wordChar c = true := by
    intro c member
    rcases List.mem_cons.mp member with rfl | behind
    · cases exponent.upper <;> decide
    · rcases List.mem_append.mp behind with sign | digits
      · split at sign
        · exact List.mem_singleton.mp sign ▸ rfl
        · exact List.mem_singleton.mp sign ▸ rfl
        · cases sign
      · exact digit_char _ c digits
  have unsigned : ∀ c ∈ literal.unsignedText, wordChar c = true := by
    intro c member
    rcases List.mem_append.mp member with whole | behind
    · exact digit_char _ c whole
    · rcases List.mem_append.mp behind with fraction | exponent
      · unfold Literal.fractionText at fraction
        split at fraction
        · rcases List.mem_cons.mp fraction with rfl | digits
          · rfl
          · exact digit_char _ c digits
        · cases fraction
      · unfold Literal.exponentText at exponent
        split at exponent
        next scale _ => exact exponent_char scale c exponent
        next => cases exponent
  unfold Literal.text
  split
  · intro c member
    rcases List.mem_cons.mp member with rfl | behind
    · rfl
    · exact unsigned c behind
  · exact unsigned

theorem shape_number (literal : Literal) : Shape literal.text := by
  have chars := literalText_chars literal
  obtain ⟨c, others, front, _⟩ := literal_front literal
  rw [front] at chars ⊢
  exact .word chars

structure Behind (rest : List Token) : Prop where
  cuttable : Cuttable rest
  marked : ∀ next ∈ rest.head?, Mark next

theorem behind_nil : Behind [] := ⟨trivial, fun _ front => by cases front⟩

theorem Behind.mark {rest : List Token} (cuttable : Cuttable rest) {c : Char} (mark : isMark c = true) :
    Behind ([c] :: rest) := by
  refine ⟨⟨.mark mark, Or.inl ⟨c, mark, rfl⟩, cuttable⟩, ?_⟩
  intro next front
  exact ⟨c, mark, (Option.some.inj front).symm⟩

theorem Behind.scalar {rest : List Token} (behind : Behind rest) {token : Token} (shape : Shape token) :
    Cuttable ([token] ++ rest) := ⟨shape, Or.inr behind.marked, behind.cuttable⟩

mutual

theorem cuttable_value (value : Value) {rest : List Token} (behind : Behind rest) :
    Cuttable (value.tokens ++ rest) := by
  match value with
  | .null =>
    rw [Value.tokens]
    exact behind.scalar (show Shape ('n' :: ['u', 'l', 'l']) from .word (by simp [wordChar, isBlank, isMark]))
  | .bool truth =>
    rw [Value.tokens]
    cases truth
    · exact behind.scalar (show Shape ('f' :: ['a', 'l', 's', 'e']) from .word (by simp [wordChar, isBlank, isMark]))
    · exact behind.scalar (show Shape ('t' :: ['r', 'u', 'e']) from .word (by simp [wordChar, isBlank, isMark]))
  | .number literal =>
    rw [Value.tokens]
    exact behind.scalar (shape_number literal)
  | .string string =>
    rw [Value.tokens]
    exact behind.scalar (.string string)
  | .array items =>
    rw [Value.tokens, List.cons_append, List.append_assoc]
    exact (Behind.mark (cuttable_items items (Behind.mark behind.cuttable (by decide))) (by decide)).cuttable
  | .object members =>
    rw [Value.tokens, List.cons_append, List.append_assoc]
    exact (Behind.mark (cuttable_members members (Behind.mark behind.cuttable (by decide))) (by decide)).cuttable

theorem cuttable_items (items : List Value) {rest : List Token} (behind : Behind rest) :
    Cuttable (commaSeparated (itemTokens items) ++ rest) := by
  match items with
  | [] => exact behind.cuttable
  | [item] => exact cuttable_value item behind
  | item :: next :: items =>
    rw [itemTokens, commaSeparated_cons _ (itemTokens_ne_nil (by simp)), List.append_assoc, List.cons_append]
    exact cuttable_value item (Behind.mark (cuttable_items (next :: items) behind) (by decide))

theorem cuttable_members (members : List (JsonString × Value)) {rest : List Token} (behind : Behind rest) :
    Cuttable (commaSeparated (memberTokens members) ++ rest) := by
  match members with
  | [] => exact behind.cuttable
  | [(name, value)] =>
    have colon := Behind.mark (cuttable_value value behind) (show isMark ':' = true by decide)
    exact colon.scalar (.string name)
  | (name, value) :: next :: members =>
    have comma := Behind.mark (cuttable_members (next :: members) behind) (show isMark ',' = true by decide)
    have colon := Behind.mark (cuttable_value value comma) (show isMark ':' = true by decide)
    rw [memberTokens, commaSeparated_cons _ (memberTokens_ne_nil (by simp)), List.append_assoc, List.cons_append]
    exact colon.scalar (.string name)

end

/-! ## Texts -/

/-- The value of a text; `none` if it is no JSON. -/
def read (text : List Char) : Option Value :=
  (cut (text.length + 1) text).bind fun tokens =>
    ((readValue tokens.length tokens).filter fun found => found.2.isEmpty).map Prod.fst

/-- The reader inverts every layout and accepts nothing else; so a text is the layout of one value
at most. -/
theorem read_eq_some_iff {text : List Char} {value : Value} : read text = some value ↔ Layout value.tokens text := by
  constructor
  · intro found
    obtain ⟨tokens, cutting, found⟩ := Option.bind_eq_some_iff.mp found
    obtain ⟨⟨value, rest⟩, complete, rfl⟩ := Option.map_eq_some_iff.mp found
    obtain ⟨front, whole⟩ := Option.filter_eq_some_iff.mp complete
    dsimp only at whole
    rw [List.isEmpty_iff.mp whole] at front
    have tokens_eq := (readsBack tokens.length).value front
    rw [List.append_nil] at tokens_eq
    rw [← tokens_eq]
    exact cut_sound _ cutting
  · intro layout
    have cuttable := cuttable_value value behind_nil
    rw [List.append_nil] at cuttable
    have found := (readsAll value.tokens.length).value value [] le_rfl
    rw [List.append_nil] at found
    rw [read, cut_layout layout cuttable (Nat.lt_succ_self _), Option.bind_some, found]
    rfl

end SentinelLab.Library.Json
