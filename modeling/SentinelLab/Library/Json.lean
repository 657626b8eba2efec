import Mathlib
import SentinelLab.Library.NumberText

/-! JSON: values with the text of their strings and numbers, the tokens of a value, its layouts, and
how the text of a member lies in a layout. -/

namespace SentinelLab.Library.Json

open SentinelLab.Library.NumberText

/-! ## Strings -/

def codeUnit (a b c d : Char) : Option Nat := do
  let digits ← [a, b, c, d].mapM hexDigit
  return value 16 digits

/-- What the text between two quotes says; `none` is no string. -/
def unescape : List Char → Option (List Nat)
  | [] => some []
  | '\\' :: 'u' :: a :: b :: c :: d :: rest => do
      let unit ← codeUnit a b c d
      let content ← unescape rest
      return unit :: content
  | '\\' :: mark :: rest => do
      let unit ← [('"', 34), ('\\', 92), ('/', 47), ('b', 8), ('f', 12), ('n', 10), ('r', 13), ('t', 9)].lookup mark
      let content ← unescape rest
      return unit :: content
  | c :: rest =>
      if c = '"' ∨ c = '\\' ∨ c.toNat < 32 then none
      else do
        let content ← unescape rest
        return c.toNat :: content

structure JsonString where
  raw : List Char
  content : List Nat
  unescaped : unescape raw = some content

def JsonString.text (string : JsonString) : List Char := '"' :: (string.raw ++ ['"'])

/-! ## Values -/

inductive Value where
  | null
  | bool (truth : Bool)
  | number (literal : Literal)
  | string (string : JsonString)
  | array (items : List Value)
  | object (members : List (JsonString × Value))

abbrev Token := List Char

def commaSeparated : List (List Token) → List Token
  | [] => []
  | [single] => single
  | first :: rest => first ++ [','] :: commaSeparated rest

mutual

def Value.tokens : Value → List Token
  | .null => ["null".toList]
  | .bool truth => [if truth then "true".toList else "false".toList]
  | .number literal => [literal.text]
  | .string string => [string.text]
  | .array items => ['['] :: (commaSeparated (itemTokens items) ++ [[']']])
  | .object members => ['\x7b'] :: (commaSeparated (memberTokens members) ++ [['\x7d']])

def itemTokens : List Value → List (List Token)
  | [] => []
  | item :: items => item.tokens :: itemTokens items

def memberTokens : List (JsonString × Value) → List (List Token)
  | [] => []
  | (name, value) :: members => (name.text :: [':'] :: value.tokens) :: memberTokens members

end

/-- The value of a name: of several members with one name, the last counts. -/
def Value.member (name : List Nat) : Value → Option Value
  | .object members => (members.reverse.find? fun member => member.1.content == name).map Prod.snd
  | _ => none

def Value.number? : Value → Option Literal
  | .number literal => some literal
  | _ => none

/-! ## Layouts -/

/-- Insignificant space. -/
def Blank (gap : List Char) : Prop := ∀ c ∈ gap, c ∈ [' ', '\t', '\n', '\r']

/-- The tokens in their order, with any space before, between and after them. -/
inductive Layout : List Token → List Char → Prop
  | done {gap : List Char} (blank : Blank gap) : Layout [] gap
  | token {gap : List Char} (blank : Blank gap) (token : Token) {tokens : List Token} {text : List Char}
      (rest : Layout tokens text) : Layout (token :: tokens) (gap ++ (token ++ text))

instance (gap : List Char) : Decidable (Blank gap) := List.decidableBAll _ _

def layOut (pieces : List (List Char × Token)) (final : List Char) : List Char :=
  pieces.flatMap (fun piece => piece.1 ++ piece.2) ++ final

theorem layout_layOut {pieces : List (List Char × Token)} {final : List Char}
    (blank : ∀ piece ∈ pieces, Blank piece.1) (final_blank : Blank final) :
    Layout (pieces.map Prod.snd) (layOut pieces final) := by
  induction pieces with
  | nil => exact .done final_blank
  | cons piece pieces ih =>
    have rest := ih fun other member => blank other (List.mem_cons_of_mem _ member)
    have text : layOut (piece :: pieces) final = piece.1 ++ (piece.2 ++ layOut pieces final) := by
      simp only [layOut, List.flatMap_cons, List.append_assoc]
    rw [text]
    exact .token (blank piece List.mem_cons_self) piece.2 rest

theorem layout_cons {token : Token} {tokens : List Token} {text : List Char} (layout : Layout (token :: tokens) text) :
    ∃ gap rest, text = gap ++ (token ++ rest) ∧ Blank gap ∧ Layout tokens rest := by
  cases layout with
  | token blank token rest => exact ⟨_, _, rfl, blank, rest⟩

theorem blank_nil : Blank [] := by
  intro c member
  cases member

theorem layout_blank {tokens : List Token} {text gap : List Char} (layout : Layout tokens text) (blank : Blank gap) :
    Layout tokens (text ++ gap) := by
  induction layout with
  | done margin =>
    apply Layout.done
    intro c member
    rcases List.mem_append.mp member with first | last
    · exact margin c first
    · exact blank c last
  | token margin token rest ih =>
    rw [List.append_assoc, List.append_assoc]
    exact .token margin token ih

theorem layout_append {before tokens : List Token} {text : List Char} (layout : Layout (before ++ tokens) text) :
    ∃ lead rest, text = lead ++ rest ∧ Layout before lead ∧ Layout tokens rest := by
  induction before generalizing text with
  | nil => exact ⟨[], text, rfl, .done blank_nil, layout⟩
  | cons token before ih =>
    obtain ⟨gap, behind, rfl, blank, layout⟩ := layout_cons layout
    obtain ⟨lead, rest, rfl, laid, layout⟩ := ih layout
    exact ⟨gap ++ (token ++ lead), rest, by simp only [List.append_assoc], .token blank token laid, layout⟩

def Closing (after : List Token) : Prop := after.head? = some [','] ∨ after.head? = some ['\x7d']

theorem Closing.append {after : List Token} (closing : Closing after) (more : List Token) : Closing (after ++ more) := by
  rcases closing with comma | brace
  · apply Or.inl
    rw [List.head?_append, comma]
    rfl
  · apply Or.inr
    rw [List.head?_append, brace]
    rfl

theorem layout_closing {after : List Token} {text : List Char} (closing : Closing after) (layout : Layout after text) :
    Ended text := by
  match after with
  | [] => exact absurd closing (by simp [Closing])
  | token :: others =>
    obtain ⟨gap, rest, rfl, blank, -⟩ := layout_cons layout
    intro c front
    match gap with
    | c' :: others =>
      obtain rfl : c' = c := Option.some.inj front
      have space := blank c' List.mem_cons_self
      simp only [List.mem_cons, List.not_mem_nil, or_false] at space ⊢
      tauto
    | [] =>
      rcases closing with comma | brace
      · obtain rfl : token = [','] := Option.some.inj comma
        obtain rfl : ',' = c := Option.some.inj front
        decide
      · obtain rfl : token = ['\x7d'] := Option.some.inj brace
        obtain rfl : '\x7d' = c := Option.some.inj front
        decide

/-! ## Members in a layout -/

theorem memberTokens_eq (members : List (JsonString × Value)) :
    memberTokens members = members.map fun member => member.1.text :: [':'] :: member.2.tokens := by
  induction members with
  | nil => rfl
  | cons member members ih => rw [memberTokens, ih, List.map_cons]

theorem commaSeparated_cons (first : List Token) {rest : List (List Token)} (more : rest ≠ []) :
    commaSeparated (first :: rest) = first ++ [','] :: commaSeparated rest := by
  match rest with
  | [] => exact absurd rfl more
  | _ :: _ => rfl

theorem commaSeparated_append (front : List (List Token)) (middle : List Token) (back : List (List Token)) :
    ∃ before after, commaSeparated (front ++ middle :: back) = before ++ (middle ++ after) ∧
      (after = [] ∨ after.head? = some [',']) := by
  induction front with
  | nil =>
    match back with
    | [] => exact ⟨[], [], by simp [commaSeparated], Or.inl rfl⟩
    | next :: back => exact ⟨[], [','] :: commaSeparated (next :: back), rfl, Or.inr rfl⟩
  | cons first front ih =>
    obtain ⟨before, after, split, follow⟩ := ih
    use first ++ [','] :: before, after
    constructor
    · rw [List.cons_append, commaSeparated_cons first (by simp), split]
      simp only [List.append_assoc, List.cons_append]
    · exact follow

theorem member_tokens {name : List Nat} {value inner : Value} (found : value.member name = some inner) :
    ∃ before, ∃ string : JsonString, ∃ after, value.tokens = before ++ (string.text :: [':'] :: (inner.tokens ++ after)) ∧
      string.content = name ∧ Closing after := by
  match value with
  | .object members =>
    obtain ⟨member, search, rfl⟩ := Option.map_eq_some_iff.mp found
    have named := List.find?_some search
    have among := List.mem_reverse.mp (List.mem_of_find?_eq_some search)
    obtain ⟨front, back, rfl⟩ := List.append_of_mem among
    obtain ⟨before, after, split, follow⟩ := commaSeparated_append
      (front.map fun member => member.1.text :: [':'] :: member.2.tokens)
      (member.1.text :: [':'] :: member.2.tokens)
      (back.map fun member => member.1.text :: [':'] :: member.2.tokens)
    use ['\x7b'] :: before, member.1, after ++ [['\x7d']]
    refine ⟨?_, eq_of_beq named, ?_⟩
    · rw [Value.tokens, memberTokens_eq, List.map_append, List.map_cons, split]
      simp only [List.append_assoc, List.cons_append]
    · rcases follow with rfl | comma
      · exact Or.inr rfl
      · exact Closing.append (Or.inl comma) _

def Value.setting (sectionName key : List Nat) (value : Value) : Option Literal :=
  (value.member sectionName).bind fun inner => (inner.member key).bind Value.number?

theorem setting_tokens {sectionName key : List Nat} {value : Value} {literal : Literal}
    (found : value.setting sectionName key = some literal) :
    ∃ before, ∃ name : JsonString, ∃ after,
      value.tokens = before ++ (name.text :: [':'] :: literal.text :: after) ∧ name.content = key ∧ Closing after := by
  obtain ⟨inner, outside, found⟩ := Option.bind_eq_some_iff.mp found
  obtain ⟨number, inside, found⟩ := Option.bind_eq_some_iff.mp found
  obtain ⟨before, string, after, outer, -, -⟩ := member_tokens outside
  obtain ⟨start, name, rest, within, named, closing⟩ := member_tokens inside
  match number with
  | .number other =>
    obtain rfl : other = literal := Option.some.inj found
    use before ++ string.text :: [':'] :: start, name, rest ++ after
    refine ⟨?_, named, closing.append after⟩
    rw [outer, within]
    simp only [Value.tokens, List.append_assoc, List.cons_append, List.nil_append]

/-- Where a member with the name `key` and the number `literal` stands in a layout of a value: the
text in front of its name, the spaces around its colon, and the text behind its number. -/
structure Place (value : Value) (key : List Nat) (literal : Literal) (text : List Char) where
  before : List Token
  name : JsonString
  after : List Token
  tokens : value.tokens = before ++ (name.text :: [':'] :: literal.text :: after)
  named : name.content = key
  closing : Closing after
  lead : List Char
  gap : List Char
  space : List Char
  rest : List Char
  text_eq : text = (lead ++ (name.text ++ gap)) ++ ':' :: (space ++ (literal.text ++ rest))
  laid : Layout before lead
  gap_blank : Blank gap
  space_blank : Blank space
  behind : Layout after rest

/-- Every layout of a value with the setting has a place for it. -/
theorem place_of_setting {sectionName key : List Nat} {value : Value} {literal : Literal} {text : List Char}
    (found : value.setting sectionName key = some literal) (layout : Layout value.tokens text) :
    Nonempty (Place value key literal text) := by
  obtain ⟨before, name, after, tokens, named, closing⟩ := setting_tokens found
  rw [tokens] at layout
  obtain ⟨start, behind, rfl, laid, layout⟩ := layout_append layout
  obtain ⟨margin, behind, rfl, margin_blank, layout⟩ := layout_cons layout
  obtain ⟨gap, behind, rfl, gap_blank, layout⟩ := layout_cons layout
  obtain ⟨space, rest, rfl, space_blank, layout⟩ := layout_cons layout
  exact ⟨{
    before, name, after, tokens, named, closing, gap, space, rest, gap_blank, space_blank
    lead := start ++ margin
    text_eq := by simp only [List.append_assoc, List.cons_append, List.nil_append]
    laid := layout_blank laid margin_blank
    behind := layout }⟩

theorem Place.ended {value : Value} {key : List Nat} {literal : Literal} {text : List Char}
    (place : Place value key literal text) : Ended place.rest :=
  layout_closing place.closing place.behind

end SentinelLab.Library.Json
