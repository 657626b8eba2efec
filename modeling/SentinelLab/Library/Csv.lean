import Mathlib

/-! Comma-separated text: tables whose fields need no quotes, the text of a table, and how its
cells are found again. -/

namespace SentinelLab.Library.Csv

abbrev Field := List Char

/-- Printable ASCII, except for the separator and the quote. -/
def PlainChar (c : Char) : Prop := 32 ≤ c.toNat ∧ c.toNat < 127 ∧ c ≠ ',' ∧ c ≠ '\x22'

instance (c : Char) : Decidable (PlainChar c) := inferInstanceAs (Decidable (_ ∧ _ ∧ _ ∧ _))

def Plain (field : Field) : Prop := ∀ c ∈ field, PlainChar c

instance (field : Field) : Decidable (Plain field) := List.decidableBAll _ _

/-- A header and at least one row, all of one length, with plain fields. -/
structure Table where
  header : List Field
  rows : List (List Field)
  columns : 2 ≤ header.length
  named : [] ∉ header
  distinct : header.Nodup
  nonempty : rows ≠ []
  rectangular : ∀ row ∈ rows, row.length = header.length
  plain : ∀ row ∈ header :: rows, ∀ field ∈ row, Plain field

def Table.column (table : Table) (index : Nat) : List Field := table.rows.map fun row => row.getD index []

def line (row : List Field) : List Char := [','].intercalate row ++ ['\n']

def Table.text (table : Table) : List Char := (table.header :: table.rows).flatMap line

def cells (text : List Char) : List (List Field) :=
  (text.splitOn '\n').dropLast.map fun row => row.splitOn ','

theorem comma_notMem {field : Field} (plain : Plain field) : ',' ∉ field := by
  intro member
  have comma := plain ',' member
  exact comma.2.2.1 rfl

theorem newline_notMem {field : Field} (plain : Plain field) : '\n' ∉ field := by
  intro member
  have blank := (plain '\n' member).1
  revert blank
  decide

theorem mem_intercalate {sep c : Char} {row : List Field} (member : c ∈ [sep].intercalate row) :
    c = sep ∨ ∃ field ∈ row, c ∈ field := by
  induction row with
  | nil => cases member
  | cons field row ih =>
    by_cases alone : row = []
    · rw [alone, List.intercalate_singleton] at member
      exact Or.inr ⟨field, List.mem_cons_self, member⟩
    · rw [List.intercalate_cons_of_ne_nil alone, List.mem_append, List.mem_append] at member
      rcases member with (first | between) | later
      · exact Or.inr ⟨field, List.mem_cons_self, first⟩
      · exact Or.inl (List.mem_singleton.mp between)
      · rcases ih later with between | ⟨other, within, inside⟩
        · exact Or.inl between
        · exact Or.inr ⟨other, List.mem_cons_of_mem _ within, inside⟩

theorem newline_notMem_intercalate {row : List Field} (plain : ∀ field ∈ row, Plain field) :
    '\n' ∉ [','].intercalate row := by
  intro member
  rcases mem_intercalate member with comma | ⟨field, within, inside⟩
  · revert comma
    decide
  · exact newline_notMem (plain field within) inside

theorem splitOn_lines (rows : List (List Field)) (plain : ∀ row ∈ rows, ∀ field ∈ row, Plain field) :
    (rows.flatMap line).splitOn '\n' = rows.map [','].intercalate ++ [[]] := by
  induction rows with
  | nil => rfl
  | cons row rows ih =>
    have ended := newline_notMem_intercalate (plain row List.mem_cons_self)
    rw [List.flatMap_cons, line, List.append_assoc, List.singleton_append,
      List.splitOn_append_cons_self_of_not_mem ended,
      ih fun row member => plain row (List.mem_cons_of_mem _ member)]
    rfl

theorem cells_text (table : Table) : cells table.text = table.header :: table.rows := by
  have filled : ∀ row ∈ table.header :: table.rows, row ≠ [] := by
    intro row member empty
    have columns := table.columns
    rcases List.mem_cons.mp member with rfl | member
    · simp [empty] at columns
    · have long := table.rectangular row member
      rw [empty] at long
      rw [← long] at columns
      exact absurd columns (by decide)
  rw [cells, Table.text, splitOn_lines _ table.plain, List.dropLast_concat, List.map_map]
  calc (table.header :: table.rows).map _ = (table.header :: table.rows).map id := by
        apply List.map_congr_left
        intro row member
        apply List.splitOn_intercalate
        · intro field within
          exact comma_notMem (table.plain row member field within)
        · exact filled row member
    _ = table.header :: table.rows := List.map_id _

/-! ## Integer columns -/

def integer (number : Int) : Field := number.repr.toList

/-- The columns of integers that a reader found, by name. -/
abbrev DataFrame := Field → Option (List Int)

/-- A reader of comma-separated text with a header: a column whose every field is a 64-bit
integer is read as these integers. -/
def ReadsIntegers (readCsv : List Char → DataFrame) : Prop :=
  ∀ (table : Table) (index : Nat) (name : Field) (values : List Int),
    table.header[index]? = some name → table.column index = values.map integer →
    (∀ value ∈ values, -2 ^ 63 ≤ value ∧ value < 2 ^ 63) → readCsv table.text name = some values

def readIntegers (text : List Char) (name : Field) : Option (List Int) :=
  match cells text with
  | [] => none
  | header :: rows =>
    if name ∈ header then rows.mapM fun row => (String.ofList (row.getD (header.idxOf name) [])).toInt?
    else none

theorem readIntegers_reads : ReadsIntegers readIntegers := by
  intro table index name values found column _
  obtain ⟨inside, named⟩ := List.getElem?_eq_some_iff.mp found
  have position : table.header.idxOf name = index := by
    rw [← named]
    exact table.distinct.idxOf_getElem index inside
  have member : name ∈ table.header := List.mem_of_getElem? found
  have read : table.rows.mapM (fun row => (String.ofList (row.getD index [])).toInt?) =
      (table.column index).mapM fun field => (String.ofList field).toInt? := by
    rw [Table.column, List.mapM_map]
    rfl
  simp only [readIntegers, cells_text, if_pos member, position]
  calc _ = (values.map integer).mapM fun field => (String.ofList field).toInt? := by rw [read, column]
    _ = values.mapM fun value => (String.ofList (integer value)).toInt? := by
        rw [List.mapM_map]
        rfl
    _ = values.mapM some := by
        simp only [integer, String.ofList_toList, Int.toInt?_repr]
    _ = some values := by
        have pure := @List.mapM_pure Option _ _ _ _ values id
        simpa using pure

/-! ## Plain fields -/

theorem plainChar_of_isDigit {c : Char} (digit : c.isDigit) : PlainChar c := by
  have range : 48 ≤ c.toNat ∧ c.toNat ≤ 57 := by simpa [Char.isDigit, UInt32.le_iff_toNat_le] using digit
  refine ⟨by omega, by omega, ?_, ?_⟩
  · rintro rfl
    revert digit
    decide
  · rintro rfl
    revert digit
    decide

theorem plain_toDigits (number : Nat) : Plain (Nat.toDigits 10 number) := by
  intro c member
  exact plainChar_of_isDigit (Nat.isDigit_of_mem_toDigits (by decide) (by decide) member)

theorem plain_integer (number : Int) : Plain (integer number) := by
  rw [integer, Int.repr_eq_if]
  split
  · rw [Nat.toList_repr]
    exact plain_toDigits _
  · intro c member
    rw [String.toList_append, List.mem_append, Nat.toList_repr] at member
    rcases member with sign | digit
    · have minus : c = '-' := List.mem_singleton.mp sign
      rw [minus]
      decide
    · exact plain_toDigits _ c digit

end SentinelLab.Library.Csv
