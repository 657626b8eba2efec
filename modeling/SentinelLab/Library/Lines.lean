import Mathlib

/-! Text line by line, and the line on which a character of the text stands. -/

namespace SentinelLab.Library.Lines

/-- The lines that `std::getline` yields until it fails; a break at the end begins no line. -/
def getlines : List Char → List (List Char)
  | [] => []
  | '\n' :: rest => [] :: getlines rest
  | c :: rest =>
      match getlines rest with
      | line :: lines => (c :: line) :: lines
      | [] => [[c]]

theorem getlines_cons {c : Char} (inner : c ≠ '\n') (rest : List Char) :
    getlines (c :: rest) = match getlines rest with
      | line :: lines => (c :: line) :: lines
      | [] => [[c]] := by
  rw [getlines]
  exact inner

theorem getlines_break {line : List Char} (unbroken : '\n' ∉ line) (rest : List Char) :
    getlines (line ++ '\n' :: rest) = line :: getlines rest := by
  induction line with
  | nil => rfl
  | cons c line ih =>
    obtain ⟨inner, unbroken⟩ := not_or.mp (mt List.mem_cons.mpr unbroken)
    rw [List.cons_append, getlines_cons (Ne.symm inner), ih unbroken]

theorem getlines_single {line : List Char} (unbroken : '\n' ∉ line) (nonempty : line ≠ []) :
    getlines line = [line] := by
  induction line with
  | nil => exact absurd rfl nonempty
  | cons c line ih =>
    obtain ⟨inner, unbroken⟩ := not_or.mp (mt List.mem_cons.mpr unbroken)
    rw [getlines_cons (Ne.symm inner)]
    by_cases last : line = []
    · rw [last, getlines]
    · rw [ih unbroken last]

theorem getlines_append (lead rest : List Char) :
    getlines (lead ++ '\n' :: rest) = getlines (lead ++ ['\n']) ++ getlines rest := by
  induction lead with
  | nil => rfl
  | cons c lead ih =>
    by_cases inner : c = '\n'
    · rw [inner, List.cons_append, List.cons_append, getlines, getlines, ih, List.cons_append]
    · rw [List.cons_append, List.cons_append, getlines_cons inner, getlines_cons inner, ih]
      have some_line : getlines (lead ++ ['\n']) ≠ [] := by
        cases lead with
        | nil => exact List.cons_ne_nil _ _
        | cons first lead =>
          intro empty
          by_cases break_first : first = '\n'
          · rw [break_first, List.cons_append, getlines] at empty
            cases empty
          · rw [List.cons_append, getlines_cons break_first] at empty
            split at empty <;> cases empty
      match lines : getlines (lead ++ ['\n']) with
      | [] => exact absurd lines some_line
      | line :: others => rfl

/-! ## The line of a character -/

def lineStart (before : List Char) : List Char := before.rtakeWhile (· != '\n')

def linesBefore (before : List Char) : List (List Char) := getlines (before.rdropWhile (· != '\n'))

def lineEnd (after : List Char) : List Char := after.takeWhile (· != '\n')

def linesAfter (after : List Char) : List (List Char) := getlines ((after.dropWhile (· != '\n')).drop 1)

theorem break_notMem_lineStart (before : List Char) : '\n' ∉ lineStart before := by
  intro member
  have inner := List.mem_rtakeWhile_imp member
  revert inner
  decide

theorem break_notMem_lineEnd (after : List Char) : '\n' ∉ lineEnd after := by
  intro member
  have inner := List.mem_takeWhile_imp member
  revert inner
  decide

theorem getlines_from {line : List Char} (unbroken : '\n' ∉ line) (nonempty : line ≠ []) (after : List Char) :
    getlines (line ++ after) = (line ++ lineEnd after) :: linesAfter after := by
  have parts : after = lineEnd after ++ after.dropWhile (· != '\n') := List.takeWhile_append_dropWhile.symm
  have whole : '\n' ∉ line ++ lineEnd after := by
    intro member
    rcases List.mem_append.mp member with first | last
    · exact unbroken first
    · exact break_notMem_lineEnd after last
  rw [parts, ← List.append_assoc, ← parts]
  unfold linesAfter
  match tail : after.dropWhile (· != '\n') with
  | [] =>
    have lines := getlines_single whole (List.append_ne_nil_of_left_ne_nil nonempty _)
    rw [List.append_nil, lines, List.drop_nil, getlines]
  | c :: rest =>
    have stopped := List.head_dropWhile_not (· != '\n') (tail ▸ List.cons_ne_nil c rest)
    simp only [tail, List.head_cons, bne_eq_false_iff_eq] at stopped
    rw [stopped, getlines_break whole, List.drop_one, List.tail_cons]

/-- The lines of a text, around the one on which a character stands. -/
theorem getlines_at (before : List Char) {c : Char} (inner : c ≠ '\n') (after : List Char) :
    getlines (before ++ c :: after) =
      linesBefore before ++ (lineStart before ++ c :: lineEnd after) :: linesAfter after := by
  have parts : before.rdropWhile (· != '\n') ++ lineStart before = before := List.rdropWhile_append_rtakeWhile
  have unbroken : '\n' ∉ lineStart before ++ [c] := by
    intro member
    rcases List.mem_append.mp member with first | last
    · exact break_notMem_lineStart before first
    · exact inner (List.mem_singleton.mp last).symm
  have line : getlines (lineStart before ++ c :: after) =
      (lineStart before ++ c :: lineEnd after) :: linesAfter after := by
    have lines := getlines_from unbroken (List.append_ne_nil_of_right_ne_nil _ (List.cons_ne_nil c [])) after
    simpa only [List.append_assoc, List.cons_append, List.nil_append] using lines
  calc
    getlines (before ++ c :: after)
        = getlines (before.rdropWhile (· != '\n') ++ (lineStart before ++ c :: after)) := by
      rw [← List.append_assoc, parts]
    _ = linesBefore before ++ getlines (lineStart before ++ c :: after) := by
      unfold linesBefore
      rcases List.eq_nil_or_concat (before.rdropWhile (· != '\n')) with empty | ⟨lead, last, split⟩
      · rw [empty, List.nil_append, getlines, List.nil_append]
      · have stopped := List.rdropWhile_last_not (· != '\n') before (by rw [split]; simp)
        simp only [split, List.concat_eq_append, List.getLast_append_singleton, bne_iff_ne, not_not] at stopped
        rw [split, stopped, List.concat_eq_append, List.append_assoc, List.singleton_append, getlines_append]
    _ = _ := by rw [line]

end SentinelLab.Library.Lines
