import Mathlib

/-! Descriptors of a process as a history of system calls tells them: which are open, and what each
of them was told since it was opened. -/

namespace SentinelLab.Library.Descriptors

/-- A system call on a descriptor, as far as it had an effect. -/
inductive Use (Command : Type) where
  | opened (fd : Nat)
  | closed (fd : Nat)
  | told (fd : Nat) (command : Command)
  | read (fd : Nat)
  deriving DecidableEq, Repr

/-- The open descriptors with the commands they were told, the latest last. -/
abbrev Table (Command : Type) : Type := Nat → Option (List Command)

variable {Command : Type} {table : Table Command} {fds : List Nat} {fd : Nat}

def Table.use (table : Table Command) : Use Command → Table Command
  | .opened fd => Function.update table fd (some [])
  | .closed fd => Function.update table fd none
  | .told fd command => Function.update table fd ((table fd).map (· ++ [command]))
  | .read _ => table

def Table.run (table : Table Command) (uses : List (Use Command)) : Table Command := uses.foldl Table.use table

/-- An opened descriptor is new, any other use is one of an open descriptor. -/
def Table.Allows (table : Table Command) : Use Command → Prop
  | .opened fd => table fd = none
  | .closed fd => (table fd).isSome
  | .told fd _ => (table fd).isSome
  | .read fd => (table fd).isSome

/-- Every use finds the table in a state that is right for it. -/
def Throughout (right : Table Command → Use Command → Prop) : Table Command → List (Use Command) → Prop
  | _, [] => True
  | table, use :: uses => right table use ∧ Throughout right (table.use use) uses

/-- Nothing is closed twice, opened while it is open, or used while it is not. -/
abbrev Orderly : Table Command → List (Use Command) → Prop := Throughout Table.Allows

theorem run_append (table : Table Command) (first second : List (Use Command)) :
    table.run (first ++ second) = (table.run first).run second := List.foldl_append

theorem throughout_append {right : Table Command → Use Command → Prop} (first second : List (Use Command)) :
    Throughout right table (first ++ second) ↔ Throughout right table first ∧ Throughout right (table.run first) second := by
  induction first generalizing table with
  | nil => exact (and_iff_right trivial).symm
  | cons use first ih =>
    rw [List.cons_append, Throughout, Throughout, ih, and_assoc]
    rfl

theorem throughout_of_all {right : Table Command → Use Command → Prop} {uses : List (Use Command)}
    (all : ∀ use ∈ uses, ∀ table, right table use) : Throughout right table uses := by
  induction uses generalizing table with
  | nil => trivial
  | cons use uses ih =>
    exact ⟨all use List.mem_cons_self table, ih fun other later => all other (List.mem_cons_of_mem _ later)⟩

theorem throughout_read {right : Table Command → Use Command → Prop} :
    Throughout right table (fds.map .read) ↔ ∀ fd ∈ fds, right table (.read fd) := by
  induction fds with
  | nil => simp [Throughout]
  | cons first fds ih =>
    rw [List.map_cons, Throughout, List.forall_mem_cons]
    exact and_congr Iff.rfl ih

/-! ## One kind of use of several descriptors -/

theorem run_opened : table.run (fds.map .opened) fd = if fd ∈ fds then some [] else table fd := by
  induction fds generalizing table with
  | nil => rfl
  | cons first fds ih =>
    change (table.use (.opened first)).run (fds.map .opened) fd = _
    rw [ih]
    by_cases same : fd = first
    · subst same
      simp [Table.use]
    · simp [Table.use, same]

theorem run_closed : table.run (fds.map .closed) fd = if fd ∈ fds then none else table fd := by
  induction fds generalizing table with
  | nil => rfl
  | cons first fds ih =>
    change (table.use (.closed first)).run (fds.map .closed) fd = _
    rw [ih]
    by_cases same : fd = first
    · subst same
      simp [Table.use]
    · simp [Table.use, same]

theorem run_read : table.run (fds.map .read) = table := by
  induction fds with
  | nil => rfl
  | cons first fds ih => exact ih

theorem run_told (nodup : fds.Nodup) (command : Command) :
    table.run (fds.map (Use.told · command)) fd = if fd ∈ fds then (table fd).map (· ++ [command]) else table fd := by
  induction fds generalizing table with
  | nil => rfl
  | cons first fds ih =>
    obtain ⟨new, nodup⟩ := List.nodup_cons.mp nodup
    change (table.use (.told first command)).run (fds.map (Use.told · command)) fd = _
    rw [ih nodup]
    by_cases same : fd = first
    · subst same
      simp [Table.use, new]
    · simp [Table.use, same]

theorem orderly_opened : Orderly table (fds.map .opened) ↔ fds.Nodup ∧ ∀ fd ∈ fds, table fd = none := by
  induction fds generalizing table with
  | nil => simp [Throughout]
  | cons first fds ih =>
    change table first = none ∧ Orderly (table.use (.opened first)) (fds.map .opened) ↔ _
    rw [ih, List.nodup_cons]
    constructor
    · rintro ⟨new, nodup, others⟩
      have apart : first ∉ fds := by
        intro again
        have absent := others first again
        simp [Table.use] at absent
      refine ⟨⟨apart, nodup⟩, ?_⟩
      intro fd member
      rcases List.mem_cons.mp member with rfl | later
      · exact new
      · have different : fd ≠ first := ne_of_mem_of_not_mem later apart
        have absent := others fd later
        simpa [Table.use, different] using absent
    · rintro ⟨⟨apart, nodup⟩, absent⟩
      refine ⟨absent first List.mem_cons_self, nodup, ?_⟩
      intro fd later
      have different : fd ≠ first := ne_of_mem_of_not_mem later apart
      simpa [Table.use, different] using absent fd (List.mem_cons_of_mem _ later)

theorem orderly_closed (nodup : fds.Nodup) (present : ∀ fd ∈ fds, (table fd).isSome) :
    Orderly table (fds.map .closed) := by
  induction fds generalizing table with
  | nil => trivial
  | cons first fds ih =>
    obtain ⟨apart, nodup⟩ := List.nodup_cons.mp nodup
    refine ⟨present first List.mem_cons_self, ih nodup ?_⟩
    intro fd later
    have different : fd ≠ first := ne_of_mem_of_not_mem later apart
    simpa [Table.use, different] using present fd (List.mem_cons_of_mem _ later)

theorem orderly_told (command : Command) (present : ∀ fd ∈ fds, (table fd).isSome) :
    Orderly table (fds.map (Use.told · command)) := by
  induction fds generalizing table with
  | nil => trivial
  | cons first fds ih =>
    refine ⟨present first List.mem_cons_self, ih ?_⟩
    intro fd later
    have before := present fd (List.mem_cons_of_mem _ later)
    by_cases same : fd = first
    · subst same
      simpa [Table.use] using before
    · simpa [Table.use, same] using before

end SentinelLab.Library.Descriptors
