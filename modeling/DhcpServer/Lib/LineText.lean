import Mathlib.Tactic.Common

/-!
# Texts of lines

A text that is printed line by line says what its lines are: each ends at the first newline.
-/

namespace Lib
set_option autoImplicit false

/-- No newline within. -/
def Unbroken (line : List Char) : Prop := '\n' ∉ line

instance (line : List Char) : Decidable (Unbroken line) := inferInstanceAs (Decidable ('\n' ∉ line))

/-- Each line with its newline. -/
def linesText (lines : List (List Char)) : List Char := lines.flatMap fun line => line ++ ['\n']

/-- A line as a function prints it that ends its text with a newline. -/
def IsLine (text : List Char) : Prop := ∃ line, Unbroken line ∧ text = line ++ ['\n']

section Lines
variable {line line' text rest rest' : List Char} {lines lines' : List (List Char)}

theorem linesText_cons : linesText (line :: lines) = line ++ '\n' :: linesText lines := by
  rw [linesText, List.flatMap_cons, List.append_assoc]
  rfl

theorem linesText_append : linesText (lines ++ lines') = linesText lines ++ linesText lines' := List.flatMap_append

theorem unbroken_append : Unbroken (line ++ line') ↔ Unbroken line ∧ Unbroken line' := by
  rw [Unbroken, List.mem_append, not_or]
  rfl

/-- The line of a text that is one. -/
theorem IsLine.dropLast (isLine : IsLine text) : Unbroken text.dropLast ∧ text = text.dropLast ++ ['\n'] := by
  obtain ⟨line, unbroken, rfl⟩ := isLine
  rw [List.dropLast_concat]
  exact ⟨unbroken, rfl⟩

theorem IsLine.eq_of_dropLast {text' : List Char} (isLine : IsLine text) (isLine' : IsLine text')
    (same : text.dropLast = text'.dropLast) : text = text' := by
  rw [isLine.dropLast.2, isLine'.dropLast.2, same]

/-- The first line is what stands in front of the first newline. -/
theorem first_line (unbroken : Unbroken line) (unbroken' : Unbroken line')
    (same : line ++ '\n' :: rest = line' ++ '\n' :: rest') : line = line' ∧ rest = rest' := by
  induction line generalizing line' with
  | nil =>
    cases line' with
    | nil => exact ⟨rfl, (List.cons.inj same).2⟩
    | cons c line' => exact absurd (List.mem_cons.mpr (Or.inl (List.cons.inj same).1)) unbroken'
  | cons c line ih =>
    cases line' with
    | nil => exact absurd (List.mem_cons.mpr (Or.inl (List.cons.inj same).1.symm)) unbroken
    | cons c' line' =>
      obtain ⟨rfl, behind⟩ := List.cons.inj same
      obtain ⟨rfl, after⟩ := ih (fun member => unbroken (List.mem_cons_of_mem c member))
        (fun member => unbroken' (List.mem_cons_of_mem c member)) behind
      exact ⟨rfl, after⟩

/-- **The lines are read back.** -/
theorem linesText_injective (unbroken : ∀ line ∈ lines, Unbroken line) (unbroken' : ∀ line ∈ lines', Unbroken line)
    (same : linesText lines = linesText lines') : lines = lines' := by
  induction lines generalizing lines' with
  | nil =>
    cases lines' with
    | nil => rfl
    | cons line' lines' =>
      rw [linesText_cons] at same
      exact absurd same.symm (by simp [linesText])
  | cons line lines ih =>
    obtain ⟨here, others⟩ := List.forall_mem_cons.mp unbroken
    cases lines' with
    | nil =>
      rw [linesText_cons] at same
      exact absurd same (by simp [linesText])
    | cons line' lines' =>
      obtain ⟨here', others'⟩ := List.forall_mem_cons.mp unbroken'
      rw [linesText_cons, linesText_cons] at same
      obtain ⟨rfl, rest⟩ := first_line here here' same
      rw [ih others others' rest]

end Lines

end Lib
