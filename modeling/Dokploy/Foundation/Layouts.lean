import Mathlib.Algebra.GroupWithZero.Nat
import Mathlib.Data.List.Lex
import Mathlib.Order.Lex
import Mathlib.Data.Char

namespace Dokploy
namespace Foundation

/-!
# Numbers in columns

A record of numbers that is printed with every number padded to the width of its
column, and a fixed text after each, is ordered as text the way the record is
ordered: by the first number in which two records differ.  Sorting names that
carry such a text sorts what they were made from, and two records with one text are
one record.
-/

section Columns

/-- A number in a column: its last digits, with zeros before them. -/
def padded : Nat -> Nat -> List Char
  | 0, _ => []
  | width + 1, value => padded width (value / 10) ++ [Nat.digitChar (value % 10)]

/-- Numbers in their columns, each with the text that follows its column. -/
def layout : List (Nat × List Char) -> List Nat -> List Char
  | (width, text) :: columns, value :: values => padded width value ++ text ++ layout columns values
  | _, _ => []

/-- One number for each column, and no number wider than its column. -/
def Fits : List (Nat × List Char) -> List Nat -> Prop
  | (width, _) :: columns, value :: values => value < 10 ^ width ∧ Fits columns values
  | [], [] => True
  | _, _ => False

instance decidableFits : (columns : List (Nat × List Char)) -> (values : List Nat) -> Decidable (Fits columns values)
  | (width, _) :: columns, value :: values =>
      have := decidableFits columns values
      inferInstanceAs (Decidable (value < 10 ^ width ∧ Fits columns values))
  | [], [] => isTrue trivial
  | [], _ :: _ => isFalse id
  | _ :: _, [] => isFalse id

end Columns

section Order

variable {width left right : Nat} {columns : List (Nat × List Char)}

theorem length_padded (width value : Nat) : (padded width value).length = width := by
  induction width generalizing value with
  | zero => rfl
  | succ width ih => rw [padded, List.length_append, ih, List.length_singleton]

theorem append_lt_append {first second : List Char} (less : first < second) (same : first.length = second.length)
    (rest more : List Char) : first ++ rest < second ++ more := by
  induction first generalizing second with
  | nil =>
      rw [List.eq_nil_of_length_eq_zero same.symm] at less
      exact absurd less (List.not_lt_nil _)
  | cons char chars ih =>
      cases second with
      | nil => exact absurd less (List.not_lt_nil _)
      | cons other others =>
          rw [List.cons_append, List.cons_append, List.cons_lt_cons_iff]
          rcases List.cons_lt_cons_iff.mp less with smaller | ⟨equal, smaller⟩
          · exact Or.inl smaller
          · exact Or.inr ⟨equal, ih smaller (Nat.succ.inj same)⟩

theorem digitChar_lt (less : left < right) (small : right < 10) : Nat.digitChar left < Nat.digitChar right := by
  have first : (Nat.digitChar left).toNat = 48 + left := Nat.toNat_digitChar_of_lt_ten (less.trans small)
  have second : (Nat.digitChar right).toNat = 48 + right := Nat.toNat_digitChar_of_lt_ten small
  refine Char.lt_def.mpr (UInt32.lt_iff_toNat_lt.mpr ?_)
  change (Nat.digitChar left).toNat < (Nat.digitChar right).toNat
  omega

theorem padded_lt (less : left < right) (fits : right < 10 ^ width) : padded width left < padded width right := by
  induction width generalizing left right with
  | zero => omega
  | succ width ih =>
      rw [padded, padded]
      rcases Nat.lt_or_ge (left / 10) (right / 10) with smaller | notSmaller
      · have rest : right / 10 < 10 ^ width := by omega
        refine append_lt_append (ih smaller rest) ?_ _ _
        rw [length_padded, length_padded]
      · have equal : left / 10 = right / 10 := by omega
        have digits : left % 10 < right % 10 := by omega
        rw [equal]
        exact List.append_left_lt (List.cons_lt_cons_iff.mpr (Or.inl (digitChar_lt digits (Nat.mod_lt _ (by decide)))))

theorem length_layout {values : List Nat} (fits : Fits columns values) :
    (layout columns values).length = (columns.map fun column => column.1 + column.2.length).sum := by
  induction columns generalizing values with
  | nil =>
      cases values with
      | nil => rfl
      | cons _ _ => exact fits.elim
  | cons column columns ih =>
      cases values with
      | nil => exact fits.elim
      | cons value values =>
          rw [layout, List.length_append, List.length_append, length_padded, ih fits.2,
            List.map_cons, List.sum_cons]

theorem layout_lt {values others : List Nat} (fits : Fits columns values) (otherFits : Fits columns others)
    (less : values < others) : layout columns values < layout columns others := by
  induction columns generalizing values others with
  | nil =>
      cases values with
      | nil =>
          cases others with
          | nil => exact absurd less (List.not_lt_nil _)
          | cons _ _ => exact otherFits.elim
      | cons _ _ => exact fits.elim
  | cons column columns ih =>
      cases values with
      | nil => exact fits.elim
      | cons value values =>
          cases others with
          | nil => exact otherFits.elim
          | cons other others =>
              rw [layout, layout, List.append_assoc, List.append_assoc]
              rcases List.cons_lt_cons_iff.mp less with smaller | ⟨equal, smaller⟩
              · refine append_lt_append (padded_lt smaller otherFits.1) ?_ _ _
                rw [length_padded, length_padded]
              · rw [equal]
                exact List.append_left_lt (List.append_left_lt (ih fits.2 otherFits.2 smaller))

theorem layout_injective {values others : List Nat} (fits : Fits columns values) (otherFits : Fits columns others)
    (same : layout columns values = layout columns others) : values = others := by
  rcases lt_trichotomy values others with before | equal | after
  · exact absurd (same ▸ layout_lt fits otherFits before) (lt_irrefl _)
  · exact equal
  · exact absurd (same ▸ layout_lt otherFits fits after) (lt_irrefl _)

end Order

section Characters

variable {columns : List (Nat × List Char)}

theorem isDigit_of_mem_padded {width value : Nat} {char : Char} (member : char ∈ padded width value) :
    char.isDigit = true := by
  induction width generalizing value with
  | zero => exact absurd member List.not_mem_nil
  | succ width ih =>
      rcases List.mem_append.mp member with before | last
      · exact ih before
      · rw [List.mem_singleton.mp last]
        have small : value % 10 < 10 := Nat.mod_lt _ (by decide)
        rw [Nat.isDigit_digitChar, decide_eq_true small]

theorem mem_layout {values : List Nat} {char : Char} (member : char ∈ layout columns values) :
    char.isDigit = true ∨ Exists fun column => column ∈ columns ∧ char ∈ column.2 := by
  induction columns generalizing values with
  | nil => cases values <;> exact absurd member List.not_mem_nil
  | cons column columns ih =>
      cases values with
      | nil => exact absurd member List.not_mem_nil
      | cons value values =>
          rw [layout, List.append_assoc] at member
          rcases List.mem_append.mp member with digits | member
          · exact Or.inl (isDigit_of_mem_padded digits)
          · rcases List.mem_append.mp member with inText | member
            · exact Or.inr ⟨column, List.mem_cons_self, inText⟩
            · rcases ih member with digits | ⟨found, isColumn, inText⟩
              · exact Or.inl digits
              · exact Or.inr ⟨found, List.mem_cons_of_mem _ isColumn, inText⟩

theorem map_layout (change : Char -> Char) (keeps : forall char, char.isDigit = true -> change char = char)
    (columns : List (Nat × List Char)) (values : List Nat) :
    (layout columns values).map change = layout (columns.map fun column => (column.1, column.2.map change)) values := by
  induction columns generalizing values with
  | nil => cases values <;> rfl
  | cons column columns ih =>
      cases values with
      | nil => rfl
      | cons value values =>
          have digits : (padded column.1 value).map change = padded column.1 value := by
            rw [List.map_congr_left fun _ member => keeps _ (isDigit_of_mem_padded member), List.map_id']
          rw [List.map_cons, layout, layout, List.map_append, List.map_append, ih, digits]

end Characters

end Foundation
end Dokploy
