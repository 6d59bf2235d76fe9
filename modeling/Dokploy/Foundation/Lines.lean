import Mathlib.Data.List.Basic
import Mathlib.Data.List.Infix
import Mathlib.Data.List.TakeWhile

namespace Dokploy
namespace Foundation

/-!
# Lines of a text

A line ends with a line break; what stands after the last one is not a line yet.
A text that was put together from lines is read back as them, and something
without a line break that occurs in a text occurs in one of its lines.
-/

namespace Lines

def join (lines : List (List Char)) : List Char := lines.flatMap fun line => line ++ ['\n']

/-- The lines of a text after what was read of the first of them. -/
def readFrom (line : List Char) : List Char -> List (List Char)
  | [] => []
  | char :: rest => if char = '\n' then line :: readFrom [] rest else readFrom (line ++ [char]) rest

def read (text : List Char) : List (List Char) := readFrom [] text

theorem readFrom_append (line start rest : List Char) (whole : '\n' ∉ start) :
    readFrom line (start ++ '\n' :: rest) = (line ++ start) :: read rest := by
  induction start generalizing line with
  | nil => simp [readFrom, read]
  | cons char start ih =>
      have other : char ≠ '\n' := fun same => whole (same ▸ List.mem_cons_self)
      rw [List.cons_append, readFrom, if_neg other,
        ih (line ++ [char]) fun member => whole (List.mem_cons_of_mem _ member), List.append_assoc]
      rfl

theorem read_cons {line rest : List Char} (whole : '\n' ∉ line) : read (line ++ '\n' :: rest) = line :: read rest :=
  readFrom_append [] line rest whole

theorem read_join (lines : List (List Char)) (whole : forall line, line ∈ lines -> '\n' ∉ line) :
    read (join lines) = lines := by
  induction lines with
  | nil => rfl
  | cons line lines ih =>
      have first : join (line :: lines) = line ++ '\n' :: join lines := by
        simp [join]
      rw [first, read_cons (whole line List.mem_cons_self),
        ih fun other member => whole other (List.mem_cons_of_mem _ member)]

theorem join_append (first second : List (List Char)) : join (first ++ second) = join first ++ join second :=
  List.flatMap_append

theorem readFrom_break (line start rest : List Char) :
    readFrom line (start ++ '\n' :: rest) = readFrom line (start ++ ['\n']) ++ read rest := by
  induction start generalizing line with
  | nil => simp [readFrom, read]
  | cons char start ih =>
      rw [List.cons_append, List.cons_append, readFrom, readFrom]
      split
      · rw [ih]
        rfl
      · exact ih _

theorem read_break (start rest : List Char) : read (start ++ '\n' :: rest) = read (start ++ ['\n']) ++ read rest :=
  readFrom_break [] start rest

theorem read_join_append (lines : List (List Char)) (whole : forall line, line ∈ lines -> '\n' ∉ line)
    (rest : List Char) : read (join lines ++ rest) = lines ++ read rest := by
  induction lines with
  | nil => rfl
  | cons line lines ih =>
      have first : join (line :: lines) ++ rest = line ++ '\n' :: (join lines ++ rest) := by
        simp [join]
      rw [first, read_cons (whole line List.mem_cons_self),
        ih fun other member => whole other (List.mem_cons_of_mem _ member)]
      rfl

theorem prefix_of_break {part start rest : List Char} (whole : '\n' ∉ part) (starts : part <+: start ++ '\n' :: rest) :
    part <+: start := by
  induction start generalizing part with
  | nil =>
      cases part with
      | nil => exact List.prefix_rfl
      | cons char part =>
          have same := (List.cons_prefix_cons.mp starts).1
          exact absurd (same ▸ List.mem_cons_self) whole
  | cons first start ih =>
      cases part with
      | nil => exact List.nil_prefix
      | cons char part =>
          rcases List.cons_prefix_cons.mp starts with ⟨rfl, more⟩
          have rest := ih (fun member => whole (List.mem_cons_of_mem _ member)) more
          exact List.cons_prefix_cons.mpr ⟨rfl, rest⟩

theorem infix_of_break {part start rest : List Char} (whole : '\n' ∉ part) (occurs : part <:+: start ++ '\n' :: rest) :
    part <:+: start ∨ part <:+: rest := by
  induction start with
  | nil =>
      rcases List.infix_cons_iff.mp occurs with starts | later
      · exact Or.inl (@prefix_of_break part [] rest whole starts).isInfix
      · exact Or.inr later
  | cons first start ih =>
      rcases List.infix_cons_iff.mp occurs with starts | later
      · exact Or.inl (@prefix_of_break part (first :: start) rest whole starts).isInfix
      · exact (ih later).imp_left fun inside => inside.trans (List.suffix_cons _ _).isInfix

end Lines

end Foundation
end Dokploy
