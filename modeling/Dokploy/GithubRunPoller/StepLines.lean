import Dokploy.Foundation.Numerals
import Dokploy.GithubRunPoller.Poller

namespace Dokploy
namespace GithubRunPoller

/-!
# The lines of a step

A step has one line for its start and one for its end.  The end line names the outcome
and, where both times are known, the duration.  The last words of a line tell what kind
of line it is, so a line belongs to one label only.

A log is read line by line, and a step line that is appended is one more line of it.
-/

inductive EndWord where
  | completed
  | failed
  | cancelled

def EndWord.text : EndWord -> String
  | .completed => "completed"
  | .failed => "failed"
  | .cancelled => "cancelled"

def EndWord.preposition : EndWord -> String
  | .completed => "in"
  | _ => "after"

def startedLine (base : String) : String := base ++ " started"

def endLine (base : String) (word : EndWord) : Option Nat -> String
  | none => base ++ " " ++ word.text
  | some seconds => base ++ " " ++ word.text ++ " " ++ word.preposition ++ " " ++ formatRunDuration seconds

def wordOf : Option String -> EndWord
  | none => .completed
  | some conclusion =>
      if conclusion = "success" then .completed else if conclusion ∈ FAILED_CONCLUSIONS then .failed else .cancelled

/-- A step that is over and was not skipped. -/
def IsOver (step : GithubRunStep) : Prop := step.status = "completed" ∧ step.conclusion ≠ some "skipped"

instance (step : GithubRunStep) : Decidable (IsOver step) := by
  unfold IsOver
  infer_instance

def labelOf (job : GithubRunJob) (step : GithubRunStep) : String := stepLabelPrefix job.name step.name

section Lines

variable (parseDate : String -> Option Int)

/-- The end line of a step as one read of the run has it. -/
def endLineOf (job : GithubRunJob) (step : GithubRunStep) : String :=
  endLine (labelOf job step) (wordOf step.conclusion) (secondsBetween parseDate step.startedAt step.completedAt)

theorem stepLines_of_over {job : GithubRunJob} {step : GithubRunStep} (isOver : IsOver step) :
    stepLines parseDate job step = [startedLine (labelOf job step), endLineOf parseDate job step] := by
  obtain ⟨completed, unskipped⟩ := isOver
  unfold stepLines
  simp only [completed, unskipped, ne_eq, not_true_eq_false, and_false, if_false]
  unfold endLineOf labelOf
  generalize stepLabelPrefix job.name step.name = base
  generalize secondsBetween parseDate step.startedAt step.completedAt = seconds
  split
  · rename_i isConclusion
    rw [isConclusion]
    cases seconds <;> simp [endLine, wordOf, EndWord.text, EndWord.preposition, startedLine, String.append_assoc]
  · rename_i isConclusion
    rw [isConclusion]
    cases seconds <;> simp [endLine, wordOf, EndWord.text, EndWord.preposition, startedLine, String.append_assoc]
  · rename_i conclusion notSuccess isConclusion
    rw [isConclusion]
    have isWord : wordOf (some conclusion) = if conclusion ∈ FAILED_CONCLUSIONS then .failed else .cancelled :=
      if_neg notSuccess
    rw [isWord]
    cases seconds <;> by_cases failed : conclusion ∈ FAILED_CONCLUSIONS <;>
      simp [endLine, failed, EndWord.text, EndWord.preposition, startedLine, String.append_assoc]

theorem stepLines_of_not_over {job : GithubRunJob} {step : GithubRunStep} (isOver : ¬ IsOver step) :
    stepLines parseDate job step = [] ∨ stepLines parseDate job step = [startedLine (labelOf job step)] := by
  unfold IsOver at isOver
  unfold stepLines
  split
  · exact Or.inl rfl
  · split
    · exact Or.inl rfl
    · rename_i unskipped
      have running : step.status ≠ "completed" := fun completed => isOver ⟨completed, unskipped⟩
      simp only [running, ne_eq, not_false_eq_true, if_true]
      exact Or.inr rfl

end Lines

theorem last_word {first second word other : List Char} (noSpace : ' ' ∉ word) (otherNoSpace : ' ' ∉ other)
    (same : first ++ ' ' :: word = second ++ ' ' :: other) : first = second ∧ word = other := by
  rcases List.append_eq_append_iff.mp same with ⟨middle, rfl, rest⟩ | ⟨middle, rfl, rest⟩
  · cases middle with
    | nil => exact ⟨(List.append_nil _).symm, (List.cons.inj rest).2⟩
    | cons char middle =>
      rw [List.cons_append] at rest
      exact absurd ((List.cons.inj rest).2 ▸ List.mem_append_right middle List.mem_cons_self) noSpace
  · cases middle with
    | nil => exact ⟨List.append_nil _, (List.cons.inj rest).2.symm⟩
    | cons char middle =>
      rw [List.cons_append] at rest
      exact absurd ((List.cons.inj rest).2 ▸ List.mem_append_right middle List.mem_cons_self) otherNoSpace

theorem duration_chars (seconds : Nat) {char : Char} (present : char ∈ (formatRunDuration seconds).toList) :
    char.isDigit = true ∨ char = 's' ∨ char = 'm' ∨ char = 'h' := by
  have digit {value : Nat} {char : Char} (among : char ∈ (toString value).toList) : char.isDigit = true :=
    Foundation.Numerals.isDigit_of_mem_decimal (by simpa [Foundation.Numerals.decimal] using among)
  have twoDigit {value : Nat} {char : Char} (among : char ∈ (twoDigits value).toList) : char.isDigit = true := by
    unfold twoDigits at among
    split at among
    · rw [String.toList_append, List.mem_append] at among
      rcases among with zero | among
      · rw [show char = '0' by simpa using zero]
        rfl
      · exact digit among
    · exact digit among
  unfold formatRunDuration at present
  split at present
  · rw [String.toList_append, List.mem_append] at present
    rcases present with among | isUnit
    · exact Or.inl (digit among)
    · exact Or.inr (Or.inl (by simpa using isUnit))
  · simp only at present
    split at present
    · simp only [String.toList_append, List.mem_append] at present
      rcases present with ((among | isUnit) | among) | isUnit
      · exact Or.inl (digit among)
      · exact Or.inr (Or.inr (Or.inl (by simpa using isUnit)))
      · exact Or.inl (twoDigit among)
      · exact Or.inr (Or.inl (by simpa using isUnit))
    · simp only [String.toList_append, List.mem_append] at present
      rcases present with ((among | isUnit) | among) | isUnit
      · exact Or.inl (digit among)
      · exact Or.inr (Or.inr (Or.inr (by simpa using isUnit)))
      · exact Or.inl (twoDigit among)
      · exact Or.inr (Or.inr (Or.inl (by simpa using isUnit)))

theorem not_mem_duration {char : Char} (noDigit : char.isDigit = false) (noUnit : char ≠ 's' ∧ char ≠ 'm' ∧ char ≠ 'h')
    (seconds : Nat) : char ∉ (formatRunDuration seconds).toList := by
  intro present
  rcases duration_chars seconds present with digit | unit | unit | unit
  · rw [noDigit] at digit
    cases digit
  · exact noUnit.1 unit
  · exact noUnit.2.1 unit
  · exact noUnit.2.2 unit

theorem endLine_none (base : String) (word : EndWord) :
    (endLine base word none).toList = base.toList ++ ' ' :: word.text.toList := by
  simp [endLine]

theorem endLine_some (base : String) (word : EndWord) (seconds : Nat) : (endLine base word (some seconds)).toList =
    (((base.toList ++ ' ' :: word.text.toList) ++ ' ' :: word.preposition.toList) ++
      ' ' :: (formatRunDuration seconds).toList) := by
  simp [endLine]

theorem startedLine_toList (base : String) : (startedLine base).toList = base.toList ++ ' ' :: "started".toList := by
  simp [startedLine]

theorem noSpace_text (word : EndWord) : ' ' ∉ word.text.toList := by
  cases word <;> decide +kernel

theorem noSpace_preposition (word : EndWord) : ' ' ∉ word.preposition.toList := by
  cases word <;> decide +kernel

theorem noSpace_duration (seconds : Nat) : ' ' ∉ (formatRunDuration seconds).toList :=
  not_mem_duration rfl (by decide) seconds

theorem duration_ne {word : List Char} (hasE : 'e' ∈ word) (seconds : Nat) : word ≠ (formatRunDuration seconds).toList := by
  rintro rfl
  exact not_mem_duration rfl (by decide) seconds hasE

theorem hasE_text (word : EndWord) : 'e' ∈ word.text.toList := by
  cases word <;> decide +kernel

theorem endLine_inj {base other : String} {word otherWord : EndWord} {seconds otherSeconds : Option Nat}
    (same : endLine base word seconds = endLine other otherWord otherSeconds) : base = other := by
  have sameText := congrArg String.toList same
  cases seconds with
  | none =>
    cases otherSeconds with
    | none =>
      rw [endLine_none, endLine_none] at sameText
      exact String.toList_inj.mp (last_word (noSpace_text word) (noSpace_text otherWord) sameText).1
    | some seconds =>
      rw [endLine_none, endLine_some] at sameText
      exact absurd (last_word (noSpace_text word) (noSpace_duration seconds) sameText).2 (duration_ne (hasE_text word) seconds)
  | some seconds =>
    cases otherSeconds with
    | none =>
      rw [endLine_none, endLine_some] at sameText
      exact absurd (last_word (noSpace_duration seconds) (noSpace_text otherWord) sameText).2.symm
        (duration_ne (hasE_text otherWord) seconds)
    | some otherSeconds =>
      rw [endLine_some, endLine_some] at sameText
      have first := (last_word (noSpace_duration seconds) (noSpace_duration otherSeconds) sameText).1
      have second := (last_word (noSpace_preposition word) (noSpace_preposition otherWord) first).1
      exact String.toList_inj.mp (last_word (noSpace_text word) (noSpace_text otherWord) second).1

theorem startedLine_ne_endLine (base other : String) (word : EndWord) (seconds : Option Nat) :
    startedLine base ≠ endLine other word seconds := by
  intro same
  have sameText := congrArg String.toList same
  rw [startedLine_toList] at sameText
  cases seconds with
  | none =>
    rw [endLine_none] at sameText
    have isWord := (last_word (by decide) (noSpace_text word) sameText).2
    cases word <;> exact absurd isWord (by decide)
  | some seconds =>
    rw [endLine_some] at sameText
    exact absurd (last_word (by decide) (noSpace_duration seconds) sameText).2 (duration_ne (by decide) seconds)

/-- An end line of a label, whatever the outcome and the duration. -/
def IsEnd (base line : String) : Prop := Exists fun word => Exists fun seconds => line = endLine base word seconds

def IsStepLine (line : String) : Prop :=
  Exists fun job => Exists fun step => line = startedLine (stepLabelPrefix job step) ∨ IsEnd (stepLabelPrefix job step) line

/-- The text of a log with one line more, as it is appended. -/
def appendLine (log line : String) : String := log ++ "\n" ++ line ++ "\n"

def appendLines (log : String) (lines : List String) : String := lines.foldl appendLine log

theorem loggedLinesOf_appendLine (log line : String) :
    loggedLinesOf (appendLine log line) = loggedLinesOf log ++ loggedLinesOf line := by
  have text : (appendLine log line).toList = log.toList ++ '\n' :: (line.toList ++ '\n' :: []) := by
    simp [appendLine]
  unfold loggedLinesOf
  rw [text, List.splitOn_append_cons_self, List.splitOn_append_cons_self, List.splitOn_nil]
  simp [trim]

theorem trim_eq {text : List Char} (first : forall char rest, text = char :: rest -> isWhiteSpace char = false)
    (last : forall char rest, text.reverse = char :: rest -> isWhiteSpace char = false) : trim text = text := by
  have unchanged {text : List Char} (first : forall char rest, text = char :: rest -> isWhiteSpace char = false) :
      text.dropWhile isWhiteSpace = text := by
    cases text with
    | nil => rfl
    | cons char rest => rw [List.dropWhile_cons, first char rest rfl]; rfl
  rw [trim, unchanged first, unchanged last, List.reverse_reverse]

theorem digit_solid {char : Char} (digit : char.isDigit = true) : isWhiteSpace char = false := by
  have range : 48 ≤ char.toNat ∧ char.toNat ≤ 57 := by
    simpa [Char.isDigit, UInt32.le_iff_toNat_le] using digit
  by_contra space
  simp [isWhiteSpace] at space
  omega

theorem duration_solid (seconds : Nat) {char : Char} (present : char ∈ (formatRunDuration seconds).toList) :
    isWhiteSpace char = false := by
  rcases duration_chars seconds present with digit | rfl | rfl | rfl
  · exact digit_solid digit
  · decide
  · decide
  · decide

theorem duration_ne_nil (seconds : Nat) : (formatRunDuration seconds).toList ≠ [] := by
  unfold formatRunDuration
  split
  · simp
  · simp only
    split <;> simp

theorem solid_of_any {word : List Char} (none : word.any isWhiteSpace = false) (char : Char) (among : char ∈ word) :
    isWhiteSpace char = false := by
  simpa using List.any_eq_false.mp none char among

theorem text_solid (word : EndWord) : forall char, char ∈ word.text.toList -> isWhiteSpace char = false :=
  solid_of_any (by cases word <;> decide)

theorem loggedLinesOf_line {line : String} {rest word : List Char} (text : line.toList = ('[' :: rest) ++ ' ' :: word)
    (noFeed : '\n' ∉ rest) (filled : word ≠ []) (solid : forall char, char ∈ word -> isWhiteSpace char = false) :
    loggedLinesOf line = [line] := by
  have wordNoFeed : '\n' ∉ word := fun present => absurd (solid _ present) (by decide)
  have whole : '\n' ∉ line.toList := by
    rw [text]
    simp [noFeed, wordNoFeed]
  have trimmed : trim line.toList = line.toList := by
    refine trim_eq (fun char other same => ?_) fun char other same => ?_
    · rw [text, List.cons_append] at same
      rw [← (List.cons.inj same).1]
      decide
    · have reversed : line.toList.reverse = word.reverse ++ ' ' :: ('[' :: rest).reverse := by
        rw [text]
        simp
      rw [reversed] at same
      obtain ⟨head, tail, isWord⟩ := List.exists_cons_of_ne_nil (fun empty => filled (List.reverse_eq_nil_iff.mp empty))
      rw [isWord, List.cons_append] at same
      rw [← (List.cons.inj same).1]
      exact solid head (List.mem_reverse.mp (isWord ▸ List.mem_cons_self))
  have nonempty : line.toList ≠ [] := by
    rw [text]
    exact List.cons_ne_nil _ _
  unfold loggedLinesOf
  rw [List.splitOn_eq_singleton whole, List.map_singleton, trimmed]
  simp [nonempty]

theorem label_text (job step : String) : Exists fun rest => (stepLabelPrefix job step).toList = '[' :: rest := by
  refine ⟨"GitHub Actions]".toList ++ (" " ++ job ++ " › " ++ step).toList, ?_⟩
  simp [stepLabelPrefix, GITHUB_LOG_PREFIX]

theorem loggedLinesOf_started {job step : String} (noFeed : '\n' ∉ (stepLabelPrefix job step).toList) :
    loggedLinesOf (startedLine (stepLabelPrefix job step)) = [startedLine (stepLabelPrefix job step)] := by
  obtain ⟨rest, isLabel⟩ := label_text job step
  refine loggedLinesOf_line ((startedLine_toList _).trans (by rw [isLabel])) ?_ (by decide) (solid_of_any (by decide))
  rw [isLabel] at noFeed
  exact fun present => noFeed (List.mem_cons_of_mem _ present)

theorem loggedLinesOf_ended {job step line : String} (noFeed : '\n' ∉ (stepLabelPrefix job step).toList)
    (isEnd : IsEnd (stepLabelPrefix job step) line) : loggedLinesOf line = [line] := by
  obtain ⟨rest, isLabel⟩ := label_text job step
  rw [isLabel] at noFeed
  have noFeedRest : '\n' ∉ rest := fun present => noFeed (List.mem_cons_of_mem _ present)
  obtain ⟨word, seconds, rfl⟩ := isEnd
  cases seconds with
  | none =>
    refine loggedLinesOf_line ((endLine_none _ word).trans (by rw [isLabel])) noFeedRest ?_ (text_solid word)
    cases word <;> decide +kernel
  | some seconds =>
    have text := endLine_some (stepLabelPrefix job step) word seconds
    rw [isLabel] at text
    refine loggedLinesOf_line text ?_ (duration_ne_nil seconds) fun _ => duration_solid seconds
    have noFeedText : '\n' ∉ word.text.toList := by cases word <;> decide
    have noFeedPreposition : '\n' ∉ word.preposition.toList := by cases word <;> decide
    simp [noFeedRest, noFeedText, noFeedPreposition]

theorem loggedLinesOf_appendLines (log : String) {lines : List String}
    (single : forall line, line ∈ lines -> loggedLinesOf line = [line]) :
    loggedLinesOf (appendLines log lines) = loggedLinesOf log ++ lines := by
  induction lines generalizing log with
  | nil => exact (List.append_nil _).symm
  | cons line rest ih =>
    have grown := ih (appendLine log line) fun other present => single other (List.mem_cons_of_mem line present)
    rw [loggedLinesOf_appendLine, single line List.mem_cons_self, List.append_assoc] at grown
    exact grown

end GithubRunPoller
end Dokploy
