import Dokploy.Foundation.Splits
import Dokploy.Foundation.Unicode
import Mathlib.Data.List.Infix
import Mathlib.Data.List.TakeWhile

namespace Dokploy
namespace ScheduleRun

open Foundation (Units)
open Foundation.Unicode (utf16)

/-!
# The pid in the output of a run

The wrapper prints a line with the pid of the command before anything else.  The
output comes in chunks.  The line is looked for in everything that has come so far,
and it is cut out of the chunk in which it was found.
-/

def LINE_FEED : UInt16 := 10
def CARRIAGE_RETURN : UInt16 := 13

/-- ${SCHEDULE_PID_MARKER}= -/
def pidMarker : Units := utf16 "__DOKPLOY_SCHEDULE_PID__=".toList

def MAX_SCAN_LENGTH : Nat := 8192

/-- \d -/
def isDigit (unit : UInt16) : Bool := 48 ≤ unit.toNat && unit.toNat ≤ 57

/-- \r?\n -/
def readLineEnd : Units -> Option Units
  | [] => none
  | unit :: rest =>
      if unit = LINE_FEED then some rest
      else if unit = CARRIAGE_RETURN then
        match rest with
        | [] => none
        | second :: rest => if second = LINE_FEED then some rest else none
      else none

/-- The pid of a marker line at the front of a text, and what follows the line. -/
def readMarkerLine (text : Units) : Option (Units × Units) :=
  match text.dropPrefix? pidMarker with
  | none => none
  | some rest =>
      if rest.takeWhile isDigit = [] then none
      else (readLineEnd (rest.dropWhile isDigit)).map fun after => (rest.takeWhile isDigit, after)

/-- MARKER_LINE, from a place where a line starts or in the middle of one: the text before the
marker line, the pid and the text after the line. -/
def searchFrom : Bool -> Units -> Option (Units × Units × Units)
  | _, [] => none
  | starts, unit :: rest =>
      match (if starts then readMarkerLine (unit :: rest) else none) with
      | some (pid, after) => some ([], pid, after)
      | none => (searchFrom (unit == LINE_FEED) rest).map fun (before, found) => (unit :: before, found)

def search (text : Units) : Option (Units × Units × Units) := searchFrom true text

/-- chunk.replace(MARKER_LINE, "$1") -/
def withoutMarkerLine (chunk : Units) : Units :=
  match search chunk with
  | none => chunk
  | some (before, _, after) => before ++ after

structure Capture where
  pending : Units
  finished : Bool

/-- One chunk: the capture afterwards, what is returned, and the pid that is reported. -/
def Capture.feed (capture : Capture) (chunk : Units) : Capture × Units × Option Units :=
  if capture.finished then (capture, chunk, none)
  else
    let pending := capture.pending ++ chunk
    match search pending with
    | some (_, pid, _) => ({ pending := pending, finished := true }, withoutMarkerLine chunk, some pid)
    | none => ({ pending := pending, finished := decide (MAX_SCAN_LENGTH < pending.length) }, chunk, none)

/-- What is returned for each chunk, and the pids that are reported. -/
def Capture.feedAll (capture : Capture) : List Units -> List Units × List Units
  | [] => ([], [])
  | chunk :: chunks =>
      let (next, returned, pid) := capture.feed chunk
      let (others, pids) := next.feedAll chunks
      (returned :: others, pid.toList ++ pids)

def createSchedulePidCapture : Capture := { pending := [], finished := false }

inductive IsMarkerLine : Units -> Units -> Prop where
  | line {pid ending : Units} (some : pid ≠ []) (digits : forall unit, unit ∈ pid -> isDigit unit = true)
      (ends : ending = [] ∨ ending = [CARRIAGE_RETURN]) : IsMarkerLine (pidMarker ++ pid ++ ending ++ [LINE_FEED]) pid

theorem readLineEnd_iff {text after : Units} :
    readLineEnd text = some after <->
      Exists fun ending => (ending = [] ∨ ending = [CARRIAGE_RETURN]) ∧ text = ending ++ LINE_FEED :: after := by
  constructor
  · intro read
    cases text with
    | nil => cases read
    | cons unit rest =>
        simp only [readLineEnd] at read
        split at read
        · rename_i isEnd
          exact ⟨[], Or.inl rfl, by rw [isEnd, Option.some.inj read, List.nil_append]⟩
        · split at read
          · rename_i isReturn
            cases rest with
            | nil => cases read
            | cons second rest =>
                simp only at read
                split at read
                · rename_i isEnd
                  exact ⟨[CARRIAGE_RETURN], Or.inr rfl, by rw [isReturn, isEnd, Option.some.inj read, List.singleton_append]⟩
                · cases read
          · cases read
  · rintro ⟨ending, rfl | rfl, rfl⟩
    · simp [readLineEnd]
    · simp [readLineEnd, CARRIAGE_RETURN, LINE_FEED]

theorem readMarkerLine_iff {text pid after : Units} :
    readMarkerLine text = some (pid, after) <-> Exists fun line => IsMarkerLine line pid ∧ text = line ++ after := by
  constructor
  · intro read
    unfold readMarkerLine at read
    split at read
    · cases read
    · rename_i rest dropped
      rcases List.dropPrefix?_eq_some_iff.mp dropped with ⟨front, rfl, isMarker⟩
      cases eq_of_beq isMarker
      split at read
      · cases read
      · rename_i some
        rcases Option.map_eq_some_iff.mp read with ⟨rest', ended, same⟩
        cases same
        rcases readLineEnd_iff.mp ended with ⟨ending, ends, isRest⟩
        refine ⟨pidMarker ++ rest.takeWhile isDigit ++ ending ++ [LINE_FEED],
          .line some (fun unit member => List.mem_takeWhile_imp member) ends, ?_⟩
        rw [List.append_assoc, List.append_assoc, List.append_assoc, List.singleton_append, ← isRest,
          List.takeWhile_append_dropWhile]
  · rintro ⟨_, isMarker, rfl⟩
    cases isMarker with
    | @line pid ending some digits ends =>
        have dropped : (pidMarker ++ pid ++ ending ++ [LINE_FEED] ++ after).dropPrefix? pidMarker =
            .some (pid ++ (ending ++ LINE_FEED :: after)) := by
          rw [List.append_assoc, List.append_assoc, List.append_assoc, List.singleton_append]
          exact List.dropPrefix?_append_of_beq _ (beq_self_eq_true _)
        have stops : (ending ++ LINE_FEED :: after).takeWhile isDigit = [] ∧
            (ending ++ LINE_FEED :: after).dropWhile isDigit = ending ++ LINE_FEED :: after := by
          rcases ends with rfl | rfl
          · exact ⟨rfl, rfl⟩
          · exact ⟨rfl, rfl⟩
        have taken : (pid ++ (ending ++ LINE_FEED :: after)).takeWhile isDigit = pid := by
          rw [List.takeWhile_append_of_pos digits, stops.1, List.append_nil]
        have left : (pid ++ (ending ++ LINE_FEED :: after)).dropWhile isDigit = ending ++ LINE_FEED :: after := by
          rw [List.dropWhile_append_of_pos digits, stops.2]
        rw [readMarkerLine, dropped]
        simp only [taken, left, if_neg some]
        rw [readLineEnd_iff.mpr ⟨ending, ends, rfl⟩]
        rfl

theorem IsMarkerLine.whole {line pid : Units} (marks : IsMarkerLine line pid) :
    Exists fun body => line = body ++ [LINE_FEED] ∧ LINE_FEED ∉ body := by
  cases marks with
  | @line pid ending some digits ends =>
      refine ⟨pidMarker ++ pid ++ ending, rfl, fun member => ?_⟩
      simp only [List.mem_append] at member
      rcases member with (inMarker | inPid) | inEnding
      · exact absurd inMarker (by decide)
      · exact absurd (digits LINE_FEED inPid) (by decide)
      · rcases ends with rfl | rfl
        · exact absurd inEnding List.not_mem_nil
        · exact absurd inEnding (by decide)

theorem IsMarkerLine.not_suffix {start line pid other : Units} (marks : IsMarkerLine (start ++ line) pid)
    (also : IsMarkerLine line other) : start = [] := by
  have name : pidMarker = pidMarker.dropLast ++ [61] := by decide
  have once : forall pid ending : Units, (forall unit, unit ∈ pid -> isDigit unit = true) ->
      (ending = [] ∨ ending = [CARRIAGE_RETURN]) -> (61 : UInt16) ∉ pid ++ (ending ++ [LINE_FEED]) := by
    intro pid ending digits ends member
    simp only [List.mem_append] at member
    rcases member with inPid | inEnding | isEnd
    · exact absurd (digits 61 inPid) (by decide)
    · rcases ends with rfl | rfl
      · exact absurd inEnding List.not_mem_nil
      · exact absurd inEnding (by decide)
    · exact absurd isEnd (by decide)
  generalize shape : start ++ line = text at marks
  cases marks with
  | @line pid ending _ digits ends =>
      cases also with
      | @line other otherEnding _ otherDigits otherEnds =>
          rw [name] at shape
          have marked : (start ++ pidMarker.dropLast) ++ 61 :: (other ++ (otherEnding ++ [LINE_FEED])) =
              pidMarker.dropLast ++ 61 :: (pid ++ (ending ++ [LINE_FEED])) := by
            simpa using shape
          have same := Foundation.split_at_last (once other otherEnding otherDigits otherEnds) (once pid ending digits ends) marked
          exact List.append_left_eq_self.mp same.1

/-- A line, without its end, that reports no pid. -/
structure IsPlain (body : Units) : Prop where
  whole : LINE_FEED ∉ body
  plain : forall pid, ¬ IsMarkerLine (body ++ [LINE_FEED]) pid

def joined (lines : List Units) : Units := lines.flatMap (· ++ [LINE_FEED])

theorem joined_cons (body : Units) (lines : List Units) : joined (body :: lines) = body ++ LINE_FEED :: joined lines := by
  simp [joined]

def prepend (front : Units) (found : Units × Units × Units) : Units × Units × Units := (front ++ found.1, found.2)

variable {body : Units}

theorem searchFrom_false (whole : LINE_FEED ∉ body) (rest : Units) :
    searchFrom false (body ++ LINE_FEED :: rest) = (search rest).map (prepend (body ++ [LINE_FEED])) := by
  induction body with
  | nil =>
      simp only [List.nil_append, searchFrom, Bool.false_eq_true, if_false, beq_self_eq_true, search]
      rfl
  | cons unit body ih =>
      rcases List.ne_and_not_mem_of_not_mem_cons whole with ⟨other, whole⟩
      have inside : (unit == LINE_FEED) = false := beq_eq_false_iff_ne.mpr (Ne.symm other)
      rw [List.cons_append, searchFrom]
      simp only [Bool.false_eq_true, if_false, inside, ih whole, Option.map_map]
      rfl

theorem searchFrom_none {starts : Bool} {text : Units} (whole : LINE_FEED ∉ text) : searchFrom starts text = none := by
  induction text generalizing starts with
  | nil => cases starts <;> rfl
  | cons unit text ih =>
      have unmarked : (if starts then readMarkerLine (unit :: text) else none) = none := by
        split
        · cases read : readMarkerLine (unit :: text) with
          | none => rfl
          | some found =>
              rcases readMarkerLine_iff.mp read with ⟨line, marks, isLine⟩
              rcases marks.whole with ⟨body, rfl, _⟩
              exact absurd (isLine ▸ List.mem_append_left _ (List.mem_append_right _ List.mem_cons_self)) whole
        · rfl
      rw [searchFrom, unmarked]
      simp only
      rw [ih (List.ne_and_not_mem_of_not_mem_cons whole).2]
      rfl

theorem search_line (whole : LINE_FEED ∉ body) (rest : Units) :
    search (body ++ LINE_FEED :: rest) =
      match readMarkerLine (body ++ LINE_FEED :: rest) with
      | some (pid, after) => some ([], pid, after)
      | none => (search rest).map (prepend (body ++ [LINE_FEED])) := by
  cases body with
  | nil =>
      rw [List.nil_append, search, searchFrom, if_pos rfl]
      rfl
  | cons unit body =>
      rcases List.ne_and_not_mem_of_not_mem_cons whole with ⟨other, whole⟩
      have inside : (unit == LINE_FEED) = false := beq_eq_false_iff_ne.mpr (Ne.symm other)
      rw [List.cons_append, search, searchFrom, if_pos rfl, inside, searchFrom_false whole, Option.map_map]
      rfl

theorem readMarkerLine_plain (isPlain : IsPlain body) (rest : Units) :
    readMarkerLine (body ++ LINE_FEED :: rest) = none := by
  cases read : readMarkerLine (body ++ LINE_FEED :: rest) with
  | none => rfl
  | some found =>
      rcases readMarkerLine_iff.mp read with ⟨line, marks, isLine⟩
      rcases marks.whole with ⟨other, rfl, whole⟩
      rw [List.append_assoc, List.singleton_append] at isLine
      rw [← (Foundation.split_at_first isPlain.whole whole isLine).1] at marks
      exact absurd marks (isPlain.plain _)

theorem search_plain (isPlain : IsPlain body) (rest : Units) :
    search (body ++ LINE_FEED :: rest) = (search rest).map (prepend (body ++ [LINE_FEED])) := by
  rw [search_line isPlain.whole, readMarkerLine_plain isPlain]

theorem search_marker {line pid : Units} (marks : IsMarkerLine line pid) (rest : Units) :
    search (line ++ rest) = some ([], pid, rest) := by
  have read : readMarkerLine (line ++ rest) = some (pid, rest) := readMarkerLine_iff.mpr ⟨line, marks, rfl⟩
  rcases marks.whole with ⟨body, rfl, whole⟩
  rw [List.append_assoc, List.singleton_append] at read ⊢
  rw [search_line whole, read]

theorem search_joined {lines : List Units} (plain : forall body, body ∈ lines -> IsPlain body) (text : Units) :
    search (joined lines ++ text) = (search text).map (prepend (joined lines)) := by
  induction lines with
  | nil =>
      have same : prepend (joined []) = id := rfl
      rw [same, Option.map_id]
      rfl
  | cons body lines ih =>
      rw [joined_cons, List.append_assoc, List.cons_append, search_plain (plain body List.mem_cons_self),
        ih fun other member => plain other (List.mem_cons_of_mem _ member), Option.map_map]
      congr 1
      funext found
      simp [prepend]

theorem search_unfinished {lines : List Units} {line pid text more : Units} (plain : forall body, body ∈ lines -> IsPlain body)
    (marks : IsMarkerLine line pid) (some : more ≠ []) (parts : text ++ more = joined lines ++ line) : search text = none := by
  induction lines generalizing text with
  | nil =>
      rcases marks.whole with ⟨body, rfl, whole⟩
      rcases List.eq_nil_or_concat' more with rfl | ⟨start, last, rfl⟩
      · exact absurd rfl some
      · have closed : (text ++ start) ++ [last] = body ++ [LINE_FEED] := by
          rw [List.append_assoc]
          exact parts
        have same := (List.append_inj' closed rfl).1
        exact searchFrom_none fun member => whole (same ▸ List.mem_append_left _ member)
  | cons body lines ih =>
      rw [joined_cons, List.append_assoc, List.cons_append] at parts
      rcases Foundation.split_of_append parts with ⟨rest, rfl, isRest⟩ | ⟨skipped, isBody, _⟩
      · rw [search_plain (plain body List.mem_cons_self),
          ih (fun other member => plain other (List.mem_cons_of_mem _ member)) isRest.symm]
        rfl
      · refine searchFrom_none fun member => (plain body List.mem_cons_self).whole ?_
        rw [isBody]
        exact List.mem_append_left _ member

theorem search_some {text before pid after : Units} (found : search text = some (before, pid, after)) :
    Exists fun lines => Exists fun line => (forall body, body ∈ lines -> IsPlain body) ∧ IsMarkerLine line pid ∧
      before = joined lines ∧ text = joined lines ++ (line ++ after) := by
  induction size : text.length using Nat.strong_induction_on generalizing text before with
  | _ count ih =>
      by_cases ends : LINE_FEED ∈ text
      · rcases List.eq_append_cons_of_mem ends with ⟨body, rest, rfl, whole⟩
        rw [search_line whole] at found
        cases read : readMarkerLine (body ++ LINE_FEED :: rest) with
        | some first =>
            simp only [read, Option.some.injEq, Prod.mk.injEq] at found
            rcases found with ⟨rfl, rfl, rfl⟩
            rcases readMarkerLine_iff.mp read with ⟨line, marks, isLine⟩
            exact ⟨[], line, fun other member => absurd member List.not_mem_nil, marks, rfl, isLine⟩
        | none =>
            simp only [read] at found
            have isPlain : IsPlain body := by
              refine ⟨whole, fun other marks => ?_⟩
              have also : readMarkerLine (body ++ LINE_FEED :: rest) = some (other, rest) :=
                readMarkerLine_iff.mpr ⟨body ++ [LINE_FEED], marks, by simp⟩
              rw [read] at also
              cases also
            rcases Option.map_eq_some_iff.mp found with ⟨⟨front, others⟩, inRest, same⟩
            cases same
            have shorter : rest.length < count := by
              rw [← size, List.length_append, List.length_cons]
              omega
            rcases ih rest.length shorter inRest rfl with ⟨lines, line, plain, marks, rfl, rfl⟩
            refine ⟨body :: lines, line, List.forall_mem_cons.mpr ⟨isPlain, plain⟩, marks, ?_, ?_⟩
            · rw [joined_cons]
              simp
            · rw [joined_cons]
              simp
      · rw [search, searchFrom_none ends] at found
        cases found

/-- An output whose first marker line comes after less than the scanned length of other whole lines. -/
structure Output where
  lines : List Units
  line : Units
  pid : Units
  rest : Units
  plain : forall body, body ∈ lines -> IsPlain body
  marks : IsMarkerLine line pid
  short : (joined lines).length < MAX_SCAN_LENGTH

namespace Output

variable (output : Output)

def before : Units := joined output.lines

def text : Units := output.before ++ (output.line ++ output.rest)

/-- The pid is reported once, and what is returned is the output without its first marker line. -/
def CutOut (chunks : List Units) : Prop :=
  (createSchedulePidCapture.feedAll chunks).2 = [output.pid] ∧
    (createSchedulePidCapture.feedAll chunks).1.flatten = output.before ++ output.rest

/-- Where the chunk with the end of the marker line may begin, and what it may hold. -/
inductive Placed (earlier chunk : Units) : Prop where
  /-- The chunk has the whole line, and does not begin with another text that reads like one. -/
  | whole {front back : Units} (isBefore : output.before = earlier ++ front) (isChunk : chunk = front ++ (output.line ++ back))
      (clear : forall found pid rest, IsMarkerLine found pid -> front = found ++ rest -> rest = [] ∧ found = output.line)
  /-- The line is cut, and the same line follows. -/
  | again {start rest back : Units} (some : start ≠ []) (left : rest ≠ []) (isLine : output.line = start ++ rest)
      (isBefore : earlier = output.before ++ start) (isChunk : chunk = rest ++ (output.line ++ back))

/-- The marker line ends in a chunk that is well placed, and not too much came before that chunk. -/
def Fits (chunks : List Units) : Prop :=
  Exists fun earlier => Exists fun chunk => Exists fun later => chunks = earlier ++ chunk :: later ∧
    earlier.flatten.length ≤ MAX_SCAN_LENGTH ∧ output.Placed earlier.flatten chunk

end Output

theorem feedAll_finished (pending : Units) (chunks : List Units) :
    ({ pending := pending, finished := true } : Capture).feedAll chunks = (chunks, []) := by
  induction chunks with
  | nil => rfl
  | cons chunk chunks ih => simp [Capture.feedAll, Capture.feed, ih]

section Feeding

variable {output : Output} {pending more : Units} {earlier later : List Units}

theorem feedAll_quiet (some : more ≠ []) (parts : pending ++ earlier.flatten ++ more = output.before ++ output.line)
    (early : (pending ++ earlier.flatten).length ≤ MAX_SCAN_LENGTH) (chunks : List Units) :
    ({ pending := pending, finished := false } : Capture).feedAll (earlier ++ chunks) =
      (earlier ++ (({ pending := pending ++ earlier.flatten, finished := false } : Capture).feedAll chunks).1,
        (({ pending := pending ++ earlier.flatten, finished := false } : Capture).feedAll chunks).2) := by
  induction earlier generalizing pending with
  | nil => simp
  | cons chunk earlier ih =>
      rw [List.flatten_cons, ← List.append_assoc] at parts early ⊢
      have unfinished : search (pending ++ chunk) = none := by
        have left : earlier.flatten ++ more ≠ [] := by simp [some]
        refine search_unfinished output.plain output.marks left ?_
        rw [← List.append_assoc]
        exact parts
      have goesOn : decide (MAX_SCAN_LENGTH < (pending ++ chunk).length) = false := by
        rw [List.length_append] at early
        exact decide_eq_false (by omega)
      have next := ih parts early
      rw [List.cons_append, Capture.feedAll, Capture.feed, if_neg Bool.false_ne_true]
      simp only [unfinished, goesOn, next, Option.toList_none, List.nil_append, List.cons_append]

theorem feedAll_late (some : more ≠ []) (parts : pending ++ earlier.flatten ++ more = output.before ++ output.line)
    (early : pending.length ≤ MAX_SCAN_LENGTH) (late : MAX_SCAN_LENGTH < (pending ++ earlier.flatten).length)
    (chunks : List Units) :
    (({ pending := pending, finished := false } : Capture).feedAll (earlier ++ chunks)).2 = [] := by
  induction earlier generalizing pending with
  | nil =>
      rw [List.flatten_nil, List.append_nil] at late
      omega
  | cons chunk earlier ih =>
      rw [List.flatten_cons, ← List.append_assoc] at parts late
      have unfinished : search (pending ++ chunk) = none := by
        have left : earlier.flatten ++ more ≠ [] := by simp [some]
        refine search_unfinished output.plain output.marks left ?_
        rw [← List.append_assoc]
        exact parts
      rw [List.cons_append, Capture.feedAll, Capture.feed, if_neg Bool.false_ne_true]
      simp only [unfinished, Option.toList_none, List.nil_append]
      by_cases gone : MAX_SCAN_LENGTH < (pending ++ chunk).length
      · rw [decide_eq_true gone, feedAll_finished]
      · rw [decide_eq_false gone]
        exact ih parts (Nat.not_lt.mp gone) late

theorem search_output (back : Units) : search (output.before ++ (output.line ++ back)) = .some (output.before, output.pid, back) := by
  rw [Output.before, search_joined output.plain, search_marker output.marks]
  simp [prepend]

theorem feedAll_found {chunk back : Units} (isText : pending ++ chunk = output.before ++ (output.line ++ back)) :
    ({ pending := pending, finished := false } : Capture).feedAll (chunk :: later) =
      (withoutMarkerLine chunk :: later, [output.pid]) := by
  rw [Capture.feedAll, Capture.feed, if_neg Bool.false_ne_true]
  simp only [isText, search_output, feedAll_finished]
  rfl

end Feeding

section Placing

variable {output : Output}

theorem joined_suffix {lines : List Units} {front back : Units} (plain : forall body, body ∈ lines -> IsPlain body)
    (parts : joined lines = front ++ back) :
    back = [] ∨ Exists fun body => Exists fun others => back = body ++ LINE_FEED :: joined others ∧ LINE_FEED ∉ body ∧
      forall other, other ∈ others -> IsPlain other := by
  induction lines generalizing front with
  | nil => exact Or.inl (List.append_eq_nil_iff.mp parts.symm).2
  | cons body lines ih =>
      rcases List.forall_mem_cons.mp plain with ⟨isPlain, plain⟩
      rw [joined_cons] at parts
      rcases Foundation.split_of_append parts.symm with ⟨rest, isFront, isRest⟩ | ⟨skipped, isBody, isBack⟩
      · exact ih plain isRest
      · refine Or.inr ⟨skipped, lines, isBack, fun member => isPlain.whole ?_, plain⟩
        rw [isBody]
        exact List.mem_append_right _ member

theorem withoutMarkerLine_of {chunk before pid after : Units} (found : search chunk = some (before, pid, after)) :
    withoutMarkerLine chunk = before ++ after := by
  rw [withoutMarkerLine, found]

theorem joined_plain_nil {lines : List Units} {line pid rest : Units} (plain : forall body, body ∈ lines -> IsPlain body)
    (marks : IsMarkerLine line pid) {found : Units} (same : line ++ rest = joined lines ++ found) : lines = [] := by
  cases lines with
  | nil => rfl
  | cons body lines =>
      have isPlain := plain body List.mem_cons_self
      rcases marks.whole with ⟨other, rfl, whole⟩
      rw [joined_cons, List.append_assoc, List.append_assoc, List.singleton_append, List.cons_append] at same
      rw [(Foundation.split_at_first whole isPlain.whole same).1] at marks
      exact absurd marks (isPlain.plain _)

theorem cut_whole_iff {earlier front back : Units} (isBefore : output.before = earlier ++ front) :
    earlier ++ withoutMarkerLine (front ++ (output.line ++ back)) = output.before ++ back <->
      forall found pid rest, IsMarkerLine found pid -> front = found ++ rest -> rest = [] ∧ found = output.line := by
  rw [isBefore, List.append_assoc, List.append_cancel_left_eq]
  rcases joined_suffix output.plain isBefore with rfl | ⟨body, others, rfl, whole, plain⟩
  · rw [List.nil_append, withoutMarkerLine_of (search_marker output.marks back)]
    refine ⟨fun _ found pid rest marks isFront => ?_, fun _ => rfl⟩
    rcases marks.whole with ⟨other, rfl, _⟩
    simp at isFront
  · have tail : search (joined others ++ (output.line ++ back)) = some (joined others, output.pid, back) := by
      rw [search_joined plain, search_marker output.marks]
      simp [prepend]
    by_cases marks : Exists fun pid => IsMarkerLine (body ++ [LINE_FEED]) pid
    · rcases marks with ⟨pid, marks⟩
      have found := search_marker marks (joined others ++ (output.line ++ back))
      have chunk : body ++ LINE_FEED :: joined others ++ (output.line ++ back) =
          (body ++ [LINE_FEED]) ++ (joined others ++ (output.line ++ back)) := by simp
      rw [chunk, withoutMarkerLine_of found, List.nil_append]
      constructor
      · intro same found other rest isMarker isFront
        rcases isMarker.whole with ⟨otherBody, rfl, otherWhole⟩
        rw [List.append_assoc, List.singleton_append] at isFront
        rcases Foundation.split_at_first whole otherWhole isFront with ⟨rfl, rfl⟩
        have equal : (body ++ [LINE_FEED]) ++ joined others = joined others ++ output.line := by
          have parts : (joined others ++ output.line) ++ back = ((body ++ [LINE_FEED]) ++ joined others) ++ back := by
            simpa using same
          exact (List.append_cancel_right parts).symm
        cases joined_plain_nil plain marks equal
        exact ⟨rfl, by simpa [joined] using equal⟩
      · intro clear
        rcases clear (body ++ [LINE_FEED]) pid (joined others) marks (by simp) with ⟨none, same⟩
        rw [none, ← same]
        simp
    · have isPlain : IsPlain body := ⟨whole, fun pid marked => marks ⟨pid, marked⟩⟩
      have found : search (body ++ LINE_FEED :: joined others ++ (output.line ++ back)) =
          some (body ++ LINE_FEED :: joined others, output.pid, back) := by
        rw [List.append_assoc, List.cons_append, search_plain isPlain, tail]
        simp [prepend]
      rw [withoutMarkerLine_of found]
      refine ⟨fun _ found other rest isMarker isFront => ?_, fun _ => rfl⟩
      rcases isMarker.whole with ⟨otherBody, rfl, otherWhole⟩
      rw [List.append_assoc, List.singleton_append] at isFront
      rw [← (Foundation.split_at_first whole otherWhole isFront).1] at isMarker
      exact absurd ⟨other, isMarker⟩ marks

theorem cut_split_iff {start rest back : Units} (some : start ≠ []) (left : rest ≠ []) (isLine : output.line = start ++ rest) :
    (output.before ++ start) ++ withoutMarkerLine (rest ++ back) = output.before ++ back <->
      Exists fun after => back = output.line ++ after := by
  rw [List.append_assoc, List.append_cancel_left_eq]
  rcases output.marks.whole with ⟨body, whole, noEnd⟩
  rcases List.eq_nil_or_concat' rest with rfl | ⟨front, last, rfl⟩
  · exact absurd rfl left
  · rw [isLine, ← List.append_assoc] at whole
    have ends := List.append_inj' whole rfl
    cases (List.cons.inj ends.2).1
    have isPlain : IsPlain front := by
      refine ⟨fun member => noEnd (ends.1 ▸ List.mem_append_right _ member), fun pid marked => some ?_⟩
      have marks := output.marks
      rw [isLine] at marks
      exact marks.not_suffix marked
    have chunk : search (front ++ [LINE_FEED] ++ back) = (search back).map (prepend (front ++ [LINE_FEED])) := by
      rw [List.append_assoc, List.singleton_append, search_plain isPlain]
    cases found : search back with
    | none =>
        rw [found] at chunk
        rw [withoutMarkerLine, chunk]
        constructor
        · intro same
          have lengths := congrArg List.length same
          have positive := List.length_pos_of_ne_nil some
          simp only [Option.map_none, List.length_append] at lengths
          omega
        · rintro ⟨after, rfl⟩
          rw [search_marker output.marks] at found
          cases found
    | some first =>
        rcases first with ⟨before, pid, after⟩
        rcases search_some found with ⟨lines, line, plain, marks, rfl, isBack⟩
        rw [found] at chunk
        rw [withoutMarkerLine_of chunk, isLine]
        constructor
        · intro same
          rw [isBack] at same
          have equal : output.line ++ joined lines = joined lines ++ line := by
            have parts : (output.line ++ joined lines) ++ after = (joined lines ++ line) ++ after := by
              rw [isLine]
              simpa using same
            exact List.append_cancel_right parts
          cases joined_plain_nil plain output.marks equal
          have isSame : output.line = line := by simpa [joined] using equal
          exact ⟨after, by rw [isBack, ← isLine, isSame]; rfl⟩
        · rintro ⟨other, same⟩
          rw [← isLine] at same
          rw [same, search_marker output.marks] at found
          simp only [Option.some.injEq, Prod.mk.injEq] at found
          rcases found with ⟨none, _, rfl⟩
          rw [← none, same, isLine]
          simp

end Placing

theorem exists_chunk {chunks : List Units} {count : Nat} (some : 0 < count) (inside : count ≤ chunks.flatten.length) :
    Exists fun earlier => Exists fun chunk => Exists fun later => chunks = earlier ++ chunk :: later ∧
      earlier.flatten.length < count ∧ count ≤ (earlier.flatten ++ chunk).length := by
  induction chunks generalizing count with
  | nil =>
      rw [List.flatten_nil, List.length_nil] at inside
      omega
  | cons chunk chunks ih =>
      by_cases here : count ≤ chunk.length
      · exact ⟨[], chunk, chunks, rfl, some, by simpa using here⟩
      · rw [List.flatten_cons, List.length_append] at inside
        have later : 0 < count - chunk.length := by omega
        rcases ih later (by omega) with ⟨earlier, found, others, rfl, before, after⟩
        rw [List.length_append] at after
        refine ⟨chunk :: earlier, found, others, rfl, ?_, ?_⟩
        · rw [List.flatten_cons, List.length_append]
          omega
        · rw [List.flatten_cons, List.length_append, List.length_append]
          omega

section CuttingOut

variable {output : Output}

/-- The chunk in which the marker line ends, with what is left of the line in it. -/
structure EndsIn (output : Output) (earlier chunk left back : Units) : Prop where
  some : left ≠ []
  parts : earlier ++ left = output.before ++ output.line
  isChunk : chunk = left ++ back

theorem Output.Placed.endsIn {earlier chunk : Units} (placed : output.Placed earlier chunk) :
    Exists fun left => Exists fun back => EndsIn output earlier chunk left back := by
  rcases output.marks.whole with ⟨body, whole, _⟩
  cases placed with
  | @whole front back isBefore isChunk clear =>
      refine ⟨front ++ output.line, back, by simp [whole], ?_, ?_⟩
      · rw [isBefore, List.append_assoc]
      · rw [isChunk, List.append_assoc]
  | @again start rest back some left isLine isBefore isChunk =>
      refine ⟨rest, output.line ++ back, left, ?_, isChunk⟩
      rw [isBefore, isLine, List.append_assoc]

/-- The line is taken out of the chunk in which it ends exactly when that chunk is well placed. -/
theorem placed_iff {earlier chunk left back : Units} (ends : EndsIn output earlier chunk left back) :
    earlier ++ withoutMarkerLine chunk = output.before ++ back <-> output.Placed earlier chunk := by
  rcases ends with ⟨some, parts, rfl⟩
  rcases List.append_eq_append_iff.mp parts with ⟨front, isBefore, rfl⟩ | ⟨start, rfl, isLine⟩
  · rw [List.append_assoc, cut_whole_iff isBefore]
    refine ⟨fun clear => .whole isBefore rfl clear, fun placed => ?_⟩
    cases placed with
    | whole otherBefore _ clear =>
        rw [isBefore] at otherBefore
        cases List.append_cancel_left otherBefore
        exact clear
    | @again start rest other started _ _ isEarlier _ =>
        have lengths := congrArg List.length isEarlier
        have positive := List.length_pos_of_ne_nil started
        rw [isBefore, List.length_append, List.length_append] at lengths
        omega
  · by_cases started : start = []
    · subst started
      rw [List.nil_append] at isLine
      subst isLine
      have isBefore : output.before = (output.before ++ []) ++ [] := by simp
      have whole := @cut_whole_iff output (output.before ++ []) [] back isBefore
      rw [List.nil_append] at whole
      rw [whole]
      refine ⟨fun clear => .whole isBefore rfl clear, fun _ found pid rest marks isFront => ?_⟩
      rcases marks.whole with ⟨other, rfl, _⟩
      simp at isFront
    · rw [cut_split_iff started some isLine]
      constructor
      · rintro ⟨after, rfl⟩
        exact .again started some isLine rfl rfl
      · intro placed
        cases placed with
        | @whole front other isBefore _ _ =>
            have lengths := congrArg List.length isBefore
            have positive := List.length_pos_of_ne_nil started
            rw [List.length_append, List.length_append] at lengths
            omega
        | @again otherStart rest other _ _ otherLine isEarlier isChunk =>
            cases List.append_cancel_left isEarlier
            rw [isLine] at otherLine
            cases List.append_cancel_left otherLine
            exact ⟨other, List.append_cancel_left isChunk⟩

theorem cutOut_of_endsIn {earlier later : List Units} {chunk left back : Units}
    (ends : EndsIn output earlier.flatten chunk left back) (isRest : output.rest = back ++ later.flatten) :
    output.CutOut (earlier ++ chunk :: later) <->
      earlier.flatten.length ≤ MAX_SCAN_LENGTH ∧ earlier.flatten ++ withoutMarkerLine chunk = output.before ++ back := by
  have parts : [] ++ earlier.flatten ++ left = output.before ++ output.line := ends.parts
  by_cases early : earlier.flatten.length ≤ MAX_SCAN_LENGTH
  · have isText : ([] ++ earlier.flatten) ++ chunk = output.before ++ (output.line ++ back) := by
      rw [List.nil_append, ends.isChunk, ← List.append_assoc, ends.parts, List.append_assoc]
    have fed := feedAll_quiet ends.some parts early (chunk :: later)
    rw [feedAll_found isText] at fed
    rw [Output.CutOut, createSchedulePidCapture, fed, isRest]
    simp only [List.flatten_append, List.flatten_cons, true_and, early]
    rw [← List.append_assoc, ← List.append_assoc output.before, List.append_cancel_right_eq]
  · have none := feedAll_late ends.some parts (Nat.zero_le _) (Nat.not_le.mp early) (chunk :: later)
    rw [Output.CutOut, createSchedulePidCapture, none]
    exact ⟨fun cut => absurd cut.1 (by simp), fun both => absurd both.1 early⟩

/-- The pid is reported and its line cut out exactly when the chunks fit. -/
theorem cutOut_iff (output : Output) {chunks : List Units} (isOutput : chunks.flatten = output.text) :
    output.CutOut chunks <-> output.Fits chunks := by
  have restOf : forall {earlier later : List Units} {chunk left back : Units},
      (earlier ++ chunk :: later).flatten = output.text -> EndsIn output earlier.flatten chunk left back ->
        output.rest = back ++ later.flatten := by
    intro earlier later chunk left back isText ends
    rw [List.flatten_append, List.flatten_cons, ends.isChunk, List.append_assoc, ← List.append_assoc, ends.parts,
      Output.text, ← List.append_assoc output.before, List.append_cancel_left_eq] at isText
    exact isText.symm
  constructor
  · intro cut
    rcases output.marks.whole with ⟨body, whole, _⟩
    have some : 0 < (output.before ++ output.line).length := by
      rw [whole, List.length_append, List.length_append, List.length_singleton]
      omega
    have inside : (output.before ++ output.line).length ≤ chunks.flatten.length := by
      rw [isOutput, Output.text, ← List.append_assoc]
      simp
    rcases exists_chunk some inside with ⟨earlier, chunk, later, rfl, before, after⟩
    have text : earlier.flatten ++ (chunk ++ later.flatten) = (output.before ++ output.line) ++ output.rest := by
      rw [← List.flatten_cons, ← List.flatten_append, isOutput, Output.text, List.append_assoc]
    have isPrefix : earlier.flatten <+: output.before ++ output.line :=
      List.prefix_of_prefix_length_le ⟨_, text⟩ (List.prefix_append _ _) (Nat.le_of_lt before)
    rcases isPrefix with ⟨left, parts⟩
    have behind : chunk ++ later.flatten = left ++ output.rest := by
      rw [← parts, List.append_assoc, List.append_cancel_left_eq] at text
      exact text
    have fits : left <+: chunk := by
      refine List.prefix_of_prefix_length_le ⟨_, behind.symm⟩ (List.prefix_append _ _) ?_
      rw [← parts, List.length_append, List.length_append] at after
      omega
    rcases fits with ⟨back, isChunk⟩
    have ends : EndsIn output earlier.flatten chunk left back := by
      refine ⟨fun none => ?_, parts, isChunk.symm⟩
      rw [← parts, none, List.append_nil] at before
      exact Nat.lt_irrefl _ before
    rcases (cutOut_of_endsIn ends (restOf isOutput ends)).mp cut with ⟨early, same⟩
    exact ⟨earlier, chunk, later, rfl, early, (placed_iff ends).mp same⟩
  · rintro ⟨earlier, chunk, later, rfl, early, placed⟩
    rcases placed.endsIn with ⟨left, back, ends⟩
    exact (cutOut_of_endsIn ends (restOf isOutput ends)).mpr ⟨early, (placed_iff ends).mpr placed⟩

end CuttingOut

/-- A run whose first line reports the pid 12. -/
def exampleOutput : Output where
  lines := [utf16 "warning".toList]
  line := pidMarker ++ [49, 50] ++ [] ++ [LINE_FEED]
  pid := [49, 50]
  rest := utf16 "out\n".toList
  plain body member := by
    cases List.mem_singleton.mp member
    refine ⟨by decide, fun pid marks => ?_⟩
    have read : readMarkerLine (utf16 "warning".toList ++ [LINE_FEED] ++ []) = some (pid, []) :=
      readMarkerLine_iff.mpr ⟨_, marks, rfl⟩
    exact absurd read (by rw [(by decide : readMarkerLine (utf16 "warning".toList ++ [LINE_FEED] ++ []) = none)]; simp)
  marks := .line (by decide) (List.all_eq_true.mp (by decide)) (Or.inl rfl)
  short := by decide

/-- The chunk of the marker line holds it whole. -/
theorem exampleOutput_cutOut : exampleOutput.CutOut [exampleOutput.before, exampleOutput.line ++ exampleOutput.rest] := by
  refine (cutOut_iff exampleOutput (by decide)).mpr ⟨[exampleOutput.before], _, [], rfl, by decide,
    .whole (by decide : exampleOutput.before = _ ++ []) rfl fun found pid rest marks nothing => ?_⟩
  rcases marks.whole with ⟨body, rfl, _⟩
  simp at nothing

/-- A chunk that ends inside the marker line leaves the line in what is returned. -/
theorem split_line_kept : Exists fun output : Output => Exists fun chunks =>
    chunks.flatten = output.text ∧ ¬ output.CutOut chunks := by
  refine ⟨exampleOutput, [exampleOutput.before ++ pidMarker, [49, 50, LINE_FEED] ++ exampleOutput.rest], by decide, ?_⟩
  rw [Output.CutOut]
  decide

end ScheduleRun
end Dokploy
