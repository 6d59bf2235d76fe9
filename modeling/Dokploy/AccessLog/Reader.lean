import Dokploy.Foundation.JsonReading
import Dokploy.Foundation.Unicode
import Dokploy.GithubRunPoller.Progress

namespace Dokploy
namespace AccessLog

open Foundation (Json)
open Foundation.Unicode (read)
open GithubRunPoller (trim isWhiteSpace)

/-!
# Reading an access log backwards

The log is read in chunks from its end.  A chunk is scanned for line feeds from its end,
and what stands in front of the first of them is carried over to the chunk before it.
Whatever the chunks are, the lines come out in reverse order, each once, and the walk
stops at the first line that is older than it should be.

A date is the number of milliseconds, and none when it is invalid.  How a value becomes
a date is a parameter.
-/

abbrev Bytes := List UInt8
abbrev Text := List Char
abbrev Date := Option Int

def NEWLINE : UInt8 := 0x0a

def CHUNK_SIZE : Nat := 64 * 1024

def DOKPLOY_DASHBOARD_SERVICE : Text := "dokploy-service-app@file".toList

/-- `<` of two dates. -/
def Date.before : Date -> Date -> Bool
  | some first, some second => decide (first < second)
  | _, _ => false

structure AccessLogLine where
  line : Text
  entry : Json

inductive Verdict where
  | keep (line : AccessLogLine)
  | skip
  | cutoff

def serviceName (entry : Json) : Option Json := entry.field "ServiceName".toList

def startUTC (entry : Json) : Option Json := entry.field "StartUTC".toList

def time (entry : Json) : Option Json := entry.field "time".toList

def isText (text : Text) : Option Json -> Bool
  | some (.string other) => other == text
  | _ => false

/-- `value ?? other` -/
def orElse (other : Json) : Option Json -> Json
  | none | some .null => other
  | some value => value

/-- A text that begins and ends like an object. -/
def isBraced (line : Text) : Bool := line.head? == some '\x7b' && line.getLast? == some '\x7d'

section Walk

variable (dateOf : Option Json -> Date)

def loggedAt (entry : Json) : Date := dateOf (some (orElse (orElse (.string []) (startUTC entry)) (time entry)))

def classify (notBefore : Option Date) (raw : Bytes) : Verdict :=
  let line := trim (read raw)
  if !isBraced line then .skip
  else
    match Json.parse line with
    | none => .skip
    | some entry =>
        if isText DOKPLOY_DASHBOARD_SERVICE (serviceName entry) then .skip
        else
          match notBefore with
          | none => .keep ⟨line, entry⟩
          | some notBefore =>
              if loggedAt dateOf entry = none then .skip
              else if (loggedAt dateOf entry).before notBefore then .cutoff
              else .keep ⟨line, entry⟩

/-- Scan a buffer from an index to its front: the lines found, the last one first, and where the first of them
ends. -/
def scan (combined : Bytes) : Nat -> Nat -> List Bytes -> List Bytes × Nat
  | 0, stop, lines => (lines, stop)
  | index + 1, stop, lines =>
      if combined[index]? = some NEWLINE then scan combined index index (lines ++ [(combined.take stop).drop (index + 1)])
      else scan combined index stop lines

/-- What is yielded for lines, and whether the cutoff was reached. -/
def gather (verdict : Bytes -> Verdict) : List Bytes -> List AccessLogLine × Bool
  | [] => ([], false)
  | raw :: rest =>
      match verdict raw with
      | .keep line => (line :: (gather verdict rest).1, (gather verdict rest).2)
      | .skip => gather verdict rest
      | .cutoff => ([], true)

/-- The chunks in front of a position, with what was carried over.  Every read returns what was asked for. -/
def walk (verdict : Bytes -> Verdict) (log : Bytes) : Nat -> Nat -> Bytes -> List AccessLogLine
  | 0, _, _ => []
  | fuel + 1, position, pending =>
      if position = 0 then (if pending = [] then [] else (gather verdict [pending]).1)
      else
        let readSize := min CHUNK_SIZE position
        let position := position - readSize
        let combined := (log.drop position).take readSize ++ pending
        let (lines, stop) := scan combined combined.length combined.length []
        let (yielded, reachedCutoff) := gather verdict lines
        if reachedCutoff then yielded else yielded ++ walk verdict log fuel position (combined.take stop)

def iterateLogEntriesBackwards (log : Bytes) (notBefore : Option Date) : List AccessLogLine :=
  walk (classify dateOf notBefore) log (log.length + 1) log.length []

def DEFAULT_ENTRY_LIMIT : Nat := 500

def readLastLogEntries (log : Bytes) (limit : Nat) (notBefore : Option Date) : Text :=
  if limit = 0 then []
  else ['\n'].intercalate (((iterateLogEntriesBackwards dateOf log notBefore).take limit).reverse.map AccessLogLine.line)

end Walk

theorem scan_eq (combined : Bytes) {index stop : Nat} (lines : List Bytes) (ordered : index ≤ stop) (inside : stop ≤ combined.length)
    (plain : forall place, index ≤ place -> place < stop -> combined[place]? ≠ some NEWLINE) :
    Exists fun found => (scan combined index stop lines).1 = lines ++ found ∧
      (forall front : Bytes, (front ++ combined.take stop).splitOn NEWLINE =
        (front ++ combined.take (scan combined index stop lines).2).splitOn NEWLINE ++ found.reverse) ∧
      NEWLINE ∉ combined.take (scan combined index stop lines).2 := by
  induction index generalizing stop lines with
  | zero =>
    refine ⟨[], (List.append_nil _).symm, fun front => (List.append_nil _).symm, fun among => ?_⟩
    obtain ⟨place, isPlace⟩ := List.mem_iff_getElem?.mp among
    have below : place < stop := by
      by_contra beyond
      rw [scan, List.getElem?_take_eq_none (Nat.le_of_not_lt beyond)] at isPlace
      cases isPlace
    rw [scan, List.getElem?_take_of_lt below] at isPlace
    exact plain place (Nat.zero_le place) below isPlace
  | succ index ih =>
    rw [scan]
    split
    · rename_i isFeed
      obtain ⟨found, isFound, splits, noFeed⟩ := ih (lines ++ [(combined.take stop).drop (index + 1)]) (Nat.le_refl index) (by omega)
        fun place above below => absurd below (Nat.not_lt.mpr above)
      refine ⟨(combined.take stop).drop (index + 1) :: found, by rw [isFound, List.append_assoc]; rfl, fun front => ?_, noFeed⟩
      have isSlice : combined.take stop = combined.take index ++ NEWLINE :: (combined.take stop).drop (index + 1) := by
        have isAt : (combined.take stop)[index]? = some NEWLINE := by
          rw [List.getElem?_take_of_lt (by omega)]
          exact isFeed
        obtain ⟨within, isElement⟩ := List.getElem?_eq_some_iff.mp isAt
        have dropped := List.drop_eq_getElem_cons within
        rw [isElement] at dropped
        rw [← dropped]
        have isFront : combined.take index = (combined.take stop).take index := by
          rw [List.take_take, Nat.min_eq_left (by omega)]
        rw [isFront, List.take_append_drop]
      have isLine : NEWLINE ∉ (combined.take stop).drop (index + 1) := by
        intro among
        obtain ⟨place, isPlace⟩ := List.mem_iff_getElem?.mp among
        rw [List.getElem?_drop] at isPlace
        have below : index + 1 + place < stop := by
          by_contra beyond
          rw [List.getElem?_take_eq_none (Nat.le_of_not_lt beyond)] at isPlace
          cases isPlace
        rw [List.getElem?_take_of_lt below] at isPlace
        exact plain _ (Nat.le_add_right _ _) below isPlace
      calc (front ++ combined.take stop).splitOn NEWLINE
          = ((front ++ combined.take index) ++ NEWLINE :: (combined.take stop).drop (index + 1)).splitOn NEWLINE := by
            rw [List.append_assoc, ← isSlice]
        _ = (front ++ combined.take index).splitOn NEWLINE ++ ((combined.take stop).drop (index + 1)).splitOn NEWLINE :=
            List.splitOn_append_cons_self _ _
        _ = _ := by
            rw [List.splitOn_eq_singleton isLine, splits front, List.reverse_cons, List.append_assoc]
    · rename_i noFeedHere
      exact ih lines (by omega) inside fun place above below => by
        rcases Nat.eq_or_lt_of_le above with rfl | later
        · exact noFeedHere
        · exact plain place later below

section Gathering

variable {verdict : Bytes -> Verdict}

theorem gather_append (first second : List Bytes) : gather verdict (first ++ second) =
    if (gather verdict first).2 then gather verdict first
    else ((gather verdict first).1 ++ (gather verdict second).1, (gather verdict second).2) := by
  induction first with
  | nil => rfl
  | cons raw rest ih =>
    rw [List.cons_append, gather, gather]
    cases verdict raw with
    | keep line =>
      simp only [ih]
      split <;> rfl
    | skip => exact ih
    | cutoff => rfl

theorem walk_eq (empty : verdict [] = .skip) (log : Bytes) {fuel position : Nat} (enough : position < fuel) (inside : position ≤ log.length)
    {pending : Bytes} (plain : NEWLINE ∉ pending) :
    walk verdict log fuel position pending = (gather verdict ((log.take position ++ pending).splitOn NEWLINE).reverse).1 := by
  induction fuel generalizing position pending with
  | zero => exact absurd enough (Nat.not_lt_zero _)
  | succ fuel ih =>
    rw [walk]
    split
    · rename_i atStart
      rw [atStart, List.take_zero, List.nil_append, List.splitOn_eq_singleton plain, List.reverse_singleton]
      split
      · rename_i isEmpty
        rw [isEmpty, gather, empty]
        rfl
      · rfl
    · rename_i notStart
      simp only
      generalize isSize : min CHUNK_SIZE position = readSize
      have size : 0 < readSize ∧ readSize ≤ position := by
        have chunk : 0 < CHUNK_SIZE := by decide
        omega
      generalize isCombined : (log.drop (position - readSize)).take readSize ++ pending = combined
      obtain ⟨found, isFound, splits, noFeed⟩ := scan_eq combined [] (Nat.le_refl _) (Nat.le_refl _)
        fun place above below => absurd below (Nat.not_lt.mpr above)
      rw [List.nil_append] at isFound
      have isTaken : log.take position ++ pending = log.take (position - readSize) ++ combined.take combined.length := by
        rw [List.take_length, ← isCombined, ← List.append_assoc]
        have isPosition : position = position - readSize + readSize := by omega
        conv_lhs => rw [isPosition, List.take_add]
      rw [isTaken, splits, List.reverse_append, List.reverse_reverse, gather_append, isFound]
      split
      · rfl
      · rw [ih (by omega) (by omega) noFeed]

end Gathering

/-- The lines of a log as they stand in the file. -/
def rawLines (log : Bytes) : List Bytes := log.splitOn NEWLINE

/-- A line that is, trimmed, an object, and no request to the dashboard. -/
def entryOf (raw : Bytes) : Option AccessLogLine :=
  match Json.parse (trim (read raw)) with
  | some (.object fields) =>
      if isText DOKPLOY_DASHBOARD_SERVICE (serviceName (.object fields)) then none else some ⟨trim (read raw), .object fields⟩
  | _ => none

def entries (log : Bytes) : List AccessLogLine := (rawLines log).filterMap entryOf

variable {char : Char}

theorem quiet_of_isWhiteSpace (isSpace : isWhiteSpace char = true) : Json.quiet char = true := by
  have number : (9 ≤ char.toNat ∧ char.toNat ≤ 13) ∨ char.toNat = 0x20 ∨ 0xA0 ≤ char.toNat := by
    simp [isWhiteSpace] at isSpace
    omega
  have above {low high : Char} (outside : char.toNat < low.toNat ∨ high.toNat < char.toNat) :
      (decide (low ≤ char) && decide (char ≤ high)) = false := by
    rw [Bool.and_eq_false_iff, decide_eq_false_iff_not, decide_eq_false_iff_not]
    rcases outside with below | beyond
    · exact Or.inl (Nat.not_le.mpr below)
    · exact Or.inr (Nat.not_le.mpr beyond)
  have noMark : "\"\\/,:[]\x7b\x7d+-.".toList.contains char = false := by
    have marks : "\"\\/,:[]\x7b\x7d+-.".toList.all (fun mark => 0x20 < mark.toNat && mark.toNat < 0xA0) = true := by decide
    refine Bool.eq_false_iff.mpr fun among => ?_
    have between := List.all_eq_true.mp marks char (List.contains_iff_mem.mp among)
    rw [Bool.and_eq_true, decide_eq_true_eq, decide_eq_true_eq] at between
    omega
  unfold Json.quiet
  rw [noMark, above, above, above]
  · rfl
  · have low : 'A'.toNat = 65 := rfl
    have high : 'Z'.toNat = 90 := rfl
    omega
  · have low : 'a'.toNat = 97 := rfl
    have high : 'z'.toNat = 122 := rfl
    omega
  · have low : '0'.toNat = 48 := rfl
    have high : '9'.toNat = 57 := rfl
    omega

/-- What trimming a text takes away is space of a JSON text. -/
def inJsonSpace (text : Text) : Bool :=
  (text.takeWhile isWhiteSpace).all Json.isSpace && ((text.dropWhile isWhiteSpace).reverse.takeWhile isWhiteSpace).all Json.isSpace

theorem trim_split (text : Text) : text = text.takeWhile isWhiteSpace ++ trim text ++
    ((text.dropWhile isWhiteSpace).reverse.takeWhile isWhiteSpace).reverse := by
  have behind : text.dropWhile isWhiteSpace = trim text ++ ((text.dropWhile isWhiteSpace).reverse.takeWhile isWhiteSpace).reverse := by
    unfold trim
    rw [← List.reverse_append, List.takeWhile_append_dropWhile, List.reverse_reverse]
  calc text = text.takeWhile isWhiteSpace ++ text.dropWhile isWhiteSpace := List.takeWhile_append_dropWhile.symm
    _ = _ := by rw [List.append_assoc, ← behind]

theorem parse_untrimmed (text : Text) : Json.parse text = if inJsonSpace text then Json.parse (trim text) else none := by
  have quiet {spaces : Text} (char : Char) (among : char ∈ spaces.takeWhile isWhiteSpace) : Json.quiet char = true :=
    quiet_of_isWhiteSpace (List.mem_takeWhile_imp among)
  have parsed := @Json.parse_between (text.takeWhile isWhiteSpace) ((text.dropWhile isWhiteSpace).reverse.takeWhile isWhiteSpace).reverse
    quiet (fun char among => quiet char (List.mem_reverse.mp among)) (trim text)
  rw [← trim_split, List.all_reverse] at parsed
  exact parsed

theorem dropWhile_head {text rest : Text} (isRest : text.dropWhile isWhiteSpace = char :: rest) : isWhiteSpace char = false := by
  have head := List.head?_dropWhile_not isWhiteSpace text
  rw [isRest] at head
  exact head

theorem trim_head {text rest : Text} (isTrimmed : trim text = char :: rest) : isWhiteSpace char = false := by
  have whole := trim_split text
  rw [isTrimmed, List.append_assoc] at whole
  have isRest : text.dropWhile isWhiteSpace = (char :: rest) ++ ((text.dropWhile isWhiteSpace).reverse.takeWhile isWhiteSpace).reverse :=
    List.append_cancel_left (List.takeWhile_append_dropWhile.trans whole)
  exact dropWhile_head isRest

theorem trim_last {text front : Text} (isTrimmed : trim text = front ++ [char]) : isWhiteSpace char = false := by
  have isRest : (text.dropWhile isWhiteSpace).reverse.dropWhile isWhiteSpace = char :: front.reverse := by
    rw [← List.reverse_reverse ((text.dropWhile isWhiteSpace).reverse.dropWhile isWhiteSpace)]
    exact (congrArg List.reverse isTrimmed).trans (by simp)
  exact dropWhile_head isRest

theorem isWhiteSpace_of_isSpace (isSpace : Json.isSpace char = true) : isWhiteSpace char = true := by
  simp only [Json.isSpace, Bool.or_eq_true, beq_iff_eq] at isSpace
  rcases isSpace with ((rfl | rfl) | rfl) | rfl <;> decide

theorem braced_iff (text : Text) {value : Json} (isParsed : Json.parse (trim text) = some value) :
    isBraced (trim text) = true <-> Exists fun fields => value = .object fields := by
  constructor
  · intro braced
    obtain ⟨isFirst, _⟩ := Bool.and_eq_true_iff.mp braced
    obtain ⟨rest, isText⟩ := List.head?_eq_some_iff.mp (beq_iff_eq.mp isFirst)
    rw [isText] at isParsed
    exact Json.object_of_brace isParsed
  · rintro ⟨fields, rfl⟩
    obtain ⟨inner, rest, isText, isEnd⟩ := Json.parse_object isParsed
    have unspaced : Json.skipSpace (trim text) = trim text := by
      cases isTrimmed : trim text with
      | nil => rfl
      | cons char others =>
        have solid : Json.isSpace char = false := Bool.eq_false_iff.mpr fun isSpace =>
          absurd ((trim_head isTrimmed).symm.trans (isWhiteSpace_of_isSpace isSpace)) Bool.false_ne_true
        unfold Json.skipSpace
        rw [List.dropWhile_cons, solid]
        rfl
    rw [unspaced] at isText
    have isRest : rest = [] := by
      rcases List.eq_nil_or_concat rest with empty | ⟨front, last, isConcat⟩
      · exact empty
      · rw [List.concat_eq_append] at isConcat
        have space : Json.isSpace last = true :=
          List.all_eq_true.mp (Json.skipSpace_eq_nil.mp isEnd) last (isConcat ▸ List.mem_append_right front List.mem_cons_self)
        have isTrimmed : trim text = ('\x7b' :: (inner ++ '\x7d' :: front)) ++ [last] := by
          rw [isText, isConcat]
          simp
        exact absurd ((trim_last isTrimmed).symm.trans (isWhiteSpace_of_isSpace space)) Bool.false_ne_true
    have isTrimmed : trim text = ('\x7b' :: inner) ++ ['\x7d'] := by
      rw [isText, isRest]
      rfl
    unfold isBraced
    rw [isTrimmed, List.getLast?_concat]
    rfl

section Yields

variable {dateOf : Option Json -> Date}

def judge (dateOf : Option Json -> Date) (notBefore : Option Date) (line : AccessLogLine) : Verdict :=
  match notBefore with
  | none => .keep line
  | some notBefore =>
      if loggedAt dateOf line.entry = none then .skip
      else if (loggedAt dateOf line.entry).before notBefore then .cutoff
      else .keep line

theorem classify_eq (notBefore : Option Date) (raw : Bytes) : classify dateOf notBefore raw =
    match entryOf raw with
    | some line => judge dateOf notBefore line
    | none => .skip := by
  unfold classify entryOf
  simp only
  cases isParsed : Json.parse (trim (read raw)) with
  | none => split <;> rfl
  | some value =>
    have braced := braced_iff (read raw) isParsed
    by_cases isObject : Exists fun fields => value = .object fields
    · rw [braced.mpr isObject]
      obtain ⟨fields, rfl⟩ := isObject
      simp only [Bool.not_true, Bool.false_eq_true, if_false]
      by_cases isDashboard : isText DOKPLOY_DASHBOARD_SERVICE (serviceName (.object fields)) = true
      · rw [if_pos isDashboard, if_pos isDashboard]
      · rw [if_neg isDashboard, if_neg isDashboard]
        rfl
    · have notBraced : isBraced (trim (read raw)) = false := Bool.eq_false_iff.mpr fun isBraced => isObject (braced.mp isBraced)
      rw [notBraced]
      cases value with
      | object fields => exact absurd ⟨fields, rfl⟩ isObject
      | null | bool | number | string | array => rfl

/-- The text of some lines, as they are handed on. -/
def joined (lines : List AccessLogLine) : Text := ['\n'].intercalate (lines.map AccessLogLine.line)

theorem iterate_eq (log : Bytes) (notBefore : Option Date) : iterateLogEntriesBackwards dateOf log notBefore =
    (gather (classify dateOf notBefore) (rawLines log).reverse).1 := by
  have empty : classify dateOf notBefore [] = .skip := by
    rw [classify_eq]
    rfl
  unfold iterateLogEntriesBackwards rawLines
  rw [walk_eq empty log (Nat.lt_succ_self _) (Nat.le_refl _) List.not_mem_nil, List.take_length, List.append_nil]

theorem iterate_all (log : Bytes) : iterateLogEntriesBackwards dateOf log none = (entries log).reverse := by
  have gathered (raws : List Bytes) : (gather (classify dateOf none) raws).1 = raws.filterMap entryOf := by
    induction raws with
    | nil => rfl
    | cons raw rest ih =>
      rw [gather, classify_eq, List.filterMap_cons]
      cases entryOf raw with
      | none => exact ih
      | some line => exact congrArg (line :: ·) ih
  rw [iterate_eq, gathered, List.filterMap_reverse]
  rfl

def timeOf (dateOf : Option Json -> Date) (line : AccessLogLine) : Date := dateOf (time line.entry)

def startOf (dateOf : Option Json -> Date) (line : AccessLogLine) : Date := dateOf (startUTC line.entry)

/-- An entry with two dates, of which it was logged at the later one. -/
def Timely (dateOf : Option Json -> Date) (line : AccessLogLine) : Prop :=
  (Exists fun text => time line.entry = some (.string text)) ∧ Exists fun logged => Exists fun start =>
    timeOf dateOf line = some logged ∧ startOf dateOf line = some start ∧ start ≤ logged

/-- Entries in the order they were logged. -/
def InOrder (dateOf : Option Json -> Date) (lines : List AccessLogLine) : Prop :=
  (forall line, line ∈ lines -> Timely dateOf line) ∧
    lines.Pairwise fun first second => (timeOf dateOf second).before (timeOf dateOf first) = false

theorem loggedAt_of_timely {line : AccessLogLine} (timely : Timely dateOf line) : loggedAt dateOf line.entry = timeOf dateOf line := by
  obtain ⟨⟨text, isText⟩, _⟩ := timely
  unfold loggedAt timeOf
  rw [isText]
  rfl

theorem takeWhile_eq_filter {Element : Type} {keep : Element -> Bool} {items : List Element}
    (closed : items.Pairwise fun first second => keep second = true -> keep first = true) : items.takeWhile keep = items.filter keep := by
  induction items with
  | nil => rfl
  | cons item rest ih =>
    obtain ⟨first, others⟩ := List.pairwise_cons.mp closed
    rw [List.takeWhile_cons, List.filter_cons]
    cases isKept : keep item with
    | true => exact congrArg (item :: ·) (ih others)
    | false =>
      refine (List.filter_eq_nil_iff.mpr fun other among kept => ?_).symm
      exact absurd (isKept.symm.trans (first other among kept)) Bool.false_ne_true

theorem iterate_cutoff {log : Bytes} (inOrder : InOrder dateOf (entries log)) (notBefore : Date) :
    iterateLogEntriesBackwards dateOf log (some notBefore) =
      ((entries log).filter fun line => !(timeOf dateOf line).before notBefore).reverse := by
  have gathered (raws : List Bytes) (timely : forall line, line ∈ raws.filterMap entryOf -> Timely dateOf line) :
      (gather (classify dateOf (some notBefore)) raws).1 =
        (raws.filterMap entryOf).takeWhile fun line => !(timeOf dateOf line).before notBefore := by
    induction raws with
    | nil => rfl
    | cons raw rest ih =>
      rw [gather, classify_eq]
      rw [List.filterMap_cons] at timely ⊢
      cases isEntry : entryOf raw with
      | none =>
        rw [isEntry] at timely
        exact ih timely
      | some line =>
        rw [isEntry] at timely
        have first := timely line List.mem_cons_self
        have later := ih fun other among => timely other (List.mem_cons_of_mem line among)
        have logged := loggedAt_of_timely first
        obtain ⟨_, instant, _, isTime, _⟩ := first
        simp only [judge, logged, isTime, reduceCtorEq, if_false, List.takeWhile_cons]
        cases isOld : Date.before (some instant) notBefore with
        | true => rfl
        | false => exact congrArg (line :: ·) later
  have closed : (entries log).reverse.Pairwise fun first second =>
      (!(timeOf dateOf second).before notBefore) = true -> (!(timeOf dateOf first).before notBefore) = true := by
    rw [List.pairwise_reverse]
    refine inOrder.2.imp_of_mem fun {first second} firstAmong secondAmong ordered kept => ?_
    obtain ⟨_, early, _, isEarly, _⟩ := inOrder.1 first firstAmong
    obtain ⟨_, late, _, isLate, _⟩ := inOrder.1 second secondAmong
    rw [isEarly] at kept ordered
    rw [isLate] at ordered ⊢
    cases notBefore with
    | none => rfl
    | some notBefore =>
      simp only [Date.before, Bool.not_eq_true', decide_eq_false_iff_not, Int.not_lt] at kept ordered ⊢
      exact Int.le_trans kept ordered
  have isReversed : (rawLines log).reverse.filterMap entryOf = (entries log).reverse := List.filterMap_reverse
  rw [iterate_eq, gathered, isReversed, takeWhile_eq_filter closed, List.filter_reverse]
  rw [isReversed]
  exact fun line among => inOrder.1 line (List.mem_reverse.mp among)

theorem readLast_eq {log : Bytes} {limit : Nat} (some : 0 < limit) {notBefore : Option Date} {lines : List AccessLogLine}
    (isYielded : iterateLogEntriesBackwards dateOf log notBefore = lines.reverse) :
    readLastLogEntries dateOf log limit notBefore = joined (lines.drop (lines.length - limit)) := by
  unfold readLastLogEntries joined
  rw [if_neg (Nat.ne_of_gt some), isYielded, List.take_reverse, List.reverse_reverse]

end Yields

end AccessLog
end Dokploy
