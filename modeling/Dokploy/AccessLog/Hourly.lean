import Dokploy.AccessLog.Reader
import Dokploy.Foundation.Numerals
import Mathlib.Data.List.Induction

namespace Dokploy
namespace AccessLog

open Foundation (Json)
open Foundation.Unicode (read splitOn_read)
open Foundation.Numerals (decimal)
open GithubRunPoller (trim isWhiteSpace)

/-!
# Requests by the hour

Two readers count the requests of a log by the hour.  One takes the whole text.  The
other walks backwards and stops early.  They agree on every log in order, except that one
parses a line as it stands and the other parses it trimmed.
-/

def padded (width number : Nat) : Text := List.replicate (width - (decimal number).length) '0' ++ decimal number

/-- The year, the month and the day, by the days since 1970. -/
def civil (days : Int) : Int × Nat × Nat :=
  let era := (days + 719468) / 146097
  let dayOfEra := ((days + 719468) % 146097).toNat
  let yearOfEra := (dayOfEra - dayOfEra / 1460 + dayOfEra / 36524 - dayOfEra / 146096) / 365
  let dayOfYear := dayOfEra - (365 * yearOfEra + yearOfEra / 4 - yearOfEra / 100)
  let shifted := (5 * dayOfYear + 2) / 153
  let month := if shifted < 10 then shifted + 3 else shifted - 9
  (era * 400 + yearOfEra + (if month ≤ 2 then 1 else 0), month, dayOfYear - (153 * shifted + 2) / 5 + 1)

def yearText (year : Int) : Text :=
  if 0 ≤ year ∧ year ≤ 9999 then padded 4 year.toNat
  else (if year < 0 then '-' else '+') :: padded 6 year.natAbs

/-- The text of an hour, by the hours since 1970. -/
def hourText (hour : Int) : Text :=
  let date := civil (hour / 24)
  yearText date.1 ++ ('-' :: padded 2 date.2.1) ++ ('-' :: padded 2 date.2.2) ++ ('T' :: padded 2 (hour % 24).toNat)

def toISOString (time : Int) : Text :=
  hourText (time / 3600000) ++ ((':' :: padded 2 (time / 60000 % 60).toNat) ++ (':' :: padded 2 (time / 1000 % 60).toNat) ++
    ('.' :: padded 3 (time % 1000).toNat) ++ ['Z'])

/-- `${date.toISOString().slice(0, 13)}:00:00Z` -/
def hourOf (time : Int) : Text := (toISOString time).take 13 ++ ":00:00Z".toList

example : toISOString 1718632230123 = "2024-06-17T13:50:30.123Z".toList := by decide +kernel

example : hourOf (-1) = "1969-12-31T23:00:00Z".toList := by decide +kernel

theorem width_le_length (width number : Nat) : width ≤ (padded width number).length := by
  unfold padded
  rw [List.length_append, List.length_replicate]
  omega

theorem hourOf_eq (time : Int) : hourOf time = (hourText (time / 3600000)).take 13 ++ ":00:00Z".toList := by
  have long : 13 ≤ (hourText (time / 3600000)).length := by
    have year : 4 ≤ (yearText (civil (time / 3600000 / 24)).1).length := by
      unfold yearText
      split
      · exact width_le_length 4 _
      · have six := width_le_length 6 (civil (time / 3600000 / 24)).1.natAbs
        rw [List.length_cons]
        omega
    have month := width_le_length 2 (civil (time / 3600000 / 24)).2.1
    have day := width_le_length 2 (civil (time / 3600000 / 24)).2.2
    have hour := width_le_length 2 (time / 3600000 % 24).toNat
    simp only [hourText, List.length_append, List.length_cons]
    omega
  unfold hourOf toISOString
  rw [List.take_append_of_le_length long]

section Counting

variable {Key : Type} [DecidableEq Key]

def bump (key : Key) : List (Key × Nat) -> List (Key × Nat)
  | [] => [(key, 1)]
  | (other, count) :: counts => if other = key then (other, count + 1) :: counts else (other, count) :: bump key counts

/-- A map from keys to counts, in the order the keys came first. -/
def countBy (keys : List Key) : List (Key × Nat) := keys.foldl (fun counts key => bump key counts) []

theorem bump_map {keys : List Key} (distinct : keys.Nodup) (key : Key) (count : Key -> Nat) :
    bump key (keys.map fun other => (other, count other)) =
      if key ∈ keys then keys.map fun other => (other, count other + if other = key then 1 else 0)
      else (keys.map fun other => (other, count other)) ++ [(key, 1)] := by
  induction keys with
  | nil => rfl
  | cons first rest ih =>
    obtain ⟨isNew, others⟩ := List.nodup_cons.mp distinct
    rw [List.map_cons, bump]
    by_cases same : first = key
    · subst same
      have unchanged : (rest.map fun other => (other, count other + if other = first then 1 else 0)) =
          rest.map fun other => (other, count other) := by
        refine List.map_congr_left fun other among => ?_
        have differs : other ≠ first := fun same => isNew (same ▸ among)
        rw [if_neg differs, Nat.add_zero]
      rw [if_pos rfl, if_pos List.mem_cons_self, List.map_cons, if_pos rfl, unchanged]
    · have among : key ∈ first :: rest <-> key ∈ rest := by
        rw [List.mem_cons, or_iff_right (Ne.symm same)]
      rw [if_neg same, ih others]
      by_cases isKnown : key ∈ rest
      · rw [if_pos isKnown, if_pos (among.mpr isKnown), List.map_cons, if_neg same, Nat.add_zero]
      · rw [if_neg isKnown, if_neg fun known => isKnown (among.mp known), List.cons_append]

theorem countBy_eq (keys : List Key) : Exists fun distinct : List Key => distinct.Nodup ∧
    (forall key, key ∈ distinct <-> key ∈ keys) ∧ countBy keys = distinct.map fun key => (key, keys.count key) := by
  induction keys using List.reverseRecOn with
  | nil => exact ⟨[], List.nodup_nil, fun _ => Iff.rfl, rfl⟩
  | append_singleton keys key ih =>
    obtain ⟨distinct, isDistinct, same, counted⟩ := ih
    have step : countBy (keys ++ [key]) = bump key (countBy keys) := by
      rw [countBy, List.foldl_append]
      rfl
    rw [step, counted, bump_map isDistinct]
    by_cases known : key ∈ distinct
    · refine ⟨distinct, isDistinct, fun other => ?_, ?_⟩
      · rw [same, List.mem_append, List.mem_singleton]
        exact ⟨Or.inl, fun among => among.elim id fun isKey => isKey ▸ (same key).mp known⟩
      · rw [if_pos known]
        refine List.map_congr_left fun other _ => ?_
        rw [List.count_append, List.count_singleton']
        simp only [eq_comm]
    · refine ⟨distinct ++ [key], ?_, fun other => ?_, ?_⟩
      · exact List.nodup_append.mpr ⟨isDistinct, List.nodup_singleton key, fun first among second isKey => by
          rw [List.mem_singleton.mp isKey]
          exact fun equal => known (equal ▸ among)⟩
      · rw [List.mem_append, same, List.mem_append]
      · have isNew : key ∉ keys := fun among => known ((same key).mpr among)
        rw [if_neg known, List.map_append, List.map_singleton, List.count_append, List.count_eq_zero_of_not_mem isNew,
          List.count_singleton_self, Nat.zero_add]
        refine congrArg (· ++ [(key, 1)]) (List.map_congr_left fun other among => ?_)
        have differs : key ≠ other := fun equal => known (equal ▸ among)
        rw [List.count_append, List.count_singleton', if_neg differs, Nat.add_zero]

theorem mem_countBy {keys : List Key} {counted : Key × Nat} (among : counted ∈ countBy keys) :
    counted.1 ∈ keys ∧ counted.2 = keys.count counted.1 := by
  obtain ⟨distinct, _, same, isCount⟩ := countBy_eq keys
  rw [isCount] at among
  obtain ⟨key, isKey, rfl⟩ := List.mem_map.mp among
  exact ⟨(same key).mp isKey, rfl⟩

theorem countBy_perm {first second : List Key} (perm : first.Perm second) : (countBy first).Perm (countBy second) := by
  obtain ⟨keys, distinct, same, counted⟩ := countBy_eq first
  obtain ⟨others, otherDistinct, otherSame, otherCounted⟩ := countBy_eq second
  have isCount : (fun key => (key, first.count key)) = fun key => (key, second.count key) := by
    funext key
    rw [perm.count_eq]
  rw [counted, otherCounted, isCount]
  refine List.Perm.map _ ((List.perm_ext_iff_of_nodup distinct otherDistinct).mpr fun key => ?_)
  rw [same, otherSame]
  exact perm.mem_iff

theorem sum_bump (key : Key) (counts : List (Key × Nat)) :
    ((bump key counts).map Prod.snd).sum = (counts.map Prod.snd).sum + 1 := by
  induction counts with
  | nil => rfl
  | cons first rest ih =>
    rw [bump]
    split
    · simp only [List.map_cons, List.sum_cons]
      omega
    · simp only [List.map_cons, List.sum_cons, ih]
      omega

theorem sum_countBy (keys : List Key) : ((countBy keys).map Prod.snd).sum = keys.length := by
  induction keys using List.reverseRecOn with
  | nil => rfl
  | append_singleton keys key ih =>
    have step : countBy (keys ++ [key]) = bump key (countBy keys) := by
      rw [countBy, List.foldl_append]
      rfl
    rw [step, sum_bump, ih, List.length_append]
    rfl

end Counting

structure DateRange where
  start : Option Text
  end_ : Option Text

/-- A text that counts as given: one that is not empty. -/
def given : Option Text -> Option Text
  | some (char :: text) => some (char :: text)
  | _ => none

section Readers

variable (dateOf : Option Json -> Date) (range : DateRange)

def dateOfText (text : Text) : Date := dateOf (some (.string text))

def DateRange.isGiven : Bool := (given range.start).isSome || (given range.end_).isSome

/-- Whether an instant is outside a range, where one is given. -/
def DateRange.excludes (time : Date) : Bool :=
  range.isGiven &&
    (time.before (match given range.start with
        | some start => dateOfText dateOf start
        | none => some 0) ||
      match given range.end_ with
      | some stop => (dateOfText dateOf stop).before time
      | none => false)

def countedHour (entry : Json) : Option Text :=
  match dateOf (startUTC entry) with
  | none => none
  | some time => if range.excludes dateOf (some time) then none else some (hourOf time)

/-- `a - b` is not greater than zero, which a difference that is no number is not. -/
def notAfter (first second : Date) : Bool := !second.before first

/-- The order of `_.sortBy`: what is no number comes last. -/
def sortsBefore : Date -> Date -> Bool
  | some first, some second => decide (first ≤ second)
  | none, some _ => false
  | _, none => true

def aggregateHourlyRequests (log : Bytes) : List (Text × Nat) :=
  let notBefore : Option Date :=
    match given range.start with
    | some start => (dateOfText dateOf start).map some
    | none => none
  (countBy ((iterateLogEntriesBackwards dateOf log notBefore).filterMap fun line => countedHour dateOf range line.entry)).mergeSort
    fun first second => notAfter (dateOfText dateOf first.1) (dateOfText dateOf second.1)

def processLogs (logString : Text) : List (Text × Nat) :=
  if logString = [] then []
  else
    let hours := ((logString.splitOn '\n').filter fun line => isBraced (trim line)).filterMap fun line =>
      match Json.parse line with
      | none => none
      | some log =>
          if isText DOKPLOY_DASHBOARD_SERVICE (serviceName log) then none
          else if range.excludes dateOf (dateOf (startUTC log)) then none
          else (dateOf (startUTC log)).map hourOf
    (countBy hours).mergeSort fun first second => sortsBefore (dateOfText dateOf first.1) (dateOfText dateOf second.1)

end Readers

section Counted

variable {dateOf : Option Json -> Date} {range : DateRange} {log : Bytes}

/-- The hours of the entries are read back as hours. -/
def Readable (dateOf : Option Json -> Date) (lines : List AccessLogLine) : Prop :=
  forall line, line ∈ lines -> forall time, startOf dateOf line = some time ->
    dateOfText dateOf (hourOf time) = some (time / 3600000 * 3600000)

/-- The hour of a line as it stands, where it is an entry and can be parsed as it stands. -/
def wholeHour (dateOf : Option Json -> Date) (range : DateRange) (raw : Bytes) : Option Text :=
  if inJsonSpace (read raw) then (entryOf raw).bind fun line => countedHour dateOf range line.entry else none

theorem processLogs_eq : processLogs dateOf range (read log) = (countBy ((rawLines log).filterMap (wholeHour dateOf range))).mergeSort
    fun first second => sortsBefore (dateOfText dateOf first.1) (dateOfText dateOf second.1) := by
  have perLine (raw : Bytes) : (if isBraced (trim (read raw)) then
      match Json.parse (read raw) with
      | none => none
      | some log =>
          if isText DOKPLOY_DASHBOARD_SERVICE (serviceName log) then none
          else if range.excludes dateOf (dateOf (startUTC log)) then none
          else (dateOf (startUTC log)).map hourOf
      else none) = wholeHour dateOf range raw := by
    unfold wholeHour entryOf
    rw [parse_untrimmed]
    by_cases spaced : inJsonSpace (read raw) = true
    · simp only [if_pos spaced]
      cases isParsed : Json.parse (trim (read raw)) with
      | none => split <;> rfl
      | some value =>
        have braced := braced_iff (read raw) isParsed
        by_cases isObject : Exists fun fields => value = .object fields
        · rw [if_pos (braced.mpr isObject)]
          obtain ⟨fields, rfl⟩ := isObject
          by_cases isDashboard : isText DOKPLOY_DASHBOARD_SERVICE (serviceName (.object fields)) = true
          · simp only [if_pos isDashboard]
            rfl
          · simp only [if_neg isDashboard]
            show _ = countedHour dateOf range (.object fields)
            unfold countedHour
            cases dateOf (startUTC (.object fields)) with
            | none =>
              simp only [Option.map_none]
              split <;> rfl
            | some time => rfl
        · rw [if_neg fun isBraced => isObject (braced.mp isBraced)]
          cases value with
          | object fields => exact absurd ⟨fields, rfl⟩ isObject
          | null | bool | number | string | array => rfl
    · simp only [if_neg spaced]
      split <;> rfl
  have counted : (((read log).splitOn '\n').filter fun line => isBraced (trim line)).filterMap (fun line =>
      match Json.parse line with
      | none => none
      | some log =>
          if isText DOKPLOY_DASHBOARD_SERVICE (serviceName log) then none
          else if range.excludes dateOf (dateOf (startUTC log)) then none
          else (dateOf (startUTC log)).map hourOf) = (rawLines log).filterMap (wholeHour dateOf range) := by
    rw [List.filterMap_filter, splitOn_read, List.filterMap_map]
    exact List.filterMap_congr fun raw _ => perLine raw
  unfold processLogs
  split
  · rename_i isEmpty
    rw [← counted, isEmpty]
    simp [isBraced, trim, countBy]
  · simp only [counted]

theorem excludes_of_before {start : Text} {instant time : Int} (isStart : given range.start = some start)
    (isInstant : dateOfText dateOf start = some instant) (earlier : time < instant) :
    range.excludes dateOf (some time) = true := by
  unfold DateRange.excludes DateRange.isGiven
  simp only [isStart, isInstant, Date.before, Option.isSome_some, Bool.true_or, Bool.true_and, Bool.or_eq_true]
  exact Or.inl (decide_eq_true earlier)

theorem aggregate_eq (inOrder : InOrder dateOf (entries log)) : aggregateHourlyRequests dateOf range log =
    (countBy ((entries log).filterMap fun line => countedHour dateOf range line.entry).reverse).mergeSort
      fun first second => notAfter (dateOfText dateOf first.1) (dateOfText dateOf second.1) := by
  have all : (iterateLogEntriesBackwards dateOf log none).filterMap (fun line => countedHour dateOf range line.entry) =
      ((entries log).filterMap fun line => countedHour dateOf range line.entry).reverse := by
    rw [iterate_all, List.filterMap_reverse]
  unfold aggregateHourlyRequests
  cases isStart : given range.start with
  | none => simp only [all]
  | some start =>
    cases isInstant : dateOfText dateOf start with
    | none => simp only [isInstant, Option.map_none, all]
    | some instant =>
      simp only [isInstant, Option.map_some]
      rw [iterate_cutoff inOrder, List.filterMap_reverse, List.filterMap_filter]
      have same : (entries log).filterMap (fun line =>
          if !(timeOf dateOf line).before (some instant) then countedHour dateOf range line.entry else none) =
            (entries log).filterMap fun line => countedHour dateOf range line.entry := by
        refine List.filterMap_congr fun line among => ?_
        obtain ⟨_, logged, begun, isLogged, isBegun, later⟩ := inOrder.1 line among
        have isDate : dateOf (startUTC line.entry) = some begun := isBegun
        cases isOld : (timeOf dateOf line).before (some instant) with
        | false => rfl
        | true =>
          rw [isLogged] at isOld
          have old : logged < instant := of_decide_eq_true isOld
          simp only [countedHour, isDate, excludes_of_before isStart isInstant (Int.lt_of_le_of_lt later old), Bool.not_true,
            Bool.false_eq_true, if_false, if_true]
      rw [same]

/-- The hours of a log are in the order of their dates, whichever of the two orders they are sorted by. -/
theorem sorted_eq {hours others : List Text} (perm : hours.Perm others)
    (read : forall hour, hour ∈ hours -> Exists fun number : Int =>
      hour = (hourText number).take 13 ++ ":00:00Z".toList ∧ dateOfText dateOf hour = some (number * 3600000)) :
    ((countBy hours).mergeSort fun first second => notAfter (dateOfText dateOf first.1) (dateOfText dateOf second.1)) =
      (countBy others).mergeSort fun first second => sortsBefore (dateOfText dateOf first.1) (dateOfText dateOf second.1) := by
  let order : Text × Nat -> Text × Nat -> Bool := fun first second =>
    decide ((dateOfText dateOf first.1).getD 0 ≤ (dateOfText dateOf second.1).getD 0)
  have dated {counted : Text × Nat} {keys : List Text} (same : keys.Perm hours) (among : counted ∈ countBy keys) :
      Exists fun number : Int => counted.1 = (hourText number).take 13 ++ ":00:00Z".toList ∧
        dateOfText dateOf counted.1 = some (number * 3600000) := read _ (same.mem_iff.mp (mem_countBy among).1)
  have first : ((countBy hours).mergeSort fun first second =>
      notAfter (dateOfText dateOf first.1) (dateOfText dateOf second.1)) = (countBy hours).mergeSort order := by
    have mapped := @List.map_mergeSort _ _ (fun first second : Text × Nat =>
      notAfter (dateOfText dateOf first.1) (dateOfText dateOf second.1)) order id (countBy hours) ?_
    · rwa [List.map_id, List.map_id] at mapped
    · intro first isFirst second isSecond
      obtain ⟨_, _, isDate⟩ := dated (List.Perm.refl _) isFirst
      obtain ⟨_, _, isOther⟩ := dated (List.Perm.refl _) isSecond
      simp only [order, id, isDate, isOther, notAfter, Date.before, Option.getD_some, ← decide_not, Int.not_lt]
  have second : ((countBy others).mergeSort fun first second =>
      sortsBefore (dateOfText dateOf first.1) (dateOfText dateOf second.1)) = (countBy others).mergeSort order := by
    have mapped := @List.map_mergeSort _ _ (fun first second : Text × Nat =>
      sortsBefore (dateOfText dateOf first.1) (dateOfText dateOf second.1)) order id (countBy others) ?_
    · rwa [List.map_id, List.map_id] at mapped
    · intro first isFirst second isSecond
      obtain ⟨_, _, isDate⟩ := dated perm.symm isFirst
      obtain ⟨_, _, isOther⟩ := dated perm.symm isSecond
      simp only [order, id, isDate, isOther, sortsBefore, Option.getD_some]
  have sorted (counts : List (Text × Nat)) : (counts.mergeSort order).Pairwise fun first second => order first second = true := by
    refine List.pairwise_mergeSort ?_ ?_ counts
    · intro first second third before after
      simp only [order, decide_eq_true_eq] at before after ⊢
      exact Int.le_trans before after
    · intro first second
      simp only [order, Bool.or_eq_true, decide_eq_true_eq]
      exact Int.le_total _ _
  rw [first, second]
  refine List.Perm.eq_of_pairwise ?_ (sorted _) (sorted _)
    ((List.mergeSort_perm _ _).trans ((countBy_perm perm).trans (List.mergeSort_perm _ _).symm))
  intro one other isOne isOther before after
  have oneAmong := List.mem_mergeSort.mp isOne
  have otherAmong := List.mem_mergeSort.mp isOther
  obtain ⟨number, isHour, isDate⟩ := dated (List.Perm.refl _) oneAmong
  obtain ⟨second, isSecond, isLater⟩ := dated perm.symm otherAmong
  simp only [order, isDate, isLater, Option.getD_some, decide_eq_true_eq] at before after
  have sameHour : number = second := by omega
  subst sameHour
  have sameText : one.1 = other.1 := isHour.trans isSecond.symm
  refine Prod.ext sameText ?_
  rw [(mem_countBy oneAmong).2, (mem_countBy otherAmong).2, sameText]
  exact @List.Perm.count_eq _ instBEqOfDecidableEq _ _ perm _

theorem aggregate_eq_processLogs (readable : Readable dateOf (entries log)) (inOrder : InOrder dateOf (entries log))
    (spaced : forall raw, raw ∈ rawLines log -> (entryOf raw).isSome = true -> inJsonSpace (read raw) = true) (range : DateRange) :
    aggregateHourlyRequests dateOf range log = processLogs dateOf range (read log) := by
  have same : (rawLines log).filterMap (wholeHour dateOf range) =
      (entries log).filterMap fun line => countedHour dateOf range line.entry := by
    rw [entries, List.filterMap_filterMap]
    refine List.filterMap_congr fun raw among => ?_
    unfold wholeHour
    cases isEntry : entryOf raw with
    | none => simp
    | some line => rw [if_pos (spaced raw among (by rw [isEntry]; rfl))]
  rw [aggregate_eq inOrder, processLogs_eq, same]
  refine sorted_eq (List.reverse_perm _) fun hour among => ?_
  obtain ⟨line, isLine, isCounted⟩ := List.mem_filterMap.mp (List.mem_reverse.mp among)
  unfold countedHour at isCounted
  cases isDate : dateOf (startUTC line.entry) with
  | none =>
    rw [isDate] at isCounted
    cases isCounted
  | some time =>
    simp only [isDate] at isCounted
    split at isCounted
    · cases isCounted
    · cases isCounted
      exact ⟨time / 3600000, hourOf_eq time, readable line isLine time isDate⟩

theorem countP_le_agree {Element : Type} {stronger weaker : Element -> Bool} {items : List Element}
    (implies : forall item, item ∈ items -> stronger item = true -> weaker item = true)
    (asMany : items.countP weaker ≤ items.countP stronger) : forall item, item ∈ items -> weaker item = true -> stronger item = true := by
  induction items with
  | nil =>
    intro item among
    cases among
  | cons first rest ih =>
    have fewer : rest.countP stronger ≤ rest.countP weaker :=
      List.countP_mono_left fun item among => implies item (List.mem_cons_of_mem first among)
    rw [List.countP_cons, List.countP_cons] at asMany
    have rests := ih (fun item among => implies item (List.mem_cons_of_mem first among)) (by
      have here := implies first List.mem_cons_self
      cases isStrong : stronger first with
      | false =>
        rw [isStrong] at asMany
        simp only [Bool.false_eq_true, if_false] at asMany
        omega
      | true =>
        rw [isStrong, here isStrong] at asMany
        omega)
    intro item among isWeak
    rcases List.mem_cons.mp among with isFirst | later
    · subst isFirst
      rw [isWeak] at asMany
      by_contra notStrong
      rw [if_pos rfl, if_neg notStrong] at asMany
      omega
    · exact rests item later isWeak

/-- A log without a range counts every entry, and the whole text every entry that can be parsed as it stands. -/
theorem spaced_of_eq (inOrder : InOrder dateOf (entries log))
    (same : aggregateHourlyRequests dateOf ⟨none, none⟩ log = processLogs dateOf ⟨none, none⟩ (read log)) :
    forall raw, raw ∈ rawLines log -> (entryOf raw).isSome = true -> inJsonSpace (read raw) = true := by
  have counted (line : AccessLogLine) (among : line ∈ entries log) :
      (countedHour dateOf ⟨none, none⟩ line.entry).isSome = true := by
    obtain ⟨_, _, begun, _, isBegun, _⟩ := inOrder.1 line among
    have isDate : dateOf (startUTC line.entry) = some begun := isBegun
    simp [countedHour, isDate, DateRange.excludes, DateRange.isGiven, given]
  have total (counts : List (Text × Nat)) (order : Text × Nat -> Text × Nat -> Bool) :
      ((counts.mergeSort order).map Prod.snd).sum = (counts.map Prod.snd).sum :=
    ((List.mergeSort_perm counts order).map Prod.snd).sum_nat
  rw [aggregate_eq inOrder, processLogs_eq] at same
  have sums := congrArg (fun counts => (counts.map Prod.snd).sum) same
  simp only [total, sum_countBy, List.length_reverse, List.length_filterMap_eq_countP] at sums
  have everyEntry : (entries log).countP (fun line => (countedHour dateOf ⟨none, none⟩ line.entry).isSome) =
      (rawLines log).countP fun raw => (entryOf raw).isSome := by
    rw [List.countP_eq_length.mpr counted, entries, List.length_filterMap_eq_countP]
  intro raw among isEntry
  have isWhole := @countP_le_agree _ (fun raw => (wholeHour dateOf ⟨none, none⟩ raw).isSome) (fun raw => (entryOf raw).isSome)
    (rawLines log) ?_ (by rw [← everyEntry, sums]) raw among isEntry
  · by_contra unspaced
    rw [wholeHour, if_neg unspaced] at isWhole
    cases isWhole
  · intro other _ isWhole
    unfold wholeHour at isWhole
    cases isEntry : entryOf other with
    | some line => rfl
    | none =>
      rw [isEntry] at isWhole
      simp at isWhole

/-- An entry that was logged at an instant or later. -/
def since (dateOf : Option Json -> Date) (instant : Int) (line : AccessLogLine) : Bool :=
  match timeOf dateOf line with
  | some logged => decide (instant ≤ logged)
  | none => false

/-- Reading a log backwards is reading it whole. -/
structure ReadsBackwards (dateOf : Option Json -> Date) (log : Bytes) : Prop where
  yields : iterateLogEntriesBackwards dateOf log none = (entries log).reverse
  last : forall limit, 0 < limit ->
    readLastLogEntries dateOf log limit none = joined ((entries log).drop ((entries log).length - limit))
  lastSince : InOrder dateOf (entries log) -> forall limit, 0 < limit -> forall instant : Int,
    readLastLogEntries dateOf log limit (some (some instant)) =
      joined (((entries log).filter (since dateOf instant)).drop (((entries log).filter (since dateOf instant)).length - limit))
  hourly : InOrder dateOf (entries log) -> forall range,
    aggregateHourlyRequests dateOf range log = processLogs dateOf range (read log)

theorem iterate_since (inOrder : InOrder dateOf (entries log)) (instant : Int) :
    iterateLogEntriesBackwards dateOf log (some (some instant)) = ((entries log).filter (since dateOf instant)).reverse := by
  rw [iterate_cutoff inOrder]
  refine congrArg List.reverse (List.filter_congr fun line among => ?_)
  obtain ⟨_, logged, _, isLogged, _⟩ := inOrder.1 line among
  simp only [since, isLogged, Date.before, ← decide_not, Int.not_lt]

/-- The walk agrees with the whole text exactly where what is trimmed off an entry is space of a JSON text. -/
theorem readsBackwards_iff (dateOf : Option Json -> Date) (log : Bytes) (readable : Readable dateOf (entries log)) :
    ReadsBackwards dateOf log <-> (InOrder dateOf (entries log) ->
      forall raw, raw ∈ rawLines log -> (entryOf raw).isSome = true -> inJsonSpace (read raw) = true) := by
  constructor
  · intro reads inOrder
    exact spaced_of_eq inOrder (reads.hourly inOrder ⟨none, none⟩)
  · intro spaced
    exact ⟨iterate_all log, fun limit some => readLast_eq some (iterate_all log),
      fun inOrder limit some instant => readLast_eq some (iterate_since inOrder instant),
      fun inOrder => aggregate_eq_processLogs readable inOrder (spaced inOrder)⟩

end Counted

section Example

def dateOfKnown : Option Json -> Date
  | some (.string text) =>
      if text = "2024-01-01T00:10:00Z".toList then some 1704067800000
      else if text = "2024-01-01T00:10:01Z".toList then some 1704067801000
      else if text = "2024-01-01T00:00:00Z".toList then some 1704067200000
      else none
  | _ => none

def requestLine : Text :=
  "\x7b\"ServiceName\":\"shop@docker\",\"StartUTC\":\"2024-01-01T00:10:00Z\",\"time\":\"2024-01-01T00:10:01Z\"\x7d".toList

/-- A log of two requests, with a tab in front of the second. -/
def plainLog : Bytes := Foundation.Unicode.utf8 (requestLine ++ ['\n', '\t'] ++ requestLine ++ ['\r', '\n'])

/-- A log of one request, with a no-break space in front. -/
def spacedLog : Bytes := Foundation.Unicode.utf8 (Char.ofNat 0xA0 :: requestLine ++ ['\n'])

def isKnown (line : AccessLogLine) : Bool :=
  decide (timeOf dateOfKnown line = some 1704067801000) && decide (startOf dateOfKnown line = some 1704067800000) &&
    match time line.entry with
    | some (.string _) => true
    | _ => false

theorem readable_of_known {lines : List AccessLogLine} (known : lines.all isKnown = true) : Readable dateOfKnown lines := by
  intro line among time isTime
  have isLine := List.all_eq_true.mp known line among
  simp only [isKnown, Bool.and_eq_true, decide_eq_true_eq] at isLine
  rw [isLine.1.2] at isTime
  cases isTime
  decide +kernel

theorem inOrder_of_known {lines : List AccessLogLine} (known : lines.all isKnown = true) : InOrder dateOfKnown lines := by
  have each (line : AccessLogLine) (among : line ∈ lines) : timeOf dateOfKnown line = some 1704067801000 ∧ Timely dateOfKnown line := by
    have isLine := List.all_eq_true.mp known line among
    simp only [isKnown, Bool.and_eq_true, decide_eq_true_eq] at isLine
    refine ⟨isLine.1.1, ?_, _, _, isLine.1.1, isLine.1.2, by decide⟩
    have isText := isLine.2
    split at isText
    · rename_i text isTime
      exact ⟨text, isTime⟩
    · cases isText
  refine ⟨fun line among => (each line among).2, List.pairwise_of_forall_mem_list fun first isFirst second isSecond => ?_⟩
  rw [(each first isFirst).1, (each second isSecond).1]
  decide

theorem readsBackwards_plainLog : (entries plainLog).length = 2 ∧ ReadsBackwards dateOfKnown plainLog := by
  have known : (entries plainLog).all isKnown = true := by decide +kernel
  refine ⟨by decide +kernel, (readsBackwards_iff dateOfKnown plainLog (readable_of_known known)).mpr fun _ raw among => ?_⟩
  have all : (rawLines plainLog).all (fun raw => inJsonSpace (read raw)) = true := by decide +kernel
  exact fun _ => List.all_eq_true.mp all raw among

/-- A request behind a no-break space is counted by the walk and not in the whole text. -/
theorem spacedLog_differs : Readable dateOfKnown (entries spacedLog) ∧ InOrder dateOfKnown (entries spacedLog) ∧
    (aggregateHourlyRequests dateOfKnown ⟨none, none⟩ spacedLog).length = 1 ∧
    processLogs dateOfKnown ⟨none, none⟩ (read spacedLog) = [] ∧ ¬ ReadsBackwards dateOfKnown spacedLog := by
  have known : (entries spacedLog).all isKnown = true := by decide +kernel
  have inOrder := inOrder_of_known known
  have counted : (aggregateHourlyRequests dateOfKnown ⟨none, none⟩ spacedLog).length = 1 := by
    rw [aggregate_eq inOrder, List.length_mergeSort]
    decide +kernel
  have nothing : processLogs dateOfKnown ⟨none, none⟩ (read spacedLog) = [] := by
    rw [processLogs_eq, ← List.length_eq_zero_iff, List.length_mergeSort]
    decide +kernel
  refine ⟨readable_of_known known, inOrder, counted, nothing, fun reads => ?_⟩
  rw [reads.hourly inOrder, nothing] at counted
  cases counted

end Example

end AccessLog
end Dokploy
