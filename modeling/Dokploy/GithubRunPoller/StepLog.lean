import Dokploy.Foundation.Machine
import Dokploy.GithubRunPoller.StepLines

namespace Dokploy
namespace GithubRunPoller

open Foundation (Machine)

/-!
# The step lines in the log of a row

A pass appends the lines of a run's steps that are not known to be in the log.  What is
known is a set of lines, read from the log once and extended with every line that was to
be appended.  A restart forgets the set.

A line is known by its text, and the end line of a step names a duration.  So a step has
one end line in the log as long as every read of the run gives it the same end line and
every line that is remembered has been written.
-/

/-- The log of a row, what a process remembers of it, and whether it has read the whole of it. -/
structure Story where
  log : String
  logged : Option (List String)
  whole : Bool

inductive StoryEvent where
  /-- A pass over the row: the jobs, what reading the log would return, and which lines get into the log,
  or none where appending throws. -/
  | poll (jobs : List GithubRunJob) (read : String) (took : Option (String -> Bool))
  /-- The process starts anew, or forgets the row. -/
  | restart
  /-- Another line is appended, by the poller or by someone else. -/
  | other (line : String) (remembered : Bool)

/-- loggedLines, and whether they are those of the whole log. -/
def seeded (state : Story) (read : String) : List String × Bool :=
  match state.logged with
  | some lines => (lines, state.whole)
  | none => (loggedLinesOf read, loggedLinesOf read == loggedLinesOf state.log)

section Passes

variable (parseDate : String -> Option Int)

/-- The lines of all steps, in run order. -/
def linesOf (jobs : List GithubRunJob) : List String :=
  jobs.flatMap fun job => (relevantSteps job).flatMap (stepLines parseDate job)

theorem newLines_eq (jobs : List GithubRunJob) (logged : List String) :
    (mapRunJobs parseDate jobs logged).newLines = unseen logged (linesOf parseDate jobs) := rfl

/-- The labels of the steps that are over. -/
def labelsOver (jobs : List GithubRunJob) : List String :=
  jobs.flatMap fun job => ((relevantSteps job).filter fun step => IsOver step).map (labelOf job)

/-- The step lines of one pass over a row. -/
def followSteps (state : Story) (jobs : List GithubRunJob) (read : String) (took : Option (String -> Bool)) : Story × List String :=
  let logged := seeded state read
  let newLines := (mapRunJobs parseDate jobs logged.1).newLines
  if newLines = [] then (⟨state.log, some logged.1, logged.2⟩, labelsOver jobs)
  else
    match took with
    | none => (⟨state.log, some logged.1, logged.2⟩, [])
    | some took =>
        (⟨appendLines state.log (newLines.filter took), some (withLines logged.1 newLines), logged.2⟩, labelsOver jobs)

/-- A row's log from its first text on.  The output is what was seen completed. -/
def story (first : String) : Machine Story StoryEvent String where
  initial := ⟨first, none, false⟩
  step state event :=
    match event with
    | .poll jobs read took => some (followSteps parseDate state jobs read took)
    | .restart => some ({ state with logged := none }, [])
    | .other line remembered =>
        some ({ state with
          log := appendLine state.log line
          logged := if remembered then state.logged.map (withLines · [line]) else state.logged }, [])

theorem mem_unseen {seen all : List String} {line : String} : line ∈ unseen seen all <-> line ∈ all ∧ line ∉ seen := by
  induction all generalizing seen with
  | nil => simp [unseen]
  | cons first rest ih =>
    unfold unseen
    split
    · rename_i known
      rw [ih, List.mem_cons]
      constructor
      · exact fun ⟨among, new⟩ => ⟨Or.inr among, new⟩
      · rintro ⟨rfl | among, new⟩
        · exact absurd known new
        · exact ⟨among, new⟩
    · rename_i new
      rw [List.mem_cons, ih, List.mem_cons, List.mem_cons, not_or]
      constructor
      · rintro (rfl | ⟨among, _, unknown⟩)
        · exact ⟨Or.inl rfl, new⟩
        · exact ⟨Or.inr among, unknown⟩
      · rintro ⟨rfl | among, unknown⟩
        · exact Or.inl rfl
        · by_cases same : line = first
          · exact Or.inl same
          · exact Or.inr ⟨among, same, unknown⟩

theorem nodup_unseen (seen all : List String) : (unseen seen all).Nodup := by
  induction all generalizing seen with
  | nil => exact List.nodup_nil
  | cons first rest ih =>
    unfold unseen
    split
    · exact ih seen
    · exact List.nodup_cons.mpr ⟨fun present => (mem_unseen.mp present).2 List.mem_cons_self, ih _⟩

theorem unseen_split {seen all before after : List String} {line : String} (split : unseen seen all = before ++ line :: after) :
    Exists fun front => Exists fun back => all = front ++ line :: back ∧ before = unseen seen front := by
  induction all generalizing seen before with
  | nil =>
    rw [unseen] at split
    exact absurd split.symm (by simp)
  | cons first rest ih =>
    unfold unseen at split
    split at split
    · rename_i known
      obtain ⟨front, back, rfl, isBefore⟩ := ih split
      exact ⟨first :: front, back, rfl, by rw [unseen, if_pos known, isBefore]⟩
    · rename_i new
      cases before with
      | nil =>
        exact ⟨[], rest, by rw [(List.cons.inj split).1]; rfl, rfl⟩
      | cons head before =>
        rw [List.cons_append] at split
        obtain ⟨isHead, isRest⟩ := List.cons.inj split
        obtain ⟨front, back, rfl, isBefore⟩ := ih isRest
        exact ⟨first :: front, back, rfl, by rw [unseen, if_neg new, isBefore, isHead]⟩

theorem mem_stepLines {job : GithubRunJob} {step : GithubRunStep} {line : String} (present : line ∈ stepLines parseDate job step) :
    line = startedLine (labelOf job step) ∨ (IsOver step ∧ line = endLineOf parseDate job step) := by
  by_cases isOver : IsOver step
  · rw [stepLines_of_over parseDate isOver, List.mem_cons, List.mem_singleton] at present
    exact present.imp id fun same => ⟨isOver, same⟩
  · rcases stepLines_of_not_over parseDate isOver with none | single
    · rw [none] at present
      cases present
    · rw [single, List.mem_singleton] at present
      exact Or.inl present

/-- A start line stands in front of every end line. -/
def Follows (lines : List String) : Prop :=
  forall front back line base, lines = front ++ line :: back -> IsEnd base line -> startedLine base ∈ front

theorem Follows.append {first second : List String} (isFirst : Follows first) (isSecond : Follows second) : Follows (first ++ second) := by
  intro front back line base split isEnd
  rcases List.append_eq_append_iff.mp split with ⟨middle, rfl, rest⟩ | ⟨middle, isWhole, rest⟩
  · exact List.mem_append_right first (isSecond middle back line base rest isEnd)
  · cases middle with
    | nil => exact absurd (isSecond [] back line base rest.symm isEnd) List.not_mem_nil
    | cons head middle =>
      rw [List.cons_append] at rest
      obtain ⟨rfl, _⟩ := List.cons.inj rest
      exact isFirst front middle line base isWhole isEnd

theorem follows_flatMap {Item : Type} (lines : Item -> List String) (items : List Item)
    (each : forall item, Follows (lines item)) : Follows (items.flatMap lines) := by
  induction items with
  | nil =>
    intro front back line base split _
    exact absurd split.symm (by simp)
  | cons item rest ih =>
    rw [List.flatMap_cons]
    exact (each item).append ih

theorem not_isEnd_started (base other : String) : ¬ IsEnd base (startedLine other) := by
  rintro ⟨word, seconds, same⟩
  exact startedLine_ne_endLine other base word seconds same

theorem follows_stepLines (job : GithubRunJob) (step : GithubRunStep) : Follows (stepLines parseDate job step) := by
  intro front back line base split isEnd
  have present : line ∈ stepLines parseDate job step := split ▸ List.mem_append_right front List.mem_cons_self
  rcases mem_stepLines parseDate present with rfl | ⟨isOver, rfl⟩
  · exact absurd isEnd (not_isEnd_started base _)
  · obtain ⟨word, seconds, same⟩ := isEnd
    have isBase : labelOf job step = base := endLine_inj same
    rw [stepLines_of_over parseDate isOver] at split
    cases front with
    | nil => exact absurd (List.cons.inj split).1 (startedLine_ne_endLine _ _ _ _)
    | cons head front =>
      rw [List.cons_append] at split
      rw [← (List.cons.inj split).1, isBase]
      exact List.mem_cons_self

theorem follows_linesOf (jobs : List GithubRunJob) : Follows (linesOf parseDate jobs) :=
  follows_flatMap _ jobs fun job => follows_flatMap _ (relevantSteps job) (follows_stepLines parseDate job)

/-- What a run is held to: reads of the log tell nothing but the log, and nothing is written after one that
was not whole; labels hold no line feed; a label has one end line; every line gets into the log unless
appending throws; and nobody else writes step lines. -/
def Allowed (ending : String -> String) (state : Story) : StoryEvent -> Prop
  | .poll jobs read took =>
      (state.logged = none -> forall line, line ∈ loggedLinesOf read -> IsStepLine line -> line ∈ loggedLinesOf state.log) ∧
      (unseen (seeded state read).1 (linesOf parseDate jobs) ≠ [] -> (seeded state read).2 = true) ∧
      (forall job, job ∈ jobs -> forall step, step ∈ relevantSteps job -> '\n' ∉ (labelOf job step).toList ∧
        (IsOver step -> endLineOf parseDate job step = ending (labelOf job step))) ∧
      forall effect, took = some effect -> forall line, line ∈ unseen (seeded state read).1 (linesOf parseDate jobs) ->
        effect line = true
  | .restart => True
  | .other line _ => ¬ IsStepLine line ∧ forall part, part ∈ loggedLinesOf line -> ¬ IsStepLine part

/-- Memory and log agree on step lines, and the step lines of the log are in order. -/
structure KeptLog (ending : String -> String) (history : List String) (state : Story) : Prop where
  honest : forall lines, state.logged = some lines -> forall line, line ∈ lines -> IsStepLine line -> line ∈ loggedLinesOf state.log
  whole : forall lines, state.logged = some lines -> state.whole = true ->
    forall line, line ∈ loggedLinesOf state.log -> IsStepLine line -> line ∈ lines
  once : forall line, IsStepLine line -> (loggedLinesOf state.log).count line ≤ 1
  steady : forall job step line, line ∈ loggedLinesOf state.log -> IsEnd (stepLabelPrefix job step) line ->
    line = ending (stepLabelPrefix job step)
  inOrder : forall job step line, line ∈ loggedLinesOf state.log -> IsEnd (stepLabelPrefix job step) line ->
    [startedLine (stepLabelPrefix job step), line].Sublist (loggedLinesOf state.log)
  seen : forall base, base ∈ history -> Exists fun job => Exists fun step => Exists fun line =>
    base = stepLabelPrefix job step ∧ IsEnd base line ∧ line ∈ loggedLinesOf state.log

section Preserved

variable {parseDate : String -> Option Int} {ending : String -> String} {history : List String} {state after : Story}

variable {jobs : List GithubRunJob} {line : String}

theorem mem_linesOf : line ∈ linesOf parseDate jobs <->
    Exists fun job => job ∈ jobs ∧ Exists fun step => step ∈ relevantSteps job ∧ line ∈ stepLines parseDate job step := by
  simp only [linesOf, List.mem_flatMap]

theorem linesOf_single (present : line ∈ linesOf parseDate jobs)
    (names : forall job, job ∈ jobs -> forall step, step ∈ relevantSteps job -> '\n' ∉ (labelOf job step).toList) :
    IsStepLine line ∧ loggedLinesOf line = [line] := by
  obtain ⟨job, isJob, step, isStep, among⟩ := mem_linesOf.mp present
  have noFeed := names job isJob step isStep
  rcases mem_stepLines parseDate among with rfl | ⟨_, rfl⟩
  · exact ⟨⟨job.name, step.name, Or.inl rfl⟩, loggedLinesOf_started noFeed⟩
  · have isEnd : IsEnd (stepLabelPrefix job.name step.name) (endLineOf parseDate job step) := ⟨_, _, rfl⟩
    exact ⟨⟨job.name, step.name, Or.inr isEnd⟩, loggedLinesOf_ended noFeed isEnd⟩

theorem KeptLog.seed (kept : KeptLog ending history state) {read : String}
    (honest : state.logged = none -> forall line, line ∈ loggedLinesOf read -> IsStepLine line -> line ∈ loggedLinesOf state.log) :
    KeptLog ending history ⟨state.log, some (seeded state read).1, (seeded state read).2⟩ := by
  refine ⟨?_, ?_, kept.once, kept.steady, kept.inOrder, kept.seen⟩
  · rintro lines isLines line present stepLine
    cases isLines
    unfold seeded at present
    split at present
    · rename_i known isKnown
      exact kept.honest known isKnown line present stepLine
    · rename_i unknown
      exact honest unknown line present stepLine
  · rintro lines isLines isWhole line present stepLine
    cases isLines
    unfold seeded at isWhole ⊢
    split at isWhole
    · rename_i known isKnown
      exact kept.whole known isKnown isWhole line present stepLine
    · simp only
      rw [beq_iff_eq.mp isWhole]
      exact present

theorem IsEnd.stepLine {job step : String} (isEnd : IsEnd (stepLabelPrefix job step) line) : IsStepLine line :=
  ⟨job, step, Or.inr isEnd⟩

theorem mem_withLines {known lines : List String} : line ∈ withLines known lines <-> line ∈ known ∨ line ∈ lines := by
  unfold withLines
  rw [List.mem_append, mem_unseen]
  constructor
  · exact Or.imp id And.left
  · rintro (among | among)
    · exact Or.inl among
    · by_cases known : line ∈ known
      · exact Or.inl known
      · exact Or.inr ⟨among, known⟩

theorem KeptLog.other (kept : KeptLog ending history state) (foreign : ¬ IsStepLine line)
    (foreignParts : forall part, part ∈ loggedLinesOf line -> ¬ IsStepLine part) (remembered : Bool) :
    KeptLog ending history { state with
      log := appendLine state.log line
      logged := if remembered then state.logged.map (withLines · [line]) else state.logged } := by
  have old {part : String} (present : part ∈ loggedLinesOf (appendLine state.log line)) (stepLine : IsStepLine part) :
      part ∈ loggedLinesOf state.log := by
    rw [loggedLinesOf_appendLine, List.mem_append] at present
    exact present.resolve_right fun among => foreignParts part among stepLine
  have kind {lines : List String} (isLines : (if remembered then state.logged.map (withLines · [line]) else state.logged) = some lines) :
      Exists fun known => state.logged = some known ∧ forall part, IsStepLine part -> (part ∈ lines <-> part ∈ known) := by
    split at isLines
    · obtain ⟨known, isKnown, rfl⟩ := Option.map_eq_some_iff.mp isLines
      refine ⟨known, isKnown, fun part stepLine => ?_⟩
      rw [mem_withLines, List.mem_singleton]
      exact ⟨fun among => among.resolve_right fun same => foreign (same ▸ stepLine), Or.inl⟩
    · exact ⟨lines, isLines, fun _ _ => Iff.rfl⟩
  refine ⟨?_, ?_, ?_, ?_, ?_, ?_⟩
  · intro lines isLines part present stepLine
    obtain ⟨known, isKnown, same⟩ := kind isLines
    simp only [loggedLinesOf_appendLine]
    exact List.mem_append_left _ (kept.honest known isKnown part ((same part stepLine).mp present) stepLine)
  · intro lines isLines isWhole part present stepLine
    obtain ⟨known, isKnown, same⟩ := kind isLines
    exact (same part stepLine).mpr (kept.whole known isKnown isWhole part (old present stepLine) stepLine)
  · intro part stepLine
    have absent : (loggedLinesOf line).count part = 0 :=
      List.count_eq_zero.mpr fun among => foreignParts part among stepLine
    simp only [loggedLinesOf_appendLine, List.count_append, absent, Nat.add_zero]
    exact kept.once part stepLine
  · exact fun job step part present isEnd => kept.steady job step part (old present isEnd.stepLine) isEnd
  · intro job step part present isEnd
    simp only [loggedLinesOf_appendLine]
    exact (kept.inOrder job step part (old present isEnd.stepLine) isEnd).trans (List.sublist_append_left _ _)
  · intro base among
    obtain ⟨job, step, part, isBase, isEnd, present⟩ := kept.seen base among
    refine ⟨job, step, part, isBase, isEnd, ?_⟩
    simp only [loggedLinesOf_appendLine]
    exact List.mem_append_left _ present

theorem KeptLog.write (kept : KeptLog ending history state) {lines : List String}
    (isLogged : state.logged = some lines) (isWhole : unseen lines (linesOf parseDate jobs) ≠ [] -> state.whole = true)
    (names : forall job, job ∈ jobs -> forall step, step ∈ relevantSteps job -> '\n' ∉ (labelOf job step).toList ∧
      (IsOver step -> endLineOf parseDate job step = ending (labelOf job step))) :
    KeptLog ending (history ++ labelsOver jobs) ⟨appendLines state.log (unseen lines (linesOf parseDate jobs)),
      some (withLines lines (unseen lines (linesOf parseDate jobs))), state.whole⟩ := by
  have kind {line : String} (among : line ∈ unseen lines (linesOf parseDate jobs)) : IsStepLine line ∧ loggedLinesOf line = [line] :=
    linesOf_single (mem_unseen.mp among).1 fun job isJob step isStep => (names job isJob step isStep).1
  have grown := loggedLinesOf_appendLines state.log fun line among => (kind among).2
  have unlogged {line : String} (among : line ∈ unseen lines (linesOf parseDate jobs)) : line ∉ loggedLinesOf state.log :=
    fun present => (mem_unseen.mp among).2
      (kept.whole lines isLogged (isWhole (List.ne_nil_of_mem among)) line present (kind among).1)
  refine ⟨?_, ?_, ?_, ?_, ?_, ?_⟩
  · rintro known isKnown line present stepLine
    cases isKnown
    rw [grown, List.mem_append]
    exact (mem_withLines.mp present).imp (fun among => kept.honest lines isLogged line among stepLine) id
  · rintro known isKnown whole line present stepLine
    cases isKnown
    rw [grown, List.mem_append] at present
    exact mem_withLines.mpr (present.imp (fun among => kept.whole lines isLogged whole line among stepLine) id)
  · intro line stepLine
    simp only [grown, List.count_append]
    by_cases among : line ∈ unseen lines (linesOf parseDate jobs)
    · rw [List.count_eq_zero.mpr (unlogged among), Nat.zero_add]
      exact List.nodup_iff_count_le_one.mp (nodup_unseen _ _) line
    · rw [List.count_eq_zero.mpr among]
      exact kept.once line stepLine
  · intro job step line present isEnd
    rw [grown, List.mem_append] at present
    rcases present with present | among
    · exact kept.steady job step line present isEnd
    · obtain ⟨actualJob, isJob, actual, isStep, isLine⟩ := mem_linesOf.mp (mem_unseen.mp among).1
      rcases mem_stepLines parseDate isLine with rfl | ⟨isOver, rfl⟩
      · exact absurd isEnd (not_isEnd_started _ _)
      · obtain ⟨word, seconds, same⟩ := isEnd
        rw [(names actualJob isJob actual isStep).2 isOver]
        exact congrArg ending (endLine_inj same)
  · intro job step line present isEnd
    rw [grown, List.mem_append] at present
    simp only [grown]
    rcases present with present | among
    · exact (kept.inOrder job step line present isEnd).trans (List.sublist_append_left _ _)
    · obtain ⟨before, behind, split⟩ := List.append_of_mem among
      obtain ⟨front, back, isAll, rfl⟩ := unseen_split split
      have inFront := follows_linesOf parseDate jobs front back line _ isAll isEnd
      by_cases known : startedLine (stepLabelPrefix job step) ∈ lines
      · have isLogLine := kept.honest lines isLogged _ known ⟨job, step, Or.inl rfl⟩
        exact (List.singleton_sublist.mpr isLogLine).append (List.singleton_sublist.mpr among)
      · rw [split]
        have first := List.singleton_sublist.mpr (mem_unseen.mpr ⟨inFront, known⟩)
        have both := first.append (List.singleton_sublist.mpr (List.mem_cons_self (a := line) (l := behind)))
        exact both.trans (List.sublist_append_right _ _)
  · intro base among
    simp only [grown]
    rcases List.mem_append.mp among with among | gone
    · obtain ⟨job, step, line, isBase, isEnd, present⟩ := kept.seen base among
      exact ⟨job, step, line, isBase, isEnd, List.mem_append_left _ present⟩
    · unfold labelsOver at gone
      obtain ⟨job, isJob, isLabel⟩ := List.mem_flatMap.mp gone
      obtain ⟨step, isStep, rfl⟩ := List.mem_map.mp isLabel
      obtain ⟨isRelevant, decided⟩ := List.mem_filter.mp isStep
      have isEnd : IsEnd (labelOf job step) (endLineOf parseDate job step) := ⟨_, _, rfl⟩
      have isLine : endLineOf parseDate job step ∈ linesOf parseDate jobs := by
        refine mem_linesOf.mpr ⟨job, isJob, step, isRelevant, ?_⟩
        rw [stepLines_of_over parseDate (of_decide_eq_true decided)]
        exact List.mem_cons_of_mem _ List.mem_cons_self
      refine ⟨job.name, step.name, endLineOf parseDate job step, rfl, isEnd, List.mem_append.mpr ?_⟩
      by_cases known : endLineOf parseDate job step ∈ lines
      · exact Or.inl (kept.honest lines isLogged _ known isEnd.stepLine)
      · exact Or.inr (mem_unseen.mpr ⟨isLine, known⟩)

theorem KeptLog.step (kept : KeptLog ending history state) {event : StoryEvent} {output : List String} {first : String}
    (allowed : Allowed parseDate ending state event) (stepped : (story parseDate first).step state event = some (after, output)) :
    KeptLog ending (history ++ output) after := by
  cases event with
  | poll jobs read took =>
    obtain ⟨honest, isWhole, names, takes⟩ := allowed
    have seed := kept.seed honest
    have written := seed.write rfl isWhole names
    simp only [story, followSteps, Option.some.injEq] at stepped
    by_cases isEmpty : (mapRunJobs parseDate jobs (seeded state read).1).newLines = []
    · rw [if_pos isEmpty] at stepped
      cases stepped
      rw [← newLines_eq, isEmpty] at written
      simpa only [withLines, unseen, List.append_nil, appendLines, List.foldl_nil] using written
    · rw [if_neg isEmpty] at stepped
      cases took with
      | none =>
        cases stepped
        rw [List.append_nil]
        exact seed
      | some effect =>
        cases stepped
        rw [newLines_eq, List.filter_eq_self.mpr (takes effect rfl)]
        exact written
  | restart =>
    cases stepped
    rw [List.append_nil]
    refine ⟨?_, ?_, kept.once, kept.steady, kept.inOrder, kept.seen⟩
    · rintro lines ⟨⟩
    · rintro lines ⟨⟩
  | other line remembered =>
    cases stepped
    rw [List.append_nil]
    exact kept.other allowed.1 allowed.2 remembered

theorem KeptLog.start {first : String} (fresh : forall line, line ∈ loggedLinesOf first -> ¬ IsStepLine line) :
    KeptLog ending [] ⟨first, none, false⟩ := by
  refine ⟨?_, ?_, ?_, ?_, ?_, ?_⟩
  · rintro lines ⟨⟩
  · rintro lines ⟨⟩
  · intro line stepLine
    rw [List.count_eq_zero.mpr fun present => fresh line present stepLine]
    exact Nat.zero_le 1
  · exact fun job step line present isEnd => absurd isEnd.stepLine (fresh line present)
  · exact fun job step line present isEnd => absurd isEnd.stepLine (fresh line present)
  · exact fun base among => absurd among List.not_mem_nil

/-- A label has one start line in a log, and after it one end line. -/
def OnceInOrder (lines : List String) (base : String) : Prop :=
  lines.count (startedLine base) = 1 ∧ Exists fun last => IsEnd base last ∧ lines.count last = 1 ∧
    (forall line, line ∈ lines -> IsEnd base line -> line = last) ∧ [startedLine base, last].Sublist lines

theorem KeptLog.onceInOrder (kept : KeptLog ending history state) {base : String} (among : base ∈ history) :
    OnceInOrder (loggedLinesOf state.log) base := by
  obtain ⟨job, step, last, rfl, isEnd, present⟩ := kept.seen base among
  have sublist := kept.inOrder job step last present isEnd
  have isStarted : startedLine (stepLabelPrefix job step) ∈ loggedLinesOf state.log := sublist.mem List.mem_cons_self
  have single {line : String} (isLine : line ∈ loggedLinesOf state.log) (stepLine : IsStepLine line) :
      (loggedLinesOf state.log).count line = 1 :=
    Nat.le_antisymm (kept.once line stepLine) (List.count_pos_iff.mpr isLine)
  refine ⟨single isStarted ⟨job, step, Or.inl rfl⟩, last, isEnd, single present isEnd.stepLine, ?_, sublist⟩
  intro line isLine alsoEnd
  rw [kept.steady job step line isLine alsoEnd, kept.steady job step last present isEnd]

end Preserved

/-- The lines of a step reach the log once and in order while its end line stays the same and no write is
lost in silence. -/
theorem stepLines_onceInOrder (ending : String -> String) {first : String}
    (fresh : forall line, line ∈ loggedLinesOf first -> ¬ IsStepLine line) {history : List String} {state : Story}
    (run : (story parseDate first).Run (Allowed parseDate ending) history state) :
    forall base, base ∈ history -> OnceInOrder (loggedLinesOf state.log) base := by
  have kept := run.invariant (KeptLog ending) (KeptLog.start fresh)
    fun _ _ _ _ _ _ kept allowed stepped => kept.step allowed stepped
  exact fun base among => kept.onceInOrder among

end Passes

def exampleJob (startedAt completedAt : Option String) : GithubRunJob :=
  ⟨"build", "completed", some "success", [⟨"Build image", some 3, "completed", some "success", startedAt, completedAt⟩]⟩

def exampleLabel : String := "[GitHub Actions] build › Build image"

def exampleDates (text : String) : Option Int :=
  if text = "2026-01-01T00:00:00Z" then some 1767225600000
  else if text = "2026-01-01T00:00:05Z" then some 1767225605000
  else none

theorem stepLines_onceInOrder_example : OnceInOrder (loggedLinesOf
    (appendLines "" [exampleLabel ++ " started", exampleLabel ++ " completed in 5s"])) exampleLabel := by
  have empty : loggedLinesOf "" = [] := by decide +kernel
  have allowed : Allowed exampleDates (fun base => base ++ " completed in 5s") (story exampleDates "").initial
      (.poll [exampleJob (some "2026-01-01T00:00:00Z") (some "2026-01-01T00:00:05Z")] "" (some fun _ => true)) := by
    refine ⟨fun _ line present => ?_, fun _ => by decide +kernel, ?_, ?_⟩
    · rw [empty] at present
      cases present
    · intro job isJob step isStep
      rw [List.mem_singleton.mp isJob] at isStep ⊢
      have isOnly : step = ⟨"Build image", some 3, "completed", some "success", some "2026-01-01T00:00:00Z", some "2026-01-01T00:00:05Z"⟩ :=
        List.mem_singleton.mp isStep
      rw [isOnly]
      exact ⟨by decide +kernel, fun _ => by decide +kernel⟩
    · rintro effect ⟨⟩ line _
      rfl
  have run := @Machine.Run.next _ _ _ (story exampleDates "") _ _ _ _ _ _ Machine.Run.start allowed rfl
  have kept := stepLines_onceInOrder exampleDates _ (fun line present => by rw [empty] at present; cases present) run
    exampleLabel (by decide +kernel)
  have isLog : (followSteps exampleDates (story exampleDates "").initial [exampleJob (some "2026-01-01T00:00:00Z") (some "2026-01-01T00:00:05Z")]
      "" (some fun _ => true)).1.log = appendLines "" [exampleLabel ++ " started", exampleLabel ++ " completed in 5s"] := by
    decide +kernel
  rw [← isLog]
  exact kept

/-- Two passes after the step is over, the first of them before its end time is known. -/
def exampleReads (took : String -> Bool) : List StoryEvent :=
  [.poll [exampleJob (some "2026-01-01T00:00:00Z") none] "" (some took),
   .poll [exampleJob (some "2026-01-01T00:00:00Z") (some "2026-01-01T00:00:05Z")] "" (some took)]

/-- The end time of a step may be missing at first, and a line that did not get into the log is remembered as if it had. -/
theorem written_twice_or_never :
    (Exists fun history => Exists fun state => (story exampleDates "").Reaches history state ∧ state.whole = true ∧
      exampleLabel ∈ history ∧ loggedLinesOf state.log = [exampleLabel ++ " started", exampleLabel ++ " completed",
        exampleLabel ++ " completed in 5s"] ∧ ¬ OnceInOrder (loggedLinesOf state.log) exampleLabel) ∧
    Exists fun history => Exists fun state => (story exampleDates "").Reaches history state ∧ state.whole = true ∧
      exampleLabel ∈ history ∧ loggedLinesOf state.log = [] ∧ ¬ OnceInOrder (loggedLinesOf state.log) exampleLabel := by
  have run (took : String -> Bool) (executes : ((story exampleDates "").exec (fun _ _ => true) (story exampleDates "").initial
      (exampleReads took)).isSome = true) : (story exampleDates "").Reaches
      ((story exampleDates "").outcome (fun _ _ => true) (exampleReads took)).2
      ((story exampleDates "").outcome (fun _ _ => true) (exampleReads took)).1 :=
    Machine.run_of_executes (fun _ _ _ => trivial) executes
  refine ⟨⟨_, _, run (fun _ => true) (by decide +kernel), by decide +kernel, by decide +kernel, by decide +kernel, ?_⟩,
    ⟨_, _, run (fun _ => false) (by decide +kernel), by decide +kernel, by decide +kernel, by decide +kernel, ?_⟩⟩
  · rintro ⟨_, last, _, _, only, _⟩
    have first := only (exampleLabel ++ " completed") (by decide +kernel) ⟨.completed, none, by decide +kernel⟩
    have second := only (exampleLabel ++ " completed in 5s") (by decide +kernel) ⟨.completed, some 5, by decide +kernel⟩
    exact absurd (first.trans second.symm) (by decide +kernel)
  · rintro ⟨once, _⟩
    exact absurd once (by decide +kernel)

end GithubRunPoller
end Dokploy
