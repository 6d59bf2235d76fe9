import Dokploy.RegistryRetention.Kept
import Dokploy.Foundation.Turns

namespace Dokploy
namespace RegistryRetention

open Foundation

/-!
# Every repository gets its turn

Where the next run of a compose starts is derived from the place at which this one
ended.  To say which repositories a run listed, the loop is written once more with
notes: it asks for the same operations and ends in the same way, and it keeps the
repositories whose listing came to an end and the job before and after each
repository it was through with.
-/

/-- Where the next run of the compose starts: nowhere in particular after a complete pass. -/
def nextRotation (ordered : List Text) (gathered : Gathered) : Option Text :=
  if gathered.interrupted then
    let next := if gathered.position = 0 then 1 else gathered.position
    ordered[next % ordered.length]?
  else if gathered.job.full then
    ordered[(if gathered.starved then gathered.position - 1 else gathered.position) % ordered.length]?
  else none

section Noting

/-- The first part of a repository's turn: its listing. -/
def listRepo (input : RunInput) (firstPages : Responses) (repo : Text) : Pruning (Option (List Text)) := do
  assertTime
  listTags input.library input.base repo (firstPages (input.repos.idxOf repo))

/-- The other part: its tags are resolved, unless the listing is of no use. -/
def resolveRepo (input : RunInput) (repo : Text) (job : Job) : Option (List Text) -> Pruning Job
  | none => pure job
  | some tags =>
      let required := input.required repo
      let plan := planRepoTags tags required input.tagTimes input.keep
      if plan.doomedTags.isEmpty then pure job
      else
        gatherRepo input.base repo tags plan.doomedTags
          (plan.keptTags ++ required ++ [LATEST_TAG]).eraseDups required job

/-- The job before and after the turn of a repository. -/
structure Passed where
  repo : Text
  before : Job
  after : Job

/-- What a run has gathered, with the repositories it listed and those it was through with. -/
structure Noted where
  gathered : Gathered
  listed : List Text
  passed : List Passed

def Noted.nothing : Noted := ⟨⟨emptyJob, 0, false, false, []⟩, [], []⟩

def Noted.list (noted : Noted) (repo : Text) : Noted := { noted with listed := noted.listed ++ [repo] }

def Gathered.pass (gathered : Gathered) (repo : Text) (job : Job) : Gathered :=
  { gathered with
    job
    position := gathered.position + 1
    reposInRun :=
      if gathered.job.queue.length < job.queue.length then gathered.reposInRun ++ [repo] else gathered.reposInRun
    starved := gathered.starved || (decide (job.queue.length ≤ gathered.job.queue.length) && job.full) }

def Noted.pass (noted : Noted) (repo : Text) (job : Job) : Noted where
  gathered := noted.gathered.pass repo job
  listed := noted.listed ++ [repo]
  passed := noted.passed ++ [⟨repo, noted.gathered.job, job⟩]

def Gathered.interrupt (gathered : Gathered) : Gathered := { gathered with interrupted := true }

def Noted.interrupt (noted : Noted) : Noted := { noted with gathered := noted.gathered.interrupt }

/-- A turn that does not end well ends the loop, and the run unless it was the time that ran out. -/
def stopAt (noted : Noted) : Failure -> Pruning Noted
  | .budgetSpent => do
      let cancelled <- ask .cancelled
      if cancelled then .thrown .budgetSpent else pure noted.interrupt
  | .aborted message => .thrown (.aborted message)

def gatherNoted (input : RunInput) (firstPages : Responses) : List Text -> Noted -> Pruning Noted
  | [], noted => pure noted
  | repo :: repos, noted =>
      if noted.gathered.job.full then pure noted
      else do
        let listing <- (listRepo input firstPages repo).attempt
        match listing with
        | .error failure => stopAt noted failure
        | .ok tags => do
            let result <- (resolveRepo input repo noted.gathered.job tags).attempt
            match result with
            | .ok job => gatherNoted input firstPages repos (noted.pass repo job)
            | .error failure => stopAt (noted.list repo) failure

def gatherAllNoted (input : RunInput) : Pruning Noted := do
  let firstPages <- runAll (input.repos.zipIdx.map fun repo => listRequest repo.2 (getTagsListUrl input.base repo.1))
  gatherNoted input firstPages input.ordered Noted.nothing

end Noting

section Stocking

def Job.Stocked (job : Job) : Prop := job.full = true -> 0 < job.queue.length

theorem tryQueue_stocked (job : Job) (entry : DeleteEntry) (listedTags : Nat) :
    (tryQueue job entry listedTags).1.Stocked := by
  intro _
  unfold tryQueue
  dsimp only
  split
  · rename_i noRoom
    rcases noRoom with many | ⟨some, _⟩
    · exact Nat.lt_of_lt_of_le (by decide) many
    · exact some
  · simp

theorem queueAll_stocked (listedTags : Nat) (entries : List DeleteEntry) (job : Job) (stocked : job.Stocked) :
    (queueAll listedTags job entries).1.Stocked := by
  induction entries generalizing job with
  | nil => exact stocked
  | cons entry entries ih =>
      have next := tryQueue_stocked job entry listedTags
      unfold queueAll
      generalize tryQueue job entry listedTags = tried at next
      rcases tried with ⟨job, _ | _⟩
      · exact next
      · exact ih job next

variable {past : List RetentionEvent}

theorem gatherWaves_stocked {base repo : Text} {required protectedDigests : List Text} {listedTags : Nat}
    {waves : List (List Text)} {job : Job} (stocked : job.Stocked) :
    Gives past (gatherWaves base repo required protectedDigests listedTags waves job) fun job _ => job.Stocked := by
  induction waves generalizing past job with
  | nil => exact Gives.pure stocked
  | cons wave waves ih =>
      unfold gatherWaves
      split
      · exact Gives.pure stocked
      · refine Gives.after fun _ _ _ => Gives.after fun _ _ _ => Gives.after fun doomedDigests _ _ => ?_
        have next := queueAll_stocked listedTags (entriesOf repo required doomedDigests protectedDigests) job stocked
        dsimp only
        split
        · exact Gives.pure next
        · exact ih next

theorem gatherRepo_stocked {base repo : Text} {listed doomed resolve required : List Text} {job : Job}
    (stocked : job.Stocked) :
    Gives past (gatherRepo base repo listed doomed resolve required job) fun job _ => job.Stocked := by
  unfold gatherRepo
  refine Gives.after fun _ _ _ => Gives.after fun read _ _ => ?_
  split
  · exact Gives.pure stocked
  · split
    · exact Gives.after fun _ _ _ => Gives.after fun _ _ _ => Gives.pure stocked
    · exact Gives.after fun _ _ _ => Gives.after fun _ _ _ => Gives.after fun _ _ _ => gatherWaves_stocked stocked

theorem resolveRepo_stocked {input : RunInput} {repo : Text} {job : Job} (stocked : job.Stocked)
    (tags : Option (List Text)) : Gives past (resolveRepo input repo job tags) fun job _ => job.Stocked := by
  cases tags with
  | none => exact Gives.pure stocked
  | some tags =>
      unfold resolveRepo
      dsimp only
      split
      · exact Gives.pure stocked
      · exact gatherRepo_stocked stocked

end Stocking

section Turning

/-- Between two repositories: those before are listed and passed, and only the last of them can have filled the job. -/
structure Turning (ordered left : List Text) (noted : Noted) : Prop where
  split : ordered = noted.listed ++ left
  position : noted.gathered.position = noted.listed.length
  passed : noted.passed.map Passed.repo = noted.listed
  goingOn : noted.gathered.interrupted = false
  stocked : noted.gathered.job.Stocked
  unfilled : noted.gathered.job.full = false ->
    noted.gathered.starved = false ∧ forall passed, passed ∈ noted.passed -> passed.after.full = false
  filled : noted.gathered.job.full = true ->
    Exists fun earlier => Exists fun last : Passed =>
      noted.passed = earlier ++ [last] ∧ last.after = noted.gathered.job ∧
        (forall passed, passed ∈ earlier -> passed.after.full = false) ∧
        noted.gathered.starved = decide (last.after.queue.length ≤ last.before.queue.length) ∧
        (earlier = [] -> last.before = emptyJob)
  first : noted.passed = [] -> noted.gathered.job = emptyJob

theorem Turning.start (ordered : List Text) : Turning ordered ordered Noted.nothing where
  split := rfl
  position := rfl
  passed := rfl
  goingOn := rfl
  stocked := fun full => nomatch full
  unfilled := fun _ => ⟨rfl, fun _ none => nomatch none⟩
  filled := fun full => nomatch full
  first := fun _ => rfl

theorem Turning.pass {ordered left : List Text} {repo : Text} {noted : Noted} {job : Job}
    (turning : Turning ordered (repo :: left) noted) (room : noted.gathered.job.full = false) (stocked : job.Stocked) :
    Turning ordered left (noted.pass repo job) where
  split := by
    rw [turning.split]
    exact (List.append_assoc _ [repo] left).symm
  position := by
    change noted.gathered.position + 1 = (noted.listed ++ [repo]).length
    rw [turning.position, List.length_append, List.length_singleton]
  passed := by
    change (noted.passed ++ [_]).map Passed.repo = noted.listed ++ [repo]
    rw [List.map_append, turning.passed, List.map_singleton]
  goingOn := turning.goingOn
  stocked := stocked
  unfilled := by
    intro unfilled
    change job.full = false at unfilled
    refine ⟨?_, ?_⟩
    · change (noted.gathered.starved || (_ && job.full)) = false
      rw [(turning.unfilled room).1, unfilled, Bool.and_false, Bool.or_false]
    · intro passed member
      rcases List.mem_append.mp member with earlier | last
      · exact (turning.unfilled room).2 passed earlier
      · rw [List.mem_singleton.mp last]
        exact unfilled
  filled := by
    intro filled
    change job.full = true at filled
    refine ⟨noted.passed, ⟨repo, noted.gathered.job, job⟩, rfl, rfl, (turning.unfilled room).2, ?_, turning.first⟩
    change (noted.gathered.starved || (_ && job.full)) = _
    rw [(turning.unfilled room).1, filled, Bool.and_true, Bool.false_or]
  first := fun none => absurd none (List.append_ne_nil_of_right_ne_nil _ (List.cons_ne_nil _ _))

/-- How the loop ends: at the end of the list, with a full job, or in the turn of a repository. -/
inductive Ended (ordered : List Text) (noted : Noted) : Prop
  | through (turning : Turning ordered [] noted)
  | full {left : List Text} (turning : Turning ordered left noted) (full : noted.gathered.job.full = true)
  | unlisted {repo : Text} {left : List Text} {before : Noted} (turning : Turning ordered (repo :: left) before)
      (room : before.gathered.job.full = false) (last : noted = before.interrupt)
  | unresolved {repo : Text} {left : List Text} {before : Noted} (turning : Turning ordered (repo :: left) before)
      (room : before.gathered.job.full = false) (last : noted = (before.list repo).interrupt)

variable {past : List RetentionEvent}

theorem stopAt_gives {good : Noted -> List RetentionEvent -> Prop} {noted : Noted} {failure : Failure}
    (holds : forall after, good noted.interrupt after) : Gives past (stopAt noted failure) good := by
  cases failure with
  | aborted message => exact Gives.thrown
  | budgetSpent =>
      refine Gives.after fun cancelled after _ => ?_
      split
      · exact Gives.thrown
      · exact Gives.pure (holds after)

theorem gatherNoted_ended {input : RunInput} {firstPages : Responses} {ordered left : List Text} {noted : Noted}
    (turning : Turning ordered left noted) :
    Gives past (gatherNoted input firstPages left noted) fun noted _ => Ended ordered noted := by
  induction left generalizing past noted with
  | nil => exact Gives.pure (.through turning)
  | cons repo left ih =>
      unfold gatherNoted
      split
      · rename_i full
        exact Gives.pure (.full turning full)
      · rename_i notFull
        have room : noted.gathered.job.full = false := Bool.eq_false_iff.mpr notFull
        refine Gives.after fun listing _ _ => ?_
        split
        · exact stopAt_gives fun _ => .unlisted turning room rfl
        · rename_i tags
          apply Gives.bind _ (resolveRepo_stocked turning.stocked tags).attempt
          intro result after _ stocked
          split
          · rename_i job
            exact ih (turning.pass room (stocked job rfl))
          · exact stopAt_gives fun _ => .unresolved turning room rfl

theorem gatherAllNoted_ended (input : RunInput) :
    Gives past (gatherAllNoted input) fun noted _ => Ended input.ordered noted :=
  Gives.after fun _ _ _ => gatherNoted_ended (Turning.start input.ordered)

end Turning

section Rotating

/-- The repositories in turn, from the one a run is to resume at. -/
def resumed (repos : List Text) : Option Text -> List Text
  | some repo => if repo ∈ repos then startingWith repos repo else repos
  | none => repos

theorem ordered_eq_resumed (input : RunInput) : input.ordered = resumed input.repos input.resumeAt := by
  unfold RunInput.ordered resumed
  cases input.resumeAt with
  | none => exact List.append_nil _
  | some repo =>
      dsimp only
      split
      · rfl
      · exact List.append_nil _

theorem resumed_rotated (repos : List Text) (resumeAt : Option Text) :
    Exists fun start => resumed repos resumeAt = repos.rotate start := by
  unfold resumed
  split
  · split
    · rename_i member
      exact ⟨_, startingWith_eq_rotate member⟩
    · exact ⟨0, (List.rotate_zero repos).symm⟩
  · exact ⟨0, (List.rotate_zero repos).symm⟩

theorem resumed_head {repos : List Text} {repo : Text} (member : repo ∈ repos) :
    (resumed repos (some repo)).head? = some repo := by
  have inside := List.idxOf_lt_length_of_mem member
  rw [resumed, if_pos member, startingWith, List.drop_eq_getElem_cons inside, List.getElem_idxOf]
  rfl

/-- A run that came to the end of its loop. -/
structure PruneRun where
  input : RunInput
  events : List RetentionEvent
  noted : Noted
  runs : anyWorld.Runs () (gatherAllNoted input) events () (.done noted)

namespace PruneRun

variable (run : PruneRun)

def order : List Text := run.input.ordered

def next : Option Text := nextRotation run.order run.noted.gathered

/-- The run began with the repository, and the time ran out before it was listed. -/
structure OutOfTimeAtFirst (repo : Text) : Prop where
  first : run.order.head? = some repo
  interrupted : run.noted.gathered.interrupted = true
  nothing : run.noted.listed = []

def Serves (repo : Text) : Prop := repo ∈ run.noted.listed ∨ run.OutOfTimeAtFirst repo

/-- The first deletion of the repository did not fit into the job. -/
def Refuses (repo : Text) : Prop :=
  Exists fun before => Exists fun after => Exists fun entry => Exists fun listedTags =>
    ⟨repo, before, after⟩ ∈ run.noted.passed ∧ tryQueue before entry listedTags = (after, false)

theorem ended : Ended run.order run.noted := by
  rcases World.Ensures.of_done (gatherAllNoted_ended run.input) run.runs with ⟨_, _, _, holds⟩
  exact holds run.noted rfl

variable {run}

theorem passes_of_front {repos : List Text} {start : Nat} (distinct : repos.Nodup) (turned : run.order = repos.rotate start)
    {count : Nat} (positive : 0 < count) (inside : count ≤ run.order.length)
    (front : forall repo, repo ∈ run.order.take count -> run.Serves repo) :
    Passes order Serves run (resumed repos run.order[count % run.order.length]?) := by
  rcases Nat.eq_or_lt_of_le inside with all | some
  · apply Passes.complete
    intro repo member
    exact front repo (by rwa [all, List.take_length])
  · rw [Nat.mod_eq_of_lt some]
    have next : run.order[count]? = .some run.order[count] := List.getElem?_eq_getElem some
    have member : run.order[count] ∈ repos := by
      apply List.mem_rotate.mp
      rw [<- turned]
      exact List.getElem_mem some
    have aligned : (repos.rotate start)[count]? = .some run.order[count] := by rw [<- turned, next]
    rw [next, resumed, if_pos member, startingWith_of_rotated distinct aligned, <- turned]
    exact Passes.turned positive front

theorem serves_of_take {count : Nat} {left : List Text} (split : run.order = run.noted.listed ++ left)
    (inside : count ≤ run.noted.listed.length) (repo : Text) (member : repo ∈ run.order.take count) : run.Serves repo := by
  rw [split, List.take_append_of_le_length inside] at member
  exact Or.inl (List.mem_of_mem_take member)

theorem passes_of_full {repos left : List Text} {start : Nat} (distinct : repos.Nodup)
    (turned : run.order = repos.rotate start) (turning : Turning run.order left run.noted)
    (full : run.noted.gathered.job.full = true) : Passes order Serves run (resumed repos run.next) := by
  rcases turning.filled full with ⟨earlier, last, passed, same, _, starved, alone⟩
  have length : run.noted.listed.length = earlier.length + 1 := by
    rw [<- turning.passed, List.length_map, passed, List.length_append, List.length_singleton]
  have bound : run.order.length = run.noted.listed.length + left.length := by
    rw [turning.split, List.length_append]
  rw [next, nextRotation, turning.goingOn, full, turning.position, starved]
  simp only [Bool.false_eq_true, if_false, if_true, decide_eq_true_eq]
  split
  · rename_i nothing
    have others : earlier ≠ [] := by
      intro none
      have stocked : 0 < last.after.queue.length := by
        rw [same]
        exact turning.stocked full
      rw [alone none] at nothing
      exact absurd stocked (Nat.not_lt.mpr nothing)
    have positive : 0 < earlier.length := List.length_pos_iff.mpr others
    exact passes_of_front distinct turned (by omega) (by omega)
      (serves_of_take turning.split (Nat.sub_le _ _))
  · exact passes_of_front distinct turned (by omega) (by omega) (serves_of_take turning.split le_rfl)

/-- The time ran out in the turn of a repository, which is listed or the first one or left to the next run. -/
theorem passes_of_interrupted {repos left : List Text} {start : Nat} {repo : Text} {before : Noted} (distinct : repos.Nodup)
    (turned : run.order = repos.rotate start) (turning : Turning run.order (repo :: left) before)
    (interrupted : run.noted.gathered.interrupted = true)
    (stopped : run.noted.gathered.position = before.gathered.position)
    (listed : run.noted.listed = before.listed ∨ run.noted.listed = before.listed ++ [repo]) :
    Passes order Serves run (resumed repos run.next) := by
  have bound : run.order.length = before.listed.length + (left.length + 1) := by
    rw [turning.split, List.length_append, List.length_cons]
  have serves : forall other, other ∈ before.listed -> run.Serves other := by
    intro other member
    rcases listed with same | more
    · exact Or.inl (same ▸ member)
    · exact Or.inl (more ▸ List.mem_append_left _ member)
  rw [next, nextRotation, interrupted, stopped, turning.position]
  simp only [if_true]
  split
  · rename_i isFirst
    have none : before.listed = [] := List.length_eq_zero_iff.mp isFirst
    have front : run.order = repo :: left := by
      rw [turning.split, none]
      rfl
    apply passes_of_front distinct turned Nat.one_pos (by omega)
    intro other member
    rw [front] at member
    rw [List.mem_singleton.mp member]
    rcases listed with same | more
    · exact Or.inr ⟨by rw [front]; rfl, interrupted, same.trans none⟩
    · exact Or.inl (more ▸ List.mem_append_right _ List.mem_cons_self)
  · apply passes_of_front distinct turned (by omega) (by omega)
    intro other member
    rw [turning.split, List.take_left] at member
    exact serves other member

theorem passes {repos : List Text} {start : Nat} (distinct : repos.Nodup) (turned : run.order = repos.rotate start) :
    Passes order Serves run (resumed repos run.next) := by
  cases run.ended with
  | through turning =>
      apply Passes.complete
      intro repo member
      rw [turning.split, List.append_nil] at member
      exact Or.inl member
  | full turning full => exact passes_of_full distinct turned turning full
  | unlisted turning room last =>
      exact passes_of_interrupted distinct turned turning (by rw [last]; rfl) (by rw [last]; rfl) (Or.inl (by rw [last]; rfl))
  | unresolved turning room last =>
      exact passes_of_interrupted distinct turned turning (by rw [last]; rfl) (by rw [last]; rfl) (Or.inr (by rw [last]; rfl))

theorem next_of_refused {repo : Text} (refuses : run.Refuses repo) : repo ∈ run.order ∧ run.next = some repo := by
  rcases refuses with ⟨before, after, entry, listedTags, member, tried⟩
  have kept : after.full = true ∧ after.queue = before.queue := by
    unfold tryQueue at tried
    dsimp only at tried
    split at tried
    · cases tried
      exact ⟨rfl, rfl⟩
    · cases tried
  have reached : forall {left : List Text}, Turning run.order left run.noted -> repo ∈ run.order ∧ run.next = some repo := by
    intro left turning
    have full : run.noted.gathered.job.full = true := by
      by_contra notFull
      have roomy := (turning.unfilled (Bool.eq_false_iff.mpr notFull)).2 _ member
      exact Bool.false_ne_true (roomy.symm.trans kept.1)
    rcases turning.filled full with ⟨earlier, last, passed, same, others, starved, alone⟩
    have isLast : last = ⟨repo, before, after⟩ := by
      rw [passed] at member
      rcases List.mem_append.mp member with early | final
      · exact absurd (others _ early) (by rw [kept.1]; exact Bool.noConfusion)
      · exact (List.mem_singleton.mp final).symm
    have listed : run.noted.listed = earlier.map Passed.repo ++ [repo] := by
      rw [<- turning.passed, passed, List.map_append, List.map_singleton, isLast]
    have place : run.order = earlier.map Passed.repo ++ repo :: left := by
      rw [turning.split, listed, List.append_assoc, List.singleton_append]
    refine ⟨place ▸ List.mem_append_right _ List.mem_cons_self, ?_⟩
    have inside : earlier.length < (earlier.map Passed.repo ++ repo :: left).length := by simp
    rw [next, nextRotation, turning.goingOn, full, starved, turning.position, isLast, kept.2, listed, place]
    simp only [List.length_append, List.length_map, List.length_singleton, Nat.add_sub_cancel, le_refl, decide_true,
      if_true, Bool.false_eq_true, if_false] at inside ⊢
    rw [Nat.mod_eq_of_lt inside]
    simp
  cases run.ended with
  | through turning => exact reached turning
  | full turning _ => exact reached turning
  | unlisted turning room last =>
      rw [last] at member
      have roomy := (turning.unfilled room).2 _ member
      exact absurd (roomy.symm.trans kept.1) Bool.false_ne_true
  | unresolved turning room last =>
      rw [last] at member
      have roomy := (turning.unfilled room).2 _ member
      exact absurd (roomy.symm.trans kept.1) Bool.false_ne_true

end PruneRun

/-- Consecutive runs of a compose with these repositories.  A run that fails before it comes to the end of the loop
leaves the rotation as it was. -/
inductive PruneRuns (repos : List Text) : Option Text -> List PruneRun -> Prop
  | stop {rotation : Option Text} : PruneRuns repos rotation []
  | run {rotation : Option Text} {run : PruneRun} {runs : List PruneRun} (same : run.input.repos = repos)
      (resumes : run.input.resumeAt = rotation) (rest : PruneRuns repos run.next runs) :
      PruneRuns repos rotation (run :: runs)
  | failed {rotation : Option Text} {runs : List PruneRun} {input : RunInput} {events : List RetentionEvent}
      {failure : Failure} (same : input.repos = repos) (resumes : input.resumeAt = rotation)
      (fails : anyWorld.Runs () (gatherAllNoted input) events () (.thrown failure)) (rest : PruneRuns repos rotation runs) :
      PruneRuns repos rotation runs

namespace PruneRuns

variable {repos : List Text} {rotation : Option Text} {runs : List PruneRun}

theorem takesTurns (distinct : repos.Nodup) (inTurn : PruneRuns repos rotation runs) :
    TakesTurns PruneRun.order PruneRun.Serves (resumed repos rotation) runs := by
  induction inTurn with
  | stop => exact .stop
  | failed _ _ _ _ ih => exact ih
  | @run rotation run runs same resumes _ ih =>
      have order : run.order = resumed repos rotation := by
        rw [PruneRun.order, ordered_eq_resumed, same, resumes]
      rcases resumed_rotated repos rotation with ⟨start, turned⟩
      rw [<- order]
      exact .turn (PruneRun.passes distinct (order.trans turned)) ih

theorem first {run : PruneRun} (inTurn : PruneRuns repos rotation (run :: runs)) :
    run.order = resumed repos rotation ∧ PruneRuns repos run.next runs := by
  generalize isList : run :: runs = all at inTurn
  induction inTurn with
  | stop => cases isList
  | failed _ _ _ _ ih => exact ih isList
  | run same resumes rest _ =>
      cases isList
      exact ⟨by rw [PruneRun.order, ordered_eq_resumed, same, resumes], rest⟩

theorem later {earlier : List PruneRun} (inTurn : PruneRuns repos rotation (earlier ++ runs)) :
    Exists fun reached => PruneRuns repos reached runs := by
  induction earlier generalizing rotation with
  | nil => exact ⟨rotation, inTurn⟩
  | cons run earlier ih => exact ih inTurn.first.2

end PruneRuns

/-- In as many runs as there are repositories each one is listed, or a run began with it and was out of time before it
could list it.  A repository whose first deletion did not fit into a full job is the first one of the next run. -/
theorem repositories_take_turns {repos : List Text} (distinct : repos.Nodup) {rotation : Option Text}
    {runs : List PruneRun} (inTurn : PruneRuns repos rotation runs) :
    (repos.length ≤ runs.length -> forall repo, repo ∈ repos ->
      Exists fun run : PruneRun => run ∈ runs ∧
        (repo ∈ run.noted.listed ∨
          run.order.head? = some repo ∧ run.noted.gathered.interrupted = true ∧ run.noted.listed = [])) ∧
    forall earlier run next later, runs = earlier ++ run :: next :: later ->
      forall repo, run.Refuses repo -> next.order.head? = some repo := by
  refine ⟨?_, ?_⟩
  · intro enough repo member
    rcases resumed_rotated repos rotation with ⟨start, turned⟩
    have all : (resumed repos rotation).length ≤ runs.length := by rwa [turned, List.length_rotate]
    have among : repo ∈ resumed repos rotation := by rwa [turned, List.mem_rotate]
    rcases (inTurn.takesTurns distinct).serve_all all among with ⟨run, isRun, listed | ⟨first, interrupted, nothing⟩⟩
    · exact ⟨run, isRun, Or.inl listed⟩
    · exact ⟨run, isRun, Or.inr ⟨first, interrupted, nothing⟩⟩
  · rintro earlier run next later rfl repo refuses
    rcases inTurn.later with ⟨reached, fromRun⟩
    have member := (PruneRun.next_of_refused refuses).1
    rw [fromRun.first.1] at member
    rcases resumed_rotated repos reached with ⟨start, turned⟩
    rw [turned, List.mem_rotate] at member
    rw [fromRun.first.2.first.1, (PruneRun.next_of_refused refuses).2]
    exact resumed_head member

end Rotating

section Hurrying

theorem exampleNoted_runs : Exists fun run : PruneRun => PruneRuns [exampleRepo] none [run] := by
  have ends : ((Program.answeredBy () exampleAnswers (gatherAllNoted exampleInput)).2).toOption.isSome = true := by
    decide +kernel
  cases ended : (Program.answeredBy () exampleAnswers (gatherAllNoted exampleInput)).2 with
  | error failure =>
      rw [ended] at ends
      cases ends
  | ok noted =>
      exact ⟨⟨exampleInput, _, noted, World.Runs.of_answers (fun _ => trivial) _ ended⟩, .run rfl rfl .stop⟩

theorem exampleRepo_takes_its_turn : Exists fun run : PruneRun => exampleRepo ∈ run.noted.listed ∨
    run.order.head? = some exampleRepo ∧ run.noted.gathered.interrupted = true ∧ run.noted.listed = [] := by
  rcases exampleNoted_runs with ⟨only, inTurn⟩
  have distinct : [exampleRepo].Nodup := by decide
  rcases (repositories_take_turns distinct inTurn).1 le_rfl exampleRepo List.mem_cons_self with ⟨run, _, listed⟩
  exact ⟨run, listed⟩

/-- The registry answers too late: the time is up whenever the run looks. -/
def hurriedAnswers : forall op, Answer op
  | .outOfTime => true
  | op => exampleAnswers op

def hurriedRun : PruneRun where
  input := exampleInput
  events := (Program.answeredBy () hurriedAnswers (gatherAllNoted exampleInput)).1
  noted := Noted.nothing.interrupt
  runs := World.Runs.of_answers (fun _ => trivial) _ rfl

/-- A run that is out of time at once lists nothing, so a run for each repository is not enough. -/
theorem hurried_runs_list_nothing : ¬ forall (repos : List Text) (rotation : Option Text) (runs : List PruneRun),
    repos.Nodup -> PruneRuns repos rotation runs -> repos.length ≤ runs.length -> forall repo, repo ∈ repos ->
      Exists fun run : PruneRun => run ∈ runs ∧ repo ∈ run.noted.listed := by
  intro claim
  have distinct : [exampleRepo].Nodup := by decide
  rcases claim [exampleRepo] none [hurriedRun] distinct (.run rfl rfl .stop) le_rfl exampleRepo List.mem_cons_self with
    ⟨run, member, listed⟩
  rw [List.mem_singleton.mp member] at listed
  cases listed

end Hurrying

end RegistryRetention
end Dokploy
