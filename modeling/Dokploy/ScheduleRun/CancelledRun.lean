import Dokploy.ScheduleRun.Launch

namespace Dokploy
namespace ScheduleRun

open Foundation

/-!
# A cancelled run does not run

What a cancel knows when it answers is that the command is stopped: it does not
run, and the run is not between its last look at the row and the hand-over.  As
long as the row is cancelled that stays so, because the last look finds it.

A cancel that scanned before the command could be seen learns that from the
launch record, provided that the record is not read much later than the scan.
-/

def KillCall.cancel : KillCall -> CancelAttempt
  | .claimed claim | .scanned claim _ | .reverting claim _ | .endingRun claim | .returned claim => .claimed claim
  | .reading | .claiming => .claiming
  | .stillStarting | .failed | .refused => .finished

/-- No command of the run is running, and none can be started without another look at the row. -/
def Stopped (host : RunHost) : Prop := host.command.isRunning = false ∧ host.place ≠ .passed

def Knows (host : RunHost) : KillCall -> Prop
  | .scanned _ clock => clock ≤ host.clock ∧
      forall since visible, host.command = .running since visible -> clock < since + SCHEDULE_LAUNCH_SETTLE_MS
  | .endingRun _ | .returned _ => Stopped host
  | _ => True

/-- A cancelled row has ended for good, or its claim was the last update. -/
structure ClaimShows (history : List (Option Nat × RowWrite)) (row : Option RunRow) : Prop where
  last : forall kept, row = some kept -> kept.status = .cancelled ->
    Ended row ∨ Exists fun index => history.getLast? = some (some index, .claimed)
  unended : forall author, history.getLast? = some (author, .claimed) -> ¬ Ended row

structure Placed (host : RunHost) : Prop where
  before : host.place = .starting ∨ host.place = .connecting -> host.launch = none ∧ host.command = .notStarted
  looking : host.place = .checking ∨ host.place = .passed ->
    host.launch = some .checking ∧ host.command = .notStarted
  executing : host.place = .executing -> Exists fun at_ => host.launch = some (.launched at_) ∧
    forall since visible, host.command = .running since visible -> since = at_
  finished : host.place = .ending ∨ host.place = .forgotten -> host.command.isRunning = false
  ending : host.place ≠ .ending -> host.place ≠ .forgotten -> host.record.ending = .running
  settles : forall since, host.command = .running since false -> host.clock < since + SCHEDULE_LAUNCH_SETTLE_MS

structure Sound (history : List (Option Nat × RowWrite)) (host : RunHost) : Prop where
  consistent : Consistent history host.record
  present : Exists fun kept => host.record.row = some kept
  placed : Placed host
  shows : ClaimShows history host.record.row
  stopped : Ended host.record.row -> Stopped host

structure KillFacts (history : List (Option Nat × RowWrite)) (host : RunHost) (index : Nat) (call : KillCall) : Prop where
  holding : Holding history host.record index call.cancel
  knows : Knows host call
  last : history.getLast? = some (some index, .claimed) -> Exists fun claim => call.cancel = .claimed claim

theorem decide_cases (launch : Option ScheduleRunLaunch) (startedAt : Option Nat) (now : Nat) :
    decideRunWithoutProcess launch startedAt now = .retry ∨
      (launch = none ∧ (decideRunWithoutProcess launch startedAt now = .claim ∨
        decideRunWithoutProcess launch startedAt now = .stranded)) ∨
      Exists fun at_ => launch = some (.launched at_) ∧ at_ + SCHEDULE_LAUNCH_SETTLE_MS ≤ now ∧
        decideRunWithoutProcess launch startedAt now = .gone := by
  cases launch with
  | none =>
      refine Or.inr (Or.inl ⟨rfl, ?_⟩)
      cases startedAt with
      | none => exact Or.inl rfl
      | some started =>
          by_cases old : SCHEDULE_STRANDED_MS ≤ now - started
          · exact Or.inr (if_pos old)
          · exact Or.inl (if_neg old)
  | some mark =>
      cases mark with
      | checking => exact Or.inl rfl
      | launched at_ =>
          by_cases young : now - at_ < SCHEDULE_LAUNCH_SETTLE_MS
          · exact Or.inl (if_pos young)
          · refine Or.inr (Or.inr ⟨at_, rfl, ?_, if_neg young⟩)
            unfold SCHEDULE_LAUNCH_SETTLE_MS at young ⊢
            omega

section Steps

variable {history : List (Option Nat × RowWrite)} {host after : RunHost} {kept : RunRow} {index : Nat}

namespace ClaimShows

variable {row : Option RunRow} {author : Option Nat} {write : RowWrite}

theorem claimed {reading : String} {claimed : RunRow} (updated : claimScheduleRunCancel kept reading = some claimed) :
    ClaimShows (history ++ [(some index, .claimed)]) (some claimed) where
  last := fun _ _ _ => Or.inr ⟨index, List.getLast?_concat⟩
  unended := by
    intro _ _ ended
    unfold claimScheduleRunCancel at updated
    split at updated
    · cases updated
      rcases (ended _ rfl).2 with ⟨other, isEnded⟩
      exact toISOString_ne_endedFinishTime reading other (Option.some.inj isEnded)
    · cases updated

theorem reverted {claim : String} {reverted : RunRow} (updated : revertScheduleRunCancel kept claim = some reverted) :
    ClaimShows (history ++ [(author, .reverted)]) (some reverted) where
  last := by
    intro now isNow cancelled
    unfold revertScheduleRunCancel at updated
    split at updated
    · cases updated
      cases isNow
      cases cancelled
    · cases updated
  unended := by
    intro _ isLast
    rw [List.getLast?_concat] at isLast
    cases isLast

theorem of_story (story : Story (history ++ [(author, write)]) row)
    (isEnd : write = .noted ∨ Exists fun outcome => write = .recorded outcome) :
    ClaimShows (history ++ [(author, write)]) row where
  last := by
    intro now isNow cancelled
    have fits := story.fits (author, write) (List.mem_append_right _ List.mem_cons_self)
    rcases isEnd with noted | ⟨outcome, recorded⟩
    · rw [noted] at fits
      exact Or.inl fits
    · rw [recorded] at fits
      have same : now.status = outcome.status := fits now isNow
      rw [same] at cancelled
      cases outcome <;> cases cancelled
  unended := by
    intro _ isLast
    rw [List.getLast?_concat, Option.some.injEq, Prod.mk.injEq] at isLast
    rcases isEnd with noted | ⟨outcome, recorded⟩
    · rw [noted] at isLast
      cases isLast.2
    · rw [recorded] at isLast
      cases isLast.2

end ClaimShows

namespace Knows

variable {call : KillCall}

theorem of_record (knows : Knows host call) (record : RunRecord) : Knows { host with record := record } call := by
  cases call <;> exact knows

theorem of_over (knows : Knows host call) : Knows { host with command := .finished } call := by
  cases call with
  | scanned claim clock => exact ⟨knows.1, fun _ _ impossible => nomatch impossible⟩
  | endingRun claim => exact ⟨rfl, knows.2⟩
  | returned claim => exact ⟨rfl, knows.2⟩
  | _ => trivial

end Knows

namespace Placed

theorem of_record (placed : Placed host) {record : RunRecord} (sameEnding : record.ending = host.record.ending) :
    Placed { host with record := record } where
  before := placed.before
  looking := placed.looking
  executing := placed.executing
  finished := placed.finished
  ending := fun notEnding notForgotten => sameEnding.trans (placed.ending notEnding notForgotten)
  settles := placed.settles

theorem executes (placed : Placed host) (runs : host.command.isRunning = true) : host.place = .executing := by
  cases place : host.place with
  | starting => rw [(placed.before (Or.inl place)).2] at runs; cases runs
  | connecting => rw [(placed.before (Or.inr place)).2] at runs; cases runs
  | checking => rw [(placed.looking (Or.inl place)).2] at runs; cases runs
  | passed => rw [(placed.looking (Or.inr place)).2] at runs; cases runs
  | executing => rfl
  | ending => rw [placed.finished (Or.inl place)] at runs; cases runs
  | forgotten => rw [placed.finished (Or.inr place)] at runs; cases runs

theorem stopped_of_unlaunched (placed : Placed host) (unlaunched : host.launch = none) : Stopped host := by
  have notPassed : host.place ≠ .passed := by
    intro passed
    have launch := (placed.looking (Or.inr passed)).1
    rw [unlaunched] at launch
    cases launch
  refine ⟨Bool.eq_false_iff.mpr fun runs => ?_, notPassed⟩
  rcases placed.executing (placed.executes runs) with ⟨at_, launched, _⟩
  rw [unlaunched] at launched
  cases launched

theorem stopped_of_settled (placed : Placed host) {at_ clock : Nat} {claim : String}
    (launched : host.launch = some (.launched at_)) (knows : Knows host (.scanned claim clock))
    (settled : at_ + SCHEDULE_LAUNCH_SETTLE_MS ≤ clock) : Stopped host := by
  refine ⟨?_, fun passed => ?_⟩
  · cases isCommand : host.command with
    | running since visible =>
        have runs : host.command.isRunning = true := by rw [isCommand]; rfl
        rcases placed.executing (placed.executes runs) with ⟨other, isLaunch, handedOver⟩
        rw [launched, Option.some.injEq, ScheduleRunLaunch.launched.injEq] at isLaunch
        have early := knows.2 since visible isCommand
        rw [handedOver since visible isCommand, ← isLaunch] at early
        exact absurd early (Nat.not_lt.mpr settled)
    | _ => rfl
  · have launch := (placed.looking (Or.inr passed)).1
    rw [launched] at launch
    cases launch

theorem of_over (placed : Placed host) (executing : host.place = .executing) :
    Placed { host with command := .finished } := by
  rcases placed.executing executing with ⟨at_, launched, _⟩
  refine ⟨fun before => ?_, fun looking => ?_, fun _ => ⟨at_, launched, fun _ _ impossible => nomatch impossible⟩,
    fun _ => rfl, placed.ending, fun _ impossible => nomatch impossible⟩
  · rw [executing] at before
    rcases before with impossible | impossible <;> cases impossible
  · rw [executing] at looking
    rcases looking with impossible | impossible <;> cases impossible

end Placed

namespace KillFacts

variable {call now : KillCall} {author : Option Nat} {write : RowWrite}

theorem holding_idle {record : RunRecord} (idle : forall claim, call.cancel ≠ .claimed claim) :
    Holding history record index call.cancel := by
  cases isCancel : call.cancel with
  | claimed claim => exact absurd isCancel (idle claim)
  | _ => trivial

theorem moves_on (facts : KillFacts history host index call) (sameCancel : now.cancel = call.cancel)
    (knows : Knows host now) : KillFacts history host index now where
  holding := sameCancel ▸ facts.holding
  knows := knows
  last := fun isLast => sameCancel ▸ facts.last isLast

theorem of_idle (idle : forall claim, now.cancel ≠ .claimed claim) (knows : Knows host now)
    (notLast : history.getLast? ≠ some (some index, .claimed)) : KillFacts history host index now where
  holding := holding_idle idle
  knows := knows
  last := fun isLast => absurd isLast notLast

theorem of_write {record : RunRecord} (facts : KillFacts history host index call)
    (holding : Holding (history ++ [(author, write)]) record index call.cancel)
    (notOwn : write = .claimed -> author ≠ some index) :
    KillFacts (history ++ [(author, write)]) { host with record := record } index call where
  holding := holding
  knows := facts.knows.of_record record
  last := by
    intro isLast
    rw [List.getLast?_concat, Option.some.injEq, Prod.mk.injEq] at isLast
    exact absurd isLast.1 (notOwn isLast.2)

end KillFacts

theorem Held.ended_of_missed {claim : String} {record : RunRecord} (held : Held history record.row index claim)
    (missed : record.row.bind (revertScheduleRunCancel · claim) = none) : Ended record.row := by
  rcases held.2 with ended | ⟨bears, _⟩
  · exact ended
  · rw [bears, Option.bind_some, revertScheduleRunCancel, if_pos ⟨rfl, rfl⟩] at missed
    cases missed

variable {writes : List RowWrite} {event : HostEvent} {actors : List KillCall}

theorem killAct_keeps {call now : KillCall}
    (sound : Sound history host)
    (facts : forall position other, actors[position]? = some other -> KillFacts history host position other)
    (settled : ScannedSettled { row := host, actors := actors } (.acts index event))
    (found : actors[index]? = some call) (acted : killAct host call event = some (after, now, writes)) :
    Sound (history ++ writes.map (some index, ·)) after ∧
      KillFacts (history ++ writes.map (some index, ·)) after index now ∧
        forall position other, position ≠ index -> actors[position]? = some other ->
          KillFacts (history ++ writes.map (some index, ·)) after position other := by
  have own := facts index call found
  have unwritten : forall now, KillFacts history host index now -> Sound (history ++ [].map (some index, ·)) host ∧
      KillFacts (history ++ [].map (some index, ·)) host index now ∧
        forall position other, position ≠ index -> actors[position]? = some other ->
          KillFacts (history ++ [].map (some index, ·)) host position other := by
    intro now ownNow
    rw [List.map_nil, List.append_nil]
    exact ⟨sound, ownNow, fun position other _ => facts position other⟩
  have notLast : (forall claim, call.cancel ≠ .claimed claim) -> history.getLast? ≠ some (some index, .claimed) := by
    intro idle isLast
    rcases own.last isLast with ⟨claim, isClaim⟩
    exact idle claim isClaim
  cases call with
  | reading =>
      cases event with
      | read =>
          cases acted
          refine unwritten _ (KillFacts.of_idle ?_ ?_ (notLast (by simp [KillCall.cancel])))
          · split <;> simp [KillCall.cancel]
          · split <;> trivial
      | _ => cases acted
  | claiming =>
      cases event with
      | claim reading =>
          simp only [killAct] at acted
          split at acted
          · cases acted
            exact unwritten _ (KillFacts.of_idle (by simp [KillCall.cancel]) trivial
              (notLast (by simp [KillCall.cancel])))
          · rename_i record claimWrites isWritten applied
            cases acted
            rcases updateRow_cases applied with ⟨_, none, _⟩ | ⟨kept, changed, isKept, updated, isRecord, isWrites⟩
            · exact absurd none isWritten
            · rw [isRecord, isWrites]
              have shows : ClaimShows (history ++ [(some index, .claimed)]) (some changed) := ClaimShows.claimed updated
              refine ⟨⟨sound.consistent.claimed isKept updated, ⟨_, rfl⟩, sound.placed.of_record rfl, shows, fun ended => ?_⟩,
                ⟨Held.of_claimed updated, trivial, fun _ => ⟨_, rfl⟩⟩, fun position other different foundOther => ?_⟩
              · exact absurd ended (shows.unended (some index) List.getLast?_concat)
              · have otherFacts := facts position other foundOther
                refine otherFacts.of_write (KillFacts.holding_idle fun claim isClaim => ?_)
                  fun _ same => different (Option.some.inj same).symm
                have held := otherFacts.holding
                rw [isClaim, Holding, isKept] at held
                exact held.not_running (runs_of_claim updated)
      | _ => cases acted
  | claimed claim =>
      cases event with
      | scan answered =>
          simp only [killAct] at acted
          split at acted
          · rename_i visible
            have runs : host.command.isRunning = true := by
              cases isCommand : host.command with
              | running since seen => rfl
              | _ => rw [isCommand] at visible; cases visible
            have executing := sound.placed.executes runs
            have notPassed : host.place ≠ .passed := by rw [executing]; decide
            cases acted
            rw [List.map_nil, List.append_nil]
            refine ⟨⟨sound.consistent, sound.present, sound.placed.of_over executing, sound.shows, fun _ => ⟨rfl, notPassed⟩⟩, ?_,
              fun position other _ foundOther => ?_⟩
            · refine ⟨?_, ?_, fun isLast => ?_⟩
              · cases answered <;> exact own.holding
              · cases answered
                · trivial
                · exact ⟨rfl, notPassed⟩
              · cases answered <;> exact own.last isLast
            · have otherFacts := facts position other foundOther
              exact ⟨otherFacts.holding, otherFacts.knows.of_over, otherFacts.last⟩
          · rename_i invisible
            cases acted
            refine unwritten _ (own.moves_on ?_ ?_)
            · cases answered <;> rfl
            · cases answered with
              | false => trivial
              | true =>
                  refine ⟨Nat.le_refl _, fun since visible isCommand => ?_⟩
                  cases visible with
                  | true => rw [isCommand] at invisible; exact absurd rfl invisible
                  | false => exact sound.placed.settles since isCommand
      | _ => cases acted
  | scanned claim clock =>
      cases event with
      | decide =>
          simp only [killAct] at acted
          rcases decide_cases host.launch host.startedAt host.clock with retry | ⟨unlaunched, isOutcome⟩ |
              ⟨at_, launched, settledBy, gone⟩
          · rw [retry] at acted
            cases acted
            exact unwritten _ (own.moves_on rfl trivial)
          · have stopped := sound.placed.stopped_of_unlaunched unlaunched
            rcases isOutcome with isClaim | stranded
            · rw [isClaim] at acted
              cases acted
              exact unwritten _ (own.moves_on rfl stopped)
            · rw [stranded] at acted
              cases acted
              exact unwritten _ (own.moves_on rfl stopped)
          · have stopped : Stopped host := sound.placed.stopped_of_settled launched own.knows
              (settled claim clock at_ found launched settledBy)
            rw [gone] at acted
            cases acted
            exact unwritten _ (own.moves_on rfl stopped)
      | _ => cases acted
  | reverting claim failed =>
      cases event with
      | settle reading =>
          simp only [killAct] at acted
          split at acted
          · rename_i missedRecord missed
            cases acted
            have ended : Ended host.record.row := by
              rcases updateRow_cases missed with ⟨_, _, unapplied⟩ | ⟨_, _, _, _, _, impossible⟩
              · exact Held.ended_of_missed own.holding unapplied
              · cases impossible
            cases failed with
            | false => exact unwritten _ (own.moves_on rfl (sound.stopped ended))
            | true =>
                exact unwritten _ (KillFacts.of_idle (by simp [KillCall.cancel]) trivial
                  fun isLast => sound.shows.unended _ isLast ended)
          · rename_i record revertWrites isWritten applied
            cases acted
            rcases updateRow_cases applied with ⟨_, none, _⟩ | ⟨kept, changed, isKept, updated, isRecord, isWrites⟩
            · exact absurd none isWritten
            · have held := own.holding
              rw [KillCall.cancel, Holding, isKept] at held
              rcases held.of_reverted updated with ⟨unended, _, last⟩
              rw [isRecord, isWrites]
              have shows : ClaimShows (history ++ [(some index, .reverted)]) (some changed) := ClaimShows.reverted updated
              have running : changed.status = .running := by
                unfold revertScheduleRunCancel at updated
                split at updated
                · cases updated
                  rfl
                · cases updated
              refine ⟨⟨sound.consistent.reverted isKept held updated, ⟨_, rfl⟩, sound.placed.of_record rfl, shows, fun ended => ?_⟩,
                KillFacts.of_idle ?_ ?_ ?_, fun position other different foundOther => ?_⟩
              · exact absurd ended (unended_of_running running)
              · cases failed <;> simp [KillCall.cancel]
              · cases failed <;> trivial
              · rw [List.map_cons, List.map_nil, List.getLast?_concat]
                exact fun impossible => by cases impossible
              · have otherFacts := facts position other foundOther
                refine otherFacts.of_write (KillFacts.holding_idle fun otherClaim isClaim => ?_)
                  fun impossible => by cases impossible
                have otherHeld := otherFacts.holding
                rw [isClaim, Holding, isKept] at otherHeld
                exact otherHeld.not_others unended last different
      | _ => cases acted
  | endingRun claim =>
      cases event with
      | settle reading =>
          simp only [killAct] at acted
          generalize applied : updateRow host.record (endScheduleRunCancelled · reading) .noted = result at acted
          rcases result with ⟨record, endWrites⟩
          cases acted
          rcases updateRow_cases applied with ⟨same, none, _⟩ | ⟨kept, changed, isKept, updated, isRecord, isWrites⟩
          · rw [same, none]
            exact unwritten _ (own.moves_on rfl own.knows)
          · rw [isRecord, isWrites]
            rcases ended_of_endScheduleRunCancelled updated with ⟨status, ended⟩
            have consistent : Consistent (history ++ [(some index, .noted)]) { host.record with row := some changed } :=
              sound.consistent.noted isKept status ended
            have knows : Stopped host := own.knows
            refine ⟨⟨consistent, ⟨_, rfl⟩, sound.placed.of_record rfl, ClaimShows.of_story consistent.story (Or.inl rfl),
              fun _ => knows⟩, ⟨?_, knows, fun _ => ⟨claim, rfl⟩⟩, fun position other _ foundOther => ?_⟩
            · exact Held.of_ended own.holding.1 ended
            · have otherFacts := facts position other foundOther
              exact otherFacts.of_write (otherFacts.holding.of_ended ended) fun impossible => by cases impossible
      | _ => cases acted
  | returned claim => cases acted
  | stillStarting => cases acted
  | failed => cases acted
  | refused => cases acted

/-- What a step that leaves the row alone has to keep. -/
structure Carries (history : List (Option Nat × RowWrite)) (host after : RunHost) : Prop where
  sound : Sound history after
  facts : forall index call, KillFacts history host index call -> KillFacts history after index call

theorem carries_of_place (sound : Sound history host) (sameRecord : after.record = host.record) (placed : Placed after)
    (scanned : forall claim clock, Knows host (.scanned claim clock) -> Knows after (.scanned claim clock))
    (stopped : host.record.hasStatus .cancelled = true -> Stopped host -> Stopped after) : Carries history host after := by
  have cancelledOf : forall kept, host.record.row = some kept -> kept.status = .cancelled ->
      host.record.hasStatus .cancelled = true := by
    intro kept isKept cancelled
    rw [RunRecord.hasStatus, isKept, Option.any_some, cancelled]
    exact decide_eq_true rfl
  rcases sound.present with ⟨kept, isKept⟩
  refine ⟨⟨sameRecord ▸ sound.consistent, sameRecord ▸ sound.present, placed, sameRecord ▸ sound.shows, fun ended => ?_⟩,
    fun index call facts => ⟨sameRecord ▸ facts.holding, ?_, facts.last⟩⟩
  · rw [sameRecord] at ended
    exact stopped (cancelledOf kept isKept (ended kept isKept).1) (sound.stopped ended)
  · have held : forall claim, call.cancel = .claimed claim -> host.record.hasStatus .cancelled = true := by
      intro claim isClaim
      have held := facts.holding
      rw [isClaim, Holding, isKept] at held
      exact cancelledOf kept isKept held.cancelled
    cases call with
    | scanned claim clock => exact scanned claim clock facts.knows
    | endingRun claim => exact stopped (held claim rfl) facts.knows
    | returned claim => exact stopped (held claim rfl) facts.knows
    | _ => trivial

theorem carries_ends (sound : Sound history host) (running : host.record.ending = .running)
    (idle : host.command.isRunning = false) (call : EndCall) : Carries history host (host.ends call) := by
  have silent : forall row, AnswerHolds { row := row, ending := call.begins } := fun _ => by cases call <;> trivial
  have notPassed : (host.ends call).place ≠ .passed := fun impossible => nomatch impossible
  have placed : Placed (host.ends call) := by
    refine ⟨fun before => ?_, fun looking => ?_, (fun impossible => nomatch impossible), fun _ => idle,
      fun notEnding => absurd rfl notEnding, sound.placed.settles⟩
    · rcases before with impossible | impossible <;> cases impossible
    · rcases looking with impossible | impossible <;> cases impossible
  refine ⟨⟨sound.consistent.of_ending silent (by rw [running]; rfl), sound.present, placed, sound.shows,
    fun _ => ⟨idle, notPassed⟩⟩, fun index killCall facts => ⟨facts.holding.of_ending _, ?_, facts.last⟩⟩
  have knows := facts.knows
  cases killCall with
  | scanned claim clock => exact knows
  | endingRun claim => exact ⟨idle, notPassed⟩
  | returned claim => exact ⟨idle, notPassed⟩
  | _ => trivial

theorem runCommandMove_carries (sound : Sound history host)
    (unlost : event = .connectionLost -> host.command.isRunning = false)
    (moved : runCommandMove host event = some after) : Carries history host after := by
  have placed := sound.placed
  have runsOn : host.place ≠ .ending -> host.place ≠ .forgotten -> host.record.ending = .running := placed.ending
  unfold runCommandMove at moved
  split at moved
  · split at moved
    · rename_i place _
      rcases placed.before (Or.inl place) with ⟨unlaunched, notStarted⟩
      have running := runsOn (by rw [place]; decide) (by rw [place]; decide)
      cases moved
      split
      · exact carries_ends sound running (by rw [notStarted]; rfl) _
      · refine carries_of_place sound rfl ?_ (fun _ _ knows => knows) fun _ stopped =>
          ⟨stopped.1, fun impossible => nomatch impossible⟩
        exact ⟨fun _ => ⟨unlaunched, notStarted⟩, fun looking => (by rcases looking with no | no <;> cases no),
          (fun no => nomatch no), fun finished => (by rcases finished with no | no <;> cases no), fun _ _ => running, placed.settles⟩
    · rename_i place
      rcases placed.looking (Or.inl place) with ⟨checking, notStarted⟩
      have running := runsOn (by rw [place]; decide) (by rw [place]; decide)
      cases moved
      split
      · exact carries_ends sound running (by rw [notStarted]; rfl) _
      · rename_i notCancelled
        refine carries_of_place sound rfl ?_ (fun _ _ knows => knows) fun cancelled => absurd cancelled notCancelled
        exact ⟨fun before => (by rcases before with no | no <;> cases no), fun _ => ⟨checking, notStarted⟩,
          (fun no => nomatch no), fun finished => (by rcases finished with no | no <;> cases no), fun _ _ => running, placed.settles⟩
    · cases moved
  · have checks : (host.place = .starting ∨ host.place = .connecting) ->
        Carries history host { host with place := .checking, launch := some .checking } := by
      intro before
      have running : host.record.ending = .running := by
        refine runsOn ?_ ?_ <;> rcases before with place | place <;> rw [place] <;> decide
      refine carries_of_place sound rfl ?_ (fun _ _ knows => knows) fun _ stopped =>
        ⟨stopped.1, fun impossible => nomatch impossible⟩
      exact ⟨fun before => (by rcases before with no | no <;> cases no), fun _ => ⟨rfl, (placed.before before).2⟩,
        (fun no => nomatch no), fun finished => (by rcases finished with no | no <;> cases no), fun _ _ => running, placed.settles⟩
    split at moved
    · rename_i place _
      cases moved
      exact checks (Or.inl place)
    · rename_i place _
      cases moved
      exact checks (Or.inr place)
    · cases moved
  · split at moved
    · rename_i place
      cases moved
      exact carries_ends sound (runsOn (by rw [place]; decide) (by rw [place]; decide))
        (by rw [(placed.before (Or.inl place)).2]; rfl) _
    · rename_i place
      cases moved
      exact carries_ends sound (runsOn (by rw [place]; decide) (by rw [place]; decide))
        (by rw [(placed.before (Or.inr place)).2]; rfl) _
    · cases moved
  · split at moved
    · rename_i place
      have running := runsOn (by rw [place]; decide) (by rw [place]; decide)
      cases moved
      refine carries_of_place sound rfl ?_ ?_ fun _ stopped => absurd place stopped.2
      · refine ⟨fun before => (by rcases before with no | no <;> cases no),
          fun looking => (by rcases looking with no | no <;> cases no), fun _ => ⟨host.clock, rfl, ?_⟩,
          fun finished => (by rcases finished with no | no <;> cases no), fun _ _ => running, ?_⟩
        · intro since visible isCommand
          cases isCommand
          rfl
        · intro since isCommand
          cases isCommand
          exact Nat.lt_add_of_pos_right (by decide)
      · intro claim clock knows
        refine ⟨knows.1, fun since visible isCommand => ?_⟩
        cases isCommand
        exact Nat.lt_of_le_of_lt knows.1 (Nat.lt_add_of_pos_right (by decide))
    · cases moved
  · split at moved
    · rename_i place isCommand
      cases moved
      exact carries_ends sound (runsOn (by rw [place]; decide) (by rw [place]; decide)) (by rw [isCommand]; rfl) _
    · cases moved
  · split at moved
    · rename_i place _
      cases moved
      exact carries_ends sound (runsOn (by rw [place]; decide) (by rw [place]; decide)) (unlost rfl) _
    · cases moved
  · split at moved
    · rename_i place _
      have idle := placed.finished (Or.inl place)
      cases moved
      refine carries_of_place sound rfl ?_ (fun _ _ knows => knows) fun _ stopped =>
        ⟨stopped.1, fun impossible => nomatch impossible⟩
      exact ⟨fun before => (by rcases before with no | no <;> cases no),
        fun looking => (by rcases looking with no | no <;> cases no), (fun no => nomatch no), fun _ => idle,
        fun _ notForgotten => absurd rfl notForgotten, placed.settles⟩
    · cases moved
  · cases moved

theorem commandMove_carries (sound : Sound history host)
    (moved : commandMove host event = some after) : Carries history host after := by
  have placed := sound.placed
  unfold commandMove at moved
  split at moved
  · split at moved
    · rename_i since visible isCommand
      have runs : host.command.isRunning = true := by rw [isCommand]; rfl
      have executing := placed.executes runs
      rcases placed.executing executing with ⟨at_, launched, handedOver⟩
      cases moved
      refine carries_of_place sound rfl ?_ ?_ fun _ stopped => ?_
      · refine ⟨fun before => ?_, fun looking => ?_, fun _ => ⟨at_, launched, ?_⟩, fun finished => ?_, placed.ending,
          fun _ impossible => nomatch impossible⟩
        · rw [executing] at before
          rcases before with no | no <;> cases no
        · rw [executing] at looking
          rcases looking with no | no <;> cases no
        · intro other seen isRunning
          cases isRunning
          exact handedOver since visible isCommand
        · rw [executing] at finished
          rcases finished with no | no <;> cases no
      · intro claim clock knows
        refine ⟨knows.1, fun other seen isRunning => ?_⟩
        cases isRunning
        exact knows.2 since visible isCommand
      · rw [stopped.1] at runs
        cases runs
    · cases moved
  · split at moved
    · rename_i since visible isCommand
      have executing := placed.executes (by rw [isCommand]; rfl)
      cases moved
      exact carries_of_place sound rfl (placed.of_over executing) (fun _ _ knows => knows.of_over)
        fun _ stopped => ⟨rfl, stopped.2⟩
    · cases moved
  · rename_i duration
    have later : forall settles : (forall since, host.command = .running since false ->
        host.clock + duration < since + SCHEDULE_LAUNCH_SETTLE_MS),
        Carries history host { host with clock := host.clock + duration } := by
      intro settles
      refine carries_of_place sound rfl ⟨placed.before, placed.looking, placed.executing, placed.finished, placed.ending,
        settles⟩ (fun claim clock knows => ⟨Nat.le_add_right_of_le knows.1, knows.2⟩) fun _ stopped => stopped
    split at moved
    · rename_i since isCommand
      split at moved
      · rename_i early
        cases moved
        refine later fun other isRunning => ?_
        rw [isCommand] at isRunning
        cases isRunning
        exact early
      · cases moved
    · rename_i unseen
      cases moved
      exact later fun since isRunning => absurd isRunning (unseen since)
  · cases moved

theorem runMove_writes {record now : RunRecord} {event : StatusEvent}
    (isNote : (Exists fun reading => event = .update reading) ∨ Exists fun reading => event = .mark reading)
    (moved : runMove record event = some (now, writes)) :
    (writes = [] ∧ now.row = record.row) ∨
      Exists fun write => Exists fun kept => writes = [write] ∧ now.row = some kept ∧
        (write = .noted ∨ Exists fun outcome => write = .recorded outcome) := by
  unfold runMove at moved
  split at moved
  · cases moved
    exact Or.inl ⟨rfl, rfl⟩
  · split at moved
    · cases moved
      exact Or.inl ⟨rfl, rfl⟩
    · rename_i isWritten applied
      cases moved
      rcases updateRow_cases applied with ⟨_, none, _⟩ | ⟨_, changed, _, _, isAfter, isWrites⟩
      · exact absurd none isWritten
      · rw [isAfter, isWrites]
        exact Or.inr ⟨_, changed, rfl, rfl, Or.inr ⟨_, rfl⟩⟩
  · split at moved
    · cases moved
      exact Or.inl ⟨rfl, rfl⟩
    · rename_i isWritten applied
      cases moved
      rcases updateRow_cases applied with ⟨_, none, _⟩ | ⟨_, changed, _, _, isAfter, isWrites⟩
      · exact absurd none isWritten
      · rw [isAfter, isWrites]
        exact Or.inr ⟨_, changed, rfl, rfl, Or.inl rfl⟩
  · split at moved
    rename_i applied
    cases moved
    rcases updateRow_cases applied with ⟨same, none, _⟩ | ⟨_, changed, _, _, isAfter, isWrites⟩
    · rw [same, none]
      exact Or.inl ⟨rfl, rfl⟩
    · rw [isAfter, isWrites]
      exact Or.inr ⟨_, changed, rfl, rfl, Or.inl rfl⟩
  · rcases isNote with ⟨_, impossible⟩ | ⟨_, impossible⟩ <;> cases impossible
  · cases moved

theorem noteMove_keeps {reading : String} (sound : Sound history host)
    (facts : forall position other, actors[position]? = some other -> KillFacts history host position other)
    (moved : noteMove host reading = some (after, writes)) :
    Sound (history ++ writes.map (none, ·)) after ∧
      forall position other, actors[position]? = some other ->
        KillFacts (history ++ writes.map (none, ·)) after position other := by
  have steps : host.place = .ending ∧ Exists fun event => Exists fun record =>
      ((Exists fun reading => event = .update reading) ∨ Exists fun reading => event = .mark reading) ∧
        runMove host.record event = some (record, writes) ∧ after = { host with record := record } := by
    unfold noteMove at moved
    split at moved
    · rename_i place _
      rcases Option.map_eq_some_iff.mp moved with ⟨⟨record, said⟩, isMoved, same⟩
      cases same
      exact ⟨place, _, record, Or.inr ⟨reading, rfl⟩, isMoved, rfl⟩
    · rename_i place _
      rcases Option.map_eq_some_iff.mp moved with ⟨⟨record, said⟩, isMoved, same⟩
      cases same
      exact ⟨place, _, record, Or.inl ⟨reading, rfl⟩, isMoved, rfl⟩
    · cases moved
  rcases steps with ⟨place, event, record, isNote, isMoved, isAfter⟩
  have holding : forall position other, (actors.map KillCall.cancel)[position]? = some other ->
      Holding history host.record position other := by
    intro position other foundOther
    rw [List.getElem?_map] at foundOther
    rcases Option.map_eq_some_iff.mp foundOther with ⟨call, foundCall, isCancel⟩
    rw [← isCancel]
    exact (facts position call foundCall).holding
  rcases runMove_keeps sound.consistent holding isMoved with ⟨consistent, kept⟩
  have idle := sound.placed.finished (Or.inl place)
  have notPassed : host.place ≠ .passed := by rw [place]; decide
  have placed : Placed { host with record := record } := ⟨sound.placed.before, sound.placed.looking,
    sound.placed.executing, sound.placed.finished, fun notEnding => absurd place notEnding, sound.placed.settles⟩
  have keptHolding : forall position call, actors[position]? = some call ->
      Holding (history ++ writes.map (none, ·)) record position call.cancel := by
    intro position call foundCall
    apply kept
    rw [List.getElem?_map, foundCall]
    rfl
  rw [isAfter]
  rcases runMove_writes isNote isMoved with ⟨unwritten, sameRow⟩ | ⟨write, row, isWrite, isRow, isEnd⟩
  · rw [unwritten, List.map_nil, List.append_nil] at consistent keptHolding ⊢
    refine ⟨⟨consistent, sameRow ▸ sound.present, placed, sameRow ▸ sound.shows, fun _ => ⟨idle, notPassed⟩⟩,
      fun position call foundCall => ?_⟩
    have callFacts := facts position call foundCall
    exact ⟨keptHolding position call foundCall, callFacts.knows.of_record record, callFacts.last⟩
  · rw [isWrite] at consistent keptHolding ⊢
    refine ⟨⟨consistent, ⟨row, isRow⟩, placed, ClaimShows.of_story consistent.story isEnd, fun _ => ⟨idle, notPassed⟩⟩,
      fun position call foundCall => ?_⟩
    exact (facts position call foundCall).of_write (keptHolding position call foundCall)
      fun _ impossible => nomatch impossible

theorem hostMove_keeps
    (sound : Sound history host)
    (facts : forall position other, actors[position]? = some other -> KillFacts history host position other)
    (settled : ScannedSettled { row := host, actors := actors } (.moves event))
    (moved : hostMove host event = some (after, writes)) :
    Sound (history ++ writes.map (none, ·)) after ∧
      forall position other, actors[position]? = some other ->
        KillFacts (history ++ writes.map (none, ·)) after position other := by
  unfold hostMove at moved
  split at moved
  · exact noteMove_keeps sound facts moved
  · rcases Option.map_eq_some_iff.mp moved with ⟨now, isMoved, same⟩
    cases same
    have carries : Carries history host after := by
      rcases Option.or_eq_some_iff.mp isMoved with ran | ⟨_, went⟩
      · refine runCommandMove_carries sound (fun isLost => ?_) ran
        rw [isLost] at settled
        exact settled
      · exact commandMove_carries sound went
    rw [List.map_nil, List.append_nil]
    exact ⟨carries.sound, fun position other foundOther => carries.facts position other (facts position other foundOther)⟩

end Steps

theorem sound_start (scheduleType : ScheduleType) (startedAt : Option Nat) (finishedAt : Option String) (clock : Nat) :
    Sound [] (startingHost scheduleType startedAt finishedAt clock) where
  consistent := consistent_start finishedAt
  present := ⟨_, rfl⟩
  placed := by
    refine ⟨fun _ => ⟨rfl, rfl⟩, fun looking => ?_, (fun impossible => nomatch impossible), fun finished => ?_,
      fun _ _ => rfl, fun _ impossible => nomatch impossible⟩
    · rcases looking with impossible | impossible <;> cases impossible
    · rcases finished with impossible | impossible <;> cases impossible
  shows := by
    refine ⟨fun kept isKept cancelled => ?_, fun _ impossible => nomatch impossible⟩
    cases isKept
    cases cancelled
  stopped := fun _ => ⟨rfl, fun impossible => nomatch impossible⟩

theorem sound_of_run {scheduleType : ScheduleType} {startedAt : Option Nat} {finishedAt : Option String} {clock : Nat}
    {history : List (Option Nat × RowWrite)} {system : Actors.System RunHost KillCall}
    (run : (scheduleRun scheduleType startedAt finishedAt clock).Run ScannedSettled history system) :
    Sound history system.row ∧
      forall index call, system.actors[index]? = some call -> KillFacts history system.row index call := by
  refine Actors.rely Sound KillFacts (sound_start scheduleType startedAt finishedAt clock) ?_ ?_ ?_ run
  · intro history system start sound fresh
    refine KillFacts.of_idle (by simp [KillCall.cancel, hostBehaviour]) trivial fun isLast => ?_
    exact fresh _ (List.mem_of_getLast? isLast)
  · intro history system index call event host now writes sound facts settled found acted
    exact killAct_keeps sound facts settled found acted
  · intro history system event host writes sound facts settled moved
    exact hostMove_keeps sound facts settled moved

/-- What the answers of the cancels promise.  After an answer without an error no command of the run is running, and a
row that is cancelled while its command runs has a cancel that has not answered. -/
structure AnswersHold (system : Actors.System RunHost KillCall) : Prop where
  returned : forall call, call ∈ system.actors -> call.hasReturned = true -> system.row.command.isRunning = false
  cancelled : system.row.record.hasStatus .cancelled = true -> system.row.command.isRunning = true ->
    Exists fun call => call ∈ system.actors ∧ call.inFlight = true

theorem cancelled_run_stopped (scheduleType : ScheduleType) (startedAt : Option Nat) (finishedAt : Option String)
    (clock : Nat) (history : List (Option Nat × RowWrite)) (system : Actors.System RunHost KillCall)
    (run : (scheduleRun scheduleType startedAt finishedAt clock).Run ScannedSettled history system) :
    AnswersHold system := by
  rcases sound_of_run run with ⟨sound, facts⟩
  have stopped : forall call, call ∈ system.actors -> call.hasReturned = true -> Stopped system.row := by
    intro call member returned
    rcases List.getElem?_of_mem member with ⟨index, found⟩
    have knows := (facts index call found).knows
    cases call with
    | returned claim => exact knows
    | _ => cases returned
  refine ⟨fun call member returned => (stopped call member returned).1, fun cancelled runs => ?_⟩
  rcases sound.present with ⟨kept, isKept⟩
  have isCancelled : kept.status = .cancelled := by
    rw [RunRecord.hasStatus, isKept, Option.any_some] at cancelled
    exact of_decide_eq_true cancelled
  rcases sound.shows.last kept isKept isCancelled with ended | ⟨index, last⟩
  · rw [(sound.stopped ended).1] at runs
    cases runs
  · rcases Actors.author_found run (List.mem_of_getLast? last) with ⟨call, found⟩
    have member := List.mem_of_getElem? found
    rcases (facts index call found).last last with ⟨claim, isClaim⟩
    refine ⟨call, member, ?_⟩
    cases call with
    | returned claim =>
        rw [(stopped _ member rfl).1] at runs
        cases runs
    | reading => cases isClaim
    | claiming => cases isClaim
    | stillStarting => cases isClaim
    | failed => cases isClaim
    | refused => cases isClaim
    | _ => rfl

/-- A cancel claims the row after the last look and scans before the command can be seen.  The answer of the scan takes
as long as a launch takes to settle. -/
def slowScan : List (Actors.Happening Unit HostEvent) :=
  [.starts (), .acts 0 .read, .moves .check, .moves .look, .acts 0 (.claim "1"), .moves .handOver, .acts 0 (.scan true),
    .moves .appears, .moves (.passes 10000), .acts 0 .decide, .acts 0 (.settle "2")]

theorem slowScan_runs : Exists fun history => Exists fun (system : Actors.System RunHost KillCall) =>
    (scheduleRun .dokployServer none none 0).Reaches history system ∧ system.actors = [.returned "1Z"] ∧
      system.row.command = .running 0 true ∧ ¬ AnswersHold system := by
  have run : (scheduleRun .dokployServer none none 0).Reaches _ _ := @Machine.run_of_executes _ _ _
    (scheduleRun .dokployServer none none 0) _ (fun _ _ => true) (fun _ _ _ => trivial) slowScan (by decide)
  refine ⟨_, _, run, by decide, by decide, fun holds => ?_⟩
  exact absurd (holds.returned (.returned "1Z") (by decide) rfl) (by decide)

/-- The same cancel with an answer in time is asked to retry, and the next one finds the command. -/
def scanInTime : List (Actors.Happening Unit HostEvent) :=
  [.starts (), .acts 0 .read, .moves .check, .moves .look, .acts 0 (.claim "1"), .moves .handOver, .acts 0 (.scan true),
    .moves .appears, .acts 0 .decide, .acts 0 (.settle "2"), .starts (), .acts 1 .read, .acts 1 (.claim "3"),
    .acts 1 (.scan true)]

def scannedSettled (system : Actors.System RunHost KillCall) : Actors.Happening Unit HostEvent -> Bool
  | .acts index .decide =>
      match system.actors[index]?, system.row.launch with
      | some (.scanned _ clock), some (.launched at_) =>
          decide (at_ + SCHEDULE_LAUNCH_SETTLE_MS ≤ system.row.clock -> at_ + SCHEDULE_LAUNCH_SETTLE_MS ≤ clock)
      | _, _ => true
  | .moves .connectionLost => !system.row.command.isRunning
  | _ => true

theorem scannedSettled_sound (system : Actors.System RunHost KillCall) (happening : Actors.Happening Unit HostEvent)
    (tested : scannedSettled system happening = true) : ScannedSettled system happening := by
  cases happening with
  | starts start => trivial
  | acts index event =>
      cases event with
      | decide =>
          intro claim clock at_ found launched
          simp only [scannedSettled, found, launched, decide_eq_true_eq] at tested
          exact tested
      | _ => trivial
  | moves event =>
      cases event with
      | connectionLost => simpa [scannedSettled, ScannedSettled] using tested
      | _ => trivial

theorem scanInTime_stops : Exists fun (system : Actors.System RunHost KillCall) =>
    system.actors = [.stillStarting, .returned "3Z"] ∧ system.row.command = .finished ∧ AnswersHold system := by
  have run : (scheduleRun .dokployServer none none 0).Run ScannedSettled _ _ := @Machine.run_of_executes _ _ _
    (scheduleRun .dokployServer none none 0) _ scannedSettled scannedSettled_sound scanInTime (by decide)
  exact ⟨_, by decide, by decide, cancelled_run_stopped .dokployServer none none 0 _ _ run⟩

end ScheduleRun
end Dokploy
