import Dokploy.DoDomain.Transition
import Dokploy.Foundation.Splits

namespace Dokploy
namespace DoDomain

open Foundation

/-!
# Webhook and poller on one domain

The updates that carry their own guard keep their promises in every run: a failure
is notified once, and a link leaves the status alone.

Two writes rest on the read.  An abandoned session resets a status that was pending
when it was read, and the undo of a verified domain that could not be applied puts
the read back.  What is said about these needs the read to be fresh.
-/

/-- The status goes from another value to `failed`. -/
def fails : DomainWrite -> Bool
  | .wrote _ before values =>
      before.dnsVerificationStatus ≠ some .failed && (before.set values).dnsVerificationStatus = some .failed
  | _ => false

def notifies : DomainWrite -> Bool
  | .notified _ => true
  | _ => false

def saidBy (history : List (Option Nat × DomainWrite)) (index : Nat) (what : DomainWrite -> Bool) : Nat :=
  history.countP fun entry => entry.1 = some index && what entry.2

def Applying.pendingNotices : Applying -> Nat
  | .notifying _ _ => 1
  | _ => 0

/-- Each change to `failed` is notified once, by the call that made it. -/
def NotifiesOnce (history : List (Option Nat × DomainWrite)) (index : Nat) (call : Applying) : Prop :=
  saidBy history index fails = saidBy history index notifies + call.pendingNotices

def AbandonKeeps : DomainWrite -> Prop
  | .wrote .abandoned before values =>
      before.dnsVerificationStatus = some .verified ∨ before.dnsVerificationStatus = some .failed ->
        (before.set values).dnsVerificationStatus ≠ some .unverified
  | _ => True

def LinkKeeps : DomainWrite -> Prop
  | .wrote .linked before values => (before.set values).dnsVerificationStatus = before.dnsVerificationStatus
  | _ => True

/-- A column is as it was, or as somebody else wrote it in the meantime. -/
def Explained {Value : Type} (index : Nat) (middle : List (Option Nat × DomainWrite)) (old : Value)
    (sets : DomainValues -> Option Value) (now : Value) : Prop :=
  now = old ∨ Exists fun author => Exists fun kind => Exists fun before => Exists fun values =>
    author ≠ some index ∧ (author, .wrote kind before values) ∈ middle ∧ sets values = some now

/-- What a call that throws leaves behind. -/
def LeavesAsFound (history : List (Option Nat × DomainWrite)) : Prop :=
  forall earlier index row later, history = earlier ++ (some index, .threw row) :: later ->
    forall first before values middle, earlier = first ++ (some index, .wrote .verified before values) :: middle ->
      Explained index middle before.dnsVerificationStatus (·.dnsVerificationStatus) row.dnsVerificationStatus ∧
        Explained index middle before.dnsVerifiedAt (·.dnsVerifiedAt) row.dnsVerifiedAt ∧
        Explained index middle before.dodomainConnectionId (·.dodomainConnectionId) row.dodomainConnectionId

/-- The three columns that an undo writes. -/
def SameState (left right : Domain) : Prop :=
  left.dnsVerificationStatus = right.dnsVerificationStatus ∧ left.dnsVerifiedAt = right.dnsVerifiedAt ∧
    left.dodomainConnectionId = right.dodomainConnectionId

/-- The rule.  An abandoned call that read `pending` does not write to a row that is verified or failed by now.  An
undo finds the row verified, its read is the row that its own update found, and that was not failed. -/
def ActsFresh (system : Actors.System Domain Applying) : Actors.Happening TransitionCall ApplyEvent -> Prop
  | .acts index (.update _) => forall call read sessionId, system.actors[index]? = some (.ready call read) ->
      call.transition = .abandoned sessionId -> read.dnsVerificationStatus = some .pending ->
        system.row.dodomainSessionId = some sessionId -> call.expected system.row = true ->
          system.row.dnsVerificationStatus ≠ some .verified ∧ system.row.dnsVerificationStatus ≠ some .failed
  | .acts index .undo => forall read before, system.actors[index]? = some (.undoing read before) ->
      system.row.dnsVerificationStatus = some .verified ∧ SameState read before ∧
        read.dnsVerificationStatus ≠ some .failed
  | _ => True

section Histories

variable {history : List (Option Nat × DomainWrite)} {said : List DomainWrite} {index author : Nat}
  {call now : Applying}

theorem saidBy_append_self (what : DomainWrite -> Bool) :
    saidBy (history ++ said.map (some index, ·)) index what = saidBy history index what + said.countP what := by
  rw [saidBy, List.countP_append, List.countP_map]
  congr 1
  apply List.countP_congr
  intro write _
  simp

theorem saidBy_append_other (different : author ≠ index) (what : DomainWrite -> Bool) :
    saidBy (history ++ said.map (some author, ·)) index what = saidBy history index what := by
  rw [saidBy, List.countP_append, List.countP_map]
  have none : said.countP ((fun entry : Option Nat × DomainWrite => entry.1 = some index && what entry.2) ∘
      (some author, ·)) = 0 := by
    rw [List.countP_eq_zero]
    intro write _
    simp [different]
  rw [none, Nat.add_zero]
  rfl

theorem NotifiesOnce.balanced (once : NotifiesOnce history index call)
    (balance : call.pendingNotices + said.countP fails = said.countP notifies + now.pendingNotices) :
    NotifiesOnce (history ++ said.map (some index, ·)) index now := by
  unfold NotifiesOnce at once ⊢
  rw [saidBy_append_self, saidBy_append_self, once]
  omega

/-- A call that has its update behind it knows the row it changed, and one that has not has changed none. -/
def KnowsUpdate (history : List (Option Nat × DomainWrite)) (index : Nat) : Applying -> Prop
  | .reading _ | .ready _ _ | .following _ => forall before values,
      (some index, .wrote .verified before values) ∉ history
  | .reapplying _ found _ | .undoing _ found => forall before values,
      (some index, .wrote .verified before values) ∈ history -> before = found
  | _ => True

theorem mem_other {entry : Option Nat × DomainWrite} (member : entry ∈ history ++ said.map (some author, ·))
    (different : entry.1 ≠ some author) : entry ∈ history := by
  rcases List.mem_append.mp member with old | new
  · exact old
  · rcases List.mem_map.mp new with ⟨write, _, same⟩
    rw [← same] at different
    exact absurd rfl different

theorem KnowsUpdate.other (knows : KnowsUpdate history index call) (different : author ≠ index) :
    KnowsUpdate (history ++ said.map (some author, ·)) index call := by
  have old : forall before values, (some index, DomainWrite.wrote .verified before values) ∈
      history ++ said.map (some author, ·) -> (some index, DomainWrite.wrote .verified before values) ∈ history :=
    fun before values member => mem_other member fun same => different (Option.some.inj same).symm
  cases call with
  | reading call => exact fun before values member => knows before values (old before values member)
  | ready call read => exact fun before values member => knows before values (old before values member)
  | following call => exact fun before values member => knows before values (old before values member)
  | reapplying read found updated => exact fun before values member => knows before values (old before values member)
  | undoing read found => exact fun before values member => knows before values (old before values member)
  | _ => trivial

theorem LeavesAsFound.snoc {entry : Option Nat × DomainWrite} (leaves : LeavesAsFound history)
    (quiet : forall row, entry.2 ≠ .threw row) : LeavesAsFound (history ++ [entry]) := by
  intro earlier index row later same
  rcases split_of_snoc same with ⟨_, isEntry, _⟩ | ⟨middle, _, old⟩
  · rw [isEntry] at quiet
    exact absurd rfl (quiet row)
  · exact leaves earlier index row middle old

end Histories

structure Agrees (history : List (Option Nat × DomainWrite)) : Prop where
  keeps : forall entry, entry ∈ history -> AbandonKeeps entry.2 ∧ LinkKeeps entry.2
  leaves : LeavesAsFound history

structure CallFacts (history : List (Option Nat × DomainWrite)) (index : Nat) (call : Applying) : Prop where
  once : NotifiesOnce history index call
  knows : KnowsUpdate history index call

variable {values : DomainValues}

theorem set_status {before : Domain} (unset : values.dnsVerificationStatus = none) :
    (before.set values).dnsVerificationStatus = before.dnsVerificationStatus := by
  rw [Domain.set, unset]
  rfl

theorem fails_of_status {kind : UpdateKind} {before : Domain}
    (unfailed : (before.set values).dnsVerificationStatus = before.dnsVerificationStatus ∨
      (before.set values).dnsVerificationStatus ≠ some .failed) : fails (.wrote kind before values) = false := by
  simp only [fails]
  rcases unfailed with same | other
  · rw [same]
    by_cases failed : before.dnsVerificationStatus = some .failed <;> simp [failed]
  · simp [other]

theorem followUp_status {call : TransitionCall} {guard : Domain -> Bool}
    (isFollowUp : followUp call = some (values, guard)) : values.dnsVerificationStatus = none := by
  unfold followUp at isFollowUp
  split at isFollowUp
  · split at isFollowUp <;> cases isFollowUp
    rfl
  · split at isFollowUp
    · cases isFollowUp
      rfl
    · split at isFollowUp <;> cases isFollowUp
      rfl
  · cases isFollowUp
  · cases isFollowUp

section Steps

variable {history : List (Option Nat × DomainWrite)} {row after : Domain} {index : Nat}

theorem CallFacts.silent {call now : Applying} (facts : CallFacts history index call)
    (pending : now.pendingNotices = call.pendingNotices)
    (knows : KnowsUpdate history index call -> KnowsUpdate history index now) : CallFacts history index now where
  once := by
    unfold NotifiesOnce
    rw [pending]
    exact facts.once
  knows := knows facts.knows

theorem Agrees.snoc {entry : Option Nat × DomainWrite} (agrees : Agrees history)
    (keeps : AbandonKeeps entry.2 ∧ LinkKeeps entry.2) (quiet : forall row, entry.2 ≠ .threw row) :
    Agrees (history ++ [entry]) where
  keeps := by
    intro other member
    rcases List.mem_append.mp member with old | new
    · exact agrees.keeps other old
    · rw [List.mem_singleton.mp new]
      exact keeps
  leaves := agrees.leaves.snoc quiet

theorem firstUpdate_says {call : TransitionCall} {read : Domain} {now : Nat} {values : DomainValues}
    {guard : Domain -> Bool} (isFirst : firstUpdate call read now = (values, guard)) (allowed : guard row = true)
    (fresh : forall sessionId, call.transition = .abandoned sessionId -> read.dnsVerificationStatus = some .pending ->
      row.dodomainSessionId = some sessionId -> call.expected row = true ->
        row.dnsVerificationStatus ≠ some .verified ∧ row.dnsVerificationStatus ≠ some .failed) :
    AbandonKeeps (.wrote call.transition.kind row values) ∧ LinkKeeps (.wrote call.transition.kind row values) ∧
      (afterUpdate call read row (row.set values)).pendingNotices =
        if fails (.wrote call.transition.kind row values) then 1 else 0 := by
  rcases call with ⟨transition, expectedStatus⟩
  cases transition with
  | verified connectionId verifiedAt =>
      cases isFirst
      refine ⟨trivial, trivial, ?_⟩
      rw [fails_of_status (Or.inr (by simp [Domain.set]))]
      rfl
  | failed reason connectionId dropConnection =>
      cases isFirst
      refine ⟨trivial, trivial, ?_⟩
      have other := (Bool.and_eq_true _ _ ▸ allowed).1
      have changes : forall values : DomainValues, values.dnsVerificationStatus = some (some .failed) ->
          fails (.wrote .failed row values) = true := by
        intro values sets
        simp only [fails, Bool.and_eq_true]
        exact ⟨other, by simp [Domain.set, sets]⟩
      rw [DoDomainTransition.kind, if_pos (changes _ rfl)]
      rfl
  | linked connectionId =>
      cases isFirst
      refine ⟨trivial, set_status rfl, ?_⟩
      rw [fails_of_status (Or.inl (set_status rfl))]
      rfl
  | abandoned sessionId =>
      cases isFirst
      have holds := Bool.and_eq_true _ _ ▸ allowed
      by_cases pending : read.dnsVerificationStatus = some .pending
      · rw [if_pos pending]
        have unchanged := fresh sessionId rfl pending (of_decide_eq_true holds.1) holds.2
        refine ⟨fun was => ?_, trivial, ?_⟩
        · rcases was with verified | failed
          · exact absurd verified unchanged.1
          · exact absurd failed unchanged.2
        · rw [fails_of_status (Or.inr (by simp [Domain.set]))]
          rfl
      · rw [if_neg pending]
        refine ⟨fun was => ?_, trivial, ?_⟩
        · rw [set_status rfl]
          rcases was with verified | failed
          · rw [verified]
            decide
          · rw [failed]
            decide
        · rw [fails_of_status (Or.inl (set_status rfl))]
          rfl

theorem afterUpdate_knows {call : TransitionCall} {read updated : Domain} {values : DomainValues}
    (knows : KnowsUpdate history index (.ready call read)) :
    KnowsUpdate (history ++ [(some index, .wrote call.transition.kind row values)]) index
      (afterUpdate call read row updated) := by
  unfold afterUpdate
  cases isTransition : call.transition with
  | verified connectionId verifiedAt =>
      intro before written member
      rcases List.mem_append.mp member with old | new
      · exact absurd old (knows before written)
      · cases List.mem_singleton.mp new
        rfl
  | _ => trivial

theorem undo_leaves {read before undone : Domain} (agrees : Agrees history)
    (knows : KnowsUpdate history index (.undoing read before)) (same : SameState read before)
    (isUndone : undone = row.set (undoValues read)) :
    Agrees (history ++ [(some index, .wrote .undo row (undoValues read)), (some index, .threw undone)]) where
  keeps := by
    intro entry member
    rcases List.mem_append.mp member with old | new
    · exact agrees.keeps entry old
    · rcases List.mem_cons.mp new with undo | rest
      · rw [undo]
        exact ⟨trivial, trivial⟩
      · rw [List.mem_singleton.mp rest]
        exact ⟨trivial, trivial⟩
  leaves := by
    have quiet : LeavesAsFound (history ++ [(some index, .wrote .undo row (undoValues read))]) :=
      agrees.leaves.snoc fun _ impossible => nomatch impossible
    intro earlier author thrown later split first found values middle isEarlier
    rw [List.append_cons] at split
    rcases split_of_snoc split with ⟨isHistory, isThrew, _⟩ | ⟨rest, _, old⟩
    · cases isThrew
      have member : (some index, DomainWrite.wrote .verified found values) ∈
          history ++ [(some index, .wrote .undo row (undoValues read))] := by
        rw [isHistory, isEarlier]
        exact List.mem_append_right _ List.mem_cons_self
      have isFound : found = before := by
        rcases List.mem_append.mp member with old | new
        · exact knows found values old
        · cases List.mem_singleton.mp new
      rw [isUndone, isFound]
      exact ⟨Or.inl same.1, Or.inl same.2.1, Or.inl same.2.2⟩
    · exact quiet earlier author thrown rest old first found values middle isEarlier

theorem applyAct_keeps {actors : List Applying} {call now : Applying} {event : ApplyEvent} {said : List DomainWrite}
    (agrees : Agrees history) (facts : CallFacts history index call)
    (fresh : ActsFresh { row := row, actors := actors } (.acts index event)) (found : actors[index]? = some call)
    (acted : applyAct row call event = some (after, now, said)) :
    Agrees (history ++ said.map (some index, ·)) ∧ CallFacts (history ++ said.map (some index, ·)) index now := by
  unfold applyAct at acted
  split at acted
  · cases acted
    rw [List.map_nil, List.append_nil]
    exact ⟨agrees, facts.silent rfl fun knows => knows⟩
  · rename_i call read now
    split at acted
    · cases acted
      rw [List.map_nil, List.append_nil]
      exact ⟨agrees, facts.silent rfl fun _ => trivial⟩
    · generalize isFirst : firstUpdate call read now = first at acted
      rcases first with ⟨values, guard⟩
      simp only [updateDomainWhere] at acted
      by_cases allowed : guard row = true
      · rw [if_pos allowed] at acted
        cases acted
        rcases firstUpdate_says isFirst allowed (fun sessionId => fresh call read sessionId found) with
          ⟨abandonKeeps, linkKeeps, pending⟩
        refine ⟨agrees.snoc ⟨abandonKeeps, linkKeeps⟩ (fun _ impossible => nomatch impossible), ?_,
          afterUpdate_knows facts.knows⟩
        refine facts.once.balanced ?_
        rw [pending, List.countP_singleton, List.countP_singleton]
        simp [Applying.pendingNotices, notifies]
      · rw [if_neg allowed] at acted
        cases acted
        rw [List.map_nil, List.append_nil]
        refine ⟨agrees, facts.silent ?_ fun knows => ?_⟩
        · unfold afterMiss
          split
          · rfl
          · split <;> rfl
        · unfold afterMiss
          split
          · trivial
          · split
            · exact knows
            · trivial
  · rename_i call
    split at acted
    · rename_i values guard isFollowUp
      have unset : values.dnsVerificationStatus = none := followUp_status isFollowUp
      simp only [updateDomainWhere] at acted
      by_cases allowed : guard row = true
      · rw [if_pos allowed] at acted
        cases acted
        refine ⟨agrees.snoc ⟨trivial, trivial⟩ (fun _ impossible => nomatch impossible),
          facts.once.balanced ?_, trivial⟩
        rw [List.countP_singleton, List.countP_singleton, fails_of_status (Or.inl (set_status unset))]
        rfl
      · rw [if_neg allowed] at acted
        cases acted
        rw [List.map_nil, List.append_nil]
        exact ⟨agrees, facts.silent rfl fun _ => trivial⟩
    · cases acted
  · rename_i read before updated succeeds
    cases acted
    rw [List.map_nil, List.append_nil]
    refine ⟨agrees, facts.silent ?_ fun knows => ?_⟩
    · cases succeeds <;> rfl
    · cases succeeds
      · exact knows
      · trivial
  · rename_i read before
    rcases fresh read before found with ⟨verified, same, unfailed⟩
    rw [updateDomainWhere, if_pos (decide_eq_true verified)] at acted
    cases acted
    refine ⟨undo_leaves agrees facts.knows same rfl, facts.once.balanced ?_, trivial⟩
    have stays : fails (.wrote .undo row (undoValues read)) = false := fails_of_status (Or.inr unfailed)
    rw [List.countP_cons, List.countP_singleton, stays]
    rfl
  · rename_i reason updated
    cases acted
    refine ⟨agrees.snoc ⟨trivial, trivial⟩ (fun _ impossible => nomatch impossible), facts.once.balanced rfl, trivial⟩
  · cases acted

end Steps

theorem agrees_of_run {domain : Domain} {history : List (Option Nat × DomainWrite)}
    {system : Actors.System Domain Applying} (run : (domainTransitions domain).Run ActsFresh history system) :
    Agrees history ∧ forall index call, system.actors[index]? = some call -> CallFacts history index call := by
  refine Actors.rely (fun history _ => Agrees history) (fun history _ index call => CallFacts history index call)
    ?_ ?_ ?_ (fun _ _ _ _ _ _ _ _ moved => by cases moved) run
  · exact ⟨fun _ member => absurd member List.not_mem_nil, fun _ _ _ _ same => absurd same (by simp)⟩
  · intro history system call agrees unsaid
    have silent : forall what, saidBy history system.actors.length what = 0 := by
      intro what
      rw [saidBy, List.countP_eq_zero]
      rintro ⟨author, write⟩ member tells
      rw [Bool.and_eq_true, decide_eq_true_eq] at tells
      exact unsaid write (tells.1 ▸ member)
    refine ⟨?_, fun before values member => unsaid _ member⟩
    unfold NotifiesOnce
    rw [silent, silent]
    rfl
  · intro history system index call event row now said agrees facts fresh found acted
    rcases applyAct_keeps agrees (facts index call found) fresh found acted with ⟨agreesNow, factsNow⟩
    refine ⟨agreesNow, factsNow, fun position other different foundOther => ?_⟩
    have otherFacts := facts position other foundOther
    refine ⟨?_, otherFacts.knows.other different.symm⟩
    unfold NotifiesOnce
    rw [saidBy_append_other different.symm, saidBy_append_other different.symm]
    exact otherFacts.once

/-- The four promises, in every run whose calls act on fresh reads. -/
theorem transitions_agree (domain : Domain) (history : List (Option Nat × DomainWrite))
    (system : Actors.System Domain Applying) (run : (domainTransitions domain).Run ActsFresh history system) :
    (forall index call, system.actors[index]? = some call -> NotifiesOnce history index call) ∧
      (forall entry, entry ∈ history -> AbandonKeeps entry.2 ∧ LinkKeeps entry.2) ∧ LeavesAsFound history := by
  rcases agrees_of_run run with ⟨agrees, facts⟩
  exact ⟨fun index call found => (facts index call found).once, agrees.keeps, agrees.leaves⟩

def pendingDomain : Domain where
  dnsVerificationStatus := some .pending
  dnsVerifiedAt := none
  dodomainConnectionId := none
  dodomainSessionId := some "session"

def abandons : TransitionCall where
  transition := .abandoned "session"
  expectedStatus := none

def drifts : TransitionCall where
  transition := .failed "drift" none false
  expectedStatus := some (some .pending)

def verifies : TransitionCall where
  transition := .verified (some "connection") none
  expectedStatus := none

/-- The domain is verified between the read and the update of an abandoned session. -/
def verifiedMeanwhile : List (Actors.Happening TransitionCall ApplyEvent) :=
  [.starts abandons, .starts verifies, .acts 0 .read, .acts 1 .read, .acts 1 (.update 1), .acts 0 (.update 2)]

theorem verifiedMeanwhile_regresses : Exists fun history => Exists fun (system : Actors.System Domain Applying) =>
    (domainTransitions pendingDomain).Reaches history system ∧
      system.row.dnsVerificationStatus = some .unverified ∧
        ¬ (forall entry, entry ∈ history -> AbandonKeeps entry.2 ∧ LinkKeeps entry.2) := by
  have run : (domainTransitions pendingDomain).Reaches _ _ := @Machine.run_of_executes _ _ _
    (domainTransitions pendingDomain) _ (fun _ _ => true) (fun _ _ _ => trivial) verifiedMeanwhile (by decide)
  refine ⟨_, _, run, by decide, fun keeps => ?_⟩
  let verified : Domain := { pendingDomain with
    dnsVerificationStatus := some .verified
    dnsVerifiedAt := some 1
    dodomainConnectionId := some "connection" }
  have kept := (keeps (some 0, .wrote .abandoned verified
    { dodomainSessionId := some none, dnsVerificationStatus := some (some .unverified) }) (by decide)).1
  exact kept (Or.inl rfl) rfl

/-- A verified domain that cannot be applied and is put back, a failure, and an abandoned session after it. -/
def undoneInTime : List (Actors.Happening TransitionCall ApplyEvent) :=
  [.starts verifies, .acts 0 .read, .acts 0 (.update 1), .acts 0 (.applied false), .acts 0 .undo, .starts drifts,
    .acts 1 .read, .acts 1 (.update 2), .acts 1 .notify, .starts abandons, .acts 2 .read, .acts 2 (.update 3)]

def actsFresh (system : Actors.System Domain Applying) : Actors.Happening TransitionCall ApplyEvent -> Bool
  | .acts index (.update _) =>
      match system.actors[index]? with
      | some (.ready _ read) =>
          read.dnsVerificationStatus ≠ some .pending ||
            (system.row.dnsVerificationStatus ≠ some .verified && system.row.dnsVerificationStatus ≠ some .failed)
      | _ => true
  | .acts index .undo =>
      match system.actors[index]? with
      | some (.undoing read before) =>
          system.row.dnsVerificationStatus = some .verified && read = before &&
            read.dnsVerificationStatus ≠ some .failed
      | _ => true
  | _ => true

theorem actsFresh_sound (system : Actors.System Domain Applying)
    (happening : Actors.Happening TransitionCall ApplyEvent) (tested : actsFresh system happening = true) :
    ActsFresh system happening := by
  cases happening with
  | starts call => trivial
  | moves event => trivial
  | acts index event =>
      cases event with
      | update now =>
          intro call read sessionId found _ pending _ _
          simpa [actsFresh, found, pending] using tested
      | undo =>
          intro read before found
          simp only [actsFresh, found, Bool.and_eq_true, decide_eq_true_eq] at tested
          rcases tested with ⟨⟨verified, same⟩, unfailed⟩
          rw [same] at unfailed ⊢
          exact ⟨verified, ⟨rfl, rfl, rfl⟩, unfailed⟩
      | _ => trivial

theorem undoneInTime_agrees : Exists fun history => Exists fun (system : Actors.System Domain Applying) =>
    system.row = { pendingDomain with dnsVerificationStatus := some .failed, dodomainSessionId := none } ∧
      LeavesAsFound history ∧
        forall index call, system.actors[index]? = some call -> NotifiesOnce history index call := by
  have run : (domainTransitions pendingDomain).Run ActsFresh _ _ := @Machine.run_of_executes _ _ _
    (domainTransitions pendingDomain) _ actsFresh actsFresh_sound undoneInTime (by decide)
  have agrees := transitions_agree pendingDomain _ _ run
  exact ⟨_, _, by decide, agrees.2.2, agrees.1⟩

end DoDomain
end Dokploy
