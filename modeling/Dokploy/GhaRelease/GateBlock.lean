import Dokploy.Foundation.Machine
import Dokploy.GhaRelease.Tables

namespace Dokploy
namespace GhaRelease

open DeployGate
open Foundation

/-!
# Whose block is in force

A connection is blocked either because a release was refused or because the gate
held one back.  The row only keeps a flag for the second, which the gate paths
set, read and clear; events change the state without looking at it.  A ledger
beside the tables remembers who wrote the block in force, and is compared with
the flag along every run.
-/

inductive BlockAuthor where
  | gate
  | refusal
  deriving DecidableEq, Repr

/-- One transaction on the connection, or an attempt of the poll to start a
release. -/
inductive Transaction where
  | event (applied : ConnectionEvent) (note : Option (Option String))
  | outcome (releaseId : String) (evaluated : GateOutcome)
  | settings (change : GateSettingsChange)
  | override (releaseId : String) (said : GhaGateOverride)
  | start
  deriving DecidableEq, Repr

namespace Transaction

def perform (platform : Platform) (tables : Tables) : Transaction -> Tables
  | .event applied note => applyConnectionEvent tables applied note
  | .outcome releaseId evaluated => (recordGateOutcome tables releaseId evaluated).1
  | .settings change => updateGateSettings platform tables change
  | .override releaseId said => (overrideGate tables releaseId said).1
  | .start => tables

/-- Who blocks the connection by this transaction, if it does. -/
def blocks (tables : Tables) : Transaction -> Option BlockAuthor
  | .event (.releaseRefused _ true) _ => some .refusal
  | .outcome releaseId evaluated =>
      if (recordGateOutcome tables releaseId evaluated).2 && evaluated.connection == .block &&
        !tables.connection.any (·.foreignBlock) then some .gate
      else none
  | _ => none

end Transaction

def Tables.isBlocked (tables : Tables) : Bool := tables.connection.any fun row => decide (row.state = .blocked)

def Tables.gateFlag (tables : Tables) : Bool := tables.connection.any (·.gateBlocked)

/-- The poll starts a release only past a block of the gate, and never without
access. -/
def GhaConnectionRow.mayStart (row : GhaConnectionRow) : Bool :=
  !(row.foreignBlock || decide (row.state = .disconnected))

structure Ledger where
  tables : Tables
  /-- Who wrote the block in force. -/
  author : Option BlockAuthor
  deriving DecidableEq, Repr

inductive Signal where
  /-- A gate path lifted the block in force. -/
  | lifted (author : Option BlockAuthor)
  /-- The poll started a release, perhaps with a block in force. -/
  | started (author : Option BlockAuthor)
  deriving DecidableEq, Repr

namespace Ledger

def next (platform : Platform) (ledger : Ledger) (transaction : Transaction) : Ledger :=
  let after := transaction.perform platform ledger.tables
  ⟨after, if after.isBlocked then (transaction.blocks ledger.tables).orElse fun _ => ledger.author else none⟩

def signals (platform : Platform) (ledger : Ledger) : Transaction -> List Signal
  | .event _ _ => []
  | .start => if ledger.tables.connection.any (·.mayStart) then [.started ledger.author] else []
  | transaction =>
      if ledger.tables.isBlocked && !(transaction.perform platform ledger.tables).isBlocked then
        [.lifted ledger.author]
      else []

/-- The flag tells the truth: the connection is blocked, and by the gate. -/
def Sound (ledger : Ledger) : Prop :=
  ledger.tables.gateFlag = true -> ledger.tables.isBlocked = true ∧ ledger.author = some .gate

end Ledger

/-- The connection, from the moment it is made, with the block of nobody. -/
def connectionMachine (platform : Platform) (tables : Tables) : Machine Ledger Transaction Signal where
  initial := ⟨tables, none⟩
  step ledger transaction := some (ledger.next platform transaction, ledger.signals platform transaction)

/-- While the gate blocks the connection, no event ends that block or replaces
it. -/
def Respects (ledger : Ledger) : Transaction -> Prop
  | .event event _ => ledger.tables.gateFlag = true -> event.endsBlock = false
  | _ => True

theorem unblockGate_flag (row : GhaConnectionRow) (hasRelease : Bool) :
    (row.unblockGate hasRelease).gateBlocked = false := by
  unfold GhaConnectionRow.unblockGate
  cases flag : row.gateBlocked with
  | false => exact flag
  | true =>
      simp only [Bool.not_true, Bool.false_eq_true, if_false]
      split <;> rfl

theorem unblockGate_of_not_flag {row : GhaConnectionRow} (noFlag : row.gateBlocked = false) (hasRelease : Bool) :
    row.unblockGate hasRelease = row := by
  rw [GhaConnectionRow.unblockGate, noFlag]
  rfl

theorem blockGate_cases (row : GhaConnectionRow) (reason : String) :
    ((row.blockGate reason).state = .blocked ∧ (row.blockGate reason).gateBlocked = true ∧
        row.foreignBlock = false) ∨
      (row.blockGate reason = row ∧ (row.foreignBlock = true ∨ row.state ≠ .blocked)) := by
  unfold GhaConnectionRow.blockGate
  cases foreign : row.foreignBlock with
  | true => exact Or.inr ⟨rfl, Or.inl rfl⟩
  | false =>
      simp only [Bool.false_eq_true, if_false]
      split
      · rename_i notBlocked
        refine Or.inr ⟨rfl, Or.inr fun blocked => notBlocked ?_⟩
        rw [GhaConnectionRow.view, blocked]
        rfl
      · rename_i blocked
        exact Or.inl ⟨not_not.mp blocked, rfl, trivial⟩

theorem withGateStart_state (row : GhaConnectionRow) (outcome : GateOutcome) :
    (row.withGateStart outcome).state = row.state ∧ (row.withGateStart outcome).gateBlocked = row.gateBlocked := by
  unfold GhaConnectionRow.withGateStart
  cases outcome.gateStart <;> exact ⟨rfl, rfl⟩

theorem foreignBlock_withGateStart (row : GhaConnectionRow) (outcome : GateOutcome) :
    (row.withGateStart outcome).foreignBlock = row.foreignBlock := by
  rw [GhaConnectionRow.foreignBlock, (withGateStart_state row outcome).1, (withGateStart_state row outcome).2]
  rfl

/-- An outcome blocks for the gate where nothing else blocked, leaves state and
flag alone, or clears the flag. -/
theorem withOutcome_cases (row : GhaConnectionRow) (outcome : GateOutcome) :
    (outcome.connection = .block ∧ row.foreignBlock = false ∧ (row.withOutcome outcome).state = .blocked ∧
        (row.withOutcome outcome).gateBlocked = true) ∨
      ((outcome.connection = .block -> row.foreignBlock = true ∨ row.state ≠ .blocked) ∧
        (row.withOutcome outcome).state = row.state ∧ (row.withOutcome outcome).gateBlocked = row.gateBlocked) ∨
      (outcome.connection ≠ .block ∧ (row.withOutcome outcome).gateBlocked = false ∧
        (row.gateBlocked = false -> (row.withOutcome outcome).state = row.state)) := by
  have started := withGateStart_state row outcome
  unfold GhaConnectionRow.withOutcome
  cases effect : outcome.connection with
  | keep => exact Or.inr (Or.inl ⟨nofun, started⟩)
  | unblock =>
      refine Or.inr (Or.inr ⟨nofun, unblockGate_flag _ _, fun noFlag => ?_⟩)
      simp only [unblockGate_of_not_flag (started.2.trans noFlag), started.1]
  | block =>
      rcases blockGate_cases (row.withGateStart outcome) (outcome.gateReason.getD "Blocked by the deploy gate") with
        ⟨blocked, flag, notForeign⟩ | ⟨same, other⟩
      · exact Or.inl ⟨rfl, (foreignBlock_withGateStart row outcome) ▸ notForeign, blocked, flag⟩
      · rw [foreignBlock_withGateStart, started.1] at other
        simp only [same]
        exact Or.inr (Or.inl ⟨fun _ => other, started⟩)

theorem recordGateOutcome_cases (tables : Tables) (releaseId : String) (outcome : GateOutcome) :
    recordGateOutcome tables releaseId outcome = (tables, false) ∨
      Exists fun owner => tables.connection = some owner ∧ owner.gateVersion = outcome.gateVersion ∧
        recordGateOutcome tables releaseId outcome =
          (⟨some (owner.withOutcome outcome),
            tables.releases.map fun row => if row.accepts releaseId outcome then row.withOutcome outcome else row⟩,
            true) := by
  unfold recordGateOutcome
  cases tables.connection with
  | none => exact Or.inl rfl
  | some owner =>
      simp only
      split
      · exact Or.inl rfl
      · rename_i sameVersion
        split
        · exact Or.inl rfl
        · exact Or.inr ⟨owner, rfl, not_not.mp sameVersion, rfl⟩

section

variable {platform : Platform} {ledger : Ledger}

variable {row : GhaConnectionRow}

theorem foreignBlock_of_flag (flag : row.gateBlocked = true) : row.foreignBlock = false := by
  rw [GhaConnectionRow.foreignBlock, flag]
  exact Bool.and_false _

variable {transaction : Transaction}

theorem Ledger.Sound.keep (sound : ledger.Sound)
    (blocksNobody : transaction.blocks ledger.tables = none)
    (sameFlag : (transaction.perform platform ledger.tables).gateFlag = true -> ledger.tables.gateFlag = true)
    (staysBlocked : ledger.tables.gateFlag = true -> ledger.tables.isBlocked = true ->
      (transaction.perform platform ledger.tables).isBlocked = true) :
    (ledger.next platform transaction).Sound := by
  intro flag
  rcases sound (sameFlag flag) with ⟨blocked, author⟩
  have stays := staysBlocked (sameFlag flag) blocked
  refine ⟨stays, ?_⟩
  simp only [Ledger.next, if_pos stays, blocksNobody, Option.orElse_none, author]

theorem gateFlag_some {tables : Tables} (isRow : tables.connection = some row) :
    tables.gateFlag = row.gateBlocked := by
  rw [Tables.gateFlag, isRow, Option.any_some]

theorem isBlocked_some {tables : Tables} (isRow : tables.connection = some row) :
    tables.isBlocked = decide (row.state = .blocked) := by
  rw [Tables.isBlocked, isRow, Option.any_some]

theorem blocks_event_of_keeps {tables : Tables} {applied : ConnectionEvent} {note : Option (Option String)}
    (keeps : applied.endsBlock = false) : (Transaction.event applied note).blocks tables = none := by
  cases applied with
  | releaseRefused message block =>
      cases block with
      | false => rfl
      | true => cases keeps
  | _ => rfl

theorem Ledger.Sound.event (sound : ledger.Sound) {applied : ConnectionEvent} (note : Option (Option String))
    (respects : Respects ledger (.event applied note)) : (ledger.next platform (.event applied note)).Sound := by
  cases isRow : ledger.tables.connection with
  | none =>
      intro flag
      have noRow : ((Transaction.event applied note).perform platform ledger.tables).connection = none := by
        simp only [Transaction.perform, applyConnectionEvent, isRow, Option.map_none]
      rw [Ledger.next, Tables.gateFlag, noRow] at flag
      cases flag
  | some row =>
      have after : ((Transaction.event applied note).perform platform ledger.tables).connection =
          some (row.applyEvent applied note) := by
        simp only [Transaction.perform, applyConnectionEvent, isRow, Option.map_some]
      have sameFlag : ((Transaction.event applied note).perform platform ledger.tables).gateFlag =
          ledger.tables.gateFlag := by
        rw [gateFlag_some after, gateFlag_some isRow]
        rfl
      intro flag
      have flagBefore := sameFlag.symm.trans flag
      have keeps := respects flagBefore
      refine sound.keep ?_ (fun _ => flagBefore) (fun _ blocked => ?_) flag
      · exact blocks_event_of_keeps keeps
      · rw [isBlocked_some isRow] at blocked
        rw [isBlocked_some after]
        have view : row.view = ⟨.blocked, row.stateDetail⟩ := by
          rw [GhaConnectionRow.view, of_decide_eq_true blocked]
        simp only [GhaConnectionRow.applyEvent, view, reduceConnection_of_blocked keeps, decide_true]

theorem Ledger.Sound.outcome (sound : ledger.Sound) (releaseId : String) (evaluated : GateOutcome) :
    (ledger.next platform (.outcome releaseId evaluated)).Sound := by
  rcases recordGateOutcome_cases ledger.tables releaseId evaluated with same | ⟨owner, isRow, _, written⟩
  · have performed : (Transaction.outcome releaseId evaluated).perform platform ledger.tables = ledger.tables :=
      congrArg Prod.fst same
    apply sound.keep
    · simp only [Transaction.blocks, same, Bool.false_and, Bool.false_eq_true, if_false]
    · rw [performed]
      exact id
    · rw [performed]
      exact fun _ blocked => blocked
  · have after : ((Transaction.outcome releaseId evaluated).perform platform ledger.tables).connection =
        some (owner.withOutcome evaluated) := by
      rw [Transaction.perform, written]
    have foreign : ledger.tables.connection.any (·.foreignBlock) = owner.foreignBlock := by
      rw [isRow, Option.any_some]
    rcases withOutcome_cases owner evaluated with ⟨effect, notForeign, blocked, _⟩ | ⟨other, state, flag⟩ |
      ⟨noBlock, cleared, _⟩
    · -- The gate is the author of the block it has just written.
      intro _
      have stays : ((Transaction.outcome releaseId evaluated).perform platform ledger.tables).isBlocked = true := by
        rw [isBlocked_some after, blocked]
        rfl
      refine ⟨stays, ?_⟩
      simp only [Ledger.next, if_pos stays, Transaction.blocks, written, effect, foreign, notForeign]
      rfl
    · intro flagAfter
      have flagBefore : ledger.tables.gateFlag = true := by
        rw [gateFlag_some isRow, <- flag]
        exact (gateFlag_some after).symm.trans flagAfter
      have ownerFlag := (gateFlag_some isRow).symm.trans flagBefore
      have ownerState := of_decide_eq_true ((isBlocked_some isRow).symm.trans (sound flagBefore).1)
      have noBlock : evaluated.connection ≠ .block := by
        intro effect
        rcases other effect with isForeign | notBlocked
        · cases isForeign.symm.trans (foreignBlock_of_flag ownerFlag)
        · exact notBlocked ownerState
      refine sound.keep ?_ (fun _ => flagBefore) (fun _ _ => ?_) flagAfter
      · simp only [Transaction.blocks, beq_eq_false_iff_ne.mpr noBlock, Bool.and_false, Bool.false_and,
          Bool.false_eq_true, if_false]
      · rw [isBlocked_some after, state, ownerState]
        rfl
    · intro flagAfter
      cases ((gateFlag_some after).symm.trans flagAfter).symm.trans cleared

/-- What a change that sets no block makes of the row: it clears the flag, or
leaves state and flag alone. -/
def Lifts (row after : GhaConnectionRow) : Prop :=
  (after.gateBlocked = false ∧ (row.gateBlocked = false -> after.state = row.state)) ∨
    (after.state = row.state ∧ after.gateBlocked = row.gateBlocked)

theorem lifts_unblockGate {before : GhaConnectionRow} (sameState : before.state = row.state)
    (sameFlag : before.gateBlocked = row.gateBlocked) (hasRelease : Bool) :
    Lifts row (before.unblockGate hasRelease) := by
  refine Or.inl ⟨unblockGate_flag _ _, fun noFlag => ?_⟩
  rw [unblockGate_of_not_flag (sameFlag.trans noFlag), sameState]

theorem updateGateSettings_cases (tables : Tables) (change : GateSettingsChange) :
    updateGateSettings platform tables change = tables ∨
      Exists fun row => Exists fun after => tables.connection = some row ∧
        (updateGateSettings platform tables change).connection = some after ∧ Lifts row after := by
  unfold updateGateSettings
  cases tables.connection with
  | none => exact Or.inl rfl
  | some row =>
      simp only
      split
      · exact Or.inr ⟨row, _, rfl, rfl, lifts_unblockGate rfl rfl _⟩
      · exact Or.inr ⟨row, _, rfl, rfl, Or.inr ⟨rfl, rfl⟩⟩

theorem overrideGate_cases (tables : Tables) (releaseId : String) (said : GhaGateOverride) :
    (overrideGate tables releaseId said).1 = tables ∨
      (tables.connection = none ∧ (overrideGate tables releaseId said).1.connection = none) ∨
      Exists fun row => Exists fun after => tables.connection = some row ∧
        (overrideGate tables releaseId said).1.connection = some after ∧ Lifts row after := by
  unfold overrideGate
  cases newestAccepted tables.releases with
  | none => exact Or.inl rfl
  | some newest =>
      simp only
      split
      · exact Or.inl rfl
      · cases tables.connection with
        | none => exact Or.inr (Or.inl ⟨rfl, rfl⟩)
        | some row => exact Or.inr (Or.inr ⟨row, _, rfl, rfl, lifts_unblockGate rfl rfl _⟩)

theorem Ledger.Sound.lifts {after : GhaConnectionRow} (sound : ledger.Sound)
    (blocksNobody : transaction.blocks ledger.tables = none) (isRow : ledger.tables.connection = some row)
    (isAfter : (transaction.perform platform ledger.tables).connection = some after) (lifts : Lifts row after) :
    (ledger.next platform transaction).Sound := by
  intro flagAfter
  have afterFlag := (gateFlag_some isAfter).symm.trans flagAfter
  rcases lifts with ⟨cleared, _⟩ | ⟨state, flag⟩
  · cases afterFlag.symm.trans cleared
  · have flagBefore := (gateFlag_some isRow).trans (flag.symm.trans afterFlag)
    refine sound.keep blocksNobody (fun _ => flagBefore) (fun _ blocked => ?_) flagAfter
    rw [isBlocked_some isAfter, state, <- isBlocked_some isRow, blocked]

theorem Ledger.Sound.settings (sound : ledger.Sound) (change : GateSettingsChange) :
    (ledger.next platform (.settings change)).Sound := by
  rcases @updateGateSettings_cases platform ledger.tables change with same | ⟨row, after, isRow, isAfter, lifts⟩
  · have performed : (Transaction.settings change).perform platform ledger.tables = ledger.tables := same
    apply sound.keep rfl
    · rw [performed]
      exact id
    · rw [performed]
      exact fun _ blocked => blocked
  · exact sound.lifts rfl isRow isAfter lifts

theorem Ledger.Sound.override (sound : ledger.Sound) (releaseId : String) (said : GhaGateOverride) :
    (ledger.next platform (.override releaseId said)).Sound := by
  rcases overrideGate_cases ledger.tables releaseId said with same | ⟨_, gone⟩ | ⟨row, after, isRow, isAfter, lifts⟩
  · have performed : (Transaction.override releaseId said).perform platform ledger.tables = ledger.tables := same
    apply sound.keep rfl
    · rw [performed]
      exact id
    · rw [performed]
      exact fun _ blocked => blocked
  · intro flag
    have performed : ((Transaction.override releaseId said).perform platform ledger.tables).connection = none := gone
    rw [Ledger.next, Tables.gateFlag, performed] at flag
    cases flag
  · exact sound.lifts rfl isRow isAfter lifts

theorem Ledger.Sound.start (sound : ledger.Sound) : (ledger.next platform .start).Sound :=
  sound.keep rfl id fun _ blocked => blocked

theorem Ledger.Sound.next (sound : ledger.Sound) {transaction : Transaction} (respects : Respects ledger transaction) :
    (ledger.next platform transaction).Sound := by
  cases transaction with
  | event applied note => exact sound.event note respects
  | outcome releaseId evaluated => exact sound.outcome releaseId evaluated
  | settings change => exact sound.settings change
  | override releaseId said => exact sound.override releaseId said
  | start => exact sound.start

theorem isBlocked_of_not_flag
    (noEvent : forall applied note, transaction ≠ .event applied note) (noFlag : ledger.tables.gateFlag = false)
    (blocked : ledger.tables.isBlocked = true) : (transaction.perform platform ledger.tables).isBlocked = true := by
  have unlifted : forall row after, ledger.tables.connection = some row ->
      (transaction.perform platform ledger.tables).connection = some after -> Lifts row after ->
      (transaction.perform platform ledger.tables).isBlocked = true := by
    rintro row after isRow isAfter (⟨_, same⟩ | ⟨same, _⟩)
    · rw [isBlocked_some isAfter, same ((gateFlag_some isRow).symm.trans noFlag), <- isBlocked_some isRow, blocked]
    · rw [isBlocked_some isAfter, same, <- isBlocked_some isRow, blocked]
  cases transaction with
  | event applied note => exact absurd rfl (noEvent applied note)
  | start => exact blocked
  | settings change =>
      rcases @updateGateSettings_cases platform ledger.tables change with same | ⟨row, after, isRow, isAfter, lifts⟩
      · rw [Transaction.perform, same, blocked]
      · exact unlifted row after isRow isAfter lifts
  | override releaseId said =>
      rcases overrideGate_cases ledger.tables releaseId said with same | ⟨gone, _⟩ |
        ⟨row, after, isRow, isAfter, lifts⟩
      · rw [Transaction.perform, same, blocked]
      · rw [Tables.isBlocked, gone] at blocked
        cases blocked
      · exact unlifted row after isRow isAfter lifts
  | outcome releaseId evaluated =>
      rcases recordGateOutcome_cases ledger.tables releaseId evaluated with same | ⟨owner, isRow, _, written⟩
      · rw [Transaction.perform, same, blocked]
      · have isAfter : ((Transaction.outcome releaseId evaluated).perform platform ledger.tables).connection =
            some (owner.withOutcome evaluated) := by
          rw [Transaction.perform, written]
        rcases withOutcome_cases owner evaluated with ⟨_, _, stays, _⟩ | ⟨_, state, flag⟩ | ⟨_, cleared, state⟩
        · rw [isBlocked_some isAfter, stays]
          rfl
        · exact unlifted owner _ isRow isAfter (Or.inr ⟨state, flag⟩)
        · exact unlifted owner _ isRow isAfter (Or.inl ⟨cleared, state⟩)

/-- A signal that says nothing bad: the gate lifted its own block, or a release
was started with no block in force but the gate's. -/
def Signal.Harmless (signal : Signal) : Prop :=
  signal = .lifted (some .gate) ∨ signal = .started none ∨ signal = .started (some .gate)

theorem harmless_signals (sound : ledger.Sound)
    (unblocked : ledger.tables.isBlocked = false -> ledger.author = none) {signal : Signal}
    (member : signal ∈ ledger.signals platform transaction) : signal.Harmless := by
  have lifted : (forall applied note, transaction ≠ .event applied note) ->
      signal ∈ (if ledger.tables.isBlocked && !(transaction.perform platform ledger.tables).isBlocked then
        [Signal.lifted ledger.author] else []) -> signal.Harmless := by
    intro noEvent inSignals
    split at inSignals
    · rename_i lift
      have blocked := (Bool.and_eq_true_iff.mp lift).1
      have gone : (transaction.perform platform ledger.tables).isBlocked = false := by
        simpa only [Bool.not_eq_true'] using (Bool.and_eq_true_iff.mp lift).2
      cases flag : ledger.tables.gateFlag with
      | false => cases gone.symm.trans (isBlocked_of_not_flag noEvent flag blocked)
      | true =>
          rw [List.mem_singleton.mp inSignals, (sound flag).2]
          exact Or.inl rfl
    · cases inSignals
  cases transaction with
  | event applied note => cases member
  | outcome releaseId evaluated => exact lifted nofun member
  | settings change => exact lifted nofun member
  | override releaseId said => exact lifted nofun member
  | start =>
      simp only [Ledger.signals] at member
      split at member
      · rename_i may
        rw [List.mem_singleton.mp member]
        cases blocked : ledger.tables.isBlocked with
        | false => exact Or.inr (Or.inl (congrArg _ (unblocked blocked)))
        | true =>
            cases isRow : ledger.tables.connection with
            | none =>
                rw [isRow] at may
                cases may
            | some row =>
                rw [isRow, Option.any_some, GhaConnectionRow.mayStart, Bool.not_eq_true', Bool.or_eq_false_iff,
                  GhaConnectionRow.foreignBlock, <- isBlocked_some isRow, blocked, Bool.true_and] at may
                have flag : ledger.tables.gateFlag = true := by
                  simpa only [gateFlag_some isRow, Bool.not_eq_false'] using may.1
                exact Or.inr (Or.inr (congrArg _ (sound flag).2))
      · cases member

theorem blocked_of_endsBlock {detail : Option String} {event : ConnectionEvent} (ends : event.endsBlock = true)
    (blocked : (reduceConnection ⟨.blocked, detail⟩ event).state = .blocked) :
    Exists fun message => event = .releaseRefused message true := by
  cases event with
  | releaseRefused message block =>
      cases block with
      | false => cases ends
      | true => exact ⟨message, rfl⟩
  | unblock hasRelease => cases hasRelease <;> cases blocked
  | releaseDeployed => cases blocked
  | tokenRevoked => cases blocked
  | _ => cases ends

/-- An event that ends or replaces the block of the gate leaves the flag behind,
and it is no longer true. -/
theorem not_sound_of_disrespect (sound : ledger.Sound)
    (disrespects : ¬ Respects ledger transaction) : ¬ (ledger.next platform transaction).Sound := by
  cases transaction with
  | outcome releaseId evaluated => exact absurd trivial disrespects
  | settings change => exact absurd trivial disrespects
  | override releaseId said => exact absurd trivial disrespects
  | start => exact absurd trivial disrespects
  | event applied note =>
      rcases Classical.not_imp.mp disrespects with ⟨flag, ends⟩
      cases isRow : ledger.tables.connection with
      | none =>
          rw [Tables.gateFlag, isRow] at flag
          cases flag
      | some row =>
          have isAfter : ((Transaction.event applied note).perform platform ledger.tables).connection =
              some (row.applyEvent applied note) := by
            simp only [Transaction.perform, applyConnectionEvent, isRow, Option.map_some]
          have flagAfter : (ledger.next platform (.event applied note)).tables.gateFlag = true :=
            (gateFlag_some isAfter).trans ((gateFlag_some isRow).symm.trans flag)
          intro soundAfter
          rcases soundAfter flagAfter with ⟨blockedAfter, author⟩
          have blocked := of_decide_eq_true ((isBlocked_some isRow).symm.trans (sound flag).1)
          have stateAfter := of_decide_eq_true ((isBlocked_some isAfter).symm.trans blockedAfter)
          have view : row.view = ⟨.blocked, row.stateDetail⟩ := by rw [GhaConnectionRow.view, blocked]
          simp only [GhaConnectionRow.applyEvent, view] at stateAfter
          rcases blocked_of_endsBlock (Bool.not_eq_false _ ▸ ends) stateAfter with ⟨message, refused⟩
          subst refused
          have stays : ((Transaction.event (.releaseRefused message true) note).perform platform
              ledger.tables).isBlocked = true := blockedAfter
          simp only [Ledger.next, if_pos stays, Transaction.blocks] at author
          cases author

end

/-- In every run in which no event ends or replaces the block of the gate, the
flag is true only while the gate blocks the connection, no gate path lifts the
block of a refused release, and no release is started through one.  Any such
event makes the flag false at once. -/
theorem gateFlag_truthful (platform : Platform) (tables : Tables) (noFlag : tables.gateFlag = false) :
    (forall history ledger, (connectionMachine platform tables).Run Respects history ledger ->
      ledger.Sound ∧ (forall author, Signal.lifted author ∈ history -> author = some .gate) ∧
        forall author, Signal.started author ∈ history -> author ≠ some .refusal) ∧
    (forall ledger transaction, ledger.Sound -> ¬ Respects ledger transaction ->
      ¬ (ledger.next platform transaction).Sound) := by
  refine ⟨fun history ledger run => ?_, fun ledger transaction sound => not_sound_of_disrespect sound⟩
  have invariant : ledger.Sound ∧ (ledger.tables.isBlocked = false -> ledger.author = none) ∧
      forall signal, signal ∈ history -> signal.Harmless := by
    refine Machine.Run.invariant (fun history ledger => ledger.Sound ∧
      (ledger.tables.isBlocked = false -> ledger.author = none) ∧
        forall signal, signal ∈ history -> signal.Harmless) ?_ ?_ run
    · exact ⟨(fun flag => by cases noFlag.symm.trans flag), fun _ => rfl, nofun⟩
    · rintro history ledger transaction after output - ⟨sound, unblocked, harmless⟩ respects stepped
      cases stepped
      refine ⟨sound.next respects, fun notBlocked => ?_, fun signal member => ?_⟩
      · exact if_neg fun blocked => by cases notBlocked.symm.trans blocked
      · rcases List.mem_append.mp member with before | now
        · exact harmless signal before
        · exact harmless_signals sound unblocked now
  refine ⟨invariant.1, fun author member => ?_, fun author member => ?_⟩
  · rcases invariant.2.2 _ member with lifted | started | started
    · exact Signal.lifted.inj lifted
    · cases started
    · cases started
  · rcases invariant.2.2 _ member with lifted | started | started
    · cases lifted
    · rw [Signal.started.inj started]
      decide
    · rw [Signal.started.inj started]
      decide

/-- A connection with the gate on, and one release that waits. -/
def gatedTables : Tables where
  connection := some
    { ghaConnectionId := "c1", organizationId := "o1", serviceType := .application, serviceId := "s1", repoId := 7
      repoFullName := "acme/shop", workflowPath := ".github/workflows/dokploy.yml", trackedBranch := "main"
      gateMode := .checks, gateWorkflows := [], gateTimeoutMinutes := 60, gateStartedAt := none, gateVersion := 0
      gateBlocked := false, state := .waiting, stateDetail := none, deployedSha := none, deployedRunId := none
      deployedRunAttempt := none, deployedDigests := [], lastError := none }
  releases :=
    [{ releaseId := "r1", manifestReleaseId := "gh-90.1", sha := "a", runId := 90, runAttempt := 1, delivery := .pull
       status := .accepted, githubDeploymentId := some 11, images := [], digests := [], gateState := none
       gateReason := none, gateCheckedAt := none, gateExpected := none, gateOverride := none, createdAt := 0 }]

def checkFailed : GateOutcome :=
  ⟨.blocked, some "Check ci failed", 1, none, 0, none, .keep, .block, false⟩

def checkPassed : GateOutcome := ⟨.passed, none, 2, some 1, 0, none, .clear, .unblock, false⟩

def gatedPlatform : Platform := ⟨id, fun _ => none, fun _ _ => true⟩

theorem gateFlag_truthful_gated :
    (forall history ledger, (connectionMachine gatedPlatform gatedTables).Run Respects history ledger ->
      ledger.Sound ∧ (forall author, Signal.lifted author ∈ history -> author = some .gate) ∧
        forall author, Signal.started author ∈ history -> author ≠ some .refusal) ∧
    (forall ledger transaction, ledger.Sound -> ¬ Respects ledger transaction ->
      ¬ (ledger.next gatedPlatform transaction).Sound) :=
  gateFlag_truthful gatedPlatform gatedTables (by decide)

/-- While the gate blocks the connection another release is refused.  The flag
outlives the block it was set for: the poll may start a release through the
refusal, and the gate lifts it. -/
theorem refusal_overridden :
    Exists fun history => Exists fun ledger =>
      (connectionMachine gatedPlatform gatedTables).Reaches history ledger ∧
        Signal.started (some .refusal) ∈ history ∧ Signal.lifted (some .refusal) ∈ history :=
  ⟨_, _, Machine.run_of_executes (fun _ _ _ => trivial)
    (by decide : ((connectionMachine gatedPlatform gatedTables).exec (fun _ _ => true)
      (connectionMachine gatedPlatform gatedTables).initial
      [.outcome "r1" checkFailed, .event (.releaseRefused "The manifest is invalid" true) none, .start,
        .outcome "r1" checkPassed]).isSome = true), by decide, by decide⟩

end GhaRelease
end Dokploy
