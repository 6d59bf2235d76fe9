import Dokploy.GithubRunPoller.RowSteps

namespace Dokploy
namespace GithubRunPoller

open Foundation
open Foundation.World (Ensures)

/-!
# What a pass does with all rows

A pass forgets the rows that are not listed and then goes through the listed ones
in the order of their last reads.  Rows have different ids, so what is known of a
row when the pass begins is still known when its turn comes.
-/

abbrev PassEvent : Type := Event PassState PollerOp PollerOp.Answer

inductive Steps {Item : Type} (takes : Item -> PassState -> PassState -> Prop) :
    List Item -> PassState -> PassState -> Prop
  | nil (state : PassState) : Steps takes [] state state
  | cons {item : Item} {rest : List Item} {before middle after : PassState} :
      takes item before middle -> Steps takes rest middle after -> Steps takes (item :: rest) before after

theorem Steps.split {Item : Type} {takes : Item -> PassState -> PassState -> Prop} {first second : List Item}
    {before after : PassState} (steps : Steps takes (first ++ second) before after) :
    Exists fun middle => Steps takes first before middle ∧ Steps takes second middle after := by
  induction first generalizing before with
  | nil => exact ⟨before, .nil before, steps⟩
  | cons item rest ih =>
      cases steps with
      | cons step more =>
          rcases ih more with ⟨middle, left, right⟩
          exact ⟨middle, .cons step left, right⟩

section Loops

variable {rows : Except String (List LiveRunRow)} {clock : Nat} {guarantee : List PassEvent -> PassEvent -> Prop}

theorem ensures_forEach {Item : Type} {takes : Item -> PassState -> PassState -> Prop} {body : Item -> Task Unit}
    (items : List Item) {past : List PassEvent} {state : PassState}
    (each : forall item, item ∈ items -> forall past state, (world rows clock).Ensures guarantee (body item)
      (fun result _ after => result = .ok () ∧ takes item state after) past state) :
    (world rows clock).Ensures guarantee (forEach body items)
      (fun result _ after => result = .ok () ∧ Steps takes items state after) past state := by
  induction items generalizing past state with
  | nil => exact ⟨rfl, .nil state⟩
  | cons item rest ih =>
      apply Ensures.bind
      refine (each item List.mem_cons_self past state).mono ?_
      rintro result past middle ⟨rfl, step⟩
      refine (ih fun other member => each other (List.mem_cons_of_mem _ member)).mono ?_
      rintro result _ after ⟨isDone, steps⟩
      exact ⟨isDone, .cons step steps⟩

def Pruned (rows : List LiveRunRow) (before after : PassState) : Prop :=
  after.reads = before.reads ∧ after.fetched = before.fetched ∧ forall id,
    getEntry after.states id =
      if id ∈ rows.map LiveRunRow.deploymentId then getEntry before.states id else none

theorem getEntry_of_forgotten {ids : List String} {before after : PassState}
    (steps : Steps (fun id state after => after = { state with states := deleteEntry state.states id }) ids before after) :
    after.reads = before.reads ∧ after.fetched = before.fetched ∧ forall id,
      getEntry after.states id = if id ∈ ids then none else getEntry before.states id := by
  induction steps with
  | nil state => exact ⟨rfl, rfl, fun id => rfl⟩
  | @cons forgotten rest before middle after step _ ih =>
      subst step
      rcases ih with ⟨reads, fetched, entries⟩
      refine ⟨reads, fetched, fun id => ?_⟩
      rw [entries id]
      by_cases same : id = forgotten
      · rw [same, if_pos List.mem_cons_self]
        split
        · rfl
        · exact getEntry_deleteEntry_self _ _
      · have other : id ∈ forgotten :: rest <-> id ∈ rest := by rw [List.mem_cons]; exact or_iff_right same
        simp only [other]
        split
        · rfl
        · exact getEntry_deleteEntry_other _ same

end Loops

/-- An operation that asks others about a row. -/
def PollerOp.about : PollerOp -> Option String
  | .fetchRun row => some row.deploymentId
  | .readLog row => some row.deploymentId
  | .appendLines row _ => some row.deploymentId
  | .setProgress id _ _ => some id
  | .markRunFinished id => some id
  | .endRow id _ => some id
  | _ => none

theorem ensures_poll (round : Rat -> Number) (parseDate : String -> Option Int) {rows : List LiveRunRow}
    {now : Nat} {guarantee : List PassEvent -> PassEvent -> Prop} {takes : LiveRunRow -> PassState -> PassState -> Prop}
    (silent : forall past event, event.op.about = none -> guarantee past event)
    (each : forall row, row ∈ rows -> forall past state,
      (world (.ok rows) now).Ensures guarantee (pollRow round parseDate row now)
        (fun _ _ after => takes row state after) past state)
    {past : List PassEvent} {before : PassState} :
    (world (.ok rows) now).Ensures guarantee (poll round parseDate)
      (fun _ _ after => Exists fun start => Pruned rows before start ∧
        Steps takes (ordered start.states rows) start after) past before := by
  apply Ensures.bind
  apply ensures_call fun _ _ => silent _ _ rfl
  rintro listed after ⟨rfl, same⟩
  subst after
  apply Ensures.bind
  apply ensures_call fun _ _ => silent _ _ rfl
  rintro followed after ⟨rfl, same⟩
  subst after
  apply Ensures.bind
  refine (ensures_forEach _ fun id _ past state => ensures_call (fun _ _ => silent _ _ rfl)
    fun _ after performed => ⟨rfl, (performed : after = { state with states := deleteEntry state.states id })⟩).mono ?_
  rintro result _ start ⟨rfl, forgotten⟩
  have pruned : Pruned rows before start := by
    rcases getEntry_of_forgotten forgotten with ⟨reads, fetched, entries⟩
    refine ⟨reads, fetched, fun id => ?_⟩
    rw [entries id]
    by_cases listed : id ∈ rows.map LiveRunRow.deploymentId
    · rw [if_pos listed]
      split
      · rename_i dropped
        exact absurd listed (of_decide_eq_true (List.mem_filter.mp dropped).2)
      · rfl
    · rw [if_neg listed]
      split
      · rfl
      · rename_i unknown
        exact getEntry_of_missing fun known => unknown (List.mem_filter.mpr ⟨known, decide_eq_true listed⟩)
  apply Ensures.bind
  apply ensures_call fun _ _ => silent _ _ rfl
  rintro time after ⟨rfl, same⟩
  subst after
  apply Ensures.bind
  apply ensures_call fun _ _ => silent _ _ rfl
  rintro states after ⟨rfl, same⟩
  subst after
  have turns : forall row, row ∈ ordered start.states rows -> forall past state,
      (world (.ok rows) time).Ensures guarantee
        (do let _ <- (pollRow round parseDate row time).attempt
            pure ())
        (fun result _ after => result = .ok () ∧ takes row state after) past state := by
    intro row member past state
    apply Ensures.bind
    apply Ensures.attempt
    refine (each row ((List.mem_insertionSort _).mp member) past state).mono ?_
    intro result _ after step
    exact ⟨rfl, step⟩
  refine (ensures_forEach (ordered start.states rows) turns).mono ?_
  rintro result _ after ⟨_, steps⟩
  exact ⟨start, pruned, steps⟩

section Facts

variable {parseDate : String -> Option Int} {now : Nat} {rows : List LiveRunRow} {before after : PassState}

theorem Steps.untouched (steps : Steps (fun row => RowStep parseDate row now) rows before after) {id : String}
    (away : id ∉ rows.map LiveRunRow.deploymentId) : getEntry after.states id = getEntry before.states id := by
  induction steps with
  | nil state => rfl
  | cons step _ ih =>
      rw [List.map_cons, List.mem_cons, not_or] at away
      rw [ih away.2, step.others away.1]

theorem Steps.budget (steps : Steps (fun row => RowStep parseDate row now) rows before after) :
    after.reads + after.fetched.length = before.reads + before.fetched.length := by
  induction steps with
  | nil state => rfl
  | cons step _ ih =>
      rw [ih]
      rcases step.outcome with kept | served
      · rw [kept.reads, kept.fetched]
      · rw [served.fetched, List.length_append, List.length_singleton, ← served.reads]
        omega

theorem Steps.fetched (steps : Steps (fun row => RowStep parseDate row now) rows before after) :
    Exists fun read => after.fetched = before.fetched ++ read ∧
      read.Sublist (rows.map LiveRunRow.deploymentId) := by
  induction steps with
  | nil state => exact ⟨[], (List.append_nil _).symm, List.Sublist.refl _⟩
  | cons step _ ih =>
      rcases ih with ⟨read, same, sub⟩
      rcases step.outcome with kept | served
      · exact ⟨read, by rw [same, kept.fetched], sub.cons _⟩
      · exact ⟨_ :: read, by rw [same, served.fetched, List.append_assoc]; rfl, sub.cons_cons _⟩

/-- The turn of one row: what stands before it leaves it alone, and what stands after it too. -/
structure Turn (parseDate : String -> Option Int) (now : Nat) (earlier : List LiveRunRow) (row : LiveRunRow)
    (before after middle next : PassState) : Prop where
  steps : Steps (fun row => RowStep parseDate row now) earlier before middle
  step : RowStep parseDate row now middle next
  untouched : getEntry middle.states row.deploymentId = getEntry before.states row.deploymentId
  final : getEntry after.states row.deploymentId = getEntry next.states row.deploymentId
  more : Exists fun read => after.fetched = next.fetched ++ read ∧ row.deploymentId ∉ read
  fresh : row.deploymentId ∉ earlier.map LiveRunRow.deploymentId

theorem Steps.turn {earlier later : List LiveRunRow} {row : LiveRunRow}
    (steps : Steps (fun row => RowStep parseDate row now) (earlier ++ row :: later) before after)
    (distinct : ((earlier ++ row :: later).map LiveRunRow.deploymentId).Nodup) :
    Exists fun middle => Exists fun next => Turn parseDate now earlier row before after middle next := by
  rw [List.map_append, List.map_cons] at distinct
  have absent := (List.nodup_middle.mp distinct).notMem
  rw [List.mem_append, not_or] at absent
  rcases steps.split with ⟨middle, first, rest⟩
  cases rest with
  | @cons _ _ _ next _ step second =>
      rcases second.fetched with ⟨read, same, sub⟩
      exact ⟨middle, next, first, step, first.untouched absent.1, second.untouched absent.2,
        ⟨read, same, fun member => absent.2 (sub.subset member)⟩, absent.1⟩

theorem Turn.served_iff {earlier : List LiveRunRow} {row : LiveRunRow} {middle next : PassState}
    (turn : Turn parseDate now earlier row before after middle next) (empty : before.fetched = []) :
    row.deploymentId ∈ after.fetched <-> Served row.deploymentId now middle next := by
  rcases turn.more with ⟨read, same, absent⟩
  constructor
  · intro member
    rw [same] at member
    rcases turn.step.outcome with kept | served
    · rcases turn.steps.fetched with ⟨first, isFirst, sub⟩
      rw [empty, List.nil_append] at isFirst
      rw [kept.fetched, isFirst] at member
      rcases List.mem_append.mp member with old | new
      · exact absurd (sub.subset old) turn.fresh
      · exact absurd new absent
    · exact served
  · intro served
    rw [same, served.fetched]
    exact List.mem_append_left _ (List.mem_append_right _ (List.mem_singleton_self _))

end Facts

end GithubRunPoller
end Dokploy
