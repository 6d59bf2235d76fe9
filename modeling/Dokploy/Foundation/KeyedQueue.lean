import Mathlib.Data.List.Basic
import Mathlib.Logic.Function.Basic

namespace Dokploy
namespace Foundation

/-!
# Queues of one key, kept as a map of tails

Whoever joins remembers who was last under its key, and becomes the last one
itself.  It enters once the one it remembers has left, and on leaving it takes
its key out of the map if it is still the last.  No queue is stored anywhere:
that those of one key enter one after the other is a consequence of what each
of them remembers.
-/

universe u

/-- One that joined.  The one it waits for is a number in the order of joining. -/
structure Ticket (Key : Type u) where
  key : Key
  previous : Option Nat
  entered : Bool
  left : Bool
deriving DecidableEq

structure KeyedQueue (Key : Type u) where
  tickets : List (Ticket Key)
  tails : Key -> Option Nat

namespace KeyedQueue

variable {Key : Type u}

def empty : KeyedQueue Key where
  tickets := []
  tails := fun _ => none

/-- Nobody is waited for, or the one waited for has left. -/
def free (queue : KeyedQueue Key) (previous : Option Nat) : Bool :=
  previous.all fun index => queue.tickets[index]?.any (·.left)

section

variable [DecidableEq Key]

def join (queue : KeyedQueue Key) (key : Key) : KeyedQueue Key where
  tickets := queue.tickets ++ [{ key := key, previous := queue.tails key, entered := false, left := false }]
  tails := Function.update queue.tails key (some queue.tickets.length)

def enter (queue : KeyedQueue Key) (index : Nat) (ticket : Ticket Key) : KeyedQueue Key :=
  { queue with tickets := queue.tickets.set index { ticket with entered := true } }

def leave (queue : KeyedQueue Key) (index : Nat) (ticket : Ticket Key) : KeyedQueue Key where
  tickets := queue.tickets.set index { ticket with left := true }
  tails := if queue.tails ticket.key = some index then Function.update queue.tails ticket.key none else queue.tails

end

/-- Everyone of this key before the position has left. -/
def Passed (queue : KeyedQueue Key) (key : Key) (position : Nat) : Prop :=
  forall index ticket, index < position -> queue.tickets[index]? = some ticket -> ticket.key = key -> ticket.left = true

/-- The last one of a key before a position, none when all before it have left. -/
def Last (queue : KeyedQueue Key) (key : Key) (position : Nat) : Option Nat -> Prop
  | none => queue.Passed key position
  | some last => last < position ∧ (Exists fun ticket => queue.tickets[last]? = some ticket ∧ ticket.key = key) ∧
      forall index ticket, last < index -> index < position -> queue.tickets[index]? = some ticket -> ticket.key ≠ key

/-- What each one remembers was the last one of its key, those who entered had nobody before them, and the map
names those who are last and have not left. -/
structure Orderly (queue : KeyedQueue Key) : Prop where
  remembers : forall (index : Nat) (ticket : Ticket Key), queue.tickets[index]? = some ticket -> queue.Last ticket.key index ticket.previous
  inTurn : forall (index : Nat) (ticket : Ticket Key), queue.tickets[index]? = some ticket -> ticket.entered = true ->
    queue.Passed ticket.key index
  entered : forall (index : Nat) (ticket : Ticket Key), queue.tickets[index]? = some ticket -> ticket.left = true -> ticket.entered = true
  tails : forall key, queue.Last key queue.tickets.length (queue.tails key)
  staying : forall (key : Key) (index : Nat) (ticket : Ticket Key), queue.tails key = some index -> queue.tickets[index]? = some ticket ->
    ticket.left = false

/-- The same tickets, of which some may have entered or left since. -/
structure Later (before after : KeyedQueue Key) : Prop where
  length : after.tickets.length = before.tickets.length
  same : forall (index : Nat) (ticket : Ticket Key), after.tickets[index]? = some ticket -> Exists fun earlier : Ticket Key =>
    before.tickets[index]? = some earlier ∧ earlier.key = ticket.key ∧ earlier.previous = ticket.previous ∧
      (earlier.left = true -> ticket.left = true)

variable {before after queue : KeyedQueue Key}

variable {ticket : Ticket Key} {index : Nat}

theorem Later.kept (later : Later before after)
    (found : before.tickets[index]? = some ticket) : Exists fun now => after.tickets[index]? = some now := by
  have small : index < after.tickets.length := by
    rw [later.length]
    exact (List.getElem?_eq_some_iff.mp found).1
  exact ⟨_, List.getElem?_eq_getElem small⟩

variable {position : Nat} {key : Key}

theorem Later.passed (later : Later before after)
    (passed : before.Passed key position) : after.Passed key position := by
  intro index ticket small found same
  rcases later.same index ticket found with ⟨earlier, foundEarlier, sameKey, _, leaves⟩
  exact leaves (passed index earlier small foundEarlier (sameKey.trans same))

theorem Later.last (later : Later before after) {last : Option Nat}
    (isLast : before.Last key position last) : after.Last key position last := by
  cases last with
  | none => exact later.passed isLast
  | some last =>
      rcases isLast with ⟨small, ⟨ticket, found, same⟩, others⟩
      rcases later.kept found with ⟨now, foundNow⟩
      rcases later.same last now foundNow with ⟨earlier, foundEarlier, sameKey, _, _⟩
      rw [found] at foundEarlier
      cases foundEarlier
      refine ⟨small, ⟨now, foundNow, sameKey.symm.trans same⟩, fun index other greater inside foundOther => ?_⟩
      rcases later.same index other foundOther with ⟨was, foundWas, sameOther, _, _⟩
      rw [← sameOther]
      exact others index was greater inside foundWas

theorem later_set {index : Nat} {ticket now : Ticket Key} (found : queue.tickets[index]? = some ticket)
    (sameKey : ticket.key = now.key) (samePrevious : ticket.previous = now.previous)
    (leaves : ticket.left = true -> now.left = true) (tails : Key -> Option Nat) :
    Later queue { tickets := queue.tickets.set index now, tails := tails } := by
  refine ⟨List.length_set, fun position other foundOther => ?_⟩
  rw [List.getElem?_set] at foundOther
  split at foundOther
  · rename_i same
    split at foundOther
    · cases foundOther
      exact ⟨ticket, same ▸ found, sameKey, samePrevious, leaves⟩
    · cases foundOther
  · exact ⟨other, foundOther, rfl, rfl, id⟩

theorem Orderly.passed_of_free (orderly : queue.Orderly) {previous : Option Nat}
    (isLast : queue.Last key position previous) (free : queue.free previous = true) : queue.Passed key position := by
  cases previous with
  | none => exact isLast
  | some last =>
      rcases isLast with ⟨small, ⟨ticket, found, same⟩, others⟩
      have left : ticket.left = true := by
        simpa only [KeyedQueue.free, Option.all_some, found, Option.any_some] using free
      intro index other inside foundOther sameOther
      rcases Nat.lt_trichotomy index last with less | equal | greater
      · have before := orderly.inTurn last ticket found (orderly.entered last ticket found left)
        exact before index other less foundOther (sameOther.trans same.symm)
      · rw [equal, found] at foundOther
        cases foundOther
        exact left
      · exact absurd sameOther (others index other greater inside foundOther)

theorem Orderly.alone (orderly : queue.Orderly) {first second : Nat} {one other : Ticket Key}
    (foundOne : queue.tickets[first]? = some one) (foundOther : queue.tickets[second]? = some other)
    (same : one.key = other.key) (oneIn : one.entered = true ∧ one.left = false)
    (otherIn : other.entered = true ∧ other.left = false) : first = second := by
  rcases Nat.lt_trichotomy first second with less | equal | greater
  · have left := orderly.inTurn second other foundOther otherIn.1 first one less foundOne same
    rw [oneIn.2] at left
    cases left
  · exact equal
  · have left := orderly.inTurn first one foundOne oneIn.1 second other greater foundOther same.symm
    rw [otherIn.2] at left
    cases left

theorem Orderly.emptied (orderly : queue.Orderly)
    (gone : forall (index : Nat) (ticket : Ticket Key), queue.tickets[index]? = some ticket -> ticket.left = true)
    (key : Key) :
    queue.tails key = none := by
  have isLast := orderly.tails key
  cases named : queue.tails key with
  | none => rfl
  | some index =>
      rw [named] at isLast
      rcases isLast.2.1 with ⟨ticket, found, _⟩
      have stays := orderly.staying key index ticket named found
      rw [gone index ticket found] at stays
      cases stays

theorem Orderly.first_free (orderly : queue.Orderly)
    (found : queue.tickets[index]? = some ticket)
    (gone : forall (other : Nat) (was : Ticket Key), other < index -> queue.tickets[other]? = some was ->
      was.left = true) :
    queue.free ticket.previous = true := by
  have isLast := orderly.remembers index ticket found
  cases previous : ticket.previous with
  | none => rfl
  | some last =>
      rw [previous] at isLast
      rcases isLast with ⟨small, ⟨was, foundWas, _⟩, _⟩
      rw [free, Option.all_some, foundWas, Option.any_some]
      exact gone last was small foundWas

theorem orderly_empty : (empty : KeyedQueue Key).Orderly where
  remembers := fun _ _ found => by cases found
  inTurn := fun _ _ found => by cases found
  entered := fun _ _ found => by cases found
  tails := fun _ _ _ small => nomatch small
  staying := fun _ _ _ named => by cases named

theorem Orderly.enter (orderly : queue.Orderly)
    (found : queue.tickets[index]? = some ticket) (free : queue.free ticket.previous = true) :
    (queue.enter index ticket).Orderly := by
  have later : Later queue (queue.enter index ticket) := by
    refine @later_set _ queue index ticket { ticket with entered := true } found ?_ ?_ ?_ queue.tails
    · rfl
    · rfl
    · exact id
  have small := (List.getElem?_eq_some_iff.mp found).1
  have here : (queue.enter index ticket).tickets[index]? = some { ticket with entered := true } :=
    List.getElem?_set_self small
  have elsewhere : forall other, index ≠ other -> (queue.enter index ticket).tickets[other]? = queue.tickets[other]? :=
    fun other different => List.getElem?_set_ne different
  refine ⟨fun other now foundNow => ?_, fun other now foundNow entered => ?_, fun other now foundNow left => ?_,
    fun key => ?_, fun key other now named foundNow => ?_⟩
  · rcases later.same other now foundNow with ⟨was, foundWas, sameKey, samePrevious, _⟩
    have isLast := later.last (orderly.remembers other was foundWas)
    rw [sameKey, samePrevious] at isLast
    exact isLast
  · by_cases same : index = other
    · rw [← same, here] at foundNow
      cases foundNow
      rw [← same]
      exact later.passed (orderly.passed_of_free (orderly.remembers index ticket found) free)
    · rw [elsewhere other same] at foundNow
      exact later.passed (orderly.inTurn other now foundNow entered)
  · by_cases same : index = other
    · rw [← same, here] at foundNow
      cases foundNow
      rfl
    · rw [elsewhere other same] at foundNow
      exact orderly.entered other now foundNow left
  · rw [later.length]
    exact later.last (orderly.tails key)
  · by_cases same : index = other
    · rw [← same, here] at foundNow
      cases foundNow
      rw [← same] at named
      exact orderly.staying key index ticket named found
    · rw [elsewhere other same] at foundNow
      exact orderly.staying key other now named foundNow

variable [DecidableEq Key]

@[simp] theorem tails_join_self (key : Key) : (queue.join key).tails key = some queue.tickets.length :=
  Function.update_self ..

theorem tails_join_of_ne {other : Key} (different : other ≠ key) : (queue.join key).tails other = queue.tails other :=
  Function.update_of_ne different ..

theorem tails_leave (index : Nat) (ticket : Ticket Key) (key : Key) :
    (queue.leave index ticket).tails key =
      if key = ticket.key ∧ queue.tails key = some index then none else queue.tails key := by
  by_cases same : key = ticket.key
  · by_cases last : queue.tails ticket.key = some index
    · rw [same, if_pos ⟨rfl, last⟩]
      simp only [leave, if_pos last, Function.update_self]
    · rw [same, if_neg fun both => last both.2]
      simp only [leave, if_neg last]
  · rw [if_neg fun both => same both.1]
    by_cases last : queue.tails ticket.key = some index
    · simp only [leave, if_pos last, Function.update_of_ne same]
    · simp only [leave, if_neg last]

private theorem found_joined
    (found : (queue.join key).tickets[index]? = some ticket) :
    queue.tickets[index]? = some ticket ∨ index = queue.tickets.length ∧
      ticket = { key := key, previous := queue.tails key, entered := false, left := false } := by
  rcases Nat.lt_trichotomy index queue.tickets.length with less | equal | greater
  · rw [join, List.getElem?_append_left less] at found
    exact Or.inl found
  · rw [join, equal, List.getElem?_concat_length] at found
    cases found
    exact Or.inr ⟨equal, rfl⟩
  · have small := (List.getElem?_eq_some_iff.mp found).1
    rw [join, List.length_append, List.length_singleton] at small
    omega

private theorem passed_joined {other : Key} (inside : position ≤ queue.tickets.length)
    (passed : queue.Passed other position) : (queue.join key).Passed other position := by
  intro index ticket small found same
  rcases found_joined found with old | ⟨last, _⟩
  · exact passed index ticket small old same
  · omega

private theorem last_joined {other : Key} (inside : position ≤ queue.tickets.length)
    {last : Option Nat} (isLast : queue.Last other position last) : (queue.join key).Last other position last := by
  cases last with
  | none => exact passed_joined inside isLast
  | some last =>
      rcases isLast with ⟨small, ⟨ticket, found, same⟩, others⟩
      have kept : (queue.join key).tickets[last]? = some ticket := by
        rw [join, List.getElem?_append_left (List.getElem?_eq_some_iff.mp found).1]
        exact found
      refine ⟨small, ⟨ticket, kept, same⟩, fun index now greater within foundNow => ?_⟩
      rcases found_joined foundNow with old | ⟨atEnd, _⟩
      · exact others index now greater within old
      · omega

theorem Orderly.join (orderly : queue.Orderly) (key : Key) : (queue.join key).Orderly where
  remembers := by
    intro index ticket found
    rcases found_joined found with old | ⟨atEnd, isNew⟩
    · exact last_joined (Nat.le_of_lt (List.getElem?_eq_some_iff.mp old).1) (orderly.remembers index ticket old)
    · rw [atEnd, isNew]
      exact last_joined (Nat.le_refl _) (orderly.tails key)
  inTurn := by
    intro index ticket found entered
    rcases found_joined found with old | ⟨_, isNew⟩
    · exact passed_joined (Nat.le_of_lt (List.getElem?_eq_some_iff.mp old).1) (orderly.inTurn index ticket old entered)
    · rw [isNew] at entered
      cases entered
  entered := by
    intro index ticket found left
    rcases found_joined found with old | ⟨_, isNew⟩
    · exact orderly.entered index ticket old left
    · rw [isNew] at left
      cases left
  tails := by
    intro other
    have length : (queue.join key).tickets.length = queue.tickets.length + 1 := List.length_append
    have end' : (queue.join key).tickets[queue.tickets.length]? =
        some { key := key, previous := queue.tails key, entered := false, left := false } :=
      List.getElem?_concat_length
    rw [length]
    by_cases same : other = key
    · rw [same, tails_join_self]
      exact ⟨Nat.lt_succ_self _, ⟨_, end', rfl⟩, fun index ticket greater inside => by omega⟩
    · have isLast : (queue.join key).Last other queue.tickets.length (queue.tails other) :=
        last_joined (Nat.le_refl _) (orderly.tails other)
      rw [tails_join_of_ne same]
      cases named : queue.tails other with
      | none =>
          rw [named] at isLast
          intro index ticket small found sameKey
          rcases found_joined found with old | ⟨_, isNew⟩
          · exact isLast index ticket (List.getElem?_eq_some_iff.mp old).1 found sameKey
          · rw [isNew] at sameKey
            exact absurd sameKey.symm same
      | some last =>
          rw [named] at isLast
          refine ⟨Nat.lt_succ_of_lt isLast.1, isLast.2.1, fun index ticket greater _ found sameKey => ?_⟩
          rcases found_joined found with old | ⟨_, isNew⟩
          · exact isLast.2.2 index ticket greater (List.getElem?_eq_some_iff.mp old).1 found sameKey
          · rw [isNew] at sameKey
            exact same sameKey.symm
  staying := by
    intro other index ticket named found
    by_cases same : other = key
    · rw [same, tails_join_self] at named
      cases named
      rw [KeyedQueue.join, List.getElem?_concat_length] at found
      cases found
      rfl
    · rw [tails_join_of_ne same] at named
      rcases found_joined found with old | ⟨_, isNew⟩
      · exact orderly.staying other index ticket named old
      · rw [isNew]

theorem Orderly.leave (orderly : queue.Orderly)
    (found : queue.tickets[index]? = some ticket) (entered : ticket.entered = true) :
    (queue.leave index ticket).Orderly := by
  have later : Later queue (queue.leave index ticket) := by
    refine @later_set _ queue index ticket { ticket with left := true } found ?_ ?_ ?_ _
    · rfl
    · rfl
    · exact fun _ => rfl
  have small := (List.getElem?_eq_some_iff.mp found).1
  have here : (queue.leave index ticket).tickets[index]? = some { ticket with left := true } :=
    List.getElem?_set_self small
  have elsewhere : forall other, index ≠ other -> (queue.leave index ticket).tickets[other]? = queue.tickets[other]? :=
    fun other different => List.getElem?_set_ne different
  refine ⟨fun other now foundNow => ?_, fun other now foundNow hasEntered => ?_, fun other now foundNow left => ?_,
    fun key => ?_, fun key other now named foundNow => ?_⟩
  · rcases later.same other now foundNow with ⟨was, foundWas, sameKey, samePrevious, _⟩
    have isLast := later.last (orderly.remembers other was foundWas)
    rw [sameKey, samePrevious] at isLast
    exact isLast
  · by_cases same : index = other
    · rw [← same, here] at foundNow
      cases foundNow
      rw [← same]
      exact later.passed (orderly.inTurn index ticket found entered)
    · rw [elsewhere other same] at foundNow
      exact later.passed (orderly.inTurn other now foundNow hasEntered)
  · by_cases same : index = other
    · rw [← same, here] at foundNow
      cases foundNow
      exact entered
    · rw [elsewhere other same] at foundNow
      exact orderly.entered other now foundNow left
  · have isLast := later.last (orderly.tails key)
    rw [later.length, tails_leave]
    split
    · -- The last one of its key leaves: the key is taken out, and all of it have left.
      rename_i gone
      rw [gone.2] at isLast
      intro other now inside foundNow sameKey
      rcases Nat.lt_trichotomy other index with less | equal | greater
      · have passed := later.passed (orderly.inTurn index ticket found entered)
        exact passed other now less foundNow (sameKey.trans gone.1)
      · rw [equal, here] at foundNow
        cases foundNow
        rfl
      · exact absurd sameKey (isLast.2.2 other now greater inside foundNow)
    · exact isLast
  · rw [tails_leave] at named
    split at named
    · cases named
    · rename_i stays
      by_cases same : index = other
      · -- The map does not name the one that has left.
        have isLast := orderly.tails key
        rw [named] at isLast
        rcases isLast.2.1 with ⟨_, foundLast, keyLast⟩
        rw [← same, found] at foundLast
        cases foundLast
        rw [← same] at named
        exact absurd ⟨keyLast.symm, named⟩ stays
      · rw [elsewhere other same] at foundNow
        exact orderly.staying key other now named foundNow

end KeyedQueue
end Foundation
end Dokploy
