import Dokploy.Foundation.Machine
import Mathlib.Data.List.Count
import Mathlib.Logic.Function.Basic

namespace Dokploy
namespace BackupSlots

open Foundation (Machine)

/-!
# Slots for scheduled backups

A limiter lets a fixed number of functions run at once for each server key.  A call
that finds every slot of its key taken waits.  Whoever gives a slot back while
somebody waits hands it over without lowering the count, and the one that was woken
goes on later, as a job behind those that are already due.
-/

/-- A call that holds or waits for a slot of its key. -/
structure Slot where
  key : String
  call : Nat
deriving DecidableEq

structure Semaphore where
  running : Int
  waiters : List Nat
deriving DecidableEq

inductive Outcome where
  | resolved
  | rejected
  | threw
deriving DecidableEq

structure Limiter where
  semaphores : String -> Semaphore
  /-- Those that were woken, as their jobs stand in the queue of the process. -/
  ready : List Slot
  /-- Those whose function runs. -/
  active : List Slot
  /-- Those whose function has ended and that have not released their slot. -/
  settled : List Slot

inductive Event where
  | withSlot (serverKey : Option String) (call : Nat)
  | resume
  | settle (slot : Slot) (outcome : Outcome)
  | release (slot : Slot)

inductive Signal where
  | waits (slot : Slot)
  | starts (slot : Slot) (waited : Bool)
  | ends (slot : Slot) (outcome : Outcome)
  | givesBack (slot : Slot)
deriving DecidableEq

/-- serverKey || "local" -/
def keyOf (serverKey : Option String) : String :=
  match serverKey with
  | none => "local"
  | some key => if key = "" then "local" else key

namespace Limiter

/-- A key that was never asked for has a semaphore of its own as soon as it is. -/
def fresh : Limiter where
  semaphores := fun _ => { running := 0, waiters := [] }
  ready := []
  active := []
  settled := []

def setSemaphore (limiter : Limiter) (key : String) (semaphore : Semaphore) : Limiter :=
  { limiter with semaphores := Function.update limiter.semaphores key semaphore }

def enter (limiter : Limiter) (slot : Slot) (limit : Nat) : Limiter × List Signal :=
  let semaphore := limiter.semaphores slot.key
  if limit ≤ semaphore.running then
    (limiter.setSemaphore slot.key { semaphore with waiters := semaphore.waiters ++ [slot.call] }, [.waits slot])
  else
    ({ limiter.setSemaphore slot.key { semaphore with running := semaphore.running + 1 } with
        active := limiter.active ++ [slot] }, [.starts slot false])

/-- The slot goes to the next waiter, if there is one. -/
def release (limiter : Limiter) (key : String) : Limiter :=
  let semaphore := limiter.semaphores key
  match semaphore.waiters with
  | next :: waiters =>
      { limiter.setSemaphore key { semaphore with waiters := waiters } with
          ready := limiter.ready ++ [{ key := key, call := next }] }
  | [] => limiter.setSemaphore key { semaphore with running := semaphore.running - 1 }

end Limiter

def step (limit : Nat) (limiter : Limiter) : Event -> Option (Limiter × List Signal)
  | .withSlot serverKey call => some (limiter.enter { key := keyOf serverKey, call := call } limit)
  | .resume =>
      match limiter.ready with
      | [] => none
      | slot :: ready => some ({ limiter with ready := ready, active := limiter.active ++ [slot] }, [.starts slot true])
  | .settle slot outcome =>
      if slot ∈ limiter.active then
        some ({ limiter with active := limiter.active.erase slot, settled := limiter.settled ++ [slot] },
          [.ends slot outcome])
      else none
  | .release slot =>
      if slot ∈ limiter.settled then
        some ({ limiter with settled := limiter.settled.erase slot }.release slot.key, [.givesBack slot])
      else none

def createBackupLimiter (limit : Nat) : Machine Limiter Event Signal where
  initial := .fresh
  step := step limit

def Signal.slot : Signal -> Slot
  | .waits slot | .starts slot _ | .ends slot _ | .givesBack slot => slot

def Signal.arrived? : Signal -> Option Slot
  | .waits slot | .starts slot false => some slot
  | _ => none

def Signal.waits? (key : String) : Signal -> Option Nat
  | .waits slot => if slot.key = key then some slot.call else none
  | _ => none

def Signal.resumes? (key : String) : Signal -> Option Nat
  | .starts slot true => if slot.key = key then some slot.call else none
  | _ => none

def Signal.givesBack? : Signal -> Option Slot
  | .givesBack slot => some slot
  | _ => none

def ofKey (key : String) (slots : List Slot) : List Slot := slots.filter fun slot => slot.key = key

namespace Limiter

/-- How many calls of a key hold a slot, whether they go on running or not. -/
def held (limiter : Limiter) (key : String) : Nat :=
  (ofKey key limiter.ready).length + (ofKey key limiter.active).length + (ofKey key limiter.settled).length

def waiting (limiter : Limiter) (slot : Slot) : Nat := (limiter.semaphores slot.key).waiters.count slot.call

end Limiter

structure Kept (limit : Nat) (history : List Signal) (limiter : Limiter) : Prop where
  counted : forall key, (limiter.semaphores key).running = limiter.held key
  bounded : forall key, (limiter.semaphores key).running ≤ limit
  full : forall key, (limiter.semaphores key).waiters ≠ [] -> (limiter.semaphores key).running = limit
  inOrder : forall key, history.filterMap (Signal.waits? key) =
    history.filterMap (Signal.resumes? key) ++ (ofKey key limiter.ready).map (·.call) ++ (limiter.semaphores key).waiters
  accounted : forall slot, (history.filterMap Signal.arrived?).count slot =
    limiter.waiting slot + limiter.ready.count slot + limiter.active.count slot + limiter.settled.count slot +
      (history.filterMap Signal.givesBack?).count slot

section Counting

variable (key : String) (slots : List Slot) (slot : Slot)

theorem ofKey_snoc : ofKey key (slots ++ [slot]) = ofKey key slots ++ if slot.key = key then [slot] else [] := by
  rw [ofKey, List.filter_append, ofKey, List.filter_singleton]
  simp

theorem ofKey_cons : ofKey key (slot :: slots) = (if slot.key = key then [slot] else []) ++ ofKey key slots := by
  by_cases own : slot.key = key <;> simp [ofKey, own]

theorem ofKey_erase : ofKey key (slots.erase slot) = (ofKey key slots).erase slot := by
  rw [ofKey, ofKey, List.erase_filter]

variable {slots slot}

theorem call_eq_iff {other : Slot} (own : other.key = slot.key) : slot = other <-> slot.call = other.call := by
  cases slot
  cases other
  simp_all

theorem length_ofKey_erase (member : slot ∈ slots) :
    (ofKey key (slots.erase slot)).length + (if slot.key = key then 1 else 0) = (ofKey key slots).length := by
  rw [ofKey_erase]
  by_cases own : slot.key = key
  · have inKey : slot ∈ ofKey key slots := List.mem_filter.mpr ⟨member, decide_eq_true own⟩
    have some := List.length_pos_of_mem inKey
    rw [List.length_erase_of_mem inKey, if_pos own]
    omega
  · have outside : slot ∉ ofKey key slots := fun inKey => own (of_decide_eq_true (List.mem_filter.mp inKey).2)
    rw [List.erase_of_not_mem outside, if_neg own, Nat.add_zero]

theorem count_erase_add (member : slot ∈ slots) (other : Slot) :
    (slots.erase slot).count other + (if slot = other then 1 else 0) = slots.count other := by
  have some := List.count_pos_iff.mpr member
  by_cases same : slot = other
  · subst same
    rw [List.count_erase_self, if_pos rfl]
    omega
  · rw [List.count_erase_of_ne (Ne.symm same), if_neg same, Nat.add_zero]

end Counting

section Steps

variable {limit : Nat} {history : List Signal} {limiter : Limiter}

theorem kept_fresh (limit : Nat) : Kept limit [] .fresh where
  counted _ := rfl
  bounded _ := Int.natCast_nonneg limit
  full _ some := absurd rfl some
  inOrder _ := rfl
  accounted _ := rfl

theorem Kept.waits (kept : Kept limit history limiter) (slot : Slot) (taken : limit ≤ (limiter.semaphores slot.key).running) :
    Kept limit (history ++ [.waits slot])
      (limiter.setSemaphore slot.key
        { limiter.semaphores slot.key with waiters := (limiter.semaphores slot.key).waiters ++ [slot.call] }) where
  counted key := by
    by_cases own : key = slot.key
    · subst own
      simpa [Limiter.setSemaphore, Limiter.held] using kept.counted slot.key
    · simpa [Limiter.setSemaphore, Limiter.held, own] using kept.counted key
  bounded key := by
    by_cases own : key = slot.key
    · subst own
      simpa [Limiter.setSemaphore] using kept.bounded slot.key
    · simpa [Limiter.setSemaphore, own] using kept.bounded key
  full key some := by
    by_cases own : key = slot.key
    · subst own
      simpa [Limiter.setSemaphore] using Int.le_antisymm (kept.bounded slot.key) taken
    · simp only [Limiter.setSemaphore, Function.update_of_ne own] at some ⊢
      exact kept.full key some
  inOrder key := by
    have before := kept.inOrder key
    by_cases own : key = slot.key
    · subst own
      simp [Limiter.setSemaphore, Signal.waits?, Signal.resumes?, before]
    · simp [Limiter.setSemaphore, Signal.waits?, Signal.resumes?, own, Ne.symm own, before]
  accounted other := by
    have before := kept.accounted other
    simp only [Limiter.waiting, Limiter.setSemaphore, List.filterMap_append, List.filterMap_cons, List.filterMap_nil,
      Signal.arrived?, Signal.givesBack?, List.count_append, List.count_nil, List.count_singleton'] at before ⊢
    by_cases own : other.key = slot.key
    · rw [own, Function.update_self, List.count_append, List.count_singleton']
      simp only [← call_eq_iff own]
      rw [own] at before
      omega
    · have unlike : slot ≠ other := fun same => own (same ▸ rfl)
      rw [Function.update_of_ne own, if_neg unlike]
      omega

theorem Kept.starts (kept : Kept limit history limiter) (slot : Slot)
    (free : ¬ limit ≤ (limiter.semaphores slot.key).running) :
    Kept limit (history ++ [.starts slot false])
      { limiter.setSemaphore slot.key
          { limiter.semaphores slot.key with running := (limiter.semaphores slot.key).running + 1 } with
        active := limiter.active ++ [slot] } where
  counted key := by
    have before := kept.counted key
    by_cases own : slot.key = key
    · subst own
      simp only [Limiter.setSemaphore, Limiter.held, Function.update_self, ofKey_snoc, if_pos, List.length_append,
        List.length_singleton] at before ⊢
      omega
    · simp only [Limiter.setSemaphore, Limiter.held, Function.update_of_ne (Ne.symm own), ofKey_snoc, if_neg own,
        List.append_nil]
      exact before
  bounded key := by
    by_cases own : key = slot.key
    · subst own
      simp only [Limiter.setSemaphore, Function.update_self]
      omega
    · simp only [Limiter.setSemaphore, Function.update_of_ne own]
      exact kept.bounded key
  full key some := by
    by_cases own : key = slot.key
    · subst own
      simp only [Limiter.setSemaphore, Function.update_self] at some
      exact absurd (Int.le_of_eq (kept.full slot.key some).symm) free
    · simp only [Limiter.setSemaphore, Function.update_of_ne own] at some ⊢
      exact kept.full key some
  inOrder key := by
    have same : (Function.update limiter.semaphores slot.key
        { limiter.semaphores slot.key with running := (limiter.semaphores slot.key).running + 1 } key).waiters =
          (limiter.semaphores key).waiters := by
      by_cases own : key = slot.key
      · subst own
        rw [Function.update_self]
      · rw [Function.update_of_ne own]
    simp only [Limiter.setSemaphore, same, List.filterMap_append, List.filterMap_cons, List.filterMap_nil, Signal.waits?,
      Signal.resumes?, List.append_nil]
    exact kept.inOrder key
  accounted other := by
    have before := kept.accounted other
    have same : (Function.update limiter.semaphores slot.key
        { limiter.semaphores slot.key with running := (limiter.semaphores slot.key).running + 1 } other.key).waiters =
          (limiter.semaphores other.key).waiters := by
      by_cases own : other.key = slot.key
      · rw [own, Function.update_self]
      · rw [Function.update_of_ne own]
    simp only [Limiter.waiting, Limiter.setSemaphore, same, List.filterMap_append, List.filterMap_cons, List.filterMap_nil,
      Signal.arrived?, Signal.givesBack?, List.count_append, List.count_nil] at before ⊢
    omega

theorem Kept.resumes {slot : Slot} {ready : List Slot} (kept : Kept limit history limiter)
    (due : limiter.ready = slot :: ready) :
    Kept limit (history ++ [.starts slot true]) { limiter with ready := ready, active := limiter.active ++ [slot] } where
  counted key := by
    have before := kept.counted key
    simp only [Limiter.held, due, ofKey_cons, ofKey_snoc, List.length_append] at before ⊢
    omega
  bounded := kept.bounded
  full := kept.full
  inOrder key := by
    have before := kept.inOrder key
    rw [due, ofKey_cons] at before
    by_cases own : slot.key = key
    · simp [Signal.waits?, Signal.resumes?, own, before, List.filterMap_cons]
    · simp [Signal.waits?, Signal.resumes?, own, before, List.filterMap_cons]
  accounted other := by
    have before := kept.accounted other
    simp only [Limiter.waiting, due, List.count_cons, List.filterMap_append, List.filterMap_cons, List.filterMap_nil,
      Signal.arrived?, Signal.givesBack?, List.count_append, List.count_nil] at before ⊢
    omega

theorem Kept.ends {slot : Slot} (kept : Kept limit history limiter) (running : slot ∈ limiter.active) (outcome : Outcome) :
    Kept limit (history ++ [.ends slot outcome])
      { limiter with active := limiter.active.erase slot, settled := limiter.settled ++ [slot] } where
  counted key := by
    have before := kept.counted key
    have fewer := length_ofKey_erase key running
    simp only [Limiter.held, ofKey_snoc, List.length_append] at before ⊢
    split at fewer
    · rename_i own
      rw [if_pos own, List.length_singleton]
      omega
    · rename_i other
      rw [if_neg other, List.length_nil]
      omega
  bounded := kept.bounded
  full := kept.full
  inOrder key := by
    simpa [Signal.waits?, Signal.resumes?, List.filterMap_cons] using kept.inOrder key
  accounted other := by
    have before := kept.accounted other
    have fewer := count_erase_add running other
    simp only [Limiter.waiting, List.filterMap_append, List.filterMap_cons, List.filterMap_nil, Signal.arrived?,
      Signal.givesBack?, List.count_append, List.count_nil, List.count_singleton'] at before ⊢
    omega

theorem Kept.frees {slot : Slot} (kept : Kept limit history limiter) (ended : slot ∈ limiter.settled)
    (alone : (limiter.semaphores slot.key).waiters = []) :
    Kept limit (history ++ [.givesBack slot])
      ({ limiter with settled := limiter.settled.erase slot }.setSemaphore slot.key
        { limiter.semaphores slot.key with running := (limiter.semaphores slot.key).running - 1 }) where
  counted key := by
    have before := kept.counted key
    have fewer := length_ofKey_erase key ended
    by_cases own : key = slot.key
    · subst own
      simp only [Limiter.setSemaphore, Limiter.held, Function.update_self, if_true] at before fewer ⊢
      omega
    · rw [if_neg (Ne.symm own)] at fewer
      simp only [Limiter.setSemaphore, Limiter.held, Function.update_of_ne own] at before ⊢
      omega
  bounded key := by
    have before := kept.bounded key
    by_cases own : key = slot.key
    · subst own
      simp only [Limiter.setSemaphore, Function.update_self]
      omega
    · simpa only [Limiter.setSemaphore, Function.update_of_ne own] using before
  full key some := by
    by_cases own : key = slot.key
    · subst own
      simp only [Limiter.setSemaphore, Function.update_self, alone] at some
      exact absurd rfl some
    · simp only [Limiter.setSemaphore, Function.update_of_ne own] at some ⊢
      exact kept.full key some
  inOrder key := by
    have before := kept.inOrder key
    by_cases own : key = slot.key
    · subst own
      simpa [Limiter.setSemaphore, Signal.waits?, Signal.resumes?, List.filterMap_cons] using before
    · simpa [Limiter.setSemaphore, Signal.waits?, Signal.resumes?, List.filterMap_cons, own] using before
  accounted other := by
    have before := kept.accounted other
    have fewer := count_erase_add ended other
    have same : (Function.update limiter.semaphores slot.key
        { limiter.semaphores slot.key with running := (limiter.semaphores slot.key).running - 1 } other.key).waiters =
          (limiter.semaphores other.key).waiters := by
      by_cases own : other.key = slot.key
      · rw [own, Function.update_self]
      · rw [Function.update_of_ne own]
    simp only [Limiter.waiting, Limiter.setSemaphore, same, List.filterMap_append, List.filterMap_cons, List.filterMap_nil,
      Signal.arrived?, Signal.givesBack?, List.count_append, List.count_nil, List.count_singleton'] at before ⊢
    omega

theorem Kept.handsOver {slot : Slot} {next : Nat} {waiters : List Nat} (kept : Kept limit history limiter)
    (ended : slot ∈ limiter.settled) (queue : (limiter.semaphores slot.key).waiters = next :: waiters) :
    Kept limit (history ++ [.givesBack slot])
      { ({ limiter with settled := limiter.settled.erase slot }.setSemaphore slot.key
          { limiter.semaphores slot.key with waiters := waiters }) with
        ready := limiter.ready ++ [{ key := slot.key, call := next }] } where
  counted key := by
    have before := kept.counted key
    have fewer := length_ofKey_erase key ended
    by_cases own : slot.key = key
    · subst own
      simp only [Limiter.setSemaphore, Limiter.held, Function.update_self, ofKey_snoc, if_true, List.length_append,
        List.length_singleton] at before fewer ⊢
      omega
    · rw [if_neg own] at fewer
      simp only [Limiter.setSemaphore, Limiter.held, Function.update_of_ne (Ne.symm own), ofKey_snoc, if_neg own,
        List.append_nil] at before ⊢
      omega
  bounded key := by
    have before := kept.bounded key
    by_cases own : key = slot.key
    · subst own
      simpa only [Limiter.setSemaphore, Function.update_self] using before
    · simpa only [Limiter.setSemaphore, Function.update_of_ne own] using before
  full key some := by
    by_cases own : key = slot.key
    · subst own
      simpa only [Limiter.setSemaphore, Function.update_self] using kept.full slot.key (by simp [queue])
    · simp only [Limiter.setSemaphore, Function.update_of_ne own] at some ⊢
      exact kept.full key some
  inOrder key := by
    have before := kept.inOrder key
    by_cases own : slot.key = key
    · subst own
      rw [queue] at before
      simp [Limiter.setSemaphore, Signal.waits?, Signal.resumes?, List.filterMap_cons, ofKey_snoc, before]
    · simpa [Limiter.setSemaphore, Signal.waits?, Signal.resumes?, List.filterMap_cons, ofKey_snoc, own,
        Ne.symm own] using before
  accounted other := by
    have before := kept.accounted other
    have fewer := count_erase_add ended other
    simp only [Limiter.waiting, Limiter.setSemaphore, List.filterMap_append, List.filterMap_cons, List.filterMap_nil,
      Signal.arrived?, Signal.givesBack?, List.count_append, List.count_nil, List.count_singleton'] at before ⊢
    by_cases own : other.key = slot.key
    · have alike : ({ key := slot.key, call := next } : Slot) = other <-> next = other.call :=
        @call_eq_iff { key := slot.key, call := next } other own
      rw [own, queue, List.count_cons] at before
      rw [own, Function.update_self]
      simp only [beq_iff_eq, ← alike] at before ⊢
      omega
    · have unlike : ({ key := slot.key, call := next } : Slot) ≠ other := fun same => own (same ▸ rfl)
      rw [Function.update_of_ne own, if_neg unlike]
      omega

theorem Kept.step {after : Limiter} {output : List Signal} {event : Event} (kept : Kept limit history limiter)
    (stepped : step limit limiter event = some (after, output)) : Kept limit (history ++ output) after := by
  cases event with
  | withSlot serverKey call =>
      simp only [BackupSlots.step, Limiter.enter, Option.some.injEq] at stepped
      split at stepped
      · rename_i taken
        cases stepped
        exact kept.waits _ taken
      · rename_i free
        cases stepped
        exact kept.starts _ free
  | resume =>
      simp only [BackupSlots.step] at stepped
      split at stepped
      · cases stepped
      · rename_i due
        cases stepped
        exact kept.resumes due
  | settle slot outcome =>
      simp only [BackupSlots.step] at stepped
      split at stepped
      · rename_i running
        cases stepped
        exact kept.ends running outcome
      · cases stepped
  | release slot =>
      simp only [BackupSlots.step] at stepped
      split at stepped
      · rename_i ended
        cases queue : (limiter.semaphores slot.key).waiters with
        | nil =>
            simp only [Limiter.release, queue] at stepped
            cases stepped
            simpa only [queue] using kept.frees ended queue
        | cons next waiters =>
            simp only [Limiter.release, queue] at stepped
            cases stepped
            exact kept.handsOver ended queue
      · cases stepped

end Steps

theorem kept_of_run {limit : Nat} {history : List Signal} {limiter : Limiter}
    (run : (createBackupLimiter limit).Reaches history limiter) : Kept limit history limiter :=
  run.invariant (Kept limit) (kept_fresh limit) fun _ _ _ _ _ _ kept _ stepped => kept.step stepped

def Event.key? (limiter : Limiter) : Event -> Option String
  | .withSlot serverKey _ => some (keyOf serverKey)
  | .resume => limiter.ready.head?.map (·.key)
  | .settle slot _ | .release slot => some slot.key

/-- Two limiters that are the same as far as one key goes. -/
structure SameFor (key : String) (limiter other : Limiter) : Prop where
  semaphore : limiter.semaphores key = other.semaphores key
  ready : ofKey key limiter.ready = ofKey key other.ready
  active : ofKey key limiter.active = ofKey key other.active
  settled : ofKey key limiter.settled = ofKey key other.settled

def signalsOf (key : String) (history : List Signal) : List Signal := history.filter fun signal => signal.slot.key = key

section Alone

variable {limit : Nat} {key : String} {limiter after : Limiter} {output : List Signal} {event : Event}

theorem ofKey_erase_other {slots : List Slot} {slot : Slot} (other : slot.key ≠ key) :
    ofKey key (slots.erase slot) = ofKey key slots := by
  rw [ofKey_erase, List.erase_of_not_mem]
  intro member
  exact other (of_decide_eq_true (List.mem_filter.mp member).2)

theorem ofKey_snoc_other {slots : List Slot} {slot : Slot} (other : slot.key ≠ key) :
    ofKey key (slots ++ [slot]) = ofKey key slots := by
  rw [ofKey_snoc, if_neg other, List.append_nil]

theorem mem_ofKey {slots : List Slot} {slot : Slot} : slot ∈ ofKey slot.key slots <-> slot ∈ slots := by
  simp [ofKey]

theorem sameFor_of_other (stepped : step limit limiter event = some (after, output)) (other : event.key? limiter ≠ some key) :
    SameFor key after limiter ∧ signalsOf key output = [] := by
  cases event with
  | withSlot serverKey call =>
      have unlike : keyOf serverKey ≠ key := fun same => other (congrArg some same)
      simp only [step, Limiter.enter, Option.some.injEq] at stepped
      split at stepped
      · cases stepped
        exact ⟨⟨Function.update_of_ne (Ne.symm unlike) _ _, rfl, rfl, rfl⟩, by simp [signalsOf, Signal.slot, unlike]⟩
      · cases stepped
        exact ⟨⟨Function.update_of_ne (Ne.symm unlike) _ _, rfl, ofKey_snoc_other unlike, rfl⟩,
          by simp [signalsOf, Signal.slot, unlike]⟩
  | resume =>
      simp only [step] at stepped
      split at stepped
      · cases stepped
      · rename_i slot ready due
        cases stepped
        have unlike : slot.key ≠ key := fun same => other (by simp [Event.key?, due, same])
        refine ⟨⟨rfl, ?_, ofKey_snoc_other unlike, rfl⟩, by simp [signalsOf, Signal.slot, unlike]⟩
        rw [due, ofKey_cons, if_neg unlike, List.nil_append]
  | settle slot outcome =>
      have unlike : slot.key ≠ key := fun same => other (congrArg some same)
      simp only [step] at stepped
      split at stepped
      · cases stepped
        exact ⟨⟨rfl, rfl, ofKey_erase_other unlike, ofKey_snoc_other unlike⟩, by simp [signalsOf, Signal.slot, unlike]⟩
      · cases stepped
  | release slot =>
      have unlike : slot.key ≠ key := fun same => other (congrArg some same)
      simp only [step] at stepped
      split at stepped
      · simp only [Limiter.release] at stepped
        split at stepped
        · cases stepped
          exact ⟨⟨Function.update_of_ne (Ne.symm unlike) _ _, ofKey_snoc_other unlike, rfl, ofKey_erase_other unlike⟩,
            by simp [signalsOf, Signal.slot, unlike]⟩
        · cases stepped
          exact ⟨⟨Function.update_of_ne (Ne.symm unlike) _ _, rfl, rfl, ofKey_erase_other unlike⟩,
            by simp [signalsOf, Signal.slot, unlike]⟩
      · cases stepped

theorem step_alone {own : Limiter} (stepped : step limit limiter event = some (after, output))
    (isKey : event.key? limiter = some key) (same : SameFor key own limiter) (only : ofKey key own.ready = own.ready) :
    Exists fun ownAfter => step limit own event = some (ownAfter, output) ∧ event.key? own = some key ∧
      SameFor key ownAfter after ∧ ofKey key ownAfter.ready = ownAfter.ready ∧ signalsOf key output = output := by
  cases event with
  | withSlot serverKey call =>
      cases (Option.some.inj isKey : keyOf serverKey = key)
      simp only [step, Limiter.enter, Option.some.injEq] at stepped
      refine ⟨(own.enter { key := keyOf serverKey, call := call } limit).1, ?_⟩
      simp only [step, Limiter.enter, same.semaphore, Option.some.injEq]
      split at stepped
      · rename_i taken
        cases stepped
        rw [if_pos taken]
        exact ⟨rfl, rfl, ⟨by simp [Limiter.setSemaphore], same.ready, same.active, same.settled⟩, only,
          by simp [signalsOf, Signal.slot]⟩
      · rename_i free
        cases stepped
        rw [if_neg free]
        exact ⟨rfl, rfl, ⟨by simp [Limiter.setSemaphore], same.ready, by rw [ofKey_snoc, ofKey_snoc, same.active],
          same.settled⟩, only, by simp [signalsOf, Signal.slot]⟩
  | resume =>
      simp only [step] at stepped
      split at stepped
      · cases stepped
      · rename_i slot ready due
        cases stepped
        have isSlot : slot.key = key := by simpa [Event.key?, due] using isKey
        have ownDue : own.ready = slot :: ofKey key ready := by
          rw [← only, same.ready, due, ofKey_cons, if_pos isSlot, List.singleton_append]
        refine ⟨{ own with ready := ofKey key ready, active := own.active ++ [slot] }, by simp [step, ownDue],
          by simp [Event.key?, ownDue, isSlot], ⟨same.semaphore, ?_, ?_, same.settled⟩, ?_, by simp [signalsOf, Signal.slot, isSlot]⟩
        · simp [ofKey]
        · simp [ofKey_snoc, same.active]
        · simp [ofKey]
  | settle slot outcome =>
      cases (Option.some.inj isKey : slot.key = key)
      simp only [step] at stepped
      split at stepped
      · rename_i running
        cases stepped
        have ownRunning : slot ∈ own.active := mem_ofKey.mp (same.active ▸ mem_ofKey.mpr running)
        refine ⟨{ own with active := own.active.erase slot, settled := own.settled ++ [slot] },
          by simp only [step, if_pos ownRunning], rfl, ⟨same.semaphore, same.ready, ?_, ?_⟩, only, by simp [signalsOf, Signal.slot]⟩
        · rw [ofKey_erase, ofKey_erase, same.active]
        · rw [ofKey_snoc, ofKey_snoc, same.settled]
      · cases stepped
  | release slot =>
      cases (Option.some.inj isKey : slot.key = key)
      simp only [step] at stepped
      split at stepped
      · rename_i ended
        have ownEnded : slot ∈ own.settled := mem_ofKey.mp (same.settled ▸ mem_ofKey.mpr ended)
        have settled : ofKey slot.key (own.settled.erase slot) = ofKey slot.key (limiter.settled.erase slot) := by
          rw [ofKey_erase, ofKey_erase, same.settled]
        refine ⟨{ own with settled := own.settled.erase slot }.release slot.key, ?_⟩
        simp only [step, if_pos ownEnded, Limiter.release, same.semaphore, Option.some.injEq] at stepped ⊢
        cases queue : (limiter.semaphores slot.key).waiters with
        | nil =>
            simp only [queue] at stepped ⊢
            cases stepped
            exact ⟨rfl, rfl, ⟨by simp [Limiter.setSemaphore], same.ready, same.active, settled⟩, only,
              by simp [signalsOf, Signal.slot]⟩
        | cons next waiters =>
            simp only [queue] at stepped ⊢
            cases stepped
            refine ⟨rfl, rfl, ⟨by simp [Limiter.setSemaphore], ?_, same.active, settled⟩, ?_, by simp [signalsOf, Signal.slot]⟩
            · rw [ofKey_snoc, ofKey_snoc, same.ready]
            · rw [ofKey_snoc, only, if_pos rfl]
      · cases stepped

theorem run_alone {history : List Signal} (key : String) (run : (createBackupLimiter limit).Reaches history limiter) :
    Exists fun own => (createBackupLimiter limit).Run (fun limiter event => event.key? limiter = some key)
      (signalsOf key history) own ∧ SameFor key own limiter ∧ ofKey key own.ready = own.ready := by
  induction run with
  | start => exact ⟨.fresh, .start, ⟨rfl, rfl, rfl, rfl⟩, rfl⟩
  | @next history output limiter after event _ _ stepped ih =>
      rcases ih with ⟨own, ownRun, same, only⟩
      have joined : signalsOf key (history ++ output) = signalsOf key history ++ signalsOf key output := List.filter_append _ _
      rw [joined]
      by_cases isKey : event.key? limiter = some key
      · rcases step_alone stepped isKey same only with ⟨ownAfter, ownStepped, ownKey, alike, still, all⟩
        rw [all]
        exact ⟨ownAfter, ownRun.next ownKey ownStepped, alike, still⟩
      · rcases sameFor_of_other stepped isKey with ⟨kept, none⟩
        rw [none, List.append_nil]
        exact ⟨own, ownRun, ⟨same.semaphore.trans kept.semaphore.symm, same.ready.trans kept.ready.symm,
          same.active.trans kept.active.symm, same.settled.trans kept.settled.symm⟩, only⟩

end Alone

structure Fair (limit : Nat) (history : List Signal) (limiter : Limiter) : Prop where
  bounded : forall key, (ofKey key limiter.active).length ≤ limit
  /-- Somebody waits only while the slots are held by others. -/
  full : forall key call, call ∈ (limiter.semaphores key).waiters -> limiter.held key = limit
  /-- Those that waited have started in the order in which they came. -/
  inOrder : forall key, history.filterMap (Signal.resumes? key) <+: history.filterMap (Signal.waits? key)
  /-- A call waits, holds a slot or has given one back, and is in one of these places. -/
  accounted : forall slot, (history.filterMap Signal.arrived?).count slot =
    limiter.waiting slot + limiter.ready.count slot + limiter.active.count slot + limiter.settled.count slot +
      (history.filterMap Signal.givesBack?).count slot
  /-- The job of a call that was woken is due. -/
  resumes : limiter.ready ≠ [] -> (step limit limiter .resume).isSome = true
  /-- However a function ends, its slot can be given back. -/
  ends : forall slot outcome, slot ∈ limiter.active ->
    Exists fun after => step limit limiter (.settle slot outcome) = some (after, [.ends slot outcome]) ∧ slot ∈ after.settled
  givesBack : forall slot, slot ∈ limiter.settled ->
    Exists fun after => step limit limiter (.release slot) = some (after, [.givesBack slot])
  /-- Without the calls of other keys the same happens to those of one key. -/
  alone : forall key, Exists fun own =>
    (createBackupLimiter limit).Run (fun limiter event => event.key? limiter = some key) (signalsOf key history) own ∧
      SameFor key own limiter
  /-- Nobody waits for a slot that nobody has. -/
  idle : forall key, limiter.held key = 0 -> (limiter.semaphores key).waiters = []
  gone : (forall slot, (history.filterMap Signal.arrived?).count slot = (history.filterMap Signal.givesBack?).count slot) ->
    forall key, (limiter.semaphores key).running = 0 ∧ (limiter.semaphores key).waiters = []

section Promises

variable {limit : Nat} {history : List Signal} {limiter : Limiter}

theorem Kept.held_full (kept : Kept limit history limiter) {key : String} (some : (limiter.semaphores key).waiters ≠ []) :
    limiter.held key = limit := by
  have counted := kept.counted key
  rw [kept.full key some] at counted
  exact (Int.ofNat_inj.mp counted).symm

theorem Kept.gone (kept : Kept limit history limiter)
    (all : forall slot, (history.filterMap Signal.arrived?).count slot = (history.filterMap Signal.givesBack?).count slot)
    (key : String) : (limiter.semaphores key).running = 0 ∧ (limiter.semaphores key).waiters = [] := by
  have nothing : forall slot, limiter.waiting slot = 0 ∧ slot ∉ limiter.ready ∧ slot ∉ limiter.active ∧
      slot ∉ limiter.settled := by
    intro slot
    have accounted := kept.accounted slot
    rw [all slot] at accounted
    refine ⟨by omega, ?_, ?_, ?_⟩ <;> exact List.count_eq_zero.mp (by omega)
  have noneOf : forall slots : List Slot, (forall slot, slot ∉ slots) -> ofKey key slots = [] := by
    intro slots none
    rw [List.eq_nil_iff_forall_not_mem.mpr none]
    rfl
  constructor
  · rw [kept.counted key, Limiter.held, noneOf _ fun slot => (nothing slot).2.1, noneOf _ fun slot => (nothing slot).2.2.1,
      noneOf _ fun slot => (nothing slot).2.2.2]
    rfl
  · refine List.eq_nil_iff_forall_not_mem.mpr fun call => List.count_eq_zero.mp ?_
    exact (nothing { key := key, call := call }).1

end Promises

/-- A limiter with at least one slot is fair to its keys. -/
theorem fair_of_run {limit : Nat} (some : 1 ≤ limit) {history : List Signal} {limiter : Limiter}
    (run : (createBackupLimiter limit).Reaches history limiter) : Fair limit history limiter where
  bounded key := by
    have kept := kept_of_run run
    have counted := kept.counted key
    have bounded := kept.bounded key
    rw [Limiter.held] at counted
    omega
  full key call waits := (kept_of_run run).held_full (List.ne_nil_of_mem waits)
  inOrder key := by
    rw [(kept_of_run run).inOrder key, List.append_assoc]
    exact List.prefix_append _ _
  accounted := (kept_of_run run).accounted
  resumes due := by
    rcases List.exists_cons_of_ne_nil due with ⟨slot, ready, isReady⟩
    simp [step, isReady]
  ends slot outcome running := ⟨_, if_pos running, List.mem_append_right _ List.mem_cons_self⟩
  givesBack slot ended := ⟨_, if_pos ended⟩
  alone key := by
    rcases run_alone key run with ⟨own, ownRun, same, _⟩
    exact ⟨own, ownRun, same⟩
  idle key none := by
    by_contra waits
    have full := (kept_of_run run).held_full waits
    omega
  gone all := (kept_of_run run).gone all

/-- Two calls of a server, of which the second waits for the slot of the first, and one of the local host. -/
def exampleCalls : List Event :=
  [.withSlot (some "server") 0, .withSlot (some "server") 1, .withSlot none 2, .settle { key := "server", call := 0 } .rejected,
    .release { key := "server", call := 0 }, .resume, .settle { key := "server", call := 1 } .threw,
    .release { key := "server", call := 1 }, .settle { key := "local", call := 2 } .resolved,
    .release { key := "local", call := 2 }]

theorem exampleCalls_fair :
    Fair 1 ((createBackupLimiter 1).outcome (fun _ _ => true) exampleCalls).2
      ((createBackupLimiter 1).outcome (fun _ _ => true) exampleCalls).1 :=
  fair_of_run (by decide) (@Machine.run_of_executes _ _ _ (createBackupLimiter 1) (fun _ _ => True) (fun _ _ => true)
    (fun _ _ _ => trivial) exampleCalls (by decide))

end BackupSlots
end Dokploy
