import Dokploy.Foundation.Machine
import Dokploy.Foundation.Unicode
import Mathlib.Data.List.Forall2
import Mathlib.Data.List.Infix

namespace Dokploy
namespace DeployHooks

open Foundation (Machine Units)
open Foundation.Unicode (utf8 utf16 encode)

/-!
# The relay of a hook's output

What a hook prints is written to a log on another host while the hook runs.  Output that
arrives during a write waits, and is written in one piece when the write is over.  A
session that fails is opened again once; what was being written is written again behind
a marker, since nobody knows how much of it arrived.

A session that ends in good order has written all it took.  Any other session has written
some first part of it.
-/

abbrev Bytes := List UInt8

def HOOK_LOG_RELAY_MAX_BYTES : Nat := 8 * 1024 * 1024

def HOOK_LOG_TRUNCATION_MARKER : Bytes :=
  utf8 "\n===== Hook output truncated: only the first 8 MiB were copied to this log =====\n".toList

def HOOK_LOG_RETRY_MARKER : Bytes :=
  utf8 "\n===== Relaying hook output to this log failed and was restarted; output around here may be missing or repeated =====\n".toList

/-- The fields of a relay.  A session is known by its number. -/
structure Relay where
  pending : List Bytes
  acceptedBytes : Nat
  receivedOutput : Bool
  truncated : Bool
  stopped : Bool
  retried : Bool
  session : Option Nat
  draining : Bool
deriving DecidableEq

inductive Place where
  | appending (file : Nat) (data : Bytes)
  | opening (data : Bytes)
  | writing (session : Nat) (data : Bytes)
  | delayed (data : Bytes)
deriving DecidableEq

inductive Finish where
  | notStarted
  | awaiting
  | ending (session : Nat)
  | gone
deriving DecidableEq

/-- What one session, or one append to a file, took, and whether all of it is sure to be in the log. -/
structure Piece where
  source : Nat
  bytes : Bytes
  whole : Bool
deriving DecidableEq

structure Relaying where
  relay : Relay
  loops : List Place
  finish : Finish
  closed : Bool
  /-- The sessions whose connection is open. -/
  live : List Nat
  /-- How many sessions and files have been opened. -/
  opened : Nat
  pieces : List Piece
deriving DecidableEq

inductive Event where
  | push (data : Units)
  | close
  | succeeds (loop : Nat)
  | fails (loop : Nat)
  | dies (session : Nat)
  | finishes
  | ends
  | endFails
  | timeout
deriving DecidableEq

inductive Signal where
  | pushed (bytes : Bytes)
  | writes (data : Bytes)
  | opens
deriving DecidableEq

namespace Relaying

def fresh : Relaying where
  relay := ⟨[], 0, false, false, false, false, none, false⟩
  loops := []
  finish := .notStarted
  closed := false
  live := []
  opened := 0
  pieces := []

def fail (state : Relaying) : Relaying :=
  if state.relay.stopped then state
  else
    { state with
      relay := { state.relay with stopped := true, pending := [], session := none }
      live := state.live.filter fun session => state.relay.session ≠ some session }

def give (state : Relaying) (session : Nat) (data : Bytes) : Relaying :=
  { state with pieces := state.pieces.map fun piece =>
      if piece.source = session then { piece with bytes := piece.bytes ++ data } else piece }

def arrives (state : Relaying) (source : Nat) : Relaying :=
  { state with pieces := state.pieces.map fun piece => if piece.source = source then { piece with whole := true } else piece }

/-- Where a write comes to wait, or none when it is over at once. -/
def write (remote : Bool) (state : Relaying) (data : Bytes) : Relaying × Option Place × List Signal :=
  if state.relay.stopped then (state, none, [])
  else if !remote then
    ({ state with opened := state.opened + 1, pieces := state.pieces ++ [⟨state.opened, data, false⟩] },
      some (.appending state.opened data), [])
  else
    match state.relay.session with
    | none => (state, some (.opening data), [.opens])
    | some session => (state.give session data, some (.writing session data), [])

def goOn (remote : Bool) (state : Relaying) : Relaying × List Signal :=
  if state.relay.pending = [] then ({ state with relay := { state.relay with draining := false } }, [])
  else
    let data := state.relay.pending.flatten
    match write remote { state with relay := { state.relay with pending := [] } } data with
    | (state, none, signals) => ({ state with relay := { state.relay with draining := false } }, .writes data :: signals)
    | (state, some place, signals) => ({ state with loops := state.loops ++ [place] }, .writes data :: signals)

def drain (remote : Bool) (state : Relaying) : Relaying × List Signal :=
  if state.relay.draining ∨ state.relay.pending = [] then (state, [])
  else goOn remote { state with relay := { state.relay with draining := true } }

def push (remote : Bool) (state : Relaying) (data : Units) : Relaying × List Signal :=
  if data = [] then (state, [])
  else
    let relay := { state.relay with receivedOutput := true }
    if relay.truncated ∨ relay.stopped then ({ state with relay := relay }, [])
    else
      let bytes := encode data
      let room := HOOK_LOG_RELAY_MAX_BYTES - relay.acceptedBytes
      let truncated := decide (room < bytes.length)
      let bytes := if truncated then bytes.take room else bytes
      let pending := relay.pending ++ (if bytes = [] then [] else [bytes]) ++ if truncated then [HOOK_LOG_TRUNCATION_MARKER] else []
      drain remote { state with
        relay := { relay with truncated := truncated, acceptedBytes := relay.acceptedBytes + bytes.length, pending := pending } }

def withoutSession (state : Relaying) : Relaying := { state with relay := { state.relay with session := none } }

def caught (remote : Bool) (state : Relaying) (data : Bytes) : Relaying × List Signal :=
  let lost := state.relay.session.isSome
  let state := state.withoutSession
  if state.relay.stopped then goOn remote state
  else if state.relay.retried then goOn remote state.fail
  else
    ({ state with
        relay := { state.relay with retried := true }
        loops := state.loops ++ [.delayed (if lost then HOOK_LOG_RETRY_MARKER ++ data else data)] }, [])

/-- A drain loop goes on after what it waited for. -/
def resume (remote : Bool) (state : Relaying) : Place -> Relaying × List Signal
  | .appending file _ => goOn remote (state.arrives file)
  | .opening data =>
      let session := state.opened
      let state := { state with opened := state.opened + 1 }
      -- The relay may have given up while the session was opening: it is dropped.
      if state.relay.stopped then goOn remote state
      else
        ({ state with
            relay := { state.relay with session := some session }
            live := state.live ++ [session]
            pieces := state.pieces ++ [⟨session, data, false⟩]
            loops := state.loops ++ [.writing session data] }, [])
  | .writing _ _ => goOn remote state
  | .delayed data =>
      match write remote state data with
      | (state, none, signals) =>
          let (state, more) := goOn remote state
          (state, signals ++ more)
      | (state, some place, signals) => ({ state with loops := state.loops ++ [place] }, signals)

/-- A drain loop goes on after what it waited for has failed.  A write fails when its session is over. -/
def recover (remote : Bool) (state : Relaying) : Place -> Option (Relaying × List Signal)
  | .appending _ _ => some (goOn remote state.fail)
  | .opening data => some (caught remote state data)
  | .writing session data => if session ∈ state.live then none else some (caught remote state data)
  | .delayed _ => none

end Relaying

def step (remote : Bool) (state : Relaying) : Event -> Option (Relaying × List Signal)
  | .push data =>
      if state.finish = .notStarted then
        let (state, signals) := state.push remote data
        some (state, .pushed (encode data) :: signals)
      else none
  | .close => if state.finish = .notStarted then some ({ state with finish := .awaiting }, []) else none
  | .succeeds loop =>
      state.loops[loop]?.map fun place => Relaying.resume remote { state with loops := state.loops.eraseIdx loop } place
  | .fails loop =>
      state.loops[loop]?.bind fun place => Relaying.recover remote { state with loops := state.loops.eraseIdx loop } place
  | .dies session => if session ∈ state.live then some ({ state with live := state.live.filter (· ≠ session) }, []) else none
  | .finishes =>
      if state.finish = .awaiting ∧ state.relay.draining = false then
        match state.relay.session with
        | none => some ({ state with finish := .gone, closed := true }, [])
        | some session => some ({ state with finish := .ending session }, [])
      else none
  | .ends =>
      match state.finish with
      | .ending session =>
          if session ∈ state.live then
            let relay := if state.relay.session = some session then { state.relay with session := none } else state.relay
            some ({ state.arrives session with
              relay := relay, live := state.live.filter (· ≠ session), finish := .gone, closed := true }, [])
          else none
      | _ => none
  | .endFails =>
      match state.finish with
      | .ending session =>
          if session ∈ state.live then none
          else
            let state := state.fail
            let relay := if state.relay.session = some session then { state.relay with session := none } else state.relay
            some ({ state with relay := relay, finish := .gone, closed := true }, [])
      | _ => none
  | .timeout =>
      if state.finish ≠ .notStarted ∧ state.closed = false then some ({ state.fail with closed := true }, []) else none

def hookLogRelay (remote : Bool) : Machine Relaying Event Signal where
  initial := .fresh
  step := step remote

/-- The bytes of the texts pushed so far. -/
def pushedBytes (history : List Signal) : Bytes :=
  history.flatMap fun | .pushed bytes => bytes | _ => []

/-- What was handed over to be written, write by write. -/
def writesOf (history : List Signal) : List Bytes :=
  history.filterMap fun | .writes data => some data | _ => none

/-- The first bytes of a text, and the marker when there were more. -/
def limited (bytes : Bytes) : Bytes :=
  if bytes.length ≤ HOOK_LOG_RELAY_MAX_BYTES then bytes
  else bytes.take HOOK_LOG_RELAY_MAX_BYTES ++ HOOK_LOG_TRUNCATION_MARKER

/-- A log that these pieces may have left. -/
def Left (pieces : List Piece) (log : Bytes) : Prop :=
  Exists fun parts => List.Forall₂ (fun piece part => part <+: piece.bytes ∧ (piece.whole = true -> part = piece.bytes)) pieces parts ∧
    log = parts.flatten

@[simp] theorem pushedBytes_append (first second : List Signal) :
    pushedBytes (first ++ second) = pushedBytes first ++ pushedBytes second := List.flatMap_append

@[simp] theorem writesOf_append (first second : List Signal) : writesOf (first ++ second) = writesOf first ++ writesOf second :=
  List.filterMap_append

theorem limited_more {bytes : Bytes} (more : Bytes) (isFull : HOOK_LOG_RELAY_MAX_BYTES < bytes.length) :
    limited (bytes ++ more) = limited bytes := by
  unfold limited
  rw [List.length_append, if_neg (by omega), if_neg (by omega), List.take_append_of_le_length (Nat.le_of_lt isFull)]

theorem limited_within {bytes more : Bytes} (isRoom : (bytes ++ more).length ≤ HOOK_LOG_RELAY_MAX_BYTES) :
    limited (bytes ++ more) = limited bytes ++ more := by
  have isFirst : bytes.length ≤ HOOK_LOG_RELAY_MAX_BYTES := by
    rw [List.length_append] at isRoom
    omega
  unfold limited
  rw [if_pos isRoom, if_pos isFirst]

theorem limited_cut {bytes more : Bytes} (isRoom : bytes.length ≤ HOOK_LOG_RELAY_MAX_BYTES)
    (isFull : HOOK_LOG_RELAY_MAX_BYTES < (bytes ++ more).length) : limited (bytes ++ more) =
      limited bytes ++ (more.take (HOOK_LOG_RELAY_MAX_BYTES - bytes.length) ++ HOOK_LOG_TRUNCATION_MARKER) := by
  unfold limited
  rw [if_neg (Nat.not_le.mpr isFull), if_pos isRoom, List.take_append, List.take_of_length_le isRoom, List.append_assoc]

theorem limited_monotone (bytes more : Bytes) : limited bytes <+: limited (bytes ++ more) := by
  by_cases isRoom : bytes.length ≤ HOOK_LOG_RELAY_MAX_BYTES
  · by_cases isWithin : (bytes ++ more).length ≤ HOOK_LOG_RELAY_MAX_BYTES
    · rw [limited_within isWithin]
      exact List.prefix_append _ _
    · rw [limited_cut isRoom (Nat.lt_of_not_le isWithin)]
      exact List.prefix_append _ _
  · rw [limited_more more (Nat.lt_of_not_le isRoom)]

def opensOf (history : List Signal) : Nat := history.count .opens

@[simp] theorem opensOf_append (first second : List Signal) : opensOf (first ++ second) = opensOf first + opensOf second :=
  List.count_append

section Standing

variable (remote : Bool) (writes : List Bytes) (opens : Nat) (session : Option Nat) (retried : Bool) (pieces : List Piece)

/-- A relay that waits for nothing, by what was handed over to be written so far and how often a session was
opened. -/
inductive Resting : Prop where
  | appended (isLocal : remote = false) (noSession : session = none) (fresh : retried = false) (unopened : opens = 0)
      (whole : forall piece, piece ∈ pieces -> piece.whole = true) (same : pieces.flatMap Piece.bytes = writes.flatten)
  | unopened (isRemote : remote = true) (noSession : session = none) (fresh : retried = false) (never : opens = 0)
      (unwritten : writes = []) (nothing : pieces = [])
  | first (isRemote : remote = true) (number : Nat) (isSession : session = some number)
      (few : opens ≤ if retried = true then 2 else 1) (single : pieces = [⟨number, writes.flatten, false⟩])
  | second (isRemote : remote = true) (before number : Nat) (earlier : List Bytes) (data : Bytes) (later : List Bytes)
      (isSession : session = some number) (differ : before ≠ number) (again : retried = true) (few : opens ≤ 2)
      (split : writes = earlier ++ data :: later)
      (both : pieces = [⟨before, (earlier ++ [data]).flatten, false⟩, ⟨number, HOOK_LOG_RETRY_MARKER ++ (data :: later).flatten, false⟩])

/-- What the next session is given first. -/
inductive Waiting (data : Bytes) : Prop where
  | anew (only : writes = [data]) (nothing : pieces = [])
  | again (before : Nat) (earlier : List Bytes) (last : Bytes) (again : retried = true) (split : writes = earlier ++ [last])
      (marked : data = HOOK_LOG_RETRY_MARKER ++ last) (single : pieces = [⟨before, writes.flatten, false⟩])

/-- A relay with a drain loop, by what the loop waits for. -/
inductive Busy : Place -> Prop where
  | appending (file : Nat) (data : Bytes) (front : List Piece) (isLocal : remote = false) (noSession : session = none)
      (fresh : retried = false) (unopened : opens = 0) (whole : forall piece, piece ∈ front -> piece.whole = true)
      (same : pieces.flatMap Piece.bytes = writes.flatten) (split : pieces = front ++ [⟨file, data, false⟩]) :
      Busy (.appending file data)
  | opening (data : Bytes) (isRemote : remote = true) (noSession : session = none)
      (few : opens ≤ if retried = true then 2 else 1) (waiting : Waiting writes retried pieces data) :
      Busy (.opening data)
  | writing (number : Nat) (data : Bytes) (isSession : session = some number)
      (last : retried = false -> Exists fun earlier => writes = earlier ++ [data])
      (resting : Resting remote writes opens session retried pieces) : Busy (.writing number data)
  | delayed (data : Bytes) (isRemote : remote = true) (noSession : session = none) (again : retried = true)
      (few : opens ≤ 1) (waiting : Waiting writes retried pieces data) : Busy (.delayed data)

/-- The pieces of a relay that may have stopped: first parts of what was to be written, or two pieces with the marker. -/
inductive Fits : Prop where
  | straight (inner : forall front piece last back, pieces = front ++ piece :: last :: back -> piece.whole = true)
      (within : pieces.flatMap Piece.bytes <+: writes.flatten)
  | retold (first second : Piece) (earlier : List Bytes) (data : Bytes) (later : List Bytes) (both : pieces = [first, second])
      (split : writes = earlier ++ data :: later) (within : first.bytes <+: writes.flatten)
      (marked : second.bytes <+: HOOK_LOG_RETRY_MARKER ++ (data :: later).flatten)

end Standing

/-- What holds wherever the relay stands. -/
structure Core (history : List Signal) (state : Relaying) : Prop where
  texts : state.relay.stopped = false ->
    (writesOf history).flatten ++ state.relay.pending.flatten = limited (pushedBytes history)
  within : (writesOf history).flatten <+: limited (pushedBytes history)
  accepted : state.relay.stopped = false -> state.relay.truncated = false ->
    state.relay.acceptedBytes = (pushedBytes history).length ∧ (pushedBytes history).length ≤ HOOK_LOG_RELAY_MAX_BYTES
  full : state.relay.truncated = true -> HOOK_LOG_RELAY_MAX_BYTES < (pushedBytes history).length
  fits : Fits (writesOf history) state.pieces
  few : opensOf history ≤ 2
  live : forall session, session ∈ state.live -> state.relay.session = some session
  numbered : forall piece, piece ∈ state.pieces -> piece.source < state.opened
  halted : state.relay.stopped = true -> state.relay.pending = [] ∧ state.relay.session = none
  closing : state.closed = true -> state.relay.stopped = true ∨ state.finish = .gone

/-- Nobody waits for the end of a session yet. -/
def Early (state : Relaying) : Prop := state.finish = .notStarted ∨ state.finish = .awaiting

inductive Stands (remote : Bool) (history : List Signal) (state : Relaying) : Prop where
  | idle (early : Early state) (noLoop : state.loops = []) (isIdle : state.relay.draining = false) (written : state.relay.pending = [])
      (resting : state.relay.stopped = true ∨
        Resting remote (writesOf history) (opensOf history) state.relay.session state.relay.retried state.pieces)
  | busy (early : Early state) (place : Place) (isLoop : state.loops = [place]) (isDraining : state.relay.draining = true)
      (busy : state.relay.stopped = true ∨
        Busy remote (writesOf history) (opensOf history) state.relay.session state.relay.retried state.pieces place)
  | ending (session : Nat) (isEnding : state.finish = .ending session) (noLoop : state.loops = []) (isIdle : state.relay.draining = false)
      (written : state.relay.pending = [])
      (resting : state.relay.stopped = true ∨ (state.relay.session = some session ∧
        Resting remote (writesOf history) (opensOf history) state.relay.session state.relay.retried state.pieces))
  | gone (isOver : state.finish = .gone) (noLoop : state.loops = []) (isIdle : state.relay.draining = false)
      (written : state.relay.pending = []) (noSession : state.relay.session = none) (isClosed : state.closed = true)
      (complete : state.relay.stopped = false -> state.relay.retried = false ->
        (forall piece, piece ∈ state.pieces -> piece.whole = true) ∧ state.pieces.flatMap Piece.bytes = (writesOf history).flatten)

structure Kept (remote : Bool) (history : List Signal) (state : Relaying) : Prop where
  core : Core history state
  stands : Stands remote history state

section Preserved

variable {remote : Bool} {writes : List Bytes} {history : List Signal} {state after : Relaying}

theorem fits_snoc {front : List Piece} {last : Piece} (whole : forall piece, piece ∈ front -> piece.whole = true)
    (within : (front ++ [last]).flatMap Piece.bytes <+: writes.flatten) : Fits writes (front ++ [last]) := by
  refine Fits.straight ?_ within
  intro before piece next back split
  have isFront : front = before ++ piece :: (next :: back).dropLast := by
    have shorter := congrArg List.dropLast split
    rwa [List.dropLast_concat, List.dropLast_append_of_ne_nil (List.cons_ne_nil _ _), List.dropLast_cons_of_ne_nil
      (List.cons_ne_nil _ _)] at shorter
  exact whole piece (isFront ▸ List.mem_append_right before List.mem_cons_self)

theorem fits_single {piece : Piece} (within : piece.bytes <+: writes.flatten) : Fits writes [piece] := by
  refine @fits_snoc writes [] piece (fun _ among => by cases among) ?_
  simpa using within

theorem fits_nil : Fits writes [] := Fits.straight (fun front _ _ _ split => by cases front <;> cases split) (List.nil_prefix)

theorem Core.written (core : Core history state) (running : state.relay.stopped = false) {signals : List Signal}
    (isRelay : after.relay = { state.relay with pending := [] }) (sameLive : after.live = state.live) (sameClosed : after.closed = state.closed)
    (sameFinish : after.finish = state.finish) (quiet : pushedBytes signals = [] ∧ writesOf signals = [])
    (few : opensOf history + opensOf signals ≤ 2) (fits : Fits (writesOf history ++ [state.relay.pending.flatten]) after.pieces)
    (numbered : forall piece, piece ∈ after.pieces -> piece.source < after.opened) :
    Core (history ++ .writes state.relay.pending.flatten :: signals) after := by
  have texts := core.texts running
  have isWrites : writesOf (history ++ .writes state.relay.pending.flatten :: signals) = writesOf history ++ [state.relay.pending.flatten] := by
    rw [writesOf_append]
    exact congrArg (fun rest => writesOf history ++ state.relay.pending.flatten :: rest) quiet.2
  have isPushed : pushedBytes (history ++ .writes state.relay.pending.flatten :: signals) = pushedBytes history := by
    rw [pushedBytes_append]
    exact (congrArg (pushedBytes history ++ ·) quiet.1).trans (List.append_nil _)
  have isFlat : (writesOf history ++ [state.relay.pending.flatten]).flatten = limited (pushedBytes history) := by
    rw [List.flatten_append, List.flatten_singleton, texts]
  have isOpens : opensOf (history ++ .writes state.relay.pending.flatten :: signals) = opensOf history + opensOf signals := by
    rw [opensOf_append]
    rfl
  constructor
  · intro _
    rw [isWrites, isPushed, isFlat, isRelay]
    exact List.append_nil _
  · rw [isWrites, isPushed, isFlat]
  · rw [isPushed, isRelay]
    exact core.accepted
  · rw [isPushed, isRelay]
    exact core.full
  · rw [isWrites]
    exact fits
  · rw [isOpens]
    exact few
  · rw [sameLive, isRelay]
    exact core.live
  · exact numbered
  · rw [isRelay]
    exact fun stopped => absurd (running.symm.trans stopped) Bool.false_ne_true
  · rw [sameClosed, sameFinish, isRelay]
    exact core.closing

/-- A write of a relay that rests comes to wait somewhere. -/
structure Wrote (remote : Bool) (writes : List Bytes) (opens : Nat) (state : Relaying) (data : Bytes) (after : Relaying) (place : Place)
    (signals : List Signal) : Prop where
  written : state.write remote data = (after, some place, signals)
  relay : after.relay = state.relay
  loops : after.loops = state.loops
  live : after.live = state.live
  closed : after.closed = state.closed
  finish : after.finish = state.finish
  quiet : pushedBytes signals = [] ∧ writesOf signals = []
  few : opens + opensOf signals ≤ 2
  fits : Fits (writes ++ [data]) after.pieces
  numbered : forall piece, piece ∈ after.pieces -> piece.source < after.opened
  busy : Busy remote (writes ++ [data]) (opens + opensOf signals) after.relay.session after.relay.retried after.pieces place

theorem Resting.wrote {opens : Nat} (resting : Resting remote writes opens state.relay.session state.relay.retried state.pieces)
    (running : state.relay.stopped = false) (numbered : forall piece, piece ∈ state.pieces -> piece.source < state.opened) (data : Bytes) :
    Exists fun after => Exists fun place => Exists fun signals => Wrote remote writes opens state data after place signals := by
  have isWrite : state.write remote data = if !remote then
      ({ state with opened := state.opened + 1, pieces := state.pieces ++ [⟨state.opened, data, false⟩] },
        some (.appending state.opened data), [])
    else match state.relay.session with
      | none => (state, some (.opening data), [.opens])
      | some session => (state.give session data, some (.writing session data), []) := by
    unfold Relaying.write
    rw [running]
    rfl
  cases resting with
  | appended isLocal noSession fresh unopened whole same =>
    subst isLocal
    have isFlat : (state.pieces ++ [Piece.mk state.opened data false]).flatMap Piece.bytes = (writes ++ [data]).flatten := by
      rw [List.flatMap_append, List.flatten_append, same]
      simp
    refine ⟨_, _, _, isWrite, rfl, rfl, rfl, rfl, rfl, ⟨rfl, rfl⟩, ?_, fits_snoc whole (isFlat ▸ List.prefix_rfl), ?_, ?_⟩
    · rw [unopened]
      exact Nat.zero_le 2
    · intro piece among
      rcases List.mem_append.mp among with among | among
      · exact Nat.lt_succ_of_lt (numbered piece among)
      · rw [List.mem_singleton.mp among]
        exact Nat.lt_succ_self _
    · exact Busy.appending _ _ state.pieces rfl noSession fresh unopened whole isFlat rfl
  | unopened isRemote noSession fresh never unwritten nothing =>
    subst isRemote
    rw [noSession] at isWrite
    refine ⟨_, _, _, isWrite, rfl, rfl, rfl, rfl, rfl, ⟨rfl, rfl⟩, ?_, ?_, numbered, ?_⟩
    · rw [never]
      decide
    · rw [nothing]
      exact fits_nil
    · refine Busy.opening data rfl noSession ?_ (Waiting.anew (by rw [unwritten]; rfl) nothing)
      rw [never, fresh]
      exact Nat.le_refl 1
  | first isRemote number isSession few single =>
    subst isRemote
    rw [isSession] at isWrite
    have given : (state.give number data).pieces = [⟨number, (writes ++ [data]).flatten, false⟩] := by
      simp [Relaying.give, single]
    refine ⟨_, _, _, isWrite, rfl, rfl, rfl, rfl, rfl, ⟨rfl, rfl⟩, ?_, ?_, ?_, ?_⟩
    · exact Nat.le_trans few (by split <;> decide)
    · rw [given]
      exact fits_single List.prefix_rfl
    · intro piece among
      rw [given, List.mem_singleton] at among
      rw [among]
      exact numbered ⟨number, writes.flatten, false⟩ (single ▸ List.mem_singleton_self _)
    · exact Busy.writing number data isSession (fun _ => ⟨writes, rfl⟩) (Resting.first rfl number isSession few given)
  | second isRemote before number earlier last later isSession differ again few split both =>
    subst isRemote
    rw [isSession] at isWrite
    have given : (state.give number data).pieces = [⟨before, (earlier ++ [last]).flatten, false⟩,
        ⟨number, HOOK_LOG_RETRY_MARKER ++ (last :: (later ++ [data])).flatten, false⟩] := by
      simp [Relaying.give, both, differ]
    have isSplit : writes ++ [data] = earlier ++ last :: (later ++ [data]) := by
      rw [split, List.append_assoc, List.cons_append]
    refine ⟨_, _, _, isWrite, rfl, rfl, rfl, rfl, rfl, ⟨rfl, rfl⟩, few, ?_, ?_, ?_⟩
    · refine Fits.retold _ _ earlier last (later ++ [data]) given isSplit ?_ List.prefix_rfl
      rw [isSplit]
      simp
    · intro piece among
      rw [given] at among
      have inBoth := numbered
      rw [both] at inBoth
      rcases List.mem_pair.mp among with rfl | rfl
      · exact inBoth ⟨before, (earlier ++ [last]).flatten, false⟩ List.mem_cons_self
      · exact inBoth ⟨number, HOOK_LOG_RETRY_MARKER ++ (last :: later).flatten, false⟩ (List.mem_cons_of_mem _ List.mem_cons_self)
    · refine Busy.writing number data isSession (fun fresh => ?_)
        (Resting.second rfl before number earlier last (later ++ [data]) isSession differ again few isSplit given)
      exact absurd (again.symm.trans fresh) (by decide)

theorem goOn_kept (core : Core history state) (early : Early state) (noLoop : state.loops = []) (isDraining : state.relay.draining = true)
    (resting : state.relay.stopped = true ∨
      Resting remote (writesOf history) (opensOf history) state.relay.session state.relay.retried state.pieces) :
    Kept remote (history ++ (state.goOn remote).2) (state.goOn remote).1 := by
  unfold Relaying.goOn
  by_cases isEmpty : state.relay.pending = []
  · rw [if_pos isEmpty, List.append_nil]
    exact ⟨⟨core.texts, core.within, core.accepted, core.full, core.fits, core.few, core.live, core.numbered, core.halted, core.closing⟩,
      Stands.idle early noLoop rfl isEmpty resting⟩
  · rw [if_neg isEmpty]
    have running : state.relay.stopped = false := by
      cases isStopped : state.relay.stopped with
      | false => rfl
      | true => exact absurd (core.halted isStopped).1 isEmpty
    have resting := resting.resolve_left fun stopped => absurd (running.symm.trans stopped) Bool.false_ne_true
    obtain ⟨after, place, signals, wrote⟩ := @Resting.wrote remote (writesOf history)
      { state with relay := { state.relay with pending := [] } } _ resting running core.numbered state.relay.pending.flatten
    simp only [wrote.written]
    have isWrites : writesOf (history ++ .writes state.relay.pending.flatten :: signals) = writesOf history ++ [state.relay.pending.flatten] := by
      rw [writesOf_append]
      exact congrArg (fun rest => writesOf history ++ state.relay.pending.flatten :: rest) wrote.quiet.2
    have isOpens : opensOf (history ++ .writes state.relay.pending.flatten :: signals) = opensOf history + opensOf signals := by
      rw [opensOf_append]
      rfl
    refine ⟨core.written running wrote.relay wrote.live wrote.closed wrote.finish wrote.quiet wrote.few wrote.fits wrote.numbered, ?_⟩
    refine Stands.busy ?_ place ?_ ?_ (Or.inr ?_)
    · unfold Early
      rw [show ({ after with loops := after.loops ++ [place] } : Relaying).finish = state.finish from wrote.finish]
      exact early
    · rw [show ({ after with loops := after.loops ++ [place] } : Relaying).loops = state.loops ++ [place] from
        congrArg (· ++ [place]) wrote.loops, noLoop]
      rfl
    · exact (congrArg Relay.draining wrote.relay).trans isDraining
    · rw [isWrites, isOpens]
      exact wrote.busy

theorem Core.noLive (core : Core history state) (noSession : state.relay.session = none) : state.live = [] := by
  refine List.eq_nil_iff_forall_not_mem.mpr fun session among => ?_
  have isSession := core.live session among
  rw [noSession] at isSession
  cases isSession

theorem Relaying.fail_stopped (state : Relaying) : state.fail.relay.stopped = true := by
  unfold Relaying.fail
  split
  · assumption
  · rfl

theorem Relaying.fail_same (state : Relaying) : state.fail.loops = state.loops ∧ state.fail.finish = state.finish ∧ state.fail.closed = state.closed ∧
    state.fail.relay.draining = state.relay.draining := by
  unfold Relaying.fail
  split <;> exact ⟨rfl, rfl, rfl, rfl⟩

theorem Core.fail (core : Core history state) : Core history state.fail := by
  unfold Relaying.fail
  split
  · exact core
  · have noLive : (state.live.filter fun session => state.relay.session ≠ some session) = [] :=
      List.filter_eq_nil_iff.mpr fun session among => by simp [core.live session among]
    refine ⟨fun running => ?_, core.within, fun running => ?_, core.full, core.fits, core.few, fun session among => ?_, core.numbered,
      fun _ => ⟨rfl, rfl⟩, fun _ => Or.inl rfl⟩
    · cases running
    · cases running
    · rw [noLive] at among
      cases among

theorem Core.withoutSession (core : Core history state) (noLive : state.live = []) : Core history state.withoutSession := by
  refine ⟨core.texts, core.within, core.accepted, core.full, core.fits, core.few, fun session among => ?_, core.numbered,
    fun stopped => ⟨(core.halted stopped).1, rfl⟩, core.closing⟩
  rw [show state.withoutSession.live = state.live from rfl, noLive] at among
  cases among

theorem Busy.again {opens : Nat} {place : Place} {data : Bytes} (fresh : state.relay.retried = false)
    (isPlace : place = .opening data ∨ Exists fun session => place = .writing session data)
    (busy : Busy remote writes opens state.relay.session state.relay.retried state.pieces place) :
    Busy remote writes opens none true state.pieces
      (.delayed (if state.relay.session.isSome then HOOK_LOG_RETRY_MARKER ++ data else data)) := by
  cases busy with
  | appending file bytes front isLocal noSession =>
    rcases isPlace with other | ⟨_, other⟩ <;> cases other
  | opening bytes isRemote noSession few waiting =>
    obtain rfl : bytes = data := by
      rcases isPlace with same | ⟨_, other⟩
      · exact Place.opening.inj same
      · cases other
    rw [fresh] at few
    rw [noSession]
    cases waiting with
    | anew only nothing => exact Busy.delayed _ isRemote rfl rfl few (Waiting.anew only nothing)
    | again before earlier last again => exact absurd (fresh.symm.trans again) Bool.false_ne_true
  | writing session bytes isSession last resting =>
    obtain rfl : bytes = data := by
      rcases isPlace with other | ⟨_, same⟩
      · cases other
      · exact (Place.writing.inj same).2
    obtain ⟨earlier, split⟩ := last fresh
    rw [isSession]
    cases resting with
    | appended isLocal noSession =>
      rw [isSession] at noSession
      cases noSession
    | unopened isRemote noSession =>
      rw [isSession] at noSession
      cases noSession
    | first isRemote number same few single =>
      rw [fresh] at few
      exact Busy.delayed _ isRemote rfl rfl few (Waiting.again number earlier bytes rfl split rfl single)
    | second isRemote before number others middle later same differ again =>
      exact absurd (fresh.symm.trans again) Bool.false_ne_true
  | delayed bytes isRemote noSession again => exact absurd (fresh.symm.trans again) Bool.false_ne_true

variable {place : Place}

theorem caught_kept (core : Core history state) (early : Early state) (noLoop : state.loops = []) (isDraining : state.relay.draining = true)
    (noLive : state.live = []) {data : Bytes} (isPlace : place = .opening data ∨ Exists fun session => place = .writing session data)
    (busy : state.relay.stopped = true ∨
      Busy remote (writesOf history) (opensOf history) state.relay.session state.relay.retried state.pieces place) :
    Kept remote (history ++ (state.caught remote data).2) (state.caught remote data).1 := by
  have coreNone := core.withoutSession noLive
  by_cases isStopped : state.relay.stopped = true
  · have isCaught : state.caught remote data = state.withoutSession.goOn remote := if_pos isStopped
    rw [isCaught]
    exact goOn_kept coreNone early noLoop isDraining (Or.inl isStopped)
  · by_cases retried : state.relay.retried = true
    · have isCaught : state.caught remote data = state.withoutSession.fail.goOn remote := (if_neg isStopped).trans (if_pos retried)
      rw [isCaught]
      obtain ⟨sameLoops, sameFinish, _, sameDraining⟩ := Relaying.fail_same state.withoutSession
      refine goOn_kept coreNone.fail ?_ (sameLoops.trans noLoop) (sameDraining.trans isDraining) (Or.inl (Relaying.fail_stopped _))
      unfold Early
      rw [sameFinish]
      exact early
    · have isCaught : state.caught remote data = ({ state.withoutSession with
          relay := { state.withoutSession.relay with retried := true }
          loops := state.loops ++ [.delayed (if state.relay.session.isSome then HOOK_LOG_RETRY_MARKER ++ data else data)] }, []) :=
        (if_neg isStopped).trans (if_neg retried)
      have again := (busy.resolve_left isStopped).again (Bool.eq_false_iff.mpr retried) isPlace
      rw [isCaught, List.append_nil]
      exact ⟨⟨coreNone.texts, core.within, core.accepted, core.full, core.fits, core.few, coreNone.live, core.numbered, coreNone.halted,
        core.closing⟩, Stands.busy early _ (congrArg (· ++ [_]) noLoop) isDraining (Or.inr again)⟩

theorem Fits.arrives {pieces : List Piece} (fits : Fits writes pieces) (source : Nat) :
    Fits writes (pieces.map fun piece => if piece.source = source then { piece with whole := true } else piece) := by
  have sameBytes (piece : Piece) : (if piece.source = source then { piece with whole := true } else piece).bytes = piece.bytes := by
    split <;> rfl
  cases fits with
  | straight inner within =>
    refine Fits.straight ?_ ?_
    · intro front piece last back split
      obtain ⟨before, rest, rfl, rfl, isRest⟩ := List.map_eq_append_iff.mp split
      obtain ⟨original, others, rfl, rfl, isOthers⟩ := List.map_eq_cons_iff.mp isRest
      obtain ⟨next, behind, rfl, rfl, rfl⟩ := List.map_eq_cons_iff.mp isOthers
      have whole := inner before original next behind rfl
      split
      · rfl
      · exact whole
    · rw [List.flatMap_map]
      simpa only [sameBytes] using within
  | retold first second earlier data later both split within marked =>
    subst both
    exact Fits.retold _ _ earlier data later rfl split (by rw [sameBytes]; exact within) (by rw [sameBytes]; exact marked)

theorem Core.arrives (core : Core history state) (source : Nat) : Core history (state.arrives source) := by
  refine ⟨core.texts, core.within, core.accepted, core.full, core.fits.arrives source, core.few, core.live, ?_, core.halted, core.closing⟩
  intro piece among
  obtain ⟨original, isOriginal, rfl⟩ := List.mem_map.mp among
  have below := core.numbered original isOriginal
  split <;> exact below

theorem Core.opens (core : Core history state) (few : opensOf history ≤ 1) : Core (history ++ [.opens]) state := by
  have isWrites : writesOf (history ++ [.opens]) = writesOf history := (writesOf_append _ _).trans (List.append_nil _)
  have isPushed : pushedBytes (history ++ [.opens]) = pushedBytes history := (pushedBytes_append _ _).trans (List.append_nil _)
  constructor
  · rw [isWrites, isPushed]
    exact core.texts
  · rw [isWrites, isPushed]
    exact core.within
  · rw [isPushed]
    exact core.accepted
  · rw [isPushed]
    exact core.full
  · rw [isWrites]
    exact core.fits
  · rw [opensOf_append]
    exact Nat.succ_le_succ few
  · exact core.live
  · exact core.numbered
  · exact core.halted
  · exact core.closing

theorem resume_kept (core : Core history state) (early : Early state) (noLoop : state.loops = []) (isDraining : state.relay.draining = true)
    (busy : state.relay.stopped = true ∨
      Busy remote (writesOf history) (opensOf history) state.relay.session state.relay.retried state.pieces place) :
    Kept remote (history ++ (state.resume remote place).2) (state.resume remote place).1 := by
  cases place with
  | appending file data =>
    refine goOn_kept (core.arrives file) early noLoop isDraining (busy.imp id fun busy => ?_)
    cases busy with
    | appending file data front isLocal noSession fresh unopened whole same split =>
      refine Resting.appended isLocal noSession fresh unopened ?_ ?_
      · intro piece among
        obtain ⟨original, isOriginal, rfl⟩ := List.mem_map.mp among
        rw [split] at isOriginal
        rcases List.mem_append.mp isOriginal with inFront | isLast
        · have isWhole := whole original inFront
          split
          · rfl
          · exact isWhole
        · rw [List.mem_singleton.mp isLast]
          simp
      · rw [← same]
        unfold Relaying.arrives
        rw [List.flatMap_map]
        refine congrArg (fun bytes => state.pieces.flatMap bytes) (funext fun piece => ?_)
        split <;> rfl
  | opening data =>
    by_cases isStopped : state.relay.stopped = true
    · have isResume : state.resume remote (.opening data) = Relaying.goOn remote { state with opened := state.opened + 1 } := if_pos isStopped
      have later : Core history { state with opened := state.opened + 1 } :=
        ⟨core.texts, core.within, core.accepted, core.full, core.fits, core.few, core.live,
          fun piece among => Nat.lt_succ_of_lt (core.numbered piece among), core.halted, core.closing⟩
      rw [isResume]
      exact goOn_kept later early noLoop isDraining (Or.inl isStopped)
    · have isResume : state.resume remote (.opening data) = ({ state with
          relay := { state.relay with session := some state.opened }
          live := state.live ++ [state.opened]
          opened := state.opened + 1
          pieces := state.pieces ++ [⟨state.opened, data, false⟩]
          loops := state.loops ++ [.writing state.opened data] }, []) := if_neg isStopped
      rw [isResume, List.append_nil]
      cases busy.resolve_left isStopped with
      | opening data isRemote noSession few waiting =>
        have noLive := core.noLive noSession
        have resting : Resting remote (writesOf history) (opensOf history) (some state.opened) state.relay.retried
            (state.pieces ++ [⟨state.opened, data, false⟩]) ∧ Fits (writesOf history) (state.pieces ++ [⟨state.opened, data, false⟩]) := by
          cases waiting with
          | anew only nothing =>
            rw [nothing, only]
            refine ⟨Resting.first isRemote _ rfl few (by simp), fits_single (by simp)⟩
          | again before earlier last again split marked single =>
            have differ : before ≠ state.opened := by
              have below := core.numbered ⟨before, (writesOf history).flatten, false⟩ (single ▸ List.mem_singleton_self _)
              exact Nat.ne_of_lt below
            have both : state.pieces ++ [⟨state.opened, data, false⟩] =
                [⟨before, (earlier ++ [last]).flatten, false⟩, ⟨state.opened, HOOK_LOG_RETRY_MARKER ++ [last].flatten, false⟩] := by
              rw [single, split, marked]
              simp
            refine ⟨Resting.second isRemote before _ earlier last [] rfl differ again ?_ split both,
              Fits.retold _ _ earlier last [] both split ?_ List.prefix_rfl⟩
            · exact core.few
            · rw [split]
        refine ⟨⟨core.texts, core.within, core.accepted, core.full, resting.2, core.few, fun session among => ?_, fun piece among => ?_,
          fun stopped => absurd stopped isStopped, core.closing⟩, Stands.busy early _ (congrArg (· ++ [_]) noLoop) isDraining
            (Or.inr (Busy.writing _ data rfl (fun fresh => ?_) resting.1))⟩
        · rw [noLive] at among
          rw [List.mem_singleton.mp among]
        · rcases List.mem_append.mp among with among | among
          · exact Nat.lt_succ_of_lt (core.numbered piece among)
          · rw [List.mem_singleton.mp among]
            exact Nat.lt_succ_self _
        · cases waiting with
          | anew only nothing => exact ⟨[], only⟩
          | again before earlier last again => exact absurd (again.symm.trans fresh) (by decide)
  | writing session data =>
    refine goOn_kept core early noLoop isDraining (busy.imp id fun busy => ?_)
    cases busy with
    | writing session data isSession last resting => exact resting
  | delayed data =>
    by_cases isStopped : state.relay.stopped = true
    · have isWrite : state.write remote data = (state, none, []) := if_pos isStopped
      unfold Relaying.resume
      simp only [isWrite, List.nil_append]
      exact goOn_kept core early noLoop isDraining (Or.inl isStopped)
    · cases busy.resolve_left isStopped with
      | delayed data isRemote noSession again few waiting =>
        have isWrite : state.write remote data = (state, some (.opening data), [.opens]) := by
          unfold Relaying.write
          rw [if_neg isStopped, isRemote, noSession]
          rfl
        unfold Relaying.resume
        simp only [isWrite]
        have later := core.opens few
        have isWrites : writesOf (history ++ [.opens]) = writesOf history := (writesOf_append _ _).trans (List.append_nil _)
        refine ⟨⟨later.texts, later.within, later.accepted, later.full, later.fits, later.few, later.live, later.numbered, later.halted,
          later.closing⟩, Stands.busy early _ (congrArg (· ++ [_]) noLoop) isDraining (Or.inr ?_)⟩
        rw [isWrites, show opensOf (history ++ [.opens]) = opensOf history + 1 from opensOf_append _ _]
        refine Busy.opening data isRemote noSession ?_ waiting
        rw [again]
        exact Nat.succ_le_succ few

variable {result : Relaying × List Signal}

theorem recover_kept (core : Core history state) (early : Early state) (noLoop : state.loops = [])
    (isDraining : state.relay.draining = true) (busy : state.relay.stopped = true ∨
      Busy remote (writesOf history) (opensOf history) state.relay.session state.relay.retried state.pieces place)
    (recovers : state.recover remote place = some result) :
    Kept remote (history ++ result.2) result.1 := by
  cases place with
  | appending file data =>
    cases recovers
    obtain ⟨sameLoops, sameFinish, _, sameDraining⟩ := Relaying.fail_same state
    refine goOn_kept core.fail ?_ (sameLoops.trans noLoop) (sameDraining.trans isDraining) (Or.inl (Relaying.fail_stopped _))
    unfold Early
    rw [sameFinish]
    exact early
  | opening data =>
    cases recovers
    have noSession : state.relay.session = none := by
      rcases busy with stopped | busy
      · exact (core.halted stopped).2
      · cases busy with
        | opening data isRemote noSession => exact noSession
    exact caught_kept core early noLoop isDraining (core.noLive noSession) (Or.inl rfl) busy
  | writing session data =>
    by_cases alive : session ∈ state.live
    · rw [show state.recover remote (.writing session data) = none from if_pos alive] at recovers
      cases recovers
    · rw [show state.recover remote (.writing session data) = some (state.caught remote data) from if_neg alive] at recovers
      cases recovers
      have noLive : state.live = [] := by
        rcases busy with stopped | busy
        · exact core.noLive (core.halted stopped).2
        · cases busy with
          | writing session data isSession =>
            refine List.eq_nil_iff_forall_not_mem.mpr fun other among => alive ?_
            have same := core.live other among
            rw [isSession] at same
            cases same
            exact among
      exact caught_kept core early noLoop isDraining noLive (Or.inr ⟨session, rfl⟩) busy
  | delayed data => cases recovers

theorem encode_nil : encode [] = [] := rfl

theorem Core.pushed (core : Core history state) {bytes : Bytes}
    (isFull : state.relay.stopped = true ∨ HOOK_LOG_RELAY_MAX_BYTES < (pushedBytes history).length ∨ bytes = [])
    (untruncated : state.relay.stopped = false -> state.relay.truncated = false -> bytes = []) :
    Core (history ++ [.pushed bytes]) state := by
  have isWrites : writesOf (history ++ [.pushed bytes]) = writesOf history := (writesOf_append _ _).trans (List.append_nil _)
  have isPushed : pushedBytes (history ++ [.pushed bytes]) = pushedBytes history ++ bytes :=
    (pushedBytes_append _ _).trans (congrArg (pushedBytes history ++ ·) (List.append_nil bytes))
  constructor
  · intro running
    rw [isWrites, isPushed, core.texts running]
    rcases isFull with stopped | isFull | isEmpty
    · exact absurd (running.symm.trans stopped) Bool.false_ne_true
    · exact (limited_more bytes isFull).symm
    · rw [isEmpty, List.append_nil]
  · rw [isWrites, isPushed]
    exact core.within.trans (limited_monotone _ _)
  · intro running hasRoom
    rw [isPushed, untruncated running hasRoom, List.append_nil]
    exact core.accepted running hasRoom
  · intro truncated
    rw [isPushed, List.length_append]
    exact Nat.lt_of_lt_of_le (core.full truncated) (Nat.le_add_right _ _)
  · rw [isWrites]
    exact core.fits
  · rw [opensOf_append]
    exact core.few
  · exact core.live
  · exact core.numbered
  · exact core.halted
  · exact core.closing

theorem Core.accepts (core : Core history state) (running : state.relay.stopped = false) (hasRoom : state.relay.truncated = false) (bytes : Bytes)
    {truncated : Bool} (isTruncated : truncated = decide (HOOK_LOG_RELAY_MAX_BYTES - state.relay.acceptedBytes < bytes.length)) {kept : Bytes}
    (isKept : kept = if truncated then bytes.take (HOOK_LOG_RELAY_MAX_BYTES - state.relay.acceptedBytes) else bytes) :
    Core (history ++ [.pushed bytes]) { state with relay := { state.relay with
      receivedOutput := true
      truncated := truncated
      acceptedBytes := state.relay.acceptedBytes + kept.length
      pending := state.relay.pending ++ (if kept = [] then [] else [kept]) ++ if truncated then [HOOK_LOG_TRUNCATION_MARKER] else [] } } := by
  obtain ⟨isAccepted, isRoom⟩ := core.accepted running hasRoom
  have texts := core.texts running
  have isWrites : writesOf (history ++ [.pushed bytes]) = writesOf history := (writesOf_append _ _).trans (List.append_nil _)
  have isPushed : pushedBytes (history ++ [.pushed bytes]) = pushedBytes history ++ bytes :=
    (pushedBytes_append _ _).trans (congrArg (pushedBytes history ++ ·) (List.append_nil bytes))
  have isFlat (marker : List Bytes) : (state.relay.pending ++ (if kept = [] then [] else [kept]) ++ marker).flatten =
      state.relay.pending.flatten ++ (kept ++ marker.flatten) := by
    rw [List.flatten_append, List.flatten_append, List.append_assoc]
    split
    · rename_i isEmpty
      rw [isEmpty]
      rfl
    · rw [List.flatten_singleton]
  constructor
  · intro _
    simp only [isWrites, isPushed, isFlat]
    rw [← List.append_assoc, texts]
    by_cases gone : HOOK_LOG_RELAY_MAX_BYTES - state.relay.acceptedBytes < bytes.length
    · rw [decide_eq_true gone] at isTruncated
      subst isTruncated
      rw [isKept, isAccepted, limited_cut isRoom (by rw [List.length_append]; omega)]
      rfl
    · rw [decide_eq_false gone] at isTruncated
      subst isTruncated
      rw [isKept, limited_within (by rw [List.length_append]; omega)]
      simp
  · rw [isWrites, isPushed]
    exact core.within.trans (limited_monotone _ _)
  · intro _ within
    rw [isPushed, List.length_append]
    simp only at within
    subst within
    have inside := of_decide_eq_false isTruncated.symm
    rw [isKept]
    simp only [Bool.false_eq_true, if_false]
    omega
  · intro full
    simp only at full
    subst full
    have gone := of_decide_eq_true isTruncated.symm
    rw [isPushed, List.length_append]
    omega
  · rw [isWrites]
    exact core.fits
  · rw [opensOf_append]
    exact core.few
  · exact core.live
  · exact core.numbered
  · exact fun stopped => absurd (running.symm.trans stopped) Bool.false_ne_true
  · exact core.closing

theorem Stands.same {later : List Signal} (stands : Stands remote history state) (sameWrites : writesOf later = writesOf history)
    (sameOpens : opensOf later = opensOf history) (loops : after.loops = state.loops) (finish : after.finish = state.finish)
    (closed : after.closed = state.closed) (pieces : after.pieces = state.pieces) (draining : after.relay.draining = state.relay.draining)
    (pending : after.relay.pending = state.relay.pending) (stopped : after.relay.stopped = state.relay.stopped)
    (session : after.relay.session = state.relay.session) (retried : after.relay.retried = state.relay.retried) :
    Stands remote later after := by
  have sameEarly (early : Early state) : Early after := by
    unfold Early
    rw [finish]
    exact early
  cases stands with
  | idle early noLoop isIdle written resting =>
    refine Stands.idle (sameEarly early) (loops.trans noLoop) (draining.trans isIdle) (pending.trans written) ?_
    rw [stopped, sameWrites, sameOpens, session, retried, pieces]
    exact resting
  | busy early place isLoop isDraining busy =>
    refine Stands.busy (sameEarly early) place (loops.trans isLoop) (draining.trans isDraining) ?_
    rw [stopped, sameWrites, sameOpens, session, retried, pieces]
    exact busy
  | ending number isEnding noLoop isIdle written resting =>
    refine Stands.ending number (finish.trans isEnding) (loops.trans noLoop) (draining.trans isIdle) (pending.trans written) ?_
    rw [stopped, sameWrites, sameOpens, session, retried, pieces]
    exact resting
  | gone isOver noLoop isIdle written noSession isClosed complete =>
    refine Stands.gone (finish.trans isOver) (loops.trans noLoop) (draining.trans isIdle) (pending.trans written) (session.trans noSession)
      (closed.trans isClosed) ?_
    rw [stopped, sameWrites, retried, pieces]
    exact complete

theorem drain_kept (core : Core history state) (early : Early state)
    (stands : (state.loops = [] ∧ state.relay.draining = false ∧ (state.relay.stopped = true ∨
        Resting remote (writesOf history) (opensOf history) state.relay.session state.relay.retried state.pieces)) ∨
      Exists fun place => state.loops = [place] ∧ state.relay.draining = true ∧ (state.relay.stopped = true ∨
        Busy remote (writesOf history) (opensOf history) state.relay.session state.relay.retried state.pieces place)) :
    Kept remote (history ++ (state.drain remote).2) (state.drain remote).1 := by
  rcases stands with ⟨noLoop, isIdle, resting⟩ | ⟨place, isLoop, isDraining, busy⟩
  · by_cases isEmpty : state.relay.pending = []
    · have isDrain : state.drain remote = (state, []) := if_pos (Or.inr isEmpty)
      rw [isDrain, List.append_nil]
      exact ⟨core, Stands.idle early noLoop isIdle isEmpty resting⟩
    · have isDrain : state.drain remote = Relaying.goOn remote { state with relay := { state.relay with draining := true } } :=
        if_neg (not_or.mpr ⟨by rw [isIdle]; exact Bool.false_ne_true, isEmpty⟩)
      have later : Core history { state with relay := { state.relay with draining := true } } :=
        ⟨core.texts, core.within, core.accepted, core.full, core.fits, core.few, core.live, core.numbered, core.halted, core.closing⟩
      rw [isDrain]
      exact goOn_kept later early noLoop rfl resting
  · have isDrain : state.drain remote = (state, []) := if_pos (Or.inl isDraining)
    rw [isDrain, List.append_nil]
    exact ⟨core, Stands.busy early place isLoop isDraining busy⟩

theorem push_kept (kept : Kept remote history state) (isStart : state.finish = .notStarted) (data : Units) :
    Kept remote (history ++ .pushed (encode data) :: (state.push remote data).2) (state.push remote data).1 := by
  obtain ⟨core, stands⟩ := kept
  have isWrites (bytes : Bytes) : writesOf (history ++ [.pushed bytes]) = writesOf history := (writesOf_append _ _).trans (List.append_nil _)
  have isOpens (bytes : Bytes) : opensOf (history ++ [.pushed bytes]) = opensOf history := opensOf_append _ _
  by_cases isEmpty : data = []
  · have isPush : state.push remote data = (state, []) := if_pos isEmpty
    rw [isPush, isEmpty, encode_nil]
    exact ⟨core.pushed (Or.inr (Or.inr rfl)) fun _ _ => rfl,
      stands.same (isWrites _) (isOpens _) rfl rfl rfl rfl rfl rfl rfl rfl rfl⟩
  · by_cases isDeaf : state.relay.truncated = true ∨ state.relay.stopped = true
    · have isPush : state.push remote data = ({ state with relay := { state.relay with receivedOutput := true } }, []) :=
        (if_neg isEmpty).trans (if_pos isDeaf)
      rw [isPush]
      have later := @Core.pushed history state core (encode data) (isDeaf.symm.imp id fun truncated => Or.inl (core.full truncated))
        fun running hasRoom => by
          rcases isDeaf with truncated | stopped
          · exact absurd (hasRoom.symm.trans truncated) Bool.false_ne_true
          · exact absurd (running.symm.trans stopped) Bool.false_ne_true
      exact ⟨⟨later.texts, later.within, later.accepted, later.full, later.fits, later.few, later.live, later.numbered, later.halted,
        later.closing⟩, stands.same (isWrites _) (isOpens _) rfl rfl rfl rfl rfl rfl rfl rfl rfl⟩
    · obtain ⟨hasRoom, running⟩ := not_or.mp isDeaf
      have hasRoom := Bool.eq_false_iff.mpr hasRoom
      have running := Bool.eq_false_iff.mpr running
      have later := core.accepts running hasRoom (encode data) rfl rfl
      have isPush : state.push remote data = Relaying.drain remote _ := (if_neg isEmpty).trans (if_neg isDeaf)
      rw [isPush, ← List.singleton_append, ← List.append_assoc]
      refine drain_kept later (Or.inl isStart) ?_
      simp only [isWrites, isOpens]
      cases stands with
      | idle early noLoop isIdle written resting => exact Or.inl ⟨noLoop, isIdle, resting⟩
      | busy early place isLoop isDraining busy => exact Or.inr ⟨place, isLoop, isDraining, busy⟩
      | ending number isEnding =>
        rw [isStart] at isEnding
        cases isEnding
      | gone isOver =>
        rw [isStart] at isOver
        cases isOver

theorem Kept.takeLoop (kept : Kept remote history state) {loop : Nat} (isPlace : state.loops[loop]? = some place) :
    Early state ∧ state.loops.eraseIdx loop = [] ∧ state.relay.draining = true ∧ (state.relay.stopped = true ∨
      Busy remote (writesOf history) (opensOf history) state.relay.session state.relay.retried state.pieces place) := by
  have noPlace (noLoop : state.loops = []) : False := by
    rw [noLoop] at isPlace
    cases isPlace
  cases kept.stands with
  | idle early noLoop => exact (noPlace noLoop).elim
  | busy early other isLoop isDraining busy =>
    rw [isLoop] at isPlace
    rw [isLoop]
    cases loop with
    | zero => exact ⟨early, rfl, isDraining, Option.some.inj isPlace ▸ busy⟩
    | succ loop => cases isPlace
  | ending number isEnding noLoop => exact (noPlace noLoop).elim
  | gone isOver noLoop => exact (noPlace noLoop).elim

theorem Core.loops (core : Core history state) (loops : List Place) : Core history { state with loops := loops } :=
  ⟨core.texts, core.within, core.accepted, core.full, core.fits, core.few, core.live, core.numbered, core.halted, core.closing⟩

theorem finishes_kept (kept : Kept remote history state) (stepped : step remote state .finishes = some result) :
    Kept remote (history ++ result.2) result.1 := by
  obtain ⟨core, stands⟩ := kept
  simp only [step] at stepped
  split at stepped
  · rename_i ready
    have settled : state.loops = [] ∧ state.relay.pending = [] ∧ (state.relay.stopped = true ∨
        Resting remote (writesOf history) (opensOf history) state.relay.session state.relay.retried state.pieces) := by
      cases stands with
      | idle early noLoop isIdle written resting => exact ⟨noLoop, written, resting⟩
      | busy early place isLoop isDraining => exact absurd (ready.2.symm.trans isDraining) Bool.false_ne_true
      | ending number isEnding =>
        rw [ready.1] at isEnding
        cases isEnding
      | gone isOver =>
        rw [ready.1] at isOver
        cases isOver
    obtain ⟨noLoop, written, resting⟩ := settled
    cases isSession : state.relay.session with
    | none =>
      rw [isSession] at stepped resting
      cases stepped
      rw [List.append_nil]
      refine ⟨⟨core.texts, core.within, core.accepted, core.full, core.fits, core.few, core.live, core.numbered, core.halted,
        fun _ => Or.inr rfl⟩, Stands.gone rfl noLoop ready.2 written isSession rfl fun running _ => ?_⟩
      cases resting.resolve_left fun stopped => absurd (running.symm.trans stopped) Bool.false_ne_true with
      | appended isLocal noSession fresh unopened whole same => exact ⟨whole, same⟩
      | unopened isRemote noSession fresh never unwritten nothing =>
        simp only
        rw [nothing, unwritten]
        exact ⟨fun piece among => absurd among List.not_mem_nil, rfl⟩
      | first isRemote number other => cases other
      | second isRemote before number earlier data later other => cases other
    | some session =>
      rw [isSession] at stepped
      cases stepped
      rw [List.append_nil]
      have early (closed : state.closed = true) : state.relay.stopped = true := by
        refine (core.closing closed).resolve_right fun isOver => ?_
        rw [ready.1] at isOver
        cases isOver
      exact ⟨⟨core.texts, core.within, core.accepted, core.full, core.fits, core.few, core.live, core.numbered, core.halted,
        fun closed => Or.inl (early closed)⟩, Stands.ending session rfl noLoop ready.2 written (resting.imp id fun resting => ⟨isSession, resting⟩)⟩
  · cases stepped

theorem ends_kept (kept : Kept remote history state) (stepped : step remote state .ends = some result) :
    Kept remote (history ++ result.2) result.1 := by
  obtain ⟨core, stands⟩ := kept
  simp only [step] at stepped
  split at stepped
  · rename_i session isEnding
    split at stepped
    · rename_i alive
      have isSession := core.live session alive
      have running : state.relay.stopped = false := by
        refine Bool.eq_false_iff.mpr fun stopped => ?_
        have noSession := (core.halted stopped).2
        rw [isSession] at noSession
        cases noSession
      rw [if_pos isSession] at stepped
      cases stepped
      rw [List.append_nil]
      have noLive : (state.live.filter (· ≠ session)) = [] := List.filter_eq_nil_iff.mpr fun other among => by
        have same := core.live other among
        rw [isSession] at same
        simp [Option.some.inj same]
      cases stands with
      | idle early => rcases early with early | early <;> rw [isEnding] at early <;> cases early
      | busy early => rcases early with early | early <;> rw [isEnding] at early <;> cases early
      | gone isOver =>
        rw [isEnding] at isOver
        cases isOver
      | ending number same noLoop isIdle written resting =>
        have arrived := core.arrives session
        refine ⟨⟨arrived.texts, arrived.within, arrived.accepted, arrived.full, arrived.fits, arrived.few, fun other among => ?_,
          arrived.numbered, fun stopped => absurd (running.symm.trans stopped) Bool.false_ne_true, fun _ => Or.inr rfl⟩,
          Stands.gone rfl noLoop isIdle written rfl rfl fun _ fresh => ?_⟩
        · simp only [noLive] at among
          cases among
        · cases (resting.resolve_left fun stopped => absurd (running.symm.trans stopped) Bool.false_ne_true).2 with
          | appended isLocal noSession =>
            rw [isSession] at noSession
            cases noSession
          | unopened isRemote noSession =>
            rw [isSession] at noSession
            cases noSession
          | first isRemote number same few single =>
            rw [isSession] at same
            cases same
            simp [Relaying.arrives, single]
          | second isRemote before number earlier data later same differ again => exact absurd (fresh.symm.trans again) Bool.false_ne_true
    · cases stepped
  · cases stepped

theorem Stands.stopped (stands : Stands remote history state) (isStopped : after.relay.stopped = true) (noSession : after.relay.session = none)
    (written : after.relay.pending = []) (loops : after.loops = state.loops) (draining : after.relay.draining = state.relay.draining)
    (finish : after.finish = state.finish) (closed : state.closed = true -> after.closed = true) : Stands remote history after := by
  have sameEarly (early : Early state) : Early after := by
    unfold Early
    rw [finish]
    exact early
  cases stands with
  | idle early noLoop isIdle => exact Stands.idle (sameEarly early) (loops.trans noLoop) (draining.trans isIdle) written (Or.inl isStopped)
  | busy early place isLoop isDraining => exact Stands.busy (sameEarly early) place (loops.trans isLoop) (draining.trans isDraining) (Or.inl isStopped)
  | ending number isEnding noLoop isIdle =>
    exact Stands.ending number (finish.trans isEnding) (loops.trans noLoop) (draining.trans isIdle) written (Or.inl isStopped)
  | gone isOver noLoop isIdle _ _ isClosed =>
    exact Stands.gone (finish.trans isOver) (loops.trans noLoop) (draining.trans isIdle) written noSession (closed isClosed)
      fun running => absurd (running.symm.trans isStopped) Bool.false_ne_true

theorem endFails_kept (kept : Kept remote history state) (stepped : step remote state .endFails = some result) :
    Kept remote (history ++ result.2) result.1 := by
  obtain ⟨core, stands⟩ := kept
  simp only [step] at stepped
  split at stepped
  · rename_i session isEnding
    split at stepped
    · cases stepped
    · have isStopped := Relaying.fail_stopped state
      obtain ⟨sameLoops, sameFinish, _, sameDraining⟩ := Relaying.fail_same state
      have failed := core.fail
      obtain ⟨written, noSession⟩ := failed.halted isStopped
      rw [if_neg (by rw [noSession]; simp)] at stepped
      cases stepped
      rw [List.append_nil]
      refine ⟨⟨failed.texts, failed.within, failed.accepted, failed.full, failed.fits, failed.few, failed.live, failed.numbered, failed.halted,
        fun _ => Or.inl isStopped⟩, ?_⟩
      cases stands with
      | idle early => rcases early with early | early <;> rw [isEnding] at early <;> cases early
      | busy early => rcases early with early | early <;> rw [isEnding] at early <;> cases early
      | gone isOver =>
        rw [isEnding] at isOver
        cases isOver
      | ending number same noLoop isIdle =>
        exact Stands.gone rfl (sameLoops.trans noLoop) (sameDraining.trans isIdle) written noSession rfl
          fun running => absurd (running.symm.trans isStopped) Bool.false_ne_true
  · cases stepped

theorem step_kept (kept : Kept remote history state) {event : Event}
    (stepped : step remote state event = some result) : Kept remote (history ++ result.2) result.1 := by
  cases event with
  | push data =>
    simp only [step] at stepped
    split at stepped
    · rename_i isStart
      cases stepped
      exact push_kept kept isStart data
    · cases stepped
  | close =>
    simp only [step] at stepped
    split at stepped
    · rename_i isStart
      cases stepped
      rw [List.append_nil]
      obtain ⟨core, stands⟩ := kept
      refine ⟨⟨core.texts, core.within, core.accepted, core.full, core.fits, core.few, core.live, core.numbered, core.halted, fun closed => ?_⟩, ?_⟩
      · refine Or.inl ((core.closing closed).resolve_right fun isOver => ?_)
        rw [isStart] at isOver
        cases isOver
      · cases stands with
        | idle early noLoop isIdle written resting => exact Stands.idle (Or.inr rfl) noLoop isIdle written resting
        | busy early place isLoop isDraining busy => exact Stands.busy (Or.inr rfl) place isLoop isDraining busy
        | ending number isEnding =>
          rw [isStart] at isEnding
          cases isEnding
        | gone isOver =>
          rw [isStart] at isOver
          cases isOver
    · cases stepped
  | succeeds loop =>
    obtain ⟨place, isPlace, rfl⟩ := Option.map_eq_some_iff.mp stepped
    obtain ⟨early, noLoop, isDraining, busy⟩ := kept.takeLoop isPlace
    exact resume_kept (kept.core.loops (state.loops.eraseIdx loop)) early noLoop isDraining busy
  | fails loop =>
    obtain ⟨place, isPlace, recovers⟩ := Option.bind_eq_some_iff.mp stepped
    obtain ⟨early, noLoop, isDraining, busy⟩ := kept.takeLoop isPlace
    exact recover_kept (kept.core.loops (state.loops.eraseIdx loop)) early noLoop isDraining busy recovers
  | dies session =>
    simp only [step] at stepped
    split at stepped
    · cases stepped
      rw [List.append_nil]
      obtain ⟨core, stands⟩ := kept
      exact ⟨⟨core.texts, core.within, core.accepted, core.full, core.fits, core.few,
        fun other among => core.live other (List.mem_filter.mp among).1, core.numbered, core.halted, core.closing⟩,
        stands.same rfl rfl rfl rfl rfl rfl rfl rfl rfl rfl rfl⟩
    · cases stepped
  | finishes => exact finishes_kept kept stepped
  | ends => exact ends_kept kept stepped
  | endFails => exact endFails_kept kept stepped
  | timeout =>
    simp only [step] at stepped
    split at stepped
    · cases stepped
      rw [List.append_nil]
      have isStopped := Relaying.fail_stopped state
      obtain ⟨sameLoops, sameFinish, _, sameDraining⟩ := Relaying.fail_same state
      have failed := kept.core.fail
      obtain ⟨written, noSession⟩ := failed.halted isStopped
      exact ⟨⟨failed.texts, failed.within, failed.accepted, failed.full, failed.fits, failed.few, failed.live, failed.numbered, failed.halted,
        fun _ => Or.inl isStopped⟩, kept.stands.stopped isStopped noSession written sameLoops sameDraining sameFinish fun _ => rfl⟩
    · cases stepped

theorem fresh_kept : Kept remote [] Relaying.fresh := by
  refine ⟨⟨fun _ => rfl, List.nil_prefix, fun _ _ => ⟨rfl, Nat.zero_le _⟩, fun isFull => ?_, fits_nil, Nat.zero_le 2, fun _ among => ?_,
    fun _ among => ?_, fun isStopped => ?_, fun isClosed => ?_⟩, Stands.idle (Or.inl rfl) rfl rfl rfl (Or.inr ?_)⟩
  · cases isFull
  · cases among
  · cases among
  · cases isStopped
  · cases isClosed
  · cases remote with
    | false => exact Resting.appended rfl rfl rfl rfl (fun _ among => absurd among List.not_mem_nil) rfl
    | true => exact Resting.unopened rfl rfl rfl rfl rfl rfl

end Preserved

variable {state : Relaying} {remote : Bool} {history : List Signal}

theorem kept_of_run {guard : Relaying -> Event -> Prop}
    (run : (hookLogRelay remote).Run guard history state) : Kept remote history state :=
  run.invariant (Kept remote) fresh_kept fun _ _ _ _ _ _ kept _ stepped => step_kept kept stepped

/-- A log with the first bytes of a text, or with the first bytes of it and then the marker and the text again from
where a write began, of which a last part may be missing. -/
def Relayed (writes : List Bytes) (text log : Bytes) : Prop :=
  log <+: text ∨ Exists fun earlier => Exists fun data => Exists fun later => Exists fun first => Exists fun rest =>
    writes = earlier ++ data :: later ∧ first <+: text ∧ rest <+: HOOK_LOG_RETRY_MARKER ++ text.drop earlier.flatten.length ∧
      log = first ++ rest

def RelayedWhole (writes : List Bytes) (text log : Bytes) : Prop :=
  log <+: text ∨ Exists fun earlier => Exists fun data => Exists fun later => Exists fun first => Exists fun rest =>
    writes = earlier ++ data :: later ∧ first <+: text ∧ rest <+: text.drop earlier.flatten.length ∧
      log = first ++ HOOK_LOG_RETRY_MARKER ++ rest

theorem left_straight {pieces : List Piece} {log : Bytes} (left : Left pieces log)
    (inner : forall front piece last back, pieces = front ++ piece :: last :: back -> piece.whole = true) :
    log <+: pieces.flatMap Piece.bytes := by
  obtain ⟨parts, agree, rfl⟩ := left
  induction agree with
  | nil => exact List.prefix_rfl
  | @cons piece part pieces parts isPart agree ih =>
    have tail := ih fun front next last back split => inner (piece :: front) next last back (by rw [split]; rfl)
    rw [List.flatten_cons, List.flatMap_cons]
    cases agree with
    | nil =>
      simp only [List.flatten_nil, List.append_nil, List.flatMap_nil]
      exact isPart.1
    | @cons next _ back _ =>
      rw [isPart.2 (inner [] piece next back rfl)]
      exact (List.prefix_append_right_inj piece.bytes).mpr tail

theorem left_whole {pieces : List Piece} {log : Bytes} (left : Left pieces log) (whole : forall piece, piece ∈ pieces -> piece.whole = true) :
    log = pieces.flatMap Piece.bytes := by
  obtain ⟨parts, agree, rfl⟩ := left
  induction agree with
  | nil => rfl
  | @cons piece part pieces parts isPart agree ih =>
    rw [List.flatten_cons, List.flatMap_cons, isPart.2 (whole piece List.mem_cons_self),
      ih fun other among => whole other (List.mem_cons_of_mem piece among)]

theorem Core.relayed (core : Core history state) {log : Bytes} (left : Left state.pieces log) :
    Relayed (writesOf history) (limited (pushedBytes history)) log := by
  cases core.fits with
  | straight inner within => exact Or.inl (((left_straight left inner).trans within).trans core.within)
  | retold first second earlier data later both split within marked =>
    obtain ⟨parts, agree, rfl⟩ := left
    rw [both] at agree
    obtain ⟨front, rest, isFront, others, rfl⟩ := List.forall₂_cons_left_iff.mp agree
    obtain ⟨back, none, isBack, nothing, rfl⟩ := List.forall₂_cons_left_iff.mp others
    rw [List.forall₂_nil_left_iff.mp nothing]
    have again : (data :: later).flatten <+: (limited (pushedBytes history)).drop earlier.flatten.length := by
      have dropped := List.IsPrefix.drop core.within earlier.flatten.length
      rwa [split, List.flatten_append, List.drop_left] at dropped
    refine Or.inr ⟨earlier, data, later, front, back, split, (isFront.1.trans within).trans core.within, ?_, by simp⟩
    exact (isBack.1.trans marked).trans ((List.prefix_append_right_inj _).mpr again)

theorem Kept.noLoopTwice (kept : Kept remote history state) :
    state.loops.length ≤ 1 := by
  cases kept.stands with
  | idle early noLoop => rw [noLoop]; exact Nat.zero_le 1
  | busy early place isLoop => rw [isLoop]; exact Nat.le_refl 1
  | ending session isEnding noLoop => rw [noLoop]; exact Nat.zero_le 1
  | gone isOver noLoop => rw [noLoop]; exact Nat.zero_le 1

theorem Kept.leftOpen (kept : Kept remote history state)
    (isClosed : state.closed = true) : state.live = [] := by
  rcases kept.core.closing isClosed with stopped | isOver
  · exact kept.core.noLive (kept.core.halted stopped).2
  · cases kept.stands with
    | idle early => rcases early with early | early <;> rw [isOver] at early <;> cases early
    | busy early => rcases early with early | early <;> rw [isOver] at early <;> cases early
    | ending session isEnding =>
      rw [isOver] at isEnding
      cases isEnding
    | gone _ _ _ _ noSession => exact kept.core.noLive noSession

def Unfailing (_ : Relaying) : Event -> Prop
  | .fails _ | .dies _ | .endFails | .timeout => False
  | _ => True

def Relaying.Calm (state : Relaying) : Prop := state.relay.stopped = false ∧ state.relay.retried = false

theorem write_calm {remote : Bool} {state : Relaying} (calm : state.Calm) (data : Bytes) : (state.write remote data).1.Calm := by
  unfold Relaying.write
  split
  · exact calm
  · split
    · exact calm
    · split <;> exact calm

theorem goOn_calm (calm : state.Calm) : (state.goOn remote).1.Calm := by
  unfold Relaying.goOn
  split
  · exact calm
  · have written := @write_calm remote { state with relay := { state.relay with pending := [] } } calm
      state.relay.pending.flatten
    simp only
    split
    · rename_i isWrite
      rw [isWrite] at written
      exact written
    · rename_i isWrite
      rw [isWrite] at written
      exact written

theorem resume_calm (calm : state.Calm) (place : Place) : (state.resume remote place).1.Calm := by
  cases place with
  | appending file data => exact goOn_calm calm
  | opening data =>
    unfold Relaying.resume
    simp only
    split
    · exact goOn_calm calm
    · exact calm
  | writing session data => exact goOn_calm calm
  | delayed data =>
    have written := @write_calm remote state calm data
    unfold Relaying.resume
    simp only
    split
    · rename_i isWrite
      rw [isWrite] at written
      exact goOn_calm written
    · rename_i isWrite
      rw [isWrite] at written
      exact written

theorem drain_calm (calm : state.Calm) : (state.drain remote).1.Calm := by
  unfold Relaying.drain
  split
  · exact calm
  · exact goOn_calm calm

theorem push_calm (calm : state.Calm) (data : Units) : (state.push remote data).1.Calm := by
  unfold Relaying.push
  split
  · exact calm
  · simp only
    split
    · exact calm
    · exact drain_calm calm

theorem step_calm {event : Event} {result : Relaying × List Signal} (calm : state.Calm)
    (unfailing : Unfailing state event) (stepped : step remote state event = some result) : result.1.Calm := by
  cases event with
  | push data =>
    simp only [step] at stepped
    split at stepped
    · cases stepped
      exact push_calm calm data
    · cases stepped
  | close =>
    simp only [step] at stepped
    split at stepped
    · cases stepped
      exact calm
    · cases stepped
  | succeeds loop =>
    obtain ⟨place, isPlace, rfl⟩ := Option.map_eq_some_iff.mp stepped
    have calm : Relaying.Calm { state with loops := state.loops.eraseIdx loop } := calm
    exact resume_calm calm place
  | finishes =>
    simp only [step] at stepped
    split at stepped
    · split at stepped <;> cases stepped <;> exact calm
    · cases stepped
  | ends =>
    simp only [step] at stepped
    split at stepped
    · split at stepped
      · cases stepped
        split <;> exact calm
      · cases stepped
    · cases stepped
  | fails | dies | endFails | timeout => exact unfailing.elim

theorem Kept.complete (kept : Kept remote history state) (calm : state.Calm)
    (isClosed : state.closed = true) {log : Bytes} (left : Left state.pieces log) : log = limited (pushedBytes history) := by
  have isOver := (kept.core.closing isClosed).resolve_left fun stopped => absurd (calm.1.symm.trans stopped) Bool.false_ne_true
  have texts := kept.core.texts calm.1
  cases kept.stands with
  | idle early => rcases early with early | early <;> rw [isOver] at early <;> cases early
  | busy early => rcases early with early | early <;> rw [isOver] at early <;> cases early
  | ending session isEnding =>
    rw [isOver] at isEnding
    cases isEnding
  | gone _ _ _ written _ _ complete =>
    obtain ⟨whole, same⟩ := complete calm.1 calm.2
    rw [left_whole left whole, same, ← texts, written]
    exact (List.append_nil _).symm

/-- What a relay does in every run, and in every run in which nothing fails. -/
theorem relay_keepsOrder (remote : Bool) :
    (forall history state, (hookLogRelay remote).Reaches history state ->
      (forall log, Left state.pieces log -> Relayed (writesOf history) (limited (pushedBytes history)) log) ∧
      state.loops.length ≤ 1 ∧ opensOf history ≤ 2 ∧
      (state.finish ≠ .notStarted -> state.closed = false ->
        Exists fun after => step remote state .timeout = some (after, []) ∧ after.closed = true) ∧
      (state.closed = true -> state.live = [])) ∧
    forall history state, (hookLogRelay remote).Run Unfailing history state -> state.closed = true ->
      forall log, Left state.pieces log -> log = limited (pushedBytes history) := by
  refine ⟨fun history state run => ?_, fun history state run isClosed log left => ?_⟩
  · have kept := kept_of_run run
    refine ⟨fun log left => kept.core.relayed left, kept.noLoopTwice, kept.core.few, fun started unclosed => ?_, kept.leftOpen⟩
    exact ⟨{ state.fail with closed := true }, if_pos ⟨started, unclosed⟩, rfl⟩
  · have calm := run.invariant (fun _ state => state.Calm) ⟨rfl, rfl⟩
      fun _ _ _ _ _ _ calm unfailing stepped => step_calm calm unfailing stepped
    exact (kept_of_run run).complete calm isClosed left

/-- Two texts, one before and one after the session has died. -/
def exampleFailure : List Event :=
  [.push (utf16 "one".toList), .succeeds 0, .succeeds 0, .push (utf16 "two".toList), .dies 0, .fails 0, .succeeds 0, .succeeds 0]

def exampleOutcome : Relaying × List Signal := (hookLogRelay true).outcome (fun _ _ => true) exampleFailure

/-- What is left of both sessions: a part of the first text, and a part of the marker. -/
def exampleLog : Bytes := utf8 "on".toList ++ HOOK_LOG_RETRY_MARKER.take 6

theorem exampleOutcome_left : Left exampleOutcome.1.pieces exampleLog := by
  have isPieces : exampleOutcome.1.pieces =
      [⟨0, utf8 "onetwo".toList, false⟩, ⟨1, HOOK_LOG_RETRY_MARKER ++ utf8 "two".toList, false⟩] := by
    decide +kernel
  rw [isPieces]
  refine ⟨[utf8 "on".toList, HOOK_LOG_RETRY_MARKER.take 6], ?_, by simp [exampleLog]⟩
  refine List.Forall₂.cons ⟨by decide +kernel, fun whole => by cases whole⟩ (List.Forall₂.cons ⟨?_, fun whole => by cases whole⟩ List.Forall₂.nil)
  exact (List.take_prefix _ _).trans (List.prefix_append _ _)

theorem relay_keepsOrder_example : Relayed [utf8 "one".toList, utf8 "two".toList] (utf8 "onetwo".toList) exampleLog := by
  have run : (hookLogRelay true).Reaches exampleOutcome.2 exampleOutcome.1 := @Machine.run_of_executes _ _ _ (hookLogRelay true) _ (fun _ _ => true)
    (fun _ _ _ => trivial) exampleFailure (by decide +kernel)
  have relayed := ((relay_keepsOrder true).1 _ _ run).1 exampleLog exampleOutcome_left
  have isWrites : writesOf exampleOutcome.2 = [utf8 "one".toList, utf8 "two".toList] := by decide +kernel
  have isText : limited (pushedBytes exampleOutcome.2) = utf8 "onetwo".toList := by decide +kernel
  rw [isWrites, isText] at relayed
  exact relayed

/-- A session that dies may have taken the marker without passing on the whole of it. -/
theorem marker_cut_short : Exists fun history => Exists fun state => Exists fun log => (hookLogRelay true).Reaches history state ∧
    Left state.pieces log ∧ ¬ RelayedWhole (writesOf history) (limited (pushedBytes history)) log := by
  have run : (hookLogRelay true).Reaches exampleOutcome.2 exampleOutcome.1 := @Machine.run_of_executes _ _ _ (hookLogRelay true) _ (fun _ _ => true)
    (fun _ _ _ => trivial) exampleFailure (by decide +kernel)
  have isText : limited (pushedBytes exampleOutcome.2) = utf8 "onetwo".toList := by decide +kernel
  refine ⟨_, _, exampleLog, run, exampleOutcome_left, ?_⟩
  rintro (isPrefix | ⟨earlier, data, later, first, rest, _, _, _, isLog⟩)
  · rw [isText] at isPrefix
    exact absurd isPrefix (by decide +kernel)
  · have size := congrArg List.length isLog
    have short : exampleLog.length = 8 := by decide +kernel
    have long : HOOK_LOG_RETRY_MARKER.length = 118 := by decide +kernel
    rw [List.length_append, List.length_append, short, long] at size
    omega

end DeployHooks
end Dokploy
