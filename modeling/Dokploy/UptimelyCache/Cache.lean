import Dokploy.Foundation.Machine
import Dokploy.Foundation.Number
import Dokploy.Foundation.Objects
import Dokploy.Foundation.Stringify

namespace Dokploy
namespace UptimelyCache

open Foundation
open Foundation.Unicode

/-!
# The Uptimely read cache

Reads are answered from four maps: the entries, the fetches in flight, the end of
a quota back-off and the generation of every integration.  A read that needs a
fetch calls its fetcher at once; the promise that the other reads of the key
share is put into the map afterwards.

A fetch that has begun settles at any later time, in any order with the others.
A fetcher that throws instead of returning a promise is over before its promise
is in the map.  Two numbers that the program does not have name the reads and
the fetches, and an entry remembers the fetch that produced its value.
-/

def UPTIMELY_READ_CACHE_TTL_MS : Nat := 60000

def UPTIMELY_DEFAULT_BACKOFF_MS : Nat := 900000

def UPTIMELY_MAX_BACKOFF_MS : Nat := 1800000

def UPTIMELY_MIN_BACKOFF_MS : Nat := 1000

def STALE_RETENTION_MS : Nat := 3600000

def MAX_ENTRIES : Nat := 500

def clampUptimelyBackoffMs (value : Option Number) : Number :=
  match value with
  | none => .ofNat UPTIMELY_DEFAULT_BACKOFF_MS
  | some value =>
      if !value.isFinite || value.less (.ofNat 0) then .ofNat UPTIMELY_DEFAULT_BACKOFF_MS
      else (value.max (.ofNat UPTIMELY_MIN_BACKOFF_MS)).min (.ofNat UPTIMELY_MAX_BACKOFF_MS)

inductive Code where
  | number (value : Number)
  | text (value : Units)
  deriving DecidableEq

inductive Failure where
  | other (thrown : Units)
  | uptimely (code : Option Code) (retryAfterMs : Option Number)
  | quota (retryAt retryAfterMs : Number)
  deriving DecidableEq

/-- error.retryAfterMs, of an UptimelyError. -/
def Failure.retryAfterMs : Failure -> Option Number
  | .other _ => none
  | .uptimely _ retryAfterMs => retryAfterMs
  | .quota _ retryAfterMs => some retryAfterMs

/-- new UptimelyQuotaError(retryAtInput) -/
def UptimelyQuotaError (round : Rat -> Number) (now : Nat) (retryAtInput : Number) : Failure :=
  let retryAt :=
    if retryAtInput.isFinite then retryAtInput.min (.ofNat (now + UPTIMELY_MAX_BACKOFF_MS))
    else .ofNat (now + UPTIMELY_DEFAULT_BACKOFF_MS)
  .quota retryAt (Number.max (.ofNat 0) (retryAt.plus round (Number.ofNat now).negated))

def upper (unit : UInt16) : UInt16 := if 0x61 ≤ unit ∧ unit ≤ 0x7A then unit - 0x20 else unit

def QUOTA_CODE_PATTERN : List Units :=
  ["QUOTA", "RATELIMIT", "RATE_LIMIT", "TOO_MANY_REQUESTS"].map fun text => utf16 text.toList

def isUptimelyQuotaError : Failure -> Bool
  | .quota _ _ => true
  | .uptimely (some (.number code)) _ => decide (code = .ofNat 429)
  | .uptimely (some (.text code)) _ =>
      QUOTA_CODE_PATTERN.any fun text => (code.map upper).tails.any fun rest => text.isPrefixOf rest
  | _ => false

structure IntegrationScope where
  organizationId : Units
  uptimelyId : Units
  deriving DecidableEq

structure Scope extends IntegrationScope where
  projectId : Units
  baseUrl : Units
  deriving DecidableEq

def integrationPrefix (scope : IntegrationScope) : Units :=
  utf16 (Stringify.array [Stringify.quote scope.organizationId, Stringify.quote scope.uptimelyId] ++ ['|'])

def scopeKey (scope : Scope) : Units :=
  integrationPrefix scope.toIntegrationScope ++
    utf16 (Stringify.array [Stringify.quote scope.projectId, Stringify.quote scope.baseUrl] ++ ['|'])

def keyOf (scope : Scope) (name : Units) : Units := scopeKey scope ++ name

/-- `source` is the fetch that produced the value. -/
structure Entry (Value : Type) where
  value : Value
  source : Nat
  expiresAt : Number
  deriving DecidableEq

/-- What a promise settles with; a value comes with the fetch that produced it. -/
inductive Outcome (Value : Type) where
  | value (value : Value) (source : Nat)
  | failure (error : Failure)
  deriving DecidableEq

/-- A shared promise: the fetch behind it, and its outcome once there is one. -/
structure Flight (Value : Type) where
  fetch : Nat
  outcome : Option (Outcome Value)
  deriving DecidableEq

structure Fetch (Value : Type) where
  number : Nat
  integration : Units
  key : Units
  generation : Nat
  entry : Option (Entry Value)
  ttlMs : Option Number
  startedAt : Nat
  deriving DecidableEq

/-- `running` are the fetches whose fetchers have not settled, `waiting` the reads that await one of them. -/
structure State (Value : Type) where
  entries : List (Units × Entry Value) := []
  inflight : List (Units × Flight Value) := []
  backoffUntil : List (Units × Number) := []
  generations : List (Units × Nat) := []
  running : List (Fetch Value) := []
  waiting : List (Nat × Nat) := []
  clock : Nat := 0
  nextFetch : Nat := 0
  nextRead : Nat := 0
  deriving DecidableEq

inductive Answer (Value : Type) where
  | value (value : Value)
  | failure (error : Failure)
  deriving DecidableEq

inductive Fetcher where
  | promises
  | throws (error : Failure)
  deriving DecidableEq

inductive Event (Value : Type) where
  | passes (ms : Nat)
  | reads (scope : Scope) (name : Units) (ttlMs : Option Number) (fetcher : Fetcher)
  | settles (fetch : Nat) (answer : Answer Value)
  | invalidates (scope : IntegrationScope)
  deriving DecidableEq

/-- What can be seen of a step.  A failed read names the fetch that failed it, unless a back-off did. -/
inductive Signal (Value : Type) where
  | readBegan (read : Nat) (key integration : Units)
  | fetchBegan (fetch : Nat) (key integration : Units) (now : Nat)
  | fetchSettled (fetch : Nat) (answer : Answer Value)
  | backedOff (integration : Units) (ends : Number) (fetch : Nat)
  | invalidated (integration : Units)
  | returned (read : Nat) (value : Value) (source : Nat)
  | failed (read : Nat) (error : Failure) (fetch : Option Nat)
  deriving DecidableEq

section Functions

variable {Value : Type} (round : Rat -> Number)

def generationOf (state : State Value) (integration : Units) : Nat :=
  (getEntry state.generations integration).getD 0

def prune (entries : List (Units × Entry Value)) (now : Nat) : List (Units × Entry Value) :=
  let kept := entries.filter fun entry =>
    !(entry.2.expiresAt.plus round (.ofNat STALE_RETENTION_MS)).less (.ofNat now)
  -- The map gives up its oldest key until it is small enough.
  kept.drop (kept.length - MAX_ENTRIES)

def getUptimelyBackoffUntil (state : State Value) (scope : IntegrationScope) : Option Number × State Value :=
  let key := integrationPrefix scope
  match getEntry state.backoffUntil key with
  | none => (none, state)
  | some ends =>
      if ends.atMost (.ofNat state.clock) then
        (none, { state with backoffUntil := deleteEntry state.backoffUntil key })
      else (some ends, state)

/-- Every entry of a map whose key does not begin as given. -/
def dropPrefixed {Item : Type} (entries : List (Units × Item)) (start : Units) : List (Units × Item) :=
  entries.filter fun entry => !start.isPrefixOf entry.1

def invalidateUptimelyCache (state : State Value) (scope : IntegrationScope) : State Value :=
  let integration := integrationPrefix scope
  { state with
    entries := dropPrefixed state.entries integration
    inflight := dropPrefixed state.inflight integration
    backoffUntil := deleteEntry state.backoffUntil integration
    generations := setEntry state.generations integration (generationOf state integration + 1) }

/-- The `try` and the `catch` around a fetch. -/
def settle (state : State Value) (fetch : Fetch Value) (answer : Answer Value) :
    State Value × Outcome Value × List (Signal Value) :=
  let current := generationOf state fetch.integration = fetch.generation
  match answer with
  | .value value =>
      let expiresAt := (Number.ofNat state.clock).plus round
        (fetch.ttlMs.getD (.ofNat UPTIMELY_READ_CACHE_TTL_MS))
      let entry : Entry Value := { value := value, source := fetch.number, expiresAt := expiresAt }
      (if current then
        { state with entries := prune round (setEntry state.entries fetch.key entry) state.clock }
      else state, .value value fetch.number, [])
  | .failure error =>
      if !isUptimelyQuotaError error then (state, .failure error, [])
      else
        let retryAt := (Number.ofNat state.clock).plus round (clampUptimelyBackoffMs error.retryAfterMs)
        let outcome : Outcome Value :=
          match fetch.entry with
          | some entry => .value entry.value entry.source
          | none => .failure (UptimelyQuotaError round state.clock retryAt)
        if current then
          ({ state with backoffUntil := setEntry state.backoffUntil fetch.integration retryAt }, outcome,
            [.backedOff fetch.integration retryAt fetch.number])
        else (state, outcome, [])

/-- The `finally` around a fetch; `run` is the variable that holds its promise. -/
def leave (state : State Value) (key : Units) (run : Option Nat) : State Value :=
  if (getEntry state.inflight key).map Flight.fetch = run then
    { state with inflight := deleteEntry state.inflight key }
  else state

/-- What a read is told once its promise has settled. -/
def answered (read fetch : Nat) : Outcome Value -> Signal Value
  | .value value source => .returned read value source
  | .failure error => .failed read error (some fetch)

inductive Lookup (Value : Type) where
  | fresh (entry : Entry Value)
  | backedOff (ends : Number) (entry : Option (Entry Value))
  | pending (flight : Flight Value)
  | missing (entry : Option (Entry Value))
  deriving DecidableEq

def lookUp (state : State Value) (scope : Scope) (name : Units) : Lookup Value :=
  let entry := getEntry state.entries (keyOf scope name)
  match entry.filter fun entry => (Number.ofNat state.clock).less entry.expiresAt with
  | some entry => .fresh entry
  | none =>
      match (getUptimelyBackoffUntil state scope.toIntegrationScope).1 with
      | some ends => .backedOff ends entry
      | none =>
          match getEntry state.inflight (keyOf scope name) with
          | some flight => .pending flight
          | none => .missing entry

/-- Call the fetcher, then put the promise where other reads find it. -/
def startFetch (state : State Value) (read : Nat) (fetch : Fetch Value) (fetcher : Fetcher) :
    State Value × List (Signal Value) :=
  let began := Signal.fetchBegan fetch.number fetch.key fetch.integration fetch.startedAt
  match fetcher with
  | .promises =>
      ({ state with
        nextFetch := fetch.number + 1
        running := state.running ++ [fetch]
        waiting := state.waiting ++ [(read, fetch.number)]
        inflight := setEntry state.inflight fetch.key { fetch := fetch.number, outcome := none } }, [began])
  | .throws error =>
      -- All of the function runs here, before the variable `run` is set.
      let (settled, outcome, signals) := settle round state fetch (.failure error)
      let left := leave settled fetch.key none
      ({ left with
        nextFetch := fetch.number + 1
        inflight := setEntry left.inflight fetch.key { fetch := fetch.number, outcome := some outcome } },
        began :: .fetchSettled fetch.number (.failure error) :: signals ++ [answered read fetch.number outcome])

def readUptimelyCached (state : State Value) (scope : Scope) (name : Units) (ttlMs : Option Number)
    (fetcher : Fetcher) : State Value × List (Signal Value) :=
  let read := state.nextRead
  let key := keyOf scope name
  let integration := integrationPrefix scope.toIntegrationScope
  let begun := { state with nextRead := read + 1 }
  let expired := (getUptimelyBackoffUntil begun scope.toIntegrationScope).2
  let result : State Value × List (Signal Value) :=
    match lookUp state scope name with
    | .fresh entry => (begun, [.returned read entry.value entry.source])
    | .backedOff _ (some entry) => (begun, [.returned read entry.value entry.source])
    | .backedOff ends none => (begun, [.failed read (UptimelyQuotaError round state.clock ends) none])
    | .pending flight =>
        match flight.outcome with
        | some outcome => (expired, [answered read flight.fetch outcome])
        | none => ({ expired with waiting := expired.waiting ++ [(read, flight.fetch)] }, [])
    | .missing entry =>
        startFetch round expired read
          { number := expired.nextFetch, integration := integration, key := key,
            generation := generationOf expired integration, entry := entry, ttlMs := ttlMs,
            startedAt := expired.clock } fetcher
  (result.1, .readBegan read key integration :: result.2)

/-- A fetch that runs settles, and every read that waits for it is answered. -/
def settles (state : State Value) (fetch : Fetch Value) (answer : Answer Value) :
    State Value × List (Signal Value) :=
  let (settled, outcome, signals) := settle round state fetch answer
  let left := leave settled fetch.key (some fetch.number)
  ({ left with
    running := left.running.filter fun other => other.number ≠ fetch.number
    waiting := left.waiting.filter fun waits => waits.2 ≠ fetch.number },
    .fetchSettled fetch.number answer :: signals ++
      (left.waiting.filter fun waits => waits.2 = fetch.number).map fun waits =>
        answered waits.1 fetch.number outcome)

def step (state : State Value) : Event Value -> Option (State Value × List (Signal Value))
  | .passes ms => some ({ state with clock := state.clock + ms }, [])
  | .reads scope name ttlMs fetcher => some (readUptimelyCached round state scope name ttlMs fetcher)
  | .settles number answer =>
      (state.running.find? fun fetch => fetch.number = number).map fun fetch => settles round state fetch answer
  | .invalidates scope =>
      some (invalidateUptimelyCache state scope, [.invalidated (integrationPrefix scope)])

def cache : Machine (State Value) (Event Value) (Signal Value) where
  initial := {}
  step := step round

end Functions

end UptimelyCache
end Dokploy
