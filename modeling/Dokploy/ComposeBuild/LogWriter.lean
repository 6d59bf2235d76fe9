import Dokploy.Foundation.Machine
import Dokploy.Foundation.Unicode
import Mathlib.Data.List.Forall2

namespace Dokploy
namespace ComposeBuild

open Foundation (Machine Units)
open Foundation.Unicode (utf16 utf8 encode encode_utf16 encode_append encode_length utf8_append characters_utf16_append
  Apart isLead isTrail)

/-!
# The deployment log of a build

What a build prints is gathered in a buffer and appended to the log in batches, one
after the other.  A batch for a log on another host is sent in slices of a fixed
number of code units, each of which is encoded by itself.  A batch that cannot be
written is given up, and the next one follows.
-/

def MAX_LOG_CHUNK : Nat := 24 * 1024

def slicesFrom : Nat -> Units -> List Units
  | 0, _ => []
  | fuel + 1, text =>
      if text = [] then [] else text.take MAX_LOG_CHUNK :: slicesFrom fuel (text.drop MAX_LOG_CHUNK)

def slices (text : Units) : List Units := slicesFrom text.length text

/-- What `write` appends, piece by piece. -/
def partsOf (remote : Bool) (text : Units) : List Units := if remote then slices text else [text]

/-- A batch whose write has been chained, with what of it is still to be written. -/
structure Batch where
  text : Units
  parts : List Units
deriving DecidableEq

structure Writer where
  buffer : Units
  timer : Bool
  chain : List Batch
  log : List UInt8
  closed : Bool
deriving DecidableEq

/-- How the append of one piece ends.  One that fails may have appended some bytes. -/
inductive Outcome where
  | written
  | failed (appended : Nat)
deriving DecidableEq

inductive Event where
  | push (data : List Char)
  | line (text : List Char)
  | timer
  | close
  | append (outcome : Outcome)
deriving DecidableEq

inductive Signal where
  | called (text : List Char)
  | ended (text : Units) (whole : Bool)
deriving DecidableEq

namespace Writer

def fresh : Writer := { buffer := [], timer := false, chain := [], log := [], closed := false }

def flush (writer : Writer) (remote : Bool) : Writer :=
  if writer.buffer = [] then { writer with timer := false }
  else
    { writer with
      timer := false
      buffer := []
      chain := writer.chain ++ [{ text := writer.buffer, parts := partsOf remote writer.buffer }] }

def push (writer : Writer) (remote : Bool) (data : List Char) : Writer :=
  let writer := { writer with buffer := writer.buffer ++ utf16 data }
  if MAX_LOG_CHUNK ≤ writer.buffer.length then writer.flush remote else { writer with timer := true }

def line (writer : Writer) (text : List Char) : Writer :=
  { writer with buffer := writer.buffer ++ utf16 (text ++ ['\n']), timer := true }

end Writer

/-- One step.  Nothing is pushed after the final close. -/
def step (remote : Bool) (writer : Writer) : Event -> Option (Writer × List Signal)
  | .push data => if writer.closed then none else some (writer.push remote data, [.called data])
  | .line text => if writer.closed then none else some (writer.line text, [.called (text ++ ['\n'])])
  | .timer => if writer.timer then some (writer.flush remote, []) else none
  | .close => if writer.closed then none else some ({ writer.flush remote with closed := true }, [])
  | .append outcome =>
      match writer.chain with
      | { text, parts := part :: parts } :: chain =>
          match outcome with
          | .written =>
              if parts = [] then some ({ writer with log := writer.log ++ encode part, chain := chain }, [.ended text true])
              else
                some ({ writer with log := writer.log ++ encode part, chain := { text := text, parts := parts } :: chain }, [])
          | .failed appended =>
              some ({ writer with log := writer.log ++ (encode part).take appended, chain := chain }, [.ended text false])
      | _ => none

def createDeploymentLogWriter (remote : Bool) : Machine Writer Event Signal where
  initial := .fresh
  step := step remote

/-- No pair of surrogates stands across the end of a slice. -/
def Uncut (text : Units) : Prop :=
  forall count lead trail, text[MAX_LOG_CHUNK * (count + 1) - 1]? = some lead ->
    text[MAX_LOG_CHUNK * (count + 1)]? = some trail -> (isLead lead && isTrail trail) = false

theorem chunk_pos : 0 < MAX_LOG_CHUNK := by decide

variable {text : Units}

theorem apart_of_uncut (uncut : Uncut text) : Apart (text.take MAX_LOG_CHUNK) (text.drop MAX_LOG_CHUNK) := by
  intro lead isLast trail isFirst
  have size := chunk_pos
  refine uncut 0 lead trail ?_ ?_
  · rw [Option.mem_def, List.getLast?_eq_getElem?, List.getElem?_take] at isLast
    rw [Option.mem_def, List.head?_drop] at isFirst
    have inside : MAX_LOG_CHUNK < text.length := (List.getElem?_eq_some_iff.mp isFirst).1
    rw [List.length_take, Nat.min_eq_left (Nat.le_of_lt inside)] at isLast
    rw [if_pos (by omega)] at isLast
    simpa using isLast
  · rw [Option.mem_def, List.head?_drop] at isFirst
    simpa using isFirst

theorem uncut_iff (text : Units) :
    Uncut text <-> Apart (text.take MAX_LOG_CHUNK) (text.drop MAX_LOG_CHUNK) ∧ Uncut (text.drop MAX_LOG_CHUNK) := by
  have size := chunk_pos
  have later : forall count, MAX_LOG_CHUNK * (count + 1 + 1) = MAX_LOG_CHUNK + MAX_LOG_CHUNK * (count + 1) := by
    intro count
    rw [Nat.mul_succ MAX_LOG_CHUNK (count + 1), Nat.add_comm]
  have some : forall count, 0 < MAX_LOG_CHUNK * (count + 1) := fun count => Nat.mul_pos size (Nat.succ_pos count)
  constructor
  · refine fun uncut => ⟨apart_of_uncut uncut, fun count lead trail isLast isFirst => uncut (count + 1) lead trail ?_ ?_⟩
    · rw [List.getElem?_drop] at isLast
      rw [later, Nat.add_sub_assoc (some count)]
      exact isLast
    · rw [List.getElem?_drop] at isFirst
      rw [later]
      exact isFirst
  · rintro ⟨apart, uncut⟩ count lead trail isLast isFirst
    cases count with
    | zero =>
        simp only [Nat.zero_add, Nat.mul_one] at isLast isFirst
        refine apart lead ?_ trail ?_
        · have inside : MAX_LOG_CHUNK < text.length := (List.getElem?_eq_some_iff.mp isFirst).1
          rw [Option.mem_def, List.getLast?_eq_getElem?, List.getElem?_take, List.length_take,
            Nat.min_eq_left (Nat.le_of_lt inside), if_pos (by omega)]
          exact isLast
        · rw [Option.mem_def, List.head?_drop]
          exact isFirst
    | succ count =>
        refine uncut count lead trail ?_ ?_
        · rw [later, Nat.add_sub_assoc (some count)] at isLast
          rw [List.getElem?_drop]
          exact isLast
        · rw [later] at isFirst
          rw [List.getElem?_drop]
          exact isFirst

theorem slicesFrom_spec (fuel : Nat) (enough : text.length ≤ fuel) :
    ((slicesFrom fuel text).flatMap encode).length = (encode text).length ∧
        (slicesFrom fuel text).flatMap encode = encode text ∧ Uncut text ∨
      (encode text).length < ((slicesFrom fuel text).flatMap encode).length ∧ ¬ Uncut text := by
  induction fuel generalizing text with
  | zero =>
      cases List.eq_nil_of_length_eq_zero (Nat.le_zero.mp enough)
      exact Or.inl ⟨rfl, rfl, fun count lead trail isLast _ => absurd isLast (by simp)⟩
  | succ fuel ih =>
      by_cases none : text = []
      · subst none
        exact Or.inl ⟨rfl, rfl, fun count lead trail isLast _ => absurd isLast (by simp)⟩
      · have size := chunk_pos
        have some := List.length_pos_of_ne_nil none
        have shorter : (text.drop MAX_LOG_CHUNK).length ≤ fuel := by
          rw [List.length_drop]
          omega
        have whole := List.take_append_drop MAX_LOG_CHUNK text
        have cut := encode_length (text.take MAX_LOG_CHUNK) (text.drop MAX_LOG_CHUNK)
        rw [whole, List.length_append] at cut
        rw [slicesFrom, if_neg none, List.flatMap_cons, List.length_append, uncut_iff]
        rcases ih shorter with ⟨length, same, uncut⟩ | ⟨longer, split⟩
        · rcases cut with ⟨equal, apart⟩ | ⟨more, split⟩
          · refine Or.inl ⟨by omega, ?_, apart, uncut⟩
            rw [same, ← encode_append apart, whole]
          · exact Or.inr ⟨by omega, fun both => split both.1⟩
        · exact Or.inr ⟨by omega, fun both => split both.2⟩

theorem slices_iff (text : Units) : (slices text).flatMap encode = encode text <-> Uncut text := by
  rcases slicesFrom_spec text.length (Nat.le_refl text.length) with ⟨_, same, uncut⟩ | ⟨longer, split⟩
  · exact ⟨fun _ => uncut, fun _ => same⟩
  · refine ⟨fun same => ?_, fun uncut => absurd uncut split⟩
    rw [slices] at same
    rw [same] at longer
    exact absurd longer (Nat.lt_irrefl _)

theorem slices_ne_nil (some : text ≠ []) : slices text ≠ [] := by
  rcases List.exists_cons_of_ne_nil some with ⟨unit, rest, rfl⟩
  simp [slices, slicesFrom]

def called (history : List Signal) : List Char :=
  history.flatMap fun
    | .called text => text
    | .ended _ _ => []

/-- The batches that have been written or given up, in order. -/
def endings (history : List Signal) : List (Units × Bool) :=
  history.filterMap fun
    | .called _ => none
    | .ended text whole => some (text, whole)

theorem called_append (first second : List Signal) : called (first ++ second) = called first ++ called second :=
  List.flatMap_append

theorem endings_append (first second : List Signal) : endings (first ++ second) = endings first ++ endings second :=
  List.filterMap_append

def flushed (writer : Writer) : Event -> Units
  | .push data =>
      if MAX_LOG_CHUNK ≤ (writer.buffer ++ utf16 data).length then writer.buffer ++ utf16 data else []
  | .timer | .close => writer.buffer
  | .line _ | .append _ => []

/-- No batch for another host is cut inside a pair. -/
def CutsNoPair (remote : Bool) (writer : Writer) (event : Event) : Prop := remote = true -> Uncut (flushed writer event)

def Whole (text : Units) : Prop := Exists fun chars => text = utf16 chars

def Arrives (ending : Units × Bool) (bytes : List UInt8) : Prop :=
  bytes <+: encode ending.1 ∧ (ending.2 = true -> bytes = encode ending.1)

def Batch.Untouched (remote : Bool) (batch : Batch) : Prop := batch.parts = partsOf remote batch.text

/-- The first batch of the chain may have begun, and these are the bytes it has written. -/
inductive Begun (remote : Bool) : List Batch -> List UInt8 -> Prop where
  | none : Begun remote [] []
  | some {text : Units} {written parts : List Units} {chain : List Batch} (left : parts ≠ [])
      (cut : partsOf remote text = written ++ parts) (later : forall batch, batch ∈ chain -> batch.Untouched remote) :
      Begun remote ({ text := text, parts := parts } :: chain) (written.flatMap encode)

/-- A batch that loses nothing by the way it is written. -/
structure Batch.Sound (remote : Bool) (batch : Batch) : Prop where
  some : batch.text ≠ []
  whole : Whole batch.text
  arrives : (partsOf remote batch.text).flatMap encode = encode batch.text

structure Kept (remote : Bool) (history : List Signal) (writer : Writer) : Prop where
  texts : utf16 (called history) =
    ((endings history).map Prod.fst).flatten ++ (writer.chain.map (·.text)).flatten ++ writer.buffer
  buffer : Whole writer.buffer
  ended : forall ending, ending ∈ endings history -> Whole ending.1
  chain : forall batch, batch ∈ writer.chain -> batch.Sound remote
  log : Exists fun arrived => Exists fun begun =>
    List.Forall₂ Arrives (endings history) arrived ∧ Begun remote writer.chain begun ∧ writer.log = arrived.flatten ++ begun
  closed : writer.closed = true -> writer.buffer = []

theorem utf16_append (first second : List Char) : utf16 (first ++ second) = utf16 first ++ utf16 second := List.flatMap_append

theorem Whole.append {first second : Units} (isFirst : Whole first) (isSecond : Whole second) : Whole (first ++ second) := by
  rcases isFirst with ⟨chars, rfl⟩
  rcases isSecond with ⟨others, rfl⟩
  exact ⟨chars ++ others, (utf16_append chars others).symm⟩

theorem whole_nil : Whole [] := ⟨[], rfl⟩

theorem encode_whole_append {first : Units} (whole : Whole first) (rest : Units) :
    encode (first ++ rest) = encode first ++ encode rest := by
  rcases whole with ⟨chars, rfl⟩
  rw [encode_utf16, encode, characters_utf16_append, utf8_append]
  rfl

theorem encode_flatten {texts : List Units} (whole : forall text, text ∈ texts -> Whole text) :
    encode texts.flatten = texts.flatMap encode := by
  induction texts with
  | nil => rfl
  | cons text texts ih =>
      rw [List.flatten_cons, encode_whole_append (whole text List.mem_cons_self), List.flatMap_cons,
        ih fun other member => whole other (List.mem_cons_of_mem _ member)]

variable {remote : Bool}

theorem Begun.snoc {chain : List Batch} {bytes : List UInt8} (begun : Begun remote chain bytes) (some : text ≠ []) :
    Begun remote (chain ++ [{ text := text, parts := partsOf remote text }]) bytes := by
  cases begun with
  | none =>
      refine @Begun.some remote text [] (partsOf remote text) [] ?_ rfl fun batch member => absurd member List.not_mem_nil
      cases remote with
      | false => simp [partsOf]
      | true => exact slices_ne_nil some
  | some left cut later =>
      refine Begun.some left cut fun batch member => ?_
      rcases List.mem_append.mp member with earlier | isNew
      · exact later batch earlier
      · rw [List.mem_singleton.mp isNew]
        rfl

theorem begun_rest {chain : List Batch} (untouched : forall batch, batch ∈ chain -> batch.Untouched remote)
    (sound : forall batch, batch ∈ chain -> batch.Sound remote) : Begun remote chain [] := by
  cases chain with
  | nil => exact .none
  | cons batch chain =>
      have parts := untouched batch List.mem_cons_self
      have some := (sound batch List.mem_cons_self).some
      have left : batch.parts ≠ [] := by
        rw [parts]
        cases remote with
        | false => simp [partsOf]
        | true => exact slices_ne_nil some
      exact @Begun.some remote batch.text [] batch.parts chain left parts.symm fun other member => untouched other (List.mem_cons_of_mem _ member)

section Steps

variable {remote : Bool} {history : List Signal} {writer : Writer}

theorem kept_fresh (remote : Bool) : Kept remote [] .fresh where
  texts := rfl
  buffer := whole_nil
  ended _ member := absurd member List.not_mem_nil
  chain _ member := absurd member List.not_mem_nil
  log := ⟨[], [], .nil, .none, rfl⟩
  closed isClosed := absurd isClosed (by decide)

theorem Kept.grow (kept : Kept remote history writer) (isOpen : writer.closed = false) (text : List Char) (timer : Bool) :
    Kept remote (history ++ [.called text]) { writer with buffer := writer.buffer ++ utf16 text, timer := timer } where
  texts := by
    rw [called_append, endings_append, utf16_append, kept.texts]
    simp [called, endings]
  buffer := kept.buffer.append ⟨text, rfl⟩
  ended ending member := kept.ended ending (by simpa [endings_append, endings] using member)
  chain := kept.chain
  log := by
    rcases kept.log with ⟨arrived, begun, arrives, begins, isLog⟩
    exact ⟨arrived, begun, by simpa [endings_append, endings] using arrives, begins, isLog⟩
  closed isClosed := by simp [isOpen] at isClosed

theorem Kept.flush (kept : Kept remote history writer) (uncut : remote = true -> Uncut writer.buffer) :
    Kept remote history (writer.flush remote) ∧ (writer.flush remote).buffer = [] := by
  unfold Writer.flush
  split
  · rename_i none
    exact ⟨⟨kept.texts, kept.buffer, kept.ended, kept.chain, kept.log, kept.closed⟩, none⟩
  · rename_i some
    have arrives : (partsOf remote writer.buffer).flatMap encode = encode writer.buffer := by
      cases isRemote : remote with
      | false => simp [partsOf]
      | true => exact (slices_iff writer.buffer).mpr (uncut isRemote)
    refine ⟨⟨?_, whole_nil, kept.ended, ?_, ?_, fun _ => rfl⟩, rfl⟩
    · rw [kept.texts]
      simp
    · intro batch member
      rcases List.mem_append.mp member with earlier | isNew
      · exact kept.chain batch earlier
      · rw [List.mem_singleton.mp isNew]
        exact ⟨some, kept.buffer, arrives⟩
    · rcases kept.log with ⟨arrived, begun, lasts, begins, isLog⟩
      exact ⟨arrived, begun, lasts, begins.snoc some, isLog⟩

theorem Kept.setTimer (kept : Kept remote history writer) (timer : Bool) :
    Kept remote history { writer with timer := timer } :=
  ⟨kept.texts, kept.buffer, kept.ended, kept.chain, kept.log, kept.closed⟩

theorem Kept.endBatch {batch : Batch} {chain : List Batch} (kept : Kept remote history writer)
    (isChain : writer.chain = batch :: chain) (untouched : forall batch, batch ∈ chain -> batch.Untouched remote)
    {arrived : List (List UInt8)} (lasts : List.Forall₂ Arrives (endings history) arrived) {bytes : List UInt8} {whole : Bool}
    (arrives : Arrives (batch.text, whole) bytes) {log : List UInt8} (isLog : log = arrived.flatten ++ bytes) :
    Kept remote (history ++ [.ended batch.text whole]) { writer with log := log, chain := chain } where
  texts := by
    rw [called_append, endings_append, utf16_append, kept.texts, isChain]
    simp [called, endings, utf16]
  buffer := kept.buffer
  ended ending member := by
    rw [endings_append] at member
    rcases List.mem_append.mp member with earlier | isNew
    · exact kept.ended ending earlier
    · rw [List.mem_singleton.mp isNew]
      exact (kept.chain batch (isChain ▸ List.mem_cons_self)).whole
  chain other member := kept.chain other (isChain ▸ List.mem_cons_of_mem _ member)
  log := by
    refine ⟨arrived ++ [bytes], [], ?_, begun_rest untouched fun other member =>
      kept.chain other (isChain ▸ List.mem_cons_of_mem _ member), by simp [isLog]⟩
    rw [endings_append]
    exact List.rel_append lasts (.cons arrives .nil)
  closed := kept.closed

theorem Kept.append (kept : Kept remote history writer) {outcome : Outcome} {after : Writer} {output : List Signal}
    (stepped : step remote writer (.append outcome) = some (after, output)) : Kept remote (history ++ output) after := by
  rcases kept.log with ⟨arrived, begun, lasts, begins, isLog⟩
  simp only [step] at stepped
  generalize isChain : writer.chain = batches at stepped begins
  cases begins with
  | none => cases stepped
  | @some text written parts chain left cut later =>
      rcases List.exists_cons_of_ne_nil left with ⟨part, parts, rfl⟩
      have sound := kept.chain { text := text, parts := part :: parts } (isChain ▸ List.mem_cons_self)
      have whole : written.flatMap encode ++ (encode part ++ parts.flatMap encode) = encode text := by
        have arrives := sound.arrives
        rw [cut] at arrives
        simpa using arrives
      cases outcome with
      | written =>
          simp only at stepped
          split at stepped
          · rename_i isLast
            cases stepped
            rw [isLast, List.flatMap_nil, List.append_nil] at whole
            refine kept.endBatch isChain later lasts ⟨?_, fun _ => whole⟩ (by rw [isLog, List.append_assoc])
            exact ⟨[], (List.append_nil _).trans whole⟩
          · rename_i more
            cases stepped
            rw [List.append_nil]
            refine ⟨?_, kept.buffer, kept.ended, ?_, ?_, kept.closed⟩
            · have texts := kept.texts
              rw [isChain] at texts
              exact texts
            · intro batch member
              rcases List.mem_cons.mp member with rfl | isLater
              · exact ⟨sound.some, sound.whole, sound.arrives⟩
              · exact kept.chain batch (isChain ▸ List.mem_cons_of_mem _ isLater)
            · refine ⟨arrived, (written ++ [part]).flatMap encode, lasts, Begun.some more (by simp [cut]) later, ?_⟩
              simp [isLog]
      | failed appended =>
          cases stepped
          refine kept.endBatch isChain later lasts ⟨?_, fun isWhole => absurd isWhole Bool.false_ne_true⟩
            (by rw [isLog, List.append_assoc])
          rw [← whole]
          exact List.prefix_append_right_inj _ |>.mpr ((List.take_prefix _ _).trans (List.prefix_append _ _))

theorem Kept.step {event : Event} {after : Writer} {output : List Signal} (kept : Kept remote history writer)
    (uncut : CutsNoPair remote writer event) (stepped : step remote writer event = some (after, output)) :
    Kept remote (history ++ output) after := by
  cases event with
  | push data =>
      simp only [ComposeBuild.step] at stepped
      split at stepped
      · cases stepped
      · rename_i isOpen
        cases stepped
        have grown := kept.grow (by simpa using isOpen) data writer.timer
        simp only [Writer.push]
        split
        · rename_i full
          simp only [CutsNoPair, flushed, if_pos full] at uncut
          exact (grown.flush uncut).1
        · exact grown.setTimer true
  | line text =>
      simp only [ComposeBuild.step] at stepped
      split at stepped
      · cases stepped
      · rename_i isOpen
        cases stepped
        exact kept.grow (by simpa using isOpen) (text ++ ['\n']) true
  | timer =>
      simp only [ComposeBuild.step] at stepped
      split at stepped
      · cases stepped
        rw [List.append_nil]
        exact (kept.flush uncut).1
      · cases stepped
  | close =>
      simp only [ComposeBuild.step] at stepped
      split at stepped
      · cases stepped
      · cases stepped
        rw [List.append_nil]
        rcases kept.flush uncut with ⟨flushed, none⟩
        exact ⟨flushed.texts, flushed.buffer, flushed.ended, flushed.chain, flushed.log, fun _ => none⟩
  | append outcome => exact kept.append stepped

end Steps

theorem kept_of_run {history : List Signal} {writer : Writer}
    (run : (createDeploymentLogWriter remote).Run (CutsNoPair remote) history writer) : Kept remote history writer :=
  run.invariant (Kept remote) (kept_fresh remote) fun _ _ _ _ _ _ kept uncut stepped => kept.step uncut stepped

/-- What the log holds: what arrived of each batch that is over, in the order of the calls, and the
beginning of the one that is being written. -/
structure InOrder (remote : Bool) (history : List Signal) (writer : Writer) : Prop where
  texts : utf16 (called history) =
    ((endings history).map Prod.fst).flatten ++ (writer.chain.map (·.text)).flatten ++ writer.buffer
  log : Exists fun arrived => Exists fun begun =>
    List.Forall₂ Arrives (endings history) arrived ∧ Begun remote writer.chain begun ∧ writer.log = arrived.flatten ++ begun
  /-- When close has resolved, the batches are all there was, and if none failed, so is the log. -/
  complete : writer.closed = true -> writer.chain = [] ->
    utf8 (called history) = (endings history).flatMap (fun ending => encode ending.1) ∧
      ((forall ending, ending ∈ endings history -> ending.2 = true) -> writer.log = utf8 (called history))
  /-- No call fails, and a write that fails only ends its batch. -/
  calls : writer.closed = false -> forall text, (step remote writer (.push text)).isSome = true ∧
    (step remote writer (.line text)).isSome = true ∧ (step remote writer .close).isSome = true
  writes : writer.chain ≠ [] -> forall outcome, (step remote writer (.append outcome)).isSome = true

theorem flatten_arrived {ends : List (Units × Bool)} {arrived : List (List UInt8)} (lasts : List.Forall₂ Arrives ends arrived)
    (whole : forall ending, ending ∈ ends -> ending.2 = true) :
    arrived.flatten = ends.flatMap fun ending => encode ending.1 := by
  induction lasts with
  | nil => rfl
  | cons arrives _ ih =>
      rw [List.flatten_cons, List.flatMap_cons, arrives.2 (whole _ List.mem_cons_self),
        ih fun ending member => whole ending (List.mem_cons_of_mem _ member)]

/-- As long as no slice ends inside a pair, the log is what was called for. -/
theorem inOrder_of_run {remote : Bool} {history : List Signal} {writer : Writer}
    (run : (createDeploymentLogWriter remote).Run (CutsNoPair remote) history writer) : InOrder remote history writer where
  texts := (kept_of_run run).texts
  log := (kept_of_run run).log
  complete isClosed isEmpty := by
    have kept := kept_of_run run
    rcases kept.log with ⟨arrived, begun, lasts, begins, isLog⟩
    have texts := kept.texts
    rw [isEmpty, kept.closed isClosed, List.map_nil, List.flatten_nil, List.append_nil, List.append_nil] at texts
    have wholes : forall text, text ∈ (endings history).map Prod.fst -> Whole text := by
      intro text member
      rcases List.mem_map.mp member with ⟨ending, inEndings, rfl⟩
      exact kept.ended ending inEndings
    have bytes : utf8 (called history) = (endings history).flatMap fun ending => encode ending.1 := by
      rw [← encode_utf16, texts, encode_flatten wholes, List.flatMap_map]
    refine ⟨bytes, fun whole => ?_⟩
    rw [isEmpty] at begins
    cases begins
    rw [isLog, List.append_nil, bytes, flatten_arrived lasts whole]
  calls isOpen text := by
    simp [step, isOpen]
  writes some outcome := by
    rcases (kept_of_run run).log with ⟨_, begun, _, begins, _⟩
    simp only [step]
    generalize writer.chain = chain at some begins
    cases begins with
    | none => exact absurd rfl some
    | @some text written parts chain left cut later =>
        rcases List.exists_cons_of_ne_nil left with ⟨part, parts, rfl⟩
        cases outcome with
        | written =>
            simp only
            split <;> rfl
        | failed appended => rfl

theorem uncut_of_short (short : text.length ≤ MAX_LOG_CHUNK) : Uncut text := by
  intro count lead trail _ isFirst
  have inside := (List.getElem?_eq_some_iff.mp isFirst).1
  have first : MAX_LOG_CHUNK ≤ MAX_LOG_CHUNK * (count + 1) := Nat.le_mul_of_pos_right _ (Nat.succ_pos count)
  omega

/-- Two short texts for a log on another host, of which the second comes while the first is written. -/
def exampleEvents : List Event :=
  [.push ['o', 'n', 'e'], .timer, .line ['t', 'w', 'o'], .append .written, .close, .append .written]

def isShort (writer : Writer) (event : Event) : Bool := (flushed writer event).length ≤ MAX_LOG_CHUNK

theorem exampleEvents_inOrder :
    InOrder true ((createDeploymentLogWriter true).outcome isShort exampleEvents).2
      ((createDeploymentLogWriter true).outcome isShort exampleEvents).1 :=
  inOrder_of_run (@Machine.run_of_executes _ _ _ (createDeploymentLogWriter true) (CutsNoPair true) isShort
    (fun _ _ short _ => uncut_of_short (of_decide_eq_true short)) exampleEvents (by decide))

theorem run_appends {history : List Signal} {writer : Writer} {parts : List Units}
    (run : (createDeploymentLogWriter remote).Reaches history writer) (left : parts ≠ [])
    (isChain : writer.chain = [{ text := text, parts := parts }]) :
    (createDeploymentLogWriter remote).Reaches (history ++ [.ended text true])
      { writer with log := writer.log ++ parts.flatMap encode, chain := [] } := by
  induction parts generalizing writer history with
  | nil => exact absurd rfl left
  | cons part parts ih =>
      cases parts with
      | nil =>
          have stepped : (createDeploymentLogWriter remote).step writer (.append .written) =
              some ({ writer with log := writer.log ++ [part].flatMap encode, chain := [] }, [.ended text true]) := by
            simp [createDeploymentLogWriter, step, isChain]
          exact run.next trivial stepped
      | cons second parts =>
          have moved : (createDeploymentLogWriter remote).Reaches (history ++ [])
              { writer with log := writer.log ++ encode part, chain := [{ text := text, parts := second :: parts }] } := by
            have stepped : (createDeploymentLogWriter remote).step writer (.append .written) = some
                ({ writer with log := writer.log ++ encode part, chain := [{ text := text, parts := second :: parts }] }, []) := by
              simp [createDeploymentLogWriter, step, isChain]
            exact run.next trivial stepped
          rw [List.append_nil] at moved
          have finished := ih moved (by simp) rfl
          simpa [List.append_assoc] using finished

theorem log_of_cut {text : List Char} (full : MAX_LOG_CHUNK ≤ (utf16 text).length) (cut : ¬ Uncut (utf16 text)) :
    Exists fun history => Exists fun writer => (createDeploymentLogWriter true).Reaches history writer ∧
      writer.closed = true ∧ writer.chain = [] ∧ (forall ending, ending ∈ endings history -> ending.2 = true) ∧
        writer.log ≠ utf8 (called history) := by
  have filled : utf16 text ≠ [] := by
    intro none
    rw [none] at full
    exact absurd full (by decide)
  let pushed : Writer :=
    { buffer := [], timer := false, chain := [{ text := utf16 text, parts := slices (utf16 text) }], log := [], closed := false }
  have push : (createDeploymentLogWriter true).Reaches ([] ++ [.called text]) pushed := by
    have stepped : (createDeploymentLogWriter true).step .fresh (.push text) = some (pushed, [.called text]) := by
      simp [createDeploymentLogWriter, step, Writer.push, Writer.flush, Writer.fresh, full, filled, partsOf, pushed]
    exact Machine.Run.start.next trivial stepped
  have close : (createDeploymentLogWriter true).Reaches ([.called text] ++ []) { pushed with closed := true } := by
    have stepped : (createDeploymentLogWriter true).step pushed .close = some ({ pushed with closed := true }, []) := by
      simp [createDeploymentLogWriter, step, Writer.flush, pushed]
    exact push.next trivial stepped
  have finished := run_appends close (slices_ne_nil filled) rfl
  refine ⟨_, _, finished, rfl, rfl, ?_, ?_⟩
  · simp [endings]
  · have bytes := encode_utf16 text
    have differs := fun same => cut ((slices_iff (utf16 text)).mp same)
    simpa [called, pushed, bytes] using differs

section Ends

variable {Item : Type} (count : Nat) (item first second : Item)

theorem getElem?_first : (List.replicate count item ++ [first, second])[count]? = some first := by
  rw [List.getElem?_append_right (Nat.le_of_eq List.length_replicate), List.length_replicate, Nat.sub_self]
  rfl

theorem getElem?_second : (List.replicate count item ++ [first, second])[count + 1]? = some second := by
  rw [List.getElem?_append_right (by rw [List.length_replicate]; exact Nat.le_succ count), List.length_replicate,
    Nat.add_sub_cancel_left]
  rfl

end Ends

/-- A character outside the first plane, with one half of it in each slice. -/
def cutText : List Char := List.replicate 24575 'a' ++ [Char.ofNat 0x1F600]

theorem utf16_cutText : utf16 cutText = List.replicate 24575 97 ++ [0xD83D, 0xDE00] := by
  have letters : forall count, utf16 (List.replicate count 'a') = List.replicate count 97 := by
    intro count
    induction count with
    | zero => rfl
    | succ count ih =>
        rw [List.replicate_succ, List.replicate_succ, ← ih]
        rfl
  rw [cutText, utf16_append, letters]
  rfl

theorem cutText_misread :
    Exists fun history => Exists fun writer => (createDeploymentLogWriter true).Reaches history writer ∧
      writer.closed = true ∧ writer.chain = [] ∧ (forall ending, ending ∈ endings history -> ending.2 = true) ∧
        writer.log ≠ utf8 (called history) := by
  refine @log_of_cut cutText ?_ fun uncut => ?_
  · rw [utf16_cutText, List.length_append, List.length_replicate]
    exact Nat.add_le_add_left (by decide : 1 ≤ [0xD83D, 0xDE00].length) 24575
  · rw [utf16_cutText] at uncut
    exact absurd (uncut 0 0xD83D 0xDE00 (getElem?_first 24575 _ _ _) (getElem?_second 24575 _ _ _)) (by decide)

end ComposeBuild
end Dokploy
