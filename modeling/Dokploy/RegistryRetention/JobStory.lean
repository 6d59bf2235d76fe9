import Mathlib.Algebra.Group.Int.Defs
import Dokploy.RegistryRetention.JobPlan
import Dokploy.RegistryRetention.CurlReading
import Dokploy.Foundation.Completion

namespace Dokploy
namespace RegistryRetention

open Foundation

/-!
# What a job has done

The story of a job is told from the entries: each guard was read and answered, the
clock and the stop marker were looked at, and the deletion was sent, skipped, or the
job stopped.  The script only counts lines of what curl printed, so the story is
true where those lines are what they look like: no line of a response imitates curl's
marker, no line of a body a digest header, and no header a digest it is not.
-/

section Responses

/-- A line that ends the head of a response. -/
def isBlankLine (line : Text) : Bool := decide (line = [] ∨ line = ['\r'])

/-- A response as curl prints it with its headers. -/
structure CurlResponse where
  /-- The status line and the headers. -/
  head : List Text
  blank : Text
  body : Text
  code : Text
  head_lines : forall line, line ∈ head -> '\n' ∉ line ∧ isBlankLine line = false
  blank_line : isBlankLine blank = true
  code_digits : IsCode code

/-- What curl prints for it, with the marker of request 0 at the end. -/
def CurlResponse.output (response : CurlResponse) : Text :=
  Lines.join (response.head ++ [response.blank]) ++
    (response.body ++ '\n' :: (markerLine ['0'] response.code ++ ['\n']))

def isDigestHeader (line : Text) : Bool := isDigestLine line && isValidDigest (trim (line.drop digestHeaderName.length))

/-- The response names one digest in its head. -/
def CurlResponse.OneDigest (response : CurlResponse) : Prop :=
  Exists fun line => response.head.filter isDigestLine = [line] ∧ isDigestHeader line = true

/-- A guard was read, and it does not need the digest. -/
structure GuardHolds (digest : Text) (optional : Bool) (answer : Nat × Text) : Prop where
  exited : answer.1 = 0
  apart : ¬ digest <:+: answer.2
  answered : Exists fun response : CurlResponse => answer.2 = response.output ∧
    (response.code = "200".toList ∧ response.OneDigest ∨ optional = true ∧ response.code = "404".toList)

/-- A response none of whose lines imitates a line the script looks for. -/
structure CurlResponse.Plain (response : CurlResponse) : Prop where
  noNul : '\x00' ∉ response.output
  quiet : forall line, line ∈ response.head ++ Lines.read (response.body ++ ['\n']) ->
    ¬ (RESPONSE_MARKER ++ [' ']) <+: line
  headed : forall line, line ∈ Lines.read (response.body ++ ['\n']) -> isDigestLine line = false
  exactly : forall line, line ∈ response.head -> isDigestLineLoosely line = true -> isDigestHeader line = true

end Responses

section Guards

variable {response : CurlResponse}

theorem whole_of_blank {line : Text} (blank : isBlankLine line = true) : '\n' ∉ line := by
  rcases of_decide_eq_true blank with rfl | rfl <;> decide

theorem whole_of_code {code : Text} (isCode : IsCode code) : '\n' ∉ markerLine ['0'] code := by
  simp only [markerLine, List.mem_append, List.mem_cons, not_or]
  refine ⟨⟨by decide, by decide, by decide⟩, by decide, fun member => ?_⟩
  exact absurd (List.all_eq_true.mp isCode.digits '\n' member) (by decide)

theorem read_output : Lines.read response.output =
    (response.head ++ [response.blank]) ++ (Lines.read (response.body ++ ['\n']) ++ [markerLine ['0'] response.code]) := by
  have whole : forall line, line ∈ response.head ++ [response.blank] -> '\n' ∉ line := by
    intro line member
    rcases List.mem_append.mp member with inHead | isBlank
    · exact (response.head_lines line inHead).1
    · exact List.mem_singleton.mp isBlank ▸ whole_of_blank response.blank_line
  rw [CurlResponse.output, Lines.read_join_append _ whole, Lines.read_break]
  have last : Lines.read (markerLine ['0'] response.code ++ ['\n']) = [markerLine ['0'] response.code] :=
    Lines.read_cons (whole_of_code response.code_digits)
  rw [last]

theorem printed_output (noNul : '\x00' ∉ response.output) : printed (captured response.output) = Lines.read response.output ∧
    response.output = captured response.output ++ ['\n'] := by
  have shape : Exists fun text => Exists fun last => response.output = text ++ [last, '\n'] ∧ last ≠ '\n' := by
    have isCode := response.code_digits
    rcases codeIs : response.code with _ | ⟨first, _ | ⟨second, _ | ⟨third, _ | ⟨more, rest⟩⟩⟩⟩
    · exact absurd isCode.length (by rw [codeIs]; decide)
    · exact absurd isCode.length (by rw [codeIs]; simp)
    · exact absurd isCode.length (by rw [codeIs]; simp)
    · refine ⟨Lines.join (response.head ++ [response.blank]) ++ (response.body ++ '\n' ::
        (RESPONSE_MARKER ++ ' ' :: ['0'] ++ ' ' :: [first, second])), third, ?_, fun same => ?_⟩
      · rw [CurlResponse.output, codeIs]
        simp only [markerLine, List.append_assoc, List.cons_append, List.nil_append]
      · have digit := List.all_eq_true.mp isCode.digits third (by simp [codeIs])
        rw [same] at digit
        cases digit
    · exact absurd isCode.length (by rw [codeIs]; simp)
  rcases shape with ⟨text, last, same, other⟩
  have front : '\x00' ∉ text ++ [last] := fun member => noNul (by
    rw [same, show text ++ [last, '\n'] = text ++ [last] ++ ['\n'] by simp]
    exact List.mem_append_left _ member)
  have lines := captured_lines front other
  rw [same, printed, lines]
  simp

theorem isMarkerLine_start {code line : Text} (marks : isMarkerLine code line = true) : (RESPONSE_MARKER ++ [' ']) <+: line :=
  List.isPrefixOf_iff_prefix.mp (Bool.and_eq_true_iff.mp marks).1

theorem isMarkerLine_marker {code other : Text} (marks : isMarkerLine code (markerLine ['0'] other) = true) : other = code := by
  have rest := of_decide_eq_true (Bool.and_eq_true_iff.mp (Bool.and_eq_true_iff.mp marks).2).2
  have dropped : (markerLine ['0'] other).drop (RESPONSE_MARKER.length + 1) = '0' :: ' ' :: other := rfl
  rw [dropped] at rest
  exact (List.cons.inj rest).2

theorem code_of_count (plain : response.Plain) {code : Text}
    (one : (printed (captured response.output)).countP (isMarkerLine code) = 1) : response.code = code := by
  have some : 0 < (printed (captured response.output)).countP (isMarkerLine code) := one ▸ Nat.one_pos
  rcases List.countP_pos_iff.mp some with ⟨line, member, marks⟩
  rw [(printed_output plain.noNul).1, read_output] at member
  have starts := isMarkerLine_start marks
  rcases List.mem_append.mp member with inHead | later
  · rcases List.mem_append.mp inHead with inHead | isBlank
    · exact absurd starts (plain.quiet line (List.mem_append_left _ inHead))
    · rw [List.mem_singleton.mp isBlank] at starts
      rcases of_decide_eq_true response.blank_line with blank | blank <;> rw [blank] at starts <;>
        exact absurd starts (by decide)
  · rcases List.mem_append.mp later with inBody | isMarker
    · exact absurd starts (plain.quiet line (List.mem_append_right _ inBody))
    · rw [List.mem_singleton.mp isMarker] at marks
      exact isMarkerLine_marker marks

theorem digestLine_of_loosely {line : Text} (loosely : isDigestLineLoosely line = true) : isDigestLine line = true := by
  have starts := List.isPrefixOf_iff_prefix.mp (Bool.and_eq_true_iff.mp loosely).1
  exact List.isPrefixOf_iff_prefix.mpr ((List.prefix_append _ _).trans starts)

theorem oneDigest_of_count (plain : response.Plain)
    (loosely : (printed (captured response.output)).countP isDigestLineLoosely = 1)
    (lines : (printed (captured response.output)).countP isDigestLine = 1) : response.OneDigest := by
  have blankIsNone : isDigestLine response.blank = false := by
    rcases of_decide_eq_true response.blank_line with blank | blank <;> rw [blank] <;> decide
  have markerIsNone : isDigestLine (markerLine ['0'] response.code) = false := by
    apply Bool.eq_false_iff.mpr
    intro starts
    have first := (List.cons_prefix_cons.mp (List.isPrefixOf_iff_prefix.mp starts)).1
    exact absurd first (by decide)
  have bodyHasNone : (Lines.read (response.body ++ ['\n'])).filter isDigestLine = [] :=
    List.filter_eq_nil_iff.mpr fun line member => by rw [plain.headed line member]; decide
  have all : (printed (captured response.output)).filter isDigestLine = response.head.filter isDigestLine := by
    rw [(printed_output plain.noNul).1, read_output, List.filter_append, List.filter_append, List.filter_append,
      bodyHasNone, List.filter_cons_of_neg (by rw [blankIsNone]; decide),
      List.filter_cons_of_neg (by rw [markerIsNone]; decide)]
    simp
  rw [List.countP_eq_length_filter, all] at lines
  rcases List.length_eq_one_iff.mp lines with ⟨line, only⟩
  have some : 0 < (printed (captured response.output)).countP isDigestLineLoosely := loosely ▸ Nat.one_pos
  rcases List.countP_pos_iff.mp some with ⟨found, member, matching⟩
  have isHeader : found ∈ response.head.filter isDigestLine := by
    rw [<- all]
    exact List.mem_filter.mpr ⟨member, digestLine_of_loosely matching⟩
  have same : found = line := by
    rw [only] at isHeader
    exact List.mem_singleton.mp isHeader
  exact ⟨line, only, same ▸ plain.exactly found (List.mem_filter.mp isHeader).1 matching⟩

theorem guardAccepts_sound {digest : Text} (valid : isValidDigest digest = true) {entryGuard : DeleteGuard}
    (plain : response.Plain)
    (accepts : guardAccepts digest (optionalText entryGuard) (captured response.output) = true) :
    GuardHolds digest entryGuard.optional (0, response.output) := by
  unfold guardAccepts at accepts
  split at accepts
  · cases accepts
  · rename_i apart
    have noBreak : '\n' ∉ digest := not_mem_digest valid (by decide) rfl
    have apartHere : ¬ digest <:+: response.output := by
      intro occurs
      rw [(printed_output plain.noNul).2] at occurs
      rcases Lines.infix_of_break noBreak occurs with inside | none
      · exact apart ((includes_iff _ _).mpr inside)
      · exact (digest_chars valid).1 (List.infix_nil.mp none)
    refine ⟨rfl, apartHere, response, rfl, ?_⟩
    split at accepts
    · rename_i missing
      refine Or.inr ⟨?_, code_of_count plain missing.2⟩
      by_contra needed
      have flag : optionalText entryGuard = ['0'] := if_neg needed
      rw [flag] at missing
      exact absurd missing.1 (by decide)
    · rw [Bool.and_eq_true, Bool.and_eq_true] at accepts
      exact Or.inl ⟨code_of_count plain (of_decide_eq_true accepts.1.1),
        oneDigest_of_count plain (of_decide_eq_true accepts.1.2) (of_decide_eq_true accepts.2)⟩

end Guards

section Stories

/-- The operations of a run with their answers. -/
abbrev JobTrace := List (Sigma JobAnswer)

/-- Guards are read in order, until one does not hold. -/
inductive GuardsStory (credentials : Credentials) (digest : Text) : List DeleteGuard -> JobTrace -> Bool -> Prop
  | all : GuardsStory credentials digest [] [] true
  | holds {entryGuard : DeleteGuard} {guards : List DeleteGuard} {config : Text} {answer : Nat × Text} {trace : JobTrace}
      {ok : Bool} (written : guardConfig credentials entryGuard = some config)
      (holds : GuardHolds digest entryGuard.optional answer) (rest : GuardsStory credentials digest guards trace ok) :
      GuardsStory credentials digest (entryGuard :: guards) (⟨.guardCurl config, answer⟩ :: trace) ok
  | fails {entryGuard : DeleteGuard} {guards : List DeleteGuard} {config : Text} {answer : Nat × Text}
      (written : guardConfig credentials entryGuard = some config) :
      GuardsStory credentials digest (entryGuard :: guards) [⟨.guardCurl config, answer⟩] false

inductive Outcome where
  | sent (output : Text)
  | skipped
  | stopped

/-- The deletion is sent when all guards hold, before the deadline and without a stop. -/
inductive EntryStory (credentials : Credentials) (deadline : Int) (entry : DeleteJobEntry) : JobTrace -> Outcome -> Prop
  | late {guards : JobTrace} {ok : Bool} {now : Int} (read : GuardsStory credentials entry.digest entry.guards guards ok)
      (late : deadline ≤ now) : EntryStory credentials deadline entry (guards ++ [⟨.date, now⟩]) .stopped
  | stop {guards : JobTrace} {ok : Bool} {now : Int} {touched : Text}
      (read : GuardsStory credentials entry.digest entry.guards guards ok) (early : now < deadline) (stop : touched ≠ []) :
      EntryStory credentials deadline entry (guards ++ [⟨.date, now⟩, ⟨.find, touched⟩]) .stopped
  | skip {guards : JobTrace} {now : Int} (read : GuardsStory credentials entry.digest entry.guards guards false)
      (early : now < deadline) :
      EntryStory credentials deadline entry (guards ++ [⟨.date, now⟩, ⟨.find, ([] : Text)⟩]) .skipped
  | send {guards : JobTrace} {now : Int} {config output : Text}
      (read : GuardsStory credentials entry.digest entry.guards guards true) (early : now < deadline)
      (written : deleteConfig credentials entry = some config) :
      EntryStory credentials deadline entry
        (guards ++ [⟨.date, now⟩, ⟨.find, ([] : Text)⟩, ⟨.deleteCurl config, output⟩]) (.sent output)

/-- Entries are handled in order, until the job stops. -/
inductive JobStory (credentials : Credentials) (deadline : Int) :
    List DeleteJobEntry -> JobTrace -> List (DeleteJobEntry × Outcome) -> Prop
  | done : JobStory credentials deadline [] [] []
  | stops {entry : DeleteJobEntry} {entries : List DeleteJobEntry} {trace : JobTrace}
      (story : EntryStory credentials deadline entry trace .stopped) :
      JobStory credentials deadline (entry :: entries) trace []
  | handles {entry : DeleteJobEntry} {entries : List DeleteJobEntry} {trace later : JobTrace} {outcome : Outcome}
      {handled : List (DeleteJobEntry × Outcome)} (story : EntryStory credentials deadline entry trace outcome)
      (goesOn : outcome ≠ .stopped) (rest : JobStory credentials deadline entries later handled) :
      JobStory credentials deadline (entry :: entries) (trace ++ later) ((entry, outcome) :: handled)

/-- What curl wrote when it sent a deletion. -/
def DeleteOutput (entry : DeleteJobEntry) (body code output : Text) : Prop :=
  output = body ++ '\n' :: (markerLine (Numerals.numberText entry.id) code ++ ['\n']) ∧ IsCode code

/-- The status an entry has: 000 when its deletion was not sent. -/
def Outcome.HasStatus (entry : DeleteJobEntry) (status : Nat) : Outcome -> Prop
  | .sent output => Exists fun body => Exists fun code => DeleteOutput entry body code output ∧ status = decimalValue code
  | .skipped => status = 0
  | .stopped => False

/-- The job has handled its entries one after the other, and its result tells what became of each. -/
def JobRight (credentials : Credentials) (entries : List DeleteJobEntry) (seconds : Int) (token : Text)
    (trace : JobTrace) (result : Option Text) : Prop :=
  Exists fun begun : Int => Exists fun rest => Exists fun handled => Exists fun text =>
    trace = ⟨.date, begun⟩ :: rest ∧ result = some text ∧
      JobStory credentials (begun + seconds) entries rest handled ∧
      forall expected, expected = none ∨ expected = some (entries.map DeleteJobEntry.id) ->
        Exists fun responses => parseRegistryJobOutput (statusText text) expected = .idle (some token) responses ∧
          forall entry outcome, (entry, outcome) ∈ handled -> Exists fun response =>
            (responses.find? fun found => found.1 = entry.id) = some (entry.id, response) ∧
              outcome.HasStatus entry response.status

/-- Answers whose lines are what they look like. -/
def PlainAnswer (credentials : Credentials) (entries : List DeleteJobEntry) : Sigma JobAnswer -> Prop
  | ⟨.guardCurl _, answer⟩ => answer.1 = 0 -> Exists fun response : CurlResponse => answer.2 = response.output ∧ response.Plain
  | ⟨.deleteCurl config, output⟩ => forall entry, entry ∈ entries -> deleteConfig credentials entry = some config ->
      Exists fun body => Exists fun code => DeleteOutput entry body code output ∧ ¬ RESPONSE_MARKER <:+: body
  | _ => True

/-- Entries with different ids, all of them natural numbers that are doubles of their own. -/
structure PlainIds (entries : List DeleteJobEntry) : Prop where
  distinct : (entries.map DeleteJobEntry.id).Nodup
  small : forall entry, entry ∈ entries -> 0 ≤ entry.id ∧ entry.id < 2 ^ 53

end Stories

section Telling

variable {credentials : Credentials} {deadline : Int} {all : List DeleteJobEntry}

variable {entry : DeleteJobEntry}

theorem guardConfig_written (accepted : Accepted credentials entry) {entryGuard : DeleteGuard}
    (member : entryGuard ∈ entry.guards) :
    guardConfig credentials entryGuard = some ((guardConfig credentials entryGuard).getD []) := by
  rcases accepted.guards entryGuard member with ⟨lines, written⟩
  rw [guardConfig, oneRequest, written]
  rfl

theorem deleteConfig_written (accepted : Accepted credentials entry) :
    deleteConfig credentials entry = some ((deleteConfig credentials entry).getD []) := by
  rcases accepted.delete with ⟨lines, written⟩
  rw [deleteConfig, oneRequest, written]
  rfl

variable {trace : JobTrace}

theorem completes_ask {op : JobOp} {Result : Type} {next : JobAnswer op -> Script Result}
    {outcome : Except Empty Result} (completes : (Script.ask op >>= next).Completes trace outcome) :
    Exists fun answer => Exists fun rest => trace = ⟨op, answer⟩ :: rest ∧ (next answer).Completes rest outcome :=
  Program.completes_perform.mp completes

theorem guardsStory_of_completes {digest : Text} (valid : isValidDigest digest = true) (guards : List DeleteGuard)
    (written : forall entryGuard, entryGuard ∈ guards ->
      guardConfig credentials entryGuard = some ((guardConfig credentials entryGuard).getD [])) {ok : Bool} (completes :
    (handleGuards credentials digest guards).Completes trace (.ok ok))
    (plain : forall step, step ∈ trace -> PlainAnswer credentials all step) :
    GuardsStory credentials digest guards trace ok := by
  induction guards generalizing trace ok with
  | nil =>
      rcases Program.completes_pure.mp completes with ⟨rfl, same⟩
      cases same
      exact .all
  | cons entryGuard guards ih =>
      have writtenHere := written entryGuard List.mem_cons_self
      rw [handleGuards, guard, Program.bind_assoc] at completes
      rcases completes_ask completes with ⟨answer, rest, rfl, more⟩
      change (if (decide (answer.1 = 0) && guardAccepts digest (optionalText entryGuard) (captured answer.2)) = true
        then handleGuards credentials digest guards else pure false).Completes rest (.ok ok) at more
      split at more
      · rename_i good
        rcases Bool.and_eq_true_iff.mp good with ⟨exited, accepts⟩
        have exit := of_decide_eq_true exited
        rcases plain _ List.mem_cons_self exit with ⟨response, printedSo, isPlain⟩
        rcases answer with ⟨status, output⟩
        cases exit
        cases printedSo
        exact .holds writtenHere (guardAccepts_sound valid isPlain accepts)
          (ih (fun other member => written other (List.mem_cons_of_mem _ member)) more
            fun step member => plain step (List.mem_cons_of_mem _ member))
      · rcases Program.completes_pure.mp more with ⟨rfl, same⟩
        cases same
        exact .fails writtenHere

def Outcome.text (entry : DeleteJobEntry) : Outcome -> Text
  | .sent output => output
  | .skipped => skippedLine (Numerals.numberText entry.id)
  | .stopped => []

theorem entryStory_of_completes (accepted : Accepted credentials entry) {guards : JobTrace}
    {ok : Bool} (read : GuardsStory credentials entry.digest entry.guards guards ok) {result last : Text}
    {next : Text -> Script Text}
    (completes : (settle deadline ((deleteConfig credentials entry).getD []) (Numerals.numberText entry.id) result next
      ok).Completes trace (.ok last)) :
    (EntryStory credentials deadline entry (guards ++ trace) .stopped ∧ last = result) ∨
      Exists fun first => Exists fun later => Exists fun outcome => trace = first ++ later ∧ outcome ≠ .stopped ∧
        EntryStory credentials deadline entry (guards ++ first) outcome ∧
        (next (result ++ outcome.text entry)).Completes later (.ok last) := by
  rcases completes_ask completes with ⟨now, rest, rfl, more⟩
  by_cases late : ¬ now < deadline
  · rw [if_pos late] at more
    rcases Program.completes_pure.mp more with ⟨rfl, same⟩
    cases same
    exact Or.inl ⟨.late read (not_lt.mp late), rfl⟩
  · rw [if_neg late] at more
    have early := not_not.mp late
    rcases completes_ask more with ⟨touched, after, rfl, looked⟩
    by_cases stop : touched ≠ []
    · rw [if_pos stop] at looked
      rcases Program.completes_pure.mp looked with ⟨rfl, same⟩
      cases same
      exact Or.inl ⟨.stop read early stop, rfl⟩
    · rw [if_neg stop] at looked
      cases not_not.mp stop
      cases ok with
      | false =>
          exact Or.inr ⟨[⟨.date, now⟩, ⟨.find, ([] : Text)⟩], after, .skipped, rfl, (fun same => nomatch same),
            .skip read early, looked⟩
      | true =>
          rcases completes_ask looked with ⟨output, later, rfl, sent⟩
          exact Or.inr ⟨[⟨.date, now⟩, ⟨.find, ([] : Text)⟩, ⟨.deleteCurl _, output⟩], later, .sent output, rfl,
            (fun same => nomatch same), .send read early (deleteConfig_written accepted), sent⟩

theorem jobStory_of_completes (entries : List DeleteJobEntry)
    (each : forall entry, entry ∈ entries -> Accepted credentials entry) {result last : Text}
    (completes : (handle credentials deadline entries result).Completes trace (.ok last))
    (plain : forall step, step ∈ trace -> PlainAnswer credentials all step) :
    Exists fun handled => JobStory credentials deadline entries trace handled ∧
      last = result ++ handled.flatMap fun entry => entry.2.text entry.1 := by
  induction entries generalizing trace result with
  | nil =>
      rcases Program.completes_pure.mp completes with ⟨rfl, same⟩
      cases same
      exact ⟨[], .done, (List.append_nil _).symm⟩
  | cons entry entries ih =>
      have accepted := each entry List.mem_cons_self
      rcases completes.bind_split with ⟨guards, rest, ok, rfl, reading, settling⟩
      have read := guardsStory_of_completes accepted.digest entry.guards (fun _ => guardConfig_written accepted) reading
        fun step member => plain step (List.mem_append_left _ member)
      rcases entryStory_of_completes accepted read settling with
        ⟨story, same⟩ | ⟨first, later, outcome, rfl, goesOn, story, more⟩
      · exact ⟨[], .stops story, by rw [same, List.flatMap_nil, List.append_nil]⟩
      · rcases ih (fun other member => each other (List.mem_cons_of_mem _ member)) more
          (fun step member => plain step (List.mem_append_right _ (List.mem_append_right _ member))) with
          ⟨handled, told, same⟩
        refine ⟨(entry, outcome) :: handled, ?_, ?_⟩
        · rw [<- List.append_assoc]
          exact .handles story goesOn told
        · rw [same, List.flatMap_cons, List.append_assoc]

variable {handled : List (DeleteJobEntry × Outcome)}

theorem handled_of_story {entries : List DeleteJobEntry}
    (story : JobStory credentials deadline entries trace handled) :
    handled.map Prod.fst <+: entries ∧ forall entry outcome, (entry, outcome) ∈ handled -> outcome ≠ .stopped ∧
      forall output, outcome = .sent output -> Exists fun config => deleteConfig credentials entry = some config ∧
        ⟨.deleteCurl config, output⟩ ∈ trace := by
  induction story with
  | done => exact ⟨List.prefix_rfl, fun _ _ none => nomatch none⟩
  | stops _ => exact ⟨List.nil_prefix, fun _ _ none => nomatch none⟩
  | @handles entry entries trace later outcome handled story goesOn _ ih =>
      refine ⟨List.cons_prefix_cons.mpr ⟨rfl, ih.1⟩, fun other result member => ?_⟩
      rcases List.mem_cons.mp member with same | isLater
      · cases same
        refine ⟨goesOn, fun output is => ?_⟩
        cases is
        cases story with
        | send read early written =>
            exact ⟨_, written, List.mem_append_left _ (List.mem_append_right _ (by simp))⟩
      · rcases ih.2 other result isLater with ⟨goes, sent⟩
        refine ⟨goes, fun output is => ?_⟩
        rcases sent output is with ⟨config, written, among⟩
        exact ⟨config, written, List.mem_append_right _ among⟩

/-- What an entry wrote to the result is a piece with its id and its status. -/
def IsPiece (handled : DeleteJobEntry × Outcome) (piece : Piece) : Prop :=
  (piece.id : Int) = handled.1.id ∧ piece.Clear ∧ piece.text = handled.2.text handled.1 ∧
    handled.2.HasStatus handled.1 (decimalValue piece.code)

theorem markerStart : "\n@@DPL ".toList = '\n' :: (RESPONSE_MARKER ++ [' ']) := by decide

theorem zeroEnd : " 000\n".toList = [' ', '0', '0', '0', '\n'] := by decide

theorem skippedLine_text (id : Text) : skippedLine id = '\n' :: (markerLine id ['0', '0', '0'] ++ ['\n']) := by
  unfold skippedLine markerLine
  rw [markerStart, zeroEnd]
  simp only [List.append_assoc, List.cons_append, List.nil_append]

theorem exists_piece {outcome : Outcome} (small : 0 ≤ entry.id ∧ entry.id < 2 ^ 53)
    (goesOn : outcome ≠ .stopped) (clear : forall output, outcome = .sent output ->
      Exists fun body => Exists fun code => DeleteOutput entry body code output ∧ ¬ RESPONSE_MARKER <:+: body) :
    Exists fun piece => IsPiece (entry, outcome) piece := by
  rcases Int.eq_ofNat_of_zero_le small.1 with ⟨id, isId⟩
  have idSmall : id < 2 ^ 53 := by
    have bound := small.2
    rw [isId] at bound
    exact_mod_cast bound
  have idText : Numerals.numberText entry.id = Numerals.decimal id := by
    rw [isId]
    exact Numerals.numberText_of_nat idSmall
  cases outcome with
  | stopped => exact absurd rfl goesOn
  | skipped =>
      have isCode : IsCode ['0', '0', '0'] := ⟨by decide, by decide⟩
      refine ⟨⟨id, ['0', '0', '0'], []⟩, isId.symm, ⟨idSmall, isCode, ?_⟩, ?_, ?_⟩
      · intro inside
        exact absurd (List.infix_nil.mp inside) (by decide)
      · rw [Outcome.text, skippedLine_text, idText, Piece.text, List.nil_append, List.cons_append]
      · change decimalValue ['0', '0', '0'] = 0
        decide
  | sent output =>
      rcases clear output rfl with ⟨body, code, written, isClear⟩
      refine ⟨⟨id, code, body⟩, isId.symm, ⟨idSmall, written.2, isClear⟩, ?_, body, code, written, rfl⟩
      rw [Outcome.text, written.1, idText, Piece.text]
      simp only [List.append_assoc, List.cons_append]

theorem exists_pieces (handled : List (DeleteJobEntry × Outcome))
    (each : forall entry outcome, (entry, outcome) ∈ handled -> Exists fun piece => IsPiece (entry, outcome) piece) :
    Exists fun pieces => List.Forall₂ IsPiece handled pieces := by
  induction handled with
  | nil => exact ⟨[], .nil⟩
  | cons entry handled ih =>
      rcases each entry.1 entry.2 List.mem_cons_self with ⟨piece, isPiece⟩
      rcases ih fun other outcome member => each other outcome (List.mem_cons_of_mem _ member) with
        ⟨pieces, arePieces⟩
      exact ⟨piece :: pieces, .cons isPiece arePieces⟩

theorem pieces_written {pieces : List Piece}
    (arePieces : List.Forall₂ IsPiece handled pieces) :
    (handled.flatMap fun entry => entry.2.text entry.1) = pieces.flatMap Piece.text ∧
      pieces.map (fun piece => (piece.id : Int)) = (handled.map Prod.fst).map DeleteJobEntry.id ∧
      forall piece, piece ∈ pieces -> piece.Clear := by
  induction arePieces with
  | nil => exact ⟨rfl, rfl, fun _ none => nomatch none⟩
  | cons isPiece _ ih =>
      rcases ih with ⟨texts, ids, clear⟩
      refine ⟨?_, ?_, ?_⟩
      · rw [List.flatMap_cons, List.flatMap_cons, texts, isPiece.2.2.1]
      · rw [List.map_cons, List.map_cons, List.map_cons, ids, isPiece.1]
      · simp only [List.forall_mem_cons]
        exact ⟨isPiece.2.1, clear⟩

theorem find_response {pieces : List Piece}
    (arePieces : List.Forall₂ IsPiece handled pieces) (distinct : (pieces.map fun piece => (piece.id : Int)).Nodup) {outcome : Outcome}
    (member : (entry, outcome) ∈ handled) : Exists fun response =>
      ((responsesOf pieces).find? fun found => found.1 = entry.id) = some (entry.id, response) ∧
        outcome.HasStatus entry response.status := by
  induction arePieces with
  | nil => cases member
  | @cons first piece handled pieces isPiece arePieces ih =>
      rw [List.map_cons, List.nodup_cons] at distinct
      rw [responsesOf, List.map_cons]
      rcases List.mem_cons.mp member with same | later
      · cases same
        refine ⟨readResponse piece.body piece.code, ?_, ?_⟩
        · rw [List.find?_cons_of_pos (by simpa using isPiece.1), isPiece.1]
        · have status : (readResponse piece.body piece.code).status = decimalValue piece.code := by
            unfold readResponse
            split <;> rfl
          rw [status]
          exact isPiece.2.2.2
      · have other : (piece.id : Int) ≠ entry.id := by
          intro same
          apply distinct.1
          rw [(pieces_written arePieces).2.1, List.map_map, same]
          exact List.mem_map.mpr ⟨_, later, rfl⟩
        rw [List.find?_cons_of_neg (by simpa using other)]
        exact ih distinct.2 later

end Telling

theorem printed_subset {input : Text} (noNul : '\x00' ∉ input) : printed (captured input) ⊆ Lines.read (input ++ ['\n']) := by
  have all : input.filter (· ≠ '\x00') = input :=
    List.filter_eq_self.mpr fun char member => decide_eq_true fun nul => noNul (nul ▸ member)
  have parts : input = captured input ++ (input.reverse.takeWhile (· = '\n')).reverse := by
    rw [captured, all, <- List.reverse_append, List.takeWhile_append_dropWhile, List.reverse_reverse]
  have breaks : (input.reverse.takeWhile (· = '\n')).reverse ++ ['\n'] =
      '\n' :: (input.reverse.takeWhile (· = '\n')) := by
    have same : input.reverse.takeWhile (· = '\n') =
        List.replicate (input.reverse.takeWhile (· = '\n')).length '\n' :=
      List.eq_replicate_of_mem fun char member => by simpa using List.mem_takeWhile_imp member
    rw [same, List.reverse_replicate, <- List.replicate_succ', List.replicate_succ]
  intro line member
  have shape : input ++ ['\n'] = captured input ++ '\n' :: (input.reverse.takeWhile (· = '\n')) := by
    rw [<- breaks, <- List.append_assoc, <- parts]
  rw [shape, Lines.read_break]
  exact List.mem_append_left _ member

section Example

/-!
A registry that answers 500 with a body that looks like a marker line with 200, and
one that answers plainly.
-/

variable {credentials : Credentials} {deadline : Int}

theorem guards_hold_of_story {digest : Text} {guards : List DeleteGuard} {trace : JobTrace} {ok : Bool}
    (story : GuardsStory credentials digest guards trace ok) :
    (forall config output, ⟨.deleteCurl config, output⟩ ∉ trace) ∧ (ok = true -> forall entryGuard, entryGuard ∈ guards ->
      Exists fun config => Exists fun answer => ⟨.guardCurl config, answer⟩ ∈ trace ∧
        GuardHolds digest entryGuard.optional answer) := by
  induction story with
  | all => exact ⟨fun _ _ none => (nomatch none), fun _ _ none => nomatch none⟩
  | holds written holds _ ih =>
      refine ⟨fun config output member => ?_, fun good other member => ?_⟩
      · rcases List.mem_cons.mp member with same | later
        · cases same
        · exact ih.1 config output later
      · rcases List.mem_cons.mp member with rfl | later
        · exact ⟨_, _, List.mem_cons_self, holds⟩
        · rcases ih.2 good other later with ⟨config, answer, among, held⟩
          exact ⟨config, answer, List.mem_cons_of_mem _ among, held⟩
  | fails written =>
      refine ⟨fun config output member => ?_, fun good => nomatch good⟩
      cases List.mem_singleton.mp member

theorem guards_hold_of_sent {entries : List DeleteJobEntry} {trace : JobTrace} {handled : List (DeleteJobEntry × Outcome)}
    (story : JobStory credentials deadline entries trace handled) {config output : Text}
    (sent : ⟨.deleteCurl config, output⟩ ∈ trace) : Exists fun entry => entry ∈ entries ∧
      forall entryGuard, entryGuard ∈ entry.guards -> Exists fun config => Exists fun answer =>
        ⟨.guardCurl config, answer⟩ ∈ trace ∧ GuardHolds entry.digest entryGuard.optional answer := by
  have ofEntry : forall {entry trace outcome}, EntryStory credentials deadline entry trace outcome ->
      ⟨.deleteCurl config, output⟩ ∈ trace -> forall entryGuard, entryGuard ∈ entry.guards ->
        Exists fun config => Exists fun answer => ⟨.guardCurl config, answer⟩ ∈ trace ∧
          GuardHolds entry.digest entryGuard.optional answer := by
    intro entry trace outcome story sent
    cases story with
    | late read _ =>
        rcases List.mem_append.mp sent with early | last
        · exact absurd early ((guards_hold_of_story read).1 config output)
        · simp at last
    | stop read _ _ =>
        rcases List.mem_append.mp sent with early | last
        · exact absurd early ((guards_hold_of_story read).1 config output)
        · simp at last
    | skip read _ =>
        rcases List.mem_append.mp sent with early | last
        · exact absurd early ((guards_hold_of_story read).1 config output)
        · simp at last
    | send read _ _ =>
        intro entryGuard member
        rcases (guards_hold_of_story read).2 rfl entryGuard member with ⟨config, answer, among, held⟩
        exact ⟨config, answer, List.mem_append_left _ among, held⟩
  induction story with
  | done => cases sent
  | stops story => exact ⟨_, List.mem_cons_self, ofEntry story sent⟩
  | handles story _ _ ih =>
      rcases List.mem_append.mp sent with here | later
      · refine ⟨_, List.mem_cons_self, fun entryGuard member => ?_⟩
        rcases ofEntry story here entryGuard member with ⟨config, answer, among, held⟩
        exact ⟨config, answer, List.mem_append_left _ among, held⟩
      · rcases ih later with ⟨entry, member, each⟩
        refine ⟨entry, List.mem_cons_of_mem _ member, fun entryGuard isGuard => ?_⟩
        rcases each entryGuard isGuard with ⟨config, answer, among, held⟩
        exact ⟨config, answer, List.mem_append_right _ among, held⟩

theorem code_of_output (response : CurlResponse) : ((response.output.reverse.drop 1).take 3).reverse = response.code := by
  have length : response.code.reverse.length = 3 := by rw [List.length_reverse, response.code_digits.length]
  rw [CurlResponse.output, markerLine]
  simp [length]

def sampleDigest (char : Char) : Text := digestPrefix ++ List.replicate 64 char

def sampleGuard : DeleteGuard := ⟨"https://registry/v2/app/manifests/latest".toList, false⟩

def sampleEntry : DeleteJobEntry :=
  ⟨0, sampleDigest '1', "https://registry/v2/app/manifests/".toList ++ sampleDigest '1', [sampleGuard]⟩

def sampleHead : List Text :=
  ["HTTP/1.1 200 OK\r".toList, "Docker-Content-Digest: ".toList ++ sampleDigest '0' ++ ['\r']]

theorem sampleHead_lines : forall line, line ∈ sampleHead -> '\n' ∉ line ∧ isBlankLine line = false := by decide +kernel

def plainResponse : CurlResponse where
  head := sampleHead
  blank := ['\r']
  body := "\x7b\x7d".toList
  code := ['2', '0', '0']
  head_lines := sampleHead_lines
  blank_line := rfl
  code_digits := ⟨rfl, rfl⟩

/-- The status is 500, and the body looks like a marker. -/
def imitation : CurlResponse where
  head := sampleHead
  blank := ['\r']
  body := "\n@@DPL 0 200".toList
  code := ['5', '0', '0']
  head_lines := sampleHead_lines
  blank_line := rfl
  code_digits := ⟨rfl, rfl⟩

def sampleDeleted : Text := '\n' :: (markerLine ['0'] ['2', '0', '2'] ++ ['\n'])

def sampleAnswers (response : CurlResponse) : forall op, JobAnswer op
  | .guardCurl _ => (0, response.output)
  | .deleteCurl _ => sampleDeleted
  | .date => (0 : Int)
  | .find => ([] : Text)

def sampleCredentials : Credentials := ⟨none, none⟩

def sampleConfig : Text := (buildRegistryDeleteJobConfig [sampleEntry] sampleCredentials).getD []

/-- The run of a script in which a function answers. -/
def traceOf {Result : Type} (answers : forall op, JobAnswer op) (script : Script Result) : JobTrace :=
  (Program.answeredBy () answers script).1.map fun event => ⟨event.op, event.answer⟩

theorem traceOf_completes {Result : Type} (answers : forall op, JobAnswer op) (script : Script Result) :
    Exists fun result => script.Completes (traceOf answers script) (.ok result) := by
  have completes : script.Completes (traceOf answers script) (Program.answeredBy () answers script).2 :=
    Program.completes_of_answers answers script
  generalize (Program.answeredBy () answers script).2 = outcome at completes
  cases outcome with
  | error error => exact error.elim
  | ok result => exact ⟨result, completes⟩

theorem traceOf_answers {Result : Type} {answers : forall op, JobAnswer op} {script : Script Result}
    {step : Sigma JobAnswer} (member : step ∈ traceOf answers script) : step.2 = answers step.1 := by
  rcases List.mem_map.mp member with ⟨event, among, rfl⟩
  exact Program.answeredBy_answers answers script event among

def isDelete : JobOp -> Bool
  | .deleteCurl _ => true
  | _ => false

def sampleTrace (response : CurlResponse) : JobTrace := traceOf (sampleAnswers response) (job 600 ['a'] sampleConfig)

theorem sample_built : buildRegistryDeleteJobConfig [sampleEntry] sampleCredentials = some sampleConfig := by
  have written : (buildRegistryDeleteJobConfig [sampleEntry] sampleCredentials).isSome = true := by decide +kernel
  rcases Option.isSome_iff_exists.mp written with ⟨config, same⟩
  rw [sampleConfig, same]
  rfl

theorem sample_token : IsToken ['a'] := ⟨by decide, by decide⟩

end Example

end RegistryRetention
end Dokploy
