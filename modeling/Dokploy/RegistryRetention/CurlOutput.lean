import Dokploy.RegistryRetention.Prune
import Dokploy.Foundation.Numerals
import Dokploy.Foundation.Entries

namespace Dokploy
namespace RegistryRetention

open Foundation

/-!
# Reading curl's output back

Curl writes a marker line after each response.  The reader cuts the output at the
markers and gives every piece to the request its marker names; a job's output starts
with a line that says what became of the job.
-/

def RESPONSE_MARKER : Text := "@@DPL".toList

/-- Two digits in a row and one more: a status. -/
def readStatus : Text -> Option (Text × Text)
  | first :: second :: third :: rest =>
      if Json.isDigit first && Json.isDigit second && Json.isDigit third then some ([first, second, third], rest) else none
  | _ => none

/-- \r?\n -/
def readBreak : Text -> Option Text
  | '\n' :: rest => some rest
  | '\r' :: '\n' :: rest => some rest
  | _ => none

/-- What follows the line break of a marker: the id, the status and the rest after its line. -/
def readMarker (text : Text) : Option (Text × Text × Text) :=
  if (RESPONSE_MARKER ++ [' ']).isPrefixOf text then
    let text := text.drop (RESPONSE_MARKER.length + 1)
    if (text.takeWhile Json.isDigit).isEmpty then none
    else
      match text.dropWhile Json.isDigit with
      | ' ' :: after =>
          match readStatus after with
          | none => none
          | some (status, after) => (readBreak after).map fun rest => (text.takeWhile Json.isDigit, status, rest)
      | _ => none
  else none

/-- The text before the next marker, and what the marker says. -/
def nextMarker : Text -> Option (Text × Text × Text × Text)
  | [] => none
  | char :: rest =>
      match (if char = '\n' then readMarker rest else none) with
      | some (id, status, rest) => some ([], id, status, rest)
      | none => (nextMarker rest).map fun (segment, marker) => (char :: segment, marker)

/-- split(/\r?\n/) -/
def splitLines : Text -> List Text
  | [] => [[]]
  | '\n' :: rest => [] :: splitLines rest
  | '\r' :: '\n' :: rest => [] :: splitLines rest
  | char :: rest =>
      match splitLines rest with
      | [] => [[char]]
      | line :: lines => (char :: line) :: lines

/-- The text before the first empty line, and after it. -/
def splitHead : Text -> Option (Text × Text)
  | [] => none
  | char :: rest =>
      match (readBreak (char :: rest)).bind readBreak with
      | some body => some ([], body)
      | none => (splitHead rest).map fun (head, body) => (char :: head, body)

def trim (text : Text) : Text := ((text.dropWhile isWhitespace).reverse.dropWhile isWhitespace).reverse

/-- Headers read so far, and the names that came again. -/
structure ReadHeaders where
  headers : List (Text × Text)
  repeated : List Text

def readHeader (found : ReadHeaders) (line : Text) : ReadHeaders :=
  if (line.takeWhile (· ≠ ':')).isEmpty ∨ ':' ∉ line then found
  else
    let name := toLowerCase (trim (line.takeWhile (· ≠ ':')))
    if name ∈ found.headers.map Prod.fst then
      { found with repeated := if name ∈ found.repeated then found.repeated else found.repeated ++ [name] }
    else { found with headers := found.headers ++ [(name, trim ((line.dropWhile (· ≠ ':')).drop 1))] }

def httpStart : Text := "HTTP/".toList

/-- A response, from what curl wrote before its marker. -/
def readResponse (segment status : Text) : RegistryResponse :=
  if httpStart.isPrefixOf segment then
    let (head, body) := match splitHead segment with
      | some (head, body) => (head, body)
      | none => (segment, [])
    let found := ((splitLines head).drop 1).foldl readHeader ⟨[], []⟩
    { status := decimalValue status
      headers := fun name => (found.headers.find? fun header => header.1 = name).map Prod.snd
      repeatedHeaders := found.repeated
      body }
  else { status := decimalValue status, headers := fun _ => none, repeatedHeaders := [], body := segment }

/-- Number(digits), as a whole double. -/
def numberOf (digits : Text) : Int := (Numerals.roundToDouble (Numerals.valueOf digits) : Nat)

/-- The responses up to the first marker that is not the expected one. -/
def readResponses : Nat -> Option (List Int) -> List (Int × RegistryResponse) -> Text -> List (Int × RegistryResponse)
  | 0, _, found, _ => found
  | fuel + 1, expected, found, text =>
      match nextMarker text with
      | none => found
      | some (segment, id, status, rest) =>
          let response := readResponse segment status
          match expected with
          | some [] => found
          | some (next :: expected) =>
              if next = numberOf id then
                readResponses fuel (some expected) (setEntry found (numberOf id) response) rest
              else found
          | none =>
              if numberOf id ∈ found.map Prod.fst then found
              else readResponses fuel none (setEntry found (numberOf id) response) rest

/-- Every marker takes characters of the output, so its length is fuel enough. -/
def parseRegistryResponses (stdout : Text) (expectedIds : Option (List Int)) : List (Int × RegistryResponse) :=
  readResponses stdout.length expectedIds [] stdout

section JobOutput

def NO_CURL_MARKER : Text := "@@DPL-NOCURL".toList

def NO_FLOCK_MARKER : Text := "@@DPL-NOFLOCK".toList

def JOB_STARTED_MARKER : Text := "@@DPL-STARTED".toList

def JOB_LATE_MARKER : Text := "@@DPL-LATE".toList

def JOB_BUSY_MARKER : Text := "@@DPL-BUSY".toList

def JOB_IDLE_MARKER : Text := "@@DPL-IDLE".toList

def JOB_FAILED_MARKER : Text := "@@DPL-FAILED".toList

def JOB_RESULT_MARKER : Text := "@@DPL-JOB".toList

inductive RegistryJobOutput where
  | nocurl
  | noflock
  | failed
  | busy
  | started
  | late
  | idle (token : Option Text) (responses : List (Int × RegistryResponse))
  | unknown

def includes (text : Text) : Text -> Bool
  | [] => text.isEmpty
  | char :: rest => text.isPrefixOf (char :: rest) || includes text rest

/-- What stands after the first occurrence of a text. -/
def afterFirst (text : Text) : Text -> Text
  | [] => []
  | char :: rest => if text.isPrefixOf (char :: rest) then (char :: rest).drop text.length else afterFirst text rest

/-- The token of a result file and the rest after its line. -/
def readJobHeader (after : Text) : Option (Text × Text) := do
  let after <- readBreak after
  if (JOB_RESULT_MARKER ++ [' ']).isPrefixOf after then
    let after := after.drop (JOB_RESULT_MARKER.length + 1)
    if (after.takeWhile isLowerHex).isEmpty then none
    else (readBreak (after.dropWhile isLowerHex)).map fun rest => (after.takeWhile isLowerHex, rest)
  else none

def statusStart : Text := "@@DPL-".toList

def parseRegistryJobOutput (stdout : Text) (expectedIds : Option (List Int)) : RegistryJobOutput :=
  if includes NO_CURL_MARKER stdout then .nocurl
  else if includes NO_FLOCK_MARKER stdout then .noflock
  else
    let first := ((splitLines stdout).find? statusStart.isPrefixOf).map trim
    if first = some JOB_BUSY_MARKER then .busy
    else if first = some JOB_FAILED_MARKER then .failed
    else if first = some JOB_STARTED_MARKER then .started
    else if first = some JOB_LATE_MARKER then .late
    else if first = some JOB_IDLE_MARKER then
      match readJobHeader (afterFirst JOB_IDLE_MARKER stdout) with
      | none => .idle none []
      | some (token, rest) => .idle (some token) (parseRegistryResponses rest expectedIds)
    else .unknown

end JobOutput

end RegistryRetention
end Dokploy
