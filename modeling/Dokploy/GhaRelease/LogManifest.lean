import Dokploy.Foundation.Unicode

namespace Dokploy
namespace GhaRelease

open Foundation
open Foundation.Unicode

/-!
# The manifest in the job log

The release job writes its manifest on one line of its log: a marker, then the
UTF-8 bytes of the manifest with one letter for each half byte.  The line is
found again among all the lines of the job logs, and the logs are used only when
every marker line carries the same text.

Texts are lists of UTF-16 code units, so that the lengths and the lone
surrogates are those of the language.
-/

/-- A text that is written in the source. -/
def units (text : String) : Units := utf16 text.toList

def LOG_MARKER : Units := units "dokploy-release/v1 "

def MANIFEST_MAX_BYTES : Nat := 64 * 1024

def MAX_ENCODED : Nat := MANIFEST_MAX_BYTES * 2

def BOM : UInt16 := 0xFEFF

/-- The letter of half a byte is that many letters after this one. -/
def A : Nat := 103

def ASTERISK : UInt16 := 42

def NEWLINE : UInt16 := 10

def CARRIAGE_RETURN : UInt16 := 13

def letter (nibble : Nat) : UInt16 := UInt16.ofNat (A + nibble)

/-- The payload for a manifest text: one letter for each half byte. -/
def encodeMarkerPayload (text : Units) : Units :=
  (utf8 (characters text)).flatMap fun byte => [letter (byte.toNat >>> 4), letter (byte.toNat &&& 15)]

def isNibble (unit : UInt16) : Bool := decide (A ≤ unit.toNat ∧ unit.toNat ≤ 118)

def byteOf (high low : UInt16) : UInt8 := UInt8.ofNat (((high.toNat - A) <<< 4) ||| (low.toNat - A))

/-- The bytes of a payload, two letters each. -/
def payloadBytes : Units -> List UInt8
  | high :: low :: rest => byteOf high low :: payloadBytes rest
  | _ => []

/-- The text of a payload, when it is exactly what `encodeMarkerPayload` writes. -/
def decodeMarkerPayload (payload : Units) : Option Units :=
  if payload.length = 0 ∨ payload.length % 2 ≠ 0 then none
  else if !payload.all isNibble then none
  else
    let text := utf16 (read (payloadBytes payload))
    if encodeMarkerPayload text = payload then some text else none

def isDigit (unit : UInt16) : Bool := decide (48 ≤ unit.toNat ∧ unit.toNat ≤ 57)

/-- Match one unit after the other; what is left over. -/
def matchUnits : List (UInt16 -> Bool) -> Units -> Option Units
  | [], rest => some rest
  | _ :: _, [] => none
  | test :: tests, unit :: rest => if test unit then matchUnits tests rest else none

/-- `2026-11-03T12:34:56` -/
def dateTime : List (UInt16 -> Bool) :=
  [isDigit, isDigit, isDigit, isDigit, (· == 45), isDigit, isDigit, (· == 45), isDigit, isDigit, (· == 84),
    isDigit, isDigit, (· == 58), isDigit, isDigit, (· == 58), isDigit, isDigit]

/-- Pass over a fraction of a second, where there is one. -/
def skipFraction (line : Units) : Units :=
  match line with
  | 46 :: digit :: rest => if isDigit digit then rest.dropWhile isDigit else line
  | _ => line

/-- The rest of a line after the timestamp in front of it. -/
def afterTimestamp (line : Units) : Option Units :=
  (matchUnits dateTime line).bind fun rest => matchUnits [(· == 90), (· == 32)] (skipFraction rest)

/-- The line without a byte order mark and a timestamp in front. -/
def unstamped (line : Units) : Units :=
  let unbommed := if line.head? = some BOM then line.tail else line
  (afterTimestamp unbommed).getD unbommed

/-- Without one carriage return at the end. -/
def withoutReturn (line : Units) : Units :=
  if line.getLast? = some CARRIAGE_RETURN then line.dropLast else line

inductive Line where
  | text (text : Units)
  | masked
  | malformed
  deriving DecidableEq, Repr

def readPayload (encoded : Units) : Line :=
  if encoded.length = 0 ∨ MAX_ENCODED < encoded.length then .malformed
  else if encoded.contains ASTERISK && encoded.all fun unit => isNibble unit || unit == ASTERISK then .masked
  else
    match decodeMarkerPayload encoded with
    | none => .malformed
    | some text => .text text

/-- What a line says, when it is a marker line. -/
def readLine (raw : Units) : Option Line :=
  let line := withoutReturn (unstamped raw)
  if LOG_MARKER.isPrefixOf line then some (readPayload (line.drop LOG_MARKER.length)) else none

def markerLines (log : Units) : List Line := (log.splitOn NEWLINE).filterMap readLine

inductive LogManifestCode where
  | none
  | ambiguous
  | invalid
  | masked
  deriving DecidableEq, Repr

inductive LogManifest where
  | ok (text : Units)
  | failed (code : LogManifestCode) (message : String)
  deriving DecidableEq, Repr

def Line.text? : Line -> Option Units
  | .text found => some found
  | _ => none

/-- The one manifest that the marker lines carry. -/
def manifestOf (lines : List Line) : LogManifest :=
  if Line.masked ∈ lines then
    .failed .masked
      ("The runner masked part of the manifest in the job log: a repository, environment or organization secret has a value that appears in it. " ++
        "That includes a short secret (a port, a PIN, a word) that happens to occur in the encoded text. " ++
        "Move values that are image digests, registry hosts, repository names or service keys out of secrets, and avoid very short secrets (keep only real credentials there), then run the release again.")
  else if Line.malformed ∈ lines then
    .failed .invalid "A manifest marker line of the job log is not a valid payload"
  else
    match (lines.filterMap Line.text?).eraseDups with
    | [] => .failed .none "The job log has no manifest marker"
    | [text] => .ok text
    | _ => .failed .ambiguous "The job log carries more than one manifest"

/-- The one manifest the logs of the release jobs carry. -/
def extractLogManifest (logs : List Units) : LogManifest := manifestOf (logs.flatMap markerLines)

end GhaRelease
end Dokploy
