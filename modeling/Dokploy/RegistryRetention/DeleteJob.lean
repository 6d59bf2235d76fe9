import Dokploy.RegistryRetention.CurlOutput
import Dokploy.Foundation.Lines

namespace Dokploy
namespace RegistryRetention

open Foundation

/-!
# The detached delete job

The job is a shell script that walks a config line by line.  A line that starts an
entry ends the one before; what stands between two section lines is a curl config,
and a guard's config is run when the next section starts.  The script knows nothing
of the entries it was written from but these lines.
-/

section Config

/-- A tag that is read again right before the deletion. -/
structure DeleteGuard where
  url : Text
  optional : Bool
deriving DecidableEq, Repr

structure DeleteJobEntry where
  id : Int
  digest : Text
  deleteUrl : Text
  guards : List DeleteGuard
deriving DecidableEq, Repr

/-- Username and password, when they are given. -/
structure Credentials where
  username : Option Text
  password : Option Text
deriving DecidableEq, Repr

def MANIFEST_ACCEPT : Text :=
  ("application/vnd.docker.distribution.manifest.v2+json, " ++
    "application/vnd.docker.distribution.manifest.list.v2+json, " ++
    "application/vnd.oci.image.manifest.v1+json, application/vnd.oci.image.index.v1+json").toList

def DELETE_REQUEST_MAX_TIME_SECONDS : Nat := 240

def DELETE_JOB_END_MARKER : Text := "# @@DPL-END".toList

def ENTRY_MARKER : Text := "# @@DPL-ENTRY".toList

def GUARD_SECTION_MARKER : Text := "# @@DPL-GUARD".toList

def DELETE_SECTION_MARKER : Text := "# @@DPL-DELETE".toList

def escapeQuoted (char : Char) : Text := if char = '\\' ∨ char = '"' then ['\\', char] else [char]

/-- A value that can be written on one line of a config. -/
def isWritable (value : Text) : Bool := value.all fun char => char != '\r' && char != '\n' && char != '\x00'

def curlConfigQuote (value : Text) : Option Text :=
  if isWritable value then some ('"' :: value.flatMap escapeQuoted ++ ['"']) else none

/-- username || password -/
def Credentials.given (credentials : Credentials) : Bool :=
  !(credentials.username.getD []).isEmpty || !(credentials.password.getD []).isEmpty

def userLines (credentials : Credentials) : Option (List Text) :=
  if credentials.given then
    (curlConfigQuote (credentials.username.getD [] ++ ':' :: credentials.password.getD [])).map fun user =>
      ["user = ".toList ++ user]
  else some []

def writeOut (id : Int) : Text :=
  "write-out = \"\\n@@DPL ".toList ++ Numerals.numberText id ++ " %\x7bhttp_code\x7d\\n\"".toList

def requestLines (credentials : Credentials) (timeoutSeconds : Nat) (request : RegistryRequest) : Option (List Text) := do
  let url <- curlConfigQuote request.url
  let user <- userLines credentials
  let accept <- curlConfigQuote ("Accept: ".toList ++ MANIFEST_ACCEPT)
  some (["url = ".toList ++ url, "silent".toList, "globoff".toList,
      "max-time = ".toList ++ Numerals.decimal timeoutSeconds] ++ user ++
    (if request.method = .HEAD then ["head".toList] else []) ++
    (if request.method = .DELETE then ["request = \"DELETE\"".toList] else []) ++
    (if request.manifest then ["header = ".toList ++ accept] else []) ++
    (if request.includeHeaders then ["include".toList] else []) ++ [writeOut request.id])

/-- The blocks of several requests, with a line between two of them. -/
def joinRequests : List (List Text) -> List Text
  | [] => []
  | [block] => block
  | block :: blocks => block ++ "next".toList :: joinRequests blocks

def buildRegistryCurlConfig (requests : List RegistryRequest) (credentials : Credentials) (timeoutSeconds : Nat) :
    Option Text :=
  (requests.mapM (requestLines credentials timeoutSeconds)).map fun blocks => Lines.join (joinRequests blocks)

def guardRequest (guard : DeleteGuard) : RegistryRequest := ⟨0, .GET, guard.url, true, true⟩

def deleteRequest (entry : DeleteJobEntry) : RegistryRequest := ⟨entry.id, .DELETE, entry.deleteUrl, false, false⟩

def guardConfig (credentials : Credentials) (guard : DeleteGuard) : Option Text :=
  buildRegistryCurlConfig [guardRequest guard] credentials 20

def deleteConfig (credentials : Credentials) (entry : DeleteJobEntry) : Option Text :=
  buildRegistryCurlConfig [deleteRequest entry] credentials DELETE_REQUEST_MAX_TIME_SECONDS

def optionalText (guard : DeleteGuard) : Text := if guard.optional then ['1'] else ['0']

def guardPart (credentials : Credentials) (guard : DeleteGuard) : Option Text :=
  (guardConfig credentials guard).map fun config =>
    GUARD_SECTION_MARKER ++ ' ' :: optionalText guard ++ '\n' :: config

def entryLine (entry : DeleteJobEntry) : Text :=
  ENTRY_MARKER ++ ' ' :: Numerals.numberText entry.id ++ ' ' :: entry.digest ++
    ' ' :: Numerals.decimal entry.guards.length

def entryPart (credentials : Credentials) (entry : DeleteJobEntry) : Option Text :=
  if isValidDigest entry.digest = false then none
  else if entry.guards.length = 0 then none
  else do
    let guards <- entry.guards.mapM (guardPart credentials)
    let config <- deleteConfig credentials entry
    some (entryLine entry ++ '\n' :: guards.flatten ++ DELETE_SECTION_MARKER ++ '\n' :: config)

/-- The config of a job; none when it cannot be written. -/
def buildRegistryDeleteJobConfig (entries : List DeleteJobEntry) (credentials : Credentials) : Option Text :=
  (entries.mapM (entryPart credentials)).map fun parts => parts.flatten ++ DELETE_JOB_END_MARKER ++ ['\n']

end Config

section Script

/-- What the script asks of the machine it runs on. -/
inductive JobOp where
  /-- A curl whose output is captured, with its exit status. -/
  | guardCurl (config : Text)
  /-- A curl that writes to the result. -/
  | deleteCurl (config : Text)
  /-- date +%s -/
  | date
  /-- find "$S" -newer "$Y" -/
  | find
deriving DecidableEq, Repr

abbrev JobAnswer : JobOp -> Type
  | .guardCurl _ => Nat × Text
  | .deleteCurl _ => Text
  | .date => Int
  | .find => Text

abbrev Script (Result : Type) := Program JobOp JobAnswer Empty Result

def Script.ask (op : JobOp) : Script (JobAnswer op) := Program.perform op

/-- What $(...) makes of an output. -/
def captured (output : Text) : Text := ((output.filter (· ≠ '\x00')).reverse.dropWhile (· = '\n')).reverse

/-- The lines that printf "%s\n" prints. -/
def printed (text : Text) : List Text := Lines.read (text ++ ['\n'])

def isField (char : Char) : Bool := char != ' ' && char != '\t' && char != '\n'

def fieldsFrom (field : Text) : Text -> List Text
  | [] => if field.isEmpty then [] else [field]
  | char :: rest =>
      if isField char then fieldsFrom (field ++ [char]) rest
      else if field.isEmpty then fieldsFrom [] rest
      else field :: fieldsFrom [] rest

/-- A positional parameter after set -- $line. -/
def parameter (line : Text) (index : Nat) : Text := (fieldsFrom [] line).getD (index - 1) []

/-- ^@@DPL [0-9]+ code$ -/
def isMarkerLine (code line : Text) : Bool :=
  (RESPONSE_MARKER ++ [' ']).isPrefixOf line &&
    (let rest := line.drop (RESPONSE_MARKER.length + 1)
    !(rest.takeWhile Json.isDigit).isEmpty && decide (rest.dropWhile Json.isDigit = ' ' :: code))

def digestHeaderName : Text := "docker-content-digest:".toList

def isDigestLine (line : Text) : Bool := digestHeaderName.isPrefixOf (toLowerCase line)

/-- ^docker-content-digest: sha256:[a-f0-9]{64}.?$ in any case -/
def isDigestLineLoosely (line : Text) : Bool :=
  (digestHeaderName ++ ' ' :: digestPrefix).isPrefixOf (toLowerCase line) &&
    (let rest := (toLowerCase line).drop (digestHeaderName.length + 1 + digestPrefix.length)
    decide (64 ≤ rest.length) && (rest.take 64).all isLowerHex && decide (rest.length ≤ 65))

/-- What guard() makes of a captured output. -/
def guardAccepts (digest optional output : Text) : Bool :=
  if includes digest output then false
  else if optional = ['1'] ∧ (printed output).countP (isMarkerLine "404".toList) = 1 then true
  else decide ((printed output).countP (isMarkerLine "200".toList) = 1) &&
    decide ((printed output).countP isDigestLineLoosely = 1) && decide ((printed output).countP isDigestLine = 1)

def guard (digest config optional : Text) : Script Bool := do
  let answer <- Script.ask (.guardCurl config)
  pure (decide (answer.1 = 0) && guardAccepts digest optional (captured answer.2))

inductive Mode where
  | none
  | e
  | g
  | d
deriving DecidableEq, Repr

/-- The variables of the script, and what it has printed. -/
structure JobState where
  mode : Mode
  isOpen : Bool
  id : Text
  digest : Text
  gn : Text
  ok : Bool
  seen : Nat
  gblk : Text
  gopt : Text
  dblk : Text
  result : Text
deriving DecidableEq, Repr

def endsec (state : JobState) : Script JobState :=
  if state.mode = .g then
    if state.ok then do
      let good <- guard state.digest state.gblk state.gopt
      pure { state with seen := state.seen + 1, ok := good, mode := .none }
    else pure { state with seen := state.seen + 1, mode := .none }
  else pure { state with mode := .none }

def isPositive (text : Text) : Bool := isDecimal text && decide (0 < decimalValue text)

def skippedLine (id : Text) : Text := "\n@@DPL ".toList ++ id ++ " 000\n".toList

/-- The end of an entry, and whether the script goes on. -/
def finish (deadline : Int) (state : JobState) : Script (JobState × Bool) :=
  if state.isOpen = false then pure (state, true)
  else do
    let now <- Script.ask .date
    if ¬ now < deadline then pure ({ state with isOpen := false }, false)
    else do
      let touched <- Script.ask .find
      if touched ≠ [] then pure ({ state with isOpen := false }, false)
      else if state.ok = true ∧ Numerals.decimal state.seen = state.gn ∧ isPositive state.gn = true ∧ state.dblk ≠ [] then do
        let output <- Script.ask (.deleteCurl state.dblk)
        pure ({ state with isOpen := false, result := state.result ++ output }, true)
      else pure ({ state with isOpen := false, result := state.result ++ skippedLine state.id }, true)

/-- The state after the line that starts an entry. -/
def enter (line : Text) (state : JobState) : JobState :=
  { state with
    id := parameter line 3
    digest := parameter line 4
    gn := parameter line 5
    ok := true
    seen := 0
    gblk := []
    dblk := []
    mode := .e
    isOpen := true }

def collect (line : Text) (state : JobState) : JobState :=
  match state.mode with
  | .d => { state with dblk := state.dblk ++ line ++ ['\n'] }
  | .g => { state with gblk := state.gblk ++ line ++ ['\n'] }
  | _ => state

def walk (deadline : Int) : List Text -> JobState -> Script JobState
  | [], state => pure state
  | line :: lines, state =>
      if (ENTRY_MARKER ++ [' ']).isPrefixOf line then do
        let state <- endsec state
        let finished <- finish deadline state
        if finished.2 then walk deadline lines (enter line finished.1) else pure finished.1
      else if (GUARD_SECTION_MARKER ++ [' ']).isPrefixOf line then do
        let state <- endsec state
        walk deadline lines { state with gopt := parameter line 3, gblk := [], mode := .g }
      else if line = DELETE_SECTION_MARKER then do
        let state <- endsec state
        walk deadline lines { state with dblk := [], mode := .d }
      else if line = DELETE_JOB_END_MARKER then do
        let state <- endsec state
        let finished <- finish deadline state
        pure finished.1
      else walk deadline lines (collect line state)

/-- The variables before the first line; those that were not set are empty. -/
def started (token : Text) : JobState where
  mode := .none
  isOpen := false
  id := []
  digest := []
  gn := []
  ok := false
  seen := 0
  gblk := []
  gopt := []
  dblk := []
  result := JOB_RESULT_MARKER ++ ' ' :: token ++ ['\n']

/-- The job with its time in seconds, its token and its input: the result file, none when it exits at once. -/
def job (seconds : Int) (token input : Text) : Script (Option Text) :=
  if (printed (captured input)).getLast? ≠ some DELETE_JOB_END_MARKER then pure none
  else do
    let begun <- Script.ask .date
    let state <- walk (begun + seconds) (printed (captured input)) (started token)
    pure (some state.result)

end Script

end RegistryRetention
end Dokploy
