import Mathlib.Data.List.Sort
import Dokploy.Foundation.FormUrl
import Dokploy.Foundation.Numerals
import Dokploy.Foundation.Stringify

namespace Dokploy
namespace McpOauth

open Foundation
open Foundation.Unicode

/-!
# The consent proof of an authorize request

The consent page mints a proof when a user approves a client, and the authorize
endpoint lets a request through only with a proof for its own parameters.  The
proof is an expiry, a dot and a signature.  The signature covers the approving
user, every parameter the provider acts on, and the expiry.

The query of a request was decoded from a URL, so its texts consist of whole
characters.  The payload of a proof comes from a procedure call, and its texts
may be any lists of code units.  The signature function is left open: it turns a
secret and the bytes of a message into a text.
-/

def MCP_AUTHORIZE_PAGE_PATH : List Char := "/mcp/authorize".toList

def SPACE : UInt16 := 0x20

def DOT : UInt16 := 0x2E

structure ConsentProofPayload where
  userId : Units
  clientId : Units
  redirectUri : Units
  state : Units
  codeChallenge : Units
  scope : Units
  deriving DecidableEq

/-- The words of a scope text, without the empty ones. -/
def scopeWords (scope : Units) : List Units := (scope.splitOn SPACE).filter (· ≠ [])

/-- The same words in the order of their code units. -/
def canonicalScope (scope : Units) : Units :=
  [SPACE].intercalate ((scopeWords scope).insertionSort (· ≤ ·))

/-- JSON.stringify of the signed fields.  Their boundaries are those of the JSON
texts, so no field can take over a part of its neighbour. -/
def consentProofMessage (payload : ConsentProofPayload) (exp : Int) : List Char :=
  Stringify.array
    [Stringify.quote payload.userId, Stringify.quote payload.clientId, Stringify.quote payload.redirectUri,
      Stringify.quote payload.state, Stringify.quote payload.codeChallenge,
      Stringify.quote (canonicalScope payload.scope), Numerals.numberText exp]

/-- Buffer.from(text) -/
def bytesOf (text : Units) : List UInt8 := utf8 (characters text)

/-- White space and line terminators of the language. -/
def isWhiteSpace (unit : UInt16) : Bool :=
  (9 ≤ unit && unit ≤ 13) || (0x2000 ≤ unit && unit ≤ 0x200A) ||
    [0x20, 0xA0, 0x1680, 0x2028, 0x2029, 0x202F, 0x205F, 0x3000, 0xFEFF].contains unit

def isDigit (unit : UInt16) : Bool := 48 ≤ unit && unit ≤ 57

/-- The sign in front of the digits, and what follows it. -/
def splitSign : Units -> Bool × Units
  | 45 :: rest => (true, rest)
  | 43 :: rest => (false, rest)
  | text => (false, text)

/-- Number.parseInt(text, 10), or nothing for NaN.  What follows the digits is
ignored. -/
def parseInt (text : Units) : Option Int :=
  let signed := splitSign (text.dropWhile isWhiteSpace)
  let digits := signed.2.takeWhile isDigit
  if digits = [] then none
  else
    let magnitude := Numerals.roundToDouble (digits.foldl (fun value digit => value * 10 + (digit.toNat - 48)) 0)
    some (if signed.1 then -magnitude else magnitude)

def isFinite (value : Int) : Bool := decide (value.natAbs < 2 ^ 1024)

section Signing

variable (hmacSha256 : Units -> List UInt8 -> Units)

def sign (message : List Char) (secret : Units) : Units := hmacSha256 secret (utf8 message)

def createConsentProof (payload : ConsentProofPayload) (secret : Units) (expiresAt : Int) : Units :=
  utf16 (Numerals.numberText expiresAt) ++ DOT :: sign hmacSha256 (consentProofMessage payload expiresAt) secret

/-- `now` is the clock of the server. -/
def verifyConsentProof (proof : Units) (expected : ConsentProofPayload) (secret : Units) (now : Int) : Bool :=
  match proof.findIdx? (· == DOT) with
  | none => false
  | some dot =>
      if dot = 0 then false
      else
        match parseInt (proof.take dot) with
        | none => false
        | some exp =>
            if isFinite exp = false ∨ exp < now then false
            else
              bytesOf (proof.drop (dot + 1)) ==
                bytesOf (sign hmacSha256 (consentProofMessage expected exp) secret)

end Signing

/-- A value of the parsed query.  A repeated key has a list, which is no text. -/
inductive QueryValue where
  | text (chars : List Char)
  | other
  deriving DecidableEq

/-- The query of a request, in the order of its keys. -/
structure AuthorizeQuery where
  entries : List (List Char × QueryValue)
  distinct : (entries.map Prod.fst).Nodup

/-- asString(query.key) -/
def AuthorizeQuery.string (query : AuthorizeQuery) (key : String) : Units :=
  match query.entries.find? fun entry => entry.1 == key.toList with
  | some (_, .text chars) => utf16 chars
  | _ => []

inductive McpAuthorizeDecision where
  | allow
  | redirect (location : List Char)
  | reject (error : String) (errorDescription : String)
  deriving DecidableEq

/-- params.set(key, value) -/
def setParam (params : List (List Char × List Char)) (key value : List Char) : List (List Char × List Char) :=
  match params with
  | [] => [(key, value)]
  | param :: rest =>
      if param.1 = key then (key, value) :: rest.filter fun other => other.1 != key
      else param :: setParam rest key value

/-- The parameters that an anonymous request takes along to the consent page. -/
def keptParams (query : AuthorizeQuery) : List (List Char × List Char) :=
  query.entries.foldl (fun params entry =>
    match entry.2 with
    | .text value => if entry.1 ≠ "consent".toList then setParam params entry.1 value else params
    | .other => params) []

/-- The parameters that the signed-in request carries for the user. -/
def expectedPayload (query : AuthorizeQuery) (userId : Units) : ConsentProofPayload where
  userId := userId
  clientId := query.string "client_id"
  redirectUri := query.string "redirect_uri"
  state := query.string "state"
  codeChallenge := query.string "code_challenge"
  scope := query.string "scope"

def evaluateMcpAuthorizeGate (hmacSha256 : Units -> List UInt8 -> Units) (query : AuthorizeQuery)
    (userId : Option Units) (secret : Units) (now : Int) : McpAuthorizeDecision :=
  match userId with
  | none => .redirect (MCP_AUTHORIZE_PAGE_PATH ++ '?' :: FormUrl.ascii (FormUrl.serialize (keptParams query)))
  | some userId =>
      if verifyConsentProof hmacSha256 (query.string "consent") (expectedPayload query userId) secret now = true then
        .allow
      else .reject "consent_required" "Authorization must start from /mcp/authorize"

/-- One call of `createConsentProof`.  An expiry is a whole number. -/
structure Approval where
  payload : ConsentProofPayload
  expiresAt : Int
  isDouble : Numerals.IsDouble expiresAt

/-- The approval is the user's own, for the parameters of the query, and lasts. -/
structure Approval.Covers (approval : Approval) (query : AuthorizeQuery) (userId : Units) (now : Int) : Prop where
  user : approval.payload.userId = userId
  client : approval.payload.clientId = query.string "client_id"
  redirect : approval.payload.redirectUri = query.string "redirect_uri"
  state : approval.payload.state = query.string "state"
  challenge : approval.payload.codeChallenge = query.string "code_challenge"
  scope : (scopeWords approval.payload.scope).Perm (scopeWords (query.string "scope"))
  lasts : now ≤ approval.expiresAt

/-- A signature at the end of a text was issued for one of the approvals. -/
def Unforged (hmacSha256 : Units -> List UInt8 -> Units) (secret : Units) (approvals : List Approval)
    (text : Units) : Prop :=
  forall start given message, text = start ++ given -> bytesOf given = bytesOf (hmacSha256 secret message) ->
    Exists fun approval => approval ∈ approvals ∧
      sign hmacSha256 (consentProofMessage approval.payload approval.expiresAt) secret = hmacSha256 secret message

/-- The parameters of the query that have one value, but for the proof. -/
def singleValued (query : AuthorizeQuery) : List (List Char × List Char) :=
  query.entries.filterMap fun entry =>
    match entry.2 with
    | .text value => if entry.1 ≠ "consent".toList then some (entry.1, value) else none
    | .other => none

/-- The path of a relative location, and the parameters a page reads from it. -/
def pathOf (location : List Char) : List Char := location.takeWhile (· ≠ '?')

def paramsOf (location : List Char) : List (List Char × List Char) :=
  FormUrl.parse (((location.dropWhile (· ≠ '?')).drop 1).takeWhile (· ≠ '#'))

end McpOauth
end Dokploy
