import Mathlib.Algebra.GroupWithZero.Nat
import Dokploy.Foundation.Json

namespace Dokploy
namespace RegistryRetention

open Foundation

/-!
# Tags, digests and what the registry answers

The names a registry knows, the responses it gives, and what is read out of a
response: the tags of a page, the page after it, and the children of a manifest.
Everything that cannot be read for certain is none, and none is never taken for an
empty list.
-/

abbrev Text := List Char

def DPL_TAG_PREFIX : Text := "dpl-".toList

def BUILD_REGISTRY_KEEP_DPL_TAGS : Int := 5

def isLowerHex (char : Char) : Bool := ('a' ≤ char && char ≤ 'f') || ('0' ≤ char && char ≤ '9')

def isTagStart (char : Char) : Bool :=
  ('A' ≤ char && char ≤ 'Z') || ('a' ≤ char && char ≤ 'z') || ('0' ≤ char && char ≤ '9') || char == '_'

def isTagPart (char : Char) : Bool := isTagStart char || char == '.' || char == '-'

def isValidTag : Text -> Bool
  | [] => false
  | char :: rest => isTagStart char && decide (rest.length ≤ 127) && rest.all isTagPart

def digestPrefix : Text := "sha256:".toList

def isValidDigest (digest : Text) : Bool :=
  digestPrefix.isPrefixOf digest && decide ((digest.drop 7).length = 64) && (digest.drop 7).all isLowerHex

def isDplTag (tag : Text) : Bool := DPL_TAG_PREFIX.isPrefixOf tag

/-- A response: its headers by lowercased name, the first value of each. -/
structure RegistryResponse where
  status : Nat
  headers : Text -> Option Text
  repeatedHeaders : List Text
  body : Text

def contentDigest : Text := "docker-content-digest".toList

def contentLength : Text := "content-length".toList

def contentType : Text := "content-type".toList

def linkHeader : Text := "link".toList

def RELIED_ON_HEADERS : List Text := [contentDigest, contentLength, contentType]

def hasRepeatedHeader (response : RegistryResponse) (names : List Text) : Bool :=
  names.any fun name => response.repeatedHeaders.contains name

def decimalValue (digits : Text) : Nat := digits.foldl (fun value digit => value * 10 + (digit.toNat - 48)) 0

def isDecimal (text : Text) : Bool := !text.isEmpty && text.all Json.isDigit

/-- Buffer.byteLength(text, "utf8") -/
def byteLength (text : Text) : Nat := (text.map Char.utf8Size).sum

def isBodyTruncated (response : RegistryResponse) : Bool :=
  match response.headers contentLength with
  | none => false
  | some announced => isDecimal announced && byteLength response.body != decimalValue announced

/-- JSON.parse, where an object or an array is asked for. -/
def parseObject (body : Text) : Option Json :=
  match Json.parse body with
  | some (.object entries) => some (.object entries)
  | some (.array items) => some (.array items)
  | _ => none

def tagsKey : Text := "tags".toList

/-- The names of an item of a tag list: one, when it is a string. -/
def tagName : Json -> Option Text
  | .string tag => some tag
  | _ => none

def listedNames (body : Text) : Option (List Text) :=
  match parseObject body with
  | none => none
  | some parsed =>
      match parsed.field tagsKey with
      | none => some []
      | some .null => some []
      | some (.array tags) => some (tags.filterMap tagName)
      | some _ => none

def parseTagList (body : Text) : Option (List Text) := (listedNames body).map (·.filter isValidTag)

section LinkHeader

structure LinkValue where
  target : Text
  params : List (Text × Text)

def isBlank (char : Char) : Bool := char == ' ' || char == '\t'

def skipBlank (text : Text) : Text := text.dropWhile isBlank

/-- \s -/
def isWhitespace (char : Char) : Bool :=
  (9 ≤ char.toNat && char.toNat ≤ 13) || (0x2000 ≤ char.toNat && char.toNat ≤ 0x200A) ||
    [0x20, 0xA0, 0x1680, 0x2028, 0x2029, 0x202F, 0x205F, 0x3000, 0xFEFF].contains char.toNat

def tokenMarks : Text := "!#$%&'*+-.^_`|~".toList

def isTokenChar (char : Char) : Bool :=
  ('0' ≤ char && char ≤ '9') || ('A' ≤ char && char ≤ 'Z') || ('a' ≤ char && char ≤ 'z') || tokenMarks.contains char

def toLowerCase (text : Text) : Text := text.map Char.toLower

/-- The rest of a quoted value, after its opening quote. -/
def readQuoted : Text -> Option (Text × Text)
  | [] => none
  | '"' :: rest => some ([], rest)
  | '\\' :: char :: rest => (readQuoted rest).map fun (value, rest) => (char :: value, rest)
  | char :: rest => (readQuoted rest).map fun (value, rest) => (char :: value, rest)

def endsToken (char : Char) : Bool := isWhitespace char || char == ';' || char == ','

/-- The value after the name of a parameter; empty when there is none. -/
def readParamValue (text : Text) : Option (Text × Text) :=
  match text with
  | '=' :: rest =>
      match skipBlank rest with
      | '"' :: rest => readQuoted rest
      | rest => some (rest.takeWhile (!endsToken ·), rest.dropWhile (!endsToken ·))
  | text => some ([], text)

/-- The parameters of a link, up to a comma or the end.  The first value of a parameter wins. -/
def readParams : Nat -> List (Text × Text) -> Text -> Option (List (Text × Text) × Text)
  | 0, _, _ => none
  | fuel + 1, params, text =>
      match skipBlank text with
      | [] => some (params, [])
      | ',' :: rest => some (params, ',' :: rest)
      | ';' :: rest =>
          let rest := skipBlank rest
          let name := rest.takeWhile isTokenChar
          if name.isEmpty then none
          else
            match readParamValue (skipBlank (rest.dropWhile isTokenChar)) with
            | none => none
            | some (value, rest) =>
                let key := toLowerCase name
                let params := if key ∈ params.map Prod.fst then params else params ++ [(key, value)]
                readParams fuel params rest
      | _ => none

def readLinks : Nat -> Text -> Option (List LinkValue)
  | 0, _ => none
  | fuel + 1, text =>
      match skipBlank text with
      | [] => some []
      | ',' :: rest => readLinks fuel rest
      | '<' :: rest =>
          if '>' ∈ rest then
            match readParams (rest.length + 1) [] ((rest.dropWhile (· ≠ '>')).drop 1) with
            | none => none
            | some (params, after) =>
                (readLinks fuel after).map fun links => ⟨rest.takeWhile (· ≠ '>'), params⟩ :: links
          else none
      | _ => none

/-- Every link takes characters of the header, so its length is fuel enough. -/
def parseLinkHeader (header : Text) : Option (List LinkValue) := readLinks (header.length + 1) header

inductive NextTagsPage where
  | complete
  | next (url : Text)
  | unusable (reason : Text)

structure Url where
  origin : Text
  username : Text
  password : Text
  pathname : Text
  href : Text
  /-- href, after hash was set to nothing -/
  withoutHash : Text

/-- The URL library: new URL(target, base) and decodeURIComponent, none where they throw. -/
structure UrlLibrary where
  newURL : Text -> Option Text -> Option Url
  decodeURIComponent : Text -> Option Text

def rel : Text := "rel".toList

def nextRelation : Text := "next".toList

/-- The words of a text, as split(/\s+/) gives them. -/
def wordsOf (text : Text) : List Text := text.splitOnP isWhitespace

def isNextLink (link : LinkValue) : Bool :=
  match link.params.find? fun param => param.1 = rel with
  | some (_, value) => (wordsOf (toLowerCase value)).contains nextRelation
  | none => false

def elsewhere : NextTagsPage :=
  .unusable ("its Link header points the next page somewhere other than this repository's tag listing on this " ++
    "registry").toList

def v2Path (repo : Text) : Text := "/v2/".toList ++ repo ++ "/tags/list".toList

def badHrefChar (char : Char) : Bool := isWhitespace char || char == '"' || char == '\\'

def getNextTagsPageUrl (library : UrlLibrary) (base repo : Text) (link : Option Text) : NextTagsPage :=
  match link with
  | none => .complete
  | some header =>
      match parseLinkHeader header with
      | none => .unusable "its Link header cannot be parsed".toList
      | some links =>
          match links.filter isNextLink with
          | [] => .unusable "its Link header names no next page".toList
          | [next] =>
              match library.newURL (base ++ ['/']) none with
              | none => elsewhere
              | some origin =>
                  match library.newURL next.target (some origin.href) with
                  | none => elsewhere
                  | some url =>
                      match library.decodeURIComponent url.pathname with
                      | none => elsewhere
                      | some path =>
                          if url.origin ≠ origin.origin ∨ url.username ≠ [] ∨ url.password ≠ [] then elsewhere
                          else if path ≠ v2Path repo then elsewhere
                          else if url.href.any badHrefChar then elsewhere
                          else .next url.withoutHash
          | _ => .unusable "its Link header names more than one next page".toList

end LinkHeader

section Manifests

def IMAGE_MANIFEST_MEDIA_TYPES : List Text :=
  ["application/vnd.docker.distribution.manifest.v2+json".toList, "application/vnd.oci.image.manifest.v1+json".toList]

def manifestsKey : Text := "manifests".toList

def mediaTypeKey : Text := "mediaType".toList

def digestKey : Text := "digest".toList

/-- Why this child may have children of its own. -/
def nestedChildReason (entry : Json) : Option Text :=
  match entry.field mediaTypeKey with
  | some (.string mediaType) =>
      if mediaType = [] then some "a child has no media type".toList
      else if mediaType ∈ IMAGE_MANIFEST_MEDIA_TYPES then none
      else some ("a child is ".toList ++ mediaType)
  | _ => some "a child has no media type".toList

def getNestedIndexReason (body : Text) : Option Text :=
  match Json.parse body with
  | none => none
  | some parsed =>
      match parsed.field manifestsKey with
      | some (.array manifests) => manifests.findSome? nestedChildReason
      | _ => none

def childDigest (entry : Json) : Option Text :=
  match entry.field digestKey with
  | some (.string digest) => if isValidDigest digest then some digest else none
  | _ => none

/-- The digests of all children, if every child has one. -/
def childDigests : List Json -> Option (List Text)
  | [] => some []
  | entry :: entries =>
      match childDigest entry with
      | none => none
      | some digest => (childDigests entries).map (digest :: ·)

def getManifestChildDigests (body : Text) : Option (List Text) :=
  match getNestedIndexReason body with
  | some _ => none
  | none =>
      match Json.parse body with
      | some (.object entries) =>
          match (Json.object entries).field manifestsKey with
          | none => some []
          | some (.array manifests) => childDigests manifests
          | some _ => none
      | _ => none

end Manifests

end RegistryRetention
end Dokploy
