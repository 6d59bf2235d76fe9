import Dokploy.Foundation.FieldRewrites
import Dokploy.RegistryRetention.CurlOutput

namespace Dokploy
namespace ServiceSecrets

open Foundation (Json setEntry)
open Foundation.Json (Rewritten kept)
open RegistryRetention (Text isWhitespace trim)

/-!
# Secrets in tool results

The result of a tool goes through a walk that blanks the value of every field with the
name of a secret, at any depth.  A list of environment variables keeps the names in it.
The URL of a repository loses its credentials.  Whatever holds nothing to blank is given
back as it was.

The arguments of a mutation are searched for secrets that are empty, since this is how
a blanked row comes back.
-/

def MCP_SECRET_KEYS : List Text :=
  ["env", "buildArgs", "buildSecrets", "previewEnv", "previewBuildArgs", "previewBuildSecrets", "password",
    "databasePassword", "databaseRootPassword", "refreshToken", "accessToken", "idToken", "token", "secret",
    "clientSecret", "privateKey", "sshPrivateKey", "encryptionKey", "encryptionPassword", "encryptionPassword2",
    "secretAccessKey", "awsSecretAccessKey", "accessKey", "secretKey", "apiKey", "apiToken", "appPassword", "botToken",
    "appToken", "scimToken", "heartbeatKey", "licenseKey", "webhookSecret", "githubClientSecret", "githubPrivateKey",
    "githubWebhookSecret"].map String.toList

/-- Lower case as far as names in ASCII are concerned.  The Kelvin sign is the one other character
with such a letter as its lower case. -/
def toLowerCase (text : Text) : Text := text.map fun char => if char = '\u212A' then 'k' else char.toLower

def SECRET_KEYS_LOWER : List Text := MCP_SECRET_KEYS.map toLowerCase

def isSecretKey (key : Text) : Bool := SECRET_KEYS_LOWER.contains (toLowerCase key)

def BLANK : Json := .string []

def hasContent : Json -> Bool
  | .string text => !text.isEmpty
  | .array items => !items.isEmpty
  | .object entries => !entries.isEmpty
  | _ => false

def ENV_ENTRY_NAME_KEYS : List Text := ["name".toList, "key".toList]

def hasEnvValue : Json -> Bool
  | .number _ | .bool _ => true
  | value => hasContent value

def isString : Json -> Bool
  | .string _ => true
  | _ => false

/-- A field of an entry that names a variable. -/
def isName (field : Text) (value : Json) : Bool := ENV_ENTRY_NAME_KEYS.contains (toLowerCase field) && isString value

/-- The value of a walk, and whether it is another one than before. -/
abbrev Walked := Rewritten

def blankEnvField (field : Text) (value : Json) : Walked :=
  if isName field value || !hasEnvValue value then kept value else ⟨BLANK, true⟩

def blankEnvEntry : Json -> Walked
  | .string entry =>
      match entry.dropWhile (· ≠ '=') with
      | [] | [_] => kept (.string entry)
      | _ => ⟨.string (entry.takeWhile (· ≠ '=') ++ ['=']), true⟩
  | .array [] => kept (.array [])
  | .array (name :: values) =>
      if values.any hasEnvValue then ⟨.array (name :: values.map fun _ => BLANK), true⟩ else kept (.array (name :: values))
  | .object entries =>
      ⟨.object (entries.map fun entry => (entry.1, (blankEnvField entry.1 entry.2).value)),
        entries.any fun entry => (blankEnvField entry.1 entry.2).changed⟩
  | entry => kept entry

def blankEnvArray (entries : List Json) : Walked :=
  ⟨.array (entries.map fun entry => (blankEnvEntry entry).value), entries.any fun entry => (blankEnvEntry entry).changed⟩

def isLetter (char : Char) : Bool := ('a' ≤ char && char ≤ 'z') || ('A' ≤ char && char ≤ 'Z')

def isSchemeChar (char : Char) : Bool :=
  isLetter char || ('0' ≤ char && char ≤ '9') || char == '+' || char == '.' || char == '-'

/-- [^/@\s] -/
def isUserinfoChar (char : Char) : Bool := char != '/' && char != '@' && !isWhitespace char

/-- ^([a-z][a-z0-9+.-]*:\/\/), and the text behind it -/
def splitScheme : Text -> Option (Text × Text)
  | [] => none
  | first :: rest =>
      if isLetter first then
        match rest.dropWhile isSchemeChar with
        | ':' :: '/' :: '/' :: behind => some (first :: (rest.takeWhile isSchemeChar ++ "://".toList), behind)
        | _ => none
      else none

def stripUrl (url : Text) : Text :=
  match splitScheme url with
  | none => url
  | some (scheme, behind) =>
      match behind.dropWhile isUserinfoChar with
      | '@' :: host => scheme ++ host
      | _ => url

def stripUrlCredentials : Json -> Walked
  | .string url => ⟨.string (stripUrl url), stripUrl url != url⟩
  | value => kept value

def blankSecret (key : Text) (value : Json) : Walked :=
  match toLowerCase key == "env".toList, value with
  | true, .array items => blankEnvArray items
  | _, value => if hasContent value then ⟨BLANK, true⟩ else kept value

def customGitUrl : Text := "customGitUrl".toList

mutual

/-- A value has no cycles, so the set of the containers that are being walked is left out. -/
def walkSecrets : Json -> Walked
  | .array items => ⟨.array (walkItems items).1, (walkItems items).2⟩
  | .object entries => ⟨.object (walkEntries entries).1, (walkEntries entries).2⟩
  | node => kept node

def walkItems : List Json -> List Json × Bool
  | [] => ([], false)
  | item :: rest => ((walkSecrets item).value :: (walkItems rest).1, (walkSecrets item).changed || (walkItems rest).2)

def walkEntries : List (Text × Json) -> List (Text × Json) × Bool
  | [] => ([], false)
  | (key, value) :: rest =>
      let next :=
        if isSecretKey key then blankSecret key value
        else if key = customGitUrl then stripUrlCredentials value
        else walkSecrets value
      ((key, next.value) :: (walkEntries rest).1, next.changed || (walkEntries rest).2)

end

def secretsRedacted : Text := "secretsRedacted".toList

/-- The mark of a result that had something blanked. -/
def mark : Json -> Json
  | .object entries => .object (setEntry entries secretsRedacted (.bool true))
  | value => value

def redactToolResult (result : Json) : Json :=
  if (walkSecrets result).changed then mark (walkSecrets result).value else result

/-! ## Emptied secrets -/

def NULLABLE_BLOCK_KEYS : List Text :=
  ["env", "buildargs", "buildsecrets", "previewenv", "previewbuildargs", "previewbuildsecrets"].map String.toList

def EMPTIED_SECRET_MAX_DEPTH : Nat := 6

def isEmptied (entry : Text × Json) : Bool :=
  isSecretKey entry.1 &&
    match entry.2 with
    | .string value => trim value == []
    | .null => NULLABLE_BLOCK_KEYS.contains (toLowerCase entry.1)
    | _ => false

/-- if (found) return found; -/
def orElse (found : Option Text) (otherwise : Option Text) : Option Text :=
  match found with
  | some (char :: rest) => some (char :: rest)
  | _ => otherwise

mutual

def visit : Json -> Nat -> Option Text
  | .array items, depth => if depth > EMPTIED_SECRET_MAX_DEPTH then none else visitItems items (depth + 1)
  | .object entries, depth =>
      if depth > EMPTIED_SECRET_MAX_DEPTH then none
      else
        match entries.find? isEmptied with
        | some entry => some entry.1
        | none => visitValues entries (depth + 1)
  | _, _ => none

def visitItems : List Json -> Nat -> Option Text
  | [], _ => none
  | item :: rest, depth => orElse (visit item depth) (visitItems rest depth)

def visitValues : List (Text × Json) -> Nat -> Option Text
  | [], _ => none
  | (_, value) :: rest, depth => orElse (visit value depth) (visitValues rest depth)

end

def findEmptiedSecretField (args : Json) : Option Text := visit args 0

/-! ## The walk as a rewriter of fields -/

/-- The fields below which the walk does not look. -/
def stops (key : Text) : Bool := isSecretKey key || key == customGitUrl

def redactField (key : Text) (value : Json) : Walked :=
  if isSecretKey key then blankSecret key value else stripUrlCredentials value

theorem walkSecrets_eq_rewrite (node : Json) : walkSecrets node = Json.rewrite stops redactField node := by
  induction node using Json.induct with
  | null | bool | number | string => rfl
  | array items ih =>
    have same : walkItems items = Json.rewriteItems stops redactField items := by
      induction items with
      | nil => rfl
      | cons item rest inner =>
        rw [walkItems, Json.rewriteItems, ih item List.mem_cons_self,
          inner fun other present => ih other (List.mem_cons_of_mem item present)]
    rw [walkSecrets, Json.rewrite, same]
  | object entries ih =>
    have same : walkEntries entries = Json.rewriteEntries stops redactField entries := by
      induction entries with
      | nil => rfl
      | cons entry rest inner =>
        obtain ⟨key, value⟩ := entry
        rw [walkEntries, Json.rewriteEntries, ih (key, value) List.mem_cons_self,
          inner fun other present => ih other (List.mem_cons_of_mem _ present)]
        by_cases secret : isSecretKey key = true
        · simp [stops, redactField, secret]
        · by_cases isUrl : key = customGitUrl
          · simp [stops, redactField, isUrl]
          · simp [stops, secret, isUrl]
    rw [walkSecrets, Json.rewrite, same]

/-! ## Secrets that differ -/

/-- Two values of an environment variable: the same, or neither is empty. -/
def ValuesMatch (value other : Json) : Prop := value = other ∨ (hasEnvValue value = true ∧ hasEnvValue other = true)

/-- Two entries of a list of variables with the same names. -/
inductive EntriesMatch : Json -> Json -> Prop where
  | same (entry : Json) : EntriesMatch entry entry
  | assignment {key value other : Text} : '=' ∉ key -> value ≠ [] -> other ≠ [] ->
      EntriesMatch (.string (key ++ '=' :: value)) (.string (key ++ '=' :: other))
  | pair {name : Json} {values others : List Json} : List.Forall₂ ValuesMatch values others ->
      EntriesMatch (.array (name :: values)) (.array (name :: others))
  | object {entries others : List (Text × Json)} :
      List.Forall₂ (fun entry other => entry.1 = other.1 ∧ ValuesMatch entry.2 other.2 ∧
        (isName entry.1 entry.2 = true ∨ isName other.1 other.2 = true -> entry.2 = other.2)) entries others ->
      EntriesMatch (.object entries) (.object others)

def isArray : Json -> Bool
  | .array _ => true
  | _ => false

/-- Two values of a field with the name of a secret. -/
inductive SecretsMatch (key : Text) : Json -> Json -> Prop where
  | same (value : Json) : SecretsMatch key value value
  | filled {value other : Json} : hasContent value = true -> hasContent other = true ->
      (toLowerCase key = "env".toList -> isArray value = false ∧ isArray other = false) -> SecretsMatch key value other
  | envList {entries others : List Json} : toLowerCase key = "env".toList -> List.Forall₂ EntriesMatch entries others ->
      SecretsMatch key (.array entries) (.array others)

/-- Two values of a field below which the walk does not look. -/
def FieldsMatch (key : Text) (value other : Json) : Prop :=
  if isSecretKey key = true then SecretsMatch key value other else value = other

/-- Two values that are equal but for the secrets in them. -/
def SameButSecrets : Json -> Json -> Prop := Json.Alike stops FieldsMatch

variable {key : Text} {value : Json}

theorem sameEntry_secret {other : Json} (secret : isSecretKey key = true)
    (pair : SecretsMatch key value other) : Json.AlikeEntry stops FieldsMatch (key, value) (key, other) := by
  refine ⟨rfl, ?_⟩
  rw [if_pos (by simp [stops, secret]), FieldsMatch, if_pos secret]
  exact pair

theorem sameEntry_plain {other : Json} (goesOn : stops key = false) (same : SameButSecrets value other) :
    Json.AlikeEntry stops FieldsMatch (key, value) (key, other) := by
  refine ⟨rfl, ?_⟩
  rw [if_neg (by simp [goesOn])]
  exact same

theorem dropWhile_name (named : '=' ∉ key) (value : Text) :
    (key ++ '=' :: value).dropWhile (· ≠ '=') = '=' :: value := by
  rw [List.dropWhile_append_of_pos]
  · rfl
  · intro char present
    exact decide_eq_true fun same => named (same ▸ present)

theorem takeWhile_name (named : '=' ∉ key) (value : Text) :
    (key ++ '=' :: value).takeWhile (· ≠ '=') = key := by
  rw [List.takeWhile_append_of_pos]
  · simp
  · intro char present
    exact decide_eq_true fun same => named (same ▸ present)

theorem blankEnvEntry_assignment {value : Text} (named : '=' ∉ key) (filled : value ≠ []) :
    blankEnvEntry (.string (key ++ '=' :: value)) = ⟨.string (key ++ ['=']), true⟩ := by
  obtain ⟨char, rest, rfl⟩ := List.exists_cons_of_ne_nil filled
  simp only [blankEnvEntry]
  rw [dropWhile_name named, takeWhile_name named]

theorem any_hasEnvValue_of_match {values others : List Json} (pairs : List.Forall₂ ValuesMatch values others) :
    values.any hasEnvValue = others.any hasEnvValue ∧ (values.any hasEnvValue = false -> values = others) := by
  induction pairs with
  | nil => exact ⟨rfl, fun _ => rfl⟩
  | @cons value other values others pair _ ih =>
    simp only [List.any_cons, Bool.or_eq_false_iff]
    rcases pair with rfl | ⟨filled, otherFilled⟩
    · exact ⟨by rw [ih.1], fun empty => by rw [ih.2 empty.2]⟩
    · rw [filled, otherFilled]
      exact ⟨rfl, fun empty => absurd empty.1 Bool.false_ne_true.symm⟩

theorem blankEnvField_of_match {field : Text} {other : Json} (pair : ValuesMatch value other)
    (names : isName field value = true ∨ isName field other = true -> value = other) :
    blankEnvField field value = blankEnvField field other := by
  rcases pair with rfl | ⟨filled, otherFilled⟩
  · rfl
  · by_cases named : isName field value = true ∨ isName field other = true
    · rw [names named]
    · rw [not_or, Bool.not_eq_true, Bool.not_eq_true] at named
      simp [blankEnvField, named, filled, otherFilled]

theorem blankEnvEntry_of_match {entry other : Json} (pair : EntriesMatch entry other) :
    blankEnvEntry entry = blankEnvEntry other := by
  cases pair with
  | same => rfl
  | assignment named filled otherFilled =>
    rw [blankEnvEntry_assignment named filled, blankEnvEntry_assignment named otherFilled]
  | @pair name values others pairs =>
    obtain ⟨sameAny, sameValues⟩ := any_hasEnvValue_of_match pairs
    cases filled : values.any hasEnvValue with
    | true =>
      rw [filled] at sameAny
      simp only [blankEnvEntry, filled, ← sameAny, if_true, List.map_const', pairs.length_eq]
    | false => rw [sameValues filled]
  | @object entries others pairs =>
    let blanked (entry : Text × Json) := (entry.1, blankEnvField entry.1 entry.2)
    have same : entries.map blanked = others.map blanked := by
      refine Json.map_eq_of_forall₂ pairs fun entry _ second pair => ?_
      obtain ⟨field, value⟩ := entry
      obtain ⟨name, other⟩ := second
      obtain ⟨isSame, values, names⟩ := pair
      subst isSame
      exact Prod.ext rfl (blankEnvField_of_match values names)
    have values := congrArg (List.map fun entry => (entry.1, entry.2.value)) same
    have changes := congrArg (fun list => list.any fun entry => entry.2.changed) same
    simp only [List.map_map, List.any_map] at values changes
    simp only [blankEnvEntry, Rewritten.mk.injEq, Json.object.injEq]
    exact ⟨values, changes⟩

theorem blankSecret_plain (plain : toLowerCase key = "env".toList -> isArray value = false) :
    blankSecret key value = if hasContent value then ⟨BLANK, true⟩ else kept value := by
  unfold blankSecret
  split
  · rename_i _ isEnv
    exact absurd (plain (beq_iff_eq.mp isEnv)) (by simp [isArray])
  · rfl

theorem blankSecret_of_match {other : Json} (pair : SecretsMatch key value other) :
    blankSecret key value = blankSecret key other := by
  cases pair with
  | same => rfl
  | filled isFilled otherFilled noLists =>
    rw [blankSecret_plain fun isEnv => (noLists isEnv).1, blankSecret_plain fun isEnv => (noLists isEnv).2, isFilled, otherFilled]
    rfl
  | @envList entries others isEnv pairs =>
    have same : entries.map blankEnvEntry = others.map blankEnvEntry :=
      Json.map_eq_of_forall₂ pairs fun _ _ _ pair => blankEnvEntry_of_match pair
    have values := congrArg (List.map Rewritten.value) same
    have changes := congrArg (fun list => list.any Rewritten.changed) same
    simp only [List.map_map, List.any_map] at values changes
    simp only [blankSecret, isEnv, beq_self_eq_true, blankEnvArray, Rewritten.mk.injEq, Json.array.injEq]
    exact ⟨values, changes⟩

/-! ## Values without a change -/

theorem blankEnvField_of_unchanged {field : Text} (unchanged : (blankEnvField field value).changed = false) :
    (blankEnvField field value).value = value := by
  unfold blankEnvField at unchanged ⊢
  split
  · rfl
  · rename_i changed
    rw [if_neg changed] at unchanged
    cases unchanged

theorem blankEnvEntry_of_unchanged {entry : Json} (unchanged : (blankEnvEntry entry).changed = false) :
    (blankEnvEntry entry).value = entry := by
  unfold blankEnvEntry at unchanged ⊢
  split
  · split
    · rfl
    · rfl
    · rename_i changed
      simp_all
  · rfl
  · split
    · rename_i changed
      simp_all
    · rfl
  · rename_i entries
    simp only [List.any_eq_false, Bool.not_eq_true] at unchanged
    have same : entries.map (fun entry => (entry.1, (blankEnvField entry.1 entry.2).value)) = entries.map id :=
      List.map_congr_left fun entry present => Prod.ext rfl (blankEnvField_of_unchanged (unchanged entry present))
    rw [same, List.map_id]
  · rfl

theorem redactField_of_unchanged (unchanged : (redactField key value).changed = false) :
    (redactField key value).value = value := by
  unfold redactField at unchanged ⊢
  split at unchanged
  · rename_i secret
    rw [if_pos secret]
    unfold blankSecret at unchanged ⊢
    split at unchanged
    · rename_i entries isEnv
      simp only [blankEnvArray, List.any_eq_false, Bool.not_eq_true] at unchanged
      have same : entries.map (fun entry => (blankEnvEntry entry).value) = entries.map id :=
        List.map_congr_left fun entry present => blankEnvEntry_of_unchanged (unchanged entry present)
      rw [blankEnvArray, same, List.map_id]
    · split at unchanged
      · cases unchanged
      · rename_i empty
        rw [if_neg empty]
        rfl
  · rename_i plain
    rw [if_neg plain]
    cases value with
    | string url =>
      have same : stripUrl url = url := by simpa [stripUrlCredentials] using unchanged
      rw [stripUrlCredentials, same]
    | _ => rfl

theorem walkSecrets_of_unchanged {node : Json} (unchanged : (walkSecrets node).changed = false) :
    (walkSecrets node).value = node := by
  rw [walkSecrets_eq_rewrite] at unchanged ⊢
  exact Json.value_of_unchanged (fun _ _ _ => redactField_of_unchanged) unchanged

theorem redactToolResult_of_same {other : Json} (same : SameButSecrets value other) :
    redactToolResult value = redactToolResult other := by
  have sameWalk : walkSecrets value = walkSecrets other := by
    rw [walkSecrets_eq_rewrite, walkSecrets_eq_rewrite]
    refine Json.rewrite_of_alike (fun key value other stopped pair => ?_) same
    unfold redactField
    unfold FieldsMatch at pair
    split at pair
    · rename_i secret
      rw [if_pos secret, if_pos secret]
      exact blankSecret_of_match pair
    · rw [pair]
  unfold redactToolResult
  split
  · rename_i changed
    rw [← sameWalk, if_pos changed]
  · rename_i unchanged
    rw [Bool.not_eq_true] at unchanged
    have otherUnchanged : (walkSecrets other).changed = false := sameWalk ▸ unchanged
    rw [if_neg (by simp [otherUnchanged]), ← walkSecrets_of_unchanged unchanged, sameWalk,
      walkSecrets_of_unchanged otherUnchanged]

/-! ## What is left as it was -/

/-- Two values that are equal but for secrets and URLs of repositories. -/
def SameOutside : Json -> Json -> Prop := Json.Alike stops fun _ _ _ => True

theorem walkSecrets_outside (node : Json) : SameOutside node (walkSecrets node).value := by
  rw [walkSecrets_eq_rewrite]
  exact Json.alike_rewrite node

theorem redactToolResult_outside (result : Json) : Exists fun walked =>
    SameOutside result walked ∧ (redactToolResult result = walked ∨ redactToolResult result = mark walked) := by
  refine ⟨_, walkSecrets_outside result, ?_⟩
  unfold redactToolResult
  split
  · exact Or.inr rfl
  · rename_i unchanged
    rw [Bool.not_eq_true] at unchanged
    exact Or.inl (walkSecrets_of_unchanged unchanged).symm

/-! ## Redacting again -/

theorem blankEnvField_settled (field : Text) (value : Json) :
    blankEnvField field (blankEnvField field value).value = kept (blankEnvField field value).value := by
  by_cases same : isName field value || !hasEnvValue value
  · simp only [blankEnvField, same, if_true, kept]
  · simp only [blankEnvField, same, Bool.false_eq_true, if_false]
    simp [hasEnvValue, hasContent, BLANK]

theorem blankEnvEntry_settled (entry : Json) :
    blankEnvEntry (blankEnvEntry entry).value = kept (blankEnvEntry entry).value := by
  cases entry with
  | null | bool | number => rfl
  | string text =>
    rcases split : text.dropWhile (· ≠ '=') with _ | ⟨mark, _ | ⟨char, rest⟩⟩
    · have same : blankEnvEntry (.string text) = kept (.string text) := by rw [blankEnvEntry, split]
      rw [same, kept, same, kept]
    · have same : blankEnvEntry (.string text) = kept (.string text) := by rw [blankEnvEntry, split]
      rw [same, kept, same, kept]
    · have blanked : blankEnvEntry (.string text) = ⟨.string (text.takeWhile (· ≠ '=') ++ ['=']), true⟩ := by
        rw [blankEnvEntry, split]
      have named : '=' ∉ text.takeWhile (· ≠ '=') := fun present => by simpa using List.mem_takeWhile_imp present
      rw [blanked, blankEnvEntry, dropWhile_name named []]
  | array items =>
    cases items with
    | nil => rfl
    | cons name values =>
      cases filled : values.any hasEnvValue with
      | true =>
        have empty : (values.map fun _ => BLANK).any hasEnvValue = false := by
          simp [hasEnvValue, hasContent, BLANK]
        simp only [blankEnvEntry, filled, if_true, empty, Bool.false_eq_true, if_false]
      | false => simp only [blankEnvEntry, filled, Bool.false_eq_true, if_false, kept]
  | object entries =>
    simp only [blankEnvEntry, kept, List.map_map, List.any_map, Rewritten.mk.injEq, Json.object.injEq]
    constructor
    · exact List.map_congr_left fun entry _ => by rw [Function.comp_apply, blankEnvField_settled, kept]
    · rw [List.any_eq_false]
      intro entry _
      rw [Function.comp_apply, blankEnvField_settled]
      exact Bool.false_ne_true

theorem blankSecret_settled (key : Text) (value : Json) :
    blankSecret key (blankSecret key value).value = kept (blankSecret key value).value := by
  by_cases plain : toLowerCase key = "env".toList -> isArray value = false
  · rw [blankSecret_plain plain]
    split
    · rw [blankSecret_plain (by simp [BLANK, isArray])]
      rfl
    · rename_i empty
      rw [kept, blankSecret_plain plain, if_neg empty, kept]
  · rw [Classical.not_imp, Bool.not_eq_false] at plain
    obtain ⟨isEnv, isList⟩ := plain
    cases value with
    | array entries =>
      simp only [blankSecret, isEnv, beq_self_eq_true, blankEnvArray, kept, List.map_map, List.any_map, Rewritten.mk.injEq,
        Json.array.injEq]
      constructor
      · exact List.map_congr_left fun entry _ => by rw [Function.comp_apply, blankEnvEntry_settled, kept]
      · rw [List.any_eq_false]
        intro entry _
        rw [Function.comp_apply, blankEnvEntry_settled]
        exact Bool.false_ne_true
    | _ => cases isList

/-- [^/\s] -/
def isAuthorityChar (char : Char) : Bool := char != '/' && !isWhitespace char

/-- The text between the scheme of a URL and its path. -/
def authority (url : Text) : Text :=
  match splitScheme url with
  | some (_, behind) => behind.takeWhile isAuthorityChar
  | none => []

theorem splitScheme_append {url scheme behind : Text} (split : splitScheme url = some (scheme, behind)) (other : Text) :
    splitScheme (scheme ++ other) = some (scheme, other) := by
  cases url with
  | nil => cases split
  | cons first rest =>
    simp only [splitScheme] at split
    split at split
    · rename_i isFirst
      split at split
      · rename_i found
        obtain ⟨rfl, rfl⟩ := Prod.mk.inj (Option.some.inj split)
        have among (char : Char) (present : char ∈ rest.takeWhile isSchemeChar) : isSchemeChar char = true :=
          List.mem_takeWhile_imp present
        have isScheme : first :: (rest.takeWhile isSchemeChar ++ "://".toList) ++ other =
            first :: (rest.takeWhile isSchemeChar ++ (':' :: '/' :: '/' :: other)) := by simp
        have dropped : (rest.takeWhile isSchemeChar ++ (':' :: '/' :: '/' :: other)).dropWhile isSchemeChar =
            ':' :: '/' :: '/' :: other := by
          rw [List.dropWhile_append_of_pos among]
          rfl
        have taken : (rest.takeWhile isSchemeChar ++ (':' :: '/' :: '/' :: other)).takeWhile isSchemeChar =
            rest.takeWhile isSchemeChar := by
          rw [List.takeWhile_append_of_pos among]
          exact List.append_nil _
        simp only [isScheme, splitScheme, isFirst, if_true, dropped, taken]
      · cases split
    · cases split

theorem takeWhile_authority {behind host : Text} (found : behind.dropWhile isUserinfoChar = '@' :: host) :
    behind.takeWhile isAuthorityChar = behind.takeWhile isUserinfoChar ++ '@' :: host.takeWhile isAuthorityChar := by
  have parts : behind = behind.takeWhile isUserinfoChar ++ '@' :: host := by
    rw [← found, List.takeWhile_append_dropWhile]
  have among (char : Char) (present : char ∈ behind.takeWhile isUserinfoChar) : isAuthorityChar char = true := by
    have isUser : isUserinfoChar char = true := List.mem_takeWhile_imp present
    simp only [isUserinfoChar, Bool.and_eq_true] at isUser
    simp [isAuthorityChar, isUser.1.1, isUser.2]
  conv_lhs => rw [parts, List.takeWhile_append_of_pos among]
  rfl

theorem stripUrl_settled {url : Text} (single : (authority url).count '@' ≤ 1) : stripUrl (stripUrl url) = stripUrl url := by
  cases split : splitScheme url with
  | none =>
    have same : stripUrl url = url := by rw [stripUrl, split]
    rw [same, same]
  | some parts =>
    obtain ⟨scheme, behind⟩ := parts
    simp only [authority, split] at single
    rcases found : behind.dropWhile isUserinfoChar with _ | ⟨mark, host⟩
    · have same : stripUrl url = url := by simp only [stripUrl, split, found]
      rw [same, same]
    · by_cases isMark : mark = '@'
      · subst isMark
        have stripped : stripUrl url = scheme ++ host := by simp only [stripUrl, split, found]
        rw [stripped, stripUrl, splitScheme_append split host]
        -- A second mark would be one more in front of the host.
        rcases again : host.dropWhile isUserinfoChar with _ | ⟨second, rest⟩
        · simp only [again]
        · have isOther : second ≠ '@' := by
            rintro rfl
            rw [takeWhile_authority found, takeWhile_authority again] at single
            simp only [List.count_append, List.count_cons_self] at single
            omega
          simp only [again]
          split
          · rename_i isSecond
            exact absurd (List.cons.inj isSecond).1 isOther
          · rfl
      · have same : stripUrl url = url := by
          simp only [stripUrl, split, found]
          split
          · rename_i isSecond
            exact absurd (List.cons.inj isSecond).1 isMark
          · rfl
        rw [same, same]

theorem redactField_settled
    (single : forall url, key = customGitUrl -> value = .string url -> (authority url).count '@' ≤ 1)
    (stopped : stops key = true) : redactField key (redactField key value).value = kept (redactField key value).value := by
  unfold redactField
  by_cases secret : isSecretKey key = true
  · rw [if_pos secret, if_pos secret]
    exact blankSecret_settled key value
  · rw [if_neg secret, if_neg secret]
    have isUrl : key = customGitUrl := by simpa [stops, secret] using stopped
    cases value with
    | string url => simp [stripUrlCredentials, stripUrl_settled (single url isUrl rfl), kept]
    | _ => rfl

theorem redactToolResult_of_settled {node : Json} (settled : walkSecrets node = kept node) : redactToolResult node = node := by
  simp [redactToolResult, settled, kept]

theorem walkSecrets_mark {node : Json} (settled : walkSecrets node = kept node) : walkSecrets (mark node) = kept (mark node) := by
  cases node with
  | object entries =>
    rw [walkSecrets_eq_rewrite] at settled ⊢
    have plain : stops secretsRedacted = false := by decide
    exact Json.rewrite_setEntry settled (by rw [Json.rewriteField, plain]; rfl)
  | _ => exact settled

theorem redactToolResult_again {result : Json}
    (single : forall url, Json.Reaches stops result customGitUrl (.string url) -> (authority url).count '@' ≤ 1) :
    redactToolResult (redactToolResult result) = redactToolResult result := by
  have settled : walkSecrets (walkSecrets result).value = kept (walkSecrets result).value := by
    rw [walkSecrets_eq_rewrite, walkSecrets_eq_rewrite]
    exact Json.rewrite_settled fun key value comes stopped =>
      redactField_settled (fun url isUrl isValue => single url (isUrl ▸ isValue ▸ comes)) stopped
  have isSettled : walkSecrets (redactToolResult result) = kept (redactToolResult result) := by
    unfold redactToolResult
    split
    · exact walkSecrets_mark settled
    · rename_i unchanged
      rw [Bool.not_eq_true] at unchanged
      rwa [walkSecrets_of_unchanged unchanged] at settled
  exact redactToolResult_of_settled isSettled

/-! ## Emptied secrets are found -/

def Refuses (found : Option Text) : Prop := Exists fun key => found = some key ∧ isSecretKey key = true

theorem orElse_of_refuses {found otherwise : Option Text} (refuses : Refuses found) : orElse found otherwise = found := by
  obtain ⟨key, rfl, secret⟩ := refuses
  cases key with
  | nil => exact absurd secret (by decide)
  | cons char rest => rfl

theorem visitValues_eq (entries : List (Text × Json)) (depth : Nat) :
    visitValues entries depth = visitItems (entries.map Prod.snd) depth := by
  induction entries with
  | nil => rfl
  | cons entry rest ih => rw [visitValues, List.map_cons, visitItems, ih]

theorem visitItems_spec {items : List Json} {depth : Nat}
    (each : forall item, item ∈ items -> visit item depth = none ∨ Refuses (visit item depth)) :
    (visitItems items depth = none ∨ Refuses (visitItems items depth)) ∧
      forall item, item ∈ items -> Refuses (visit item depth) -> Refuses (visitItems items depth) := by
  induction items with
  | nil => exact ⟨Or.inl rfl, fun _ present => nomatch present⟩
  | cons item rest ih =>
    have below := ih fun other present => each other (List.mem_cons_of_mem item present)
    rw [visitItems]
    rcases each item List.mem_cons_self with missing | refuses
    · rw [missing]
      refine ⟨below.1, fun other present found => ?_⟩
      rcases List.mem_cons.mp present with rfl | among
      · obtain ⟨key, isKey, _⟩ := found
        rw [missing] at isKey
        cases isKey
      · exact below.2 other among found
    · rw [orElse_of_refuses refuses]
      exact ⟨Or.inr refuses, fun _ _ _ => refuses⟩

theorem visit_none_or_refuses (node : Json) (depth : Nat) : visit node depth = none ∨ Refuses (visit node depth) := by
  induction node using Json.induct generalizing depth with
  | null | bool | number | string => exact Or.inl rfl
  | array items ih =>
    rw [visit]
    split
    · exact Or.inl rfl
    · exact (visitItems_spec fun item present => ih item present _).1
  | object entries ih =>
    rw [visit]
    split
    · exact Or.inl rfl
    · split
      · rename_i entry found
        have isEntry := List.find?_some found
        simp only [isEmptied, Bool.and_eq_true] at isEntry
        exact Or.inr ⟨entry.1, rfl, isEntry.1⟩
      · rw [visitValues_eq]
        refine (visitItems_spec fun item present => ?_).1
        obtain ⟨entry, among, rfl⟩ := List.mem_map.mp present
        exact ih entry among _

/-- A node so many levels below another one. -/
inductive Below : Json -> Nat -> Json -> Prop where
  | here (node : Json) : Below node 0 node
  | item {items : List Json} {item node : Json} {levels : Nat} : item ∈ items -> Below item levels node ->
      Below (.array items) (levels + 1) node
  | value {entries : List (Text × Json)} {entry : Text × Json} {node : Json} {levels : Nat} : entry ∈ entries ->
      Below entry.2 levels node -> Below (.object entries) (levels + 1) node

theorem visit_of_below {node inner : Json} {levels : Nat} (below : Below node levels inner) {entries : List (Text × Json)}
    (isInner : inner = .object entries) {entry : Text × Json} (present : entry ∈ entries) (emptied : isEmptied entry = true)
    {depth : Nat} (near : depth + levels ≤ EMPTIED_SECRET_MAX_DEPTH) : Refuses (visit node depth) := by
  induction below generalizing depth with
  | here node =>
    subst isInner
    rw [visit, if_neg (by omega)]
    cases found : entries.find? isEmptied with
    | none => exact absurd emptied (List.find?_eq_none.mp found entry present)
    | some first =>
      have isFirst := List.find?_some found
      simp only [isEmptied, Bool.and_eq_true] at isFirst
      exact ⟨first.1, rfl, isFirst.1⟩
  | @item items item node levels among _ ih =>
    rw [visit, if_neg (by omega)]
    exact (visitItems_spec fun other _ => visit_none_or_refuses other _).2 item among (ih isInner (by omega))
  | @value others other node levels among _ ih =>
    rw [visit, if_neg (by omega)]
    split
    · rename_i first found
      have isFirst := List.find?_some found
      simp only [isEmptied, Bool.and_eq_true] at isFirst
      exact ⟨first.1, rfl, isFirst.1⟩
    · rw [visitValues_eq]
      refine (visitItems_spec fun other _ => visit_none_or_refuses other _).2 other.2 (List.mem_map_of_mem among) ?_
      exact ih isInner (by omega)

theorem findEmptiedSecretField_of_below {args : Json} {levels : Nat} {entries : List (Text × Json)}
    (below : Below args levels (.object entries)) (near : levels ≤ EMPTIED_SECRET_MAX_DEPTH) (present : (key, BLANK) ∈ entries)
    (secret : isSecretKey key = true) : Refuses (findEmptiedSecretField args) := by
  have emptied : isEmptied (key, BLANK) = true := by
    simp only [isEmptied, secret, BLANK, Bool.true_and]
    rfl
  exact visit_of_below below rfl present emptied (by omega)

/-! ## Redaction as a whole -/

/-- What redaction promises of a result, and the search of the arguments of a mutation. -/
structure Redacts (result : Json) : Prop where
  independent : forall other, SameButSecrets result other -> redactToolResult result = redactToolResult other
  outside : Exists fun walked => SameOutside result walked ∧
    (redactToolResult result = walked ∨ redactToolResult result = mark walked)
  settles : (forall url, Json.Reaches stops result customGitUrl (.string url) -> (authority url).count '@' ≤ 1) ->
    redactToolResult (redactToolResult result) = redactToolResult result
  refuses : forall levels entries key, Below result levels (.object entries) -> levels ≤ EMPTIED_SECRET_MAX_DEPTH ->
    (key, BLANK) ∈ entries -> isSecretKey key = true -> Refuses (findEmptiedSecretField result)

theorem redacts (result : Json) : Redacts result where
  independent _ same := redactToolResult_of_same same
  outside := redactToolResult_outside result
  settles single := redactToolResult_again single
  refuses _ _ _ below near present secret := findEmptiedSecretField_of_below below near present secret

/-! ## Two results with different secrets -/

def exampleResult (secret : Text) : Json :=
  .array [.object [("name".toList, .string "web".toList), ("Env".toList, .array [.string ("A=".toList ++ secret)]),
    ("row".toList, .object [("password".toList, .string secret)])]]

theorem exampleResult_same : SameButSecrets (exampleResult ['1']) (exampleResult ['2']) := by
  have nameStops : stops "name".toList = false := by decide +kernel
  have envSecret : isSecretKey "Env".toList = true := by decide +kernel
  have rowStops : stops "row".toList = false := by decide +kernel
  have passwordSecret : isSecretKey "password".toList = true := by decide +kernel
  have isEnv : toLowerCase "Env".toList = "env".toList := by decide +kernel
  have noEnv : toLowerCase "password".toList ≠ "env".toList := by decide +kernel
  have first : EntriesMatch (.string ("A=".toList ++ ['1'])) (.string ("A=".toList ++ ['2'])) :=
    @EntriesMatch.assignment ['A'] ['1'] ['2'] (by decide) (by decide) (by decide)
  have password : SecretsMatch "password".toList (.string ['1']) (.string ['2']) :=
    .filled rfl rfl fun same => absurd same noEnv
  refine (Json.alike_array _ _ _ _).mpr ⟨_, rfl, .cons ?_ .nil⟩
  refine (Json.alike_object _ _ _ _).mpr ⟨_, rfl, .cons (sameEntry_plain nameStops rfl)
    (.cons (sameEntry_secret envSecret (.envList isEnv (.cons first .nil))) (.cons (sameEntry_plain rowStops ?_) .nil))⟩
  exact (Json.alike_object _ _ _ _).mpr ⟨_, rfl, .cons (sameEntry_secret passwordSecret password) .nil⟩

theorem exampleResult_independent : redactToolResult (exampleResult ['1']) = redactToolResult (exampleResult ['2']) :=
  (redacts (exampleResult ['1'])).independent _ exampleResult_same

/-! ## What the walk does not look into -/

def envOf (entry : Json) : Json := .object [("env".toList, .array [entry])]

def gitUrl (value : Json) : Json := .object [(customGitUrl, value)]

theorem walkSecrets_envOf (entry : Json) :
    walkSecrets (envOf entry) = ⟨envOf (blankEnvEntry entry).value, (blankEnvEntry entry).changed⟩ := by
  have secret : isSecretKey "env".toList = true := by decide +kernel
  have isEnv : toLowerCase "env".toList = "env".toList := by decide +kernel
  simp only [envOf, walkSecrets, walkEntries, secret, if_true, blankSecret, isEnv, beq_self_eq_true, blankEnvArray,
    List.map_cons, List.map_nil, List.any_cons, List.any_nil, Bool.or_false]

theorem walkSecrets_gitUrl (value : Json) :
    walkSecrets (gitUrl value) = ⟨gitUrl (stripUrlCredentials value).value, (stripUrlCredentials value).changed⟩ := by
  have plain : isSecretKey customGitUrl = false := by decide +kernel
  simp only [gitUrl, walkSecrets, walkEntries, plain, Bool.false_eq_true, if_false, if_true, Bool.or_false]

theorem redactToolResult_singleton (item : Json) : redactToolResult (.array [item]) = .array [(walkSecrets item).value] := by
  cases changed : (walkSecrets item).changed with
  | true =>
    simp only [redactToolResult, walkSecrets, walkItems, changed, Bool.or_false, if_true, mark]
  | false =>
    simp only [redactToolResult, walkSecrets, walkItems, changed, Bool.or_false, Bool.false_eq_true, if_false,
      walkSecrets_of_unchanged changed]

theorem redactToolResult_envOf {entry : Json} (left : blankEnvEntry entry = kept entry) :
    redactToolResult (envOf entry) = envOf entry :=
  redactToolResult_of_settled (by rw [walkSecrets_envOf, left]; rfl)

/-- An entry in a further list, a variable with the name of a name, a field below a URL, a second
strip of a URL, and the arguments with a blanked variable. -/
theorem shown_where_not_looked :
    (redactToolResult (envOf (.array [.string "A=1".toList])) ≠ redactToolResult (envOf (.array [.string "A=2".toList]))) ∧
    (redactToolResult (envOf (.object [("KEY".toList, .string ['1'])])) ≠
      redactToolResult (envOf (.object [("KEY".toList, .string ['2'])]))) ∧
    (redactToolResult (gitUrl (.object [("password".toList, .string ['1'])])) ≠
      redactToolResult (gitUrl (.object [("password".toList, .string ['2'])]))) ∧
    (redactToolResult (redactToolResult (.array [gitUrl (.string "ssh://a@b@c".toList)])) ≠
      redactToolResult (.array [gitUrl (.string "ssh://a@b@c".toList)])) ∧
    (findEmptiedSecretField (redactToolResult (.array [envOf (.object [(['A'], .string ['1'])])])) = none) := by
  refine ⟨?_, ?_, ?_, ?_, ?_⟩
  · rw [redactToolResult_envOf rfl, redactToolResult_envOf rfl]
    simp [envOf]
  · rw [redactToolResult_envOf rfl, redactToolResult_envOf rfl]
    simp [envOf]
  · have below (text : Text) : redactToolResult (gitUrl (.object [("password".toList, .string text)])) =
        gitUrl (.object [("password".toList, .string text)]) :=
      redactToolResult_of_settled (by rw [walkSecrets_gitUrl]; rfl)
    rw [below, below]
    simp [gitUrl]
  · have first : stripUrl "ssh://a@b@c".toList = "ssh://b@c".toList := by decide +kernel
    have second : stripUrl "ssh://b@c".toList = "ssh://c".toList := by decide +kernel
    rw [redactToolResult_singleton, redactToolResult_singleton, walkSecrets_gitUrl, walkSecrets_gitUrl]
    simp only [stripUrlCredentials, first, second]
    simp [gitUrl]
  · have noSecret : isSecretKey ['A'] = false := by decide +kernel
    have isBlanked : (blankEnvEntry (.object [(['A'], .string ['1'])])).value = .object [(['A'], BLANK)] := rfl
    rw [redactToolResult_singleton, walkSecrets_envOf, isBlanked]
    simp [findEmptiedSecretField, visit, visitItems, visitValues, isEmptied, envOf, noSecret, BLANK, orElse,
      EMPTIED_SECRET_MAX_DEPTH]

end ServiceSecrets
end Dokploy
