import Dokploy.McpOauth.Consent

namespace Dokploy
namespace McpOauth

open Foundation
open Foundation.Unicode

/-!
# The purge of tokens

Refresh tokens that have expired, or that were revoked long ago, are deleted, and the
access tokens that refer to them go with them.  Then come the access tokens that have
expired or were revoked, the replay responses whose window has closed, and the
registrations without tokens.

The age at which a revoked row is deleted is fixed, and the lifetimes of tokens are set
by two variables.  An access token outlives its refresh row where its lifetime is longer.

The tables are lists of rows.  Instants are milliseconds, as in the dates that the
provider writes, and a comparison with a missing one is not true.
-/

/-! ## Lifetimes -/

abbrev Env := List Char -> Option Units

def positiveIntEnv (env : Env) (name : List Char) (fallback : Nat) : Nat :=
  match env name with
  | none | some [] => fallback
  | some raw =>
      match parseInt raw with
      | none => fallback
      | some parsed => if isFinite parsed = true ∧ 0 < parsed then parsed.toNat else fallback

def DEFAULT_ACCESS_TOKEN_HOURS : Nat := 24 * 30

def DEFAULT_REFRESH_TOKEN_DAYS : Nat := 365

def getMcpAccessTokenSeconds (env : Env) : Nat :=
  Numerals.roundToDouble (positiveIntEnv env "DOKPLOY_MCP_ACCESS_TOKEN_HOURS".toList DEFAULT_ACCESS_TOKEN_HOURS * 3600)

def getMcpRefreshTokenSeconds (env : Env) : Nat :=
  Numerals.roundToDouble (positiveIntEnv env "DOKPLOY_MCP_REFRESH_TOKEN_DAYS".toList DEFAULT_REFRESH_TOKEN_DAYS * 86400)

/-! ## The tables -/

structure OauthClient where
  clientId : Units
  disabled : Option Bool
  createdAt : Option Int

structure OauthRefreshToken where
  id : Units
  token : Units
  clientId : Units
  expiresAt : Int
  createdAt : Int
  revoked : Option Int
  rotationReplayResponse : Option Units
  rotationReplayExpiresAt : Option Int

structure OauthAccessToken where
  token : Units
  clientId : Units
  userId : Option Units
  refreshId : Option Units
  expiresAt : Int
  createdAt : Int
  revoked : Option Int
  scopes : List Units

structure OauthClientAssertion where
  id : Units
  expiresAt : Int

structure LegacyOauthAccessToken where
  accessToken : Units
  accessTokenExpiresAt : Int
  refreshTokenExpiresAt : Option Int

/-- The ids and the tokens of refresh rows are unique. -/
structure Database where
  clients : List OauthClient
  refreshTokens : List OauthRefreshToken
  accessTokens : List OauthAccessToken
  clientAssertions : List OauthClientAssertion
  legacyAccessTokens : List LegacyOauthAccessToken
  uniqueIds : (refreshTokens.map OauthRefreshToken.id).Nodup
  uniqueTokens : (refreshTokens.map OauthRefreshToken.token).Nodup

/-- A comparison of a column that may be null. -/
def lt (column : Option Int) (instant : Int) : Bool :=
  match column with
  | some value => value < instant
  | none => false

/-! ## Looking tokens up -/

structure McpAccessToken where
  userId : Units
  clientId : Units
  scopes : List Units

section Lookup

variable (hashOAuthToken : Units -> Units)

def accessRow (db : Database) (accessToken : Units) : Option OauthAccessToken :=
  if accessToken = [] then none else db.accessTokens.find? fun row => row.token == hashOAuthToken accessToken

/-- A row that is accepted, as the user of the token sees it. -/
def acceptRow (db : Database) (row : OauthAccessToken) (now : Int) : Option McpAccessToken :=
  match row.userId with
  | none | some [] => none
  | some userId =>
      if row.revoked.isSome then none
      else if ((db.clients.find? fun client => client.clientId == row.clientId).bind OauthClient.disabled) = some true then none
      else if row.expiresAt ≤ now then none
      else some ⟨userId, row.clientId, row.scopes.filter (· ≠ [])⟩

def isStaleRotatedRefreshToken (db : Database) (refreshToken : Units) (now : Int) : Bool :=
  if refreshToken = [] then false
  else
    match db.refreshTokens.find? fun row => row.token == hashOAuthToken refreshToken with
    | none => false
    | some row =>
        row.revoked.isSome &&
          match row.rotationReplayExpiresAt with
          | none => true
          | some expires => expires < now

end Lookup

/-! ## The purge -/

def ROTATED_REFRESH_RETENTION_DAYS : Int := 30

def ABANDONED_REGISTRATION_DAYS : Int := 30

def rotatedBefore (now : Int) : Int := now - ROTATED_REFRESH_RETENTION_DAYS * 86400000

def abandonedBefore (now : Int) : Int := now - ABANDONED_REGISTRATION_DAYS * 86400000

/-- or(lt(expiresAt, now), and(isNotNull(revoked), lt(revoked, rotatedBefore))) -/
def isOver (now : Int) (row : OauthRefreshToken) : Bool := row.expiresAt < now || lt row.revoked (rotatedBefore now)

/-- The access rows that refer to a deleted refresh row are deleted with it. -/
def deleteRefreshTokens (now : Int) (db : Database) : Database where
  clients := db.clients
  refreshTokens := db.refreshTokens.filter fun row => !isOver now row
  accessTokens := db.accessTokens.filter fun row =>
    !(db.refreshTokens.any fun refresh => isOver now refresh && row.refreshId == some refresh.id)
  clientAssertions := db.clientAssertions
  legacyAccessTokens := db.legacyAccessTokens
  uniqueIds := db.uniqueIds.sublist (List.filter_sublist.map _)
  uniqueTokens := db.uniqueTokens.sublist (List.filter_sublist.map _)

def deleteAccessTokens (now : Int) (db : Database) : Database :=
  { db with accessTokens := db.accessTokens.filter fun row => !(row.expiresAt < now || lt row.revoked now) }

def deleteClientAssertions (now : Int) (db : Database) : Database :=
  { db with clientAssertions := db.clientAssertions.filter fun row => !(row.expiresAt < now) }

def clearReplayed (now : Int) (row : OauthRefreshToken) : OauthRefreshToken :=
  if row.rotationReplayResponse.isSome && lt row.rotationReplayExpiresAt now then { row with rotationReplayResponse := none } else row

theorem clearReplayed_id (now : Int) (row : OauthRefreshToken) : (clearReplayed now row).id = row.id := by
  unfold clearReplayed
  split <;> rfl

theorem clearReplayed_token (now : Int) (row : OauthRefreshToken) : (clearReplayed now row).token = row.token := by
  unfold clearReplayed
  split <;> rfl

theorem clearReplayed_clientId (now : Int) (row : OauthRefreshToken) : (clearReplayed now row).clientId = row.clientId := by
  unfold clearReplayed
  split <;> rfl

def clearReplayResponses (now : Int) (db : Database) : Database where
  clients := db.clients
  refreshTokens := db.refreshTokens.map (clearReplayed now)
  accessTokens := db.accessTokens
  clientAssertions := db.clientAssertions
  legacyAccessTokens := db.legacyAccessTokens
  uniqueIds := by
    have same : OauthRefreshToken.id ∘ clearReplayed now = OauthRefreshToken.id := funext (clearReplayed_id now)
    rw [List.map_map, same]
    exact db.uniqueIds
  uniqueTokens := by
    have same : OauthRefreshToken.token ∘ clearReplayed now = OauthRefreshToken.token := funext (clearReplayed_token now)
    rw [List.map_map, same]
    exact db.uniqueTokens

def deleteLegacyAccessTokens (now : Int) (db : Database) : Database :=
  { db with
    legacyAccessTokens := db.legacyAccessTokens.filter fun row =>
      !(row.accessTokenExpiresAt < now && (row.refreshTokenExpiresAt.isNone || lt row.refreshTokenExpiresAt now)) }

def isAbandoned (now : Int) (db : Database) (client : OauthClient) : Bool :=
  lt client.createdAt (abandonedBefore now) && !(db.refreshTokens.any fun row => row.clientId == client.clientId) &&
    !(db.accessTokens.any fun row => row.clientId == client.clientId)

/-- The rows of a deleted client are deleted with it. -/
def deleteClients (now : Int) (db : Database) : Database where
  clients := db.clients.filter fun client => !isAbandoned now db client
  refreshTokens := db.refreshTokens.filter fun row =>
    !(db.clients.any fun client => isAbandoned now db client && row.clientId == client.clientId)
  accessTokens := db.accessTokens.filter fun row =>
    !(db.clients.any fun client => isAbandoned now db client && row.clientId == client.clientId)
  clientAssertions := db.clientAssertions
  legacyAccessTokens := db.legacyAccessTokens
  uniqueIds := db.uniqueIds.sublist (List.filter_sublist.map _)
  uniqueTokens := db.uniqueTokens.sublist (List.filter_sublist.map _)

def purgeExpiredMcpTokens (now : Int) (db : Database) : Database :=
  deleteClients now (deleteLegacyAccessTokens now (clearReplayResponses now (deleteClientAssertions now
    (deleteAccessTokens now (deleteRefreshTokens now db)))))

/-! ## What the purge leaves -/

section Rows

variable {now : Int} {db : Database}

theorem deleteClients_refreshTokens : (deleteClients now db).refreshTokens = db.refreshTokens := by
  refine List.filter_eq_self.mpr fun row present => ?_
  rw [Bool.not_eq_true', List.any_eq_false]
  intro client _ deleted
  simp only [isAbandoned, Bool.and_eq_true, Bool.not_eq_true', List.any_eq_false] at deleted
  exact deleted.1.1.2 row present deleted.2

theorem deleteClients_accessTokens : (deleteClients now db).accessTokens = db.accessTokens := by
  refine List.filter_eq_self.mpr fun row present => ?_
  rw [Bool.not_eq_true', List.any_eq_false]
  intro client _ deleted
  simp only [isAbandoned, Bool.and_eq_true, Bool.not_eq_true', List.any_eq_false] at deleted
  exact deleted.1.2 row present deleted.2

theorem purge_refreshTokens : (purgeExpiredMcpTokens now db).refreshTokens =
    (db.refreshTokens.filter fun row => !isOver now row).map (clearReplayed now) :=
  deleteClients_refreshTokens

theorem mem_purge_refreshTokens {row : OauthRefreshToken} : row ∈ (purgeExpiredMcpTokens now db).refreshTokens <->
    Exists fun old => old ∈ db.refreshTokens ∧ isOver now old = false ∧ clearReplayed now old = row := by
  rw [purge_refreshTokens, List.mem_map]
  simp only [List.mem_filter, Bool.not_eq_true', and_assoc]

/-- A refresh row that is deleted while an access row refers to it. -/
def LosesRefresh (now : Int) (db : Database) (row : OauthAccessToken) : Prop :=
  Exists fun refresh => refresh ∈ db.refreshTokens ∧ isOver now refresh = true ∧ row.refreshId = some refresh.id

theorem mem_purge_accessTokens {row : OauthAccessToken} : row ∈ (purgeExpiredMcpTokens now db).accessTokens <->
    row ∈ db.accessTokens ∧ ¬ LosesRefresh now db row ∧ now ≤ row.expiresAt ∧ lt row.revoked now = false := by
  have whole : (purgeExpiredMcpTokens now db).accessTokens =
      (deleteAccessTokens now (deleteRefreshTokens now db)).accessTokens := deleteClients_accessTokens
  rw [whole]
  simp only [deleteAccessTokens, deleteRefreshTokens, List.mem_filter, Bool.not_eq_true', Bool.or_eq_false_iff,
    decide_eq_false_iff_not, not_lt, List.any_eq_false, Bool.and_eq_true, beq_iff_eq, LosesRefresh, not_exists, not_and,
    and_assoc]

theorem mem_purge_clients {client : OauthClient} (present : client ∈ db.clients)
    (stays : isAbandoned now (deleteAccessTokens now (deleteRefreshTokens now db)) client = false) :
    client ∈ (purgeExpiredMcpTokens now db).clients := by
  refine List.mem_filter.mpr ⟨present, ?_⟩
  rw [Bool.not_eq_true']
  have sameRows : ((deleteRefreshTokens now db).refreshTokens.map (clearReplayed now)).any (fun row => row.clientId == client.clientId) =
      (deleteRefreshTokens now db).refreshTokens.any fun row => row.clientId == client.clientId := by
    rw [List.any_map]
    exact List.any_congr rfl fun row => by rw [Function.comp_apply, clearReplayed_clientId]
  simp only [isAbandoned] at stays ⊢
  exact (congrArg (fun rows => lt client.createdAt (abandonedBefore now) && !rows && _) sameRows).trans stays

end Rows

/-! ## What can still be used -/

/-- Not expired, and not revoked or revoked lately. -/
def IsLive (now : Int) (row : OauthRefreshToken) : Prop :=
  now ≤ row.expiresAt ∧ forall revoked, row.revoked = some revoked -> rotatedBefore now ≤ revoked

theorem isOver_eq_false {now : Int} {row : OauthRefreshToken} : isOver now row = false <-> IsLive now row := by
  unfold isOver IsLive lt
  cases row.revoked with
  | none => simp
  | some revoked => simp

section Keeping

variable (hashOAuthToken : Units -> Units) (now : Int) (db : Database)

/-- The row of a token that is accepted at the moment. -/
def IsAccepted (row : OauthAccessToken) : Prop :=
  (Exists fun accessToken => accessRow hashOAuthToken db accessToken = some row) ∧ acceptRow db row now ≠ none

/-- The purge removes nothing that can still be used. -/
structure KeepsUsable : Prop where
  accessTokens : forall row, IsAccepted hashOAuthToken now db row -> row ∈ (purgeExpiredMcpTokens now db).accessTokens
  refreshTokens : forall row, row ∈ db.refreshTokens -> IsLive now row ->
    clearReplayed now row ∈ (purgeExpiredMcpTokens now db).refreshTokens
  clients : forall client, client ∈ db.clients ->
    (Exists fun row => row ∈ db.refreshTokens ∧ IsLive now row ∧ row.clientId = client.clientId) ∨
      (Exists fun row => IsAccepted hashOAuthToken now db row ∧ row.clientId = client.clientId) ∨
      (Exists fun created => client.createdAt = some created ∧ abandonedBefore now ≤ created) ->
    client ∈ (purgeExpiredMcpTokens now db).clients
  responses : forall row expires, row ∈ db.refreshTokens -> row.rotationReplayExpiresAt = some expires -> now ≤ expires ->
    forall left, left ∈ (purgeExpiredMcpTokens now db).refreshTokens -> left.id = row.id -> left = row
  stale : forall refreshToken later,
    (Exists fun row => row ∈ (purgeExpiredMcpTokens now db).refreshTokens ∧ row.token = hashOAuthToken refreshToken) ->
      isStaleRotatedRefreshToken hashOAuthToken (purgeExpiredMcpTokens now db) refreshToken later =
        isStaleRotatedRefreshToken hashOAuthToken db refreshToken later

/-- No access token that is accepted belongs to a refresh row that has expired or was revoked long ago. -/
def NoneOutlives : Prop :=
  forall row, IsAccepted hashOAuthToken now db row -> forall refresh, refresh ∈ db.refreshTokens ->
    row.refreshId = some refresh.id -> IsLive now refresh

end Keeping

section Kept

variable {hashOAuthToken : Units -> Units} {now : Int} {db : Database}

variable {row : OauthAccessToken}

theorem IsAccepted.mem (accepted : IsAccepted hashOAuthToken now db row) : row ∈ db.accessTokens := by
  obtain ⟨⟨accessToken, found⟩, _⟩ := accepted
  unfold accessRow at found
  split at found
  · cases found
  · exact List.mem_of_find?_eq_some found

theorem IsAccepted.valid (accepted : IsAccepted hashOAuthToken now db row) :
    now < row.expiresAt ∧ row.revoked = none := by
  obtain ⟨_, answers⟩ := accepted
  unfold acceptRow at answers
  split at answers
  · exact absurd rfl answers
  · exact absurd rfl answers
  · split at answers
    · exact absurd rfl answers
    · rename_i unrevoked
      split at answers
      · exact absurd rfl answers
      · split at answers
        · exact absurd rfl answers
        · rename_i unexpired
          exact ⟨not_le.mp unexpired, by simpa using unrevoked⟩

theorem mem_purge_of_accepted (accepted : IsAccepted hashOAuthToken now db row) :
    row ∈ (purgeExpiredMcpTokens now db).accessTokens <-> ¬ LosesRefresh now db row := by
  rw [mem_purge_accessTokens]
  obtain ⟨unexpired, unrevoked⟩ := accepted.valid
  constructor
  · exact fun stays => stays.2.1
  · intro keeps
    exact ⟨accepted.mem, keeps, unexpired.le, by rw [unrevoked]; rfl⟩

theorem not_losesRefresh : ¬ LosesRefresh now db row <->
    forall refresh, refresh ∈ db.refreshTokens -> row.refreshId = some refresh.id -> IsLive now refresh := by
  constructor
  · intro keeps refresh present refers
    rw [← isOver_eq_false, ← Bool.not_eq_true]
    exact fun isOver => keeps ⟨refresh, present, isOver, refers⟩
  · rintro live ⟨refresh, present, isOver, refers⟩
    rw [isOver_eq_false.mpr (live refresh present refers)] at isOver
    cases isOver

theorem find_unique {Row : Type} {key : Row -> Units} {rows : List Row} (unique : (rows.map key).Nodup) {row : Row}
    (present : row ∈ rows) {value : Units} (isKey : key row = value) : rows.find? (fun other => key other == value) = some row := by
  cases found : rows.find? fun other => key other == value with
  | none => exact absurd (beq_iff_eq.mpr isKey) (List.find?_eq_none.mp found row present)
  | some other =>
    have isOther : key other = value := by simpa using List.find?_some found
    have sameKey : key other = key row := isOther.trans isKey.symm
    rw [List.inj_on_of_nodup_map unique (List.mem_of_find?_eq_some found) present sameKey]

theorem stale_same {refreshToken : Units} {later : Int}
    (kept : Exists fun row => row ∈ (purgeExpiredMcpTokens now db).refreshTokens ∧ row.token = hashOAuthToken refreshToken) :
    isStaleRotatedRefreshToken hashOAuthToken (purgeExpiredMcpTokens now db) refreshToken later =
      isStaleRotatedRefreshToken hashOAuthToken db refreshToken later := by
  obtain ⟨row, present, isToken⟩ := kept
  obtain ⟨old, among, _, rfl⟩ := mem_purge_refreshTokens.mp present
  have oldToken : old.token = hashOAuthToken refreshToken := (clearReplayed_token now old).symm.trans isToken
  have after := find_unique (purgeExpiredMcpTokens now db).uniqueTokens present isToken
  have before := find_unique db.uniqueTokens among oldToken
  unfold isStaleRotatedRefreshToken
  rw [after, before]
  have sameRevoked : (clearReplayed now old).revoked = old.revoked := by unfold clearReplayed; split <;> rfl
  have sameExpires : (clearReplayed now old).rotationReplayExpiresAt = old.rotationReplayExpiresAt := by
    unfold clearReplayed
    split <;> rfl
  simp only [sameRevoked, sameExpires]

variable {client : OauthClient}

theorem not_abandoned_of_row {row : OauthRefreshToken} (present : row ∈ db.refreshTokens)
    (live : IsLive now row) (isClient : row.clientId = client.clientId) :
    isAbandoned now (deleteAccessTokens now (deleteRefreshTokens now db)) client = false := by
  have kept : row ∈ (deleteRefreshTokens now db).refreshTokens :=
    List.mem_filter.mpr ⟨present, by rw [isOver_eq_false.mpr live]; rfl⟩
  have holds : (deleteRefreshTokens now db).refreshTokens.any (fun row => row.clientId == client.clientId) = true :=
    List.any_eq_true.mpr ⟨row, kept, beq_iff_eq.mpr isClient⟩
  simp only [isAbandoned, deleteAccessTokens, holds, Bool.not_true, Bool.and_false, Bool.false_and]

theorem not_abandoned_of_token (accepted : IsAccepted hashOAuthToken now db row)
    (keeps : ¬ LosesRefresh now db row) (isClient : row.clientId = client.clientId) :
    isAbandoned now (deleteAccessTokens now (deleteRefreshTokens now db)) client = false := by
  have stays := (mem_purge_of_accepted accepted).mpr keeps
  have kept : row ∈ (deleteAccessTokens now (deleteRefreshTokens now db)).accessTokens := by
    rwa [purgeExpiredMcpTokens, deleteClients_accessTokens] at stays
  have holds : (deleteAccessTokens now (deleteRefreshTokens now db)).accessTokens.any
      (fun row => row.clientId == client.clientId) = true :=
    List.any_eq_true.mpr ⟨row, kept, beq_iff_eq.mpr isClient⟩
  simp only [isAbandoned, holds, Bool.not_true, Bool.and_false]

theorem not_abandoned_of_recent {created : Int} (isCreated : client.createdAt = some created)
    (recent : abandonedBefore now ≤ created) (left : Database) : isAbandoned now left client = false := by
  have isRecent : lt client.createdAt (abandonedBefore now) = false := by
    rw [isCreated]
    exact decide_eq_false (not_lt.mpr recent)
  simp only [isAbandoned, isRecent, Bool.false_and]

theorem keepsUsable_of_noneOutlives (none : NoneOutlives hashOAuthToken now db) : KeepsUsable hashOAuthToken now db where
  accessTokens row accepted := (mem_purge_of_accepted accepted).mpr (not_losesRefresh.mpr (none row accepted))
  refreshTokens row present live := mem_purge_refreshTokens.mpr ⟨row, present, isOver_eq_false.mpr live, rfl⟩
  clients client present held := by
    refine mem_purge_clients present ?_
    rcases held with ⟨row, among, live, isClient⟩ | ⟨row, accepted, isClient⟩ | ⟨created, isCreated, recent⟩
    · exact not_abandoned_of_row among live isClient
    · exact not_abandoned_of_token accepted (not_losesRefresh.mpr (none row accepted)) isClient
    · exact not_abandoned_of_recent isCreated recent _
  responses row expires present isExpiry windowOpen left isLeft sameId := by
    obtain ⟨old, among, _, rfl⟩ := mem_purge_refreshTokens.mp isLeft
    have same : old = row := List.inj_on_of_nodup_map db.uniqueIds among present ((clearReplayed_id now old).symm.trans sameId)
    subst same
    have isOpen : lt old.rotationReplayExpiresAt now = false := by
      rw [isExpiry]
      exact decide_eq_false (not_lt.mpr windowOpen)
    simp only [clearReplayed, isOpen, Bool.and_false, Bool.false_eq_true, if_false]
  stale _ _ kept := stale_same kept

/-- The purge removes nothing that can be used exactly when no accepted token has outlived its refresh row. -/
theorem keepsUsable_iff_noneOutlives (hashOAuthToken : Units -> Units) (now : Int) (db : Database) :
    KeepsUsable hashOAuthToken now db <-> NoneOutlives hashOAuthToken now db := by
  constructor
  · intro keeps row accepted
    exact not_losesRefresh.mp ((mem_purge_of_accepted accepted).mp (keeps.accessTokens row accepted))
  · exact keepsUsable_of_noneOutlives

end Kept

/-! ## Lifetimes and the age of a revoked row -/

/-- Tokens live as long as the variables say, and none is issued after its refresh row was revoked. -/
structure Issued (env : Env) (db : Database) : Prop where
  access : forall row, row ∈ db.accessTokens -> row.expiresAt = row.createdAt + getMcpAccessTokenSeconds env * 1000
  refresh : forall row, row ∈ db.refreshTokens -> row.expiresAt = row.createdAt + getMcpRefreshTokenSeconds env * 1000
  inTime : forall row, row ∈ db.accessTokens -> forall refresh, refresh ∈ db.refreshTokens ->
    row.refreshId = some refresh.id -> forall revoked, refresh.revoked = some revoked -> row.createdAt ≤ revoked

/-- Lifetimes under which no token outlives its refresh row: at most the age at which a revoked row is
deleted, and at most the lifetime of the refresh row that it was issued with. -/
theorem noneOutlives_of_lifetimes {hashOAuthToken : Units -> Units} {env : Env} {now : Int} {db : Database} (issued : Issued env db)
    (together : forall row, row ∈ db.accessTokens -> forall refresh, refresh ∈ db.refreshTokens ->
      row.refreshId = some refresh.id -> row.createdAt ≤ refresh.createdAt)
    (short : (getMcpAccessTokenSeconds env : Int) * 1000 ≤ ROTATED_REFRESH_RETENTION_DAYS * 86400000)
    (shorter : getMcpAccessTokenSeconds env ≤ getMcpRefreshTokenSeconds env) : NoneOutlives hashOAuthToken now db := by
  intro row accepted refresh present refers
  have unexpired := accepted.valid.1
  rw [issued.access row accepted.mem] at unexpired
  have issuedWith := together row accepted.mem refresh present refers
  have expiry := issued.refresh refresh present
  constructor
  · omega
  · intro revoked isRevoked
    have inTime := issued.inTime row accepted.mem refresh present refers revoked isRevoked
    unfold rotatedBefore
    omega

/-! ## A token that outlives its refresh row -/

/-- Access tokens that live for a hundred days. -/
def exampleEnv : Env := fun name => if name = "DOKPLOY_MCP_ACCESS_TOKEN_HOURS".toList then some (utf16 "2400".toList) else none

def day : Int := 86400000

def exampleRefresh : OauthRefreshToken where
  id := [1]
  token := [2]
  clientId := [3]
  expiresAt := 365 * day
  createdAt := 0
  revoked := some 1000
  rotationReplayResponse := none
  rotationReplayExpiresAt := none

def exampleAccess : OauthAccessToken where
  token := [4]
  clientId := [3]
  userId := some [5]
  refreshId := some [1]
  expiresAt := 100 * day
  createdAt := 0
  revoked := none
  scopes := []

/-- The refresh row was rotated forty days before the purge. -/
def exampleDatabase : Database where
  clients := [⟨[3], none, some 0⟩]
  refreshTokens := [exampleRefresh]
  accessTokens := [exampleAccess]
  clientAssertions := []
  legacyAccessTokens := []
  uniqueIds := List.nodup_singleton _
  uniqueTokens := List.nodup_singleton _

theorem exampleDatabase_issued : Issued exampleEnv exampleDatabase where
  access := by
    have seconds : getMcpAccessTokenSeconds exampleEnv = 8640000 := by decide +kernel
    rintro row present
    rw [List.mem_singleton.mp present, seconds]
    decide
  refresh := by
    have seconds : getMcpRefreshTokenSeconds exampleEnv = 31536000 := by decide +kernel
    rintro row present
    rw [List.mem_singleton.mp present, seconds]
    decide
  inTime := by
    rintro row present refresh among _ revoked isRevoked
    rw [List.mem_singleton.mp present]
    rw [List.mem_singleton.mp among] at isRevoked
    cases isRevoked
    decide

/-- The purge deletes a token that is accepted for sixty days more. -/
theorem accepted_token_purged : ¬ forall (hashOAuthToken : Units -> Units) (env : Env) (now : Int) (db : Database),
    Issued env db -> KeepsUsable hashOAuthToken now db := by
  intro always
  have keeps := always (fun _ => [4]) exampleEnv (40 * day) exampleDatabase exampleDatabase_issued
  have accepted : IsAccepted (fun _ => [4]) (40 * day) exampleDatabase exampleAccess :=
    ⟨⟨[9], rfl⟩, by simp [acceptRow, exampleAccess, exampleDatabase, day]⟩
  have stays := (mem_purge_of_accepted accepted).mp (keeps.accessTokens exampleAccess accepted)
  exact stays ⟨exampleRefresh, List.mem_singleton_self _, by decide, rfl⟩

end McpOauth
end Dokploy
