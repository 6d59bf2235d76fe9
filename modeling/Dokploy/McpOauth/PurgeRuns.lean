import Dokploy.McpOauth.Purge

namespace Dokploy
namespace McpOauth

open Foundation

/-!
# Purges one after the other

The purge runs once a day and is not one transaction: a server that stops leaves the
rest of its statements out.  What a statement deletes or clears, a later purge would as
well, so the next purge that runs to its end leaves no trace of earlier ones.
-/

variable {earlier now : Int} {db : Database}

/-- The statements of the purge, in their order. -/
inductive Statement where
  | refreshTokens
  | accessTokens
  | clientAssertions
  | replayResponses
  | legacyAccessTokens
  | clients

def Statement.perform (now : Int) (db : Database) : Statement -> Database
  | .refreshTokens => deleteRefreshTokens now db
  | .accessTokens => deleteAccessTokens now db
  | .clientAssertions => deleteClientAssertions now db
  | .replayResponses => clearReplayResponses now db
  | .legacyAccessTokens => deleteLegacyAccessTokens now db
  | .clients => deleteClients now db

theorem lt_mono (le : earlier ≤ now) {column : Option Int} (before : lt column earlier = true) : lt column now = true := by
  cases column with
  | none => cases before
  | some value => exact decide_eq_true ((of_decide_eq_true before).trans_le le)

theorem isOver_mono (le : earlier ≤ now) {row : OauthRefreshToken} (past : isOver earlier row = true) :
    isOver now row = true := by
  rcases Bool.or_eq_true_iff.mp past with expired | revoked
  · exact Bool.or_eq_true_iff.mpr (Or.inl (decide_eq_true ((of_decide_eq_true expired).trans_le le)))
  · exact Bool.or_eq_true_iff.mpr (Or.inr (lt_mono (Int.sub_le_sub_right le _) revoked))

theorem isOver_clearReplayed (row : OauthRefreshToken) : isOver now (clearReplayed earlier row) = isOver now row := by
  unfold clearReplayed
  split <;> rfl

theorem clearReplayed_clearReplayed (le : earlier ≤ now) (row : OauthRefreshToken) :
    clearReplayed now (clearReplayed earlier row) = clearReplayed now row := by
  unfold clearReplayed
  by_cases cleared : (row.rotationReplayResponse.isSome && lt row.rotationReplayExpiresAt earlier) = true
  · have again : (row.rotationReplayResponse.isSome && lt row.rotationReplayExpiresAt now) = true := by
      rw [Bool.and_eq_true] at cleared ⊢
      exact ⟨cleared.1, lt_mono le cleared.2⟩
    rw [if_pos cleared, if_pos again]
    rfl
  · rw [if_neg cleared]

/-- What is kept later is what is kept at both times. -/
theorem filter_again {Row : Type} {rows : List Row} {keepsEarlier keeps : Row -> Bool}
    (mono : forall row, keeps row = true -> keepsEarlier row = true) : (rows.filter keepsEarlier).filter keeps = rows.filter keeps := by
  refine List.filter_filter.trans (List.filter_congr fun row _ => ?_)
  rw [Bool.eq_iff_iff, Bool.and_eq_true]
  exact and_iff_left_of_imp (mono row)

theorem not_mono {first second : Bool} (implies : first = true -> second = true) (kept : (!second) = true) : (!first) = true := by
  cases first with
  | false => rfl
  | true => rw [implies rfl] at kept; cases kept

/-! ## What the purge makes of each table -/

theorem purge_accessTokens (now : Int) (db : Database) : (purgeExpiredMcpTokens now db).accessTokens =
    ((deleteRefreshTokens now db).accessTokens.filter fun row => !(row.expiresAt < now || lt row.revoked now)) :=
  deleteClients_accessTokens

theorem isAbandoned_congr {first second : Database} (refreshTokens : first.refreshTokens = second.refreshTokens)
    (accessTokens : first.accessTokens = second.accessTokens) (client : OauthClient) :
    isAbandoned now first client = isAbandoned now second client := by
  rw [isAbandoned, refreshTokens, accessTokens]
  rfl

theorem purge_clients (now : Int) (db : Database) : (purgeExpiredMcpTokens now db).clients =
    db.clients.filter fun client => !isAbandoned now (purgeExpiredMcpTokens now db) client := by
  refine List.filter_congr fun client _ => congrArg not (isAbandoned_congr ?_ ?_ client)
  · exact deleteClients_refreshTokens.symm
  · exact deleteClients_accessTokens.symm

/-- Databases of which a purge makes the same tables. -/
theorem purge_congr {first second : Database}
    (refreshTokens : (purgeExpiredMcpTokens now first).refreshTokens = (purgeExpiredMcpTokens now second).refreshTokens)
    (accessTokens : (purgeExpiredMcpTokens now first).accessTokens = (purgeExpiredMcpTokens now second).accessTokens)
    (clients : (first.clients.filter fun client => !isAbandoned now (purgeExpiredMcpTokens now second) client) =
      second.clients.filter fun client => !isAbandoned now (purgeExpiredMcpTokens now second) client)
    (clientAssertions : (purgeExpiredMcpTokens now first).clientAssertions = (purgeExpiredMcpTokens now second).clientAssertions)
    (legacyAccessTokens : (purgeExpiredMcpTokens now first).legacyAccessTokens = (purgeExpiredMcpTokens now second).legacyAccessTokens) :
    purgeExpiredMcpTokens now first = purgeExpiredMcpTokens now second := by
  have sameClients : (purgeExpiredMcpTokens now first).clients = (purgeExpiredMcpTokens now second).clients := by
    rw [purge_clients, purge_clients, ← clients]
    exact List.filter_congr fun client _ => congrArg not (isAbandoned_congr refreshTokens accessTokens client)
  generalize purgeExpiredMcpTokens now first = once at *
  generalize purgeExpiredMcpTokens now second = other at *
  cases once
  cases other
  exact Database.mk.injEq .. ▸ ⟨sameClients, refreshTokens, accessTokens, clientAssertions, legacyAccessTokens⟩

/-! ## A statement of an earlier purge -/

theorem absorbs_refreshTokens (le : earlier ≤ now) (db : Database) :
    purgeExpiredMcpTokens now (deleteRefreshTokens earlier db) = purgeExpiredMcpTokens now db := by
  have mono (row : OauthRefreshToken) := not_mono (@isOver_mono earlier now le row)
  refine purge_congr ?_ ?_ rfl rfl rfl
  · rw [purge_refreshTokens, purge_refreshTokens]
    exact congrArg _ (filter_again mono)
  · rw [purge_accessTokens, purge_accessTokens]
    refine congrArg _ (List.filter_filter.trans (List.filter_congr fun row _ => ?_))
    rw [← Bool.not_or, Bool.eq_iff_iff, Bool.not_eq_true', Bool.not_eq_true', ← Bool.not_eq_true, ← Bool.not_eq_true]
    refine not_congr ?_
    simp only [deleteRefreshTokens, Bool.or_eq_true, List.any_eq_true, List.mem_filter, Bool.not_eq_true', Bool.and_eq_true]
    constructor
    · rintro (⟨refresh, present, loses⟩ | ⟨refresh, present, loses⟩)
      · exact ⟨refresh, present.1, loses⟩
      · exact ⟨refresh, present, isOver_mono le loses.1, loses.2⟩
    · rintro ⟨refresh, present, loses⟩
      cases before : isOver earlier refresh with
      | false => exact Or.inl ⟨refresh, ⟨present, before⟩, loses⟩
      | true => exact Or.inr ⟨refresh, present, before, loses.2⟩

theorem absorbs_accessTokens (le : earlier ≤ now) (db : Database) :
    purgeExpiredMcpTokens now (deleteAccessTokens earlier db) = purgeExpiredMcpTokens now db := by
  refine purge_congr ?_ ?_ rfl rfl rfl
  · rw [purge_refreshTokens, purge_refreshTokens]
    rfl
  · have swapped : (deleteRefreshTokens now (deleteAccessTokens earlier db)).accessTokens =
        (deleteRefreshTokens now db).accessTokens.filter fun row => !(row.expiresAt < earlier || lt row.revoked earlier) :=
      List.filter_comm ..
    rw [purge_accessTokens, purge_accessTokens, swapped]
    refine filter_again fun row => not_mono fun past => ?_
    rw [Bool.or_eq_true, decide_eq_true_eq] at past ⊢
    exact past.imp (·.trans_le le) (lt_mono le)

theorem absorbs_clients (le : earlier ≤ now) (db : Database) :
    purgeExpiredMcpTokens now (deleteClients earlier db) = purgeExpiredMcpTokens now db := by
  refine purge_congr ?_ ?_ ?_ rfl rfl
  · rw [purge_refreshTokens, purge_refreshTokens, deleteClients_refreshTokens]
  · rw [purge_accessTokens, purge_accessTokens]
    simp only [deleteRefreshTokens, deleteClients_accessTokens, deleteClients_refreshTokens]
  · refine filter_again fun client => not_mono fun abandoned => ?_
    simp only [isAbandoned, Bool.and_eq_true, Bool.not_eq_true', List.any_eq_false, beq_iff_eq] at abandoned ⊢
    rcases abandoned with ⟨⟨old, noRefresh⟩, noAccess⟩
    refine ⟨⟨lt_mono (Int.sub_le_sub_right le _) old, fun row present isClient => ?_⟩, fun row present => ?_⟩
    · rcases mem_purge_refreshTokens.mp present with ⟨before, among, _, rfl⟩
      exact noRefresh before among ((clearReplayed_clientId now before).symm.trans isClient)
    · exact noAccess row (mem_purge_accessTokens.mp present).1

theorem absorbs_replayResponses (le : earlier ≤ now) (db : Database) :
    purgeExpiredMcpTokens now (clearReplayResponses earlier db) = purgeExpiredMcpTokens now db := by
  have sameRows : clearReplayed now ∘ clearReplayed earlier = clearReplayed now := funext (clearReplayed_clearReplayed le)
  refine purge_congr ?_ ?_ rfl rfl rfl
  · rw [purge_refreshTokens, purge_refreshTokens]
    simp only [clearReplayResponses, List.filter_map, List.map_map, sameRows, Function.comp_def, isOver_clearReplayed]
  · rw [purge_accessTokens, purge_accessTokens]
    simp only [deleteRefreshTokens, clearReplayResponses, List.any_map, Function.comp_def, isOver_clearReplayed, clearReplayed_id]

/-- What an earlier statement deleted or cleared, the purge would as well. -/
theorem purge_absorbs (le : earlier ≤ now) (db : Database) (statement : Statement) :
    purgeExpiredMcpTokens now (statement.perform earlier db) = purgeExpiredMcpTokens now db := by
  cases statement with
  | refreshTokens => exact absorbs_refreshTokens le db
  | accessTokens => exact absorbs_accessTokens le db
  | replayResponses => exact absorbs_replayResponses le db
  | clientAssertions =>
      refine purge_congr rfl rfl rfl (filter_again fun row => not_mono fun expired => ?_) rfl
      exact decide_eq_true ((of_decide_eq_true expired).trans_le le)
  | legacyAccessTokens =>
      refine purge_congr rfl rfl rfl rfl (filter_again fun row => not_mono fun expired => ?_)
      simp only [Bool.and_eq_true, Bool.or_eq_true, decide_eq_true_eq] at expired ⊢
      exact ⟨expired.1.trans_le le, expired.2.imp_right (lt_mono le)⟩
  | clients => exact absorbs_clients le db

/-- A purge leaves the same database whatever statements of purges at no later instants came before it, of which
any may have stopped half-way. -/
theorem purge_after_others {performed : List (Int × Statement)} (le : forall one, one ∈ performed -> one.1 ≤ now) (db : Database) :
    purgeExpiredMcpTokens now (performed.foldl (fun db one => one.2.perform one.1 db) db) = purgeExpiredMcpTokens now db := by
  induction performed generalizing db with
  | nil => rfl
  | cons one rest ih =>
      rw [List.foldl_cons, ih fun other among => le other (List.mem_cons_of_mem _ among)]
      exact purge_absorbs (le one List.mem_cons_self) db one.2

/-- A whole purge came ten days before, and one that stopped behind its first statement. -/
theorem purge_after_others_example :
    purgeExpiredMcpTokens (40 * day) (deleteRefreshTokens (35 * day) (purgeExpiredMcpTokens (30 * day) exampleDatabase)) =
      purgeExpiredMcpTokens (40 * day) exampleDatabase :=
  @purge_after_others (40 * day) [(30 * day, .refreshTokens), (30 * day, .accessTokens), (30 * day, .clientAssertions),
    (30 * day, .replayResponses), (30 * day, .legacyAccessTokens), (30 * day, .clients), (35 * day, .refreshTokens)]
    (by decide) exampleDatabase

/-- The rows of before, under the lifetimes that are set when nothing else is. -/
def defaultDatabase : Database :=
  { exampleDatabase with accessTokens := [{ exampleAccess with expiresAt := 30 * day }] }

end McpOauth
end Dokploy
