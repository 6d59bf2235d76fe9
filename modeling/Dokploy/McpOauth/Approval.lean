import Dokploy.McpOauth.Consent

namespace Dokploy
namespace McpOauth

open Foundation
open Foundation.Unicode

/-!
# No authorization without an approval

A message determines every field it was built from: the written texts are read
back one after the other, the scopes up to their order, and the expiry from its
digits.  A proof that is accepted therefore carries the signature of a message
that was signed for the very parameters of the request.
-/

theorem notMem_of_splitOn {separator : UInt16} {text word : Units} (member : word ∈ text.splitOn separator) :
    separator ∉ word := by
  induction text generalizing word with
  | nil =>
      rw [List.splitOn_nil, List.mem_singleton] at member
      rw [member]
      exact List.not_mem_nil
  | cons unit rest ih =>
      rw [List.splitOn_cons_eq_if_modifyHead] at member
      by_cases same : (unit == separator) = true
      · rw [if_pos same] at member
        rcases List.mem_cons.mp member with empty | later
        · rw [empty]
          exact List.not_mem_nil
        · exact ih later
      · rw [if_neg same] at member
        cases words : rest.splitOn separator with
        | nil => exact absurd words (List.splitOn_ne_nil separator rest)
        | cons first more =>
            rw [words, List.modifyHead_cons] at member
            rcases List.mem_cons.mp member with extended | later
            · rw [extended]
              intro inside
              rcases List.mem_cons.mp inside with here | inFirst
              · exact same (beq_iff_eq.mpr here.symm)
              · exact ih (words ▸ List.mem_cons_self) inFirst
            · exact ih (words ▸ List.mem_cons_of_mem _ later)

theorem scopeWords_intercalate {words : List Units}
    (areWords : forall word, word ∈ words -> word ≠ [] ∧ SPACE ∉ word) :
    scopeWords ([SPACE].intercalate words) = words := by
  cases words with
  | nil => rfl
  | cons first rest =>
      rw [scopeWords, List.splitOn_intercalate SPACE (fun word member => (areWords word member).2)
        (List.cons_ne_nil _ _)]
      exact List.filter_eq_self.mpr fun word member => decide_eq_true (areWords word member).1

theorem scopeWords_canonicalScope (scope : Units) :
    (scopeWords (canonicalScope scope)).Perm (scopeWords scope) := by
  have sorted : ((scopeWords scope).insertionSort (· ≤ ·)).Perm (scopeWords scope) := List.perm_insertionSort _ _
  rw [canonicalScope, scopeWords_intercalate]
  · exact sorted
  · intro word member
    rcases List.mem_filter.mp (sorted.mem_iff.mp member) with ⟨split, nonempty⟩
    exact ⟨of_decide_eq_true nonempty, notMem_of_splitOn split⟩

theorem bytes_injective {first second : List Char} (same : utf8 first = utf8 second) : first = second := by
  rw [← read_utf8 first, same, read_utf8 second]

theorem consentProofMessage_injective {payload expected : ConsentProofPayload} {exp exp' : Int}
    (same : consentProofMessage payload exp = consentProofMessage expected exp') :
    payload.userId = expected.userId ∧ payload.clientId = expected.clientId ∧
      payload.redirectUri = expected.redirectUri ∧ payload.state = expected.state ∧
      payload.codeChallenge = expected.codeChallenge ∧
      canonicalScope payload.scope = canonicalScope expected.scope ∧
      Numerals.numberText exp = Numerals.numberText exp' := by
  simp only [consentProofMessage, Stringify.array, List.intercalate_cons_cons, List.intercalate_singleton,
    List.append_assoc, List.cons.injEq, true_and] at same
  rcases Stringify.quote_append_inj same with ⟨user, afterUser⟩
  rcases Stringify.quote_append_inj (List.append_cancel_left afterUser) with ⟨client, afterClient⟩
  rcases Stringify.quote_append_inj (List.append_cancel_left afterClient) with ⟨redirect, afterRedirect⟩
  rcases Stringify.quote_append_inj (List.append_cancel_left afterRedirect) with ⟨state, afterState⟩
  rcases Stringify.quote_append_inj (List.append_cancel_left afterState) with ⟨challenge, afterChallenge⟩
  rcases Stringify.quote_append_inj (List.append_cancel_left afterChallenge) with ⟨scope, afterScope⟩
  exact ⟨user, client, redirect, state, challenge, scope,
    List.append_cancel_right (List.append_cancel_left afterScope)⟩

theorem isDouble_parseInt {text : Units} {exp : Int} (parsed : parseInt text = some exp) : Numerals.IsDouble exp := by
  unfold parseInt at parsed
  dsimp only at parsed
  split at parsed
  · cases parsed
  · have rounded : forall value, Numerals.IsDouble (Numerals.roundToDouble value : Nat) := fun value => by
      rw [Numerals.IsDouble, Int.natAbs_natCast, Numerals.roundToDouble_again]
    rw [← Option.some.inj parsed]
    split
    · rw [Numerals.IsDouble, Int.natAbs_neg]
      exact rounded _
    · exact rounded _

section Gate

variable {hmacSha256 : Units -> List UInt8 -> Units} {secret : Units} {query : AuthorizeQuery}
  {approvals : List Approval} {userId : Units} {now : Int}

theorem accepted_proof {proof : Units} {expected : ConsentProofPayload}
    (accepted : verifyConsentProof hmacSha256 proof expected secret now = true) :
    Exists fun start => Exists fun given => Exists fun exp => proof = start ++ given ∧ Numerals.IsDouble exp ∧
      now ≤ exp ∧ bytesOf given = bytesOf (sign hmacSha256 (consentProofMessage expected exp) secret) := by
  unfold verifyConsentProof at accepted
  split at accepted
  · cases accepted
  · rename_i dot _
    split at accepted
    · cases accepted
    · split at accepted
      · cases accepted
      · rename_i exp parsed
        split at accepted
        · cases accepted
        · rename_i current
          exact ⟨proof.take (dot + 1), proof.drop (dot + 1), exp, (List.take_append_drop _ _).symm,
            isDouble_parseInt parsed, not_lt.mp (not_or.mp current).2, beq_iff_eq.mp accepted⟩

theorem covered_of_allowed (injective : Function.Injective (hmacSha256 secret))
    (unforged : Unforged hmacSha256 secret approvals (query.string "consent"))
    (allowed : evaluateMcpAuthorizeGate hmacSha256 query (some userId) secret now = .allow) :
    Exists fun approval => approval ∈ approvals ∧ approval.Covers query userId now := by
  unfold evaluateMcpAuthorizeGate at allowed
  dsimp only at allowed
  split at allowed
  · rename_i accepted
    rcases accepted_proof accepted with ⟨start, given, exp, split, isDouble, lasts, signature⟩
    rcases unforged start given _ split signature with ⟨approval, member, signed⟩
    rcases consentProofMessage_injective (bytes_injective (injective signed)) with
      ⟨user, client, redirect, state, challenge, scope, expiry⟩
    have sameExpiry := Numerals.numberText_injective approval.isDouble isDouble expiry
    refine ⟨approval, member, user, client, redirect, state, challenge, ?_, sameExpiry ▸ lasts⟩
    exact (scopeWords_canonicalScope _).symm.trans (scope ▸ scopeWords_canonicalScope _)
  · cases allowed

theorem setParam_new {params : List (List Char × List Char)} {key value : List Char}
    (absent : key ∉ params.map Prod.fst) : setParam params key value = params ++ [(key, value)] := by
  induction params with
  | nil => rfl
  | cons param rest ih =>
      rw [List.map_cons, List.mem_cons, not_or] at absent
      rw [setParam, if_neg fun same => absent.1 same.symm, ih absent.2]
      rfl

theorem keptParams_eq (query : AuthorizeQuery) : keptParams query = singleValued query := by
  have folded (add : List (List Char × List Char) -> List Char × QueryValue -> List (List Char × List Char))
      (kept : List Char × QueryValue -> Option (List Char × List Char))
      (adds : forall params entry, entry.1 ∉ params.map Prod.fst -> add params entry = params ++ (kept entry).toList)
      (named : forall entry param, kept entry = some param -> param.1 = entry.1) :
      forall (entries : List (List Char × QueryValue)) (params : List (List Char × List Char)),
        (params.map Prod.fst ++ entries.map Prod.fst).Nodup -> entries.foldl add params = params ++ entries.filterMap kept := by
    intro entries
    induction entries with
    | nil => exact fun params _ => (List.append_nil params).symm
    | cons entry rest ih =>
        intro params distinct
        rw [List.map_cons] at distinct
        have absent : entry.1 ∉ params.map Prod.fst := fun member =>
          (List.nodup_append.mp distinct).2.2 _ member _ List.mem_cons_self rfl
        rw [List.foldl_cons, List.filterMap_cons, adds params entry absent]
        cases value : kept entry with
        | none =>
            rw [Option.toList_none, List.append_nil]
            exact ih params (distinct.sublist ((List.Sublist.refl _).append (List.sublist_cons_self _ _)))
        | some param =>
            rw [Option.toList_some, ih, List.append_assoc, List.singleton_append]
            rw [List.map_append, List.map_singleton, named entry param value, List.append_assoc]
            exact distinct
  refine folded _ _ (fun params entry absent => ?_) (fun entry param isKept => ?_) query.entries [] query.distinct
  · cases value : entry.2 with
    | other => exact (List.append_nil params).symm
    | text chars =>
        dsimp only
        split
        · exact setParam_new absent
        · exact (List.append_nil params).symm
  · cases value : entry.2 with
    | other =>
        rw [value] at isKept
        cases isKept
    | text chars =>
        rw [value] at isKept
        dsimp only at isKept
        split at isKept
        · cases isKept
          rfl
        · cases isKept

theorem location_read (params : List (List Char × List Char)) :
    pathOf (MCP_AUTHORIZE_PAGE_PATH ++ '?' :: FormUrl.ascii (FormUrl.serialize params)) = MCP_AUTHORIZE_PAGE_PATH ∧
      paramsOf (MCP_AUTHORIZE_PAGE_PATH ++ '?' :: FormUrl.ascii (FormUrl.serialize params)) = params := by
  have path : forall char, char ∈ MCP_AUTHORIZE_PAGE_PATH -> decide (char ≠ '?') = true :=
    List.all_eq_true.mp (by decide)
  have noFragment : forall char, char ∈ FormUrl.ascii (FormUrl.serialize params) -> decide (char ≠ '#') = true := by
    intro char member
    rcases List.mem_map.mp member with ⟨byte, written, same⟩
    have small := FormUrl.mem_serialize params byte written
    have value : (Char.ofNat byte.toNat).toNat = byte.toNat := toNat_ofNat (by unfold Nat.isValidChar; omega)
    refine decide_eq_true ?_
    rintro rfl
    rw [same] at value
    exact small.1 (UInt8.toNat_inj.mp value.symm)
  constructor
  · unfold pathOf
    rw [List.takeWhile_append_of_pos path, List.takeWhile_cons_of_neg (by decide), List.append_nil]
  · unfold paramsOf
    rw [List.dropWhile_append_of_pos path, List.dropWhile_cons_of_neg (by decide), List.drop_one, List.tail_cons,
      List.takeWhile_eq_self_iff.mpr noFragment, FormUrl.parse_serialize]

end Gate

def someApproval : Approval where
  payload :=
    { userId := utf16 "u1".toList
      clientId := utf16 "c1".toList
      redirectUri := utf16 "https://a.b/cb".toList
      state := utf16 "s1".toList
      codeChallenge := utf16 "h1".toList
      scope := utf16 "b a".toList }
  expiresAt := 1700000300000
  isDouble := by decide

def someMessage : List UInt8 := utf8 (consentProofMessage someApproval.payload someApproval.expiresAt)

/-- The signature of the message above under the secret "secret".  Other
messages have signatures that no proof of it contains. -/
def someSignature (secret : Units) (message : List UInt8) : Units :=
  if secret = utf16 "secret".toList ∧ message = someMessage then
    utf16 "MjYFz4NybNGhC52DDqa4c3pqzk4HaBEW0WuhnbufqS4".toList
  else 0x23 :: message.map fun byte => UInt16.ofNat byte.toNat

def someRequest : AuthorizeQuery where
  entries :=
    [("client_id".toList, .text "c1".toList), ("redirect_uri".toList, .text "https://a.b/cb".toList),
      ("state".toList, .text "s1".toList), ("code_challenge".toList, .text "h1".toList),
      ("scope".toList, .text "a  b".toList),
      ("consent".toList, .text "1700000300000.MjYFz4NybNGhC52DDqa4c3pqzk4HaBEW0WuhnbufqS4".toList),
      ("resource".toList, .other)]
  distinct := by decide

theorem someSignature_injective : Function.Injective (someSignature (utf16 "secret".toList)) := by
  have letters : forall message : List UInt8,
      utf16 "MjYFz4NybNGhC52DDqa4c3pqzk4HaBEW0WuhnbufqS4".toList ≠
        0x23 :: message.map fun byte => UInt16.ofNat byte.toNat := by
    intro message same
    have heads := congrArg List.head? same
    rw [List.head?_cons] at heads
    exact absurd heads (by decide)
  intro first second same
  unfold someSignature at same
  by_cases signed : first = someMessage <;> by_cases signed' : second = someMessage
  · rw [signed, signed']
  · rw [if_pos ⟨rfl, signed⟩, if_neg fun both => signed' both.2] at same
    exact absurd same (letters second)
  · rw [if_neg fun both => signed both.2, if_pos ⟨rfl, signed'⟩] at same
    exact absurd same.symm (letters first)
  · rw [if_neg fun both => signed both.2, if_neg fun both => signed' both.2] at same
    refine List.map_injective_iff.mpr (fun byte other units => ?_) (List.cons.inj same).2
    have values := congrArg UInt16.toNat units
    rw [UInt16.toNat_ofNat_of_lt' (byte.toNat_lt.trans (by decide)),
      UInt16.toNat_ofNat_of_lt' (other.toNat_lt.trans (by decide))] at values
    exact UInt8.toNat_inj.mp values

theorem someRequest_unforged :
    Unforged someSignature (utf16 "secret".toList) [someApproval] (someRequest.string "consent") := by
  intro start given message split bytes
  refine ⟨someApproval, List.mem_singleton_self _, ?_⟩
  by_cases signed : message = someMessage
  · rw [signed]
    rfl
  · -- The marker of another signature is in no suffix of the proof.
    exfalso
    have marked : 0x23 ∈ bytesOf (someSignature (utf16 "secret".toList) message) := by
      rw [someSignature, if_neg fun both => signed both.2, bytesOf, characters_cons (by decide)]
      exact List.mem_append_left _ (by decide)
    have unmarked : forall count, count < (someRequest.string "consent").length + 1 ->
        0x23 ∉ bytesOf ((someRequest.string "consent").drop count) := by decide +kernel
    have suffix : given = (someRequest.string "consent").drop start.length := by rw [split, List.drop_left]
    have inside : start.length < (someRequest.string "consent").length + 1 := by
      rw [split, List.length_append]
      omega
    rw [← bytes, suffix] at marked
    exact unmarked start.length inside marked

end McpOauth
end Dokploy
