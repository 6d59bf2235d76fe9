import Dokploy.RegistryRetention.CurlOutput
import Dokploy.Foundation.Lines

namespace Dokploy
namespace RegistryRetention

open Foundation

/-!
# What is read back

An output that was put together from bodies and marker lines is read back as the
same bodies and markers, when no marker is read in a body and the ids are different
small numbers.  Bodies without the start of a marker are of that kind.
-/

structure Piece where
  id : Nat
  code : Text
  body : Text

/-- The line curl writes after a response. -/
def markerLine (id code : Text) : Text := RESPONSE_MARKER ++ ' ' :: id ++ ' ' :: code

theorem marker_char {char : Char} (member : char ∈ RESPONSE_MARKER) :
    char ≠ '\n' ∧ char ≠ ':' ∧ char ≠ '\\' ∧ char ≠ '%' := by
  have isPlain : RESPONSE_MARKER.all (fun char => char != '\n' && char != ':' && char != '\\' && char != '%') = true := by
    decide
  simpa [and_assoc] using List.all_eq_true.mp isPlain char member

def Piece.text (piece : Piece) : Text :=
  piece.body ++ '\n' :: markerLine (Numerals.decimal piece.id) piece.code ++ ['\n']

structure IsCode (code : Text) : Prop where
  length : code.length = 3
  digits : code.all Json.isDigit = true

/-- A piece that can be told from the next: its body has no marker in it. -/
structure Piece.Clear (piece : Piece) : Prop where
  small : piece.id < 2 ^ 53
  code : IsCode piece.code
  body : ¬ RESPONSE_MARKER <:+: piece.body

structure IsNumber (digits : Text) : Prop where
  some : digits ≠ []
  digits : digits.all Json.isDigit = true

theorem isNumber_decimal (id : Nat) : IsNumber (Numerals.decimal id) where
  some := Numerals.decimal_ne_nil id
  digits := List.all_eq_true.mpr fun _ member => Numerals.isDigit_of_mem_decimal member

def IsBreak (ending : Text) : Prop := ending = ['\n'] ∨ ending = ['\r', '\n']

theorem readStatus_iff (text code rest : Text) :
    readStatus text = some (code, rest) <-> IsCode code ∧ text = code ++ rest := by
  constructor
  · intro read
    unfold readStatus at read
    split at read
    · rename_i first second third after
      split at read
      · rename_i digits
        cases read
        rw [Bool.and_assoc] at digits
        refine ⟨⟨rfl, ?_⟩, rfl⟩
        simpa using digits
      · cases read
    · cases read
  · rintro ⟨⟨length, digits⟩, rfl⟩
    match code, length, digits with
    | [first, second, third], _, digits =>
        simp only [List.all_cons, List.all_nil, Bool.and_true, <- Bool.and_assoc] at digits
        simp [readStatus, digits]

theorem readBreak_iff (text rest : Text) :
    readBreak text = some rest <-> Exists fun ending => IsBreak ending ∧ text = ending ++ rest := by
  constructor
  · intro read
    unfold readBreak at read
    split at read
    · cases read
      exact ⟨['\n'], Or.inl rfl, rfl⟩
    · cases read
      exact ⟨['\r', '\n'], Or.inr rfl, rfl⟩
    · cases read
  · rintro ⟨ending, rfl | rfl, rfl⟩ <;> rfl

theorem takeWhile_number {id : Text} (isNumber : IsNumber id) (rest : Text) :
    (id ++ ' ' :: rest).takeWhile Json.isDigit = id ∧ (id ++ ' ' :: rest).dropWhile Json.isDigit = ' ' :: rest := by
  have digits := List.all_eq_true.mp isNumber.digits
  constructor
  · rw [List.takeWhile_append_of_pos digits]
    simp [Json.isDigit]
  · rw [List.dropWhile_append_of_pos digits]
    simp [Json.isDigit]

theorem readMarker_iff (text id code rest : Text) :
    readMarker text = some (id, code, rest) <-> IsNumber id ∧ IsCode code ∧
      Exists fun ending => IsBreak ending ∧ text = (RESPONSE_MARKER ++ [' ']) ++ (id ++ ' ' :: (code ++ (ending ++ rest))) := by
  have dropped : forall after : Text, ((RESPONSE_MARKER ++ [' ']) ++ after).drop (RESPONSE_MARKER.length + 1) = after := by
    intro after
    rw [<- List.length_singleton (a := ' '), <- List.length_append, List.drop_left]
  constructor
  · intro read
    unfold readMarker at read
    split at read
    · rename_i starts
      rcases List.isPrefixOf_iff_prefix.mp starts with ⟨after, rfl⟩
      rw [dropped] at read
      dsimp only at read
      split at read
      · cases read
      · rename_i notEmpty
        split at read
        · rename_i left follows
          split at read
          · cases read
          · rename_i status behind found
            rcases Option.map_eq_some_iff.mp read with ⟨last, broken, same⟩
            cases same
            rcases (readStatus_iff _ _ _).mp found with ⟨isCode, rfl⟩
            rcases (readBreak_iff _ _).mp broken with ⟨ending, isBreak, rfl⟩
            refine ⟨⟨by simpa using notEmpty, List.all_takeWhile⟩, isCode, ending, isBreak, ?_⟩
            rw [<- follows, List.takeWhile_append_dropWhile]
        · cases read
    · cases read
  · rintro ⟨isNumber, isCode, ending, isBreak, rfl⟩
    have starts : (RESPONSE_MARKER ++ [' ']).isPrefixOf
        ((RESPONSE_MARKER ++ [' ']) ++ (id ++ ' ' :: (code ++ (ending ++ rest)))) = true :=
      List.isPrefixOf_iff_prefix.mpr (List.prefix_append _ _)
    have notEmpty : id.isEmpty = false := by simpa using isNumber.some
    have digits := takeWhile_number isNumber (code ++ (ending ++ rest))
    have status := (readStatus_iff (code ++ (ending ++ rest)) code (ending ++ rest)).mpr ⟨isCode, rfl⟩
    have broken := (readBreak_iff (ending ++ rest) rest).mpr ⟨ending, isBreak, rfl⟩
    rw [readMarker, starts, if_pos rfl, dropped]
    simp only [digits.1, digits.2, notEmpty, status, broken]
    rfl

theorem readMarker_line (id : Nat) {code : Text} (isCode : IsCode code) (rest : Text) :
    readMarker (markerLine (Numerals.decimal id) code ++ '\n' :: rest) = some (Numerals.decimal id, code, rest) := by
  apply (readMarker_iff _ _ _ _).mpr
  refine ⟨isNumber_decimal id, isCode, ['\n'], Or.inl rfl, ?_⟩
  simp only [markerLine, List.append_assoc, List.cons_append, List.nil_append]

theorem readMarker_none {text rest : Text} (clear : ¬ RESPONSE_MARKER <:+: text) :
    readMarker (text ++ '\n' :: rest) = none := by
  have other : (RESPONSE_MARKER ++ [' ']).isPrefixOf (text ++ '\n' :: rest) = false := by
    apply Bool.eq_false_iff.mpr
    intro starts
    have inText := Lines.prefix_of_break (by decide) (List.isPrefixOf_iff_prefix.mp starts)
    exact clear ((List.prefix_append _ _).trans inText).isInfix
  rw [readMarker, other]
  rfl

/-- Behind no line break of the text a marker is read, whatever line follows the text. -/
def Quiet (text : Text) : Prop :=
  forall before after, text = before ++ '\n' :: after -> forall rest, readMarker (after ++ '\n' :: rest) = none

theorem Quiet.of_clear {text : Text} (clear : ¬ RESPONSE_MARKER <:+: text) : Quiet text := by
  rintro before after rfl rest
  apply readMarker_none
  intro inside
  exact clear (inside.trans ((List.suffix_cons _ _).trans (List.suffix_append _ _)).isInfix)

theorem Quiet.tail {char : Char} {text : Text} (quiet : Quiet (char :: text)) : Quiet text := by
  rintro before after rfl rest
  exact quiet (char :: before) after rfl rest

theorem nextMarker_piece {body : Text} (quiet : Quiet body) (id : Nat) {code : Text} (isCode : IsCode code)
    (rest : Text) :
    nextMarker (body ++ '\n' :: (markerLine (Numerals.decimal id) code ++ '\n' :: rest)) =
      some (body, Numerals.decimal id, code, rest) := by
  induction body with
  | nil =>
      rw [List.nil_append, nextMarker, if_pos rfl, readMarker_line id isCode]
  | cons char body ih =>
      have none : (if char = '\n' then
          readMarker (body ++ '\n' :: (markerLine (Numerals.decimal id) code ++ '\n' :: rest)) else none) = none := by
        split
        · rename_i isBreak
          exact quiet [] body (by rw [isBreak]; rfl) _
        · rfl
      rw [List.cons_append, nextMarker, none, ih quiet.tail]
      rfl

/-- A piece in whose body no marker is read. -/
structure Piece.Legible (piece : Piece) : Prop where
  small : piece.id < 2 ^ 53
  code : IsCode piece.code
  quiet : Quiet piece.body

theorem Piece.Clear.legible {piece : Piece} (clear : piece.Clear) : piece.Legible :=
  ⟨clear.small, clear.code, Quiet.of_clear clear.body⟩

theorem Piece.next {piece : Piece} (legible : piece.Legible) (rest : Text) :
    nextMarker (piece.text ++ rest) = some (piece.body, Numerals.decimal piece.id, piece.code, rest) := by
  rw [<- nextMarker_piece legible.quiet piece.id legible.code rest, Piece.text]
  simp only [List.append_assoc, List.cons_append, List.nil_append]

theorem numberOf_decimal {id : Nat} (small : id < 2 ^ 53) : numberOf (Numerals.decimal id) = id := by
  rw [numberOf, Numerals.valueOf_decimal, Numerals.roundToDouble, if_pos small]

def responsesOf (pieces : List Piece) : List (Int × RegistryResponse) :=
  pieces.map fun piece => ((piece.id : Int), readResponse piece.body piece.code)

/-- The ids that are expected, none or at least those of the pieces. -/
def Expects (expected : Option (List Int)) (pieces : List Piece) : Prop :=
  match expected with
  | none => True
  | some ids => pieces.map (fun piece => (piece.id : Int)) <+: ids

/-- Every piece is read as its own response, and nothing is read in what follows without a marker. -/
theorem readResponses_pieces (pieces : List Piece) (legible : forall piece, piece ∈ pieces -> piece.Legible)
    {found : List (Int × RegistryResponse)} {expected : Option (List Int)}
    (distinct : (found.map Prod.fst ++ pieces.map fun piece => (piece.id : Int)).Nodup)
    (expects : Expects expected pieces) {tail : Text} (silent : nextMarker tail = none) {fuel : Nat}
    (enough : (pieces.flatMap Piece.text).length ≤ fuel) :
    readResponses fuel expected found (pieces.flatMap Piece.text ++ tail) = found ++ responsesOf pieces := by
  induction pieces generalizing found expected fuel with
  | nil =>
      rw [responsesOf, List.map_nil, List.append_nil, List.flatMap_nil, List.nil_append]
      cases fuel with
      | zero => rfl
      | succ fuel => rw [readResponses, silent]
  | cons piece pieces ih =>
      have isLegible := legible piece List.mem_cons_self
      have fresh : (piece.id : Int) ∉ found.map Prod.fst := by
        intro old
        exact (List.nodup_append.mp distinct).2.2 _ old _ (List.mem_map_of_mem List.mem_cons_self) rfl
      have added : setEntry found (piece.id : Int) (readResponse piece.body piece.code) =
          found ++ [((piece.id : Int), readResponse piece.body piece.code)] := setEntry_new _ fresh
      have distinctRest : ((found ++ [((piece.id : Int), readResponse piece.body piece.code)]).map Prod.fst ++
          pieces.map fun piece => (piece.id : Int)).Nodup := by
        rw [List.map_append, List.append_assoc]
        exact distinct
      have length : 0 < piece.text.length := by
        rw [Piece.text, List.length_append]
        exact Nat.lt_of_lt_of_le (by decide) (Nat.le_add_left _ _)
      rw [List.flatMap_cons, List.length_append] at enough
      cases fuel with
      | zero => omega
      | succ fuel =>
          have rest : forall left, Expects left pieces -> readResponses fuel left
              (found ++ [((piece.id : Int), readResponse piece.body piece.code)]) (pieces.flatMap Piece.text ++ tail) =
                found ++ responsesOf (piece :: pieces) := by
            intro left expectsLeft
            rw [ih (fun other member => legible other (List.mem_cons_of_mem _ member)) distinctRest
              expectsLeft (by omega), List.append_assoc]
            rfl
          rw [List.flatMap_cons, List.append_assoc, readResponses, Piece.next isLegible]
          cases expected with
          | none =>
              simp only [numberOf_decimal isLegible.small]
              rw [if_neg fresh, added]
              exact rest none trivial
          | some ids =>
              cases ids with
              | nil => exact absurd (List.prefix_nil.mp expects) (List.cons_ne_nil _ _)
              | cons next ids =>
                  rcases List.cons_prefix_cons.mp expects with ⟨same, later⟩
                  simp only [numberOf_decimal isLegible.small]
                  rw [if_pos same.symm, added]
                  exact rest (some ids) later

section JobResult

theorem includes_iff (part text : Text) : includes part text = true <-> part <:+: text := by
  induction text with
  | nil =>
      rw [includes, List.isEmpty_iff]
      exact List.infix_nil.symm
  | cons char rest ih =>
      rw [includes, Bool.or_eq_true, ih, List.isPrefixOf_iff_prefix, List.infix_cons_iff]

theorem afterFirst_start {part : Text} (some : part ≠ []) (rest : Text) : afterFirst part (part ++ rest) = rest := by
  cases part with
  | nil => exact absurd rfl some
  | cons char part =>
      have starts : (char :: part).isPrefixOf (char :: (part ++ rest)) = true :=
        List.isPrefixOf_iff_prefix.mpr (List.prefix_append (char :: part) rest)
      rw [List.cons_append, afterFirst, starts, if_pos rfl]
      exact List.drop_left

theorem splitLines_line {line : Text} (plain : forall char, char ∈ line -> char ≠ '\n' ∧ char ≠ '\r') (rest : Text) :
    splitLines (line ++ '\n' :: rest) = line :: splitLines rest := by
  induction line with
  | nil => rfl
  | cons char line ih =>
      have isPlain := plain char List.mem_cons_self
      have others := ih fun other member => plain other (List.mem_cons_of_mem _ member)
      rw [List.cons_append, splitLines.eq_4 char _ isPlain.1 fun _ same _ => isPlain.2 same, others]

/-- The result file of a job with these pieces. -/
def resultText (token : Text) (pieces : List Piece) : Text :=
  JOB_RESULT_MARKER ++ ' ' :: token ++ '\n' :: pieces.flatMap Piece.text

/-- What the status command prints when the job is over. -/
def statusText (result : Text) : Text := JOB_IDLE_MARKER ++ '\n' :: result

structure IsToken (token : Text) : Prop where
  some : token ≠ []
  digits : token.all isLowerHex = true

theorem readJobHeader_result {token : Text} (isToken : IsToken token) (rest : Text) :
    readJobHeader ('\n' :: (JOB_RESULT_MARKER ++ ' ' :: token ++ '\n' :: rest)) = some (token, rest) := by
  have shape : JOB_RESULT_MARKER ++ ' ' :: token ++ '\n' :: rest =
      (JOB_RESULT_MARKER ++ [' ']) ++ (token ++ '\n' :: rest) := by
    simp only [List.append_assoc, List.cons_append, List.nil_append]
  have starts : (JOB_RESULT_MARKER ++ [' ']).isPrefixOf ((JOB_RESULT_MARKER ++ [' ']) ++ (token ++ '\n' :: rest)) = true :=
    List.isPrefixOf_iff_prefix.mpr (List.prefix_append _ _)
  have dropped : ((JOB_RESULT_MARKER ++ [' ']) ++ (token ++ '\n' :: rest)).drop (JOB_RESULT_MARKER.length + 1) =
      token ++ '\n' :: rest := by
    rw [<- List.length_singleton (a := ' '), <- List.length_append, List.drop_left]
  have hexadecimal := List.all_eq_true.mp isToken.digits
  have taken : (token ++ '\n' :: rest).takeWhile isLowerHex = token := by
    rw [List.takeWhile_append_of_pos hexadecimal, List.takeWhile_cons_of_neg (by decide), List.append_nil]
  have left : (token ++ '\n' :: rest).dropWhile isLowerHex = '\n' :: rest := by
    rw [List.dropWhile_append_of_pos hexadecimal, List.dropWhile_cons_of_neg (by decide)]
  have notEmpty : token.isEmpty = false := by
    simpa using isToken.some
  have broken : readBreak ('\n' :: ((JOB_RESULT_MARKER ++ [' ']) ++ (token ++ '\n' :: rest))) =
      some ((JOB_RESULT_MARKER ++ [' ']) ++ (token ++ '\n' :: rest)) := rfl
  rw [shape, readJobHeader, broken, Option.bind_eq_bind, Option.bind_some, starts, if_pos rfl, dropped]
  simp only [taken, left, notEmpty]
  rfl

theorem not_infix_of_letter {part line : Text} {letter : Char} (inside : letter ∈ part) (absent : letter ∉ line) :
    ¬ part <:+: line := fun occurs => absent (occurs.subset inside)

theorem not_infix_pieces {part : Text} (whole : '\n' ∉ part) (starts : RESPONSE_MARKER <:+: part) (letter : 'N' ∈ part)
    (pieces : List Piece) (clear : forall piece, piece ∈ pieces -> piece.Clear) :
    ¬ part <:+: pieces.flatMap Piece.text := by
  induction pieces with
  | nil =>
      intro occurs
      rw [List.flatMap_nil, List.infix_nil] at occurs
      rw [occurs] at letter
      cases letter
  | cons piece pieces ih =>
      have isClear := clear piece List.mem_cons_self
      have shape : (piece :: pieces).flatMap Piece.text = piece.body ++ '\n' ::
          (markerLine (Numerals.decimal piece.id) piece.code ++ '\n' :: pieces.flatMap Piece.text) := by
        simp only [List.flatMap_cons, Piece.text, List.append_assoc, List.cons_append, List.nil_append]
      have noDigit : forall digits : Text, digits.all Json.isDigit = true -> 'N' ∉ digits := by
        intro digits all member
        have digit := List.all_eq_true.mp all 'N' member
        exact absurd digit (by decide)
      have decimalDigits : (Numerals.decimal piece.id).all Json.isDigit = true :=
        List.all_eq_true.mpr fun char member => Numerals.isDigit_of_mem_decimal member
      have markerFree : 'N' ∉ markerLine (Numerals.decimal piece.id) piece.code := by
        simp only [markerLine, List.mem_append, List.mem_cons, not_or]
        exact ⟨⟨by decide, by decide, noDigit _ decimalDigits⟩, by decide, noDigit _ isClear.code.digits⟩
      intro occurs
      rw [shape] at occurs
      rcases Lines.infix_of_break whole occurs with inBody | later
      · exact isClear.body (starts.trans inBody)
      · rcases Lines.infix_of_break whole later with inMarker | inRest
        · exact not_infix_of_letter letter markerFree inMarker
        · exact ih (fun other member => clear other (List.mem_cons_of_mem _ member)) inRest

theorem not_infix_status {part token : Text} (whole : '\n' ∉ part) (starts : RESPONSE_MARKER <:+: part)
    (letter : 'N' ∈ part) (isToken : IsToken token) (pieces : List Piece)
    (clear : forall piece, piece ∈ pieces -> piece.Clear) :
    includes part (statusText (resultText token pieces)) = false := by
  apply Bool.eq_false_iff.mpr
  intro occurs
  have tokenFree : 'N' ∉ JOB_RESULT_MARKER ++ ' ' :: token := by
    simp only [List.mem_append, List.mem_cons, not_or]
    refine ⟨by decide, by decide, fun member => ?_⟩
    exact absurd (List.all_eq_true.mp isToken.digits 'N' member) (by decide)
  rcases Lines.infix_of_break whole ((includes_iff _ _).mp occurs) with inIdle | later
  · exact not_infix_of_letter letter (by decide) inIdle
  · rcases Lines.infix_of_break whole later with inHeader | inPieces
    · exact not_infix_of_letter letter tokenFree inHeader
    · exact not_infix_pieces whole starts letter pieces clear inPieces

theorem parseRegistryJobOutput_result {token : Text} (isToken : IsToken token) (pieces : List Piece)
    (clear : forall piece, piece ∈ pieces -> piece.Clear) (distinct : (pieces.map Piece.id).Nodup)
    {expected : Option (List Int)} (expects : Expects expected pieces) :
    parseRegistryJobOutput (statusText (resultText token pieces)) expected = .idle (some token) (responsesOf pieces) := by
  have noCurl := @not_infix_status NO_CURL_MARKER token (by decide) (by decide) (by decide) isToken pieces clear
  have noFlock := @not_infix_status NO_FLOCK_MARKER token (by decide) (by decide) (by decide) isToken pieces clear
  have idlePlain : forall char, char ∈ JOB_IDLE_MARKER -> char ≠ '\n' ∧ char ≠ '\r' := fun char inside =>
    of_decide_eq_true (List.all_eq_true.mp
      (by decide : JOB_IDLE_MARKER.all (fun char => decide (char ≠ '\n' ∧ char ≠ '\r')) = true) char inside)
  have first : ((splitLines (statusText (resultText token pieces))).find? statusStart.isPrefixOf).map trim =
      some JOB_IDLE_MARKER := by
    rw [statusText, splitLines_line idlePlain, List.find?_cons_of_pos (by decide)]
    decide
  have after : afterFirst JOB_IDLE_MARKER (statusText (resultText token pieces)) = '\n' :: resultText token pieces :=
    afterFirst_start (by decide) _
  have ids : (([] : List (Int × RegistryResponse)).map Prod.fst ++ pieces.map fun piece => (piece.id : Int)).Nodup := by
    rw [List.map_nil, List.nil_append]
    have images := distinct.map (f := fun id : Nat => (id : Int)) fun _ _ same => Int.ofNat.inj same
    rw [List.map_map] at images
    exact images
  have read := readResponses_pieces pieces (fun piece member => (clear piece member).legible) ids expects
    (rfl : nextMarker [] = none) (Nat.le_refl _)
  rw [List.append_nil] at read
  unfold parseRegistryJobOutput
  rw [noCurl, noFlock, first, after, resultText, readJobHeader_result isToken]
  simp only [parseRegistryResponses, read]
  rfl

end JobResult

end RegistryRetention
end Dokploy
