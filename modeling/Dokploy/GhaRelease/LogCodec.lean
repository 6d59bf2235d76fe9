import Dokploy.GhaRelease.LogManifest
import Mathlib.Data.List.Forall2

namespace Dokploy
namespace GhaRelease

open Foundation
open Foundation.Unicode

/-!
# Marker lines are read back

A payload decodes to the text it was made of, and no other payload decodes to
that text.  Around the payload a line may carry a byte order mark, a timestamp
and a carriage return; they are taken off again, whatever the timestamp is.
-/

theorem letter_toNat {nibble : Nat} (small : nibble < 16) : (letter nibble).toNat = A + nibble := by
  unfold letter A
  rw [UInt16.toNat_ofNat']
  omega

theorem isNibble_letter {nibble : Nat} (small : nibble < 16) : isNibble (letter nibble) = true := by
  rw [isNibble, letter_toNat small]
  exact decide_eq_true (by unfold A; omega)

private theorem halves (byte : UInt8) :
    byte.toNat >>> 4 = byte.toNat / 16 ∧ (byte.toNat &&& 15) = byte.toNat % 16 ∧ byte.toNat / 16 < 16 := by
  have bound := byte.toNat_lt
  refine ⟨Nat.shiftRight_eq_div_pow _ 4, Nat.and_two_pow_sub_one_eq_mod _ 4, ?_⟩
  omega

theorem byteOf_letters (byte : UInt8) : byteOf (letter (byte.toNat >>> 4)) (letter (byte.toNat &&& 15)) = byte := by
  rcases halves byte with ⟨high, low, small⟩
  rw [byteOf, high, low, letter_toNat small, letter_toNat (Nat.mod_lt _ (by decide)), Nat.add_sub_cancel_left,
    Nat.add_sub_cancel_left, <- Nat.shiftLeft_add_eq_or_of_lt (Nat.mod_lt _ (by decide)), Nat.shiftLeft_eq]
  have whole : byte.toNat / 16 * 2 ^ 4 + byte.toNat % 16 = byte.toNat := by omega
  rw [whole, UInt8.ofNat_toNat]

def letters (bytes : List UInt8) : Units :=
  bytes.flatMap fun byte => [letter (byte.toNat >>> 4), letter (byte.toNat &&& 15)]

theorem payloadBytes_letters (bytes : List UInt8) : payloadBytes (letters bytes) = bytes := by
  induction bytes with
  | nil => rfl
  | cons byte rest ih =>
      have unfolded : letters (byte :: rest) =
          letter (byte.toNat >>> 4) :: letter (byte.toNat &&& 15) :: letters rest := rfl
      rw [unfolded, payloadBytes, byteOf_letters, ih]

theorem length_letters (bytes : List UInt8) : (letters bytes).length = 2 * bytes.length := by
  induction bytes with
  | nil => rfl
  | cons byte rest ih =>
      have unfolded : letters (byte :: rest) =
          letter (byte.toNat >>> 4) :: letter (byte.toNat &&& 15) :: letters rest := rfl
      rw [unfolded, List.length_cons, List.length_cons, ih, List.length_cons]
      omega

variable {unit : UInt16}

theorem isNibble_of_mem_letters {bytes : List UInt8} (member : unit ∈ letters bytes) :
    isNibble unit = true := by
  rcases List.mem_flatMap.mp member with ⟨byte, _, isLetter⟩
  rcases halves byte with ⟨high, low, small⟩
  rw [high, low] at isLetter
  rcases List.mem_cons.mp isLetter with here | later
  · exact here ▸ isNibble_letter small
  · exact List.mem_singleton.mp later ▸ isNibble_letter (Nat.mod_lt _ (by decide))

theorem encodeMarkerPayload_utf16 (chars : List Char) : encodeMarkerPayload (utf16 chars) = letters (utf8 chars) := by
  rw [encodeMarkerPayload, characters_utf16]
  rfl

variable {chars : List Char}

theorem utf8_ne_nil (some : chars ≠ []) : utf8 chars ≠ [] := by
  cases chars with
  | nil => exact absurd rfl some
  | cons char rest => exact List.append_ne_nil_of_left_ne_nil String.utf8EncodeChar_ne_nil _

/-- A manifest text: whole characters, some, and not more bytes than a manifest
may have. -/
structure IsManifestText (chars : List Char) : Prop where
  some : chars ≠ []
  fits : (utf8 chars).length ≤ MANIFEST_MAX_BYTES

theorem decodeMarkerPayload_encodeMarkerPayload (some : chars ≠ []) :
    decodeMarkerPayload (encodeMarkerPayload (utf16 chars)) = .some (utf16 chars) := by
  have length := length_letters (utf8 chars)
  have bytes := List.length_pos_of_ne_nil (utf8_ne_nil some)
  have nibbles : (letters (utf8 chars)).all isNibble = true :=
    List.all_eq_true.mpr fun unit member => isNibble_of_mem_letters member
  rw [encodeMarkerPayload_utf16, decodeMarkerPayload, if_neg (by omega), nibbles, payloadBytes_letters, read_utf8]
  simp only [encodeMarkerPayload_utf16, Bool.not_true, Bool.false_eq_true, if_false, if_true]

theorem encodeMarkerPayload_of_decodeMarkerPayload {payload text : Units}
    (decodes : decodeMarkerPayload payload = some text) : encodeMarkerPayload text = payload := by
  simp only [decodeMarkerPayload] at decodes
  split at decodes
  · cases decodes
  · split at decodes
    · cases decodes
    · split at decodes
      · rename_i same
        exact Option.some.inj decodes ▸ same
      · cases decodes

variable {line : Units}

theorem matchUnits_append {tests : List (UInt16 -> Bool)} {rest : Units} (more : Units)
    (isMatch : matchUnits tests line = some rest) : matchUnits tests (line ++ more) = some (rest ++ more) := by
  induction tests generalizing line with
  | nil =>
      cases isMatch
      rfl
  | cons test tests ih =>
      cases line with
      | nil => cases isMatch
      | cons unit line =>
          simp only [matchUnits, List.cons_append] at isMatch ⊢
          split at isMatch
          · rename_i passes
            rw [if_pos passes]
            exact ih isMatch
          · cases isMatch

theorem mem_of_matchUnits {tests : List (UInt16 -> Bool)} {rest : Units}
    (isMatch : matchUnits tests line = some rest) (member : unit ∈ line) :
    (Exists fun test => test ∈ tests ∧ test unit = true) ∨ unit ∈ rest := by
  induction tests generalizing line with
  | nil =>
      cases isMatch
      exact Or.inr member
  | cons test tests ih =>
      cases line with
      | nil => cases isMatch
      | cons first line =>
          simp only [matchUnits] at isMatch
          split at isMatch
          · rename_i passes
            rcases List.mem_cons.mp member with here | later
            · exact Or.inl ⟨test, List.mem_cons_self, here ▸ passes⟩
            · exact (ih isMatch later).imp_left fun ⟨other, inTests, accepts⟩ =>
                ⟨other, List.mem_cons_of_mem _ inTests, accepts⟩
          · cases isMatch

theorem skipFraction_of_head (noPoint : line.head? ≠ some 46) : skipFraction line = line := by
  unfold skipFraction
  split
  · exact absurd rfl noPoint
  · rfl

theorem skipFraction_append (more : Units) (ended : (skipFraction line).head? = some 90) :
    skipFraction (line ++ more) = skipFraction line ++ more := by
  by_cases point : line.head? = some 46
  · cases line with
    | nil => cases point
    | cons first line =>
        obtain rfl := Option.some.inj point
        cases line with
        | nil => cases ended
        | cons digit rest =>
            simp only [skipFraction, List.cons_append] at ended ⊢
            split at ended
            · rename_i accepted
              have some : (rest.dropWhile isDigit).isEmpty = false := by
                cases left : rest.dropWhile isDigit with
                | nil =>
                    rw [left] at ended
                    cases ended
                | cons unit units => rfl
              rw [if_pos accepted, if_pos accepted, List.dropWhile_append, some]
              rfl
            · cases ended
  · rw [skipFraction_of_head point] at ended ⊢
    apply skipFraction_of_head
    rw [List.head?_append, ended]
    exact fun impossible => by cases impossible

theorem mem_of_skipFraction (member : unit ∈ line) :
    unit = 46 ∨ isDigit unit = true ∨ unit ∈ skipFraction line := by
  unfold skipFraction
  split
  · rename_i digit rest
    split
    · rename_i accepted
      rcases List.mem_cons.mp member with here | later
      · exact Or.inl here
      · rcases List.mem_cons.mp later with here | inRest
        · exact Or.inr (Or.inl (here ▸ accepted))
        · rw [<- @List.takeWhile_append_dropWhile _ isDigit rest] at inRest
          rcases List.mem_append.mp inRest with taken | dropped
          · exact Or.inr (Or.inl (List.all_eq_true.mp List.all_takeWhile _ taken))
          · exact Or.inr (Or.inr dropped)
    · exact Or.inr (Or.inr member)
  · exact Or.inr (Or.inr member)

/-- A timestamp as GitHub puts it in front of a line. -/
def Timestamp (stamp : Units) : Prop := afterTimestamp stamp = some []

theorem afterTimestamp_append {stamp : Units} (isStamp : Timestamp stamp) (more : Units) :
    afterTimestamp (stamp ++ more) = some more := by
  rcases Option.bind_eq_some_iff.mp isStamp with ⟨rest, dated, ended⟩
  have head : (skipFraction rest).head? = some 90 := by
    cases left : skipFraction rest with
    | nil =>
        rw [left] at ended
        cases ended
    | cons unit units =>
        rw [left, matchUnits] at ended
        split at ended
        · rename_i isZ
          exact congrArg some (beq_iff_eq.mp isZ)
        · cases ended
  rw [afterTimestamp, matchUnits_append more dated, Option.bind_some, skipFraction_append more head,
    matchUnits_append more ended, List.nil_append]

theorem newline_not_mem_of_timestamp {stamp : Units} (isStamp : Timestamp stamp) : NEWLINE ∉ stamp := by
  intro member
  rcases Option.bind_eq_some_iff.mp isStamp with ⟨rest, dated, ended⟩
  have noTest : forall tests : List (UInt16 -> Bool), (tests.all fun test => !test NEWLINE) = true ->
      ¬ Exists fun test => test ∈ tests ∧ test NEWLINE = true := by
    rintro tests rejects ⟨test, inTests, accepts⟩
    have rejected := List.all_eq_true.mp rejects test inTests
    rw [accepts] at rejected
    cases rejected
  have inRest := (mem_of_matchUnits dated member).resolve_left (noTest dateTime (by decide))
  rcases mem_of_skipFraction inRest with point | digit | left
  · cases point
  · cases digit
  · have inNothing := (mem_of_matchUnits ended left).resolve_left (noTest _ (by decide))
    cases inNothing

/-- A marker line with a payload: in front of the marker perhaps a byte order
mark and a timestamp, at the end perhaps a carriage return. -/
def IsMarkerLine (payload line : Units) : Prop :=
  Exists fun mark : Units => Exists fun stamp : Units => Exists fun ending : Units =>
    (mark = [] ∨ mark = [BOM]) ∧ (stamp = [] ∨ Timestamp stamp) ∧ (ending = [] ∨ ending = [CARRIAGE_RETURN]) ∧
      line = mark ++ (stamp ++ (LOG_MARKER ++ (payload ++ ending)))

/-- A line that does not start with the marker, also after a byte order mark and
a timestamp. -/
def Plain (line : Units) : Prop := NEWLINE ∉ line ∧ ¬ LOG_MARKER <+: unstamped line

theorem LOG_MARKER_eq : LOG_MARKER = 100 :: LOG_MARKER.tail := rfl

theorem afterTimestamp_marker (rest : Units) : afterTimestamp (LOG_MARKER ++ rest) = none := by
  rw [LOG_MARKER_eq]
  rfl

theorem isDigit_head_of_timestamp {stamp : Units} (isStamp : Timestamp stamp) :
    Exists fun unit => Exists fun rest => stamp = unit :: rest ∧ isDigit unit = true := by
  rcases Option.bind_eq_some_iff.mp isStamp with ⟨_, dated, _⟩
  cases stamp with
  | nil => cases dated
  | cons unit rest =>
      rw [dateTime, matchUnits] at dated
      split at dated
      · rename_i digit
        exact ⟨unit, rest, rfl, digit⟩
      · cases dated

theorem unstamped_marker {mark stamp : Units} (rest : Units) (isMark : mark = [] ∨ mark = [BOM])
    (isStamp : stamp = [] ∨ Timestamp stamp) :
    unstamped (mark ++ (stamp ++ (LOG_MARKER ++ rest))) = LOG_MARKER ++ rest := by
  have noMark : (stamp ++ (LOG_MARKER ++ rest)).head? ≠ some BOM := by
    rcases isStamp with nothing | isStamp
    · rw [nothing, LOG_MARKER_eq]
      exact fun impossible => by cases impossible
    · rcases isDigit_head_of_timestamp isStamp with ⟨unit, more, same, digit⟩
      rw [same]
      intro isBom
      obtain rfl := Option.some.inj isBom
      cases digit
  have stripped : (afterTimestamp (stamp ++ (LOG_MARKER ++ rest))).getD (stamp ++ (LOG_MARKER ++ rest)) =
      LOG_MARKER ++ rest := by
    rcases isStamp with nothing | isStamp
    · rw [nothing, List.nil_append, afterTimestamp_marker]
      rfl
    · rw [afterTimestamp_append isStamp]
      rfl
  rcases isMark with nothing | isMark
  · rw [nothing, List.nil_append, unstamped, if_neg noMark]
    exact stripped
  · rw [isMark, unstamped]
    exact stripped

theorem withoutReturn_of_not_mem (noReturn : CARRIAGE_RETURN ∉ line) : withoutReturn line = line := by
  rw [withoutReturn, if_neg fun last => noReturn (List.mem_of_getLast? last)]

theorem withoutReturn_append {ending : Units} (noReturn : CARRIAGE_RETURN ∉ line)
    (isEnding : ending = [] ∨ ending = [CARRIAGE_RETURN]) : withoutReturn (line ++ ending) = line := by
  rcases isEnding with nothing | isReturn
  · rw [nothing, List.append_nil]
    exact withoutReturn_of_not_mem noReturn
  · rw [isReturn, withoutReturn, List.getLast?_concat, if_pos rfl, List.dropLast_concat]

theorem readLine_of_isMarkerLine {payload : Units} (isLine : IsMarkerLine payload line)
    (noReturn : CARRIAGE_RETURN ∉ payload) : readLine line = some (readPayload payload) := by
  rcases isLine with ⟨mark, stamp, ending, isMark, isStamp, isEnding, same⟩
  have noneInLine : CARRIAGE_RETURN ∉ LOG_MARKER ++ payload := by
    intro member
    rcases List.mem_append.mp member with inMarker | inPayload
    · exact absurd inMarker (by decide)
    · exact noReturn inPayload
  have prefixed : LOG_MARKER.isPrefixOf (LOG_MARKER ++ payload) = true :=
    List.isPrefixOf_iff_prefix.mpr (List.prefix_append _ _)
  simp only [readLine, same]
  rw [unstamped_marker _ isMark isStamp, <- List.append_assoc, withoutReturn_append noneInLine isEnding,
    if_pos prefixed, List.drop_left]

theorem readLine_of_plain (plain : Plain line) : readLine line = none := by
  have shorter : withoutReturn (unstamped line) <+: unstamped line := by
    unfold withoutReturn
    split
    · exact List.dropLast_prefix _
    · exact List.prefix_refl _
  have noMarker : LOG_MARKER.isPrefixOf (withoutReturn (unstamped line)) = false := by
    apply Bool.eq_false_iff.mpr
    exact fun prefixed => plain.2 ((List.isPrefixOf_iff_prefix.mp prefixed).trans shorter)
  simp only [readLine, noMarker, Bool.false_eq_true, if_false]

theorem newline_not_mem_of_isMarkerLine {payload : Units} (isLine : IsMarkerLine payload line)
    (noNewline : NEWLINE ∉ payload) : NEWLINE ∉ line := by
  rcases isLine with ⟨mark, stamp, ending, isMark, isStamp, isEnding, same⟩
  rw [same]
  simp only [List.mem_append, not_or]
  refine ⟨?_, ?_, by decide, noNewline, ?_⟩
  · rcases isMark with rfl | rfl <;> decide
  · rcases isStamp with rfl | isStamp
    · exact List.not_mem_nil
    · exact newline_not_mem_of_timestamp isStamp
  · rcases isEnding with rfl | rfl <;> decide

/-- A payload with letters replaced by asterisks. -/
def Masking (payload masked : Units) : Prop :=
  List.Forall₂ (fun letter unit => unit = letter ∨ unit = ASTERISK) payload masked ∧ ASTERISK ∈ masked

theorem payload_fits (isText : IsManifestText chars) :
    (encodeMarkerPayload (utf16 chars)).length ≠ 0 ∧ (encodeMarkerPayload (utf16 chars)).length ≤ MAX_ENCODED := by
  have bytes := List.length_pos_of_ne_nil (utf8_ne_nil isText.some)
  have fits := isText.fits
  have bound : MAX_ENCODED = MANIFEST_MAX_BYTES * 2 := rfl
  rw [encodeMarkerPayload_utf16, length_letters]
  omega

theorem isNibble_of_mem_payload
    (member : unit ∈ encodeMarkerPayload (utf16 chars)) : isNibble unit = true := by
  rw [encodeMarkerPayload_utf16] at member
  exact isNibble_of_mem_letters member

theorem readPayload_encodeMarkerPayload (isText : IsManifestText chars) :
    readPayload (encodeMarkerPayload (utf16 chars)) = .text (utf16 chars) := by
  rcases payload_fits isText with ⟨some, fits⟩
  have noAsterisk : (encodeMarkerPayload (utf16 chars)).contains ASTERISK = false := by
    apply Bool.eq_false_iff.mpr
    intro asterisk
    cases isNibble_of_mem_payload (List.contains_iff_mem.mp asterisk)
  rw [readPayload, if_neg (not_or.mpr ⟨some, Nat.not_lt.mpr fits⟩), noAsterisk,
    decodeMarkerPayload_encodeMarkerPayload isText.some]
  rfl

theorem Masking.nibbles {payload masked : Units} (masking : Masking payload masked)
    (nibbles : forall unit, unit ∈ payload -> isNibble unit = true) (member : unit ∈ masked) :
    isNibble unit = true ∨ unit = ASTERISK := by
  have pairs := masking.1
  clear masking
  induction pairs with
  | nil => cases member
  | cons replaced _ ih =>
      rcases List.mem_cons.mp member with here | later
      · rcases replaced with same | asterisk
        · exact Or.inl (here ▸ same ▸ nibbles _ List.mem_cons_self)
        · exact Or.inr (here.trans asterisk)
      · exact ih (fun other inRest => nibbles other (List.mem_cons_of_mem _ inRest)) later

theorem readPayload_of_masking {masked : Units} (isText : IsManifestText chars)
    (masking : Masking (encodeMarkerPayload (utf16 chars)) masked) : readPayload masked = .masked := by
  rcases payload_fits isText with ⟨some, fits⟩
  rw [masking.1.length_eq] at some fits
  have accepted : (masked.all fun unit => isNibble unit || unit == ASTERISK) = true := by
    apply List.all_eq_true.mpr
    intro unit member
    rcases masking.nibbles (fun unit => isNibble_of_mem_payload) member with nibble | asterisk
    · rw [nibble, Bool.true_or]
    · rw [asterisk, beq_self_eq_true, Bool.or_true]
  rw [readPayload, if_neg (not_or.mpr ⟨some, Nat.not_lt.mpr fits⟩), List.contains_iff_mem.mpr masking.2, accepted]
  rfl

theorem Masking.not_mem {payload masked : Units} (masking : Masking payload masked)
    (nibbles : forall unit, unit ∈ payload -> isNibble unit = true) {unit : UInt16} (noNibble : isNibble unit = false)
    (noAsterisk : unit ≠ ASTERISK) : unit ∉ masked := by
  intro member
  rcases masking.nibbles nibbles member with nibble | asterisk
  · cases noNibble.symm.trans nibble
  · exact noAsterisk asterisk

def logOf (lines : List Units) : Units := [NEWLINE].intercalate lines

theorem markerLines_logOf {lines : List Units} (areLines : forall line, line ∈ lines -> NEWLINE ∉ line) :
    markerLines (logOf lines) = lines.filterMap readLine := by
  cases lines with
  | nil => rfl
  | cons line rest => rw [markerLines, logOf, List.splitOn_intercalate NEWLINE areLines (List.cons_ne_nil _ _)]

theorem mem_markerLines {logs : List (List Units)}
    (areLines : forall lines, lines ∈ logs -> forall line, line ∈ lines -> NEWLINE ∉ line) {found : Line} :
    found ∈ (logs.map logOf).flatMap markerLines <->
      Exists fun lines => lines ∈ logs ∧ Exists fun line => line ∈ lines ∧ readLine line = some found := by
  simp only [List.mem_flatMap, List.mem_map, exists_exists_and_eq_and]
  refine exists_congr fun lines => and_congr_right fun member => ?_
  rw [markerLines_logOf (areLines lines member), List.mem_filterMap]

theorem mem_texts {lines : List Line} {text : Units} :
    text ∈ (lines.filterMap Line.text?).eraseDups <-> Line.text text ∈ lines := by
  rw [List.mem_eraseDups, List.mem_filterMap]
  constructor
  · rintro ⟨line, member, isText⟩
    cases line with
    | text found =>
        obtain rfl := Option.some.inj isText
        exact member
    | masked => cases isText
    | malformed => cases isText
  · exact fun member => ⟨_, member, rfl⟩

theorem eraseDups_of_all {texts : List Units} {text : Units} (present : text ∈ texts)
    (all : forall other, other ∈ texts -> other = text) : texts.eraseDups = [text] := by
  cases texts with
  | nil => cases present
  | cons first rest =>
      obtain rfl := all first List.mem_cons_self
      have none : (rest.filter fun other => !other == first) = [] := by
        apply List.filter_eq_nil_iff.mpr
        intro other member
        rw [all other (List.mem_cons_of_mem _ member), beq_self_eq_true]
        decide
      rw [List.eraseDups_cons, none, List.eraseDups_nil]

theorem manifestOf_same {lines : List Line} {text : Units} (present : Line.text text ∈ lines)
    (all : forall line, line ∈ lines -> line = .text text) : manifestOf lines = .ok text := by
  have noMasked : Line.masked ∉ lines := fun member => by cases all _ member
  have noMalformed : Line.malformed ∉ lines := fun member => by cases all _ member
  have texts : (lines.filterMap Line.text?).eraseDups = [text] := by
    apply eraseDups_of_all
    · exact List.mem_filterMap.mpr ⟨_, present, rfl⟩
    · intro other member
      exact Line.text.inj (all _ (mem_texts.mp (List.mem_eraseDups.mpr member)))
  rw [manifestOf, if_neg noMasked, if_neg noMalformed, texts]

theorem manifestOf_different {lines : List Line} {text other : Units} (present : Line.text text ∈ lines)
    (otherPresent : Line.text other ∈ lines) (different : text ≠ other)
    (all : forall line, line ∈ lines -> Exists fun found => line = .text found) :
    manifestOf lines = .failed .ambiguous "The job log carries more than one manifest" := by
  have noMasked : Line.masked ∉ lines := fun member => by cases (all _ member).choose_spec
  have noMalformed : Line.malformed ∉ lines := fun member => by cases (all _ member).choose_spec
  have first := mem_texts.mpr present
  have second := mem_texts.mpr otherPresent
  rw [manifestOf, if_neg noMasked, if_neg noMalformed]
  split
  · rename_i nothing
    rw [nothing] at first
    cases first
  · rename_i only
    rw [only] at first second
    exact absurd ((List.mem_singleton.mp first).trans (List.mem_singleton.mp second).symm) different
  · rfl

private theorem readLine_of_text (isText : IsManifestText chars)
    (isLine : IsMarkerLine (encodeMarkerPayload (utf16 chars)) line) :
    readLine line = some (.text (utf16 chars)) := by
  have noReturn : CARRIAGE_RETURN ∉ encodeMarkerPayload (utf16 chars) := fun member => by
    cases isNibble_of_mem_payload member
  rw [readLine_of_isMarkerLine isLine noReturn, readPayload_encodeMarkerPayload isText]

private theorem isLine_of_text
    (isLine : IsMarkerLine (encodeMarkerPayload (utf16 chars)) line) : NEWLINE ∉ line := by
  apply newline_not_mem_of_isMarkerLine isLine
  intro member
  cases isNibble_of_mem_payload member

/-- A marker line with this payload occurs in the logs. -/
def Carries (logs : List (List Units)) (payload : Units) : Prop :=
  Exists fun lines => lines ∈ logs ∧ Exists fun line => line ∈ lines ∧ IsMarkerLine payload line

/-- The codec of the marker payload is exact, and of logs whose marker lines
carry manifest texts the one text is found, two are ambiguous, and a masked line
hides whatever else there is. -/
theorem logManifest_exact :
    (forall chars : List Char, IsManifestText chars ->
      decodeMarkerPayload (encodeMarkerPayload (utf16 chars)) = some (utf16 chars)) ∧
    (forall payload text : Units, decodeMarkerPayload payload = some text -> encodeMarkerPayload text = payload) ∧
    (forall (chars : List Char) (logs : List (List Units)), IsManifestText chars ->
      (forall lines, lines ∈ logs -> forall line, line ∈ lines ->
        Plain line ∨ IsMarkerLine (encodeMarkerPayload (utf16 chars)) line) ->
      Carries logs (encodeMarkerPayload (utf16 chars)) ->
      extractLogManifest (logs.map logOf) = .ok (utf16 chars)) ∧
    (forall (chars others : List Char) (logs : List (List Units)),
      IsManifestText chars -> IsManifestText others -> chars ≠ others ->
      (forall lines, lines ∈ logs -> forall line, line ∈ lines ->
        Plain line ∨ Exists fun found => IsManifestText found ∧
          IsMarkerLine (encodeMarkerPayload (utf16 found)) line) ->
      Carries logs (encodeMarkerPayload (utf16 chars)) -> Carries logs (encodeMarkerPayload (utf16 others)) ->
      extractLogManifest (logs.map logOf) =
        .failed .ambiguous "The job log carries more than one manifest") ∧
    (forall (chars : List Char) (masked : Units) (logs : List (List Units)),
      IsManifestText chars -> Masking (encodeMarkerPayload (utf16 chars)) masked ->
      (forall lines, lines ∈ logs -> forall line, line ∈ lines -> NEWLINE ∉ line) ->
      Carries logs masked ->
      Exists fun message => extractLogManifest (logs.map logOf) = .failed .masked message) := by
  refine ⟨fun chars isText => decodeMarkerPayload_encodeMarkerPayload isText.some,
    fun payload text => encodeMarkerPayload_of_decodeMarkerPayload, ?_, ?_, ?_⟩
  · rintro chars logs isText lines ⟨inLogs, isIn, line, isInLines, isLine⟩
    have areLines : forall known, known ∈ logs -> forall line, line ∈ known -> NEWLINE ∉ line :=
      fun known member line inKnown => (lines known member line inKnown).elim (·.1) isLine_of_text
    apply manifestOf_same
    · exact (mem_markerLines areLines).mpr ⟨inLogs, isIn, line, isInLines, readLine_of_text isText isLine⟩
    · intro found member
      rcases (mem_markerLines areLines).mp member with ⟨known, inAll, other, inKnown, isFound⟩
      rcases lines known inAll other inKnown with plain | isMarker
      · cases (readLine_of_plain plain).symm.trans isFound
      · exact Option.some.inj (isFound.symm.trans (readLine_of_text isText isMarker))
  · rintro chars others logs isText othersText different lines ⟨first, inLogs, line, inFirst, isLine⟩
      ⟨second, inLogs', line', inSecond, isLine'⟩
    have areLines : forall known, known ∈ logs -> forall line, line ∈ known -> NEWLINE ∉ line :=
      fun known member line inKnown => (lines known member line inKnown).elim (·.1)
        fun ⟨_, _, isMarker⟩ => isLine_of_text isMarker
    refine @manifestOf_different _ (utf16 chars) (utf16 others) ?_ ?_ ?_ ?_
    · exact (mem_markerLines areLines).mpr ⟨first, inLogs, line, inFirst, readLine_of_text isText isLine⟩
    · exact (mem_markerLines areLines).mpr ⟨second, inLogs', line', inSecond, readLine_of_text othersText isLine'⟩
    · intro same
      exact different (by rw [<- characters_utf16 chars, same, characters_utf16])
    · intro found member
      rcases (mem_markerLines areLines).mp member with ⟨known, inAll, other, inKnown, isFound⟩
      rcases lines known inAll other inKnown with plain | ⟨text, isManifest, isMarker⟩
      · cases (readLine_of_plain plain).symm.trans isFound
      · exact ⟨_, Option.some.inj (isFound.symm.trans (readLine_of_text isManifest isMarker))⟩
  · rintro chars masked logs isText masking areLines ⟨known, inLogs, line, inKnown, isLine⟩
    have nibbles : forall unit, unit ∈ encodeMarkerPayload (utf16 chars) -> isNibble unit = true :=
      fun unit => isNibble_of_mem_payload
    have noReturn := @Masking.not_mem _ _ masking nibbles CARRIAGE_RETURN (by decide) (by decide)
    have isMasked : readLine line = some .masked := by
      rw [readLine_of_isMarkerLine isLine noReturn, readPayload_of_masking isText masking]
    have member := (mem_markerLines areLines).mpr ⟨known, inLogs, line, inKnown, isMasked⟩
    exact ⟨_, if_pos member⟩

/-- A log with the manifest `a` on a stamped line, after a line of another kind. -/
def smallLog : List Units := [units "built", units "2026-11-03T12:34:56.1Z dokploy-release/v1 mh\r"]

theorem smallLog_marker : IsMarkerLine (encodeMarkerPayload (utf16 ['a']))
    (units "2026-11-03T12:34:56.1Z dokploy-release/v1 mh\r") := by
  refine ⟨[], units "2026-11-03T12:34:56.1Z ", [CARRIAGE_RETURN], Or.inl rfl, Or.inr ?_, Or.inr rfl, ?_⟩
  · unfold Timestamp
    decide
  · decide

theorem smallLog_plain : Plain (units "built") := by
  unfold Plain
  decide

theorem logManifest_exact_smallLog :
    decodeMarkerPayload (encodeMarkerPayload (utf16 ['a'])) = some (utf16 ['a']) ∧
      extractLogManifest ([smallLog].map logOf) = .ok (utf16 ['a']) := by
  have isText : IsManifestText ['a'] := ⟨by decide, by decide⟩
  refine ⟨logManifest_exact.1 ['a'] isText, logManifest_exact.2.2.1 ['a'] [smallLog] isText ?_ ?_⟩
  · intro lines inLogs line inLines
    obtain rfl := List.mem_singleton.mp inLogs
    rcases List.mem_cons.mp inLines with here | later
    · exact Or.inl (here ▸ smallLog_plain)
    · exact Or.inr (List.mem_singleton.mp later ▸ smallLog_marker)
  · exact ⟨_, List.mem_singleton_self _, _, List.mem_cons_of_mem _ List.mem_cons_self, smallLog_marker⟩

end GhaRelease
end Dokploy
