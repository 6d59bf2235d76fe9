import Dokploy.RegistryRetention.CurlResponses

namespace Dokploy
namespace RegistryRetention

open Foundation

/-!
# What is read of an output that was cut off

The responses of a run of curl stand one after the other, each closed by its marker
line.  A response is read back whole when nothing in front of its marker line is one,
and from an output that ends anywhere those are read whose marker line is in it.
Whatever the output is, nothing is read behind a marker that is out of order.
-/

structure PrintedResponse where
  id : Nat
  code : Text
  block : Option HeaderBlock
  body : Text
  small : id < 2 ^ 53
  isCode : IsCode code

namespace PrintedResponse

variable (curl : PrintedResponse)

def head : Text :=
  match curl.block with
  | some block => block.text
  | none => []

def fields : List HeaderField :=
  match curl.block with
  | some block => block.fields
  | none => []

def segment : Text := curl.head ++ curl.body

/-- The header block, the body and what the write-out says. -/
def text : Text := curl.segment ++ writtenOut curl.code (writeOutTemplate curl.id)

def piece : Piece := ⟨curl.id, curl.code, curl.segment⟩

theorem text_eq_piece : curl.text = curl.piece.text := by
  rw [text, writtenOut_template curl.code curl.small, Piece.text]
  simp only [piece, List.append_assoc, List.cons_append]

/-- No line feed with the marker word behind it in the body; in a header line there is no line feed at all. -/
def Plain : Prop := ¬ ('\n' :: RESPONSE_MARKER) <:+: curl.body

/-- Where the body begins can be told: it does not begin with the marker word behind a header block, nor like a header
block where there is none. -/
def Bounded : Prop :=
  match curl.block with
  | some _ => ¬ RESPONSE_MARKER <+: curl.body
  | none => ¬ httpStart <+: curl.body

/-- The response that was read is the one that was printed. -/
structure Reads (response : RegistryResponse) : Prop where
  status : response.status = decimalValue curl.code
  headers : forall name, response.headers name = (curl.fields.find? fun field => field.key = name).map HeaderField.value
  repeatedHeaders : forall name, name ∈ response.repeatedHeaders <-> 2 ≤ (curl.fields.map HeaderField.key).count name
  once : response.repeatedHeaders.Nodup
  body : response.body = curl.body

def response : RegistryResponse := readResponse curl.segment curl.code

variable {curl}

theorem quiet_body {blank body : Text} (isBreak : IsBreak blank) (plain : ¬ ('\n' :: RESPONSE_MARKER) <:+: body)
    (start : ¬ RESPONSE_MARKER <+: body) (fields : List HeaderField) :
    Quiet (Lines.join (fields.map HeaderField.line) ++ (blank ++ body)) ∧
      forall rest, readMarker (Lines.join (fields.map HeaderField.line) ++ (blank ++ body) ++ '\n' :: rest) = none := by
  induction fields with
  | nil =>
      have quiet : Quiet ('\n' :: body) := (Quiet.of_plain plain).cons fun _ => readMarker_of_unmarked start
      rcases isBreak with rfl | rfl
      · exact ⟨quiet, fun rest => readMarker_of_unmarked (fun marked => absurd marked (by simp [RESPONSE_MARKER, Lines.join])) rest⟩
      · exact ⟨quiet.cons fun same => absurd same (by decide),
          fun rest => readMarker_of_unmarked (fun marked => absurd marked (by simp [RESPONSE_MARKER, Lines.join])) rest⟩
  | cons field fields ih =>
      have shape : Lines.join ((field :: fields).map HeaderField.line) ++ (blank ++ body) =
          field.line ++ '\n' :: (Lines.join (fields.map HeaderField.line) ++ (blank ++ body)) := by
        simp [Lines.join]
      rw [shape]
      refine ⟨Quiet.line field.line_whole ih.1 ih.2, fun rest => ?_⟩
      rw [List.append_assoc, List.cons_append]
      exact readMarker_field field _

theorem legible (plain : curl.Plain) (bounded : curl.Bounded) : curl.piece.Legible where
  small := curl.small
  code := curl.isCode
  quiet := by
    change Quiet (curl.head ++ curl.body)
    unfold Bounded at bounded
    unfold head
    split
    · rename_i block is
      rw [is] at bounded
      have quiet := quiet_body block.isBreak plain bounded block.fields
      have shape : block.text ++ curl.body =
          block.statusLine ++ '\n' :: (Lines.join (block.fields.map HeaderField.line) ++ (block.blank ++ curl.body)) := by
        rw [HeaderBlock.text]
        simp only [List.append_assoc, List.cons_append]
      rw [shape]
      exact Quiet.line block.whole quiet.1 quiet.2
    · exact Quiet.of_plain plain

theorem reads (bounded : curl.Bounded) : curl.Reads curl.response := by
  unfold Bounded at bounded
  cases is : curl.block with
  | none =>
      rw [is] at bounded
      have segment : curl.segment = curl.body := by
        rw [PrintedResponse.segment, head, is, List.nil_append]
      have fields : curl.fields = [] := by rw [PrintedResponse.fields, is]
      have notHttp : httpStart.isPrefixOf curl.body = false :=
        Bool.eq_false_iff.mpr fun starts => bounded (List.isPrefixOf_iff_prefix.mp starts)
      have found : curl.response = ⟨decimalValue curl.code, fun _ => none, [], curl.body⟩ := by
        rw [response, readResponse, segment, notHttp]
        rfl
      rw [found]
      exact ⟨rfl, fun _ => by rw [fields]; rfl, fun _ => by rw [fields]; simp, List.nodup_nil, rfl⟩
  | some block =>
      have fields : curl.fields = block.fields := by rw [PrintedResponse.fields, is]
      have segment : curl.segment = block.statusLine ++ '\n' ::
          (Lines.join (block.fields.map HeaderField.line) ++ (block.blank ++ curl.body)) := by
        rw [PrintedResponse.segment, head, is]
        simp only [HeaderBlock.text, List.append_assoc, List.cons_append]
      have isHttp : httpStart.isPrefixOf curl.segment = true := by
        rw [segment]
        exact List.isPrefixOf_iff_prefix.mpr (block.starts.trans (List.prefix_append _ _))
      rcases splitHead_lines block.isBreak curl.body block.fields block.whole with ⟨start, split, lines⟩
      have known := readFields block.fields
      rw [response, readResponse, isHttp, segment, split, if_pos rfl]
      dsimp only
      rw [lines, List.drop_succ_cons, List.drop_zero]
      exact ⟨rfl, fun name => by rw [fields]; exact known.first name, fun name => by rw [fields]; exact known.again name,
        known.once, rfl⟩

end PrintedResponse

def outOf (responses : List PrintedResponse) : Text := responses.flatMap PrintedResponse.text

def idsOf (responses : List PrintedResponse) : List Int := responses.map fun curl => (curl.id : Int)

/-- The responses whose marker line is whole in an output that was cut off. -/
def arrived : Text -> List PrintedResponse -> List PrintedResponse
  | _, [] => []
  | cut, curl :: responses =>
      if curl.text.length ≤ cut.length then curl :: arrived (cut.drop curl.text.length) responses else []

theorem arrived_whole (responses : List PrintedResponse) : arrived (outOf responses) responses = responses := by
  induction responses with
  | nil => rfl
  | cons curl responses ih =>
      have shape : outOf (curl :: responses) = curl.text ++ outOf responses := List.flatMap_cons
      rw [arrived, shape, if_pos (by simp), List.drop_left, ih]

section Cutting

theorem readMarker_append {text id code rest : Text} (marks : readMarker text = some (id, code, rest)) (more : Text) :
    readMarker (text ++ more) = some (id, code, rest ++ more) := by
  rcases (readMarker_iff _ _ _ _).mp marks with ⟨isNumber, isCode, ending, isBreak, rfl⟩
  apply (readMarker_iff _ _ _ _).mpr
  exact ⟨isNumber, isCode, ending, isBreak, by simp only [List.append_assoc, List.cons_append]⟩

theorem break_mem_of_marker {text : Text} {read : Text × Text × Text} (marks : readMarker text = some read) : '\n' ∈ text := by
  rcases (readMarker_iff text read.1 read.2.1 read.2.2).mp marks with ⟨_, _, ending, isBreak, rfl⟩
  have inEnding : '\n' ∈ ending := by
    rcases isBreak with rfl | rfl <;> decide
  simp [inEnding]

theorem nextMarker_none {text : Text} (silent : forall before after, text = before ++ '\n' :: after -> readMarker after = none) :
    nextMarker text = none := by
  induction text with
  | nil => rfl
  | cons char text ih =>
      have first : (if char = '\n' then readMarker text else none) = none := by
        split
        · rename_i isBreak
          exact silent [] text (by rw [isBreak]; rfl)
        · rfl
      have later := ih fun before after split => silent (char :: before) after (by rw [split]; rfl)
      rw [nextMarker, first, later]
      rfl

theorem markerLine_whole (id : Nat) {code : Text} (isCode : IsCode code) : '\n' ∉ markerLine (Numerals.decimal id) code := by
  have noDigit : forall digits : Text, digits.all Json.isDigit = true -> '\n' ∉ digits := fun digits all member =>
    absurd (List.all_eq_true.mp all _ member) (by decide)
  simp only [markerLine, List.mem_append, List.mem_cons, not_or]
  exact ⟨⟨by decide, by decide, noDigit _ (isNumber_decimal id).digits⟩, by decide, noDigit _ isCode.digits⟩

theorem Piece.Legible.silent {piece : Piece} (legible : piece.Legible) {cut : Text} (starts : cut <+: piece.text)
    (short : cut.length < piece.text.length) : nextMarker cut = none := by
  have line := markerLine_whole piece.id legible.code
  have shape : piece.text = (piece.body ++ '\n' :: markerLine (Numerals.decimal piece.id) piece.code) ++ ['\n'] := by
    rw [Piece.text]
  have inside : cut <+: piece.body ++ '\n' :: markerLine (Numerals.decimal piece.id) piece.code := by
    rw [shape] at starts short
    rw [List.length_append, List.length_singleton] at short
    exact List.prefix_of_prefix_length_le starts (List.prefix_append _ _) (Nat.le_of_lt_succ short)
  rcases inside with ⟨more, whole⟩
  apply nextMarker_none
  rintro before after rfl
  apply Option.eq_none_iff_forall_ne_some.mpr
  rintro ⟨id, code, rest⟩ marks
  have breaks := break_mem_of_marker marks
  rw [List.append_assoc, List.cons_append] at whole
  rcases List.append_eq_append_iff.mp whole with ⟨middle, body, behind⟩ | ⟨middle, start, behind⟩
  · cases middle with
    | nil =>
        rw [List.nil_append] at behind
        have same := (List.cons.inj behind).2
        exact line (same ▸ List.mem_append_left _ breaks)
    | cons char middle =>
        rcases List.cons.inj behind with ⟨rfl, tails⟩
        have same : after ++ more = middle ++ '\n' :: markerLine (Numerals.decimal piece.id) piece.code := tails
        have quiet := legible.quiet before middle body (markerLine (Numerals.decimal piece.id) piece.code)
        rw [<- same, readMarker_append marks more] at quiet
        cases quiet
  · cases middle with
    | nil =>
        rw [List.nil_append] at behind
        have same := (List.cons.inj behind).2
        exact line (same ▸ List.mem_append_left _ breaks)
    | cons char middle =>
        rcases List.cons.inj behind with ⟨rfl, same⟩
        exact line (same ▸ List.mem_append_right _ List.mem_cons_self)

theorem arrived_split (responses : List PrintedResponse) {cut : Text} (isCut : cut <+: outOf responses) :
    arrived cut responses <+: responses ∧
      Exists fun tail => cut = outOf (arrived cut responses) ++ tail ∧
        (tail = [] ∨ Exists fun curl : PrintedResponse => curl ∈ responses ∧ tail <+: curl.text ∧ tail.length < curl.text.length) := by
  induction responses generalizing cut with
  | nil =>
      rw [List.prefix_nil.mp isCut]
      exact ⟨List.prefix_rfl, [], rfl, Or.inl rfl⟩
  | cons curl responses ih =>
      have shape : outOf (curl :: responses) = curl.text ++ outOf responses := List.flatMap_cons
      rw [shape] at isCut
      rw [arrived]
      split
      · rename_i enough
        rcases List.prefix_of_prefix_length_le (List.prefix_append curl.text _) isCut enough with ⟨rest, rfl⟩
        rw [List.drop_left]
        rcases ih (List.prefix_append_right_inj _ |>.mp isCut) with ⟨isPrefix, tail, split, left⟩
        refine ⟨List.cons_prefix_cons.mpr ⟨rfl, isPrefix⟩, tail, ?_, ?_⟩
        · have first : outOf (curl :: arrived rest responses) = curl.text ++ outOf (arrived rest responses) := List.flatMap_cons
          rw [first, List.append_assoc, <- split]
        · exact left.imp_right fun ⟨other, member, starts, short⟩ => ⟨other, List.mem_cons_of_mem _ member, starts, short⟩
      · rename_i short
        have less : cut.length < curl.text.length := Nat.lt_of_not_le short
        exact ⟨List.nil_prefix, cut, rfl, Or.inr ⟨curl, List.mem_cons_self,
          List.prefix_of_prefix_length_le isCut (List.prefix_append _ _) less.le, less⟩⟩

end Cutting

section Parsing

theorem parse_arrived {responses : List PrintedResponse} (distinct : (responses.map PrintedResponse.id).Nodup)
    (plain : forall curl, curl ∈ responses -> curl.Plain) (bounded : forall curl, curl ∈ responses -> curl.Bounded)
    {cut : Text} (isCut : cut <+: outOf responses) :
    parseRegistryResponses cut (some (idsOf responses)) =
      (arrived cut responses).map fun curl => ((curl.id : Int), curl.response) := by
  rcases arrived_split responses isCut with ⟨isPrefix, tail, split, left⟩
  have legible : forall curl, curl ∈ responses -> curl.piece.Legible := fun curl member =>
    PrintedResponse.legible (plain curl member) (bounded curl member)
  have silent : nextMarker tail = none := by
    rcases left with rfl | ⟨curl, member, starts, short⟩
    · rfl
    · rw [curl.text_eq_piece] at starts short
      exact (legible curl member).silent starts short
  have output : outOf (arrived cut responses) = ((arrived cut responses).map PrintedResponse.piece).flatMap Piece.text := by
    rw [outOf, List.flatMap_map]
    exact List.flatMap_congr fun curl _ => curl.text_eq_piece
  have ids : ((arrived cut responses).map PrintedResponse.piece).map (fun piece => (piece.id : Int)) <+: idsOf responses := by
    rw [List.map_map]
    exact isPrefix.map _
  have nodup : (([] : List (Int × RegistryResponse)).map Prod.fst ++
      ((arrived cut responses).map PrintedResponse.piece).map fun piece => (piece.id : Int)).Nodup := by
    have all : (idsOf responses).Nodup := by
      have images := distinct.map (f := fun id : Nat => (id : Int)) fun _ _ same => Int.ofNat.inj same
      rw [List.map_map] at images
      exact images
    exact all.sublist ids.sublist
  have legiblePieces : forall piece, piece ∈ (arrived cut responses).map PrintedResponse.piece -> piece.Legible := by
    intro piece member
    rcases List.mem_map.mp member with ⟨curl, among, rfl⟩
    exact legible curl (isPrefix.subset among)
  have expects : Expects (some (idsOf responses)) ((arrived cut responses).map PrintedResponse.piece) := ids
  have enough : (((arrived cut responses).map PrintedResponse.piece).flatMap Piece.text).length ≤ cut.length := by
    rw [<- output, congrArg List.length split, List.length_append]
    exact Nat.le_add_right _ _
  have read := readResponses_pieces _ legiblePieces nodup expects silent enough
  rw [<- output, <- split] at read
  rw [parseRegistryResponses, read, responsesOf, List.map_map, List.nil_append]
  rfl

/-- The markers of an output, each with the text that stands between it and the one before. -/
inductive Markers : Text -> List (Text × Text × Text) -> Prop
  | stop {text : Text} (silent : nextMarker text = none) : Markers text []
  | next {text segment id code rest : Text} {later : List (Text × Text × Text)}
      (found : nextMarker text = some (segment, id, code, rest)) (markers : Markers rest later) :
      Markers text ((segment, id, code) :: later)

def markerId (marker : Text × Text × Text) : Int := numberOf marker.2.1

def markerEntry (marker : Text × Text × Text) : Int × RegistryResponse :=
  (markerId marker, readResponse marker.1 marker.2.2)

theorem nextMarker_shorter {text segment id code rest : Text} (found : nextMarker text = some (segment, id, code, rest)) :
    rest.length < text.length := by
  induction text generalizing segment with
  | nil => cases found
  | cons char text ih =>
      unfold nextMarker at found
      split at found
      · rename_i after marks
        split at marks
        · cases found
          rcases (readMarker_iff _ _ _ _).mp marks with ⟨_, _, ending, _, rfl⟩
          simp only [List.length_cons, List.length_append]
          omega
        · cases marks
      · rcases Option.map_eq_some_iff.mp found with ⟨⟨inner, marker⟩, earlier, same⟩
        cases same
        exact Nat.lt_succ_of_lt (ih earlier)

theorem readResponses_stray {text : Text} {before after : List (Text × Text × Text)} {stray : Text × Text × Text}
    (markers : Markers text (before ++ stray :: after)) {ids : List Int} {found : List (Int × RegistryResponse)}
    (distinct : (found.map Prod.fst ++ ids).Nodup) (inOrder : before.map markerId <+: ids)
    (outOfOrder : ids[before.length]? ≠ some (markerId stray)) {fuel : Nat} (enough : text.length ≤ fuel) :
    readResponses fuel (some ids) found text = found ++ before.map markerEntry := by
  induction before generalizing text ids found fuel with
  | nil =>
      cases markers with
      | @next _ segment id code rest _ first _ =>
          cases fuel with
          | zero => exact absurd (nextMarker_shorter first) (by omega)
          | succ fuel =>
              rw [readResponses, first, List.map_nil, List.append_nil]
              cases ids with
              | nil => rfl
              | cons next ids =>
                  have other : next ≠ numberOf id := fun same => outOfOrder (congrArg some same)
                  simp only [if_neg other]
  | cons marker before ih =>
      cases markers with
      | @next _ segment id code rest _ first markers =>
          cases fuel with
          | zero => exact absurd (nextMarker_shorter first) (by omega)
          | succ fuel =>
              have shorter := nextMarker_shorter first
              cases ids with
              | nil => exact absurd (List.prefix_nil.mp inOrder) (List.cons_ne_nil _ _)
              | cons next ids =>
                  rcases List.cons_prefix_cons.mp inOrder with ⟨same, more⟩
                  have isNext : next = numberOf id := same.symm
                  have fresh : numberOf id ∉ found.map Prod.fst := by
                    intro old
                    exact (List.nodup_append.mp distinct).2.2 _ old _ List.mem_cons_self isNext.symm
                  have distinctRest : ((found ++ [(numberOf id, readResponse segment code)]).map Prod.fst ++ ids).Nodup := by
                    rw [List.map_append, List.append_assoc, isNext.symm]
                    exact distinct
                  rw [readResponses, first]
                  simp only [if_pos isNext]
                  rw [setEntry_new _ fresh, ih markers distinctRest more outOfOrder (by omega),
                    List.append_assoc]
                  rfl

/-- The responses that were printed whole are read back as they were, those of an output that was cut off as far as
their marker line is in it; and of any output nothing is read from the first marker that is out of order on. -/
theorem parseRegistryResponses_reads :
    (forall responses : List PrintedResponse, (responses.map PrintedResponse.id).Nodup ->
      (forall curl, curl ∈ responses -> curl.Plain) -> (forall curl, curl ∈ responses -> curl.Bounded) ->
      Exists fun read : PrintedResponse -> RegistryResponse => (forall curl, curl ∈ responses -> curl.Reads (read curl)) ∧
        parseRegistryResponses (outOf responses) (some (idsOf responses)) =
          responses.map (fun curl => ((curl.id : Int), read curl)) ∧
        forall cut, cut <+: outOf responses -> parseRegistryResponses cut (some (idsOf responses)) =
          (arrived cut responses).map fun curl => ((curl.id : Int), read curl)) ∧
    forall (stdout : Text) (ids : List Int) (before after : List (Text × Text × Text)) (stray : Text × Text × Text),
      ids.Nodup -> Markers stdout (before ++ stray :: after) -> before.map markerId <+: ids ->
      ids[before.length]? ≠ some (markerId stray) ->
      parseRegistryResponses stdout (some ids) = before.map markerEntry := by
  refine ⟨?_, ?_⟩
  · intro responses distinct plain bounded
    refine ⟨PrintedResponse.response, fun curl member => PrintedResponse.reads (bounded curl member), ?_, ?_⟩
    · rw [parse_arrived distinct plain bounded List.prefix_rfl, arrived_whole]
    · exact fun cut isCut => parse_arrived distinct plain bounded isCut
  · intro stdout ids before after stray distinct markers inOrder outOfOrder
    have fresh : (([] : List (Int × RegistryResponse)).map Prod.fst ++ ids).Nodup := distinct
    exact readResponses_stray markers fresh inOrder outOfOrder (Nat.le_refl _)

end Parsing

section Examples

/-- A header block with a header that comes twice. -/
def exampleBlock : HeaderBlock where
  statusLine := "HTTP/1.1 200 OK\x0d".toList
  fields := [⟨"Link".toList, " <a>\x0d".toList, by decide, by decide, by decide⟩,
    ⟨"link".toList, " <b>\x0d".toList, by decide, by decide, by decide⟩]
  blank := ['\r', '\n']
  starts := List.isPrefixOf_iff_prefix.mp (by decide)
  whole := by decide
  isBreak := Or.inr rfl

def withBlock (body : Text) : PrintedResponse :=
  ⟨0, "200".toList, some exampleBlock, body, by decide, ⟨rfl, by decide⟩⟩

def withoutBlock (body : Text) : PrintedResponse := ⟨1, "404".toList, none, body, by decide, ⟨rfl, by decide⟩⟩

def falseMarker : Text := "@@DPL 0 200\n".toList

/-- Two responses, and a body that holds a marker line of its own. -/
theorem parseRegistryResponses_reads_two :
    (Exists fun read : PrintedResponse -> RegistryResponse =>
      parseRegistryResponses (outOf [withBlock "a @@DPL".toList, withoutBlock []]) (some [0, 1]) =
        [(0, read (withBlock "a @@DPL".toList)), (1, read (withoutBlock []))]) ∧
    parseRegistryResponses (outOf [withoutBlock ("x\n".toList ++ falseMarker)]) (some [1]) = [] := by
  refine ⟨?_, ?_⟩
  · have plain : forall curl, curl ∈ [withBlock "a @@DPL".toList, withoutBlock []] -> curl.Plain := by
      simp only [List.mem_cons, List.not_mem_nil, or_false, forall_eq_or_imp, forall_eq, PrintedResponse.Plain]
      decide
    have bounded : forall curl, curl ∈ [withBlock "a @@DPL".toList, withoutBlock []] -> curl.Bounded := by
      simp only [List.mem_cons, List.not_mem_nil, or_false, forall_eq_or_imp, forall_eq, PrintedResponse.Bounded]
      exact ⟨(by decide : ¬ RESPONSE_MARKER <+: "a @@DPL".toList), (by decide : ¬ httpStart <+: [])⟩
    rcases parseRegistryResponses_reads.1 _ (by decide) plain bounded with ⟨read, _, whole, _⟩
    exact ⟨read, whole⟩
  · have second : nextMarker "\n@@DPL 1 404\n".toList = some ([], "1".toList, "404".toList, []) := by decide
    have first : nextMarker (outOf [withoutBlock ("x\n".toList ++ falseMarker)]) =
        some ("x".toList, "0".toList, "200".toList, "\n@@DPL 1 404\n".toList) := by decide +kernel
    have markers : Markers (outOf [withoutBlock ("x\n".toList ++ falseMarker)])
        ([] ++ ("x".toList, "0".toList, "200".toList) :: [([], "1".toList, "404".toList)]) :=
      .next first (.next second (.stop rfl))
    exact parseRegistryResponses_reads.2 _ [1] [] _ _ (by decide) markers List.nil_prefix (by decide)

/-- Every response of the list is read back. -/
def ReadBack (responses : List PrintedResponse) : Prop :=
  Exists fun read : PrintedResponse -> RegistryResponse => (forall curl, curl ∈ responses -> curl.Reads (read curl)) ∧
    parseRegistryResponses (outOf responses) (some (idsOf responses)) =
      responses.map fun curl => ((curl.id : Int), read curl)

/-- A body that begins with a marker line behind its header block is cut off, and one that begins like a header block
is read as one. -/
theorem unbounded_bodies_misread :
    (¬ forall responses : List PrintedResponse, (responses.map PrintedResponse.id).Nodup ->
      (forall curl, curl ∈ responses -> curl.Plain ∧ curl.block ≠ none) -> ReadBack responses) ∧
    ¬ forall responses : List PrintedResponse, (responses.map PrintedResponse.id).Nodup ->
      (forall curl, curl ∈ responses -> curl.Plain ∧ curl.block = none) -> ReadBack responses := by
  refine ⟨?_, ?_⟩
  · intro claim
    have plain : forall curl, curl ∈ [withBlock falseMarker] -> curl.Plain ∧ curl.block ≠ none := by
      intro curl member
      rw [List.mem_singleton.mp member]
      exact ⟨by unfold PrintedResponse.Plain; decide, Option.some_ne_none _⟩
    rcases claim [withBlock falseMarker] (by decide) plain with ⟨read, reads, parsed⟩
    have bodies := congrArg (List.map fun entry => entry.2.body) parsed
    have misread : (parseRegistryResponses (outOf [withBlock falseMarker]) (some [0])).map (fun entry => entry.2.body) =
        [[]] := by decide +kernel
    rw [List.map_singleton, List.map_singleton, (reads _ List.mem_cons_self).body] at bodies
    exact absurd (misread.symm.trans bodies) (by decide)
  · intro claim
    have plain : forall curl, curl ∈ [withoutBlock httpStart] -> curl.Plain ∧ curl.block = none := by
      intro curl member
      rw [List.mem_singleton.mp member]
      exact ⟨by unfold PrintedResponse.Plain; decide, rfl⟩
    rcases claim [withoutBlock httpStart] (by decide) plain with ⟨read, reads, parsed⟩
    have bodies := congrArg (List.map fun entry => entry.2.body) parsed
    have misread : (parseRegistryResponses (outOf [withoutBlock httpStart]) (some [1])).map (fun entry => entry.2.body) =
        [[]] := by decide +kernel
    rw [List.map_singleton, List.map_singleton, (reads _ List.mem_cons_self).body] at bodies
    exact absurd (misread.symm.trans bodies) (by decide)

end Examples

end RegistryRetention
end Dokploy
