import Dokploy.RegistryRetention.CurlReading
import Dokploy.RegistryRetention.DeleteJob

namespace Dokploy
namespace RegistryRetention

open Foundation

/-!
# Whole responses, and output that was cut off

Curl writes a header block, when it was asked for, the body and what the config's
write-out says.  A header line has a colon and a marker line has none, so a marker
can only be read in a body or where one begins behind a header block.  Output that
is cut off is read up to the last marker line that is whole.
-/

section Printing

/-- The template of a request's write-out. -/
def writeOutTemplate (id : Int) : Text :=
  "\\n@@DPL ".toList ++ Numerals.numberText id ++ " %\x7bhttp_code\x7d\\n".toList

/-- What curl prints for a template: an escaped n is a line feed, and the variable is the status. -/
def writtenOut (code : Text) : Text -> Text
  | '\\' :: 'n' :: rest => '\n' :: writtenOut code rest
  | '%' :: '\x7b' :: 'h' :: 't' :: 't' :: 'p' :: '_' :: 'c' :: 'o' :: 'd' :: 'e' :: '\x7d' :: rest =>
      code ++ writtenOut code rest
  | char :: rest => char :: writtenOut code rest
  | [] => []

theorem writtenOut_plain (code : Text) {plain : Text} (isPlain : forall char, char ∈ plain -> char ≠ '\\' ∧ char ≠ '%')
    (rest : Text) : writtenOut code (plain ++ rest) = plain ++ writtenOut code rest := by
  induction plain with
  | nil => rfl
  | cons char plain ih =>
      have first := isPlain char List.mem_cons_self
      rw [List.cons_append, writtenOut.eq_3 code char _ (fun _ same _ => first.1 same) (fun _ same _ => first.2 same),
        ih fun other member => isPlain other (List.mem_cons_of_mem _ member), List.cons_append]

theorem writeOutTemplate_eq {id : Nat} (number : Numerals.numberText id = Numerals.decimal id) :
    writeOutTemplate id = '\\' :: 'n' ::
      (RESPONSE_MARKER ++ ' ' :: Numerals.decimal id ++ [' '] ++ "%\x7bhttp_code\x7d\\n".toList) := by
  have start : "\\n@@DPL ".toList = '\\' :: 'n' :: (RESPONSE_MARKER ++ [' ']) := by decide
  have close : " %\x7bhttp_code\x7d\\n".toList = ' ' :: "%\x7bhttp_code\x7d\\n".toList := by decide
  unfold writeOutTemplate
  rw [number, start, close]
  simp only [List.append_assoc, List.cons_append, List.nil_append]

theorem writtenOut_template (code : Text) {id : Nat} (small : id < 2 ^ 53) :
    writtenOut code (writeOutTemplate id) = '\n' :: markerLine (Numerals.decimal id) code ++ ['\n'] := by
  have shape := writeOutTemplate_eq (Numerals.numberText_of_nat small)
  have variableText : "%\x7bhttp_code\x7d\\n".toList =
      '%' :: '\x7b' :: 'h' :: 't' :: 't' :: 'p' :: '_' :: 'c' :: 'o' :: 'd' :: 'e' :: '\x7d' :: ['\\', 'n'] := rfl
  have close : writtenOut code "%\x7bhttp_code\x7d\\n".toList = code ++ ['\n'] := by
    rw [variableText, writtenOut.eq_2, writtenOut.eq_1, writtenOut.eq_4]
  have isPlain : forall char, char ∈ RESPONSE_MARKER ++ ' ' :: Numerals.decimal id ++ [' '] -> char ≠ '\\' ∧ char ≠ '%' := by
    intro char member
    simp only [List.mem_append, List.mem_cons, List.not_mem_nil, or_false] at member
    rcases member with (inMarker | rfl | inId) | rfl
    · exact (marker_char inMarker).2.2
    · decide
    · have isDigit := List.all_eq_true.mp (isNumber_decimal id).digits char inId
      refine ⟨fun same => ?_, fun same => ?_⟩ <;> exact absurd (same ▸ isDigit) (by decide)
    · decide
  rw [shape, writtenOut.eq_1, writtenOut_plain code isPlain, close]
  simp only [markerLine, List.append_assoc, List.cons_append, List.nil_append]

end Printing

section Heads

/-- A header line: a name, a colon and the rest, which may end with a carriage return. -/
structure HeaderField where
  name : Text
  content : Text
  named : name ≠ []
  token : name.all isTokenChar = true
  whole : '\n' ∉ content

namespace HeaderField

variable (field : HeaderField)

def line : Text := field.name ++ ':' :: field.content

def key : Text := toLowerCase (trim field.name)

def value : Text := trim field.content

end HeaderField

/-- A status line, header lines and an empty line. -/
structure HeaderBlock where
  statusLine : Text
  fields : List HeaderField
  blank : Text
  starts : httpStart <+: statusLine
  whole : '\n' ∉ statusLine
  isBreak : IsBreak blank

def HeaderBlock.text (block : HeaderBlock) : Text :=
  block.statusLine ++ '\n' :: (Lines.join (block.fields.map HeaderField.line) ++ block.blank)

/-- A line without the carriage return before its line feed. -/
def withoutReturn (line : Text) : Text := if line.getLast? = some '\r' then line.dropLast else line

theorem HeaderField.line_whole (field : HeaderField) : '\n' ∉ field.line := by
  intro member
  rcases List.mem_append.mp member with inName | behind
  · exact absurd (List.all_eq_true.mp field.token _ inName) (by decide)
  · rcases List.mem_cons.mp behind with isColon | inContent
    · exact absurd isColon (by decide)
    · exact field.whole inContent

theorem HeaderField.colon_mem (field : HeaderField) : ':' ∈ field.line := List.mem_append_right _ List.mem_cons_self

theorem HeaderField.name_colonFree (field : HeaderField) : ':' ∉ field.name := fun member =>
  absurd (List.all_eq_true.mp field.token _ member) (by decide)

end Heads

section Quietness

variable {text : Text}

theorem Quiet.cons {char : Char} (quiet : Quiet text)
    (behind : char = '\n' -> forall rest, readMarker (text ++ '\n' :: rest) = none) : Quiet (char :: text) := by
  intro before after split rest
  cases before with
  | nil =>
      cases split
      exact behind rfl rest
  | cons other before => exact quiet before after (List.cons.inj split).2 rest

theorem Quiet.line {line : Text} (whole : '\n' ∉ line) (quiet : Quiet text)
    (behind : forall rest, readMarker (text ++ '\n' :: rest) = none) : Quiet (line ++ '\n' :: text) := by
  induction line with
  | nil => exact quiet.cons fun _ => behind
  | cons char line ih =>
      have shorter := ih fun member => whole (List.mem_cons_of_mem _ member)
      exact shorter.cons fun isBreak => absurd (isBreak ▸ List.mem_cons_self) whole

theorem starts_of_marker {read : Text × Text × Text} (marks : readMarker text = some read) : RESPONSE_MARKER <+: text := by
  rcases (readMarker_iff text read.1 read.2.1 read.2.2).mp marks with ⟨_, _, _, _, rfl⟩
  exact (List.prefix_append _ _).trans (List.prefix_append _ _)

theorem readMarker_of_unmarked (unmarked : ¬ RESPONSE_MARKER <+: text) (rest : Text) :
    readMarker (text ++ '\n' :: rest) = none := by
  apply Option.eq_none_iff_forall_ne_some.mpr
  intro read marks
  exact unmarked (Lines.prefix_of_break (by decide) (starts_of_marker marks))

theorem Quiet.of_plain (plain : ¬ ('\n' :: RESPONSE_MARKER) <:+: text) : Quiet text := by
  rintro before after rfl rest
  apply readMarker_of_unmarked
  rintro ⟨more, rfl⟩
  exact plain ⟨before, more, by simp⟩

theorem readMarker_field (field : HeaderField) (rest : Text) : readMarker (field.line ++ '\n' :: rest) = none := by
  apply Option.eq_none_iff_forall_ne_some.mpr
  rintro ⟨id, code, after⟩ marks
  rcases (readMarker_iff _ _ _ _).mp marks with ⟨isNumber, isCode, ending, isBreak, split⟩
  have digit : forall digits : Text, digits.all Json.isDigit = true -> forall char, char ∈ digits -> char ≠ '\n' ∧ char ≠ ':' := by
    intro digits all char member
    have isDigit := List.all_eq_true.mp all char member
    refine ⟨fun same => ?_, fun same => ?_⟩ <;> exact absurd (same ▸ isDigit) (by decide)
  -- Everything before the marker's line break is free of line breaks and colons.
  have first : forall start : Text, IsBreak ending -> (forall char, char ∈ start -> char ≠ '\n' ∧ char ≠ ':') ->
      field.line ++ '\n' :: rest ≠ start ++ (ending ++ after) := by
    intro start isBreak free same
    have lined : forall line : Text, (forall char, char ∈ line -> char ≠ '\n' ∧ char ≠ ':') -> field.line ≠ line :=
      fun line free same => (free ':' (same ▸ field.colon_mem)).2 rfl
    have broken : forall line : Text, (forall char, char ∈ line -> char ≠ '\n' ∧ char ≠ ':') ->
        field.line ++ '\n' :: rest ≠ line ++ '\n' :: after := by
      intro line free same
      have lines := congrArg Lines.read same
      rw [Lines.read_cons field.line_whole, Lines.read_cons fun member => (free _ member).1 rfl] at lines
      exact lined line free (List.cons.inj lines).1
    rcases isBreak with rfl | rfl
    · exact broken start free same
    · apply broken (start ++ ['\r'])
      · intro char member
        rcases List.mem_append.mp member with inStart | isReturn
        · exact free char inStart
        · rw [List.mem_singleton.mp isReturn]
          decide
      · rw [same]
        simp
  apply first (RESPONSE_MARKER ++ [' '] ++ (id ++ ' ' :: code)) isBreak
  · intro char member
    simp only [List.mem_append, List.mem_cons, List.not_mem_nil, or_false] at member
    rcases member with (inMarker | rfl) | inId | rfl | inCode
    · exact ⟨(marker_char inMarker).1, (marker_char inMarker).2.1⟩
    · decide
    · exact digit id isNumber.digits char inId
    · decide
    · exact digit code isCode.digits char inCode
  · rw [split]
    simp

end Quietness

section ReadingHeads

variable {line : Text}

theorem withoutReturn_cons {char other : Char} :
    withoutReturn (char :: other :: line) = char :: withoutReturn (other :: line) := by
  unfold withoutReturn
  rw [List.getLast?_cons_cons, List.dropLast_cons_of_ne_nil (List.cons_ne_nil other line)]
  split <;> rfl

theorem withoutReturn_append (start : Text) (char : Char) (line : Text) :
    withoutReturn (start ++ char :: line) = start ++ withoutReturn (char :: line) := by
  induction start with
  | nil => rfl
  | cons first start ih =>
      cases start with
      | nil => exact withoutReturn_cons
      | cons second start => exact withoutReturn_cons.trans (congrArg (first :: ·) ih)

theorem withoutReturn_subset (line : Text) : withoutReturn line ⊆ line := by
  unfold withoutReturn
  split
  · exact (List.dropLast_sublist line).subset
  · exact List.Subset.refl line

theorem splitLines_whole (whole : '\n' ∉ line) : splitLines line = [line] := by
  induction line with
  | nil => rfl
  | cons char line ih =>
      have other : char ≠ '\n' := fun same => whole (same ▸ List.mem_cons_self)
      have behind : '\n' ∉ line := fun member => whole (List.mem_cons_of_mem _ member)
      rw [splitLines.eq_4 char line other fun rest _ same => behind (same ▸ List.mem_cons_self), ih behind]

theorem splitLines_break (whole : '\n' ∉ line) (rest : Text) :
    splitLines (line ++ '\n' :: rest) = withoutReturn line :: splitLines rest := by
  induction line with
  | nil => rfl
  | cons char line ih =>
      have other : char ≠ '\n' := fun same => whole (same ▸ List.mem_cons_self)
      have behind : '\n' ∉ line := fun member => whole (List.mem_cons_of_mem _ member)
      cases line with
      | nil =>
          by_cases isReturn : char = '\r'
          · rw [isReturn]
            rfl
          · rw [List.cons_append, splitLines.eq_4 char _ other fun _ same _ => isReturn same, ih behind]
            simp [withoutReturn, isReturn]
      | cons next line =>
          have noBreak : next ≠ '\n' := fun same => behind (same ▸ List.mem_cons_self)
          rw [List.cons_append, splitLines.eq_4 char (next :: line ++ '\n' :: rest) other
            fun _ _ same => noBreak (List.cons.inj same).1, ih behind, withoutReturn_cons]

theorem readBreak_text (whole : '\n' ∉ line) (notEmpty : line ≠ []) (notReturn : line ≠ ['\r']) (rest : Text) :
    readBreak (line ++ '\n' :: rest) = none := by
  apply Option.eq_none_iff_forall_ne_some.mpr
  intro after broken
  rcases (readBreak_iff _ _).mp broken with ⟨ending, rfl | rfl, split⟩
  · cases line with
    | nil => exact notEmpty rfl
    | cons char line => exact whole ((List.cons.inj split).1 ▸ List.mem_cons_self)
  · match line, split with
    | [], _ => exact notEmpty rfl
    | [char], split => exact notReturn (by rw [(List.cons.inj split).1])
    | _ :: second :: _, split =>
        exact whole ((List.cons.inj (List.cons.inj split).2).1 ▸ List.mem_cons_of_mem _ List.mem_cons_self)

theorem splitHead_line {next : Text} (whole : '\n' ∉ line) (goesOn : readBreak next = none) :
    splitHead (line ++ '\n' :: next) = (splitHead next).map fun found => (line ++ '\n' :: found.1, found.2) := by
  induction line with
  | nil =>
      have none : (readBreak ('\n' :: next)).bind readBreak = none := goesOn
      rw [List.nil_append, splitHead, none]
      rfl
  | cons char line ih =>
      have other : char ≠ '\n' := fun same => whole (same ▸ List.mem_cons_self)
      have behind : '\n' ∉ line := fun member => whole (List.mem_cons_of_mem _ member)
      have none : (readBreak (char :: (line ++ '\n' :: next))).bind readBreak = none := by
        by_cases short : char :: line = ['\r']
        · cases short
          exact goesOn
        · have text := readBreak_text whole (List.cons_ne_nil char line) short next
          rw [List.cons_append] at text
          rw [text]
          rfl
      rw [List.cons_append, splitHead, none, ih behind]
      cases splitHead next <;> rfl

theorem splitHead_last {blank : Text} (whole : '\n' ∉ line) (isBreak : IsBreak blank) (body : Text) :
    splitHead (line ++ '\n' :: (blank ++ body)) = some (withoutReturn line, body) := by
  have empty : readBreak (blank ++ body) = some body := (readBreak_iff _ _).mpr ⟨blank, isBreak, rfl⟩
  induction line with
  | nil =>
      have ends : (readBreak ('\n' :: (blank ++ body))).bind readBreak = some body := empty
      rw [List.nil_append, splitHead, ends]
      rfl
  | cons char line ih =>
      have behind : '\n' ∉ line := fun member => whole (List.mem_cons_of_mem _ member)
      by_cases short : char :: line = ['\r']
      · cases short
        have ends : (readBreak ('\r' :: '\n' :: (blank ++ body))).bind readBreak = some body := empty
        rw [List.cons_append, List.nil_append, splitHead, ends]
        rfl
      · have text := readBreak_text whole (List.cons_ne_nil char line) short (blank ++ body)
        rw [List.cons_append] at text
        have last : char :: withoutReturn line = withoutReturn (char :: line) := by
          cases line with
          | nil =>
              have notReturn : char ≠ '\r' := fun same => short (by rw [same])
              simp [withoutReturn, notReturn]
          | cons next line => exact withoutReturn_cons.symm
        rw [List.cons_append, splitHead, text, ih behind, <- last]
        rfl

theorem splitHead_lines {blank : Text} (isBreak : IsBreak blank) (body : Text) (fields : List HeaderField) {first : Text}
    (whole : '\n' ∉ first) :
    Exists fun head =>
      splitHead (first ++ '\n' :: (Lines.join (fields.map HeaderField.line) ++ (blank ++ body))) = some (head, body) ∧
        splitLines head = withoutReturn first :: fields.map fun field => withoutReturn field.line := by
  induction fields generalizing first with
  | nil =>
      refine ⟨withoutReturn first, splitHead_last whole isBreak body, splitLines_whole ?_⟩
      exact fun member => whole (withoutReturn_subset first member)
  | cons field fields ih =>
      rcases ih field.line_whole with ⟨head, split, lines⟩
      have next : Lines.join ((field :: fields).map HeaderField.line) ++ (blank ++ body) =
          field.line ++ '\n' :: (Lines.join (fields.map HeaderField.line) ++ (blank ++ body)) := by
        simp [Lines.join]
      have notEmpty : field.line ≠ [] := fun none => List.not_mem_nil (none ▸ field.colon_mem)
      have notReturn : field.line ≠ ['\r'] := fun same => absurd (same ▸ field.colon_mem) (by decide)
      refine ⟨first ++ '\n' :: head, ?_, ?_⟩
      · rw [next, splitHead_line whole (readBreak_text field.line_whole notEmpty notReturn _), split]
        rfl
      · rw [splitLines_break whole, lines]
        rfl

end ReadingHeads

section ReadingHeaders

/-- What is known of the headers after these fields. -/
structure ReadFields (fields : List HeaderField) (found : ReadHeaders) : Prop where
  first : forall name, (found.headers.find? fun header => header.1 = name).map Prod.snd =
    (fields.find? fun field => field.key = name).map HeaderField.value
  names : forall name, name ∈ found.headers.map Prod.fst <-> name ∈ fields.map HeaderField.key
  again : forall name, name ∈ found.repeated <-> 2 ≤ (fields.map HeaderField.key).count name
  once : found.repeated.Nodup

theorem ReadFields.start : ReadFields [] ⟨[], []⟩ where
  first := fun _ => rfl
  names := fun _ => Iff.rfl
  again := fun _ => by simp
  once := List.nodup_nil

theorem trim_withoutReturn (content : Text) : trim (withoutReturn content) = trim content := by
  unfold withoutReturn
  split
  · rename_i last
    rcases List.getLast?_eq_some_iff.mp last with ⟨start, rfl⟩
    rw [List.dropLast_concat]
    unfold trim
    congr 1
    by_cases blank : start.all isWhitespace = true
    · have all := List.all_eq_true.mp blank
      rw [List.dropWhile_append_of_pos all, List.dropWhile_eq_nil_iff.mpr all]
      rfl
    · have some : start.dropWhile isWhitespace ≠ [] := by
        intro none
        exact blank (List.all_eq_true.mpr (List.dropWhile_eq_nil_iff.mp none))
      have notEmpty : (start.dropWhile isWhitespace).isEmpty = false := by simpa using some
      rw [List.dropWhile_append, if_neg (by rw [notEmpty]; exact Bool.false_ne_true), List.reverse_append]
      rfl
  · rfl

theorem readHeader_field (found : ReadHeaders) (field : HeaderField) :
    readHeader found (withoutReturn field.line) =
      if field.key ∈ found.headers.map Prod.fst then
        { found with repeated := if field.key ∈ found.repeated then found.repeated else found.repeated ++ [field.key] }
      else { found with headers := found.headers ++ [(field.key, field.value)] } := by
  have line : withoutReturn field.line = field.name ++ ':' :: withoutReturn field.content := by
    rw [HeaderField.line, withoutReturn_append]
    cases field.content with
    | nil => rfl
    | cons char content => rw [withoutReturn_cons]
  have name : (withoutReturn field.line).takeWhile (fun char => decide (char ≠ ':')) = field.name := by
    rw [line, List.takeWhile_append_of_pos fun char member => by
      simpa using fun same : char = ':' => field.name_colonFree (same ▸ member)]
    simp
  have content : ((withoutReturn field.line).dropWhile fun char => decide (char ≠ ':')).drop 1 =
      withoutReturn field.content := by
    rw [line, List.dropWhile_append_of_pos fun char member => by
      simpa using fun same : char = ':' => field.name_colonFree (same ▸ member)]
    simp
  have colon : ':' ∈ withoutReturn field.line := by
    rw [line]
    exact List.mem_append_right _ List.mem_cons_self
  have named : field.name.isEmpty = false := by simpa using field.named
  unfold readHeader
  rw [name, content, named, trim_withoutReturn, if_neg (by simp [colon])]
  rfl

theorem ReadFields.next {fields : List HeaderField} {found : ReadHeaders} (read : ReadFields fields found)
    (field : HeaderField) : ReadFields (fields ++ [field]) (readHeader found (withoutReturn field.line)) := by
  have counted : forall name, ((fields ++ [field]).map HeaderField.key).count name =
      (fields.map HeaderField.key).count name + if field.key = name then 1 else 0 := by
    intro name
    rw [List.map_append, List.count_append, List.map_singleton, List.count_singleton]
    simp
  rw [readHeader_field]
  split
  · rename_i old
    have known : field.key ∈ fields.map HeaderField.key := (read.names _).mp old
    have earlier : 1 ≤ (fields.map HeaderField.key).count field.key := List.count_pos_iff.mpr known
    have again : forall name, name ∈ (if field.key ∈ found.repeated then found.repeated else found.repeated ++ [field.key]) <->
        2 ≤ ((fields ++ [field]).map HeaderField.key).count name := by
      intro name
      have before := read.again name
      have listed : name ∈ (if field.key ∈ found.repeated then found.repeated else found.repeated ++ [field.key]) <->
          name ∈ found.repeated ∨ name = field.key := by
        split
        · rename_i already
          exact ⟨Or.inl, fun either => either.elim id fun same => same ▸ already⟩
        · rw [List.mem_append, List.mem_singleton]
      rw [listed, counted, before]
      by_cases same : field.key = name
      · rw [if_pos same]
        have occurs : 1 ≤ (fields.map HeaderField.key).count name := same ▸ earlier
        exact ⟨fun _ => by omega, fun _ => Or.inr same.symm⟩
      · rw [if_neg same]
        exact ⟨fun either => either.elim id fun equal => absurd equal.symm same, fun enough => Or.inl enough⟩
    refine ⟨?_, ?_, again, ?_⟩
    · intro name
      rw [read.first name, List.find?_append]
      by_cases same : field.key = name
      · rcases List.mem_map.mp known with ⟨other, member, key⟩
        have found : (fields.find? fun field => field.key = name).isSome = true :=
          List.find?_isSome.mpr ⟨other, member, by simpa using key.trans same⟩
        rcases Option.isSome_iff_exists.mp found with ⟨first, is⟩
        rw [is]
        rfl
      · rw [List.find?_singleton, if_neg (by simpa using same), Option.or_none]
    · intro name
      rw [read.names name, List.map_append, List.mem_append, List.map_singleton, List.mem_singleton]
      exact ⟨Or.inl, fun either => either.elim id fun same => same ▸ known⟩
    · dsimp only
      split
      · exact read.once
      · rename_i fresh
        exact List.nodup_append.mpr ⟨read.once, by simp, fun name member other isLast same =>
          fresh (List.mem_singleton.mp isLast ▸ same ▸ member)⟩
  · rename_i fresh
    have unknown : field.key ∉ fields.map HeaderField.key := fun member => fresh ((read.names _).mpr member)
    refine ⟨?_, ?_, ?_, read.once⟩
    · intro name
      rw [List.find?_append, List.find?_append, Option.map_or, Option.map_or, read.first name, List.find?_singleton,
        List.find?_singleton]
      by_cases same : field.key = name
      · rw [if_pos (by simpa using same), if_pos (by simpa using same)]
        rfl
      · rw [if_neg (by simpa using same), if_neg (by simpa using same)]
        rfl
    · intro name
      rw [List.map_append, List.map_append, List.mem_append, List.mem_append, read.names name]
      rfl
    · intro name
      rw [read.again name, counted]
      by_cases same : field.key = name
      · have none : (fields.map HeaderField.key).count name = 0 := List.count_eq_zero.mpr (same ▸ unknown)
        rw [none, if_pos same]
        omega
      · rw [if_neg same]
        rfl

theorem readFields (fields : List HeaderField) :
    ReadFields fields ((fields.map fun field => withoutReturn field.line).foldl readHeader ⟨[], []⟩) := by
  induction fields using List.reverseRecOn with
  | nil => exact ReadFields.start
  | append_singleton fields field ih =>
      rw [List.map_append, List.foldl_append]
      exact ih.next field

end ReadingHeaders

end RegistryRetention
end Dokploy
