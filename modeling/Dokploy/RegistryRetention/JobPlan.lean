import Dokploy.RegistryRetention.DeleteJob

namespace Dokploy
namespace RegistryRetention

open Foundation

/-!
# What the script does with a config

Fed with the config of a list of entries, the script is the program that handles them
one after the other: it reads the guards of an entry up to the first that does not
hold, looks at the clock and at the stop marker, and deletes or skips.  The lines of
the credentials and URLs are never taken for section lines.
-/

section Plan

/-- Reads guards up to the first that does not hold. -/
def handleGuards (credentials : Credentials) (digest : Text) : List DeleteGuard -> Script Bool
  | [] => pure true
  | entryGuard :: guards => do
      let good <- guard digest ((guardConfig credentials entryGuard).getD []) (optionalText entryGuard)
      if good then handleGuards credentials digest guards else pure false

/-- The clock, the stop marker and the deletion, and what comes after. -/
def settle (deadline : Int) (config id : Text) (result : Text) (next : Text -> Script Text) (ok : Bool) : Script Text := do
  let now <- Script.ask .date
  if ¬ now < deadline then pure result
  else do
    let touched <- Script.ask .find
    if touched ≠ [] then pure result
    else if ok then do
      let output <- Script.ask (.deleteCurl config)
      next (result ++ output)
    else next (result ++ skippedLine id)

def handle (credentials : Credentials) (deadline : Int) : List DeleteJobEntry -> Text -> Script Text
  | [], result => pure result
  | entry :: entries, result =>
      handleGuards credentials entry.digest entry.guards >>=
        settle deadline ((deleteConfig credentials entry).getD []) (Numerals.numberText entry.id) result
          (handle credentials deadline entries)

/-- The job, as a program over its entries. -/
def jobPlan (credentials : Credentials) (entries : List DeleteJobEntry) (seconds : Int) (token : Text) :
    Script (Option Text) := do
  let begun <- Script.ask .date
  let result <- handle credentials (begun + seconds) entries (started token).result
  pure (some result)

end Plan

section Sections

variable {deadline : Int}

/-- A line that is not about sections: it has one line, and does not start like a comment. -/
structure Ordinary (line : Text) : Prop where
  whole : '\n' ∉ line
  noNul : '\x00' ∉ line
  starts : line.head? ≠ some '#'

theorem not_prefix_of_ordinary {line rest : Text} (ordinary : Ordinary line) :
    ('#' :: rest).isPrefixOf line = false := by
  cases line with
  | nil => rfl
  | cons char others =>
      have other : char ≠ '#' := fun same => ordinary.starts (congrArg some same)
      rw [List.isPrefixOf, beq_eq_false_iff_ne.mpr fun same => other same.symm]
      rfl

theorem walk_ordinary {line : Text} (ordinary : Ordinary line) (lines : List Text) (state : JobState) :
    walk deadline (line :: lines) state = walk deadline lines (collect line state) := by
  have entry : (ENTRY_MARKER ++ [' ']).isPrefixOf line = false := not_prefix_of_ordinary ordinary
  have guards : (GUARD_SECTION_MARKER ++ [' ']).isPrefixOf line = false := not_prefix_of_ordinary ordinary
  have deletes : line ≠ DELETE_SECTION_MARKER := fun same => ordinary.starts (same ▸ rfl)
  have ends : line ≠ DELETE_JOB_END_MARKER := fun same => ordinary.starts (same ▸ rfl)
  rw [walk, entry, guards, if_neg deletes, if_neg ends]
  rfl

variable {state : JobState}

theorem collect_guard {line : Text} (mode : state.mode = .g) :
    collect line state = { state with gblk := state.gblk ++ line ++ ['\n'] } := by
  unfold collect
  split
  · rename_i other
    rw [mode] at other
    cases other
  · rfl
  · rename_i _ other
    exact absurd mode other

theorem collect_delete {line : Text} (mode : state.mode = .d) :
    collect line state = { state with dblk := state.dblk ++ line ++ ['\n'] } := by
  unfold collect
  split
  · rfl
  · rename_i other
    rw [mode] at other
    cases other
  · rename_i other _
    exact absurd mode other

theorem walk_guardBlock {block : List Text} (ordinary : forall line, line ∈ block -> Ordinary line) (lines : List Text)
    (mode : state.mode = .g) :
    walk deadline (block ++ lines) state = walk deadline lines { state with gblk := state.gblk ++ Lines.join block } := by
  induction block generalizing state with
  | nil => simp [Lines.join]
  | cons line block ih =>
      rw [List.cons_append, walk_ordinary (ordinary line List.mem_cons_self), collect_guard mode]
      have rest := ih (fun other member => ordinary other (List.mem_cons_of_mem _ member))
        (show { state with gblk := state.gblk ++ line ++ ['\n'] }.mode = .g from mode)
      rw [rest]
      simp [Lines.join]

theorem walk_deleteBlock {block : List Text} (ordinary : forall line, line ∈ block -> Ordinary line) (lines : List Text)
    (mode : state.mode = .d) :
    walk deadline (block ++ lines) state = walk deadline lines { state with dblk := state.dblk ++ Lines.join block } := by
  induction block generalizing state with
  | nil => simp [Lines.join]
  | cons line block ih =>
      rw [List.cons_append, walk_ordinary (ordinary line List.mem_cons_self), collect_delete mode]
      have rest := ih (fun other member => ordinary other (List.mem_cons_of_mem _ member))
        (show { state with dblk := state.dblk ++ line ++ ['\n'] }.mode = .d from mode)
      rw [rest]
      simp [Lines.join]

/-- The state in which a guard has been read. -/
def guardState (config optional : Text) (state : JobState) : JobState :=
  { state with gopt := optional, gblk := config, mode := .g }

def deleteState (config : Text) (state : JobState) : JobState := { state with dblk := config, mode := .d }

theorem fields_word {word : Text} (isWord : forall char, char ∈ word -> isField char = true) (field rest : Text) :
    fieldsFrom field (word ++ rest) = fieldsFrom (field ++ word) rest := by
  induction word generalizing field with
  | nil => rw [List.nil_append, List.append_nil]
  | cons char word ih =>
      rw [List.cons_append, fieldsFrom, if_pos (isWord char List.mem_cons_self),
        ih (fun other member => isWord other (List.mem_cons_of_mem _ member)), List.append_assoc]
      rfl

theorem fields_cons {word : Text} (isWord : forall char, char ∈ word -> isField char = true) (some : word ≠ [])
    (rest : Text) : fieldsFrom [] (word ++ ' ' :: rest) = word :: fieldsFrom [] rest := by
  rw [fields_word isWord, List.nil_append, fieldsFrom, if_neg (by decide), if_neg (by simpa using some)]

theorem fields_last {word : Text} (isWord : forall char, char ∈ word -> isField char = true) (some : word ≠ []) :
    fieldsFrom [] word = [word] := by
  have only := fields_word isWord [] []
  rw [List.append_nil, List.nil_append, fieldsFrom, if_neg (by simpa using some)] at only
  exact only

def guardHeader (entryGuard : DeleteGuard) : Text := GUARD_SECTION_MARKER ++ ' ' :: optionalText entryGuard

theorem walk_guardHeader (entryGuard : DeleteGuard) (lines : List Text) (state : JobState) :
    walk deadline (guardHeader entryGuard :: lines) state =
      endsec state >>= fun state => walk deadline lines (guardState [] (optionalText entryGuard) state) := by
  rcases entryGuard with ⟨url, _ | _⟩ <;> rfl

theorem walk_deleteHeader (lines : List Text) (state : JobState) :
    walk deadline (DELETE_SECTION_MARKER :: lines) state =
      endsec state >>= fun state => walk deadline lines (deleteState [] state) := rfl

theorem walk_end (lines : List Text) (state : JobState) :
    walk deadline (DELETE_JOB_END_MARKER :: lines) state =
      endsec state >>= fun state => finish deadline state >>= fun finished => pure finished.1 := rfl

theorem walk_entryLine (entry : DeleteJobEntry) (lines : List Text) (state : JobState) :
    walk deadline (entryLine entry :: lines) state =
      endsec state >>= fun state => finish deadline state >>= fun finished =>
        if finished.2 then walk deadline lines (enter (entryLine entry) finished.1) else pure finished.1 := by
  have starts : (ENTRY_MARKER ++ [' ']).isPrefixOf (entryLine entry) = true :=
    List.isPrefixOf_iff_prefix.mpr ⟨_, List.append_assoc _ _ _⟩
  rw [walk, starts]
  rfl

end Sections

section Written

variable {credentials : Credentials}

theorem curlConfigQuote_ordinary {value quoted : Text} (written : curlConfigQuote value = some quoted) :
    '\n' ∉ quoted ∧ '\x00' ∉ quoted := by
  unfold curlConfigQuote at written
  split at written
  · rename_i writable
    cases written
    have each := List.all_eq_true.mp writable
    have escaped : forall other, (other = '\n' ∨ other = '\x00') ->
        other ∉ ('"' :: value.flatMap escapeQuoted ++ ['"']) := by
      intro other isBreak member
      have notQuote : other ≠ '"' ∧ other ≠ '\\' := by
        rcases isBreak with rfl | rfl <;> decide
      rcases List.mem_append.mp member with front | last
      · rcases List.mem_cons.mp front with quote | middle
        · exact notQuote.1 quote
        · rcases List.mem_flatMap.mp middle with ⟨char, among, inside⟩
          have allowed := each char among
          unfold escapeQuoted at inside
          have same : other = char := by
            split at inside
            · rcases List.mem_cons.mp inside with slash | rest
              · exact absurd slash notQuote.2
              · exact List.mem_singleton.mp rest
            · exact List.mem_singleton.mp inside
          rcases isBreak with rfl | rfl <;> simp [<- same] at allowed
      · exact notQuote.1 (List.mem_singleton.mp last)
    exact ⟨escaped _ (Or.inl rfl), escaped _ (Or.inr rfl)⟩
  · cases written

def isNumberChar (char : Char) : Bool := char.isDigit || ['-', '+', '.', 'e'].contains char

theorem decimal_chars (value : Nat) : (Numerals.decimal value).all isNumberChar = true :=
  List.all_eq_true.mpr fun char member => by
    rw [isNumberChar, Numerals.isDigit_of_mem_decimal member, Bool.true_or]

theorem doubleText_chars (value : Nat) : (Numerals.doubleText value).all isNumberChar = true := by
  unfold Numerals.doubleText
  simp only
  split
  · rw [List.all_append, decimal_chars, Bool.true_and]
    exact List.all_eq_true.mpr fun char member => List.eq_of_mem_replicate member ▸ rfl
  · have digits := decimal_chars (Numerals.shortest value (Numerals.decimal value).length).1
    generalize Numerals.decimal (Numerals.shortest value (Numerals.decimal value).length).1 = text at digits ⊢
    split
    · rfl
    · rename_i first
      simp only [List.all_cons, List.all_append, Bool.and_eq_true] at digits ⊢
      exact ⟨⟨digits.1, rfl⟩, decimal_chars _⟩
    · rename_i first rest _
      simp only [List.all_cons, List.all_append, List.cons_append, Bool.and_eq_true] at digits ⊢
      exact ⟨digits.1, rfl, ⟨digits.2, rfl⟩, decimal_chars _⟩

theorem numberText_chars (value : Int) : (Numerals.numberText value).all isNumberChar = true := by
  have digits : (if value.natAbs < 2 ^ 53 then Numerals.decimal value.natAbs
      else Numerals.doubleText value.natAbs).all isNumberChar = true := by
    split
    · exact decimal_chars _
    · exact doubleText_chars _
  unfold Numerals.numberText Numerals.withSign
  split
  · rw [List.all_cons, digits]
    rfl
  · exact digits

theorem not_mem_of_chars {text : Text} (chars : text.all isNumberChar = true) {char : Char}
    (other : isNumberChar char = false) : char ∉ text := by
  intro member
  have number := List.all_eq_true.mp chars char member
  rw [other] at number
  cases number

theorem ordinary_iff (line : Text) :
    Ordinary line <-> '\n' ∉ line ∧ '\x00' ∉ line ∧ line.head? ≠ some '#' :=
  ⟨fun ordinary => ⟨ordinary.whole, ordinary.noNul, ordinary.starts⟩, fun parts => ⟨parts.1, parts.2.1, parts.2.2⟩⟩

instance (line : Text) : Decidable (Ordinary line) := decidable_of_iff _ (ordinary_iff line).symm

theorem Ordinary.append {start rest : Text} (ordinary : Ordinary start) (some : start ≠ []) (whole : '\n' ∉ rest)
    (noNul : '\x00' ∉ rest) : Ordinary (start ++ rest) where
  whole := fun member => (List.mem_append.mp member).elim ordinary.whole whole
  noNul := fun member => (List.mem_append.mp member).elim ordinary.noNul noNul
  starts := by
    cases start with
    | nil => exact absurd rfl some
    | cons char start => exact ordinary.starts

theorem userLines_ordinary {lines : List Text} (written : userLines credentials = some lines) :
    forall line, line ∈ lines -> Ordinary line := by
  unfold userLines at written
  split at written
  · rcases Option.map_eq_some_iff.mp written with ⟨user, quoted, rfl⟩
    have fine := curlConfigQuote_ordinary quoted
    intro line member
    rw [List.mem_singleton.mp member]
    exact Ordinary.append (by decide) (by decide) fine.1 fine.2
  · cases written
    exact fun _ none => nomatch none

theorem ite_ordinary {condition : Prop} [Decidable condition] {line : Text} (ordinary : Ordinary line) :
    forall other, other ∈ (if condition then [line] else []) -> Ordinary other := by
  intro other member
  split at member
  · exact List.mem_singleton.mp member ▸ ordinary
  · cases member

theorem requestLines_ordinary {timeoutSeconds : Nat} {request : RegistryRequest} {lines : List Text}
    (written : requestLines credentials timeoutSeconds request = some lines) :
    forall line, line ∈ lines -> Ordinary line := by
  rcases Option.bind_eq_some_iff.mp written with ⟨url, quotedUrl, afterUrl⟩
  rcases Option.bind_eq_some_iff.mp afterUrl with ⟨user, writtenUser, afterUser⟩
  rcases Option.bind_eq_some_iff.mp afterUser with ⟨accept, quotedAccept, same⟩
  cases same
  have fineUrl := curlConfigQuote_ordinary quotedUrl
  have fineAccept := curlConfigQuote_ordinary quotedAccept
  have fineTimeout := decimal_chars timeoutSeconds
  have fineId := numberText_chars request.id
  have urlLine : Ordinary ("url = ".toList ++ url) := Ordinary.append (by decide) (by decide) fineUrl.1 fineUrl.2
  have timeLine : Ordinary ("max-time = ".toList ++ Numerals.decimal timeoutSeconds) :=
    Ordinary.append (by decide) (by decide) (not_mem_of_chars fineTimeout rfl) (not_mem_of_chars fineTimeout rfl)
  have acceptLine : Ordinary ("header = ".toList ++ accept) :=
    Ordinary.append (by decide) (by decide) fineAccept.1 fineAccept.2
  have outLine : Ordinary (writeOut request.id) := by
    unfold writeOut
    rw [List.append_assoc]
    have after : forall char, isNumberChar char = false -> char ∉ " %\x7bhttp_code\x7d\\n\"".toList ->
        char ∉ Numerals.numberText request.id ++ " %\x7bhttp_code\x7d\\n\"".toList := fun char other absent member =>
      (List.mem_append.mp member).elim (not_mem_of_chars fineId other) absent
    exact Ordinary.append (by decide) (by decide) (after _ rfl (by decide)) (after _ rfl (by decide))
  have fixedLines : forall line, line ∈ ["url = ".toList ++ url, "silent".toList, "globoff".toList,
      "max-time = ".toList ++ Numerals.decimal timeoutSeconds] -> Ordinary line := by
    simp only [List.forall_mem_cons]
    exact ⟨urlLine, by decide, by decide, timeLine, fun _ none => nomatch none⟩
  simp only [List.forall_mem_append]
  refine ⟨⟨⟨⟨⟨⟨fixedLines, userLines_ordinary writtenUser⟩, ite_ordinary ?_⟩, ite_ordinary ?_⟩, ite_ordinary acceptLine⟩,
    ite_ordinary ?_⟩, ?_⟩
  · decide
  · decide
  · decide
  · exact fun line member => List.mem_singleton.mp member ▸ outLine

theorem requestLines_ne_nil {timeoutSeconds : Nat} {request : RegistryRequest} {lines : List Text}
    (written : requestLines credentials timeoutSeconds request = some lines) : lines ≠ [] := by
  rcases Option.bind_eq_some_iff.mp written with ⟨url, _, afterUrl⟩
  rcases Option.bind_eq_some_iff.mp afterUrl with ⟨user, _, afterUser⟩
  rcases Option.bind_eq_some_iff.mp afterUser with ⟨accept, _, same⟩
  cases same
  exact List.append_ne_nil_of_right_ne_nil _ (List.cons_ne_nil _ _)

/-- The lines of a request that can be written. -/
def blockOf (credentials : Credentials) (timeoutSeconds : Nat) (request : RegistryRequest) : List Text :=
  (requestLines credentials timeoutSeconds request).getD []

/-- What the job can be given about an entry. -/
structure Accepted (credentials : Credentials) (entry : DeleteJobEntry) : Prop where
  digest : isValidDigest entry.digest = true
  guarded : entry.guards ≠ []
  guards : forall entryGuard, entryGuard ∈ entry.guards ->
    Exists fun lines => requestLines credentials 20 (guardRequest entryGuard) = some lines
  delete : Exists fun lines =>
    requestLines credentials DELETE_REQUEST_MAX_TIME_SECONDS (deleteRequest entry) = some lines

theorem oneRequest (timeoutSeconds : Nat) (request : RegistryRequest) :
    buildRegistryCurlConfig [request] credentials timeoutSeconds =
      (requestLines credentials timeoutSeconds request).map Lines.join := by
  rw [buildRegistryCurlConfig, List.mapM_cons]
  cases requestLines credentials timeoutSeconds request <;> rfl

def guardBlock (credentials : Credentials) (entryGuard : DeleteGuard) : List Text :=
  guardHeader entryGuard :: blockOf credentials 20 (guardRequest entryGuard)

def entryBlock (credentials : Credentials) (entry : DeleteJobEntry) : List Text :=
  entryLine entry :: (entry.guards.flatMap (guardBlock credentials) ++
    DELETE_SECTION_MARKER :: blockOf credentials DELETE_REQUEST_MAX_TIME_SECONDS (deleteRequest entry))

def jobLines (credentials : Credentials) (entries : List DeleteJobEntry) : List Text :=
  entries.flatMap (entryBlock credentials) ++ [DELETE_JOB_END_MARKER]

theorem join_cons (line : Text) (lines : List Text) : Lines.join (line :: lines) = line ++ '\n' :: Lines.join lines := by
  simp [Lines.join]

theorem guardParts_join (guards : List DeleteGuard) {parts : List Text}
    (written : guards.mapM (guardPart credentials) = some parts) :
    parts.flatten = Lines.join (guards.flatMap (guardBlock credentials)) ∧ forall entryGuard, entryGuard ∈ guards ->
      Exists fun lines => requestLines credentials 20 (guardRequest entryGuard) = some lines := by
  induction guards generalizing parts with
  | nil =>
      cases written
      exact ⟨rfl, fun _ none => nomatch none⟩
  | cons entryGuard guards ih =>
      rw [List.mapM_cons] at written
      rcases Option.bind_eq_some_iff.mp written with ⟨part, first, more⟩
      rcases Option.bind_eq_some_iff.mp more with ⟨others, rest, same⟩
      cases same
      rcases ih rest with ⟨joined, each⟩
      rw [guardPart, guardConfig, oneRequest, Option.map_map] at first
      rcases Option.map_eq_some_iff.mp first with ⟨lines, readable, rfl⟩
      constructor
      · rw [List.flatten_cons, joined, List.flatMap_cons, Lines.join_append, guardBlock, blockOf, readable, join_cons]
        rfl
      · simp only [List.forall_mem_cons]
        exact ⟨⟨lines, readable⟩, each⟩

theorem entryPart_join {entry : DeleteJobEntry} {part : Text} (written : entryPart credentials entry = some part) :
    part = Lines.join (entryBlock credentials entry) ∧ Accepted credentials entry := by
  unfold entryPart at written
  split at written
  · cases written
  · rename_i digest
    split at written
    · cases written
    · rename_i guarded
      rcases Option.bind_eq_some_iff.mp written with ⟨parts, guards, more⟩
      rcases Option.bind_eq_some_iff.mp more with ⟨config, delete, same⟩
      cases same
      rcases guardParts_join entry.guards guards with ⟨joined, each⟩
      rw [deleteConfig, oneRequest] at delete
      rcases Option.map_eq_some_iff.mp delete with ⟨lines, readable, rfl⟩
      constructor
      · rw [joined, entryBlock, join_cons, Lines.join_append, join_cons, blockOf, readable]
        simp
      · exact ⟨Bool.not_eq_false _ ▸ digest, fun none => guarded (congrArg List.length none), each, lines, readable⟩

theorem entryParts_join (entries : List DeleteJobEntry) {parts : List Text}
    (written : entries.mapM (entryPart credentials) = some parts) :
    parts.flatten = Lines.join (entries.flatMap (entryBlock credentials)) ∧
      forall entry, entry ∈ entries -> Accepted credentials entry := by
  induction entries generalizing parts with
  | nil =>
      cases written
      exact ⟨rfl, fun _ none => nomatch none⟩
  | cons entry entries ih =>
      rw [List.mapM_cons] at written
      rcases Option.bind_eq_some_iff.mp written with ⟨part, first, more⟩
      rcases Option.bind_eq_some_iff.mp more with ⟨others, rest, same⟩
      cases same
      rcases ih rest with ⟨joined, each⟩
      rcases entryPart_join first with ⟨rfl, accepted⟩
      constructor
      · rw [List.flatten_cons, joined, List.flatMap_cons, Lines.join_append]
      · simp only [List.forall_mem_cons]
        exact ⟨accepted, each⟩

theorem config_join {entries : List DeleteJobEntry} {config : Text}
    (built : buildRegistryDeleteJobConfig entries credentials = some config) :
    config = Lines.join (jobLines credentials entries) ∧ forall entry, entry ∈ entries -> Accepted credentials entry := by
  rcases Option.map_eq_some_iff.mp built with ⟨parts, written, rfl⟩
  rcases entryParts_join entries written with ⟨joined, each⟩
  refine ⟨?_, each⟩
  rw [joined, jobLines, Lines.join_append, join_cons, List.append_assoc]
  rfl

end Written

section Walking

variable {credentials : Credentials} {deadline : Int}

theorem configOf_guard (entryGuard : DeleteGuard) :
    (guardConfig credentials entryGuard).getD [] = Lines.join (blockOf credentials 20 (guardRequest entryGuard)) := by
  rw [guardConfig, oneRequest, blockOf]
  cases requestLines credentials 20 (guardRequest entryGuard) <;> rfl

theorem configOf_delete (entry : DeleteJobEntry) :
    (deleteConfig credentials entry).getD [] =
      Lines.join (blockOf credentials DELETE_REQUEST_MAX_TIME_SECONDS (deleteRequest entry)) := by
  rw [deleteConfig, oneRequest, blockOf]
  cases requestLines credentials DELETE_REQUEST_MAX_TIME_SECONDS (deleteRequest entry) <;> rfl

/-- The guards of a section after the one that is being read. -/
def readGuards (credentials : Credentials) : List DeleteGuard -> JobState -> Script JobState
  | [], state => endsec state
  | entryGuard :: guards, state =>
      endsec state >>= fun state =>
        readGuards credentials guards
          (guardState (Lines.join (blockOf credentials 20 (guardRequest entryGuard))) (optionalText entryGuard) state)

theorem walk_guards {guards : List DeleteGuard} {block : List Text}
    (ordinary : forall entryGuard, entryGuard ∈ guards -> forall line, line ∈ blockOf credentials 20 (guardRequest entryGuard) ->
      Ordinary line) (ordinaryBlock : forall line, line ∈ block -> Ordinary line) (lines : List Text) (state : JobState) :
    walk deadline (guards.flatMap (guardBlock credentials) ++ DELETE_SECTION_MARKER :: (block ++ lines)) state =
      readGuards credentials guards state >>= fun state => walk deadline lines (deleteState (Lines.join block) state) := by
  induction guards generalizing state with
  | nil =>
      rw [List.flatMap_nil, List.nil_append, walk_deleteHeader, readGuards]
      apply congrArg (endsec state >>= ·)
      funext after
      exact walk_deleteBlock ordinaryBlock lines rfl
  | cons entryGuard guards ih =>
      rw [List.flatMap_cons, guardBlock, List.cons_append, List.cons_append, walk_guardHeader, readGuards,
        Program.bind_assoc]
      apply congrArg (endsec state >>= ·)
      funext after
      rw [List.append_assoc, walk_guardBlock (ordinary entryGuard List.mem_cons_self) _ rfl]
      exact ih (fun other member => ordinary other (List.mem_cons_of_mem _ member)) _

/-- The config and the flag of the last guard. -/
def lastGuard (credentials : Credentials) : List DeleteGuard -> Text × Text -> Text × Text
  | [], current => current
  | entryGuard :: guards, _ =>
      lastGuard credentials guards
        (Lines.join (blockOf credentials 20 (guardRequest entryGuard)), optionalText entryGuard)

def guarded (credentials : Credentials) (guards : List DeleteGuard) (state : JobState) (ok : Bool) : JobState :=
  { state with
    gblk := (lastGuard credentials guards (state.gblk, state.gopt)).1
    gopt := (lastGuard credentials guards (state.gblk, state.gopt)).2
    ok
    seen := state.seen + 1 + guards.length
    mode := .none }

/-- The guard that is being read and those after it. -/
def handlePending (credentials : Credentials) (guards : List DeleteGuard) (state : JobState) : Script Bool :=
  if state.ok then do
    let good <- guard state.digest state.gblk state.gopt
    if good then handleGuards credentials state.digest guards else pure false
  else pure false

variable {state : JobState}

theorem endsec_guard (mode : state.mode = .g) :
    endsec state =
      (if state.ok then guard state.digest state.gblk state.gopt else pure false) >>= fun good =>
        pure { state with seen := state.seen + 1, ok := good, mode := .none } := by
  unfold endsec
  rw [if_pos mode]
  cases ok : state.ok with
  | false =>
      apply congrArg Program.done
      rcases state with ⟨_, _, _, _, _, old, _, _, _, _, _⟩
      cases ok
      rfl
  | true => rfl

theorem endsec_other (mode : state.mode ≠ .g) : endsec state = pure { state with mode := .none } := by
  unfold endsec
  rw [if_neg mode]

theorem readGuards_pending (guards : List DeleteGuard) (state : JobState) (mode : state.mode = .g) :
    readGuards credentials guards state =
      handlePending credentials guards state >>= fun ok => pure (guarded credentials guards state ok) := by
  induction guards generalizing state with
  | nil =>
      rw [readGuards, endsec_guard mode, handlePending]
      cases state.ok with
      | false => rfl
      | true =>
          rw [if_pos rfl, if_pos rfl, Program.bind_assoc]
          apply congrArg (guard state.digest state.gblk state.gopt >>= ·)
          funext good
          cases good <;> rfl
  | cons entryGuard guards ih =>
      rw [readGuards, endsec_guard mode, handlePending]
      have next : forall good : Bool,
          readGuards credentials guards
            (guardState (Lines.join (blockOf credentials 20 (guardRequest entryGuard))) (optionalText entryGuard)
              { state with seen := state.seen + 1, ok := good, mode := .none }) =
          (if good then handleGuards credentials state.digest (entryGuard :: guards) else pure false) >>= fun ok =>
            pure (guarded credentials (entryGuard :: guards) state ok) := by
        intro good
        have lengths : state.seen + 1 + 1 + guards.length = state.seen + 1 + (guards.length + 1) := by omega
        rw [ih _ rfl, handlePending, handleGuards, configOf_guard]
        cases good with
        | false => simp only [guardState, guarded, lastGuard, List.length_cons, lengths, Bool.false_eq_true, if_false]
        | true => simp only [guardState, guarded, lastGuard, List.length_cons, lengths, if_true]
      cases state.ok with
      | false => exact next false
      | true =>
          rw [if_pos rfl, if_pos rfl, Program.bind_assoc, Program.bind_assoc]
          apply congrArg (guard state.digest state.gblk state.gopt >>= ·)
          funext good
          exact next good

/-- The state of an entry whose sections have all been read. -/
structure Pending (credentials : Credentials) (entry : DeleteJobEntry) (ok : Bool) (result : Text) (state : JobState) :
    Prop where
  mode : state.mode = .d
  isOpen : state.isOpen = true
  id : state.id = Numerals.numberText entry.id
  gn : state.gn = Numerals.decimal entry.guards.length
  seen : state.seen = entry.guards.length
  ok : state.ok = ok
  dblk : state.dblk = (deleteConfig credentials entry).getD []
  result : state.result = result

theorem digest_chars {digest : Text} (valid : isValidDigest digest = true) :
    digest ≠ [] ∧ forall char, char ∈ digest -> char ∈ digestPrefix ∨ isLowerHex char = true := by
  rw [isValidDigest, Bool.and_eq_true, Bool.and_eq_true] at valid
  rcases List.isPrefixOf_iff_prefix.mp valid.1.1 with ⟨rest, rfl⟩
  have hexadecimal : rest.all isLowerHex = true := by
    have drops : (digestPrefix ++ rest).drop 7 = rest := rfl
    rw [drops] at valid
    exact valid.2
  refine ⟨List.append_ne_nil_of_left_ne_nil (by decide) _, fun char member => ?_⟩
  exact (List.mem_append.mp member).imp_right fun varied => List.all_eq_true.mp hexadecimal char varied

theorem not_mem_digest {digest : Text} (valid : isValidDigest digest = true) {char : Char} (fixed : char ∉ digestPrefix)
    (other : isLowerHex char = false) : char ∉ digest := by
  intro member
  rcases (digest_chars valid).2 char member with isFixed | hex
  · exact fixed isFixed
  · rw [other] at hex
    cases hex

theorem isField_of_ne {char : Char} (noSpace : char ≠ ' ') (noTab : char ≠ '\t') (noBreak : char ≠ '\n') :
    isField char = true := by
  rw [isField, bne_iff_ne.mpr noSpace, bne_iff_ne.mpr noTab, bne_iff_ne.mpr noBreak]
  rfl

theorem digest_isField {digest : Text} (valid : isValidDigest digest = true) :
    forall char, char ∈ digest -> isField char = true := by
  intro char member
  apply isField_of_ne
  · exact fun same => not_mem_digest valid (by decide) rfl (same ▸ member)
  · exact fun same => not_mem_digest valid (by decide) rfl (same ▸ member)
  · exact fun same => not_mem_digest valid (by decide) rfl (same ▸ member)

theorem number_isField {text : Text} (chars : text.all isNumberChar = true) : forall char, char ∈ text -> isField char = true := by
  intro char member
  apply isField_of_ne
  · exact fun same => not_mem_of_chars chars rfl (same ▸ member)
  · exact fun same => not_mem_of_chars chars rfl (same ▸ member)
  · exact fun same => not_mem_of_chars chars rfl (same ▸ member)

theorem doubleText_ne_nil (value : Nat) : Numerals.doubleText value ≠ [] := by
  have digits := Numerals.decimal_ne_nil (Numerals.shortest value (Numerals.decimal value).length).1
  unfold Numerals.doubleText
  simp only
  split
  · exact List.append_ne_nil_of_left_ne_nil digits _
  · split
    · rename_i none
      exact absurd none digits
    · exact List.cons_ne_nil _ _
    · exact List.cons_ne_nil _ _

theorem numberText_ne_nil (value : Int) : Numerals.numberText value ≠ [] := by
  unfold Numerals.numberText Numerals.withSign
  split
  · exact List.cons_ne_nil _ _
  · split
    · exact Numerals.decimal_ne_nil _
    · exact doubleText_ne_nil _

variable {entry : DeleteJobEntry}

theorem entryLine_fields (valid : isValidDigest entry.digest = true) :
    fieldsFrom [] (entryLine entry) = [['#'], "@@DPL-ENTRY".toList, Numerals.numberText entry.id, entry.digest,
      Numerals.decimal entry.guards.length] := by
  have marker : ENTRY_MARKER = ['#'] ++ ' ' :: "@@DPL-ENTRY".toList := by decide
  have start : entryLine entry = ['#'] ++ ' ' :: ("@@DPL-ENTRY".toList ++ ' ' :: (Numerals.numberText entry.id ++
      ' ' :: (entry.digest ++ ' ' :: Numerals.decimal entry.guards.length))) := by
    rw [entryLine, marker]
    simp only [List.append_assoc, List.cons_append]
  rw [start, fields_cons (List.all_eq_true.mp (by decide)) (by decide),
    fields_cons (List.all_eq_true.mp (by decide)) (by decide),
    fields_cons (number_isField (numberText_chars _)) (numberText_ne_nil _), fields_cons (digest_isField valid) (digest_chars valid).1,
    fields_last (number_isField (decimal_chars _)) (Numerals.decimal_ne_nil _)]

theorem requestBlock_ordinary {timeoutSeconds : Nat} {request : RegistryRequest} :
    forall line, line ∈ blockOf credentials timeoutSeconds request -> Ordinary line := by
  unfold blockOf
  cases written : requestLines credentials timeoutSeconds request with
  | none => exact fun _ none => nomatch none
  | some lines => exact requestLines_ordinary written

theorem walk_sections {entry : DeleteJobEntry} (accepted : Accepted credentials entry) (lines : List Text)
    (state : JobState) : Exists fun ready : Bool -> JobState =>
      (forall ok, Pending credentials entry ok state.result (ready ok)) ∧
      walk deadline (entry.guards.flatMap (guardBlock credentials) ++ DELETE_SECTION_MARKER ::
          (blockOf credentials DELETE_REQUEST_MAX_TIME_SECONDS (deleteRequest entry) ++ lines))
          (enter (entryLine entry) state) =
        handleGuards credentials entry.digest entry.guards >>= fun ok => walk deadline lines (ready ok) := by
  have fields := entryLine_fields accepted.digest
  have digest : parameter (entryLine entry) 4 = entry.digest := by
    rw [parameter, fields]
    rfl
  rcases List.exists_cons_of_ne_nil accepted.guarded with ⟨entryGuard, guards, same⟩
  let first := guardState (Lines.join (blockOf credentials 20 (guardRequest entryGuard))) (optionalText entryGuard)
    { enter (entryLine entry) state with mode := .none }
  refine ⟨fun ok => deleteState (Lines.join (blockOf credentials DELETE_REQUEST_MAX_TIME_SECONDS (deleteRequest entry)))
    (guarded credentials guards first ok), ?_, ?_⟩
  · intro ok
    refine ⟨rfl, rfl, ?_, ?_, ?_, rfl, (configOf_delete entry).symm, rfl⟩
    · change parameter (entryLine entry) 3 = _
      rw [parameter, fields]
      rfl
    · change parameter (entryLine entry) 5 = _
      rw [parameter, fields]
      rfl
    · change 0 + 1 + guards.length = entry.guards.length
      rw [same, List.length_cons]
      omega
  · have opened : (enter (entryLine entry) state).mode ≠ .g := fun is => nomatch (show Mode.e = Mode.g from is)
    rw [walk_guards (fun _ _ => requestBlock_ordinary) requestBlock_ordinary, same, readGuards, endsec_other opened]
    change readGuards credentials guards first >>= _ = _
    have ready : first.ok = true := rfl
    rw [readGuards_pending guards first rfl, Program.bind_assoc, handlePending, if_pos ready, handleGuards, configOf_guard,
      <- digest]
    rfl

theorem jsonDigit_eq (char : Char) : Json.isDigit char = char.isDigit := rfl

theorem isPositive_decimal {value : Nat} (positive : 0 < value) : isPositive (Numerals.decimal value) = true := by
  have digits : (Numerals.decimal value).all Json.isDigit = true :=
    List.all_eq_true.mpr fun char member => (jsonDigit_eq char).trans (Numerals.isDigit_of_mem_decimal member)
  have some : (Numerals.decimal value).isEmpty = false := by
    simpa using Numerals.decimal_ne_nil value
  have same : decimalValue (Numerals.decimal value) = value := Numerals.valueOf_decimal value
  rw [isPositive, isDecimal, some, digits, same, decide_eq_true positive]
  rfl

theorem deleteConfig_ne_nil (accepted : Accepted credentials entry) :
    (deleteConfig credentials entry).getD [] ≠ [] := by
  rcases accepted.delete with ⟨lines, written⟩
  rw [configOf_delete, blockOf, written]
  rcases List.exists_cons_of_ne_nil (requestLines_ne_nil written) with ⟨line, rest, rfl⟩
  rw [Option.getD_some, join_cons]
  exact List.append_ne_nil_of_right_ne_nil _ (List.cons_ne_nil _ _)

theorem finish_pending (accepted : Accepted credentials entry) {ok : Bool} {result : Text}
    (pending : Pending credentials entry ok result state) (more : JobState -> Script JobState)
    {next : Text -> Script Text}
    (goesOn : forall after, after.isOpen = false -> (more after >>= fun last => pure last.result) = next after.result) :
    ((endsec state >>= fun state => finish deadline state >>= fun finished =>
        if finished.2 then more finished.1 else pure finished.1) >>= fun last => pure last.result) =
      settle deadline ((deleteConfig credentials entry).getD []) (Numerals.numberText entry.id) result next ok := by
  have closed : state.mode ≠ .g := by
    rw [pending.mode]
    decide
  have stays : ¬ ({ state with mode := .none } : JobState).isOpen = false := by
    rw [pending.isOpen]
    decide
  rw [endsec_other closed]
  change (finish deadline { state with mode := .none } >>= _) >>= _ = _
  unfold finish settle
  rw [if_neg stays, Program.bind_assoc, Program.bind_assoc]
  apply congrArg (Script.ask .date >>= ·)
  funext now
  by_cases late : ¬ now < deadline
  · rw [if_pos late, if_pos late, <- pending.result]
    rfl
  · rw [if_neg late, if_neg late, Program.bind_assoc]
    apply congrArg (Script.ask .find >>= ·)
    funext touched
    by_cases stopped : touched ≠ []
    · rw [if_pos stopped, if_pos stopped, <- pending.result]
      rfl
    · rw [if_neg stopped, if_neg stopped]
      cases ok with
      | false =>
          have skips : ¬ (state.ok = true ∧ Numerals.decimal state.seen = state.gn ∧ isPositive state.gn = true ∧
              state.dblk ≠ []) := by
            rw [pending.ok]
            exact fun both => nomatch both.1
          rw [if_neg skips, <- pending.result, <- pending.id]
          exact goesOn _ rfl
      | true =>
          have deletes : state.ok = true ∧ Numerals.decimal state.seen = state.gn ∧ isPositive state.gn = true ∧
              state.dblk ≠ [] := by
            refine ⟨pending.ok, ?_, ?_, ?_⟩
            · rw [pending.seen, pending.gn]
            · rw [pending.gn]
              exact isPositive_decimal (List.length_pos_of_ne_nil accepted.guarded)
            · rw [pending.dblk]
              exact deleteConfig_ne_nil accepted
          rw [if_pos deletes, if_pos rfl, Program.bind_assoc, <- pending.result, <- pending.dblk]
          apply congrArg (Script.ask (.deleteCurl state.dblk) >>= ·)
          funext output
          exact goesOn _ rfl

theorem walk_pending (accepted : Accepted credentials entry) {ok : Bool} {result : Text}
    (pending : Pending credentials entry ok result state) (entries : List DeleteJobEntry)
    (each : forall other, other ∈ entries -> Accepted credentials other) :
    (walk deadline (jobLines credentials entries) state >>= fun last => pure last.result) =
      settle deadline ((deleteConfig credentials entry).getD []) (Numerals.numberText entry.id) result
        (handle credentials deadline entries) ok := by
  induction entries generalizing entry ok result state with
  | nil =>
      rw [jobLines, List.flatMap_nil, List.nil_append, walk_end]
      refine Eq.trans ?_ (finish_pending accepted pending pure fun after _ => rfl)
      simp only [ite_self]
  | cons following entries ih =>
      have isAccepted := each following List.mem_cons_self
      have lines : jobLines credentials (following :: entries) = entryLine following ::
          (following.guards.flatMap (guardBlock credentials) ++ DELETE_SECTION_MARKER ::
            (blockOf credentials DELETE_REQUEST_MAX_TIME_SECONDS (deleteRequest following) ++
              jobLines credentials entries)) := by
        simp only [jobLines, entryBlock, List.flatMap_cons, List.append_assoc, List.cons_append]
      rw [lines, walk_entryLine]
      apply finish_pending accepted pending fun after =>
        walk deadline (following.guards.flatMap (guardBlock credentials) ++ DELETE_SECTION_MARKER ::
          (blockOf credentials DELETE_REQUEST_MAX_TIME_SECONDS (deleteRequest following) ++
            jobLines credentials entries)) (enter (entryLine following) after)
      intro after _
      rcases @walk_sections credentials deadline following isAccepted (jobLines credentials entries) after with
        ⟨ready, states, walked⟩
      rw [walked, Program.bind_assoc, handle]
      apply congrArg (handleGuards credentials following.digest following.guards >>= ·)
      funext good
      exact ih isAccepted (states good) fun other member => each other (List.mem_cons_of_mem _ member)

theorem walk_started (entries : List DeleteJobEntry) (each : forall other, other ∈ entries -> Accepted credentials other)
    (token : Text) :
    (walk deadline (jobLines credentials entries) (started token) >>= fun last => pure last.result) =
      handle credentials deadline entries (started token).result := by
  cases entries with
  | nil => rfl
  | cons entry entries =>
      have isAccepted := each entry List.mem_cons_self
      have lines : jobLines credentials (entry :: entries) = entryLine entry ::
          (entry.guards.flatMap (guardBlock credentials) ++ DELETE_SECTION_MARKER ::
            (blockOf credentials DELETE_REQUEST_MAX_TIME_SECONDS (deleteRequest entry) ++
              jobLines credentials entries)) := by
        simp only [jobLines, entryBlock, List.flatMap_cons, List.append_assoc, List.cons_append]
      rw [lines, walk_entryLine, endsec_other fun is => nomatch (show Mode.none = Mode.g from is)]
      rcases @walk_sections credentials deadline entry isAccepted (jobLines credentials entries) (started token) with
        ⟨ready, states, walked⟩
      change (walk deadline _ (enter (entryLine entry) (started token)) >>= _) = _
      rw [walked, Program.bind_assoc, handle]
      apply congrArg (handleGuards credentials entry.digest entry.guards >>= ·)
      funext good
      exact walk_pending isAccepted (states good) entries fun other member => each other (List.mem_cons_of_mem _ member)

end Walking

section Input

variable {credentials : Credentials}

theorem captured_lines {text : Text} {last : Char} (noNul : '\x00' ∉ text ++ [last]) (ends : last ≠ '\n') :
    captured (text ++ [last, '\n']) = text ++ [last] := by
  have all : (text ++ [last, '\n']).filter (· ≠ '\x00') = text ++ [last, '\n'] := by
    apply List.filter_eq_self.mpr
    intro char member
    rw [show text ++ [last, '\n'] = text ++ [last] ++ ['\n'] by simp] at member
    rcases List.mem_append.mp member with front | back
    · exact decide_eq_true fun nul => noNul (nul ▸ front)
    · rw [List.mem_singleton.mp back]
      rfl
  have turned : (text ++ [last, '\n']).reverse = '\n' :: last :: text.reverse := by simp
  rw [captured, all, turned]
  simp [ends]

theorem entryLine_whole {entry : DeleteJobEntry} (valid : isValidDigest entry.digest = true) :
    '\n' ∉ entryLine entry ∧ '\x00' ∉ entryLine entry := by
  have absent : forall char, char ∉ ENTRY_MARKER -> char ≠ ' ' -> isNumberChar char = false -> char ∉ digestPrefix ->
      isLowerHex char = false -> char ∉ entryLine entry := by
    intro char marker blank number fixed hex
    simp only [entryLine, List.mem_append, List.mem_cons, not_or]
    exact ⟨⟨⟨marker, blank, not_mem_of_chars (numberText_chars _) number⟩, blank, not_mem_digest valid fixed hex⟩, blank,
      not_mem_of_chars (decimal_chars _) number⟩
  exact ⟨absent _ (by decide) (by decide) rfl (by decide) rfl, absent _ (by decide) (by decide) rfl (by decide) rfl⟩

variable {entries : List DeleteJobEntry}

theorem jobLines_whole (each : forall other, other ∈ entries -> Accepted credentials other) :
    forall line, line ∈ jobLines credentials entries -> '\n' ∉ line ∧ '\x00' ∉ line := by
  have block : forall {timeoutSeconds request} line, line ∈ blockOf credentials timeoutSeconds request ->
      '\n' ∉ line ∧ '\x00' ∉ line := fun line member =>
    ⟨(requestBlock_ordinary line member).whole, (requestBlock_ordinary line member).noNul⟩
  have headers : forall entryGuard, '\n' ∉ guardHeader entryGuard ∧ '\x00' ∉ guardHeader entryGuard := by
    have flags : forall flag : Bool, '\n' ∉ GUARD_SECTION_MARKER ++ ' ' :: (if flag then ['1'] else ['0']) ∧
        '\x00' ∉ GUARD_SECTION_MARKER ++ ' ' :: (if flag then ['1'] else ['0']) := by decide
    exact fun entryGuard => flags entryGuard.optional
  intro line member
  rcases List.mem_append.mp member with inside | ends
  · rcases List.mem_flatMap.mp inside with ⟨entry, among, inBlock⟩
    rcases List.mem_cons.mp inBlock with rfl | inSections
    · exact entryLine_whole (each entry among).digest
    · rcases List.mem_append.mp inSections with inGuards | inDelete
      · rcases List.mem_flatMap.mp inGuards with ⟨entryGuard, _, inGuard⟩
        rcases List.mem_cons.mp inGuard with rfl | isLine
        · exact headers entryGuard
        · exact block line isLine
      · rcases List.mem_cons.mp inDelete with rfl | isLine
        · exact ⟨by decide, by decide⟩
        · exact block line isLine
  · rw [List.mem_singleton.mp ends]
    exact ⟨by decide, by decide⟩

theorem printed_config {config : Text}
    (built : buildRegistryDeleteJobConfig entries credentials = some config) :
    printed (captured config) = jobLines credentials entries := by
  rcases config_join built with ⟨rfl, each⟩
  have lines := jobLines_whole each
  have front : Exists fun text => Lines.join (jobLines credentials entries) = text ++ ['D', '\n'] := by
    refine ⟨Lines.join (entries.flatMap (entryBlock credentials)) ++ "# @@DPL-EN".toList, ?_⟩
    rw [jobLines, Lines.join_append, List.append_assoc]
    exact congrArg _ (by decide)
  rcases front with ⟨text, same⟩
  have noNul : '\x00' ∉ Lines.join (jobLines credentials entries) := by
    intro member
    rcases List.mem_flatMap.mp member with ⟨line, among, inside⟩
    rcases List.mem_append.mp inside with here | last
    · exact (lines line among).2 here
    · exact absurd (List.mem_singleton.mp last) (by decide)
  have noNulFront : '\x00' ∉ text ++ ['D'] := fun member => noNul (by
    rw [same, show text ++ ['D', '\n'] = text ++ ['D'] ++ ['\n'] by simp]
    exact List.mem_append_left _ member)
  rw [same, captured_lines noNulFront (by decide), printed, List.append_assoc]
  have whole := Lines.read_join (jobLines credentials entries) fun line member => (lines line member).1
  rw [same] at whole
  exact whole

theorem job_eq_plan {config : Text}
    (built : buildRegistryDeleteJobConfig entries credentials = some config) (seconds : Int) (token : Text) :
    job seconds token config = jobPlan credentials entries seconds token := by
  have last : (jobLines credentials entries).getLast? = some DELETE_JOB_END_MARKER := List.getLast?_concat
  unfold job jobPlan
  rw [printed_config built, last, if_neg (not_not.mpr rfl)]
  apply congrArg (Script.ask .date >>= ·)
  funext begun
  rw [<- walk_started entries (config_join built).2 token, Program.bind_assoc]
  rfl

theorem job_cutOff {input : Text} (cutOff : DELETE_JOB_END_MARKER ∉ printed (captured input)) (seconds : Int)
    (token : Text) : job seconds token input = pure none := by
  have other : (printed (captured input)).getLast? ≠ some DELETE_JOB_END_MARKER :=
    fun last => cutOff (List.mem_of_getLast? last)
  rw [job, if_pos other]

end Input

end RegistryRetention
end Dokploy
