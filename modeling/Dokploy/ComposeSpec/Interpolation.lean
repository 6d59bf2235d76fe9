import Dokploy.ComposeSpec.Scanning

namespace Dokploy
namespace ComposeSpec

open Foundation

/-!
# The interpolation has the meaning of the template

For every lookup, the text of a template is interpolated to what the template
means: the same value or the same error, after the same lookups in the same
order.  A word that is skipped over is read to its end and looks nothing up, and
that is what the induction carries along for the branches that are not taken.
-/

/-- The names that were looked up, and how the computation ended. -/
abbrev Ending (Result : Type) := List Text × Except ComposeInterpolationError Result

def Ending.sequel {Result Other : Type} (ending : Ending Result) (next : Result -> Ending Other) : Ending Other :=
  match ending.2 with
  | .ok result => (ending.1 ++ (next result).1, (next result).2)
  | .error error => (ending.1, .error error)

def answered (lookup : ComposeVariableLookup) {Result : Type} : Interpolating Result -> Ending Result
  | .done result => ([], .ok result)
  | .thrown error => ([], .error error)
  | .ask name next =>
      let later := answered lookup (next (lookup name))
      (name :: later.1, later.2)

variable {lookup : ComposeVariableLookup} {Result Other Value : Type}

theorem answered_bind (program : Interpolating Result) (next : Result -> Interpolating Other) :
    answered lookup (program >>= next) = (answered lookup program).sequel fun result => answered lookup (next result) := by
  induction program with
  | done result => rfl
  | thrown error => rfl
  | ask name following ih =>
      have later := ih (lookup name)
      change (name :: (answered lookup (following (lookup name) >>= next)).1,
        (answered lookup (following (lookup name) >>= next)).2) = _
      rw [later]
      unfold Ending.sequel
      rw [answered]
      cases (answered lookup (following (lookup name))).2 with
      | ok result => rfl
      | error error => rfl

/-- A meaning as an ending, with what becomes of its value. -/
def Meaning.told (meaning : Meaning Value) (become : Value -> Result) : Ending Result :=
  (meaning.consulted.map Name.chars,
    match meaning.outcome with
    | .ok value => .ok (become value)
    | .error raised => .error raised.error)

theorem told_andThen (first : Meaning Value) (next : Value -> Meaning Other) (become : Other -> Result) :
    (first.andThen next).told become = (first.told id).sequel fun value => (next value).told become := by
  rcases first with ⟨consulted, outcome⟩
  cases outcome with
  | error raised => rfl
  | ok value =>
      change (((consulted ++ (next value).consulted).map Name.chars, _) : Ending Result) = _
      rw [List.map_append]
      rfl

theorem sequel_told (meaning : Meaning Value) (become : Value -> Result) (next : Result -> Ending Other) :
    (meaning.told become).sequel next = (meaning.told id).sequel fun value => next (become value) := by
  rcases meaning with ⟨consulted, outcome⟩
  cases outcome with
  | error raised => rfl
  | ok value => rfl

theorem sequel_settled (meaning : Meaning Value) (become : Value -> Result) :
    ((meaning.told id).sequel fun value => ([], .ok (become value))) = meaning.told become := by
  rcases meaning with ⟨consulted, outcome⟩
  cases outcome with
  | error raised => rfl
  | ok value => exact congrArg (fun names => (names, _)) (List.append_nil _)

theorem told_map (meaning : Meaning Value) (change : Value -> Other) (become : Other -> Result) :
    (meaning.andThen fun value => .settled (change value)).told become =
      meaning.told fun value => become (change value) := by
  rw [told_andThen]
  exact sequel_settled meaning fun value => become (change value)

theorem answered_resolve (name : Name) :
    answered lookup (resolve name.chars) = (name.meaning lookup).told id := by
  change ((name.chars :: (answered lookup _).1, (answered lookup _).2) : Ending _) = _
  unfold Name.meaning Meaning.told
  cases lookup name.chars with
  | value text => rfl
  | unset => rfl
  | UNKNOWN_VALUE => rfl

/-- What follows a template: in a word the brace that closes it. -/
def closing (inWord : Bool) (tail : Text) : Text :=
  if inWord then '\x7d' :: tail else []

theorem Template.endsName {template : Template} (ends : template.lengthensName = false) {tail : Text}
    (tailEnds : EndsName tail) : EndsName (template.printOnto tail) := by
  cases template with
  | done => exact tailEnds
  | text char rest => exact endsName_of_head _ ends
  | dollar rest => exact endsName_of_head _ (by decide)
  | plain name rest => exact endsName_of_head _ (by decide)
  | braced name rest => exact endsName_of_head _ (by decide)
  | modified name colon modifier word rest => exact endsName_of_head _ (by decide)

theorem endsName_closing (inWord : Bool) (tail : Text) : EndsName (closing inWord tail) := by
  cases inWord with
  | true => exact endsName_of_head _ (by decide)
  | false =>
      intro char same
      cases same

theorem scanned_skip (template : Template) (grammatical : template.Grammatical true) (tail out : Text) :
    Exists fun value => scanned (template.printOnto ('\x7d' :: tail)) true false out = pure (value, tail) := by
  induction template generalizing tail out with
  | done => exact ⟨out, scanned_closing tail⟩
  | text char rest ih =>
      rcases grammatical with ⟨literal, inside, restGrammatical⟩
      rw [Template.printOnto, scanned_char _ literal inside]
      exact ih restGrammatical tail _
  | dollar rest ih =>
      rw [Template.printOnto, scanned_dollars]
      exact ih grammatical tail _
  | plain name rest ih =>
      rcases grammatical with ⟨ends, restGrammatical⟩
      have endsTail : EndsName ('\x7d' :: tail) := endsName_of_head _ (by decide)
      rw [Template.printOnto, scanned_plain name (Template.endsName ends endsTail)]
      exact ih restGrammatical tail _
  | braced name rest ih =>
      rw [Template.printOnto, scanned_braces, scannedBraced_named name (endsName_of_head _ (by decide)),
        scannedModifier_closing]
      exact ih grammatical tail _
  | modified name colon modifier word rest wordHypothesis restHypothesis =>
      rcases grammatical with ⟨wordGrammatical, restGrammatical⟩
      rw [Template.printOnto, scanned_braces, scannedBraced_named name (endsName_sign colon modifier _),
        scannedModifier_word]
      rcases wordHypothesis wordGrammatical (rest.printOnto ('\x7d' :: tail)) [] with ⟨value, skipped⟩
      have sign : Exists fun chosen : Text =>
          scannedWord modifier name.chars colon false none (word.printOnto ('\x7d' :: rest.printOnto ('\x7d' :: tail))) =
            pure (chosen, rest.printOnto ('\x7d' :: tail)) := by
        cases modifier with
        | default =>
            refine ⟨value, ?_⟩
            rw [scannedWord, Bool.false_and, skipped]
            rfl
        | alternative =>
            refine ⟨[], ?_⟩
            rw [scannedWord, Bool.false_and, skipped]
            rfl
        | required =>
            refine ⟨[], ?_⟩
            rw [scannedWord, skipped]
            rfl
      rcases sign with ⟨chosen, read⟩
      change Exists fun value => (scannedWord _ _ _ _ _ _ >>= _) = _
      rw [read]
      exact restHypothesis restGrammatical tail _

theorem answered_word (modifier : Modifier) (name : Name) (colon : Bool) (value : Option Text)
    {word : Template} (grammatical : word.Grammatical true)
    (evaluated : forall tail out, answered lookup (scanned (word.printOnto ('\x7d' :: tail)) true true out) =
      (word.meaning lookup).told fun chosen => (out ++ chosen, tail)) (tail : Text) :
    answered lookup (scannedWord modifier name.chars colon true value (word.printOnto ('\x7d' :: tail))) =
      (modifier.meaning name colon value (word.meaning lookup)).told fun chosen => (chosen, tail) := by
  rcases scanned_skip word grammatical tail [] with ⟨skippedValue, skipped⟩
  have taken := evaluated tail []
  cases present : isPresent colon value with
  | true =>
      cases modifier with
      | default =>
          simp only [scannedWord, Modifier.meaning, present, Bool.not_true, Bool.and_false, if_true]
          rw [skipped]
          rfl
      | alternative =>
          simp only [scannedWord, Modifier.meaning, present, Bool.and_true, if_true]
          rw [answered_bind, taken, sequel_told]
          exact sequel_settled _ _
      | required =>
          simp only [scannedWord, Modifier.meaning, present, Bool.not_true, Bool.and_false, if_false,
            Bool.false_eq_true]
          rw [skipped]
          rfl
  | false =>
      cases modifier with
      | default =>
          simp only [scannedWord, Modifier.meaning, present, Bool.not_false, Bool.and_true, if_false,
            Bool.false_eq_true]
          rw [answered_bind, taken, sequel_told]
          exact sequel_settled _ _
      | alternative =>
          simp only [scannedWord, Modifier.meaning, present, Bool.and_false, if_false, Bool.false_eq_true]
          rw [skipped]
          rfl
      | required =>
          simp only [scannedWord, Modifier.meaning, present, Bool.not_false, Bool.and_true, if_true]
          rw [skipped]
          rfl

theorem answered_scanned (template : Template) {inWord : Bool} (grammatical : template.Grammatical inWord)
    (tail out : Text) :
    answered lookup (scanned (template.printOnto (closing inWord tail)) inWord true out) =
      (template.meaning lookup).told fun value => (out ++ value, if inWord then tail else []) := by
  induction template generalizing inWord tail out with
  | done =>
      rw [Template.printOnto, Template.meaning]
      cases inWord with
      | true =>
          rw [closing, if_pos rfl, scanned_closing]
          change _ = (([], .ok (out ++ [], tail)) : Ending (Text × Text))
          rw [List.append_nil]
          rfl
      | false =>
          rw [closing, if_neg Bool.false_ne_true, scanned_end]
          change _ = (([], .ok (out ++ [], [])) : Ending (Text × Text))
          rw [List.append_nil]
          rfl
  | text char rest ih =>
      rcases grammatical with ⟨literal, inside, restGrammatical⟩
      rw [Template.printOnto, Template.meaning, scanned_char _ literal inside, told_map,
        ih restGrammatical]
      simp only [List.append_assoc, List.singleton_append]
  | dollar rest ih =>
      rw [Template.printOnto, Template.meaning, scanned_dollars, told_map, ih grammatical]
      simp only [List.append_assoc, List.singleton_append]
  | plain name rest ih =>
      rcases grammatical with ⟨ends, restGrammatical⟩
      rw [Template.printOnto, Template.meaning,
        scanned_plain name (Template.endsName ends (endsName_closing inWord tail)), answered_bind, resolveIf,
        if_pos rfl, answered_resolve, told_andThen]
      simp only [told_map, ih restGrammatical, List.append_assoc]
  | braced name rest ih =>
      rw [Template.printOnto, Template.meaning, scanned_braces,
        scannedBraced_named name (endsName_of_head _ (by decide)), scannedModifier_closing, Program.bind_assoc,
        answered_bind, resolveIf, if_pos rfl, answered_resolve, told_andThen]
      change (Meaning.told _ _).sequel (fun value : Option Text => answered lookup (scanned _ _ _ (out ++ value.getD []))) = _
      simp only [told_map, ih grammatical, List.append_assoc]
  | modified name colon modifier word rest wordHypothesis restHypothesis =>
      rcases grammatical with ⟨wordGrammatical, restGrammatical⟩
      have evaluated := fun tail out => wordHypothesis wordGrammatical tail out
      rw [Template.printOnto, Template.meaning, scanned_braces,
        scannedBraced_named name (endsName_sign colon modifier _), scannedModifier_word, Program.bind_assoc,
        answered_bind, resolveIf, if_pos rfl, answered_resolve, told_andThen]
      apply congrArg (Ending.sequel _)
      funext value
      rw [answered_bind, answered_word modifier name colon value wordGrammatical evaluated, sequel_told, told_andThen]
      simp only [told_map, restHypothesis restGrammatical, List.append_assoc]

end ComposeSpec
end Dokploy
