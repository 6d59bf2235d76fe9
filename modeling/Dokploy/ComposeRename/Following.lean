import Dokploy.ComposeRename.Reading
import Mathlib.Data.List.TakeWhile

namespace Dokploy
namespace ComposeRename

open ComposeSpec (Text)

/-!
# Where a name follows its definition

Every definition gets the suffix, so a text follows the renaming when it resolved
and mentions the renamed definition afterwards, or when it never resolved and was
left alone.  What that takes is different at each place, and is stated here place
by place.
-/

def suffixed (suffix : Text) : Kind -> Text -> Text
  | .network, name => addSuffixToNetwork suffix name
  | _, name => addSuffix suffix name

def suffixAt (suffix : Text) : Place -> Text -> Text
  | .containerName, text => addSuffixUnlessEmpty suffix text
  | .dependsOn, text => addSuffix suffix text
  | .link, text => addSuffix suffix text
  | .shortExtends, text => addSuffixUnlessEmpty suffix text
  | .longExtends _, text => addSuffix suffix text
  | .volumesFrom, text => addSuffix suffix text
  | .namespaceMode, text => text
  | .shortVolume, text => addSuffixToShortVolume suffix text
  | .longVolume type, text => if type = volumeType then addSuffixUnlessEmpty suffix text else text
  | .network, text => addSuffixToNetwork suffix text
  | .shortGrant _, text => addSuffix suffix text
  | .longGrant _, text => addSuffixUnlessEmpty suffix text
  | .elsewhere _, text => text
  | .buildContext, text => text

/-- The text refers to nothing, neither before nor after the definitions are renamed. -/
def RefersToNothing (defined : Kind -> List Text) (suffix : Text) (place : Place) (text : Text) : Prop :=
  forall found, mention place text = some found ->
    found.name ∉ defined found.kind ∧ found.name ∉ (defined found.kind).map (suffixed suffix found.kind)

/-- A volume mount in short form that is a named volume with a subdirectory or without. -/
def FollowsVolume (defined : Kind -> List Text) (suffix volume : Text) : Prop :=
  isPath (cut ':' volume).1 (cut ':' volume).2 = false ∧
    (cut ':' volume).1.takeWhile (· ≠ '/') ∈ defined .volume ∧ ':' ∉ suffix ∧ '/' ∉ suffix

/-- What it takes for the text at a place to follow. -/
def Follows (defined : Kind -> List Text) (suffix : Text) : Place -> Text -> Prop
  | .containerName, _ => True
  | .dependsOn, name => name ∈ defined .service
  | .link, text => text ∈ defined .service ∧ ':' ∉ text ∧ ':' ∉ suffix
  | .shortExtends, name => name = [] ∨ name ∈ defined .service
  | .longExtends file, name => file = none ∧ name ∈ defined .service
  | .volumesFrom, text =>
      match afterPrefix containerPrefix text with
      | some container => container ∈ defined .container ∧ ':' ∉ container ∧ ':' ∉ suffix
      | none => text ∈ defined .service ∧ ':' ∉ text ∧ ':' ∉ suffix
  | .namespaceMode, text => RefersToNothing defined suffix .namespaceMode text
  | .shortVolume, text =>
      skipsVolume (cut ':' text).1 (cut ':' text).2 = true ∨ FollowsVolume defined suffix text
  | .longVolume type, text =>
      if type = volumeType then text = [] ∨ text ∈ defined .volume
      else RefersToNothing defined suffix (.longVolume type) text
  | .network, name =>
      name ∈ defined .network ∨
        name = dokployNetwork ∧ dokployNetwork ∉ (defined .network).map (addSuffixToNetwork suffix)
  | .shortGrant granted, name => name ∈ defined granted.kind
  | .longGrant granted, name => name = [] ∨ name ∈ defined granted.kind
  | .elsewhere granted, text => RefersToNothing defined suffix (.elsewhere granted) text
  | .buildContext, text => RefersToNothing defined suffix .buildContext text

section Texts

variable {suffix : Text}

theorem addSuffix_ne (name : Text) : addSuffix suffix name ≠ name := by
  intro same
  have longer := congrArg List.length same
  rw [addSuffix, List.length_append, List.length_cons] at longer
  omega

theorem addSuffix_injective : Function.Injective (addSuffix suffix) := fun _ _ same => List.append_cancel_right same

theorem mem_of_mem_suffix {char : Char} (name : Text) (member : char ∈ suffix) : char ∈ addSuffix suffix name :=
  List.mem_append_right name (List.mem_cons_of_mem '-' member)

theorem not_mem_takeWhile (separator : Char) (text : Text) : separator ∉ text.takeWhile (· ≠ separator) := by
  intro member
  have different := List.mem_takeWhile_imp member
  exact absurd rfl (of_decide_eq_true different)

variable {separator : Char}

theorem takeWhile_whole {text : Text} (missing : separator ∉ text) :
    text.takeWhile (· ≠ separator) = text :=
  List.takeWhile_eq_self_iff.mpr fun _ member => decide_eq_true fun same => missing (same ▸ member)

theorem dropWhile_whole {text : Text} (missing : separator ∉ text) :
    text.dropWhile (· ≠ separator) = [] :=
  List.dropWhile_eq_nil_iff.mpr fun _ member => decide_eq_true fun same => missing (same ▸ member)

theorem not_mem_addSuffix {name : Text} (dash : separator ≠ '-') (missing : separator ∉ name)
    (free : separator ∉ suffix) : separator ∉ addSuffix suffix name := by
  intro member
  rcases List.mem_append.mp member with before | after
  · exact missing before
  · rcases List.mem_cons.mp after with same | later
    · exact dash same
    · exact free later

theorem takeWhile_append_of_mem {text : Text} (member : separator ∈ text) (more : Text) :
    (text ++ more).takeWhile (· ≠ separator) = text.takeWhile (· ≠ separator) := by
  induction text with
  | nil => exact absurd member List.not_mem_nil
  | cons char rest ih =>
      rw [List.cons_append, List.takeWhile_cons, List.takeWhile_cons]
      split
      · rename_i different
        rcases List.mem_cons.mp member with same | later
        · exact absurd same.symm (of_decide_eq_true different)
        · rw [ih later]
      · rfl

theorem takeWhile_addSuffix_iff (dash : separator ≠ '-') (text : Text) :
    (addSuffix suffix text).takeWhile (· ≠ separator) = addSuffix suffix (text.takeWhile (· ≠ separator)) <->
      separator ∉ text ∧ separator ∉ suffix := by
  constructor
  · intro same
    have free : separator ∉ suffix := by
      intro member
      have clean := not_mem_takeWhile separator (addSuffix suffix text)
      rw [same] at clean
      exact clean (mem_of_mem_suffix _ member)
    refine ⟨?_, free⟩
    intro member
    rw [addSuffix, takeWhile_append_of_mem member] at same
    exact addSuffix_ne _ same.symm
  · rintro ⟨missing, free⟩
    rw [takeWhile_whole missing, takeWhile_whole (not_mem_addSuffix dash missing free)]

theorem afterPrefix_addSuffix {start : Text} (dash : '-' ∉ start) (text : Text) :
    afterPrefix start (addSuffix suffix text) = (afterPrefix start text).map (addSuffix suffix) := by
  induction start generalizing text with
  | nil => rfl
  | cons char start ih =>
      cases text with
      | nil =>
          have different : char ≠ '-' := fun same => dash (same ▸ List.mem_cons_self)
          exact if_neg different
      | cons first rest =>
          have later := ih (fun member => dash (List.mem_cons_of_mem _ member)) rest
          change (if char = first then afterPrefix start (addSuffix suffix rest) else none) =
            (if char = first then afterPrefix start rest else none).map (addSuffix suffix)
          split
          · exact later
          · rfl

theorem dropWhile_of_mem {text : Text} (member : separator ∈ text) :
    text.dropWhile (· ≠ separator) = separator :: (text.dropWhile (· ≠ separator)).drop 1 := by
  induction text with
  | nil => exact absurd member List.not_mem_nil
  | cons char rest ih =>
      rw [List.dropWhile_cons]
      split
      · rename_i different
        rcases List.mem_cons.mp member with same | later
        · exact absurd same.symm (of_decide_eq_true different)
        · exact ih later
      · rename_i same
        have same : char = separator := by simpa using same
        rw [same]
        rfl

theorem addSuffixToShortVolume_eq {volume : Text} (taken : skipsVolume (cut ':' volume).1 (cut ':' volume).2 = false) :
    addSuffixToShortVolume suffix volume =
      addSuffix suffix ((cut ':' volume).1.takeWhile (· ≠ '/')) ++
        ((cut ':' volume).1.dropWhile (· ≠ '/') ++ ':' :: (cut ':' volume).2) := by
  unfold addSuffixToShortVolume
  generalize cut ':' volume = pieces at taken ⊢
  rcases pieces with ⟨volumeName, remainder⟩
  simp only at taken ⊢
  rw [if_neg (by rw [taken]; exact Bool.false_ne_true)]
  split
  · rename_i inside
    rw [dropWhile_of_mem inside, ← List.append_assoc]
    rfl
  · rename_i missing
    rw [takeWhile_whole missing, dropWhile_whole missing]
    rfl

theorem volume_of_cut {volume : Text} (taken : skipsVolume (cut ':' volume).1 (cut ':' volume).2 = false) :
    volume = (cut ':' volume).1.takeWhile (· ≠ '/') ++
      ((cut ':' volume).1.dropWhile (· ≠ '/') ++ ':' :: (cut ':' volume).2) := by
  have colon : ':' ∈ volume := by
    by_contra missing
    have nothing : (cut ':' volume).2 = [] := by rw [cut, dropWhile_whole missing]; rfl
    rw [nothing] at taken
    simp [skipsVolume] at taken
  rw [← List.append_assoc, List.takeWhile_append_dropWhile, cut, ← dropWhile_of_mem colon,
    List.takeWhile_append_dropWhile]

end Texts

section Volumes

variable {suffix : Text}

theorem cut_append {source : Text} (missing : ':' ∉ source) (remainder : Text) :
    cut ':' (source ++ ':' :: remainder) = (source, remainder) := by
  have all : forall char, char ∈ source -> decide (char ≠ ':') = true := fun _ member =>
    decide_eq_true fun same => missing (same ▸ member)
  rw [cut, List.takeWhile_append_of_pos all, List.dropWhile_append_of_pos all]
  simp only [ne_eq, decide_not, List.takeWhile_cons, List.dropWhile_cons, decide_true, Bool.not_true,
    Bool.false_eq_true, if_false, List.append_nil, List.drop_succ_cons, List.drop_zero]

variable {volume : Text}

theorem mentionVolume_clean {found : Mention} (mentioned : mentionVolume volume = some found) :
    ':' ∉ found.name ∧ '/' ∉ found.name := by
  unfold mentionVolume at mentioned
  dsimp only at mentioned
  split at mentioned
  · cases mentioned
  · cases mentioned
    refine ⟨fun member => ?_, not_mem_takeWhile '/' _⟩
    exact not_mem_takeWhile ':' volume ((List.takeWhile_sublist _).mem member)

theorem mentionVolume_of_cut {volume : Text} (taken : skipsVolume (cut ':' volume).1 (cut ':' volume).2 = false)
    (named : isPath (cut ':' volume).1 (cut ':' volume).2 = false) :
    mentionVolume volume = some ⟨.volume, [], (cut ':' volume).1.takeWhile (· ≠ '/'),
      (cut ':' volume).1.dropWhile (· ≠ '/') ++ ':' :: (cut ':' volume).2⟩ := by
  unfold mentionVolume
  generalize cut ':' volume = pieces at taken named ⊢
  rcases pieces with ⟨source, remainder⟩
  simp only [skipsVolume, Bool.or_eq_false_iff] at taken named ⊢
  rw [if_neg]
  simp only [taken, named, Bool.or_false, Bool.false_eq_true, not_false_eq_true]

theorem mentionVolume_of_skipped (skipped : skipsVolume (cut ':' volume).1 (cut ':' volume).2 = true) :
    mentionVolume volume = none := by
  unfold mentionVolume
  generalize cut ':' volume = pieces at skipped ⊢
  rcases pieces with ⟨source, remainder⟩
  apply if_pos
  simp only [skipsVolume, isPath, Bool.or_eq_true] at skipped ⊢
  tauto

theorem mentionVolume_of_path (path : isPath (cut ':' volume).1 (cut ':' volume).2 = true) :
    mentionVolume volume = none := by
  unfold mentionVolume
  generalize cut ':' volume = pieces at path ⊢
  rcases pieces with ⟨source, remainder⟩
  apply if_pos
  rw [Bool.or_eq_true]
  exact Or.inr path

theorem split_slash {name : Text} (missing : '/' ∉ name) (source : Text) :
    (name ++ source.dropWhile (· ≠ '/')).takeWhile (· ≠ '/') = name ∧
      (name ++ source.dropWhile (· ≠ '/')).dropWhile (· ≠ '/') = source.dropWhile (· ≠ '/') := by
  have all : forall char, char ∈ name -> decide (char ≠ '/') = true := fun _ member =>
    decide_eq_true fun same => missing (same ▸ member)
  rw [List.takeWhile_append_of_pos all, List.dropWhile_append_of_pos all]
  by_cases inside : '/' ∈ source
  · rw [dropWhile_of_mem inside]
    simp only [ne_eq, decide_not, List.takeWhile_cons, List.dropWhile_cons, decide_true, Bool.not_true,
      Bool.false_eq_true, if_false, List.append_nil, and_self]
  · rw [dropWhile_whole inside, List.takeWhile_nil, List.append_nil]
    exact ⟨rfl, rfl⟩

theorem mentionVolume_suffixed (taken : skipsVolume (cut ':' volume).1 (cut ':' volume).2 = false)
    (named : isPath (cut ':' volume).1 (cut ':' volume).2 = false) (colon : ':' ∉ suffix) (slash : '/' ∉ suffix) :
    mentionVolume (addSuffixToShortVolume suffix volume) =
      some ⟨.volume, [], addSuffix suffix ((cut ':' volume).1.takeWhile (· ≠ '/')),
        (cut ':' volume).1.dropWhile (· ≠ '/') ++ ':' :: (cut ':' volume).2⟩ := by
  have clean : ':' ∉ (cut ':' volume).1 := not_mem_takeWhile ':' volume
  rw [addSuffixToShortVolume_eq taken]
  generalize cut ':' volume = pieces at taken named clean ⊢
  rcases pieces with ⟨source, remainder⟩
  dsimp only at taken named clean ⊢
  cases source with
  | nil => simp [skipsVolume] at taken
  | cons first rest =>
      have start : first ≠ '/' := by
        rintro rfl
        simp [skipsVolume] at taken
      have begins : (first :: rest).takeWhile (· ≠ '/') = first :: rest.takeWhile (· ≠ '/') :=
        List.takeWhile_cons_of_pos (decide_eq_true start)
      have goesOn : (first :: rest).dropWhile (· ≠ '/') = rest.dropWhile (· ≠ '/') :=
        List.dropWhile_cons_of_pos (decide_eq_true start)
      have inside : '/' ∉ addSuffix suffix ((first :: rest).takeWhile (· ≠ '/')) :=
        not_mem_addSuffix (by decide) (not_mem_takeWhile '/' _) slash
      have split := split_slash inside (first :: rest)
      have outside : ':' ∉ addSuffix suffix ((first :: rest).takeWhile (· ≠ '/')) ++
          (first :: rest).dropWhile (· ≠ '/') := by
        intro member
        rcases List.mem_append.mp member with name | path
        · refine not_mem_addSuffix (by decide) (fun early => clean ?_) colon name
          exact (List.takeWhile_sublist _).mem early
        · exact clean ((List.dropWhile_sublist _).mem path)
      rw [← List.append_assoc]
      have pieces := cut_append outside remainder
      have read := @mentionVolume_of_cut (addSuffix suffix ((first :: rest).takeWhile (· ≠ '/')) ++
        (first :: rest).dropWhile (· ≠ '/') ++ ':' :: remainder)
      rw [pieces] at read
      dsimp only at read
      rw [split.1, split.2] at read
      apply read
      · rw [begins]
        exact taken
      · rw [begins]
        exact named

end Volumes

section Resolving

variable {defined after : Kind -> List Text} {suffix : Text}

theorem mem_renamed (renames : forall kind, after kind = (defined kind).map (suffixed suffix kind)) {kind : Kind}
    {name : Text} (member : name ∈ defined kind) : suffixed suffix kind name ∈ after kind :=
  renames kind ▸ List.mem_map_of_mem member

theorem untouched_iff {place : Place} {text : Text}
    (renames : forall kind, after kind = (defined kind).map (suffixed suffix kind))
    (changes : forall found, mention place text = some found -> suffixed suffix found.kind found.name ≠ found.name) :
    resolve after place text = (resolve defined place text).renamed (suffixed suffix) <->
      RefersToNothing defined suffix place text := by
  unfold resolve RefersToNothing
  cases mentioned : mention place text with
  | none => exact ⟨fun _ _ missing => (by cases missing), fun _ => rfl⟩
  | some found =>
      simp only [Option.some.injEq, forall_eq']
      rw [← renames found.kind]
      by_cases before : found.name ∈ defined found.kind
      · simp only [before, if_true, not_true_eq_false, false_and, iff_false, Reference.renamed]
        split
        · intro same
          have name := congrArg Mention.name (Reference.definition.inj same)
          exact changes found mentioned name.symm
        · exact fun same => by cases same
      · simp only [before, if_false, not_false_eq_true, true_and, Reference.renamed]
        split
        · rename_i present
          exact ⟨fun same => (by cases same), fun absent => absurd present absent⟩
        · rename_i absent
          exact ⟨fun _ => absent, fun _ => rfl⟩

/-- A text that is changed keeps its meaning when it referred to a definition and mentions it under its new name. -/
theorem changed_iff {place : Place} {text changed : Text} (different : changed ≠ text)
    (renames : forall kind, after kind = (defined kind).map (suffixed suffix kind)) :
    resolve after place changed = (resolve defined place text).renamed (suffixed suffix) <->
      Exists fun found => mention place text = some found ∧ found.name ∈ defined found.kind ∧
        mention place changed = some { found with name := suffixed suffix found.kind found.name } := by
  have itself : forall references, resolve references place changed ≠ .itself text := by
    intro references same
    unfold resolve at same
    split at same
    · split at same
      · cases same
      · exact different (Reference.itself.inj same)
    · exact different (Reference.itself.inj same)
  cases mentioned : mention place text with
  | none =>
      have expected : (resolve defined place text).renamed (suffixed suffix) = .itself text := by
        simp only [resolve, mentioned, Reference.renamed]
      rw [expected]
      exact ⟨fun same => absurd same (itself after), fun ⟨_, missing, _⟩ => (by cases missing)⟩
  | some found =>
      simp only [Option.some.injEq, exists_eq_left']
      by_cases before : found.name ∈ defined found.kind
      · have expected : (resolve defined place text).renamed (suffixed suffix) =
            .definition { found with name := suffixed suffix found.kind found.name } := by
          simp only [resolve, mentioned, before, if_true, Reference.renamed]
        rw [expected]
        simp only [before, true_and]
        unfold resolve
        cases mention place changed with
        | none => exact ⟨fun same => (by cases same), fun same => (by cases same)⟩
        | some now =>
            simp only [Option.some.injEq]
            split
            · exact ⟨fun same => Reference.definition.inj same, fun same => by rw [same]⟩
            · rename_i absent
              refine ⟨fun same => (by cases same), fun same => ?_⟩
              rw [same] at absent
              exact absurd (mem_renamed renames before) absent
      · have expected : (resolve defined place text).renamed (suffixed suffix) = .itself text := by
          simp only [resolve, mentioned, before, if_false, Reference.renamed]
        rw [expected]
        exact ⟨fun same => absurd same (itself after), fun both => absurd both.1 before⟩

variable (renames : forall kind, after kind = (defined kind).map (suffixed suffix kind))
include renames

theorem whole_iff (place : Place) (kind : Kind) {text : Text} (different : suffixed suffix kind text ≠ text)
    (whole : forall name, mention place name = some (mentionWhole kind name)) :
    resolve after place (suffixed suffix kind text) = (resolve defined place text).renamed (suffixed suffix) <->
      text ∈ defined kind := by
  rw [changed_iff different renames, whole, whole]
  simp only [Option.some.injEq, exists_eq_left', mentionWhole, and_true]

theorem unlessEmpty_iff (place : Place) (kind : Kind) {text : Text} (plain : suffixed suffix kind = addSuffix suffix)
    (whole : forall name, mention place name = mentionUnlessEmpty kind name) :
    resolve after place (addSuffixUnlessEmpty suffix text) = (resolve defined place text).renamed (suffixed suffix) <->
      text = [] ∨ text ∈ defined kind := by
  by_cases empty : text = []
  · simp only [resolve, whole, empty, addSuffixUnlessEmpty, if_true, mentionUnlessEmpty, Reference.renamed, true_or]
  · have filled : addSuffix suffix text ≠ [] := fun same => List.append_ne_nil_of_right_ne_nil _ (List.cons_ne_nil _ _) same
    rw [addSuffixUnlessEmpty, if_neg empty, changed_iff (addSuffix_ne text) renames, whole, whole,
      mentionUnlessEmpty, mentionUnlessEmpty, if_neg empty, if_neg filled]
    simp only [Option.some.injEq, exists_eq_left', mentionWhole, plain, and_true, empty, false_or]

omit renames in
theorem beforeColon_iff {kind : Kind} (plain : suffixed suffix kind = addSuffix suffix) (before text : Text) :
    mentionBeforeColon kind before (addSuffix suffix text) =
        { mentionBeforeColon kind before text with
          name := suffixed suffix kind (mentionBeforeColon kind before text).name } <->
      ':' ∉ text ∧ ':' ∉ suffix := by
  have dash : ':' ≠ '-' := by decide
  rw [plain, ← takeWhile_addSuffix_iff dash text]
  constructor
  · exact fun same => congrArg Mention.name same
  · intro same
    rcases (takeWhile_addSuffix_iff dash text).mp same with ⟨missing, free⟩
    simp only [mentionBeforeColon, same, dropWhile_whole missing,
      dropWhile_whole (not_mem_addSuffix dash missing free)]

theorem colon_iff {place : Place} {kind : Kind} {before text name : Text}
    (plain : suffixed suffix kind = addSuffix suffix)
    (mentioned : mention place text = some (mentionBeforeColon kind before name))
    (mentionedAfter : mention place (addSuffix suffix text) =
      some (mentionBeforeColon kind before (addSuffix suffix name))) :
    resolve after place (addSuffix suffix text) = (resolve defined place text).renamed (suffixed suffix) <->
      name ∈ defined kind ∧ ':' ∉ name ∧ ':' ∉ suffix := by
  rw [changed_iff (addSuffix_ne text) renames, mentioned, mentionedAfter]
  simp only [Option.some.injEq, exists_eq_left']
  constructor
  · rintro ⟨member, same⟩
    rcases (beforeColon_iff plain before name).mp same with ⟨missing, free⟩
    change name.takeWhile (· ≠ ':') ∈ defined kind at member
    rw [takeWhile_whole missing] at member
    exact ⟨member, missing, free⟩
  · rintro ⟨member, missing, free⟩
    refine ⟨?_, (beforeColon_iff plain before name).mpr ⟨missing, free⟩⟩
    change name.takeWhile (· ≠ ':') ∈ defined kind
    rwa [takeWhile_whole missing]

/-- A mount in short form follows when it is skipped, or names a defined volume and the suffix is clean. -/
theorem shortVolume_iff (volume : Text) :
    resolve after .shortVolume (addSuffixToShortVolume suffix volume) =
        (resolve defined .shortVolume volume).renamed (suffixed suffix) <->
      skipsVolume (cut ':' volume).1 (cut ':' volume).2 = true ∨ FollowsVolume defined suffix volume := by
  cases skipped : skipsVolume (cut ':' volume).1 (cut ':' volume).2 with
  | true =>
      have same : addSuffixToShortVolume suffix volume = volume := if_pos skipped
      have none : mention .shortVolume volume = none := mentionVolume_of_skipped skipped
      simp only [same, resolve, none, Reference.renamed, true_or]
  | false =>
      have different : addSuffixToShortVolume suffix volume ≠ volume := by
        intro same
        rw [addSuffixToShortVolume_eq skipped] at same
        have plain := same.trans (volume_of_cut skipped)
        exact addSuffix_ne _ (List.append_cancel_right plain)
      rw [changed_iff different renames]
      simp only [Bool.false_eq_true, false_or, mention, FollowsVolume]
      cases path : isPath (cut ':' volume).1 (cut ':' volume).2 with
      | true =>
          rw [mentionVolume_of_path path]
          simp only [reduceCtorEq, false_and, exists_false, Bool.true_eq_false]
      | false =>
          rw [mentionVolume_of_cut skipped path]
          simp only [Option.some.injEq, exists_eq_left', true_and]
          constructor
          · rintro ⟨member, named⟩
            rcases mentionVolume_clean named with ⟨colon, slash⟩
            exact ⟨member, fun inside => colon (mem_of_mem_suffix _ inside),
              fun inside => slash (mem_of_mem_suffix _ inside)⟩
          · rintro ⟨member, colon, slash⟩
            exact ⟨member, mentionVolume_suffixed skipped path colon slash⟩

/-- A network that is not the shared one follows when it is defined; the shared one, when it is defined or nothing
is renamed to it. -/
theorem network_iff (name : Text) :
    resolve after .network (addSuffixToNetwork suffix name) =
        (resolve defined .network name).renamed (suffixed suffix) <->
      name ∈ defined .network ∨
        name = dokployNetwork ∧ dokployNetwork ∉ (defined .network).map (addSuffixToNetwork suffix) := by
  by_cases shared : name = dokployNetwork
  · subst shared
    have same : addSuffixToNetwork suffix dokployNetwork = dokployNetwork := if_pos rfl
    simp only [resolve, mention, mentionWhole, same, true_and, renames .network]
    by_cases before : dokployNetwork ∈ defined .network
    · have now : dokployNetwork ∈ (defined .network).map (suffixed suffix .network) :=
        List.mem_map.mpr ⟨dokployNetwork, before, same⟩
      simp only [before, now, if_true, Reference.renamed, suffixed, same, true_or]
    · simp only [before, if_false, Reference.renamed, false_or]
      split
      · rename_i now
        exact ⟨fun same => (by cases same), fun absent => absurd now absent⟩
      · rename_i absent
        exact ⟨fun _ => absent, fun _ => rfl⟩
  · have other : addSuffixToNetwork suffix name = addSuffix suffix name := if_neg shared
    have different : suffixed suffix .network name ≠ name := by
      intro same
      exact addSuffix_ne name (other.symm.trans same)
    have whole := whole_iff renames .network .network different fun _ => rfl
    simp only [shared, false_and, or_false]
    exact whole

omit renames in
theorem suffixed_ne {kind : Kind} (plain : kind ≠ .network) (name : Text) : suffixed suffix kind name ≠ name := by
  cases kind with
  | network => exact absurd rfl plain
  | service => exact addSuffix_ne name
  | container => exact addSuffix_ne name
  | volume => exact addSuffix_ne name
  | config => exact addSuffix_ne name
  | secret => exact addSuffix_ne name

omit renames in
theorem mode_kind {text : Text} {found : Mention} (mentioned : mention .namespaceMode text = some found) :
    found.kind ≠ .network := by
  simp only [mention] at mentioned
  split at mentioned
  · cases mentioned
    exact nofun
  · cases mentioned
    exact nofun
  · cases mentioned

theorem follows_iff (place : Place) (text : Text)
    (named : place = .containerName -> text ≠ [] -> text ∈ defined .container) :
    resolve after place (suffixAt suffix place text) = (resolve defined place text).renamed (suffixed suffix) <->
      Follows defined suffix place text := by
  cases place with
  | containerName =>
      have given : text = [] ∨ text ∈ defined .container := by
        by_cases empty : text = []
        · exact Or.inl empty
        · exact Or.inr (named rfl empty)
      have kept := (unlessEmpty_iff renames .containerName .container rfl fun _ => rfl).mpr given
      exact ⟨fun _ => trivial, fun _ => kept⟩
  | dependsOn => exact whole_iff renames .dependsOn .service (addSuffix_ne text) fun _ => rfl
  | link => exact @colon_iff defined after suffix renames .link .service [] text text rfl rfl rfl
  | shortExtends => exact unlessEmpty_iff renames .shortExtends .service rfl fun _ => rfl
  | longExtends file =>
      cases file with
      | none =>
          have shown := whole_iff renames (.longExtends none) .service (addSuffix_ne text) fun _ => rfl
          simp only [Follows, true_and]
          exact shown
      | some file =>
          have elsewhere := @changed_iff defined after suffix (.longExtends (some file)) text _ (@addSuffix_ne suffix text) renames
          simp only [mention, Option.isSome_some, if_true, reduceCtorEq, false_and, exists_false, iff_false] at elsewhere
          simp only [Follows, reduceCtorEq, false_and, iff_false]
          exact elsewhere
  | volumesFrom =>
      have dash : '-' ∉ containerPrefix := by decide
      have later := @afterPrefix_addSuffix suffix _ dash text
      simp only [Follows]
      cases foreign : afterPrefix containerPrefix text with
      | some container =>
          rw [foreign, Option.map_some] at later
          have now : mention .volumesFrom text = some (mentionBeforeColon .container containerPrefix container) := by
            simp only [mention, foreign]
          exact colon_iff renames rfl now (by simp only [mention, later])
      | none =>
          rw [foreign, Option.map_none] at later
          have now : mention .volumesFrom text = some (mentionBeforeColon .service [] text) := by
            simp only [mention, foreign]
          exact colon_iff renames rfl now (by simp only [mention, later])
  | namespaceMode => exact untouched_iff renames fun found mentioned => suffixed_ne (mode_kind mentioned) found.name
  | shortVolume => exact shortVolume_iff renames text
  | longVolume type =>
      simp only [suffixAt, Follows]
      split
      · rename_i volume
        have named : forall name, mention (.longVolume type) name = mentionUnlessEmpty .volume name := fun _ =>
          if_pos (Or.inl volume)
        exact unlessEmpty_iff renames (.longVolume type) .volume rfl named
      · refine untouched_iff renames fun found mentioned => suffixed_ne ?_ found.name
        simp only [mention, mentionUnlessEmpty] at mentioned
        split at mentioned
        · split at mentioned
          · cases mentioned
          · cases mentioned
            intro same
            cases same
        · cases mentioned
  | network => exact network_iff renames text
  | shortGrant granted =>
      cases granted with
      | config => exact whole_iff renames (.shortGrant .config) .config (addSuffix_ne text) fun _ => rfl
      | secret => exact whole_iff renames (.shortGrant .secret) .secret (addSuffix_ne text) fun _ => rfl
  | longGrant granted =>
      cases granted with
      | config => exact unlessEmpty_iff renames (.longGrant .config) .config rfl fun _ => rfl
      | secret => exact unlessEmpty_iff renames (.longGrant .secret) .secret rfl fun _ => rfl
  | elsewhere granted =>
      refine untouched_iff renames fun found mentioned => suffixed_ne ?_ found.name
      cases mentioned
      cases granted with
      | config => exact fun same => by cases same
      | secret => exact fun same => by cases same
  | buildContext =>
      refine untouched_iff renames fun found mentioned => suffixed_ne ?_ found.name
      simp only [mention, Option.map_eq_some_iff] at mentioned
      rcases mentioned with ⟨_, _, rfl⟩
      intro same
      cases same

end Resolving

end ComposeRename
end Dokploy
