import Dokploy.EnvVariables.Prepare

namespace Dokploy
namespace EnvVariables

open Foundation

/-!
# What a reference should give

The value of a variable is its text with every reference replaced by the value of
what it names, and for a variable of the service that is the value emitted for it.
Text that was put in is no place for further references.  To say so the characters
of a value are marked: those of its own text can be read, those put in cannot.  The
passes of the source read both.
-/

/-- A character, and whether it stands in the variable's own text. -/
abbrev Marked := Char × Bool

def ownText (text : Text) : List Marked := text.map fun char => (char, true)

def putIn (text : Text) : List Marked := text.map fun char => (char, false)

def erase (text : List Marked) : Text := text.map Prod.fst

def readsOwn (char : Marked) : Option Char := if char.2 then some char.1 else none

def readsAny (char : Marked) : Option Char := some char.1

theorem erase_ownText (text : Text) : erase (ownText text) = text := by
  rw [erase, ownText, List.map_map]
  exact List.map_id text

theorem erase_putIn (text : Text) : erase (putIn text) = text := by
  rw [erase, putIn, List.map_map]
  exact List.map_id text

section Meaning

variable (sources : Sources)

/-- The value of the thing named, when the thing exists. -/
def Sources.named (values : Variables) : Kind -> Text -> Option Text
  | .project, name => getEntry sources.projectVars name
  | .environment, name => getEntry sources.environmentVars name
  | .service, name => sources.serviceFqdns.bind fun fqdns => getEntry fqdns name
  | .self, name => getEntry values name

def Sources.meant (values : Variables) (kind : Kind) (name : Text) : Except Text (List Marked) :=
  match sources.named values kind name with
  | some value => .ok (putIn value)
  | none => .error (kind.mistake name)

/-- A text with every reference of its own replaced, given the values of the service's variables. -/
def meaning (values : Variables) : List Kind -> List Marked -> Except Text (List Marked)
  | [], text => .ok text
  | kind :: kinds, text => do
      let replaced <- kind.bracket.replaceAll readsOwn (sources.meant values kind) text
      meaning values kinds replaced

/-- Each line gives a variable the value its references call for. -/
def GivesValues (lines : List Text) : Prop :=
  Exists fun values : Variables => lines = values.map lineOf ∧
    values.map Prod.fst = sources.serviceVars.map Prod.fst ∧
    forall key text value, getEntry sources.serviceVars key = some text -> getEntry values key = some value ->
      (meaning sources values passes (ownText text)).map erase = .ok value

def Referenceless (text : Text) : Prop := forall kind : Kind, kind.bracket.names some text = []

/-- What a pass finds is a reference of the own text to something that exists, and a variable of the service that is
referred to has no references. -/
structure Settled (kind : Kind) (text : List Marked) : Prop where
  whole : kind.bracket.Agree readsOwn readsAny text
  exist : forall name, name ∈ kind.bracket.names readsOwn text ->
    (sources.named sources.serviceVars kind name).isSome = true
  final : kind = .self -> forall name, name ∈ kind.bracket.names readsOwn text -> forall value,
    value ∈ getEntry sources.serviceVars name -> Referenceless value

/-- Every pass is settled on what the passes before it leave. -/
def Regular : List Kind -> List Marked -> Prop
  | [], _ => True
  | kind :: kinds, text => Settled sources kind text ∧
      forall replaced, kind.bracket.replaceAll readsOwn (sources.meant sources.serviceVars kind) text = .ok replaced ->
        Regular kinds replaced

instance (text : Text) : Decidable (Referenceless text) :=
  decidable_of_iff (forall kind, kind ∈ passes -> kind.bracket.names some text = [])
    ⟨fun all kind => all kind (by cases kind <;> decide), fun all kind _ => all kind⟩

instance (kind : Kind) (text : List Marked) : Decidable (Settled sources kind text) :=
  decidable_of_iff (_ ∧ _ ∧ _) ⟨fun all => ⟨all.1, all.2.1, all.2.2⟩, fun settled => ⟨settled.whole, settled.exist, settled.final⟩⟩

instance decidableRegular : forall (kinds : List Kind) (text : List Marked), Decidable (Regular sources kinds text)
  | [], _ => isTrue trivial
  | kind :: kinds, text =>
      have later : Decidable (forall replaced,
          kind.bracket.replaceAll readsOwn (sources.meant sources.serviceVars kind) text = .ok replaced ->
            Regular sources kinds replaced) :=
        match kind.bracket.replaceAll readsOwn (sources.meant sources.serviceVars kind) text with
        | .error _ => isTrue fun _ same => nomatch same
        | .ok after =>
            @decidable_of_iff _ (Regular sources kinds after)
              ⟨fun holds _ same => Except.ok.inj same ▸ holds, fun all => all after rfl⟩ (decidableRegular kinds after)
      @instDecidableAnd _ _ inferInstance later

end Meaning

section Resolving

variable {sources : Sources}

theorem resolve_referenceless {text : Text} (none : Referenceless text) (kinds : List Kind) :
    resolve sources kinds text = .ok text := by
  induction kinds with
  | nil => rfl
  | cons kind kinds ih =>
      rw [resolve, Bracket.replaceAll_nothing _ (none kind)]
      exact ih

/-- The values of the variables are those that were resolved. -/
structure Resolved (values : Variables) : Prop where
  keys : values.map Prod.fst = sources.serviceVars.map Prod.fst
  each : forall key text, getEntry sources.serviceVars key = some text ->
    Exists fun value => getEntry values key = some value ∧ resolve sources passes text = .ok value

theorem resolveAll_values {entries : Variables} {lines : List Text} (resolved : resolveAll sources entries = .ok lines) :
    Exists fun values : Variables => lines = values.map lineOf ∧ values.map Prod.fst = entries.map Prod.fst ∧
      forall key text, getEntry entries key = some text ->
        Exists fun value => getEntry values key = some value ∧ resolve sources passes text = .ok value := by
  induction entries generalizing lines with
  | nil =>
      cases resolved
      exact ⟨[], rfl, rfl, fun _ _ found => nomatch found⟩
  | cons entry entries ih =>
      rw [resolveAll] at resolved
      cases first : resolve sources passes entry.2 with
      | error mistake =>
          rw [first] at resolved
          cases resolved
      | ok value =>
          rw [first] at resolved
          cases rest : resolveAll sources entries with
          | error mistake =>
              rw [rest] at resolved
              cases resolved
          | ok more =>
              rw [rest] at resolved
              cases resolved
              rcases ih rest with ⟨values, lines, keys, each⟩
              refine ⟨(entry.1, value) :: values, by rw [lines]; rfl, by rw [List.map_cons, List.map_cons, keys], ?_⟩
              intro key text found
              rw [getEntry_cons] at found ⊢
              split at found
              · rename_i here
                cases found
                exact ⟨value, if_pos here, first⟩
              · rename_i elsewhere
                rw [if_neg elsewhere]
                exact each key text found

theorem Settled.alike {kind : Kind} {text : List Marked} {values : Variables} (settled : Settled sources kind text)
    (resolved : @Resolved sources values) (name : Text) (found : name ∈ kind.bracket.names readsOwn text) :
    (sources.valueOf kind name).map putIn = sources.meant values kind name ∧
      sources.meant sources.serviceVars kind name = sources.meant values kind name := by
  have known := settled.exist name found
  rcases Option.isSome_iff_exists.mp known with ⟨value, named⟩
  have source : sources.valueOf kind name = .ok value := by
    unfold Sources.valueOf
    cases kind with
    | service =>
        rcases Option.bind_eq_some_iff.mp named with ⟨fqdns, given, entry⟩
        rw [Sources.variablesOf, given, Option.bind_some, property, entry]
        rfl
    | project | environment | self =>
        rw [Sources.named] at named
        rw [Sources.variablesOf, Option.bind_some, property, named]
        rfl
  have meant : sources.named values kind name = some value := by
    cases kind with
    | self =>
        rcases resolved.each name value named with ⟨emitted, entry, result⟩
        rw [resolve_referenceless (settled.final rfl name found value named)] at result
        rw [Sources.named, entry, Except.ok.inj result]
    | project => exact named
    | environment => exact named
    | service => exact named
  rw [source, Sources.meant, Sources.meant, named, meant]
  exact ⟨rfl, rfl⟩

theorem resolve_regular {values : Variables} (resolved : @Resolved sources values) (kinds : List Kind)
    {text : List Marked} (regular : Regular sources kinds text) :
    resolve sources kinds (erase text) = (meaning sources values kinds text).map erase := by
  induction kinds generalizing text with
  | nil => rfl
  | cons kind kinds ih =>
      rcases regular with ⟨settled, later⟩
      have marked := @Bracket.replaceAll_map _ _ _ readsAny some Prod.fst kind.bracket (fun _ => rfl)
        (fun name => (sources.valueOf kind name).map putIn) text
      have values : (fun name => ((sources.valueOf kind name).map putIn).map (List.map Prod.fst)) = sources.valueOf kind := by
        funext name
        cases sources.valueOf kind name with
        | error mistake => rfl
        | ok value => exact congrArg Except.ok (erase_putIn value)
      rw [values, Bracket.replaceAll_agree _ text settled.whole,
        Bracket.replaceAll_congr fun name found => (settled.alike resolved name found).1] at marked
      have raw : kind.bracket.replaceAll readsOwn (sources.meant sources.serviceVars kind) text =
          kind.bracket.replaceAll readsOwn (sources.meant _ kind) text :=
        Bracket.replaceAll_congr fun name found => (settled.alike resolved name found).2
      rw [raw] at later
      rw [resolve, meaning]
      rw [erase, marked]
      cases replaced : kind.bracket.replaceAll readsOwn (sources.meant _ kind) text with
      | error mistake => rfl
      | ok after =>
          exact ih (later after replaced)

end Resolving

section Order

variable {sources other : Sources}

theorem resolve_congr (same : sources.valueOf = other.valueOf) (kinds : List Kind) (text : Text) :
    resolve sources kinds text = resolve other kinds text := by
  induction kinds generalizing text with
  | nil => rfl
  | cons kind kinds ih =>
      rw [resolve, resolve, same]
      cases kind.bracket.replaceAll some (other.valueOf kind) text with
      | error mistake => rfl
      | ok replaced => exact ih replaced

theorem valueOf_perm (vars : sources.serviceVars.Perm other.serviceVars) (apart : (sources.serviceVars.map Prod.fst).Nodup)
    (project : sources.projectVars = other.projectVars) (environment : sources.environmentVars = other.environmentVars)
    (fqdns : sources.serviceFqdns = other.serviceFqdns) : sources.valueOf = other.valueOf := by
  funext kind name
  unfold Sources.valueOf Sources.variablesOf
  cases kind with
  | project => rw [project]
  | environment => rw [environment]
  | service => rw [fqdns]
  | self => rw [Option.bind_some, Option.bind_some, property, property, getEntry_perm vars apart name]

/-- The line of a variable whose references could be resolved. -/
def resolvedLine (sources : Sources) (entry : Text × Text) : Text :=
  lineOf (entry.1, ((resolve sources passes entry.2).toOption).getD [])

theorem resolveAll_lines {entries : Variables} {lines : List Text} (resolved : resolveAll sources entries = .ok lines) :
    lines = entries.map (resolvedLine sources) := by
  induction entries generalizing lines with
  | nil =>
      cases resolved
      rfl
  | cons entry entries ih =>
      rw [resolveAll] at resolved
      cases first : resolve sources passes entry.2 with
      | error mistake =>
          rw [first] at resolved
          cases resolved
      | ok value =>
          rw [first] at resolved
          cases rest : resolveAll sources entries with
          | error mistake =>
              rw [rest] at resolved
              cases resolved
          | ok more =>
              rw [rest] at resolved
              cases resolved
              rw [List.map_cons, <- ih rest, resolvedLine, first]
              rfl

end Order

section Preparing

variable {parse : Text -> Variables} {serviceEnv projectEnv environmentEnv : Option Text}
  {serviceFqdns : Option Variables} {lines : List Text}

theorem prepare_lines
    (succeeds : prepareEnvironmentVariables parse serviceEnv projectEnv environmentEnv serviceFqdns = .ok lines) :
    resolveAll (sourcesOf parse serviceEnv projectEnv environmentEnv serviceFqdns) (parse (serviceEnv.getD [])) = .ok lines := by
  unfold prepareEnvironmentVariables at succeeds
  split at succeeds
  · cases succeeds
  · exact succeeds

/-- When every reference that is found is one of the variable's own text to something that exists, and no variable of the
service that is referred to has references, each variable gets the value its references call for.  The order of the
lines never matters. -/
theorem references_give_values (distinct : forall text, ((parse text).map Prod.fst).Nodup)
    (succeeds : prepareEnvironmentVariables parse serviceEnv projectEnv environmentEnv serviceFqdns = .ok lines) :
    ((forall key text, getEntry (parse (serviceEnv.getD [])) key = some text ->
        Regular (sourcesOf parse serviceEnv projectEnv environmentEnv serviceFqdns) passes (ownText text)) ->
      GivesValues (sourcesOf parse serviceEnv projectEnv environmentEnv serviceFqdns) lines) ∧
    forall reordered linesToo, (parse reordered).Perm (parse (serviceEnv.getD [])) ->
      prepareEnvironmentVariables parse (some reordered) projectEnv environmentEnv serviceFqdns = .ok linesToo ->
        linesToo.Perm lines := by
  refine ⟨?_, ?_⟩
  · intro regular
    rcases resolveAll_values (prepare_lines succeeds) with ⟨values, same, keys, each⟩
    have resolved : @Resolved (sourcesOf parse serviceEnv projectEnv environmentEnv serviceFqdns) values := ⟨keys, each⟩
    refine ⟨values, same, keys, ?_⟩
    intro key text value found emitted
    rcases each key text found with ⟨given, entry, result⟩
    have isGiven : given = value := Option.some.inj (entry.symm.trans emitted)
    rw [<- resolve_regular resolved passes (regular key text found), erase_ownText, result, isGiven]
  · intro reordered linesToo permuted succeedsToo
    have first := resolveAll_lines (prepare_lines succeeds)
    have second := resolveAll_lines (prepare_lines succeedsToo)
    have values : (sourcesOf parse (some reordered) projectEnv environmentEnv serviceFqdns).valueOf =
        (sourcesOf parse serviceEnv projectEnv environmentEnv serviceFqdns).valueOf :=
      valueOf_perm permuted (distinct reordered) rfl rfl rfl
    have alike : resolvedLine (sourcesOf parse (some reordered) projectEnv environmentEnv serviceFqdns) =
        resolvedLine (sourcesOf parse serviceEnv projectEnv environmentEnv serviceFqdns) := by
      funext entry
      rw [resolvedLine, resolvedLine, resolve_congr values]
    rw [first, second, alike]
    exact permuted.map _

end Preparing

section Examples

/-- Lines with a name, an equals sign and a plain value. -/
def plainParse (text : Text) : Variables :=
  (text.splitOn '\n').foldl (fun entries line =>
    if '=' ∈ line then setEntry entries (line.takeWhile (· ≠ '=')) ((line.dropWhile (· ≠ '=')).drop 1) else entries) []

theorem plainParse_distinct (text : Text) : ((plainParse text).map Prod.fst).Nodup := by
  unfold plainParse
  generalize text.splitOn '\n' = lines
  have kept : forall entries : Variables, (entries.map Prod.fst).Nodup -> ((lines.foldl (fun entries line =>
      if '=' ∈ line then setEntry entries (line.takeWhile (· ≠ '=')) ((line.dropWhile (· ≠ '=')).drop 1) else entries)
      entries).map Prod.fst).Nodup := by
    induction lines with
    | nil => exact fun _ apart => apart
    | cons line lines ih =>
        intro entries apart
        rw [List.foldl_cons]
        split
        · exact ih _ (nodup_setEntry _ _ apart)
        · exact ih _ apart
  exact kept [] List.nodup_nil

/-- The service's variables refer to each other in no cycle. -/
def Acyclic (sources : Sources) : Prop :=
  Exists fun rank : Text -> Nat => forall key text name, getEntry sources.serviceVars key = some text ->
    name ∈ Kind.self.bracket.names some text -> (getEntry sources.serviceVars name).isSome = true -> rank name < rank key

def nameA : Text := ['A']

def nameB : Text := ['B']

def projectX : Text := "$\x7b\x7bproject.X\x7d\x7d".toList

def projectText : Text := "X=1".toList

def referenceB : Text := "$\x7b\x7bB\x7d\x7d".toList

/-- A variable that refers to the project and to another variable without references. -/
def singleText : Text := "A=$\x7b\x7bproject.X\x7d\x7d$\x7b\x7bB\x7d\x7d\nB=2".toList

/-- A variable that refers to one that refers to the project. -/
def chainText : Text := "A=$\x7b\x7bB\x7d\x7d\nB=$\x7b\x7bproject.X\x7d\x7d".toList

theorem singleText_values : GivesValues (sourcesOf plainParse (some singleText) (some projectText) none none)
    ["A=12".toList, "B=2".toList] := by
  have succeeds : prepareEnvironmentVariables plainParse (some singleText) (some projectText) none none =
      .ok ["A=12".toList, "B=2".toList] := by decide +kernel
  apply (references_give_values plainParse_distinct succeeds).1
  have parsed : plainParse singleText = [(nameA, projectX ++ referenceB), (nameB, ['2'])] := by decide +kernel
  intro key text found
  change getEntry (plainParse singleText) key = some text at found
  rw [parsed, getEntry_cons, getEntry_cons, getEntry_nil] at found
  split at found
  · cases found
    decide +kernel
  · split at found
    · cases found
      decide +kernel
    · cases found

theorem chainText_misread : ¬ forall (parse : Text -> Variables), (forall text, ((parse text).map Prod.fst).Nodup) ->
    forall (serviceEnv projectEnv environmentEnv : Option Text) (serviceFqdns : Option Variables) (lines : List Text),
      prepareEnvironmentVariables parse serviceEnv projectEnv environmentEnv serviceFqdns = .ok lines ->
      Acyclic (sourcesOf parse serviceEnv projectEnv environmentEnv serviceFqdns) ->
        GivesValues (sourcesOf parse serviceEnv projectEnv environmentEnv serviceFqdns) lines := by
  intro claim
  have succeeds : prepareEnvironmentVariables plainParse (some chainText) (some projectText) none none =
      .ok [lineOf (nameA, projectX), lineOf (nameB, ['1'])] := by decide +kernel
  have parsed : plainParse chainText = [(nameA, referenceB), (nameB, projectX)] := by decide +kernel
  have acyclic : Acyclic (sourcesOf plainParse (some chainText) (some projectText) none none) := by
    refine ⟨fun name => if name = nameA then 1 else 0, ?_⟩
    intro key text name found refers known
    change getEntry (plainParse chainText) key = some text at found
    change (getEntry (plainParse chainText) name).isSome = true at known
    rw [parsed, getEntry_cons, getEntry_cons, getEntry_nil] at found
    split at found
    · rename_i isA
      cases found
      have names : Kind.self.bracket.names some referenceB = [nameB] := by decide +kernel
      rw [names] at refers
      rw [List.mem_singleton.mp refers, <- isA]
      decide
    · split at found
      · cases found
        have names : Kind.self.bracket.names some projectX = ["project.X".toList] := by decide +kernel
        rw [names] at refers
        rw [List.mem_singleton.mp refers, parsed] at known
        exact absurd known (by decide)
      · cases found
  rcases claim plainParse plainParse_distinct _ _ _ _ _ succeeds acyclic with ⟨values, same, keys, meant⟩
  have entries : values = [(nameA, projectX), (nameB, ['1'])] := by
    change values.map Prod.fst = (plainParse chainText).map Prod.fst at keys
    rw [parsed] at keys
    rcases values with _ | ⟨⟨first, firstValue⟩, _ | ⟨⟨second, secondValue⟩, _ | ⟨third, rest⟩⟩⟩
    · cases keys
    · exact absurd (congrArg List.length keys) (by simp)
    · simp only [List.map_cons, List.map_nil, List.cons.injEq, and_true] at keys same
      rcases keys with ⟨rfl, rfl⟩
      have first : projectX = firstValue := (List.cons.inj (List.append_cancel_left same.1)).2
      have second : ['1'] = secondValue := (List.cons.inj (List.append_cancel_left same.2)).2
      rw [<- first, <- second]
    · exact absurd (congrArg List.length keys) (by simp)
  have emitted : getEntry values nameA = some projectX := by
    rw [entries]
    decide +kernel
  have found : getEntry (plainParse chainText) nameA = some referenceB := by
    rw [parsed]
    decide +kernel
  have value := meant nameA referenceB projectX found emitted
  rw [entries] at value
  exact absurd value (by decide +kernel)

end Examples

end EnvVariables
end Dokploy
