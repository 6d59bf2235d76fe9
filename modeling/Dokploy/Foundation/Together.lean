import Dokploy.Foundation.Program

namespace Dokploy
namespace Foundation
namespace Program

/-!
# Programs that run at the same time

Several programs that cannot fail run as one.  Whenever two of them could go on,
one more operation asks whose turn it is, so the runs of the one program are the
interleavings of the several.
-/

variable {Op : Type} {Answer : Op -> Type} {Error Result Other : Type}

/-- The program with its result dropped and its error caught. -/
def settled : Program Op Answer Error Result -> Program Op Answer Empty Unit
  | .done _ => .done ()
  | .thrown _ => .done ()
  | .ask op next => .ask op fun answer => (next answer).settled

/-- A program that cannot fail, among programs that can. -/
def unfailing : Program Op Answer Empty Result -> Program Op Answer Error Result
  | .done result => .done result
  | .thrown error => nomatch error
  | .ask op next => .ask op fun answer => (next answer).unfailing

section

variable (turn : Op) (first : Answer turn -> Bool)

/-- The operation of the first program, now or after the next one of the second. -/
def besides (op : Op) (goOn : Answer op -> Program Op Answer Empty Unit -> Program Op Answer Empty Unit) :
    Program Op Answer Empty Unit -> Program Op Answer Empty Unit
  | .done () => .ask op fun answer => goOn answer (.done ())
  | .thrown error => nomatch error
  | .ask other next => .ask turn fun whose =>
      if first whose then .ask op fun answer => goOn answer (.ask other next)
      else .ask other fun answer => besides op goOn (next answer)

def both : Program Op Answer Empty Unit -> Program Op Answer Empty Unit -> Program Op Answer Empty Unit
  | .done () => id
  | .thrown error => nomatch error
  | .ask op next => besides turn first op fun answer => both (next answer)

/-- All programs of a list, in any interleaving. -/
def allAtOnce (programs : List (Program Op Answer Empty Unit)) : Program Op Answer Empty Unit :=
  programs.foldr (both turn first) (.done ())

end

variable {turn : Op} {first : Answer turn -> Bool} {allowed : Op -> Prop}

theorem Asks.settled {program : Program Op Answer Error Result} (asks : program.Asks allowed) :
    program.settled.Asks allowed := by
  induction program with
  | done result => trivial
  | thrown error => trivial
  | ask op next ih => exact ⟨asks.1, fun answer => ih answer (asks.2 answer)⟩

theorem Asks.unfailing {program : Program Op Answer Empty Result} (asks : program.Asks allowed) :
    (program.unfailing : Program Op Answer Error Result).Asks allowed := by
  induction program with
  | done result => trivial
  | thrown error => nomatch error
  | ask op next ih => exact ⟨asks.1, fun answer => ih answer (asks.2 answer)⟩

theorem Asks.besides {op : Op} {goOn : Answer op -> Program Op Answer Empty Unit -> Program Op Answer Empty Unit}
    (turns : allowed turn) (asked : allowed op)
    (goes : forall answer other, other.Asks allowed -> (goOn answer other).Asks allowed)
    {second : Program Op Answer Empty Unit} (asks : second.Asks allowed) :
    (besides turn first op goOn second).Asks allowed := by
  induction second with
  | done result => exact ⟨asked, fun answer => goes answer _ trivial⟩
  | thrown error => nomatch error
  | ask other next ih =>
      refine ⟨turns, fun whose => ?_⟩
      apply Asks.ite
      · exact ⟨asked, fun answer => goes answer _ asks⟩
      · exact ⟨asks.1, fun answer => ih answer (asks.2 answer)⟩

theorem Asks.both (turns : allowed turn) {left right : Program Op Answer Empty Unit}
    (asksLeft : left.Asks allowed) (asksRight : right.Asks allowed) : (both turn first left right).Asks allowed := by
  induction left generalizing right with
  | done result => exact asksRight
  | thrown error => nomatch error
  | ask op next ih =>
      apply Asks.besides turns asksLeft.1 _ asksRight
      intro answer other asksOther
      exact ih answer (asksLeft.2 answer) asksOther

theorem Asks.allAtOnce (turns : allowed turn) {programs : List (Program Op Answer Empty Unit)}
    (asks : forall program, program ∈ programs -> program.Asks allowed) :
    (allAtOnce turn first programs).Asks allowed := by
  induction programs with
  | nil => trivial
  | cons program programs ih =>
      apply Asks.both turns (asks program List.mem_cons_self)
      exact ih fun other member => asks other (List.mem_cons_of_mem _ member)

end Program

namespace World

variable {State Op : Type} {Answer : Op -> Type} {Error Result : Type} {world : World State Op Answer}

/-- The world in which others do what is relied on. -/
def relying (world : World State Op Answer) (rely : State -> State -> Prop) : World State Op Answer :=
  { world with others := rely }

def Anyhow : Post State Op Answer Error Result := fun _ _ _ => True

variable {rely : State -> State -> Prop} {guarantee : List (Event State Op Answer) -> Event State Op Answer -> Prop}
  {past own : List (Event State Op Answer)} {state reached : State}

variable {program : Program Op Answer Error Result}

theorem Ensures.settled
    (ensures : world.Ensures guarantee program Anyhow past state) :
    world.Ensures guarantee program.settled Anyhow past state := by
  induction program generalizing past state with
  | done result => trivial
  | thrown error => trivial
  | ask op next ih =>
      intro before meanwhile answer after performed
      rcases ensures before meanwhile answer after performed with ⟨kept, rest⟩
      exact ⟨kept, ih answer rest⟩

theorem Ensures.unfailing {program : Program Op Answer Empty Result} {post : Post State Op Answer Error Result}
    (ensures : world.Ensures guarantee program
      (fun result after last => forall value, result = .ok value -> post (.ok value) after last) past state) :
    world.Ensures guarantee (program.unfailing : Program Op Answer Error Result) post past state := by
  induction program generalizing past state with
  | done result => exact ensures result rfl
  | thrown error => nomatch error
  | ask op next ih =>
      intro before meanwhile answer after performed
      rcases ensures before meanwhile answer after performed with ⟨kept, rest⟩
      exact ⟨kept, ih answer rest⟩

theorem Ensures.later
    (ensures : world.Ensures guarantee program Anyhow past state) (meanwhile : world.Meanwhile state reached) :
    world.Ensures guarantee program Anyhow past reached := by
  cases program with
  | done result => trivial
  | thrown error => trivial
  | ask op next => exact fun before more => ensures before (meanwhile.trans more)

/-- What every guaranteed event keeps, and the others keep, holds at the end, and it may strengthen what is guaranteed. -/
theorem Ensures.keeping {holds : List (Event State Op Answer) -> State -> Prop}
    {stronger : List (Event State Op Answer) -> Event State Op Answer -> Prop}
    (ensures : world.Ensures guarantee program Anyhow past state) (initially : holds past state)
    (others : forall past before after, holds past before -> world.others before after -> holds past after)
    (keeps : forall past (event : Event State Op Answer), holds past event.before -> guarantee past event ->
      world.performs event.before event.op event.answer event.after ->
        stronger past event ∧ holds (past ++ [event]) event.after) :
    world.Ensures stronger program (fun _ past last => holds past last) past state := by
  induction program generalizing past state with
  | done result => exact initially
  | thrown error => exact initially
  | ask op next ih =>
      intro before meanwhile answer after performed
      rcases ensures before meanwhile answer after performed with ⟨kept, rest⟩
      have reached : holds past before := Meanwhile.keeps meanwhile initially (others past)
      rcases keeps past ⟨before, op, answer, after⟩ reached kept performed with ⟨strong, held⟩
      exact ⟨strong, ih answer rest held⟩

def Among (guarantee : List (Event State Op Answer) -> Event State Op Answer -> Prop)
    (past : List (Event State Op Answer)) (event : Event State Op Answer) : Prop :=
  Exists fun own => own.Sublist past ∧ guarantee own event

theorem Ensures.among {less : State -> State -> Prop}
    {weaker : List (Event State Op Answer) -> Event State Op Answer -> Prop}
    (ensures : (world.relying rely).Ensures guarantee program Anyhow own state)
    (relied : forall before after, less before after -> rely before after)
    (weakens : forall past event, Among guarantee past event -> weaker past event) (inside : own.Sublist past) :
    (world.relying less).Ensures weaker program Anyhow past state := by
  induction program generalizing own past state with
  | done result => trivial
  | thrown error => trivial
  | ask op next ih =>
      intro before meanwhile answer after performed
      rcases ensures before (Relation.ReflTransGen.mono relied _ _ meanwhile) answer after performed with ⟨kept, rest⟩
      exact ⟨weakens _ _ ⟨own, inside, kept⟩, ih answer rest (inside.append_right _)⟩

section

variable {turn : Op} {first : Answer turn -> Bool} {shared relyLeft relyRight : State -> State -> Prop}
  {guaranteeLeft guaranteeRight : List (Event State Op Answer) -> Event State Op Answer -> Prop}

theorem Ensures.both (left right : Program Op Answer Empty Unit) {ownLeft ownRight : List (Event State Op Answer)}
    (sharedLeft : forall before after, shared before after -> relyLeft before after)
    (sharedRight : forall before after, shared before after -> relyRight before after)
    (turns : forall before answer after, world.performs before turn answer after ->
      relyLeft before after ∧ relyRight before after)
    (leftRight : forall own event, guaranteeLeft own event -> relyRight event.before event.after)
    (rightLeft : forall own event, guaranteeRight own event ->
      world.performs event.before event.op event.answer event.after -> relyLeft event.before event.after)
    (ensuresLeft : (world.relying relyLeft).Ensures guaranteeLeft left Anyhow ownLeft state)
    (ensuresRight : (world.relying relyRight).Ensures guaranteeRight right Anyhow ownRight state)
    (insideLeft : ownLeft.Sublist past) (insideRight : ownRight.Sublist past) :
    (world.relying shared).Ensures
      (fun past event => event.op = turn ∨ Among guaranteeLeft past event ∨ Among guaranteeRight past event)
      (Program.both turn first left right) Anyhow past state := by
  have toLeft : forall {before after}, (world.relying shared).Meanwhile before after ->
      (world.relying relyLeft).Meanwhile before after := fun meanwhile =>
    Relation.ReflTransGen.mono sharedLeft _ _ meanwhile
  have toRight : forall {before after}, (world.relying shared).Meanwhile before after ->
      (world.relying relyRight).Meanwhile before after := fun meanwhile =>
    Relation.ReflTransGen.mono sharedRight _ _ meanwhile
  induction left generalizing right ownLeft ownRight past state with
  | done result =>
      exact ensuresRight.among sharedRight (fun _ _ among => Or.inr (Or.inr among)) insideRight
  | thrown error => nomatch error
  | ask op next moveLeft =>
      induction right generalizing ownLeft ownRight past state with
      | done result =>
          intro before meanwhile answer after performed
          rcases ensuresLeft before (toLeft meanwhile) answer after performed with ⟨kept, rest⟩
          exact ⟨Or.inr (Or.inl ⟨ownLeft, insideLeft, kept⟩), moveLeft answer (.done result) rest trivial
            (insideLeft.append_right _) (insideRight.trans (List.sublist_append_left _ _))⟩
      | thrown error => nomatch error
      | ask other nextOther moveRight =>
          intro before meanwhile whose after performed
          refine ⟨Or.inl rfl, ?_⟩
          have turned := turns before whose after performed
          have stillLeft := ensuresLeft.later ((toLeft meanwhile).tail turned.1)
          have stillRight := ensuresRight.later ((toRight meanwhile).tail turned.2)
          have longer : past.Sublist (past ++ [⟨before, turn, whose, after⟩]) := List.sublist_append_left _ _
          have inLeft := insideLeft.trans longer
          have inRight := insideRight.trans longer
          by_cases isLeft : first whose = true
          · dsimp only
            rw [if_pos isLeft]
            intro reached goesOn answer last performs
            rcases stillLeft reached (toLeft goesOn) answer last performs with ⟨kept, rest⟩
            refine ⟨Or.inr (Or.inl ⟨ownLeft, inLeft, kept⟩), moveLeft answer _ rest ?_ (inLeft.append_right _)
              (inRight.trans (List.sublist_append_left _ _))⟩
            exact stillRight.later ((toRight goesOn).tail (leftRight _ _ kept))
          · dsimp only
            rw [if_neg isLeft]
            intro reached goesOn answer last performs
            rcases stillRight reached (toRight goesOn) answer last performs with ⟨kept, rest⟩
            refine ⟨Or.inr (Or.inr ⟨ownRight, inRight, kept⟩), moveRight answer ?_ rest
              (inLeft.trans (List.sublist_append_left _ _)) (inRight.append_right _)⟩
            exact stillLeft.later ((toLeft goesOn).tail (rightLeft _ _ kept performs))

/-- A turn is taken, or the event is one of an item's program. -/
def OneOf {Item : Type} (turn : Op) (guarantees : Item -> List (Event State Op Answer) -> Event State Op Answer -> Prop)
    (items : List Item) (past : List (Event State Op Answer)) (event : Event State Op Answer) : Prop :=
  event.op = turn ∨ Exists fun item => item ∈ items ∧ Among (guarantees item) past event

/-- The rule.  Each item's program relies on something and guarantees something, and what one guarantees the others
rely on. -/
theorem Ensures.allAtOnce {Item : Type} (program : Item -> Program Op Answer Empty Unit)
    (relies : Item -> State -> State -> Prop)
    (guarantees : Item -> List (Event State Op Answer) -> Event State Op Answer -> Prop) (items : List Item)
    (apart : items.Pairwise fun item other => forall own event,
      (guarantees item own event -> relies other event.before event.after) ∧
        (guarantees other own event -> relies item event.before event.after))
    (sharedBy : forall item, item ∈ items -> forall before after, shared before after -> relies item before after)
    (turns : forall item, item ∈ items -> forall before answer after, world.performs before turn answer after ->
      relies item before after)
    (each : forall item, item ∈ items ->
      (world.relying (relies item)).Ensures (guarantees item) (program item) Anyhow [] state) :
    (world.relying shared).Ensures (OneOf turn guarantees items) (Program.allAtOnce turn first (items.map program))
      Anyhow past state := by
  induction items generalizing shared past with
  | nil => trivial
  | cons item rest ih =>
      have apartFirst := List.pairwise_cons.mp apart
      have others : (world.relying fun before after => forall other, other ∈ rest -> relies other before after).Ensures
          (OneOf turn guarantees rest) (Program.allAtOnce turn first (rest.map program)) Anyhow [] state := by
        refine ih apartFirst.2 ?_ ?_ ?_
        · exact fun other member before after all => all other member
        · exact fun other member => turns other (List.mem_cons_of_mem _ member)
        · exact fun other member => each other (List.mem_cons_of_mem _ member)
      have turnsHere := turns item List.mem_cons_self
      have together : (world.relying shared).Ensures
          (fun past event => event.op = turn ∨ Among (guarantees item) past event ∨
            Among (OneOf turn guarantees rest) past event)
          (Program.allAtOnce turn first ((item :: rest).map program)) Anyhow past state := by
        refine Ensures.both (program item) (Program.allAtOnce turn first (rest.map program))
          (sharedBy item List.mem_cons_self)
          (fun before after did other member => sharedBy other (List.mem_cons_of_mem _ member) before after did)
          (fun before answer after performed => ⟨turnsHere before answer after performed,
            fun other member => turns other (List.mem_cons_of_mem _ member) before answer after performed⟩)
          (fun own event kept other member => (apartFirst.1 other member own event).1 kept)
          (fun own event kept performed => ?_) (each item List.mem_cons_self) others (List.nil_sublist past)
          (List.nil_sublist past)
        rcases kept with isTurn | ⟨other, member, ownOther, _, kept⟩
        · rcases event with ⟨before, op, answer, after⟩
          cases isTurn
          exact turnsHere before answer after performed
        · exact (apartFirst.1 other member ownOther event).2 kept
      refine together.among (fun _ _ did => did) ?_ (List.Sublist.refl past)
      rintro past event ⟨own, inside, isTurn | ⟨ownItem, insideItem, kept⟩ | ⟨ownRest, insideRest, kept⟩⟩
      · exact Or.inl isTurn
      · exact Or.inr ⟨item, List.mem_cons_self, ownItem, insideItem.trans inside, kept⟩
      · rcases kept with isTurn | ⟨other, member, ownOther, insideOther, kept⟩
        · exact Or.inl isTurn
        · exact Or.inr ⟨other, List.mem_cons_of_mem _ member, ownOther,
            (insideOther.trans insideRest).trans inside, kept⟩

end

end World
end Foundation
end Dokploy
