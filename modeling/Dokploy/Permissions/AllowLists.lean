import Mathlib.Data.List.Nodup
import Dokploy.Foundation.Actors

namespace Dokploy
namespace Permissions

open Foundation

/-!
# The allow-lists of a member

A member has a list of projects, one of environments and one of services.  A call
that adds an id checks its organization, reads the member, and writes the one list
back with the id at its end, or leaves an id alone that is there already.  Other
calls may run between any two of these steps.

A write takes back whatever was added since its call read the list.  As long as no
write finds such an entry, the lists only grow, and each id is added once.
-/

/-- Nothing is taken away, and each new entry is added once. -/
def Grown (before now : List String) : Prop :=
  Exists fun new => now = before ++ new ∧ new.Nodup ∧ forall entry, entry ∈ new -> entry ∉ before

namespace Grown

variable {before middle now : List String} {id : String}

theorem refl (entries : List String) : Grown entries entries :=
  ⟨[], (List.append_nil entries).symm, List.nodup_nil, fun _ member => nomatch member⟩

theorem trans (first : Grown before middle) (second : Grown middle now) : Grown before now := by
  rcases first with ⟨earlier, isMiddle, once, fresh⟩
  rcases second with ⟨later, isNow, onceLater, freshLater⟩
  refine ⟨earlier ++ later, ?_, ?_, fun entry member old => ?_⟩
  · rw [isNow, isMiddle, List.append_assoc]
  · refine List.nodup_append.mpr ⟨once, onceLater, fun entry inEarlier other inLater same => ?_⟩
    refine freshLater other inLater ?_
    rw [isMiddle, ← same]
    exact List.mem_append_right _ inEarlier
  · rcases List.mem_append.mp member with inEarlier | inLater
    · exact fresh entry inEarlier old
    · refine freshLater entry inLater ?_
      rw [isMiddle]
      exact List.mem_append_left _ old

theorem keeps (grown : Grown before now) {entry : String} (old : entry ∈ before) : entry ∈ now := by
  rcases grown with ⟨new, isNow, _⟩
  rw [isNow]
  exact List.mem_append_left _ old

theorem append (entries : List String) (fresh : id ∉ entries) : Grown entries (entries ++ [id]) := by
  refine ⟨[id], rfl, List.nodup_singleton id, fun entry member => ?_⟩
  rw [List.mem_singleton.mp member]
  exact fresh

theorem count_new (grown : Grown before now) (member : id ∈ now) (fresh : id ∉ before) : now.count id = 1 := by
  rcases grown with ⟨new, isNow, once, _⟩
  rw [isNow] at member ⊢
  have inNew : id ∈ new := (List.mem_append.mp member).resolve_left fresh
  rw [List.count_append, List.count_eq_zero_of_not_mem fresh, List.count_eq_one_of_mem once inNew]

/-- Writing back what was read, with one more entry, loses nothing exactly if nothing else was added meanwhile. -/
theorem write_iff (grown : Grown before now) (fresh : id ∉ before) :
    Grown now (before ++ [id]) <-> forall entry, entry ∈ now -> entry ∈ before ∨ entry = id := by
  constructor
  · intro kept entry member
    exact (List.mem_append.mp (kept.keeps member)).imp_right List.mem_singleton.mp
  · intro undisturbed
    rcases grown with ⟨new, isNow, once, isNew⟩
    have onlyId : forall entry, entry ∈ new -> entry = id := fun entry member =>
      (undisturbed entry (isNow ▸ List.mem_append_right _ member)).resolve_left (isNew entry member)
    cases new with
    | nil =>
        rw [isNow, List.append_nil]
        exact append before fresh
    | cons first rest =>
        have noMore : rest = [] := by
          refine List.eq_nil_iff_forall_not_mem.mpr fun entry member => ?_
          have same : entry = first :=
            (onlyId entry (List.mem_cons_of_mem _ member)).trans (onlyId first List.mem_cons_self).symm
          exact (List.nodup_cons.mp once).1 (same ▸ member)
        rw [isNow, noMore, onlyId first List.mem_cons_self]
        exact refl _

end Grown

inductive AllowList where
  | accessedProjects
  | accessedEnvironments
  | accessedServices
deriving DecidableEq

structure MemberLists where
  accessedProjects : List String
  accessedEnvironments : List String
  accessedServices : List String
deriving DecidableEq

namespace MemberLists

def get (lists : MemberLists) : AllowList -> List String
  | .accessedProjects => lists.accessedProjects
  | .accessedEnvironments => lists.accessedEnvironments
  | .accessedServices => lists.accessedServices

def set (lists : MemberLists) (entries : List String) : AllowList -> MemberLists
  | .accessedProjects => { lists with accessedProjects := entries }
  | .accessedEnvironments => { lists with accessedEnvironments := entries }
  | .accessedServices => { lists with accessedServices := entries }

@[simp] theorem get_set_same (lists : MemberLists) (entries : List String) (list : AllowList) :
    (lists.set entries list).get list = entries := by
  cases list <;> rfl

theorem get_set_other (lists : MemberLists) (entries : List String) {list other : AllowList} (different : other ≠ list) :
    (lists.set entries list).get other = lists.get other := by
  cases list <;> cases other <;> first | rfl | exact absurd rfl different

end MemberLists

/-- A call that adds an id.  The message is that of its organization check. -/
structure AddCall where
  list : AllowList
  id : String
  organizationId : String
  refusal : String
deriving DecidableEq

def addNewProject (organizationId projectId : String) : AddCall where
  list := .accessedProjects
  id := projectId
  organizationId := organizationId
  refusal := "You are not authorized to access this project or it does not exist"

def addNewEnvironment (organizationId environmentId : String) : AddCall where
  list := .accessedEnvironments
  id := environmentId
  organizationId := organizationId
  refusal := "You are not authorized to access this environment or it does not exist"

def addNewService (organizationId serviceId : String) : AddCall where
  list := .accessedServices
  id := serviceId
  organizationId := organizationId
  refusal := "You are not authorized to access this service or it does not exist"

inductive Adding where
  | checking (call : AddCall)
  | reading (call : AddCall)
  | writing (call : AddCall) (read : MemberLists)
  | finished (call : AddCall)
  | thrown (call : AddCall)
deriving DecidableEq

/-- What a call waits for: the organization of its id, the member, and the update.  Each of them may fail. -/
inductive AddEvent where
  | found (organizationId : Option String)
  | memberRead
  | written
  | fails (message : String)
deriving DecidableEq

def act (lists : MemberLists) : Adding -> AddEvent -> Option (MemberLists × Adding × List String)
  | .checking call, .found organizationId =>
      if organizationId = some call.organizationId then some (lists, .reading call, [])
      else some (lists, .thrown call, [call.refusal])
  | .reading call, .memberRead =>
      if call.id ∈ lists.get call.list then some (lists, .finished call, []) else some (lists, .writing call lists, [])
  | .writing call read, .written =>
      some (lists.set (read.get call.list ++ [call.id]) call.list, .finished call, [])
  | .checking call, .fails message | .reading call, .fails message | .writing call _, .fails message =>
      some (lists, .thrown call, [message])
  | _, _ => none

def adders : Actors.Behaviour MemberLists Adding AddCall AddEvent String where
  begins := .checking
  act := act

/-- Any number of calls for one member.  What is said is what they throw. -/
def allowLists (first : MemberLists) :
    Machine (Actors.System MemberLists Adding) (Actors.Happening AddCall AddEvent) (Option Nat × String) :=
  adders.machine first

/-- A write finds no entry in its list that its call has not read or adds itself. -/
def Undisturbed (system : Actors.System MemberLists Adding) : Actors.Happening AddCall AddEvent -> Prop
  | .acts index .written => forall call read, system.actors[index]? = some (.writing call read) ->
      forall entry, entry ∈ system.row.get call.list -> entry ∈ read.get call.list ∨ entry = call.id
  | _ => True

/-- The lists only grew, and a finished call has its id in its list, once where it was not there before. -/
def NothingLost (first : MemberLists) (system : Actors.System MemberLists Adding) : Prop :=
  (forall list, Grown (first.get list) (system.row.get list)) ∧
    forall call, Adding.finished call ∈ system.actors ->
      call.id ∈ system.row.get call.list ∧
        (call.id ∉ first.get call.list -> (system.row.get call.list).count call.id = 1)

/-- What a call knows of the lists as they are now. -/
def Knows (lists : MemberLists) : Adding -> Prop
  | .writing call read => Grown (read.get call.list) (lists.get call.list) ∧ call.id ∉ read.get call.list
  | .finished call => call.id ∈ lists.get call.list
  | _ => True

theorem Knows.grown {lists after : MemberLists} {current : Adding} (knows : Knows lists current)
    (grown : forall list, Grown (lists.get list) (after.get list)) : Knows after current := by
  cases current with
  | writing call read => exact ⟨knows.1.trans (grown call.list), knows.2⟩
  | finished call => exact (grown call.list).keeps knows
  | _ => trivial

/-- A step lets the lists grow, if a write is not disturbed, and its call knows what it should. -/
theorem act_grown {lists after : MemberLists} {current now : Adding} {event : AddEvent} {thrown : List String}
    (acted : act lists current event = some (after, now, thrown)) (knows : Knows lists current)
    (undisturbed : forall call read, current = .writing call read -> event = .written ->
      forall entry, entry ∈ lists.get call.list -> entry ∈ read.get call.list ∨ entry = call.id) :
    (forall list, Grown (lists.get list) (after.get list)) ∧ Knows after now := by
  unfold act at acted
  split at acted
  · split at acted
    · cases acted
      exact ⟨fun _ => Grown.refl _, trivial⟩
    · cases acted
      exact ⟨fun _ => Grown.refl _, trivial⟩
  · split at acted
    · rename_i present
      cases acted
      exact ⟨fun _ => Grown.refl _, present⟩
    · rename_i absent
      cases acted
      exact ⟨fun _ => Grown.refl _, Grown.refl _, absent⟩
  · rename_i call read
    cases acted
    refine ⟨fun list => ?_, ?_⟩
    · by_cases same : list = call.list
      · rw [same, MemberLists.get_set_same]
        exact (Grown.write_iff knows.1 knows.2).mpr (undisturbed call read rfl rfl)
      · rw [MemberLists.get_set_other _ _ same]
        exact Grown.refl _
    · rw [Knows, MemberLists.get_set_same]
      exact List.mem_append_right _ List.mem_cons_self
  all_goals
    cases acted
    try exact ⟨fun _ => Grown.refl _, trivial⟩

/-- Calls that do not disturb one another lose nothing. -/
theorem allow_lists_keep_entries (first : MemberLists) (history : List (Option Nat × String))
    (system : Actors.System MemberLists Adding) (run : (allowLists first).Run Undisturbed history system) :
    NothingLost first system := by
  have rule := @Actors.rely _ _ _ _ _ adders first Undisturbed
    (fun _ lists => forall list, Grown (first.get list) (lists.get list))
    (fun _ lists _ current => Knows lists current) (fun _ => Grown.refl _) (fun _ _ _ _ _ => trivial)
  have kept := rule ?_ (fun _ _ _ _ _ _ _ _ moved => by cases moved) run
  · refine ⟨kept.1, fun call isFinished => ?_⟩
    rcases List.mem_iff_getElem?.mp isFinished with ⟨position, found⟩
    have present : call.id ∈ system.row.get call.list := kept.2 position _ found
    exact ⟨present, (kept.1 call.list).count_new present⟩
  · intro history system index current event after now thrown grown knows undisturbed found acted
    have step := act_grown acted (knows index current found) (by
      intro call read isCurrent isWritten
      rw [isWritten] at undisturbed
      exact undisturbed call read (isCurrent ▸ found))
    exact ⟨fun list => (grown list).trans (step.1 list), step.2,
      fun position other _ foundOther => (knows position other foundOther).grown step.1⟩

def undisturbed (system : Actors.System MemberLists Adding) : Actors.Happening AddCall AddEvent -> Bool
  | .acts index .written =>
      match system.actors[index]? with
      | some (.writing call read) =>
          (system.row.get call.list).all fun entry => (read.get call.list).contains entry || entry == call.id
      | _ => true
  | _ => true

theorem undisturbed_sound (system : Actors.System MemberLists Adding)
    (happening : Actors.Happening AddCall AddEvent) (tested : undisturbed system happening = true) :
    Undisturbed system happening := by
  cases happening with
  | acts index event =>
      cases event with
      | written =>
          intro call read found entry member
          simp only [undisturbed, found, List.all_eq_true] at tested
          simpa using tested entry member
      | _ => trivial
  | _ => trivial

def oneService : MemberLists where
  accessedProjects := ["project"]
  accessedEnvironments := []
  accessedServices := ["first"]

def secondService : AddCall := addNewService "organization" "second"

def thirdService : AddCall := addNewService "organization" "third"

/-- Two services are added, one after the other. -/
def servicesInTurn : List (Actors.Happening AddCall AddEvent) :=
  [.starts secondService, .starts thirdService, .acts 0 (.found (some "organization")), .acts 0 .memberRead,
    .acts 0 .written, .acts 1 (.found (some "organization")), .acts 1 .memberRead, .acts 1 .written]

theorem servicesInTurn_kept : Exists fun (system : Actors.System MemberLists Adding) =>
    system.actors = [.finished secondService, .finished thirdService] ∧ NothingLost oneService system := by
  have run : (allowLists oneService).Run Undisturbed _ _ := @Machine.run_of_executes _ _ _
    (allowLists oneService) _ undisturbed undisturbed_sound servicesInTurn (by decide)
  exact ⟨_, by decide, allow_lists_keep_entries oneService _ _ run⟩

/-- The same services, each read before the other is written. -/
def servicesTogether : List (Actors.Happening AddCall AddEvent) :=
  [.starts secondService, .starts thirdService, .acts 0 (.found (some "organization")),
    .acts 1 (.found (some "organization")), .acts 0 .memberRead, .acts 1 .memberRead, .acts 0 .written,
    .acts 1 .written]

theorem servicesTogether_lost : Exists fun history => Exists fun (system : Actors.System MemberLists Adding) =>
    (allowLists oneService).Reaches history system ∧
      system.actors = [.finished secondService, .finished thirdService] ∧
        system.row.accessedServices = ["first", "third"] ∧ ¬ NothingLost oneService system := by
  have run : (allowLists oneService).Reaches _ _ := @Machine.run_of_executes _ _ _
    (allowLists oneService) _ (fun _ _ => true) (fun _ _ _ => trivial) servicesTogether (by decide)
  refine ⟨_, _, run, by decide, by decide, fun kept => ?_⟩
  have present := (kept.2 secondService List.mem_cons_self).1
  exact absurd present (by decide)

end Permissions
end Dokploy
