import Mathlib.Data.List.Rotate

namespace Dokploy
namespace Foundation

/-!
# Serving clients in turn

A turn goes through the clients in some order and serves those at the front, at
least the first one.  The next turn begins with the first one that was not served,
and the others follow in the same circle.  So as many turns as there are clients
serve every client.
-/

universe u v

variable {Client : Type u} {Turn : Type v}

/-- The clients in their circle, from one of them on. -/
def startingWith [BEq Client] (clients : List Client) (client : Client) : List Client :=
  clients.drop (clients.idxOf client) ++ clients.take (clients.idxOf client)

variable {clients : List Client} {client : Client}

theorem startingWith_eq_rotate [BEq Client] [LawfulBEq Client] (member : client ∈ clients) :
    startingWith clients client = clients.rotate (clients.idxOf client) :=
  (List.rotate_eq_drop_append_take (List.idxOf_lt_length_of_mem member).le).symm

theorem startingWith_of_rotated [BEq Client] [LawfulBEq Client] (distinct : clients.Nodup) {start count : Nat}
    (next : (clients.rotate start)[count]? = some client) :
    startingWith clients client = (clients.rotate start).rotate count := by
  rcases List.getElem?_eq_some_iff.mp next with ⟨inside, rfl⟩
  have nonempty : 0 < clients.length := by
    rw [List.length_rotate] at inside
    exact Nat.zero_lt_of_lt inside
  rw [startingWith_eq_rotate (List.mem_rotate.mp (List.getElem_mem inside)), List.getElem_rotate,
    distinct.idxOf_getElem, List.rotate_mod, List.rotate_rotate, Nat.add_comm count start]

variable (order : Turn -> List Client) (served : Turn -> Client -> Prop)

/-- The order after a turn: any, when all were served, else the circle turned by some who were served. -/
inductive Passes (turn : Turn) : List Client -> Prop
  | complete {next : List Client} (all : forall client, client ∈ order turn -> served turn client) : Passes turn next
  | turned {count : Nat} (positive : 0 < count)
      (front : forall client, client ∈ (order turn).take count -> served turn client) :
      Passes turn ((order turn).rotate count)

/-- Each turn takes up the order that the one before it left. -/
inductive TakesTurns : List Client -> List Turn -> Prop
  | stop {clients : List Client} : TakesTurns clients []
  | turn {turn : Turn} {turns : List Turn} {next : List Client} (passes : Passes order served turn next)
      (rest : TakesTurns next turns) : TakesTurns (order turn) (turn :: turns)

variable {order served}

theorem mem_take_rotate {count turns : Nat} (positive : 0 < count)
    (member : client ∈ clients.take (turns + 1)) (later : client ∉ clients.take count) :
    client ∈ (clients.rotate count).take turns := by
  rcases List.mem_take_iff_getElem.mp member with ⟨place, inside, rfl⟩
  have behind : count ≤ place := by
    by_contra before
    exact later (List.mem_take_iff_getElem.mpr ⟨place, by omega, rfl⟩)
  rw [List.rotate_eq_drop_append_take (by omega)]
  apply List.mem_take_iff_getElem.mpr
  refine ⟨place - count, ?_, ?_⟩
  · rw [List.length_append, List.length_drop, List.length_take]
    omega
  · rw [List.getElem_append_left (by rw [List.length_drop]; omega), List.getElem_drop]
    congr 1
    omega

theorem TakesTurns.serve_front {turns : List Turn} (takes : TakesTurns order served clients turns)
    (member : client ∈ clients.take turns.length) :
    Exists fun turn => turn ∈ turns ∧ served turn client := by
  induction takes with
  | stop => cases member
  | @turn turn turns next passes rest ih =>
      cases passes with
      | complete all => exact ⟨turn, List.mem_cons_self, all client (List.mem_of_mem_take member)⟩
      | @turned count positive front =>
          by_cases early : client ∈ (order turn).take count
          · exact ⟨turn, List.mem_cons_self, front client early⟩
          · rcases ih (mem_take_rotate positive member early) with ⟨later, among, serves⟩
            exact ⟨later, List.mem_cons_of_mem turn among, serves⟩

theorem TakesTurns.serve_all {turns : List Turn} (takes : TakesTurns order served clients turns)
    (enough : clients.length ≤ turns.length) (member : client ∈ clients) :
    Exists fun turn => turn ∈ turns ∧ served turn client :=
  takes.serve_front (by rwa [List.take_of_length_le enough])

end Foundation
end Dokploy
