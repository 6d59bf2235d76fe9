import Mathlib.Data.List.Basic

namespace Dokploy
namespace Foundation

/-!
# Writes that have been sent and not yet applied

A client sends writes to a keyed store and does not wait for them.  What the
store will hold under a key, once everything pending is applied in the order in
which it was sent, is the replay of the pending writes over what it holds now.

Applying a pending write early changes this forecast only when it overtakes a
write that touches the same key.
-/

universe u v w

namespace Pending

variable {Key : Type u} {Write : Type v} {Entry : Type w} (act : Key -> Write -> Entry -> Entry)

/-- What a key holds after these writes, in this order. -/
def replay (key : Key) (writes : List Write) (entry : Entry) : Entry :=
  writes.foldl (fun held write => act key write held) entry

def Spares (key : Key) (write : Write) : Prop :=
  forall entry, act key write entry = entry

variable {act}

theorem replay_append (key : Key) (earlier later : List Write) (entry : Entry) :
    replay act key (earlier ++ later) entry = replay act key later (replay act key earlier entry) :=
  List.foldl_append

theorem replay_of_spared {key : Key} {writes : List Write}
    (spared : forall write, write ∈ writes -> Spares act key write) (entry : Entry) :
    replay act key writes entry = entry := by
  induction writes generalizing entry with
  | nil => rfl
  | cons write rest ih =>
      have head : act key write entry = entry := spared write List.mem_cons_self entry
      rw [replay, List.foldl_cons, head]
      exact ih (fun other member => spared other (List.mem_cons_of_mem _ member)) entry

/-- A write that spares the key, or overtakes only writes that spare it, may be
applied at once. -/
theorem replay_applied {key : Key} {before after : List Write} {write : Write}
    (inOrder : Spares act key write ∨ forall earlier, earlier ∈ before -> Spares act key earlier)
    (entry : Entry) :
    replay act key (before ++ after) (act key write entry) =
      replay act key (before ++ write :: after) entry := by
  rw [replay_append, replay_append]
  have next : forall held, replay act key (write :: after) held = replay act key after (act key write held) :=
    fun held => rfl
  rw [next]
  rcases inOrder with spares | overtakes
  · rw [spares, spares]
  · rw [replay_of_spared overtakes, replay_of_spared overtakes]

end Pending
end Foundation
end Dokploy
