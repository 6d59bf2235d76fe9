import Mathlib.Data.Finset.Card

namespace Dokploy
namespace Foundation

/-!
# Rounds in which the longest waiting are served

In every round some clients come, and a fixed number of those that were not
served yet are served.  A client that is forgotten and comes again is one more
client.  So the rounds in which the budget was used up are no more than the
clients that came, divided by the budget, and somebody who is still waiting was
one of them.
-/

universe u

variable {Client : Type u} [DecidableEq Client]

/-- Who comes, who is known when the round begins, and who of these was not served yet. -/
structure Round (Client : Type u) where
  came : Finset Client
  known : Finset Client
  waiting : Finset Client

namespace Round

/-- Those who can be served: the new ones and those who still wait. -/
def candidates (round : Round Client) : Finset Client :=
  round.came ∩ round.waiting ∪ round.came \ round.known

/-- The budget is used up on candidates; only other candidates wait afterwards. -/
structure UsesUp (budget : Nat) (round : Round Client) (after : Finset Client) : Prop where
  served : Exists fun served : Finset Client =>
    served ⊆ round.candidates ∧ served.card = budget ∧ after ⊆ round.candidates \ served

/-- How often somebody came who had come before and was forgotten. -/
def comebacks (seen : Finset Client) : List (Round Client) -> Nat
  | [] => 0
  | round :: later => ((round.came \ round.known) ∩ seen).card + comebacks (seen ∪ round.came) later

def everybody (seen : Finset Client) : List (Round Client) -> Finset Client
  | [] => seen
  | round :: later => everybody (seen ∪ round.came) later

/-- Rounds that each use up the budget, one after the other. -/
inductive Chain (budget : Nat) : List (Round Client) -> Finset Client -> Finset Client -> Prop
  | nil (waiting : Finset Client) : Chain budget [] waiting waiting
  | cons {round : Round Client} {later : List (Round Client)} {after last : Finset Client} :
      round.UsesUp budget after -> Chain budget later after last ->
      Chain budget (round :: later) round.waiting last

theorem candidates_card_le (round : Round Client) (seen : Finset Client) :
    round.candidates.card ≤
      (round.waiting ∩ seen).card + (round.came \ seen).card + ((round.came \ round.known) ∩ seen).card := by
  have covered : round.candidates ⊆
      round.waiting ∩ seen ∪ round.came \ seen ∪ (round.came \ round.known) ∩ seen := by
    intro client member
    simp only [candidates, Finset.mem_union, Finset.mem_inter, Finset.mem_sdiff] at member ⊢
    by_cases before : client ∈ seen
    · rcases member with waits | new
      · exact Or.inl (Or.inl ⟨waits.2, before⟩)
      · exact Or.inr ⟨new, before⟩
    · rcases member with waits | new
      · exact Or.inl (Or.inr ⟨waits.1, before⟩)
      · exact Or.inl (Or.inr ⟨new.1, before⟩)
  calc round.candidates.card
      ≤ (round.waiting ∩ seen ∪ round.came \ seen ∪ (round.came \ round.known) ∩ seen).card :=
        Finset.card_le_card covered
    _ ≤ (round.waiting ∩ seen ∪ round.came \ seen).card + ((round.came \ round.known) ∩ seen).card :=
        Finset.card_union_le _ _
    _ ≤ (round.waiting ∩ seen).card + (round.came \ seen).card + ((round.came \ round.known) ∩ seen).card :=
        Nat.add_le_add_right (Finset.card_union_le _ _) _

theorem UsesUp.card_le {budget : Nat} {round : Round Client} {after : Finset Client}
    (usesUp : round.UsesUp budget after) : after.card + budget ≤ round.candidates.card := by
  rcases usesUp.served with ⟨served, candidates, count, rest⟩
  have split := Finset.card_sdiff_add_card_eq_card candidates
  have bound := Finset.card_le_card rest
  omega

/-- Every client that came, counted again whenever it came back, pays for one service or still waits. -/
theorem Chain.served_le {budget : Nat} {rounds : List (Round Client)} {waiting last : Finset Client}
    (chain : Chain budget rounds waiting last) (seen : Finset Client) :
    seen.card + budget * rounds.length + (last ∩ everybody seen rounds).card ≤
      (everybody seen rounds).card + comebacks seen rounds + (waiting ∩ seen).card := by
  induction chain generalizing seen with
  | nil waiting =>
      simp only [everybody, comebacks, List.length_nil]
      omega
  | @cons round later after last usesUp _ ih =>
      have rest := ih (seen ∪ round.came)
      have grown : (seen ∪ round.came).card = seen.card + (round.came \ seen).card := by
        rw [← Finset.union_sdiff_self_eq_union, Finset.card_union_of_disjoint Finset.disjoint_sdiff]
      have bound := round.candidates_card_le seen
      have used := usesUp.card_le
      have still : (after ∩ (seen ∪ round.came)).card ≤ after.card := Finset.card_le_card Finset.inter_subset_left
      simp only [everybody, comebacks, List.length_cons, Nat.mul_succ]
      omega

/-- Somebody who waits at the end of rounds that used up the budget came in more company than was served. -/
theorem Chain.lt_everybody {budget : Nat} {rounds : List (Round Client)} {waiting last : Finset Client}
    (chain : Chain budget rounds waiting last) {client : Client} (waits : client ∈ last)
    (came : client ∈ everybody ∅ rounds) :
    budget * rounds.length < (everybody ∅ rounds).card + comebacks ∅ rounds := by
  have counted := chain.served_le ∅
  have positive : 0 < (last ∩ everybody ∅ rounds).card :=
    Finset.card_pos.mpr ⟨client, Finset.mem_inter.mpr ⟨waits, came⟩⟩
  simp only [Finset.card_empty, Finset.inter_empty] at counted
  omega

end Round
end Foundation
end Dokploy
