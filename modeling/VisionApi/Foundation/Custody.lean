import Mathlib.Algebra.Order.Group.Multiset
import Mathlib.Algebra.BigOperators.Group.List.Basic
import Mathlib.Data.Multiset.Count
import Mathlib.Logic.Relation
import Mathlib.Tactic.Abel

/-!
# Custody of queued items

A ledger follows items from their acceptance to their settlement: an accepted
item waits in a queue, is taken in hand from the front of the queue, is passed
on in a batch and is finally settled with an outcome, or is discarded straight
from the queue.  Every move conserves the items, so an item is never lost and
never held twice, whoever makes the moves and in whatever order.

The second half computes what a list of holders has in hand after one of them
changes.
-/

namespace VisionApi.Foundation

universe u v w

/-- Where every accepted item is, with the batches passed on so far. -/
structure Ledger (Item : Type u) (Outcome : Type v) where
  accepted : List Item
  queue : List Item
  inHand : Multiset Item
  passed : Multiset Item
  deliveries : List (List Item)
  settled : List (Outcome × Item)

namespace Ledger

variable {Item : Type u} {Outcome : Type v}

/-- The same ledger with more items in hand. -/
def addInHand (ledger : Ledger Item Outcome) (items : Multiset Item) : Ledger Item Outcome :=
  { ledger with inHand := ledger.inHand + items }

/-- The moves of a ledger whose batches hold at most `maxBatch` items. -/
inductive Move (maxBatch : ℕ) : Ledger Item Outcome → Ledger Item Outcome → Prop where
  | accept (ledger : Ledger Item Outcome) (item : Item) (fresh : item ∉ ledger.accepted) :
      Move maxBatch ledger
        { ledger with accepted := ledger.accepted ++ [item], queue := ledger.queue ++ [item] }
  | discard (ledger : Ledger Item Outcome) (item : Item) (rest : List Item) (outcome : Outcome)
      (front : ledger.queue = item :: rest) :
      Move maxBatch ledger
        { ledger with queue := rest, settled := ledger.settled ++ [(outcome, item)] }
  | take (ledger : Ledger Item Outcome) (item : Item) (rest : List Item)
      (front : ledger.queue = item :: rest) :
      Move maxBatch ledger { ledger with queue := rest, inHand := ledger.inHand + {item} }
  | pass (ledger : Ledger Item Outcome) (batch : List Item) (rest : Multiset Item)
      (held : ledger.inHand = ↑batch + rest) (nonempty : batch ≠ [])
      (bounded : batch.length ≤ maxBatch) :
      Move maxBatch ledger
        { ledger with
          inHand := rest
          passed := ledger.passed + ↑batch
          deliveries := ledger.deliveries ++ [batch] }
  | settle (ledger : Ledger Item Outcome) (batch : List Item) (rest : Multiset Item)
      (outcome : Outcome) (pending : ledger.passed = ↑batch + rest) :
      Move maxBatch ledger
        { ledger with
          passed := rest
          settled := ledger.settled ++ batch.map fun item => (outcome, item) }

/-- Any number of moves. -/
abbrev Moves (maxBatch : ℕ) : Ledger Item Outcome → Ledger Item Outcome → Prop :=
  Relation.ReflTransGen (Move maxBatch)

/-- Nothing is lost, nothing is held twice, and the queue keeps the order of acceptance. -/
structure Sound (maxBatch : ℕ) (ledger : Ledger Item Outcome) : Prop where
  distinct : ledger.accepted.Nodup
  conserved : (ledger.accepted : Multiset Item) =
    ↑ledger.queue + ledger.inHand + ledger.passed + ↑(ledger.settled.map Prod.snd)
  ordered : ledger.queue <:+ ledger.accepted
  delivered : (ledger.deliveries.flatten : Multiset Item) ≤
    ledger.passed + ↑(ledger.settled.map Prod.snd)
  batched : ∀ batch ∈ ledger.deliveries, batch ≠ [] ∧ batch.length ≤ maxBatch

/-- One move keeps a sound ledger sound. -/
theorem Move.sound {maxBatch : ℕ} {before after : Ledger Item Outcome}
    (move : Move maxBatch before after) (sound : before.Sound maxBatch) :
    after.Sound maxBatch := by
  rcases sound with ⟨distinct, conserved, ordered, delivered, batched⟩
  cases move with
  | accept item fresh =>
      refine ⟨?_, ?_, ?_, delivered, batched⟩
      · simpa [List.nodup_append] using ⟨distinct, fun other otherMem same =>
          fresh (same ▸ otherMem)⟩
      · simp only [← Multiset.coe_add, conserved]
        abel
      · rcases ordered with ⟨gone, split⟩
        exact ⟨gone, by rw [← split, List.append_assoc]⟩
  | discard item rest outcome front =>
      refine ⟨distinct, ?_, ?_, ?_, batched⟩
      · simp only [conserved, front, List.map_append, List.map_cons, List.map_nil,
          ← Multiset.coe_add, ← Multiset.cons_coe, ← Multiset.singleton_add]
        abel
      · exact (List.suffix_cons item rest).trans (front ▸ ordered)
      · refine delivered.trans (add_le_add le_rfl ?_)
        simp only [List.map_append, ← Multiset.coe_add]
        exact Multiset.le_add_right _ _
  | take item rest front =>
      refine ⟨distinct, ?_, ?_, delivered, batched⟩
      · simp only [conserved, front, ← Multiset.cons_coe, ← Multiset.singleton_add]
        abel
      · exact (List.suffix_cons item rest).trans (front ▸ ordered)
  | pass batch rest held nonempty bounded =>
      refine ⟨distinct, ?_, ordered, ?_, ?_⟩
      · simp only [conserved, held]
        abel
      · simp only [List.flatten_append, List.flatten_cons, List.flatten_nil, List.append_nil,
          ← Multiset.coe_add]
        calc (↑before.deliveries.flatten + ↑batch : Multiset Item)
            ≤ before.passed + ↑(before.settled.map Prod.snd) + ↑batch :=
              add_le_add delivered le_rfl
          _ = before.passed + ↑batch + ↑(before.settled.map Prod.snd) := by abel
      · intro other otherMem
        simp only [List.mem_append, List.mem_singleton] at otherMem
        rcases otherMem with old | rfl
        · exact batched other old
        · exact ⟨nonempty, bounded⟩
  | settle batch rest outcome pending =>
      have settledNow : (batch.map fun item => (outcome, item)).map Prod.snd = batch := by
        simp
      refine ⟨distinct, ?_, ordered, ?_, batched⟩
      · simp only [conserved, pending, List.map_append, settledNow, ← Multiset.coe_add]
        abel
      · refine delivered.trans (le_of_eq ?_)
        simp only [pending, List.map_append, settledNow, ← Multiset.coe_add]
        abel

/-- Soundness holds after any moves. -/
theorem Moves.sound {maxBatch : ℕ} {before after : Ledger Item Outcome}
    (moves : Moves maxBatch before after) (sound : before.Sound maxBatch) :
    after.Sound maxBatch := by
  induction moves with
  | refl => exact sound
  | tail _ move ih => exact move.sound ih

theorem Moves.accepted_grows {maxBatch : ℕ} {before after : Ledger Item Outcome}
    (moves : Moves maxBatch before after) : before.accepted <+: after.accepted := by
  induction moves with
  | refl => exact List.prefix_refl _
  | tail _ move ih =>
      apply ih.trans
      cases move with
      | accept item fresh => exact List.prefix_append _ _
      | discard => exact List.prefix_refl _
      | take => exact List.prefix_refl _
      | pass => exact List.prefix_refl _
      | settle => exact List.prefix_refl _

theorem Moves.settled_grows {maxBatch : ℕ} {before after : Ledger Item Outcome}
    (moves : Moves maxBatch before after) : before.settled <+: after.settled := by
  induction moves with
  | refl => exact List.prefix_refl _
  | tail _ move ih =>
      apply ih.trans
      cases move with
      | accept => exact List.prefix_refl _
      | discard => exact List.prefix_append _ _
      | take => exact List.prefix_refl _
      | pass => exact List.prefix_refl _
      | settle => exact List.prefix_append _ _

/-- Only new items join the queue. -/
theorem Moves.mem_queue {maxBatch : ℕ} {before after : Ledger Item Outcome}
    (moves : Moves maxBatch before after) {item : Item} (waiting : item ∈ after.queue) :
    item ∈ before.queue ∨ item ∉ before.accepted := by
  induction moves with
  | refl => exact .inl waiting
  | tail earlier move ih =>
      cases move with
      | accept item fresh =>
          simp only [List.mem_append, List.mem_singleton] at waiting
          rcases waiting with old | rfl
          · exact ih old
          · exact .inr fun known => fresh ((accepted_grows earlier).subset known)
      | discard item rest outcome front => exact ih (front ▸ List.mem_cons_of_mem _ waiting)
      | take item rest front => exact ih (front ▸ List.mem_cons_of_mem _ waiting)
      | pass => exact ih waiting
      | settle => exact ih waiting

/-- In a sound ledger a settled item is nowhere else. -/
theorem Sound.settled_iff {maxBatch : ℕ} {ledger : Ledger Item Outcome}
    (sound : ledger.Sound maxBatch) {item : Item} (known : item ∈ ledger.accepted) :
    item ∈ ledger.settled.map Prod.snd ↔
      item ∉ ledger.queue ∧ item ∉ ledger.inHand ∧ item ∉ ledger.passed := by
  have once : (ledger.accepted : Multiset Item).Nodup := Multiset.coe_nodup.mpr sound.distinct
  have somewhere : item ∈ (ledger.accepted : Multiset Item) := Multiset.mem_coe.mpr known
  rw [sound.conserved, Multiset.nodup_add] at once
  rw [sound.conserved] at somewhere
  simp only [Multiset.mem_add, Multiset.mem_coe] at somewhere
  constructor
  · intro done
    have apart := Multiset.disjoint_right.mp once.2.2 (Multiset.mem_coe.mpr done)
    simpa only [Multiset.mem_add, Multiset.mem_coe, not_or, and_assoc] using apart
  · rintro ⟨notQueued, notHeld, notPassed⟩
    tauto

/-- Taking the front of the queue in hand is a move. -/
theorem moves_take (maxBatch : ℕ) (ledger : Ledger Item Outcome) (taken rest : List Item)
    (front : ledger.queue = taken ++ rest) :
    Moves maxBatch ledger { ledger.addInHand ↑taken with queue := rest } := by
  simp only [addInHand]
  induction taken generalizing ledger with
  | nil =>
      simp only [List.nil_append] at front
      simpa [← front] using Relation.ReflTransGen.refl
  | cons item taken ih =>
      have first : Move maxBatch ledger
          { ledger with queue := taken ++ rest, inHand := ledger.inHand + {item} } :=
        .take ledger item (taken ++ rest) (by simpa using front)
      have others := ih { ledger with queue := taken ++ rest, inHand := ledger.inHand + {item} } rfl
      have total : ledger.inHand + {item} + ↑taken = ledger.inHand + ↑(item :: taken) := by
        rw [← Multiset.cons_coe, ← Multiset.singleton_add, add_assoc]
      simp only [total] at others
      exact Relation.ReflTransGen.head first others

/-- Passing on a batch that is in hand is a move. -/
theorem moves_pass {maxBatch : ℕ} (ledger : Ledger Item Outcome) {batch : List Item}
    (nonempty : batch ≠ []) (bounded : batch.length ≤ maxBatch) :
    Moves maxBatch (ledger.addInHand ↑batch)
      { ledger with
        passed := ledger.passed + ↑batch
        deliveries := ledger.deliveries ++ [batch] } :=
  .single (.pass (ledger.addInHand ↑batch) batch ledger.inHand (add_comm _ _) nonempty bounded)

/-- No item is passed on twice. -/
theorem Sound.deliveries_nodup {maxBatch : ℕ} {ledger : Ledger Item Outcome}
    (sound : ledger.Sound maxBatch) : ledger.deliveries.flatten.Nodup := by
  have within : (ledger.deliveries.flatten : Multiset Item) ≤ ledger.accepted := by
    rw [sound.conserved]
    apply sound.delivered.trans
    rw [add_assoc, add_assoc]
    exact (Multiset.le_add_left _ _).trans (Multiset.le_add_left _ _)
  exact Multiset.coe_nodup.mp (Multiset.nodup_of_le within (Multiset.coe_nodup.mpr sound.distinct))

end Ledger

section Holders

variable {Holder : Type u} {Item : Type v}

/-- What a list of holders has in hand together. -/
def heldBy (held : Holder → List Item) (holders : List Holder) : Multiset Item :=
  ((holders.flatMap held : List Item) : Multiset Item)

@[simp]
theorem heldBy_append (held : Holder → List Item) (left right : List Holder) :
    heldBy held (left ++ right) = heldBy held left + heldBy held right := by
  simp [heldBy]

@[simp]
theorem heldBy_singleton (held : Holder → List Item) (holder : Holder) :
    heldBy held [holder] = ↑(held holder) := by
  simp [heldBy]

/-- After one holder is replaced, what it now holds stands beside what the others hold. -/
theorem heldBy_set (held : Holder → List Item) {holders : List Holder} {index : ℕ}
    (present : index < holders.length) (holder : Holder) :
    heldBy held (holders.set index holder) =
      heldBy held (holders.eraseIdx index) + ↑(held holder) := by
  induction holders generalizing index with
  | nil => simp at present
  | cons head tail ih =>
      cases index with
      | zero =>
          simp only [List.set_cons_zero, List.eraseIdx_cons_zero, heldBy, List.flatMap_cons,
            ← Multiset.coe_add]
          abel
      | succ index =>
          have rest := ih (by simpa using present)
          simp only [heldBy, List.set_cons_succ, List.eraseIdx_cons_succ, List.flatMap_cons,
            ← Multiset.coe_add] at rest ⊢
          rw [rest]
          abel

/-- What all hold is what the others hold, and what one of them holds. -/
theorem heldBy_eq_others (held : Holder → List Item) {holders : List Holder} {index : ℕ}
    {holder : Holder} (present : holders[index]? = some holder) :
    heldBy held holders = heldBy held (holders.eraseIdx index) + ↑(held holder) := by
  obtain ⟨inside, isHolder⟩ := List.getElem?_eq_some_iff.mp present
  rw [← heldBy_set held inside, ← isHolder, List.set_getElem_self]

theorem heldBy_both (left right : Holder → List Item) (holders : List Holder) :
    heldBy (fun holder => left holder ++ right holder) holders =
      heldBy left holders + heldBy right holders := by
  induction holders with
  | nil => rfl
  | cons head tail ih =>
      simp only [heldBy, List.flatMap_cons, ← Multiset.coe_add] at ih ⊢
      rw [ih]
      abel

end Holders

/-- In a directory that lists each item once, an item is found in exactly one place. -/
theorem existsUnique_place {Place : Type u} {Item : Type v} {directory : List (Place × Item)}
    {items : List Item} (listed : (directory.map Prod.snd).Perm items) (distinct : items.Nodup)
    {item : Item} (present : item ∈ items) : ∃! place, (place, item) ∈ directory := by
  obtain ⟨⟨place, found⟩, entry, rfl⟩ := List.mem_map.mp (listed.mem_iff.mpr present)
  refine ⟨place, entry, fun other otherEntry => ?_⟩
  have same := List.inj_on_of_nodup_map (listed.nodup_iff.mpr distinct) otherEntry entry rfl
  exact congrArg Prod.fst same

end VisionApi.Foundation
