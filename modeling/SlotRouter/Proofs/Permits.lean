import Mathlib.Data.Set.Card
import Mathlib.Logic.Function.Basic
import SlotRouter.Semaphore

/-!
# Who has the permits of a semaphore

Any number of parties deal with a semaphore, each of them with one request at a time. What a party has
of it is its stake: nothing, a ticket, or a permit. A deal of one party changes the semaphore and its
own stake, and the books balance after it: the permits that nobody has taken and those that somebody has
are together as many as there were at the start, a ticket that waits or has been granted a permit
belongs to one party, and no two parties have the same. So a permit can neither be lost nor be made,
and one who gives up a ticket to which a permit has been granted hands it on.

Key definitions: `Semaphore.Stake`, `Semaphore.Deal`, `Semaphore.Balanced`. Key theorems:
`Deal.balanced`, `Balanced.close`, `Balanced.free_eq`.
-/

namespace SlotRouter

open List

/-! ### Counting those with a property -/

section

variable {β : Type} {P : β → Prop} {f : Nat → β} {who : Nat}

theorem finite_setOf_update (h : {o | P (f o)}.Finite) (who : Nat) (b : β) :
    {o | P (Function.update f who b o)}.Finite := by
  refine (h.insert who).subset fun o ho => ?_
  by_cases heq : o = who
  · exact .inl heq
  · exact .inr (by simpa [heq] using ho)

variable [DecidablePred P]

/-- One of those with a property is counted by itself. -/
theorem ncard_setOf_eq (h : {o | P (f o)}.Finite) (who : Nat) :
    {o | P (f o)}.ncard = {o | o ≠ who ∧ P (f o)}.ncard + if P (f who) then 1 else 0 := by
  have hrest : {o | o ≠ who ∧ P (f o)}.Finite := h.subset fun o ho => ho.2
  by_cases hwho : P (f who)
  · have hinsert : {o | P (f o)} = insert who {o | o ≠ who ∧ P (f o)} := by
      ext o
      by_cases heq : o = who
      · simp [heq, hwho]
      · simp [heq]
    rw [if_pos hwho, hinsert, Set.ncard_insert_of_notMem (fun hmem => hmem.1 rfl) hrest]
  · have hsame : {o | P (f o)} = {o | o ≠ who ∧ P (f o)} := by
      ext o
      by_cases heq : o = who
      · simp [heq, hwho]
      · simp [heq]
    rw [if_neg hwho, ← hsame, Nat.add_zero]

/-- What becomes of the number of those with a property when one of them changes. -/
theorem ncard_setOf_update (h : {o | P (f o)}.Finite) (who : Nat) (b : β) :
    {o | P (Function.update f who b o)}.ncard + (if P (f who) then 1 else 0) =
      {o | P (f o)}.ncard + if P b then 1 else 0 := by
  have hothers : {o | o ≠ who ∧ P (Function.update f who b o)} = {o | o ≠ who ∧ P (f o)} := by
    ext o
    by_cases heq : o = who <;> simp [heq]
  rw [ncard_setOf_eq h who, ncard_setOf_eq (finite_setOf_update h who b) who, hothers,
    Function.update_self]
  omega

end

namespace Semaphore

/-- What a party has of a semaphore. -/
inductive Stake where
  | nothing
  | queued (ticket : Nat)
  | permit
  deriving DecidableEq, Inhabited

/-- A deal of one party with the semaphore. A request that is refused is none, and one that is refused
later is given up. -/
inductive Deal : Semaphore → Stake → Semaphore → Stake → Prop where
  | acquire {s s' : Semaphore} (h : s.acquire = (.taken, s')) : Deal s .nothing s' .permit
  | queue {s s' : Semaphore} {ticket : Nat} (h : s.acquire = (.waiting ticket, s')) :
      Deal s .nothing s' (.queued ticket)
  | collect {s s' : Semaphore} {ticket : Nat} (h : s.collect ticket = (.taken, s')) :
      Deal s (.queued ticket) s' .permit
  | abandon (s : Semaphore) (ticket : Nat) : Deal s (.queued ticket) (s.abandon ticket) .nothing
  | release (s : Semaphore) : Deal s .permit s.release .nothing

/-- The tickets that wait or have been granted a permit. -/
def tickets (s : Semaphore) : List Nat := s.granted ++ s.queue

variable {s s' : Semaphore} {ticket : Nat}

/-! ### What the operations do to the tickets -/

theorem of_acquire_taken (h : s.acquire = (.taken, s')) :
    s'.untaken + 1 = s.untaken ∧ s'.tickets = s.tickets ∧ s'.nextTicket = s.nextTicket := by
  have huntaken := s.untaken_acquire
  rw [h] at huntaken
  unfold acquire at h
  split_ifs at h
  · cases (Prod.mk.inj h).1
  · obtain ⟨-, rfl⟩ := Prod.mk.inj h
    exact ⟨huntaken, rfl, rfl⟩
  · cases (Prod.mk.inj h).1

theorem of_acquire_waiting (h : s.acquire = (.waiting ticket, s')) :
    s'.untaken = s.untaken ∧ ticket = s.nextTicket ∧ s'.tickets = s.tickets ++ [ticket] ∧
      s'.nextTicket = ticket + 1 := by
  have huntaken := s.untaken_acquire
  rw [h] at huntaken
  unfold acquire at h
  split_ifs at h
  · cases (Prod.mk.inj h).1
  · cases (Prod.mk.inj h).1
  · obtain ⟨hticket, rfl⟩ := Prod.mk.inj h
    obtain rfl := Answer.waiting.inj hticket
    exact ⟨huntaken, rfl, by simp [tickets], rfl⟩

theorem of_collect_taken (h : s.collect ticket = (.taken, s')) :
    s'.untaken + 1 = s.untaken ∧ s'.tickets = s.tickets.erase ticket ∧
      s'.nextTicket = s.nextTicket := by
  have huntaken := s.untaken_collect ticket
  rw [h] at huntaken
  unfold collect at h
  split_ifs at h with hclosed hgranted
  · cases (Prod.mk.inj h).1
  · obtain ⟨-, rfl⟩ := Prod.mk.inj h
    exact ⟨huntaken, (List.erase_append_left _ hgranted).symm, rfl⟩
  · cases (Prod.mk.inj h).1

@[simp] theorem nextTicket_release (s : Semaphore) : s.release.nextTicket = s.nextTicket := by
  unfold release
  split <;> rfl

/-- A permit that comes back is granted to a ticket that waits already. -/
theorem tickets_release (s : Semaphore) : s.release.tickets ~ s.tickets := by
  unfold release tickets
  split
  · exact .refl _
  · rename_i ticket queue hqueue
    rw [hqueue]
    exact List.perm_middle.symm

@[simp] theorem nextTicket_abandon (s : Semaphore) (ticket : Nat) :
    (s.abandon ticket).nextTicket = s.nextTicket := by
  unfold abandon
  split
  · exact nextTicket_release _
  · rfl

theorem tickets_abandon (s : Semaphore) (ticket : Nat) :
    (s.abandon ticket).tickets ~ s.tickets.erase ticket := by
  unfold abandon
  split
  · rename_i hgranted
    refine (tickets_release _).trans ?_
    exact .of_eq (List.erase_append_left _ hgranted).symm
  · rename_i hgranted
    exact .of_eq (List.erase_append_right _ hgranted).symm

/-! ### The books -/

/-- The books of a semaphore with so many permits balance. -/
structure Balanced (capacity : Nat) (s : Semaphore) (stakes : Nat → Stake) : Prop where
  finite : {who | stakes who = .permit}.Finite
  balance : s.untaken + {who | stakes who = .permit}.ncard = capacity
  nodup : s.tickets.Nodup
  /-- A ticket belongs to somebody. -/
  owned : ∀ ticket ∈ s.tickets, ∃ who, stakes who = .queued ticket
  known : ∀ who ticket, stakes who = .queued ticket → ticket < s.nextTicket
  distinct : ∀ who other ticket, stakes who = .queued ticket → stakes other = .queued ticket → who = other

namespace Balanced

variable {capacity : Nat} {stakes : Nat → Stake} {who : Nat} {x : Stake}

theorem fresh (capacity : Nat) : Balanced capacity { free := capacity } fun _ => .nothing := by
  refine ⟨?_, ?_, List.nodup_nil, nofun, nofun, nofun⟩
  · simp
  · simp [untaken]

/-- A party gives up its ticket, if it has one, and takes none. -/
theorem leave (h : Balanced capacity s stakes) (hx : ∀ ticket, x ≠ .queued ticket)
    (hnodup : s'.tickets.Nodup) (hnext : s'.nextTicket = s.nextTicket)
    (hsub : ∀ ticket ∈ s'.tickets, ticket ∈ s.tickets ∧ stakes who ≠ .queued ticket)
    (hbalance : s'.untaken + (if x = .permit then 1 else 0) =
      s.untaken + if stakes who = .permit then 1 else 0) :
    Balanced capacity s' (Function.update stakes who x) := by
  have hcount := ncard_setOf_update (P := (· = Stake.permit)) h.finite who x
  have hold := h.balance
  have hqueued : ∀ {o ticket}, Function.update stakes who x o = .queued ticket →
      o ≠ who ∧ stakes o = .queued ticket := by
    intro o ticket ho
    by_cases heq : o = who
    · subst heq
      rw [Function.update_self] at ho
      exact absurd ho (hx ticket)
    · rw [Function.update_of_ne heq] at ho
      exact ⟨heq, ho⟩
  refine ⟨finite_setOf_update (P := (· = Stake.permit)) h.finite who x, ?_, hnodup, fun ticket hticket => ?_,
    fun o ticket ho => ?_, fun o other ticket ho hother => ?_⟩
  · show s'.untaken + {o | Function.update stakes who x o = .permit}.ncard = capacity
    omega
  · obtain ⟨hmem, hne⟩ := hsub ticket hticket
    obtain ⟨o, ho⟩ := h.owned ticket hmem
    have hother : o ≠ who := by
      rintro rfl
      exact hne ho
    exact ⟨o, (Function.update_of_ne hother ..).trans ho⟩
  · exact hnext ▸ h.known o ticket (hqueued ho).2
  · exact h.distinct o other ticket (hqueued ho).2 (hqueued hother).2

/-- A party without a ticket takes the next one. -/
theorem queue (h : Balanced capacity s stakes) (hwho : stakes who = .nothing)
    (hacquire : s.acquire = (.waiting ticket, s')) :
    Balanced capacity s' (Function.update stakes who (.queued ticket)) := by
  obtain ⟨huntaken, rfl, htickets, hnext⟩ := of_acquire_waiting hacquire
  have hcount := ncard_setOf_update (P := (· = Stake.permit)) h.finite who (.queued s.nextTicket)
  simp only [hwho, reduceCtorEq, if_false, Nat.add_zero] at hcount
  have hfresh : ∀ o, stakes o ≠ .queued s.nextTicket := fun o ho =>
    Nat.lt_irrefl _ (h.known o _ ho)
  have hcases : ∀ {o ticket}, Function.update stakes who (.queued s.nextTicket) o = .queued ticket →
      o = who ∧ ticket = s.nextTicket ∨ o ≠ who ∧ stakes o = .queued ticket := by
    intro o ticket ho
    by_cases heq : o = who
    · subst heq
      rw [Function.update_self] at ho
      exact .inl ⟨rfl, (Stake.queued.inj ho).symm⟩
    · rw [Function.update_of_ne heq] at ho
      exact .inr ⟨heq, ho⟩
  refine ⟨finite_setOf_update (P := (· = Stake.permit)) h.finite who _, ?_, ?_, fun ticket hticket => ?_, fun o ticket ho => ?_,
    fun o other ticket ho hother => ?_⟩
  · rw [huntaken, ← h.balance]
    exact congrArg _ hcount
  · rw [htickets]
    refine List.nodup_append.2 ⟨h.nodup, by simp, ?_⟩
    rintro a ha _ hb rfl
    obtain rfl := List.mem_singleton.1 hb
    obtain ⟨o, ho⟩ := h.owned _ ha
    exact hfresh o ho
  · rw [htickets] at hticket
    rcases List.mem_append.1 hticket with hold | hnew
    · obtain ⟨o, ho⟩ := h.owned ticket hold
      have hother : o ≠ who := by
        rintro rfl
        rw [hwho] at ho
        cases ho
      exact ⟨o, (Function.update_of_ne hother ..).trans ho⟩
    · obtain rfl := List.mem_singleton.1 hnew
      exact ⟨who, Function.update_self ..⟩
  · rw [hnext]
    rcases hcases ho with ⟨-, rfl⟩ | ⟨-, hold⟩
    · exact Nat.lt_succ_self _
    · exact Nat.lt_succ_of_lt (h.known o ticket hold)
  · rcases hcases ho with ⟨rfl, rfl⟩ | ⟨-, hold⟩
    · rcases hcases hother with ⟨rfl, -⟩ | ⟨-, hold'⟩
      · rfl
      · exact absurd hold' (hfresh other)
    · rcases hcases hother with ⟨-, rfl⟩ | ⟨-, hold'⟩
      · exact absurd hold (hfresh o)
      · exact h.distinct o other ticket hold hold'

/-- **After every deal of any party the books balance.** -/
theorem deal (h : Balanced capacity s stakes) (hdeal : Deal s (stakes who) s' x) :
    Balanced capacity s' (Function.update stakes who x) := by
  generalize hwho : stakes who = before at hdeal
  cases hdeal with
  | acquire hacquire =>
    obtain ⟨huntaken, htickets, hnext⟩ := of_acquire_taken hacquire
    refine h.leave nofun (htickets ▸ h.nodup) hnext (fun ticket hticket => ⟨htickets ▸ hticket, ?_⟩) ?_
    · rw [hwho]
      exact nofun
    · simp [hwho, huntaken]
  | queue hacquire => exact h.queue hwho hacquire
  | @collect _ ticket hcollect =>
    obtain ⟨huntaken, htickets, hnext⟩ := of_collect_taken hcollect
    refine h.leave nofun (htickets ▸ h.nodup.erase ticket) hnext (fun t ht => ?_) ?_
    · rw [htickets, h.nodup.mem_erase_iff] at ht
      refine ⟨ht.2, ?_⟩
      rw [hwho]
      exact fun heq => ht.1 (Stake.queued.inj heq).symm
    · simp [hwho, huntaken]
  | abandon ticket =>
    have htickets := s.tickets_abandon ticket
    refine h.leave nofun (htickets.nodup_iff.2 (h.nodup.erase ticket)) (s.nextTicket_abandon ticket)
      (fun t ht => ?_) ?_
    · rw [htickets.mem_iff, h.nodup.mem_erase_iff] at ht
      refine ⟨ht.2, ?_⟩
      rw [hwho]
      exact fun heq => ht.1 (Stake.queued.inj heq).symm
    · simp [hwho, s.untaken_abandon]
  | release =>
    have htickets := s.tickets_release
    refine h.leave nofun (htickets.nodup_iff.2 h.nodup) s.nextTicket_release
      (fun t ht => ⟨htickets.mem_iff.1 ht, ?_⟩) ?_
    · rw [hwho]
      exact nofun
    · simp [hwho, s.untaken_release]

/-- Closing refuses all who wait, and makes or loses no permit. -/
theorem close (h : Balanced capacity s stakes) : Balanced capacity s.close stakes where
  finite := h.finite
  balance := h.balance
  nodup := h.nodup.sublist ((List.Sublist.refl _).append (List.nil_sublist _))
  owned ticket hticket := h.owned ticket (List.mem_append_left _ (by simpa [tickets, Semaphore.close] using hticket))
  known := h.known
  distinct := h.distinct

/-- At most as many parties have a permit as there are permits. -/
theorem ncard_le (h : Balanced capacity s stakes) : {who | stakes who = .permit}.ncard ≤ capacity := by
  have := h.balance
  omega

/-- **If nobody has a stake, all permits are free.** -/
theorem free_eq (h : Balanced capacity s stakes) (hnone : ∀ who, stakes who = .nothing) :
    s.free = capacity := by
  have hgranted : s.granted = [] := by
    refine List.eq_nil_iff_forall_not_mem.2 fun ticket hticket => ?_
    obtain ⟨who, hwho⟩ := h.owned ticket (List.mem_append_left _ hticket)
    rw [hnone who] at hwho
    cases hwho
  have hbalance := h.balance
  simpa [hnone, untaken, hgranted] using hbalance

end Balanced
end Semaphore
end SlotRouter
