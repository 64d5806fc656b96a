import SlotRouter.Proofs.Coalescing

/-!
# Nobody waits in a circle

A pool lends a permit to each of its borrowers, and the lock is one permit for refreshes. A refresh that has
the lock borrows from the very pools that the invocations borrow from, so invocations and refreshes wait for
each other. They never do so in a circle (`System.no_circular_waiting`): whoever has a permit of a pool waits
for nothing, so all waiting ends there, and whoever has the lock waits at most for a permit.

To have a permit is to have picked it up, or to have a ticket to which it has been granted. That these are all
who have one is said by the books: together with the permits that nobody has they are as many as there were at
the start.

Key definitions: `System.Holds`, `System.Waits`, `System.WaitsFor`, `System.rank`. Key theorems:
`Semaphore.Balanced.free_add_ncard`, `System.rank_lt`, `System.no_circular_waiting`.
-/

namespace SlotRouter

variable {N α : Type}

/-! ### One semaphore -/

namespace Semaphore

namespace Stake

/-- The party has a permit, be it that its ticket has been granted one. -/
def Has (s : Semaphore) : Stake → Prop
  | .permit => True
  | .queued ticket => ticket ∈ s.granted
  | .nothing => False

/-- The party has a ticket, and that has not been granted a permit. -/
def Waits (s : Semaphore) : Stake → Prop
  | .queued ticket => ticket ∉ s.granted
  | .permit | .nothing => False

instance (s : Semaphore) (x : Stake) : Decidable (x.Waits s) :=
  match x with
  | .queued ticket => inferInstanceAs (Decidable (ticket ∉ s.granted))
  | .permit | .nothing => isFalse id

variable {s : Semaphore} {x : Stake}

theorem Has.not_waits (h : x.Has s) : ¬x.Waits s := by
  cases x with
  | queued ticket => exact fun hwaits => hwaits h
  | permit => exact id
  | nothing => exact h.elim

theorem Has.ne_nothing (h : x.Has s) : x ≠ .nothing := by
  rintro rfl
  exact h

theorem Waits.ne_nothing (h : x.Waits s) : x ≠ .nothing := by
  rintro rfl
  exact h

theorem Waits.exists_ticket (h : x.Waits s) : ∃ ticket, x = .queued ticket := by
  cases x with
  | queued ticket => exact ⟨ticket, rfl⟩
  | permit | nothing => exact h.elim

/-- The ticket of a party that has one. -/
def ticket : Stake → Nat
  | .queued ticket => ticket
  | .permit | .nothing => 0

end Stake

variable {capacity : Nat} {s : Semaphore} {stakes : Nat → Stake}

/-- Those whose tickets have been granted a permit that they have not picked up. -/
def grantees (s : Semaphore) (stakes : Nat → Stake) : Set Nat :=
  {who | ∃ ticket ∈ s.granted, stakes who = .queued ticket}

/-- They are as many as these tickets: each of them has one ticket, and no two have the same. -/
theorem Balanced.ncard_grantees (h : Balanced capacity s stakes) :
    (s.grantees stakes).Finite ∧ (s.grantees stakes).ncard = s.granted.length := by
  have hinj : Set.InjOn (fun who => (stakes who).ticket) (s.grantees stakes) := by
    rintro who ⟨ticket, -, hwho⟩ other ⟨ticket', -, hother⟩ heq
    have hsame : ticket = ticket' := by
      simpa only [hwho, hother, Stake.ticket] using heq
    subst hsame
    exact h.distinct who other ticket hwho hother
  have himage : (fun who => (stakes who).ticket) '' s.grantees stakes = (s.granted.toFinset : Set Nat) := by
    ext ticket
    rw [List.coe_toFinset]
    constructor
    · rintro ⟨who, ⟨ticket', hgranted, hwho⟩, rfl⟩
      show (stakes who).ticket ∈ s.granted
      rw [hwho]
      exact hgranted
    · intro hgranted
      obtain ⟨who, hwho⟩ := h.owned ticket (List.mem_append_left _ hgranted)
      exact ⟨who, ⟨ticket, hgranted, hwho⟩, congrArg Stake.ticket hwho⟩
  have hnodup : s.granted.Nodup := (List.nodup_append.1 h.nodup).1
  refine ⟨Set.Finite.of_finite_image (himage ▸ Finset.finite_toSet _) hinj, ?_⟩
  rw [← hinj.ncard_image, himage, Set.ncard_coe_finset, List.toFinset_card_of_nodup hnodup]

/-- **Those who have a permit, and the permits that nobody has, are as many as there are permits.** -/
theorem Balanced.free_add_ncard (h : Balanced capacity s stakes) :
    {who | (stakes who).Has s}.Finite ∧ s.free + {who | (stakes who).Has s}.ncard = capacity := by
  obtain ⟨hfinite, hcount⟩ := h.ncard_grantees
  have hsplit : {who | (stakes who).Has s} = {who | stakes who = .permit} ∪ s.grantees stakes := by
    ext who
    show (stakes who).Has s ↔ stakes who = .permit ∨ ∃ ticket ∈ s.granted, stakes who = .queued ticket
    cases stakes who <;> simp [Stake.Has]
  have hdisjoint : Disjoint {who | stakes who = .permit} (s.grantees stakes) := by
    refine Set.disjoint_left.2 ?_
    rintro who hpermit ⟨ticket, -, hqueued⟩
    cases hqueued.symm.trans hpermit
  have hbalance := h.balance
  rw [untaken] at hbalance
  rw [hsplit, Set.ncard_union_eq hdisjoint h.finite hfinite, hcount]
  refine ⟨h.finite.union hfinite, ?_⟩
  omega

/-- A ticket in the queue is the ticket of somebody who waits. -/
theorem Balanced.exists_waits (h : Balanced capacity s stakes) {ticket : Nat} (hticket : ticket ∈ s.queue) :
    ∃ who, stakes who = .queued ticket ∧ (stakes who).Waits s := by
  obtain ⟨who, hwho⟩ := h.owned ticket (List.mem_append_right _ hticket)
  refine ⟨who, hwho, ?_⟩
  rw [hwho]
  intro hgranted
  exact (List.nodup_append.1 h.nodup).2.2 ticket hgranted ticket hticket rfl

end Semaphore

/-! ### Who queues for the lock -/

/-- A refresh that queues for the lock has come to no pool. -/
theorem Refresh.pool?_eq_none {r : Refresh} {ticket : Nat} (h : r.footing.lock = .queued ticket) :
    r.footing.pool? = none := by
  cases r with
  | entering | queued => rfl
  | discovering d =>
    cases d with
    | borrowing node nodes seeds b =>
      have hlock : (b.footing .permit).lock = .queued ticket := h
      rw [b.lock_footing] at hlock
      cases hlock
    | querying | dialling | asking => cases h

/-- Whoever queues for the lock has come to no pool. -/
theorem Activity.pool?_eq_none {a : Activity α} {ticket : Nat} (h : a.footing.lock = .queued ticket) :
    a.footing.pool? = none := by
  rcases a with ⟨inv, r | ⟨id, asking, b⟩ | wake | r⟩ | r
  · exact Refresh.pool?_eq_none h
  · cases b with
    | borrowing asking b =>
      have hlock : (b.footing .nothing).lock = .queued ticket := h
      rw [b.lock_footing] at hlock
      cases hlock
    | announcing | running | resting => cases h
  · cases h
  · exact Refresh.pool?_eq_none h
  · exact Refresh.pool?_eq_none h

/-! ### Permits, the lock, and who waits for whom -/

/-- What callers wait for. -/
inductive Resource where
  /-- A permit of a pool. -/
  | permit (pool : PoolId)
  | lock

/-- What can wait, or be waited for. -/
inductive Party where
  | caller (who : Nat)
  | resource (r : Resource)

namespace System

/-- The semaphore that hands out the resource. -/
def semaphore (s : System N α) : Resource → Semaphore
  | .permit id => (s.world.pool id).permits
  | .lock => s.world.topology.refreshLock

/-- How many permits it has to hand out. -/
def capacity (s : System N α) : Resource → Nat
  | .permit id => (s.world.pool id).capacity
  | .lock => 1

/-- The pool has been made; the lock is always there. -/
def IsMade (s : System N α) : Resource → Prop
  | .permit id => id < s.world.topology.pools.length
  | .lock => True

/-- What the caller has of that semaphore. -/
def stake (s : System N α) (who : Nat) : Resource → Semaphore.Stake
  | .permit id => ((s.footing who).stake id).permits
  | .lock => (s.footing who).lock

/-- The caller has a permit of the pool, or the lock. -/
def Holds (s : System N α) (who : Nat) (r : Resource) : Prop := (s.stake who r).Has (s.semaphore r)

/-- The caller waits for a permit of the pool, or for the lock. -/
def Waits (s : System N α) (who : Nat) (r : Resource) : Prop := (s.stake who r).Waits (s.semaphore r)

instance (s : System N α) (who : Nat) (r : Resource) : Decidable (s.Waits who r) :=
  inferInstanceAs (Decidable ((s.stake who r).Waits (s.semaphore r)))

/-- A caller waits for what it waits for, and that is waited for at those who have it. -/
inductive WaitsFor (s : System N α) : Party → Party → Prop where
  | waits {who : Nat} {r : Resource} (h : s.Waits who r) : WaitsFor s (.caller who) (.resource r)
  | held {who : Nat} {r : Resource} (h : s.Holds who r) : WaitsFor s (.resource r) (.caller who)

/-- How far a party can be from the end of all waiting. -/
def rank (s : System N α) : Party → Nat
  | .resource (.permit _) => 1
  | .resource .lock => 3
  | .caller who =>
    match (s.footing who).pool? with
    | some (id, _) => if s.Waits who (.permit id) then 2 else 0
    | none => if s.Waits who .lock then 4 else 0

variable {s : System N α} {who : Nat} {id other : PoolId} {r : Resource}

/-! ### What goes together, and what does not -/

/-- Nobody waits for what he has. -/
theorem Holds.not_waits_self (h : s.Holds who r) : ¬s.Waits who r := Semaphore.Stake.Has.not_waits h

/-- A caller with a stake in the permits of a pool has come to that pool. -/
theorem pool?_eq_some (h : s.stake who (.permit id) ≠ .nothing) :
    (s.footing who).pool? = some (id, (s.footing who).stake id) := by
  have hnone : ¬∀ x, (s.footing who).pool? ≠ some (id, x) := by
    intro hnot
    refine h ?_
    show ((s.footing who).stake id).permits = .nothing
    rw [Footing.stake_of_ne hnot]
    rfl
  obtain ⟨x, hx⟩ := not_forall_not.1 hnone
  rw [hx, Footing.stake, hx]
  exact congrArg (fun y => some (id, y)) (if_pos rfl).symm

theorem Holds.pool? (h : s.Holds who (.permit id)) :
    (s.footing who).pool? = some (id, (s.footing who).stake id) :=
  pool?_eq_some (Semaphore.Stake.Has.ne_nothing h)

theorem Waits.pool? (h : s.Waits who (.permit id)) :
    (s.footing who).pool? = some (id, (s.footing who).stake id) :=
  pool?_eq_some (Semaphore.Stake.Waits.ne_nothing h)

/-- Whoever queues for the lock has come to no pool. -/
theorem pool?_eq_none {ticket : Nat} (h : (s.footing who).lock = .queued ticket) : (s.footing who).pool? = none := by
  unfold footing at h ⊢
  cases ha : s.active who with
  | none => rfl
  | some a =>
    rw [ha] at h
    exact Activity.pool?_eq_none h

theorem Waits.pool?_eq_none (h : s.Waits who .lock) : (s.footing who).pool? = none := by
  obtain ⟨ticket, hticket⟩ := Semaphore.Stake.Waits.exists_ticket h
  exact System.pool?_eq_none hticket

/-- A caller has a permit of one pool at most. -/
theorem Holds.permit_unique (h : s.Holds who (.permit id)) (h' : s.Holds who (.permit other)) : id = other := by
  have hsame := h.pool?.symm.trans h'.pool?
  exact (Prod.mk.inj (Option.some.inj hsame)).1

/-- **Whoever has a permit waits for nothing.** -/
theorem Holds.not_waits (h : s.Holds who (.permit id)) (r : Resource) : ¬s.Waits who r := by
  intro hwaits
  cases r with
  | permit other =>
    have hsame := h.pool?.symm.trans hwaits.pool?
    obtain rfl : id = other := (Prod.mk.inj (Option.some.inj hsame)).1
    exact h.not_waits_self hwaits
  | lock =>
    have hnone := hwaits.pool?_eq_none
    rw [h.pool?] at hnone
    cases hnone

/-- **Whoever has the lock waits at most for a permit**, and then it searches. -/
theorem Holds.searches (h : s.Holds who .lock) (hwaits : s.Waits who r) :
    s.Searches who ∧ ∃ id, r = .permit id := by
  cases r with
  | lock => exact absurd hwaits h.not_waits_self
  | permit id =>
    refine ⟨?_, id, rfl⟩
    cases hlock : (s.footing who).lock with
    | permit => exact lock_eq_permit.1 hlock
    | queued ticket =>
      have hnone := System.pool?_eq_none hlock
      rw [hwaits.pool?] at hnone
      cases hnone
    | nothing => exact absurd hlock (Semaphore.Stake.Has.ne_nothing h)

/-- Whoever pauses has nothing, and waits for nothing. -/
theorem idle_of_pausing {inv : Invocation α} {wake : Nat} (h : s.active who = some (.invoking inv (.pausing wake)))
    (r : Resource) : ¬s.Holds who r ∧ ¬s.Waits who r := by
  have hfooting : s.footing who = .off .nothing := by
    rw [footing, h]
    rfl
  have hstake : s.stake who r = .nothing := by
    cases r with
    | permit id =>
      rw [stake, hfooting]
      rfl
    | lock => rw [stake, hfooting]
  exact ⟨fun hholds => Semaphore.Stake.Has.ne_nothing hholds hstake,
    fun hwaits => Semaphore.Stake.Waits.ne_nothing hwaits hstake⟩

/-! ### Along the waiting the rank goes down -/

/-- **Whoever waits has a higher rank than what it waits for**, and that a higher one than those who have it. -/
theorem rank_lt {x y : Party} (h : s.WaitsFor x y) : s.rank y < s.rank x := by
  cases h with
  | @waits who r h =>
    cases r with
    | permit id =>
      have hrank : s.rank (.caller who) = 2 := by
        simp only [rank, h.pool?]
        exact if_pos h
      rw [hrank]
      exact Nat.lt_succ_self 1
    | lock =>
      have hrank : s.rank (.caller who) = 4 := by
        simp only [rank, h.pool?_eq_none]
        exact if_pos h
      rw [hrank]
      exact Nat.lt_succ_self 3
  | @held who r h =>
    cases r with
    | permit id =>
      have hrank : s.rank (.caller who) = 0 := by
        simp only [rank, h.pool?]
        exact if_neg h.not_waits_self
      rw [hrank]
      exact Nat.zero_lt_one
    | lock =>
      have hrank : s.rank (.caller who) ≤ 2 := by
        unfold rank
        dsimp only
        split
        · split_ifs <;> omega
        · rw [if_neg h.not_waits_self]
          exact Nat.zero_le 2
      exact Nat.lt_succ_of_le hrank

theorem rank_lt_of_transGen {x y : Party} (h : Relation.TransGen s.WaitsFor x y) : s.rank y < s.rank x := by
  induction h with
  | single h => exact rank_lt h
  | tail _ h ih => exact (rank_lt h).trans ih

variable [Network N] {setup : Setup}

/-- The books of each resource balance. -/
theorem Arises.semaphore_balanced (hs : s.Arises setup) (hmade : s.IsMade r) :
    (s.semaphore r).Balanced (s.capacity r) fun who => s.stake who r := by
  cases r with
  | permit id => exact (hs.balanced.pools id hmade).permits
  | lock => exact hs.balanced.lock

/-- **Nobody waits in a circle.** In every state that arises the callers who have a permit of a pool are, with
the permits that nobody has, as many as the pool may lend, and in the same way one caller at most has the lock;
and whoever stands in a queue is a caller who waits. A caller has a permit of one pool at most. Whoever has one
waits for nothing, neither for another permit nor for the lock, and is not pausing; whoever has the lock and
waits for something searches, and waits for a permit. So no caller, no permit and not the lock waits for itself,
over however many others. -/
theorem no_circular_waiting (hs : s.Arises setup) :
    (∀ r, s.IsMade r → {who | s.Holds who r}.Finite ∧
      (s.semaphore r).free + {who | s.Holds who r}.ncard = s.capacity r ∧
      ∀ ticket ∈ (s.semaphore r).queue, ∃ who, s.stake who r = .queued ticket ∧ s.Waits who r) ∧
    (∀ who id other, s.Holds who (.permit id) → s.Holds who (.permit other) → id = other) ∧
    (∀ who id, s.Holds who (.permit id) → (∀ r, ¬s.Waits who r) ∧
      ∀ inv wake, s.active who ≠ some (.invoking inv (.pausing wake))) ∧
    (∀ who r, s.Holds who .lock → s.Waits who r → s.Searches who ∧ ∃ id, r = .permit id) ∧
    ∀ x, ¬Relation.TransGen s.WaitsFor x x := by
  refine ⟨fun r hmade => ?_, fun who id other h h' => h.permit_unique h', fun who id h => ⟨h.not_waits, ?_⟩,
    fun who r h hwaits => h.searches hwaits, fun x hcycle => ?_⟩
  · have hbalanced := hs.semaphore_balanced hmade
    obtain ⟨hfinite, hcount⟩ := hbalanced.free_add_ncard
    exact ⟨hfinite, hcount, fun ticket hticket => hbalanced.exists_waits hticket⟩
  · intro inv wake hpausing
    exact (idle_of_pausing hpausing _).1 h
  · exact Nat.lt_irrefl _ (rank_lt_of_transGen hcycle)

end System

namespace Atlas

/-- A client that knows nothing and may have one link to a node. -/
def cramped : System Atlas Unit where
  world := { topology := .fresh { Topology.bare with pool := { maxConnections := 1 } }, net := { net := {} } }
  active _ := none

/-- An invocation has the only permit, a refresh that has the lock waits for it, and another refresh waits for
the lock. -/
def jammed : System Atlas Unit :=
  [.start 0 Prompt.ping, .turn 0, .start 1 .refresh, .turn 1, .turn 1, .start 2 .refresh, .turn 2].foldl System.step
    (cramped.operate (.obtain "a:1"))

theorem arises_jammed : jammed.Arises { Topology.bare with pool := { maxConnections := 1 } } := by
  have hcramped : cramped.Arises { Topology.bare with pool := { maxConnections := 1 } } := .start rfl fun _ => rfl
  exact (hcramped.operate (.obtain "a:1")).foldl _

/-- The second refresh waits for the first, and that for the invocation, which waits for nobody. -/
theorem no_circular_waiting_jammed :
    jammed.Arises { Topology.bare with pool := { maxConnections := 1 } } ∧
    jammed.WaitsFor (.caller 2) (.resource .lock) ∧ jammed.WaitsFor (.resource .lock) (.caller 1) ∧
    jammed.WaitsFor (.caller 1) (.resource (.permit 0)) ∧ jammed.WaitsFor (.resource (.permit 0)) (.caller 0) ∧
    jammed.Searches 1 ∧ (∀ r, ¬jammed.Waits 0 r) ∧
    ∀ x, ¬Relation.TransGen jammed.WaitsFor x x := by
  have hlock : jammed.Waits 2 .lock := by with_unfolding_all exact (nofun : (0 : Nat) ∉ ([] : List Nat))
  have hlocked : jammed.Holds 1 .lock := by with_unfolding_all exact trivial
  have hpermit : jammed.Waits 1 (.permit 0) := by with_unfolding_all exact (nofun : (0 : Nat) ∉ ([] : List Nat))
  have hlent : jammed.Holds 0 (.permit 0) := by with_unfolding_all exact trivial
  obtain ⟨-, -, hholder, hsearches, hcircle⟩ := System.no_circular_waiting arises_jammed
  exact ⟨arises_jammed, .waits hlock, .held hlocked, .waits hpermit, .held hlent,
    (hsearches 1 _ hlocked hpermit).1, (hholder 0 0 hlent).1, hcircle⟩

end Atlas
end SlotRouter
