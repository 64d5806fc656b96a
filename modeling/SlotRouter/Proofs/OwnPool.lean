import Mathlib
import SlotRouter.Proofs.Asking
import SlotRouter.Proofs.Course

/-!
# An attempt and the pools

An attempt borrows from one pool, and to that pool goes back what it has borrowed: of all the pools its turns
change that one only (`Attempt.within_turn`), and so does giving it up. The attempt that is under way in
an invocation is one on the pool that the invocation has chosen (`Course.attempt_on`). At the head of
the loop no pool changes at all unless `ASK` has named a node (`Invocation.next_untouched`).

Key definition: `World.Within`.
-/

namespace SlotRouter

variable {N α : Type}

/-- Of all the pools only one has changed. -/
def World.Within (id : PoolId) (w w' : World N) : Prop := ∀ other, other ≠ id → w'.pool other = w.pool other

namespace World.Within

variable {id : PoolId} {w w' w'' : World N}

theorem refl (w : World N) : Within id w w := fun _ _ => rfl

theorem trans (h : Within id w w') (h' : Within id w' w'') : Within id w w'' := fun other hother =>
  (h' other hother).trans (h other hother)

theorem of_topology (h : w'.topology = w.topology) : Within id w w' := fun other _ =>
  congrArg (fun t => Topology.pool t other) h

theorem modifyPool (w : World N) (id : PoolId) (f : Pool → Pool) : Within id w (w.modifyPool id f) := by
  intro other hother
  refine (Topology.pool_modifyPool w.topology id other f).trans (if_neg ?_)
  exact fun h => hother h.1.symm

end World.Within

open World (Within)

variable {id : PoolId} {asking : Bool}

namespace Borrow

theorem within_drop (w : World N) (b : Borrow) : Within b.pool w (b.drop w) := by
  cases b with
  | entering id => exact .refl w
  | queued id ticket deadline => exact .modifyPool w id _
  | dialling id d => exact .modifyPool w id _

variable [Network N]

theorem within_permitted (w : World N) (id : PoolId) : Within id w (permitted w id).1 := by
  unfold permitted
  rcases (w.pool id).takeIdle with ⟨_ | link, p⟩
  · have hdial : Within id (w.modifyPool id fun _ => p) ((w.modifyPool id fun _ => p).dial p.address).1 :=
      .of_topology rfl
    exact (Within.modifyPool w id _).trans hdial
  · exact .modifyPool w id _

/-- **A turn of a borrower changes one pool at most.** -/
theorem within_turn (w : World N) (b : Borrow) : Within b.pool w (b.turn w).1 := by
  cases b with
  | entering id =>
    simp only [turn]
    split_ifs
    · exact .refl w
    · split
      · exact .refl w
      · exact (Within.modifyPool w id _).trans (within_permitted _ id)
      · exact .modifyPool w id _
  | queued id ticket deadline =>
    simp only [turn]
    split
    · exact .modifyPool w id _
    · exact (Within.modifyPool w id _).trans (within_permitted _ id)
    · split_ifs
      · exact within_drop w (.queued id ticket deadline)
      · exact .refl w
  | dialling id d =>
    simp only [turn]
    rcases hd : w.dialOn d with ⟨w', _ | d' | e | link⟩ <;>
      have hsame : Within id w w' := .of_topology (World.topology_dialOn hd)
    · exact hsame
    · exact hsame
    · exact hsame.trans (.modifyPool w' id _)
    · exact hsame

end Borrow

namespace Attempt

variable {a : Attempt}

/-- **To give an attempt up changes its pool at most.** -/
theorem within_drop (hon : a.On id asking) (w : World N) : Within id w (a.drop w) := by
  cases a with
  | borrowing asks b =>
    obtain ⟨-, rfl⟩ := hon
    exact b.within_drop w
  | announcing pool x =>
    obtain ⟨rfl, -⟩ := hon
    exact .modifyPool w pool _
  | running pool heard p =>
    obtain rfl : pool = id := hon
    exact .modifyPool w pool _
  | resting pool heard link wake =>
    obtain rfl : pool = id := hon
    exact .modifyPool w pool _

theorem within_proceed (w : World N) (body : Body α) (started : Nat) (id : PoolId) (link : Link)
    (heard : List Patience.Heard) : Within id w (proceed w body started id link heard).1 := by
  unfold proceed
  split
  · exact .refl w
  · exact .refl w
  · exact .modifyPool w id _

variable [Network N]

/-- **A turn of an attempt changes its pool at most.** -/
theorem within_turn (hon : a.On id asking) (w : World N) (body : Body α) (started : Nat) :
    Within id w (a.turn w body started).1 := by
  cases a with
  | borrowing asks b =>
    obtain ⟨-, rfl⟩ := hon
    have hwithin := b.within_turn w
    have hstays := b.stays_turn w
    simp only [turn]
    rcases hb : b.turn w with ⟨w', _ | b' | e | loan⟩ <;> rw [hb] at hwithin hstays
    · exact hwithin
    · exact hwithin
    · exact hwithin
    · dsimp only
      split_ifs
      · exact hwithin
      · have hproceed := within_proceed w' body started loan.pool loan.link []
        have hpool : loan.pool = b.pool := hstays
        rw [hpool] at hproceed ⊢
        exact hwithin.trans hproceed
  | announcing pool x =>
    obtain ⟨rfl, -⟩ := hon
    simp only [turn]
    rcases hx : w.exchange x with ⟨w', _ | x' | ⟨link, e | f⟩⟩ <;>
      have hsame : Within pool w w' := .of_topology (World.topology_exchange hx)
    · exact hsame
    · exact hsame
    · exact hsame.trans (.modifyPool w' pool _)
    · exact hsame.trans (within_proceed w' body started pool link [])
  | running pool heard p =>
    obtain rfl : pool = id := hon
    have hsame : Within pool w (p.turn w).1 := .of_topology (topology_patience w p)
    simp only [turn]
    rcases hp : p.turn w with ⟨w', _ | p' | ⟨link, answer⟩⟩ <;> rw [hp] at hsame
    · exact hsame
    · exact hsame
    · exact hsame.trans (within_proceed w' body started pool link _)
  | resting pool heard link wake =>
    obtain rfl : pool = id := hon
    simp only [turn]
    split_ifs
    · exact within_proceed w body started pool link _
    · exact .refl w

/-- The deadline, too, changes the pool of the attempt at most. -/
theorem within_attemptUntil (hon : a.On id asking) (deadline : Nat) (w : World N) (body : Body α) (started : Nat) :
    Within id w (Invocation.attemptUntil deadline w body started a).1 := by
  have hwithin := within_turn hon w body started
  unfold Invocation.attemptUntil
  rcases ha : a.turn w body started with ⟨w', _ | a' | ended⟩ <;> rw [ha] at hwithin
  · dsimp only
    split_ifs
    · exact hwithin.trans (within_drop hon w')
    · exact hwithin
  · exact hwithin
  · exact hwithin

end Attempt

/-! ### Invocations -/

namespace Invocation

variable {w : World N} {inv : Invocation α}

/-- To choose a node touches neither the pools nor the network. -/
theorem choose_untouched (w : World N) (slot : Option UInt16) :
    (∀ other, (choose w slot).2.pool other = w.pool other) ∧ (choose w slot).2.net = w.net := by
  cases slot <;> exact ⟨fun _ => rfl, rfl⟩

/-- At the head of the loop the pools and the network stay as they are, unless `ASK` has named a node. -/
theorem next_untouched (w : World N) (inv : Invocation α) :
    (∀ other, (inv.next w none).1.pool other = w.pool other) ∧ (inv.next w none).1.net = w.net := by
  have hchoose := choose_untouched w inv.slot
  unfold next
  split_ifs
  · exact ⟨fun _ => rfl, rfl⟩
  · split
    · exact ⟨fun _ => rfl, rfl⟩
    · dsimp only
      rcases hc : choose w inv.slot with ⟨_ | id, w'⟩ <;> rw [hc] at hchoose <;> exact hchoose

/-- **A connection failure drops the idle links of its pool and touches nothing else**: whatever comes next, in
this turn the other pools and the network stay as they are. -/
theorem recover_spec (w : World N) (inv : Invocation α) (id : PoolId) (e : Error) :
    (inv.recover w (some id) e).1.pool id = (w.pool id).invalidate ∧
      Within id w (inv.recover w (some id) e).1 ∧ (inv.recover w (some id) e).1.net = w.net := by
  have hpool : (w.modifyPool id Pool.invalidate).pool id = (w.pool id).invalidate := by
    refine (Topology.pool_modifyPool w.topology id id Pool.invalidate).trans ?_
    by_cases hid : id < w.topology.pools.length
    · exact if_pos ⟨rfl, hid⟩
    · have hdefault : w.pool id = default := Topology.pool_eq_default hid
      rw [if_neg fun h => hid h.2]
      show w.pool id = (w.pool id).invalidate
      rw [hdefault]
      rfl
  have hwithin : Within id w (w.modifyPool id Pool.invalidate) := .modifyPool w id _
  unfold recover invalidate
  dsimp only
  split_ifs
  · obtain ⟨hpools, hnet⟩ := next_untouched (w.modifyPool id Pool.invalidate)
      { inv with failures := inv.failures + 1, lastError := some e }
    exact ⟨(hpools id).trans hpool, fun other hother => (hpools other).trans (hwithin other hother), hnet⟩
  · exact ⟨hpool, hwithin, rfl⟩

/-- What is done in an attempt, its end included, changes the pool of the attempt at most. -/
theorem within_stageTurn [Network N] {a : Attempt} (hon : a.On id asking) (w : World N) (inv : Invocation α) :
    Within id w (inv.stageTurn w (.attempting id asking a)).1 := by
  have hwithin := Attempt.within_attemptUntil hon inv.budget.deadline w inv.body inv.started
  simp only [stageTurn]
  rcases hturn : attemptUntil inv.budget.deadline w inv.body inv.started a with ⟨w', _ | a' | ended⟩ <;>
    rw [hturn] at hwithin <;> exact hwithin

end Invocation

namespace Course

variable [Network N] {between : Surroundings N α} {job : Job α} {begun : Nat} {sights : List (Sight α)}
    {w : World N} {inv : Invocation α} {a : Attempt}

/-- The attempt under way keeps to the pool that was chosen for it. -/
theorem attempt_on (h : Course between job begun sights w (.busy inv (.attempting id asking a))) : a.On id asking := by
  generalize hp : Progress.busy inv (.attempting id asking a) = p at h
  induction h generalizing inv a id asking with
  | @start w w' inv' stage now h =>
    obtain ⟨rfl, rfl⟩ := Progress.busy.inj hp
    have hstep := job.start_step w
    rw [h] at hstep
    rw [hstep.attempt_eq rfl]
    exact ⟨rfl, rfl⟩
  | refused => cases hp
  | @turn sights w inv' stage h ih =>
    have hstep := inv'.turn_step w stage
    generalize inv'.turn w stage = r at hp hstep
    cases hstep with
    | waits => exact ih hp
    | goes w' hgoes =>
      obtain ⟨rfl, rfl⟩ := Progress.busy.inj hp
      cases hgoes with
      | attempting _ _ hrunning => exact Attempt.on_turn (ih rfl) hrunning
    | ends kind hafter =>
      rcases r with ⟨w', _ | ⟨inv'', stage'⟩ | result⟩
      · exact absurd rfl hafter.ne_blocked
      · obtain ⟨rfl, rfl⟩ := Progress.busy.inj hp
        rw [hafter.attempt_eq rfl]
        exact ⟨rfl, rfl⟩
      · cases hp
  | wait h others ih => exact ih hp

end Course
end SlotRouter
