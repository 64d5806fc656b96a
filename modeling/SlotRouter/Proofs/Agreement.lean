import Mathlib
import SlotRouter.Proofs.History
import SlotRouter.Proofs.Lending
import SlotRouter.Proofs.OwnReplies

/-!
# A client from its start

A client that begins with nothing known is used by any number of callers, in any order, and layouts
are also installed, slots moved and nodes registered by hand. In every state that arises so
(`System.Arises`) the registry and the slot table agree, and a layout that is installed leaves
registered what it names and nothing else; and every connection is in one place.

Key definition: `System.Arises`. Key theorems: `System.change_step`, `System.Arises.agrees`,
`System.Arises.placed`, `System.registry_and_table_agree`.
-/

namespace SlotRouter

open List

variable {N α : Type}

namespace Activity

theorem change_start (w : World N) (request : Request α) :
    w.topology.Change (start w request).1.topology := by
  cases request with
  | invoke policy body slot deadline => exact .quiet (Invocation.quiet_next w _)
  | refresh => exact .quiet (.refl _)

theorem quiet_drop (w : World N) (a : Activity α) : w.topology.Quiet (a.drop w).topology := by
  cases a with
  | invoking inv stage =>
    cases stage with
    | resolving r | refreshing r => exact r.quiet_drop w
    | attempting id asking a => exact a.quiet_drop w
    | pausing wake => exact .refl _
  | refreshing r => exact r.quiet_drop w

theorem change_turn [Network N] (w : World N) (a : Activity α) :
    w.topology.Change (a.turn w).1.topology := by
  cases a with
  | invoking inv stage => exact inv.change_turn w stage
  | refreshing r => exact r.change_turn w

end Activity

/-- No operation on a topology makes a link idle. -/
theorem Topology.idle_apply (t : Topology) (op : Operation) : (t.apply op).idle <+ t.idle := by
  cases op with
  | install ranges =>
    unfold Topology.apply
    dsimp only
    split
    · rename_i ht
      exact idle_install ht
    · exact List.Sublist.refl _
  | move slot address =>
    show (t.move slot.toNat address).2.idle <+ t.idle
    rw [idle_move]
  | obtain address =>
    show (t.obtain address).2.idle <+ t.idle
    rw [idle_obtain]
  | close => exact idle_close t

namespace System

variable [Network N] {setup : Setup} {s : System N α}

/-- **An event does one thing to the topology**, or nothing. -/
theorem change_step (s : System N α) (e : Event N α) :
    s.world.topology.Change (s.step e).world.topology := by
  cases e with
  | start who request =>
    simp only [step]
    split
    · exact Activity.change_start (s.seenBy who) request
    · exact .quiet (.refl _)
  | turn who =>
    simp only [step]
    split
    · exact .quiet (.refl _)
    · exact Activity.change_turn (s.seenBy who) _
  | drop who =>
    simp only [step]
    split
    · exact .quiet (.refl _)
    · exact .quiet (Activity.quiet_drop (s.seenBy who) _)
  | elapse duration => exact .quiet (.refl _)
  | stir net => exact .quiet (.refl _)
  | close => exact .closed (.refl _) (.refl _)

/-- Does an operation on the topology. -/
def operate (s : System N α) (op : Topology.Operation) : System N α :=
  { s with world := s.world.modifyTopology (·.apply op) }

/-- The states that a client comes to from a start with nothing known. -/
inductive Arises (setup : Setup) : System N α → Prop where
  | start {s : System N α} (topology : s.world.topology = .fresh setup)
      (active : ∀ who, s.active who = none) : Arises setup s
  | step {s : System N α} (e : Event N α) : Arises setup s → Arises setup (s.step e)
  | operate {s : System N α} (op : Topology.Operation) : Arises setup s → Arises setup (s.operate op)

theorem Arises.foldl (hs : s.Arises setup) (events : List (Event N α)) : (events.foldl System.step s).Arises setup := by
  induction events generalizing s with
  | nil => exact hs
  | cons e events ih => exact ih (hs.step e)

/-- In every state that arises the registry and the table agree. -/
theorem Arises.agrees (hs : s.Arises setup) : s.world.topology.Agrees := by
  induction hs with
  | start topology active =>
    rw [topology]
    exact .fresh setup
  | step e hs ih => exact (change_step _ e).agrees ih
  | operate op hs ih => exact ih.apply op

/-- **The connections of a client are in one place**, as long as those that are opened are new ones. -/
theorem Arises.placed (hs : s.Arises setup) (hfresh : (Traffic.openings s.world.net.record).Nodup) :
    Placed s.world.topology s.world.net.record s.held := by
  induction hs with
  | @start s topology active =>
    have hnobody : s.held = fun _ => none := by
      funext who
      simp [held, active who]
    rw [hnobody, topology]
    exact .nobody rfl
  | @step s e hs ih =>
    have hbefore := Traffic.nodup_openings_of_suffix hfresh (record_step s e)
    rcases step_cases s e with ⟨who, r, hstep, hmoves⟩ | ⟨w, hstep, hrecord, hidle⟩ <;> rw [hstep] at hfresh ⊢
    · rw [held_put]
      have hplaced : Placed (s.seenBy who).topology (s.seenBy who).net.record s.held := ih hbefore
      exact hplaced.put (hmoves default) hfresh
    · have hplaced := (ih hbefore).drop_idle hidle
      rw [← hrecord] at hplaced
      exact hplaced
  | operate op hs ih => exact (ih hfresh).drop_idle (Topology.idle_apply _ op)

omit [Network N] in
/-- A caller's work does not touch what is under way for the others. -/
theorem forall_active_put {P : Activity α → Prop} {other : Nat}
    {r : World (Watched N) × Option (Activity α)} (hs : ∀ who a, s.active who = some a → P a)
    (hr : ∀ a, r.2 = some a → P a) : ∀ who a, (s.put other r).active who = some a → P a := by
  intro who a ha
  by_cases hwho : who = other
  · subst hwho
    exact hr a (by simpa [put] using ha)
  · exact hs who a (by simpa [put, hwho] using ha)

/-- What holds of an activity at its start, and after each of its turns, holds of every activity. -/
theorem Arises.forall_active {P : Activity α → Prop}
    (hstart : ∀ (w : World (Watched N)) request a, (Activity.start w request).2 = some a → P a)
    (hturn : ∀ (w : World (Watched N)) a a', P a → (a.turn w).2 = some a' → P a')
    (hs : s.Arises setup) : ∀ who a, s.active who = some a → P a := by
  induction hs with
  | start topology active =>
    intro who a ha
    rw [active] at ha
    cases ha
  | @step s e hs ih =>
    cases e with
    | start other request =>
      simp only [System.step]
      split
      · exact forall_active_put ih (hstart (s.seenBy other) request)
      · exact ih
    | turn other =>
      simp only [System.step]
      split
      · exact ih
      · rename_i a hother
        exact forall_active_put ih fun a' => hturn (s.seenBy other) a a' (ih other a hother)
    | drop other =>
      simp only [System.step]
      split
      · exact ih
      · exact forall_active_put ih fun a ha => absurd ha.symm (Option.some_ne_none a)
    | elapse duration => exact ih
    | stir net => exact ih
    | close => exact ih
  | operate op hs ih => exact ih

/-- **The registry and the slot table always agree.** An entry of the table in force is the very pool
that is registered under the address of that pool; no two pools are registered under one address; and
of all pools ever made, those are closed that are registered no more. An event does no more to the
topology than one of the operations, between which links are lent; and whenever a layout is
installed, be it at once or in the middle of a turn, the addresses of its masters are registered
afterwards and no others, and the pool of an address that stays is the same pool, with its links and
permits as they were. -/
theorem registry_and_table_agree (hs : s.Arises setup) :
    (∀ slot id, s.world.topology.poolFor? slot = some id →
      s.world.topology.registered? (s.world.pool id).address = some id) ∧
    (s.world.topology.registry.map Prod.fst).Nodup ∧
    (∀ id < s.world.topology.pools.length,
      (s.world.pool id).closed = true ↔ ∀ address, s.world.topology.registered? address ≠ some id) ∧
    (∀ e, s.world.topology.Change (s.step e).world.topology) ∧
    ∀ t ranges t', s.world.topology.Quiet t → t.install ranges = .ok t' →
      (∀ address, (∃ id, t'.registered? address = some id) ↔ ∃ r ∈ ranges, r.master = address) ∧
      ∀ address id, t.registered? address = some id → (∃ r ∈ ranges, r.master = address) →
        t'.registered? address = some id ∧ t'.pool id = t.pool id := by
  have hagrees := hs.agrees
  refine ⟨hagrees.entries, hagrees.distinct, fun id hid => ?_, change_step s,
    fun t ranges t' hquiet ht => ⟨?_, ?_⟩⟩
  · refine (hagrees.closed id hid).trans (forall_congr' fun address => not_congr ?_)
    exact hagrees.registered?_iff.symm
  · exact fun address => Topology.registered?_install ht
  · exact fun address id hid hmaster => (hquiet.agrees hagrees).pool_install ht hid hmaster

end System

namespace Prompt

/-- A client that knows nothing. -/
def blank : System Prompt Unit where
  world := { topology := .fresh Topology.bare, net := { net := {} } }
  active _ := none

/-- The client has a layout, and a refresh is under way. -/
def laid : System Prompt Unit := (blank.operate (.install Topology.nested)).step (.start 0 .refresh)

/-- A slot has moved to a new node, the refresh has been given up, and a second layout names one of the
nodes of the first. -/
def relaid : System Prompt Unit :=
  ((laid.operate (.move 60 "c:1")).step (.drop 0)).operate (.install [⟨0, 100, "b:1", []⟩])

theorem arises_relaid : relaid.Arises Topology.bare := by
  have hblank : blank.Arises Topology.bare := .start rfl fun _ => rfl
  exact .operate _ (.step _ (.operate _ (.step _ (.operate _ hblank))))

/-- The pool of a node that is gone is closed and not registered any more, and the node that stays has
the pool that it had. -/
theorem registry_and_table_agree_relaid :
    relaid.Arises Topology.bare ∧
    (relaid.world.pool 0).closed = true ∧ (∀ address, relaid.world.topology.registered? address ≠ some 0) ∧
    relaid.world.topology.registered? "b:1" = some 1 ∧ (relaid.world.pool 1).closed = false := by
  obtain ⟨-, -, hclosed, -⟩ := System.registry_and_table_agree arises_relaid
  have hfirst : (relaid.world.pool 0).closed = true := rfl
  have hreg : relaid.world.topology.registered? "b:1" = some 1 := by decide
  have hsecond : ¬(relaid.world.pool 1).closed = true := by
    rw [hclosed 1 (by decide)]
    exact fun hnone => hnone "b:1" hreg
  exact ⟨arises_relaid, hfirst, (hclosed 0 (by decide)).1 hfirst, hreg, Bool.eq_false_iff.2 hsecond⟩

end Prompt
end SlotRouter
