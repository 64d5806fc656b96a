import SlotRouter.Proofs.Custody.Activities
import SlotRouter.Proofs.Places

/-!
# A client and its callers

Any number of callers use one client, each for one invocation or refresh at a time. What happens is
a sequence of events: somebody begins, takes a turn or is given up, time passes, the network
changes, or the client is closed. Nothing is said about their order.

In every reachable state a connection is in one place, and the links of the client are as far as the
traffic says (`Reachable.sound`), provided the nodes are orderly.

Key definitions: `Activity`, `System.step`, `System.Reachable`, `System.Sound`.
-/

namespace SlotRouter

open List

/-- What is under way for a caller. -/
inductive Activity (α : Type) where
  | invoking (inv : Invocation α) (stage : Invocation.Stage)
  | refreshing (refresh : Refresh)

/-- What a caller asks for. -/
inductive Request (α : Type) where
  | invoke (policy : RetryPolicy) (body : Body α) (slot : Option UInt16) (deadline : Option Nat)
  | refresh

variable {N α : Type}

namespace Activity

/-- What an activity has of a connection. -/
def holding? : Activity α → Option Holding
  | .invoking _ stage => stage.holding?
  | .refreshing r => r.holding?

/-- What is left of an invocation after a turn. -/
def ofStep (before : Option (Activity α)) : Invocation.Step α → Option (Activity α)
  | .blocked => before
  | .running (inv, stage) => some (.invoking inv stage)
  | .done _ => none

/-- What is left of a refresh after a turn. -/
def ofRefresh (before : Option (Activity α)) :
    Turn Refresh (Except Error Unit) → Option (Activity α)
  | .blocked => before
  | .running r => some (.refreshing r)
  | .done _ => none

/-- Begins what a caller asks for. -/
def start (w : World N) : Request α → World N × Option (Activity α)
  | .invoke policy body slot deadline =>
    let (w, step) := Invocation.start w policy body slot deadline
    (w, ofStep none step)
  | .refresh => (w, some (.refreshing .entering))

/-- The activity is given up. -/
def drop (w : World N) : Activity α → World N
  | .invoking _ stage => Invocation.drop w stage
  | .refreshing r => r.drop w

/-- One turn of an activity, and what is left of it. -/
def turn [Network N] (w : World N) : Activity α → World N × Option (Activity α)
  | .invoking inv stage =>
    let (w, step) := inv.turn w stage
    (w, ofStep (some (.invoking inv stage)) step)
  | .refreshing r =>
    let (w, step) := r.turn w
    (w, ofRefresh (some (.refreshing r)) step)

variable {replies : Replies}

theorem start_moves (w : World (Watched N)) (request : Request α) :
    Moves replies w none (start w request).1 ((start w request).2.bind holding?) := by
  cases request with
  | refresh => exact Moves.refl
  | invoke policy body slot deadline =>
    have hm : Moves replies w _ _ (Invocation.heldAfter none _) := Invocation.start_moves policy body slot deadline
    simp only [start]
    rcases hs : Invocation.start w policy body slot deadline with ⟨w', _ | next | result⟩ <;> rw [hs] at hm <;> exact hm

theorem drop_moves (w : World (Watched N)) (a : Activity α) :
    Moves replies w a.holding? (a.drop w) none := by
  cases a with
  | invoking inv stage => exact Invocation.moves_drop w stage
  | refreshing r => exact r.moves_drop w

/-- A turn of an activity keeps to its connection. -/
theorem turn_moves [Network N] (w : World (Watched N)) (a : Activity α) :
    Moves replies w a.holding? (a.turn w).1 ((a.turn w).2.bind holding?) := by
  cases a with
  | invoking inv stage =>
    have hm : Moves replies w _ _ _ := inv.moves w stage
    simp only [turn]
    rcases hs : inv.turn w stage with ⟨w', _ | next | result⟩ <;> rw [hs] at hm <;> exact hm
  | refreshing r =>
    have hm : Moves replies w _ _ _ := r.moves w
    simp only [turn]
    rcases hs : r.turn w with ⟨w', _ | next | result⟩ <;> rw [hs] at hm <;> exact hm

end Activity

/-! ### Events -/

/-- A client on a network that is watched, and what is under way for its callers. -/
structure System (N α : Type) where
  world : World (Watched N)
  active : Nat → Option (Activity α)

/-- What can happen. -/
inductive Event (N α : Type) where
  | start (who : Nat) (request : Request α)
  | turn (who : Nat)
  | drop (who : Nat)
  | elapse (duration : Nat)
  /-- The network is now another one: something was sent, arrived, was reset. -/
  | stir (net : N)
  | close

namespace System

/-- The world for the caller whose turn it is. -/
def seenBy (s : System N α) (who : Nat) : World (Watched N) :=
  { s.world with net := { s.world.net with who } }

/-- What a caller's activity has of a connection. -/
def held (s : System N α) (who : Nat) : Option Holding := (s.active who).bind Activity.holding?

/-- The system after a caller has acted. -/
def put (s : System N α) (who : Nat) (r : World (Watched N) × Option (Activity α)) :
    System N α where
  world := r.1
  active := Function.update s.active who r.2

/-- What an event does; a caller who is busy cannot start, and one who is not has no turn. -/
def step [Network N] (s : System N α) : Event N α → System N α
  | .start who request =>
    match s.active who with
    | none => s.put who (Activity.start (s.seenBy who) request)
    | some _ => s
  | .turn who =>
    match s.active who with
    | none => s
    | some a => s.put who (a.turn (s.seenBy who))
  | .drop who =>
    match s.active who with
    | none => s
    | some a => s.put who (a.drop (s.seenBy who), none)
  | .elapse duration => { s with world := { s.world with now := s.world.now + duration } }
  | .stir net => { s with world := { s.world with net := { s.world.net with net } } }
  | .close => { s with world := s.world.modifyTopology Topology.close }

/-- The states of a client that began without a connection, whatever it knew of the cluster. -/
inductive Reachable [Network N] : System N α → Prop where
  | start {s : System N α} (idle : s.world.topology.idle = []) (record : s.world.net.record = [])
      (active : ∀ who, s.active who = none) : Reachable s
  | step {s : System N α} (e : Event N α) : Reachable s → Reachable (s.step e)

variable {replies : Replies} {s : System N α}

/-- Every connection is in one place, and the links are as far as the traffic says. -/
structure Sound (replies : Replies) (s : System N α) : Prop where
  safe : ∀ who, Safe replies (s.seenBy who) (s.held who)
  apart : ∀ {who other : Nat} {x y : Holding}, who ≠ other → s.held who = some x → s.held other = some y →
    x.handle ≠ y.handle

theorem active_put (who : Nat) (r : World (Watched N) × Option (Activity α)) : (s.put who r).active who = r.2 :=
  Function.update_self ..

/-- What another caller does is nothing to this one. -/
theorem active_put_of_ne {who other : Nat} (h : other ≠ who) (r : World (Watched N) × Option (Activity α)) :
    (s.put other r).active who = s.active who := Function.update_of_ne h.symm ..

theorem held_put_self (who : Nat) (r : World (Watched N) × Option (Activity α)) :
    (s.put who r).held who = r.2.bind Activity.holding? := by
  simp [held, put]

theorem held_put_of_ne {who other : Nat} (r : World (Watched N) × Option (Activity α))
    (h : other ≠ who) : (s.put who r).held other = s.held other := by
  simp [held, put, h]

theorem held_put (s : System N α) (who : Nat) (r : World (Watched N) × Option (Activity α)) :
    (s.put who r).held = Function.update s.held who (r.2.bind Activity.holding?) := by
  funext other
  by_cases hother : other = who
  · subst hother
    rw [held_put_self, Function.update_self]
  · rw [held_put_of_ne r hother, Function.update_of_ne hother]

/-- In a sound system every connection is in one place. -/
theorem Sound.placed (hs : Sound replies s) : Placed s.world.topology s.world.net.record s.held where
  idle := (List.nodup_append.1 (hs.safe 0).distinct).1
  opened_idle link hlink := (hs.safe 0).opened _ (List.mem_append_left _ (List.mem_map_of_mem hlink))
  opened who x hx := (hs.safe who).opened _ (List.mem_append_right _ (by simp [hx]))
  away who x hx link hlink := by
    have hsafe := hs.safe who
    rw [hx] at hsafe
    exact hsafe.handle_ne hlink
  apart who other x y := hs.apart

/-- Work of one caller leaves the system sound. -/
theorem Sound.put (hs : Sound replies s) {who : Nat} {r : World (Watched N) × Option (Activity α)}
    (m : Moves replies (s.seenBy who) (s.held who) r.1 (r.2.bind Activity.holding?))
    (ho : Orderly replies r.1.net.record) : Sound replies (s.put who r) := by
  have hbefore : Placed (s.seenBy who).topology (s.seenBy who).net.record s.held := hs.placed
  have hsafe := m.safe ho (hs.safe who)
  have hplaced := hbefore.put m ho.fresh
  rw [← held_put] at hplaced
  refine ⟨fun other => ?_, fun {i j x y} hij hi hj => hplaced.apart i j x y hij hi hj⟩
  by_cases hne : other = who
  · subst hne
    have hself : (s.put other r).seenBy other = r.1 := by
      show { r.1 with net := { r.1.net with who := other } } = r.1
      rw [show other = r.1.net.who from m.who.symm]
    rw [hself, held_put_self]
    exact hsafe
  · refine ⟨hplaced.nodup_owned other, fun g => hplaced.opened_owned, hsafe.noted, hsafe.idle, fun x hx => ?_⟩
    rw [held_put_of_ne r hne] at hx
    obtain ⟨new, hrecord, hnew, hfar⟩ := hbefore.exists_far m ho.fresh
    show x.Sound replies r.1.net.record other
    rw [hrecord]
    exact ((hs.safe other).held x hx).append (fun e he heq => hne (heq.symm.trans (hnew e he))) (hfar other x hne hx)

/-- What nobody does leaves the system sound: no link becomes idle, and nothing is noted. -/
theorem Sound.surroundings (hs : Sound replies s) {w : World (Watched N)}
    (hrecord : w.net.record = s.world.net.record)
    (hidle : w.topology.idle <+ s.world.topology.idle) (ho : Orderly replies w.net.record) :
    Sound replies { s with world := w } where
  safe who := by
    have m : Moves replies (s.seenBy who) (s.held who) (({ s with world := w } : System N α).seenBy who) (s.held who) :=
      Moves.of_same rfl hrecord hidle
    exact m.safe ho (hs.safe who)
  apart := hs.apart

variable [Network N]

theorem Reachable.foldl (hs : s.Reachable) (events : List (Event N α)) :
    (events.foldl System.step s).Reachable := by
  induction events generalizing s with
  | nil => exact hs
  | cons e events ih => exact ih (hs.step e)

section

variable {who : Nat} {a : Activity α}

theorem step_start (ha : s.active who = none) (request : Request α) :
    s.step (.start who request) = s.put who (Activity.start (s.seenBy who) request) := by
  simp only [step, ha]

theorem step_turn (ha : s.active who = some a) : s.step (.turn who) = s.put who (a.turn (s.seenBy who)) := by
  simp only [step, ha]

theorem step_drop (ha : s.active who = some a) : s.step (.drop who) = s.put who (a.drop (s.seenBy who), none) := by
  simp only [step, ha]

omit [Network N] in
theorem held_of_active (ha : s.active who = some a) : s.held who = a.holding? := by
  rw [held, ha]
  rfl

omit [Network N] in
theorem held_of_idle (ha : s.active who = none) : s.held who = none := by
  rw [held, ha]
  rfl

end

/-- What an event can do: some caller's work, or a change that is nobody's. -/
theorem step_cases (s : System N α) (e : Event N α) :
    (∃ who r, s.step e = s.put who r ∧
      ∀ replies, Moves replies (s.seenBy who) (s.held who) r.1 (r.2.bind Activity.holding?)) ∨
    ∃ w, s.step e = { s with world := w } ∧ w.net.record = s.world.net.record ∧
      w.topology.idle <+ s.world.topology.idle := by
  cases e with
  | start who request =>
    cases ha : s.active who with
    | some a => exact .inr ⟨s.world, by simp [step, ha], rfl, List.Sublist.refl _⟩
    | none =>
      refine .inl ⟨who, _, step_start ha request, fun replies => ?_⟩
      rw [held_of_idle ha]
      exact Activity.start_moves (s.seenBy who) request
  | turn who =>
    cases ha : s.active who with
    | none => exact .inr ⟨s.world, by simp [step, ha], rfl, List.Sublist.refl _⟩
    | some a =>
      refine .inl ⟨who, _, step_turn ha, fun replies => ?_⟩
      rw [held_of_active ha]
      exact a.turn_moves (s.seenBy who)
  | drop who =>
    cases ha : s.active who with
    | none => exact .inr ⟨s.world, by simp [step, ha], rfl, List.Sublist.refl _⟩
    | some a =>
      refine .inl ⟨who, _, step_drop ha, fun replies => ?_⟩
      rw [held_of_active ha]
      exact a.drop_moves (s.seenBy who)
  | elapse duration => exact .inr ⟨_, rfl, rfl, List.Sublist.refl _⟩
  | stir net => exact .inr ⟨_, rfl, rfl, List.Sublist.refl _⟩
  | close => exact .inr ⟨_, rfl, rfl, Topology.idle_close _⟩

/-- The record only grows. -/
theorem record_step (s : System N α) (e : Event N α) :
    s.world.net.record <:+ (s.step e).world.net.record := by
  rcases step_cases s e with ⟨who, r, hstep, hm⟩ | ⟨w, hstep, hrecord, -⟩
  · rw [hstep]
    exact (hm default).suffix
  · rw [hstep]
    exact ⟨[], hrecord.symm⟩

/-- An event leaves the system sound. -/
theorem Sound.step (hs : Sound replies s) (e : Event N α)
    (ho : Orderly replies (s.step e).world.net.record) :
    Sound replies (s.step e) := by
  rcases step_cases s e with ⟨who, r, hstep, hm⟩ | ⟨w, hstep, hrecord, hidle⟩
  · rw [hstep] at ho ⊢
    exact hs.put (hm replies) ho
  · rw [hstep] at ho ⊢
    exact hs.surroundings hrecord hidle ho

/-- **Every reachable state is sound**, as long as the nodes have been orderly. -/
theorem Reachable.sound (hs : Reachable s) (ho : Orderly replies s.world.net.record) :
    Sound replies s := by
  induction hs with
  | @start s idle record active =>
    have hheld : ∀ who, s.held who = none := fun who => by simp [held, active who]
    refine ⟨fun who => ?_, fun {who other x y} _ hx => ?_⟩
    · rw [hheld who]
      have hidle : (s.seenBy who).topology.idle = [] := idle
      have hrecord : (s.seenBy who).net.record = [] := record
      refine ⟨?_, ?_, ?_, ?_, by simp⟩
      · simp [hidle]
      · simp [hidle]
      · simp [hrecord]
      · simp [hidle]
    · rw [hheld who] at hx
      cases hx
  | @step s e _ ih => exact (ih (ho.of_suffix (record_step s e))).step e ho

end System
end SlotRouter
