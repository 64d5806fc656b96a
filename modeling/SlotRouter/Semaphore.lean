/-!
# Semaphores

A semaphore has a number of permits and hands them out first come, first served. A permit that comes back goes
straight to the first in the queue, so nobody overtakes a waiter. A waiter has a ticket; when a permit has been
granted to its ticket, it picks the permit up at its next turn. A closed semaphore refuses everybody, also a
waiter who has been granted a permit.
-/

namespace SlotRouter

/-- Permits, and those who wait for one. -/
structure Semaphore where
  /-- Permits that nobody has. -/
  free : Nat
  /-- Tickets that wait, the first in front. -/
  queue : List Nat := []
  /-- Tickets to which a permit has been granted and that have not picked it up. -/
  granted : List Nat := []
  /-- The next ticket to give out. -/
  nextTicket : Nat := 0
  closed : Bool := false
  deriving DecidableEq, Inhabited

namespace Semaphore

/-- What a request for a permit comes to. -/
inductive Answer where
  | taken
  | waiting (ticket : Nat)
  | refused
  deriving DecidableEq, Inhabited

/-- Asks for a permit; if there is none, joins the queue. -/
def acquire (s : Semaphore) : Answer × Semaphore :=
  if s.closed then (.refused, s)
  else if 0 < s.free then (.taken, { s with free := s.free - 1 })
  else (.waiting s.nextTicket,
    { s with queue := s.queue ++ [s.nextTicket], nextTicket := s.nextTicket + 1 })

/-- Gives a permit back. -/
def release (s : Semaphore) : Semaphore :=
  match s.queue with
  | [] => { s with free := s.free + 1 }
  | ticket :: queue => { s with queue, granted := ticket :: s.granted }

/-- Gives up waiting; a permit that was granted goes on to the next. -/
def abandon (s : Semaphore) (ticket : Nat) : Semaphore :=
  if ticket ∈ s.granted then release { s with granted := s.granted.erase ticket }
  else { s with queue := s.queue.erase ticket }

/-- Looks whether a ticket has been granted a permit, and picks it up. -/
def collect (s : Semaphore) (ticket : Nat) : Answer × Semaphore :=
  if s.closed then (.refused, s.abandon ticket)
  else if ticket ∈ s.granted then (.taken, { s with granted := s.granted.erase ticket })
  else (.waiting ticket, s)

/-- Refuses everybody from now on. -/
def close (s : Semaphore) : Semaphore := { s with closed := true, queue := [] }

/-- The permits that nobody has taken: those that are free, and those that were granted and not picked up. -/
def untaken (s : Semaphore) : Nat := s.free + s.granted.length

theorem untaken_release (s : Semaphore) : s.release.untaken = s.untaken + 1 := by
  unfold release untaken
  split <;> simp <;> omega

/-- Giving up a ticket changes no permit's count. -/
theorem untaken_abandon (s : Semaphore) (ticket : Nat) :
    (s.abandon ticket).untaken = s.untaken := by
  unfold abandon
  split
  · rename_i h
    rw [untaken_release]
    have := List.length_pos_of_mem h
    simp only [untaken, List.length_erase_of_mem h]
    omega
  · rfl

/-- A request takes one permit or leaves their number as it is. -/
theorem untaken_acquire (s : Semaphore) :
    (s.acquire.2).untaken + (if s.acquire.1 = .taken then 1 else 0) = s.untaken := by
  unfold acquire untaken
  split
  · simp
  · split
    · simp
      omega
    · simp

/-- Picking up takes the permit that was granted. -/
theorem untaken_collect (s : Semaphore) (ticket : Nat) :
    (s.collect ticket).2.untaken + (if (s.collect ticket).1 = .taken then 1 else 0)
      = s.untaken := by
  unfold collect
  split
  · simp [untaken_abandon]
  · split
    · rename_i h
      have := List.length_pos_of_mem h
      simp only [untaken, List.length_erase_of_mem h, if_true]
      omega
    · simp

end Semaphore
end SlotRouter
