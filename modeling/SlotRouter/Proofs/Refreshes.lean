import SlotRouter.Proofs.Agreement
import SlotRouter.Proofs.Searches
import SlotRouter.Proofs.Steps

/-!
# What a refresh can do

The forms that a turn of a refresh can take (`Refresh.Does`): it is refused, it waits, it is served by
another one, or it searches. A search begins only while no layout has been counted since the refresh
came, and a layout is counted exactly when one is installed.

An invocation runs a refresh as part of its own turns: what is left of it then is what its own turn
left, or a new one that has not begun (`Activity.refresh?_turn`).

Key definitions: `Refresh.Does`, `Activity.refresh?`. Key theorems: `Refresh.turn_does`,
`Refresh.turn_of_obtains`, `Activity.refresh?_turn`, `Activity.generation_turn`.
-/

namespace SlotRouter

variable {N α : Type}

/-! ### The count of layouts -/

namespace Topology

variable {t t' : Topology}

theorem generation_install {ranges : List SlotRange} (h : t.install ranges = .ok t') :
    t'.generation = t.generation := by
  obtain ⟨-, rfl⟩ := of_install h
  obtain ⟨made, added, heq⟩ := Grows.layOut t .empty ranges
  show (t.layOut .empty ranges).2.generation = t.generation
  rw [heq]

theorem generation_obtain (t : Topology) (address : String) :
    (t.obtain address).2.generation = t.generation := by
  obtain ⟨made, added, heq⟩ := Grows.obtain t address
  rw [heq]

theorem generation_move (t : Topology) (slot : Nat) (address : String) :
    (t.move slot address).2.generation = t.generation := by
  cases hclosed : t.closed with
  | true => rw [move_of_closed hclosed]
  | false =>
    rw [move_of_open hclosed]
    exact generation_obtain t address

/-- Only refreshes are counted. -/
theorem generation_apply (t : Topology) (op : Operation) : (t.apply op).generation = t.generation := by
  cases op with
  | install ranges =>
    unfold apply
    dsimp only
    split
    · rename_i h
      exact generation_install h
    · rfl
  | move slot address => exact generation_move t slot.toNat address
  | obtain address => exact generation_obtain t address
  | close => rfl

end Topology

/-! ### Refreshes -/

namespace Discovery

variable [Network N] (w : World N)

/-- A search begins with somebody to ask, or fails at once. -/
theorem nextNode_cases (seeds nodes : List String) :
    (nextNode w seeds nodes).2 = .done (.error .noReachableNode) ∨
      ∃ d, (nextNode w seeds nodes).2 = .running d := by
  induction nodes with
  | nil =>
    cases seeds with
    | nil => exact .inl rfl
    | cons seed seeds => exact .inr ⟨_, rfl⟩
  | cons node nodes ih =>
    unfold nextNode
    split
    · exact .inr ⟨_, rfl⟩
    · exact ih

theorem start_cases : (start w).2 = .done (.error .noReachableNode) ∨ ∃ d, (start w).2 = .running d :=
  nextNode_cases _ _ _

end Discovery

namespace Refresh

/-- Whether the refresh has the lock and searches. -/
def isSearching : Refresh → Bool
  | .discovering _ => true
  | .entering | .queued .. => false

/-- Whether a turn that ends so has begun a search; one that finds nobody to ask is over at once. -/
def begins (r : Refresh) : Turn Refresh (Except Error Unit) → Bool
  | .running r' => !r.isSearching && r'.isSearching
  | .done (.error .noReachableNode) => !r.isSearching
  | .blocked | .done _ => false

theorem begins_discovering {r : Refresh} (hidle : r.isSearching = false) (d : Discovery) :
    r.begins (.running (.discovering d)) = true := by
  unfold begins
  rw [hidle]
  rfl

theorem begins_noReachableNode {r : Refresh} (hidle : r.isSearching = false) :
    r.begins (.done (.error .noReachableNode)) = true := by
  unfold begins
  rw [hidle]
  rfl

/-- The refresh does not search, and no layout has been counted since it came. -/
def IsCurrent (generation : Nat) : Refresh → Prop
  | .entering => True
  | .queued seen _ => generation = seen
  | .discovering _ => False

/-- What a turn of a refresh can be. -/
inductive Does (w : World N) : Refresh → World N × Turn Refresh (Except Error Unit) → Prop where
  | refuse (closed : w.topology.closed = true) : Does w .entering (w, .done (.error .clientClosed))
  | wait {r : Refresh} (idle : r.isSearching = false) : Does w r (w, .blocked)
  | queue (lock : Semaphore) (ticket : Nat) :
      Does w .entering (withLock w lock, .running (.queued w.topology.generation ticket))
  /-- The client was closed while the refresh waited. -/
  | late (lock : Semaphore) (seen ticket : Nat) (closed : w.topology.closed = true) :
      Does w (.queued seen ticket) (withLock w lock, .done (.error .clientClosed))
  /-- Another refresh has installed a layout while this one waited. -/
  | served (lock : Semaphore) {seen : Nat} (ticket : Nat) (newer : w.topology.generation ≠ seen) :
      Does w (.queued seen ticket) (withLock w lock, .done (.ok ()))
  | search {r : Refresh} {w' : World N} (current : r.IsCurrent w.topology.generation)
      (quiet : w.topology.Quiet w'.topology) (d : Discovery) :
      Does w r (w', .running (.discovering d))
  /-- There is nobody to ask. -/
  | nobody {r : Refresh} {w' : World N} (current : r.IsCurrent w.topology.generation)
      (quiet : w.topology.Quiet w'.topology) : Does w r (w', .done (.error .noReachableNode))
  | waits {w' : World N} (quiet : w.topology.Quiet w'.topology) (d : Discovery) :
      Does w (.discovering d) (w', .blocked)
  | goesOn {w' : World N} (quiet : w.topology.Quiet w'.topology) (d d' : Discovery) :
      Does w (.discovering d) (w', .running (.discovering d'))
  | fails {w' : World N} (quiet : w.topology.Quiet w'.topology) (d : Discovery) (e : Error) :
      Does w (.discovering d) (w', .done (.error e))
  | installs {w' : World N} {t : Topology} {ranges : List SlotRange} (d : Discovery)
      (quiet : w.topology.Quiet w'.topology) (h : w'.topology.install ranges = .ok t) :
      Does w (.discovering d)
        (unlock { w' with topology := { t with generation := t.generation + 1 } }, .done (.ok ()))

variable {w : World N}

/-- What the turn of a search comes to. -/
theorem does_searched (d : Discovery) {w' : World N} (hquiet : w.topology.Quiet w'.topology)
    (step : Discovery.Step) : Does w (.discovering d) (searched w' step) := by
  rcases step with _ | d' | ⟨e | ranges⟩
  · exact .waits hquiet d
  · exact .goesOn hquiet d d'
  · exact .fails (hquiet.trans (quiet_unlock w')) d e
  · unfold searched finish
    dsimp only
    split
    · exact .fails (hquiet.trans (quiet_unlock w')) d _
    · rename_i t ht
      exact .installs d hquiet ht

variable [Network N]

/-- A refresh that has got the lock of an open client searches if nobody has been counted since it came. -/
theorem locked_of_current (hopen : ¬w.topology.closed = true) (seen : Nat) (hseen : w.topology.generation = seen) :
    locked w seen = searched (Discovery.start w).1 (Discovery.start w).2 := by
  unfold locked
  rw [if_neg hopen, if_neg (not_not.2 hseen)]

theorem locked_of_newer (hopen : ¬w.topology.closed = true) (seen : Nat) (hnewer : w.topology.generation ≠ seen) :
    locked w seen = (unlock w, .done (.ok ())) := by
  unfold locked
  rw [if_neg hopen, if_pos hnewer]

/-- A refresh that has the lock and has not been served begins to search. -/
theorem does_search (r : Refresh) (hcurrent : r.IsCurrent w.topology.generation) (lock : Semaphore) :
    Does w r (searched (Discovery.start (withLock w lock)).1 (Discovery.start (withLock w lock)).2) := by
  have hquiet := (quiet_withLock w lock).trans (Discovery.quiet_start (withLock w lock))
  rcases Discovery.start_cases (withLock w lock) with hstep | ⟨d, hstep⟩ <;> rw [hstep]
  · exact .nobody hcurrent (hquiet.trans (quiet_unlock _))
  · exact .search hcurrent hquiet d

/-- **A turn of a refresh is one of these.** -/
theorem turn_does (w : World N) (r : Refresh) : Does w r (r.turn w) := by
  cases r with
  | entering =>
    simp only [turn]
    split_ifs with hclosed
    · exact .refuse hclosed
    · split
      · rename_i lock _
        rw [locked_of_current (w := withLock w lock) hclosed w.topology.generation rfl]
        exact does_search .entering trivial lock
      · exact .queue _ _
      · exact .wait rfl
  | queued seen ticket =>
    simp only [turn]
    split
    · rename_i lock _
      by_cases hclosed : w.topology.closed = true
      · unfold locked
        rw [if_pos (show (withLock w lock).topology.closed = true from hclosed)]
        exact .late lock.release seen ticket hclosed
      · by_cases hseen : w.topology.generation = seen
        · rw [locked_of_current (w := withLock w lock) hclosed seen hseen]
          exact does_search (.queued seen ticket) hseen lock
        · rw [locked_of_newer (w := withLock w lock) hclosed seen hseen]
          exact .served lock.release ticket hseen
    · exact .wait rfl
  | discovering d => exact does_searched d (d.quiet_turn w) _

/-- **A turn that begins no search and belongs to none sends nothing.** -/
theorem net_turn {r : Refresh} (hidle : r.isSearching = false) (hnone : r.begins (r.turn w).2 = false) :
    (r.turn w).1.net = w.net := by
  have hdoes := turn_does w r
  generalize r.turn w = out at hdoes hnone ⊢
  cases hdoes with
  | refuse | wait | queue | late | served => rfl
  | search current quiet d =>
    rw [begins_discovering hidle d] at hnone
    cases hnone
  | nobody =>
    rw [begins_noReachableNode hidle] at hnone
    cases hnone
  | waits | goesOn | fails | installs => cases hidle

/-- A search is begun only while no layout has been counted. -/
theorem isCurrent_of_begins {r : Refresh} (h : r.begins (r.turn w).2 = true) :
    r.IsCurrent w.topology.generation := by
  have hdoes := turn_does w r
  generalize r.turn w = out at hdoes h
  cases hdoes with
  | search current | nobody current => exact current
  | fails quiet d e => cases e <;> cases h
  | _ => cases h

/-- Whether a refresh obtains the lock if it has its turn now. -/
def Obtains (lock : Semaphore) : Refresh → Prop
  | .entering => lock.acquire.1 = .taken
  | .queued _ ticket => (lock.collect ticket).1 = .taken
  | .discovering _ => False

theorem Obtains.idle {lock : Semaphore} {r : Refresh} (h : r.Obtains lock) : r.isSearching = false := by
  cases r with
  | entering | queued => rfl
  | discovering d => exact absurd h id

/-- **A refresh that obtains the lock of an open client** begins a search exactly if no layout has been
counted since it came, and otherwise ends well. -/
theorem turn_of_obtains {r : Refresh} (hopen : w.topology.closed = false)
    (hobtains : r.Obtains w.topology.refreshLock) :
    (r.IsCurrent w.topology.generation → r.begins (r.turn w).2 = true) ∧
    (¬r.IsCurrent w.topology.generation → (r.turn w).2 = .done (.ok ())) := by
  have hsearch : ∀ (w' : World N), r.isSearching = false → r.begins
      (searched (Discovery.start w').1 (Discovery.start w').2).2 = true := by
    intro w' hidle
    rcases Discovery.start_cases w' with hstep | ⟨d, hstep⟩ <;> rw [hstep]
    · exact begins_noReachableNode hidle
    · exact begins_discovering hidle d
  have hnot : ¬w.topology.closed = true := Bool.eq_false_iff.1 hopen
  cases r with
  | entering =>
    refine ⟨fun _ => ?_, fun hcurrent => absurd trivial hcurrent⟩
    simp only [turn, if_neg hnot]
    split
    · rename_i lock _
      rw [locked_of_current (w := withLock w lock) hnot w.topology.generation rfl]
      exact hsearch _ rfl
    · rename_i ticket lock hacquire
      rw [Obtains, hacquire] at hobtains
      cases hobtains
    · rename_i lock hacquire
      rw [Obtains, hacquire] at hobtains
      cases hobtains
  | queued seen ticket =>
    obtain ⟨lock, hcollect⟩ : ∃ lock, w.topology.refreshLock.collect ticket = (.taken, lock) :=
      ⟨_, Prod.ext hobtains rfl⟩
    simp only [turn, hcollect]
    refine ⟨fun hcurrent => ?_, fun hcurrent => ?_⟩
    · rw [locked_of_current (w := withLock w lock) hnot seen hcurrent]
      exact hsearch _ rfl
    · rw [locked_of_newer (w := withLock w lock) hnot seen hcurrent]
  | discovering d => exact absurd hobtains id

end Refresh

/-! ### Refreshes of invocations -/

namespace Invocation

/-- The refresh that an invocation is busy with. -/
def Stage.refresh? : Stage → Option Refresh
  | .resolving r | .refreshing r => some r
  | .attempting .. | .pausing _ => none

/-- The refresh that is left after a step. -/
def Step.refresh? : Step α → Option Refresh
  | .running (_, stage) => stage.refresh?
  | .blocked | .done _ => none

variable {w : World N} {inv : Invocation α} {r : World N × Step α}

/-- At the head of the loop a refresh is at its beginning. -/
theorem NextStep.refresh?_eq (h : NextStep w inv r) {r' : Refresh} (hr' : Step.refresh? r.2 = some r') :
    r' = .entering := by
  cases h with
  | resolve => exact (Option.some.inj hr').symm
  | _ => cases hr'

theorem AfterStep.refresh?_eq {outcome : Outcome α} (h : AfterStep w inv outcome r) {r' : Refresh}
    (hr' : Step.refresh? r.2 = some r') : r' = .entering := by
  cases h with
  | next now budget searched h => exact h.refresh?_eq hr'
  | refresh => exact (Option.some.inj hr').symm
  | _ => cases hr'

theorem generation_next (w : World N) (inv : Invocation α) (target : Option String) :
    (inv.next w target).1.topology.generation = w.topology.generation := by
  cases target with
  | none => exact (quiet_next w inv).generation
  | some address =>
    unfold next
    split_ifs
    · rfl
    · split
      · rfl
      · exact Topology.generation_obtain w.topology address

/-- Nothing is counted between two stages. -/
theorem generation_after (w : World N) (inv : Invocation α) (outcome : Outcome α) :
    (inv.after w outcome).1.topology.generation = w.topology.generation := by
  cases outcome with
  | resolved result => exact (quiet_resolved w inv result).generation
  | attempted id asking ended =>
    simp only [after, attempted]
    split
    · rfl
    · split_ifs
      · rfl
      · unfold retry
        split
        · exact (generation_next _ _ none).trans (Topology.generation_move w.topology _ _)
        · exact generation_next w _ _
        · split_ifs
          · exact (quiet_recover w _ _ _).generation
          · rfl
  | woken => rfl
  | refreshed result => exact generation_next w inv none

variable [Network N]

theorem generation_refreshUntil (deadline : Nat) (w : World N) (r : Refresh) :
    (refreshUntil deadline w r).1.topology.generation = (r.turn w).1.topology.generation := by
  unfold refreshUntil
  rcases r.turn w with ⟨w', _ | r' | result⟩
  · dsimp only
    split_ifs
    · exact (r.quiet_drop w').generation
    · rfl
  · rfl
  · rfl

/-- What the turn of a refresh counts is all that the turn of its invocation counts. -/
theorem generation_turn (w : World N) (inv : Invocation α) (stage : Stage) :
    (inv.turn w stage).1.topology.generation =
      ((stage.refresh?.map fun r => (r.turn w).1).getD w).topology.generation := by
  cases stage with
  | resolving r =>
    have hsame := generation_refreshUntil inv.budget.deadline w r
    simp only [turn, stageTurn]
    rcases hr : refreshUntil inv.budget.deadline w r with ⟨w', _ | r' | result⟩ <;> rw [hr] at hsame
    · exact hsame
    · exact hsame
    · exact (generation_after w' inv (.resolved result)).trans hsame
  | attempting id asking a =>
    have hquiet := quiet_attemptUntil inv.budget.deadline w inv.body inv.started a
    simp only [turn, stageTurn]
    rcases ha : attemptUntil inv.budget.deadline w inv.body inv.started a with ⟨w', _ | a' | ended⟩ <;>
      rw [ha] at hquiet
    · exact hquiet.generation
    · exact hquiet.generation
    · exact (generation_after w' inv (.attempted id asking ended)).trans hquiet.generation
  | pausing wake =>
    simp only [turn, stageTurn]
    by_cases hwake : wake ≤ w.now
    · rw [if_pos hwake]
      rfl
    · rw [if_neg hwake]
      rfl
  | refreshing r =>
    have hsame := generation_refreshUntil inv.budget.deadline w r
    simp only [turn, stageTurn]
    rcases hr : refreshUntil inv.budget.deadline w r with ⟨w', _ | r' | result⟩ <;> rw [hr] at hsame
    · exact hsame
    · exact hsame
    · exact (generation_after w' inv (.refreshed result)).trans hsame

end Invocation

namespace Activity

/-- The refresh that an activity is busy with. -/
def refresh? : Activity α → Option Refresh
  | .invoking _ stage => stage.refresh?
  | .refreshing r => some r

/-- A refresh that has just been begun has not had a turn. -/
theorem refresh?_start (w : World N) (request : Request α) {r : Refresh}
    (h : (start w request).2.bind refresh? = some r) : r = .entering := by
  cases request with
  | invoke policy body slot deadline =>
    have hnext : Invocation.NextStep w _ (Invocation.start w policy body slot deadline) :=
      Invocation.next_step w _ none
    simp only [start] at h
    rcases hs : Invocation.start w policy body slot deadline with ⟨w', _ | ⟨inv, stage⟩ | result⟩ <;>
      rw [hs] at h hnext
    · cases h
    · exact hnext.refresh?_eq h
    · cases h
  | refresh => exact (Option.some.inj h).symm

theorem generation_start (w : World N) (request : Request α) :
    (start w request).1.topology.generation = w.topology.generation := by
  cases request with
  | invoke policy body slot deadline => exact Invocation.generation_next w _ none
  | refresh => rfl

variable [Network N]

/-- **A refresh goes on as its own turn says**, or it is a new one. -/
theorem refresh?_turn (w : World N) (a : Activity α) {r' : Refresh}
    (h : (a.turn w).2.bind refresh? = some r') :
    r' = .entering ∨ ∃ r, a.refresh? = some r ∧
      ((r.turn w).2 = .running r' ∨ (r.turn w).2 = .blocked ∧ r' = r) := by
  cases a with
  | invoking inv stage =>
    have hstep := Invocation.turn_step w inv stage
    simp only [turn] at h
    generalize inv.turn w stage = out at hstep h
    cases hstep with
    | waits w' hwaits =>
      cases hwaits with
      | resolving hblocked | refreshing hblocked =>
        obtain rfl := Option.some.inj h
        exact .inr ⟨_, rfl, .inr ⟨hblocked, rfl⟩⟩
      | attempting | pausing => cases h
    | goes w' hgoes =>
      cases hgoes with
      | resolving hrunning | refreshing hrunning =>
        obtain rfl := Option.some.inj h
        exact .inr ⟨_, rfl, .inl hrunning⟩
      | attempting => cases h
    | ends kind hafter =>
      rcases out with ⟨w', _ | ⟨inv', stage'⟩ | result⟩
      · exact absurd rfl hafter.ne_blocked
      · exact .inl (hafter.refresh?_eq h)
      · cases h
  | refreshing r =>
    refine .inr ⟨r, rfl, ?_⟩
    simp only [turn] at h
    rcases hr : r.turn w with ⟨w', _ | r'' | result⟩ <;> rw [hr] at h
    · exact .inr ⟨rfl, (Option.some.inj h).symm⟩
    · exact .inl (congrArg Turn.running (Option.some.inj h))
    · cases h

theorem generation_turn (w : World N) (a : Activity α) :
    (a.turn w).1.topology.generation =
      ((a.refresh?.map fun r => (r.turn w).1).getD w).topology.generation := by
  cases a with
  | invoking inv stage => exact Invocation.generation_turn w inv stage
  | refreshing r => rfl

end Activity
end SlotRouter
