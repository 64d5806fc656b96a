import SlotRouter.Client
import SlotRouter.Proofs.Redirects

/-!
# Closing is permanent

From the moment a client is closed its topology is shut (`Topology.Shut`): no slot is served, no pool
is registered, and every pool that was ever made is retired. The topology is looked at in several
places, at the head of the loop, before and after the wait for the lock, when a layout is installed
and when a slot is moved, and together they leave no way back: a turn that is taken after the closing
only lends links that are still out, a refresh does not end well, and no attempt begins.

Key definitions: `Topology.Shut`, `System.Leads`, `Refresh.Barren`, `Invocation.Closing`. Key
theorems: `Agrees.shut`, `Refresh.barren_turn`, `Invocation.turn_of_closed`, `System.Leads.shut`,
`System.closing_is_permanent`.
-/

namespace SlotRouter

variable {N α : Type}

/-! ### The topology -/

namespace Topology

/-- Nothing is left to be used. -/
structure Shut (t : Topology) : Prop where
  closed : t.closed = true
  registry : t.registry = []
  unserved : ∀ slot, t.poolFor? slot = none
  retired : ∀ id < t.pools.length, (t.pool id).closed = true

variable {t t' : Topology}

/-- A pool that is not closed is registered, and closing leaves none registered. -/
theorem Agrees.shut (h : t.Agrees) : t.close.Shut := by
  refine ⟨closed_close t, registry_close t, poolFor?_close t, fun id hid => ?_⟩
  rw [h.close.closed id hid, registry_close]
  exact fun address => List.not_mem_nil

namespace Shut

theorem registered? (h : t.Shut) (address : String) : t.registered? address = none := by
  unfold Topology.registered?
  rw [h.registry]
  rfl

theorem quiet (h : t.Shut) (hq : t.Quiet t') : t'.Shut where
  closed := hq.closed.trans h.closed
  registry := hq.registry.trans h.registry
  unserved slot := (hq.poolFor? slot).trans (h.unserved slot)
  retired id hid := (hq.retired id).trans (h.retired id (hq.length ▸ hid))

/-- There is nothing left to retire. -/
theorem pools_close (h : t.Shut) : t.close.pools = t.pools := by
  simp [Topology.close, retireAll, retain, putInForce, h.registry]

theorem close (h : t.Shut) : t.close.Shut := by
  refine ⟨closed_close t, registry_close t, poolFor?_close t, fun id hid => ?_⟩
  unfold Topology.pool
  rw [h.pools_close] at hid ⊢
  exact h.retired id hid

theorem install (h : t.Shut) (ranges : List SlotRange) : t.install ranges = .error .clientClosed := by
  unfold Topology.install
  exact if_pos h.closed

theorem apply_install (h : t.Shut) (ranges : List SlotRange) : t.apply (.install ranges) = t := by
  simp only [apply, h.install]

theorem apply_move (h : t.Shut) (slot : UInt16) (address : String) :
    t.apply (.move slot address) = t := by
  simp only [apply, move_of_closed h.closed]

end Shut
end Topology

/-! ### Refreshes -/

namespace Refresh

/-- A turn of a refresh that lends links at most and does not end well. -/
structure Barren (w : World N) (r : World N × Turn Refresh (Except Error Unit)) : Prop where
  quiet : w.topology.Quiet r.1.topology
  fails : r.2 ≠ .done (.ok ())

variable {w w' : World N}

theorem Barren.before {r : World N × Turn Refresh (Except Error Unit)} (h : Barren w' r)
    (hq : w.topology.Quiet w'.topology) : Barren w r := ⟨hq.trans h.quiet, h.fails⟩

/-- What a search has found is not installed. -/
theorem barren_searched (hclosed : w.topology.closed = true) (step : Discovery.Step) :
    Barren w (searched w step) := by
  rcases step with _ | d | ⟨e | ranges⟩
  · exact ⟨.refl _, nofun⟩
  · exact ⟨.refl _, nofun⟩
  · exact ⟨quiet_unlock w, nofun⟩
  · have hfinish : finish w (.ok ranges) = (unlock w, .error .clientClosed) := by
      unfold finish Topology.install
      simp only [if_pos hclosed]
    unfold searched
    dsimp only
    rw [hfinish]
    exact ⟨quiet_unlock w, nofun⟩

variable [Network N]

theorem barren_locked (hclosed : w.topology.closed = true) (seen : Nat) : Barren w (locked w seen) := by
  unfold locked
  rw [if_pos hclosed]
  exact ⟨quiet_unlock w, nofun⟩

/-- **A refresh of a closed topology installs nothing**, however far it has come. -/
theorem barren_turn (hclosed : w.topology.closed = true) (r : Refresh) : Barren w (r.turn w) := by
  cases r with
  | entering =>
    simp only [turn, if_pos hclosed]
    exact ⟨.refl _, fun h => by cases h⟩
  | queued seen ticket =>
    simp only [turn]
    split
    · rename_i lock hcollect
      have hlock := quiet_withLock w lock
      exact (barren_locked (hlock.closed.trans hclosed) seen).before hlock
    · exact ⟨.refl _, fun h => by cases h⟩
  | discovering d =>
    have hsearch := d.quiet_turn w
    exact (barren_searched (hsearch.closed.trans hclosed) _).before hsearch

theorem turn_entering_of_closed (hclosed : w.topology.closed = true) :
    turn w .entering = (w, .done (.error .clientClosed)) := if_pos hclosed

end Refresh

/-! ### Invocations -/

namespace Invocation

/-- The step leaves the invocation with an attempt. -/
def Step.Attempts : Step α → Prop
  | .running (_, .attempting ..) => True
  | _ => False

/-- A step of an invocation that lends links at most and begins no attempt. -/
structure Closing (w : World N) (r : World N × Step α) : Prop where
  quiet : w.topology.Quiet r.1.topology
  none : ¬r.2.Attempts

variable {w w' : World N} {inv : Invocation α}

theorem Closing.before {r : World N × Step α} (h : Closing w' r)
    (hq : w.topology.Quiet w'.topology) : Closing w r := ⟨hq.trans h.quiet, h.none⟩

/-- The head of the loop looks first whether the client has been closed. -/
theorem next_of_closed (hclosed : w.topology.closed = true) (inv : Invocation α) (target : Option String) :
    inv.next w target = (w, .done (.error .clientClosed)) := if_pos hclosed

theorem closing_next (hclosed : w.topology.closed = true) (target : Option String) :
    Closing w (inv.next w target) := by
  rw [next_of_closed hclosed]
  exact ⟨.refl _, id⟩

theorem closing_recover (hclosed : w.topology.closed = true) (id? : Option PoolId) (e : Error) :
    Closing w (inv.recover w id? e) := by
  have hinvalidate := quiet_invalidate w id?
  unfold recover
  dsimp only
  split_ifs
  · exact (closing_next (hinvalidate.closed.trans hclosed) none).before hinvalidate
  · exact ⟨hinvalidate, id⟩

/-- After a redirect nothing is moved and nothing is registered. -/
theorem closing_retry (hclosed : w.topology.closed = true) (pool : PoolId) (e : Error) :
    Closing w (inv.retry w pool e) := by
  unfold retry
  split
  · rw [Topology.move_of_closed hclosed]
    exact closing_next hclosed none
  · exact closing_next hclosed _
  · split_ifs
    · exact closing_recover hclosed _ _
    · exact ⟨.refl _, id⟩

/-- Whatever has come to an end, no attempt follows; only a refresh that ended well could lead to one
without a look at the topology. -/
theorem closing_after (hclosed : w.topology.closed = true) {outcome : Outcome α}
    (hfails : outcome ≠ .resolved (.ok ())) : Closing w (inv.after w outcome) := by
  cases outcome with
  | resolved result =>
    rcases result with e | ⟨⟩
    · simp only [after, resolved]
      split_ifs
      · exact closing_recover hclosed none e
      · exact ⟨.refl _, id⟩
    · exact absurd rfl hfails
  | attempted pool asking ended =>
    simp only [after, attempted]
    split
    · exact ⟨.refl _, id⟩
    · split_ifs
      · exact ⟨.refl _, id⟩
      · exact closing_retry hclosed pool _
  | woken => exact ⟨.refl _, id⟩
  | refreshed result => exact closing_next hclosed none

variable [Network N]

theorem barren_refreshUntil (hclosed : w.topology.closed = true) (deadline : Nat) (r : Refresh) :
    Refresh.Barren w (refreshUntil deadline w r) := by
  have hbarren := Refresh.barren_turn hclosed r
  unfold refreshUntil
  rcases hr : r.turn w with ⟨w', _ | r' | result⟩ <;> rw [hr] at hbarren
  · dsimp only
    split_ifs
    · exact ⟨hbarren.quiet.trans (r.quiet_drop w'), nofun⟩
    · exact hbarren
  · exact hbarren
  · exact hbarren

/-- An invocation that makes no attempt at the time begins none. -/
theorem closing_turn (hclosed : w.topology.closed = true) (inv : Invocation α) {stage : Stage}
    (hother : ∀ pool asking a, stage ≠ .attempting pool asking a) : Closing w (inv.turn w stage) := by
  have hafter : ∀ {w' : World N} {outcome : Outcome α}, w.topology.Quiet w'.topology →
      outcome ≠ .resolved (.ok ()) → Closing w (inv.after w' outcome) := fun hquiet hfails =>
    (closing_after (hquiet.closed.trans hclosed) hfails).before hquiet
  cases stage with
  | attempting pool asking a => exact absurd rfl (hother pool asking a)
  | resolving r =>
    have hbarren := barren_refreshUntil hclosed inv.budget.deadline r
    simp only [turn, stageTurn]
    rcases hr : refreshUntil inv.budget.deadline w r with ⟨w', _ | r' | result⟩ <;> rw [hr] at hbarren
    · exact ⟨hbarren.quiet, id⟩
    · exact ⟨hbarren.quiet, id⟩
    · refine hafter hbarren.quiet fun heq => hbarren.fails ?_
      rw [Outcome.resolved.inj heq]
  | pausing wake =>
    simp only [turn, stageTurn]
    by_cases hwake : wake ≤ w.now
    · rw [if_pos hwake]
      exact hafter (.refl _) fun h => by cases h
    · rw [if_neg hwake]
      exact ⟨.refl _, id⟩
  | refreshing r =>
    have hbarren := barren_refreshUntil hclosed inv.budget.deadline r
    simp only [turn, stageTurn]
    rcases hr : refreshUntil inv.budget.deadline w r with ⟨w', _ | r' | result⟩ <;> rw [hr] at hbarren
    · exact ⟨hbarren.quiet, id⟩
    · exact ⟨hbarren.quiet, id⟩
    · exact hafter hbarren.quiet fun h => by cases h

/-- **An invocation of a closed client goes on with the attempt that it is making, or makes none.** -/
theorem turn_of_closed (hclosed : w.topology.closed = true) (inv : Invocation α) (stage : Stage) :
    w.topology.Quiet (inv.turn w stage).1.topology ∧
    ∀ inv' id asking a', (inv.turn w stage).2 = .running (inv', .attempting id asking a') →
      inv' = inv ∧ ∃ a, stage = .attempting id asking a := by
  have hno : ∀ {r : World N × Step α}, Closing w r → w.topology.Quiet r.1.topology ∧
      ∀ inv' id asking a', r.2 = .running (inv', .attempting id asking a') →
        inv' = inv ∧ ∃ a, stage = .attempting id asking a := fun h =>
    ⟨h.quiet, fun inv' id asking a' hr => absurd (by rw [hr]; trivial) h.none⟩
  cases stage with
  | attempting pool asking a =>
    have hquiet := quiet_attemptUntil inv.budget.deadline w inv.body inv.started a
    simp only [turn, stageTurn]
    rcases ha : attemptUntil inv.budget.deadline w inv.body inv.started a with ⟨w', _ | a' | ended⟩ <;>
      rw [ha] at hquiet
    · exact hno ⟨hquiet, id⟩
    · refine ⟨hquiet, fun inv' id' asking' a'' hr => ?_⟩
      cases hr
      exact ⟨rfl, a, rfl⟩
    · -- from the end of an attempt the way to the next one is by the head of the loop
      have hclosing : Closing w' (inv.after w' (.attempted pool asking ended)) := by
        refine closing_after (hquiet.closed.trans hclosed) fun h => ?_
        cases h
      exact hno (hclosing.before hquiet)
  | resolving r | pausing wake | refreshing r => exact hno (closing_turn hclosed inv fun _ _ _ h => by cases h)

end Invocation

namespace System

variable [Network N] {setup : Setup} {s s' : System N α}

/-- What may become of a client: events of any kind, and layouts installed and slots moved by hand. -/
inductive Leads (s : System N α) : System N α → Prop where
  | refl : Leads s s
  | step {s' : System N α} (e : Event N α) : Leads s s' → Leads s (s'.step e)
  | install {s' : System N α} (ranges : List SlotRange) : Leads s s' →
      Leads s (s'.operate (.install ranges))
  | move {s' : System N α} (slot : UInt16) (address : String) : Leads s s' →
      Leads s (s'.operate (.move slot address))

/-- After the closing an event lends links at most, unless it closes the client again. -/
theorem quiet_step (hclosed : s.world.topology.closed = true) {e : Event N α} (he : e ≠ .close) :
    s.world.topology.Quiet (s.step e).world.topology := by
  cases e with
  | start who request =>
    simp only [step]
    split
    · cases request with
      | invoke policy body slot deadline =>
        exact (Invocation.closing_next (w := s.seenBy who) hclosed none).quiet
      | refresh => exact .refl _
    · exact .refl _
  | turn who =>
    simp only [step]
    split
    · exact .refl _
    · rename_i a ha
      cases a with
      | invoking inv stage => exact (Invocation.turn_of_closed (w := s.seenBy who) hclosed inv stage).1
      | refreshing r => exact (Refresh.barren_turn (w := s.seenBy who) hclosed r).quiet
  | drop who =>
    simp only [step]
    split
    · exact .refl _
    · exact Activity.quiet_drop (s.seenBy who) _
  | elapse duration => exact .refl _
  | stir net => exact .refl _
  | close => exact absurd rfl he

/-- What is shut stays shut; no pool is made and no layout counted. -/
theorem Leads.shut (hlater : s.Leads s') (hs : s.world.topology.Shut) :
    s'.world.topology.Shut ∧ s'.world.topology.pools.length = s.world.topology.pools.length ∧
      s'.world.topology.generation = s.world.topology.generation := by
  induction hlater with
  | refl => exact ⟨hs, rfl, rfl⟩
  | @step s' e _ ih =>
    obtain ⟨hshut, hlength, hgeneration⟩ := ih
    by_cases he : e = .close
    · subst he
      refine ⟨hshut.close, ?_, hgeneration⟩
      exact (congrArg List.length hshut.pools_close).trans hlength
    · have hquiet := quiet_step hshut.closed he
      exact ⟨hshut.quiet hquiet, hquiet.length.trans hlength, hquiet.generation.trans hgeneration⟩
  | @install s' ranges _ ih =>
    have hsame : (s'.operate (.install ranges)).world.topology = s'.world.topology :=
      ih.1.apply_install ranges
    rw [hsame]
    exact ih
  | @move s' slot address _ ih =>
    have hsame : (s'.operate (.move slot address)).world.topology = s'.world.topology :=
      ih.1.apply_move slot address
    rw [hsame]
    exact ih

/-- **Closing is permanent.** A client is closed in any state, with any invocations and refreshes under
way, and whatever happens then: no slot is served, no pool is registered and none is made, every pool
that was ever made is retired, and no layout counts. A turn of an invocation lends links at most, and
the invocation goes on with the attempt that it was making or makes none. A refresh that is under way
does not end well and installs nothing; a layout is refused, and `MOVED` registers nothing. A call
whose keys are in order, any other invocation and a refresh all fail at once, as of a closed client,
and change nothing in the world, so that nothing goes over the network. -/
theorem closing_is_permanent (hs : s.Arises setup) (hlater : (s.step .close).Leads s') :
    ((∀ slot, s'.world.topology.poolFor? slot = none) ∧
      (∀ address, s'.world.topology.registered? address = none) ∧
      s'.world.topology.pools.length = s.world.topology.pools.length ∧
      (∀ id < s.world.topology.pools.length, (s'.world.pool id).closed = true) ∧
      s'.world.topology.generation = s.world.topology.generation) ∧
    (∀ who inv stage, s'.active who = some (.invoking inv stage) →
      s'.world.topology.Quiet (inv.turn (s'.seenBy who) stage).1.topology ∧
      ∀ inv' id asking a', (inv.turn (s'.seenBy who) stage).2 = .running (inv', .attempting id asking a') →
        inv' = inv ∧ ∃ a, stage = .attempting id asking a) ∧
    (∀ who r, s'.active who = some (.refreshing r) →
      s'.world.topology.Quiet (r.turn (s'.seenBy who)).1.topology ∧
      (r.turn (s'.seenBy who)).2 ≠ .done (.ok ())) ∧
    (∀ ranges, s'.world.topology.install ranges = .error .clientClosed) ∧
    (∀ slot address, s'.world.topology.move slot address = (none, s'.world.topology)) ∧
    (∀ who policy (c : Call α) slot, c.route.slot? = .ok slot →
      c.start (s'.seenBy who) policy = (s'.seenBy who, .done (.error .clientClosed))) ∧
    (∀ who policy (body : Body α) slot deadline,
      Invocation.start (s'.seenBy who) policy body slot deadline =
        (s'.seenBy who, .done (.error .clientClosed))) ∧
    ∀ who, Refresh.turn (s'.seenBy who) .entering = (s'.seenBy who, .done (.error .clientClosed)) := by
  obtain ⟨hshut, hlength, hgeneration⟩ := hlater.shut hs.agrees.shut
  have hmade : (s.step .close).world.topology.pools.length = s.world.topology.pools.length :=
    Topology.length_retain _ _
  have hclosed : ∀ who, (s'.seenBy who).topology.closed = true := fun _ => hshut.closed
  have hstart : ∀ who policy (body : Body α) slot deadline,
      Invocation.start (s'.seenBy who) policy body slot deadline =
        (s'.seenBy who, .done (.error .clientClosed)) := fun who policy body slot deadline =>
    Invocation.next_of_closed (hclosed who) _ none
  refine ⟨⟨hshut.unserved, hshut.registered?, hlength.trans hmade, fun id hid => ?_, hgeneration⟩,
    fun who inv stage _ => Invocation.turn_of_closed (hclosed who) inv stage, fun who r _ => ?_,
    hshut.install, Topology.move_of_closed hshut.closed, fun who policy c slot hslot => ?_, hstart,
    fun who => Refresh.turn_entering_of_closed (hclosed who)⟩
  · exact hshut.retired id ((hlength.trans hmade).symm ▸ hid)
  · have hbarren := Refresh.barren_turn (hclosed who) r
    exact ⟨hbarren.quiet, hbarren.fails⟩
  · unfold Call.start
    rw [hslot]
    exact hstart who policy c.body slot none

end System

namespace Prompt

/-- An attempt that will be redirected opens its link, and so does a refresh of another caller. -/
def afoot : System Prompt Unit := ((led.step (.start 1 .refresh)).step (.turn 1)).step (.turn 1)

/-- The client has been closed, and then the attempt has come to its redirect. -/
def forsaken : System Prompt Unit := (afoot.step .close).step (.turn 0)

theorem arises_afoot : afoot.Arises Topology.bare := .step _ (.step _ (.step _ arises_led))

theorem leads_forsaken : (afoot.step .close).Leads forsaken := .step _ .refl

/-- The refresh, whose link has been opened by now. -/
def reaching : Refresh := .discovering (.borrowing "a:1" [] [] (.dialling 0 (.connecting "a:1" 1 (milliseconds 2000))))

/-- The slot was served before. The redirect that came late has ended its invocation and has not
registered its node, the refresh goes on in vain, and a ping is refused. -/
theorem closing_is_permanent_afoot :
    afoot.Arises Topology.bare ∧ (afoot.step .close).Leads forsaken ∧
    afoot.world.topology.poolFor? 5 = some 0 ∧ forsaken.world.topology.poolFor? 5 = none ∧
    forsaken.active 0 = none ∧ forsaken.world.topology.registered? "b:1" = none ∧
    (forsaken.world.pool 0).closed = true ∧
    forsaken.active 1 = some (.refreshing reaching) ∧
    (reaching.turn (forsaken.seenBy 1)).2 ≠ .done (.ok ()) ∧
    Call.ping.start (forsaken.seenBy 2) once.policy =
      (forsaken.seenBy 2, .done (.error .clientClosed)) := by
  obtain ⟨⟨hunserved, hregistered, -, hretired, -⟩, -, hrefresh, -, -, hcall, -⟩ :=
    System.closing_is_permanent arises_afoot leads_forsaken
  have hserved : afoot.world.topology.poolFor? 5 = some 0 := by decide +kernel
  have hmade : 0 < afoot.world.topology.pools.length := by decide +kernel
  have hover : forsaken.active 0 = none := by with_unfolding_all rfl
  have hreaching : forsaken.active 1 = some (.refreshing reaching) := by with_unfolding_all rfl
  exact ⟨arises_afoot, leads_forsaken, hserved, hunserved 5, hover, hregistered "b:1",
    hretired 0 hmade, hreaching, (hrefresh 1 reaching hreaching).2,
    hcall 2 once.policy Call.ping none rfl⟩

end Prompt
end SlotRouter
