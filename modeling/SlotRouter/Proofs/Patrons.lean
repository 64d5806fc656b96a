import SlotRouter.Proofs.Agreement
import SlotRouter.Proofs.Books.Activities

/-!
# The patrons of a client's pools

Any number of patrons deal with the pools of a client. Some are callers, whose invocations and refreshes
borrow links on their own. Others come to a pool themselves: they borrow a link, send commands over it,
break an exchange off, and give the link back or have it dropped. Whatever a patron is about can be
given up at any moment. Meanwhile time passes, the network changes, layouts are installed and slots
moved, idle links are dropped, and single pools or the whole client are closed.

In every state that arises so the capacity of each pool is kept and none of it is lost
(`Patronage.capacity_is_kept`).

Key definitions: `Patron`, `Patronage.step`, `Patronage.Arises`, `Topology.Ages`. Key theorems:
`Patronage.step_cases`, `Arises.balanced`, `Arises.placed`, `Borrow.turn_of_retired`,
`Patronage.capacity_is_kept`.
-/

namespace SlotRouter

open List

/-! ### Pools grow old -/

namespace Topology

/-- Pools have been made and closed, and no closed one has been opened. -/
structure Ages (t t' : Topology) : Prop where
  setup : t'.setup = t.setup
  length : t.pools.length ≤ t'.pools.length
  retired : ∀ id < t.pools.length, (t.pool id).closed = true → (t'.pool id).closed = true

variable {t t' t'' : Topology}

namespace Ages

theorem refl (t : Topology) : t.Ages t := ⟨rfl, Nat.le_refl _, fun _ _ h => h⟩

theorem trans (h : t.Ages t') (h' : t'.Ages t'') : t.Ages t'' where
  setup := h'.setup.trans h.setup
  length := h.length.trans h'.length
  retired id hid hclosed := h'.retired id (Nat.lt_of_lt_of_le hid h.length) (h.retired id hid hclosed)

theorem quiet (h : t.Quiet t') : t.Ages t' where
  setup := h.setup
  length := h.length.ge
  retired id _ hclosed := (h.retired id).trans hclosed

/-- The pools are the same ones. -/
theorem same (hsetup : t'.setup = t.setup) (hpools : t'.pools = t.pools) : t.Ages t' := by
  refine ⟨hsetup, (congrArg List.length hpools).ge, fun id _ hclosed => ?_⟩
  unfold Topology.pool
  rw [hpools]
  exact hclosed

theorem grows (h : t.Grows t') : t.Ages t' := by
  refine ⟨?_, h.length_le, fun id hid hclosed => by rwa [h.pool hid]⟩
  obtain ⟨made, added, rfl⟩ := h
  rfl

theorem modifyPool (t : Topology) (id : PoolId) {change : Pool → Pool}
    (hretired : ∀ p, p.closed = true → (change p).closed = true) : t.Ages (t.modifyPool id change) := by
  refine ⟨rfl, (List.length_modify ..).ge, fun other _ hclosed => ?_⟩
  rw [pool_modifyPool]
  split_ifs
  · exact hretired _ hclosed
  · exact hclosed

theorem retain (t : Topology) (live : List String) : t.Ages (t.retain live) := by
  have hclosed := foldl_close_induction (P := t.Ages) (fun _ id ht => ht.trans (modifyPool _ id fun _ _ => rfl))
    (t.registry.filter fun e => !live.contains e.1) t (refl t)
  exact hclosed.trans (same rfl rfl)

/-- Whatever is done to a topology, it grows older by it. -/
theorem stepwise : Stepwise Ages where
  trans := trans
  quiet := quiet
  grows := grows
  retain := retain
  same := same

end Ages
end Topology

/-! ### Borrowers at a retired pool -/

namespace Borrow

/-- Whether the borrower is still without a permit. -/
def isWaiting : Borrow → Bool
  | .entering _ | .queued .. => true
  | .dialling .. => false

variable {N : Type} [Network N] {w : World N}

/-- **A retired pool lends nothing**, not even to those who have been waiting. -/
theorem turn_of_retired {id : PoolId} (hclosed : (w.pool id).closed = true)
    (hpermits : (w.pool id).permits.closed = true) {b : Borrow} (hpool : b.pool = id)
    (hwaiting : b.isWaiting = true) :
    (b.turn w).2 = .done (.error (.io (.retired (w.pool id).address))) := by
  subst hpool
  cases b with
  | entering id =>
    have hretired : (w.pool id).closed = true := hclosed
    simp only [turn, if_pos hretired]
    rfl
  | queued id ticket deadline =>
    have hrefused : (w.pool id).permits.closed = true := hpermits
    have hcollect : (w.pool id).permits.collect ticket = (.refused, (w.pool id).permits.abandon ticket) :=
      if_pos hrefused
    simp only [turn, hcollect]
    rfl
  | dialling id d => cases hwaiting

end Borrow

/-! ### Patrons -/

/-- Whoever deals with the pools of a client. -/
inductive Patron (α : Type) where
  | caller (activity : Activity α)
  /-- Wants a link of a pool. -/
  | borrower (borrow : Borrow)
  /-- Has a link in hand. -/
  | holder (pool : PoolId) (link : Link)
  /-- Has a link, and sends a command over it. -/
  | user (pool : PoolId) (exchange : Exchange)

namespace Patron

variable {N α : Type}

/-- What a patron has of a connection. -/
def holding? : Patron α → Option Holding
  | .caller a => a.holding?
  | .borrower b => b.holding?
  | .holder _ link => some (.inHand link)
  | .user _ x => some x.holding

/-- What a patron has of the pools and of the lock. -/
def footing : Patron α → Footing
  | .caller a => a.footing
  | .borrower b => b.footing .nothing
  | .holder id _ | .user id _ => .on id .holding .nothing

/-- What is left of a patron who may be gone. -/
def footing? (p? : Option (Patron α)) : Footing := (p?.map footing).getD (.off .nothing)

/-- The patron gives up; a link goes back to its pool. -/
def drop (w : World N) : Patron α → World N
  | .caller a => a.drop w
  | .borrower b => b.drop w
  | .holder id link => Loan.giveBack w id link false
  | .user id x => Loan.giveBack w id x.link false

variable [Network N]

/-- One turn of a patron, and what is left of him. -/
def turn (w : World N) : Patron α → World N × Option (Patron α)
  | .caller a =>
    let (w, a?) := a.turn w
    (w, a?.map .caller)
  | .borrower b =>
    match b.turn w with
    | (w, .blocked) => (w, some (.borrower b))
    | (w, .running b) => (w, some (.borrower b))
    | (w, .done (.ok loan)) => (w, some (.holder loan.pool loan.link))
    | (w, .done (.error _)) => (w, none)
  | .holder id link => (w, some (.holder id link))
  | .user id x =>
    match w.exchange x with
    | (w, .blocked) => (w, some (.user id x))
    | (w, .running x) => (w, some (.user id x))
    | (w, .done (link, _)) => (w, some (.holder id link))

end Patron

/-- A client on a network that is watched, and the patrons of its pools. -/
structure Patronage (N α : Type) where
  world : World (Watched N)
  patrons : Nat → Option (Patron α)

/-- What a patron can do. -/
inductive Deed (α : Type) where
  /-- Calls the client. -/
  | start (request : Request α)
  /-- Comes to a pool to borrow a link. -/
  | come (pool : PoolId)
  | turn
  /-- Begins to send a command over the link that he has. -/
  | send (command : Command)
  /-- Breaks an exchange off and keeps the link. -/
  | cut
  | giveBack (discard : Bool)
  /-- Gives up whatever he is about. -/
  | drop

/-- Does a deed; one that does not suit what the patron is about does nothing. -/
def Patron.does {N α : Type} [Network N] (w : World N) :
    Option (Patron α) → Deed α → World N × Option (Patron α)
  | none, .start request =>
    let (w, a?) := Activity.start w request
    (w, a?.map .caller)
  | none, .come id => if id < w.topology.pools.length then (w, some (.borrower (.entering id))) else (w, none)
  | some p, .turn => p.turn w
  | some (.holder id link), .send command => (w, some (.user id (.entering link command)))
  | some (.user id x), .cut => (w, some (.holder id x.link))
  | some (.holder id link), .giveBack discard => (Loan.giveBack w id link discard, none)
  | some p, .drop => (p.drop w, none)
  | p?, _ => (w, p?)

/-- What can happen. -/
inductive Dealing (N α : Type) where
  | does (who : Nat) (deed : Deed α)
  | elapse (duration : Nat)
  | stir (net : N)
  | operate (op : Topology.Operation)
  | invalidate (pool : PoolId)
  | closePool (pool : PoolId)

namespace Patronage

variable {N α : Type}

/-- The world for the patron whose turn it is. -/
def seenBy (s : Patronage N α) (who : Nat) : World (Watched N) :=
  { s.world with net := { s.world.net with who } }

/-- What a patron has of a connection. -/
def held (s : Patronage N α) (who : Nat) : Option Holding := (s.patrons who).bind Patron.holding?

/-- What a patron has of the pools and of the lock. -/
def footing (s : Patronage N α) (who : Nat) : Footing := Patron.footing? (s.patrons who)

/-- The patrons who have a link of the pool. -/
def borrowed (s : Patronage N α) (id : PoolId) : Set Nat := {who | (s.footing who).stake id = .holding}

/-- The patrons who open a link for the pool. -/
def connecting (s : Patronage N α) (id : PoolId) : Set Nat := {who | (s.footing who).stake id = .connecting}

/-- The client after a patron has acted. -/
def put (s : Patronage N α) (who : Nat) (r : World (Watched N) × Option (Patron α)) : Patronage N α where
  world := r.1
  patrons := Function.update s.patrons who r.2

/-- What a dealing does. -/
def step [Network N] (s : Patronage N α) : Dealing N α → Patronage N α
  | .does who deed => s.put who (Patron.does (s.seenBy who) (s.patrons who) deed)
  | .elapse duration => { s with world := { s.world with now := s.world.now + duration } }
  | .stir net => { s with world := { s.world with net := { s.world.net with net } } }
  | .operate op => { s with world := s.world.modifyTopology (·.apply op) }
  | .invalidate id => { s with world := s.world.modifyPool id Pool.invalidate }
  | .closePool id => { s with world := s.world.modifyPool id Pool.close }

/-- The states that a client comes to from a start with nothing known. -/
inductive Arises [Network N] (setup : Setup) : Patronage N α → Prop where
  | start {s : Patronage N α} (topology : s.world.topology = .fresh setup)
      (patrons : ∀ who, s.patrons who = none) : Arises setup s
  | step {s : Patronage N α} (d : Dealing N α) : Arises setup s → Arises setup (s.step d)

end Patronage

/-! ### What a patron does -/

variable {N α : Type}

/-- What the work of one patron does to the world: it keeps to his connection, it keeps the books, and it
does one thing to the topology. -/
structure Patron.Works (w : World (Watched N)) (p? : Option (Patron α))
    (r : World (Watched N) × Option (Patron α)) : Prop where
  moves : ∀ replies, Moves replies w (p?.bind Patron.holding?) r.1 (r.2.bind Patron.holding?)
  keeps : w.topology.Listed → w.topology.Keeps (Patron.footing? p?) r.1.topology (Patron.footing? r.2)
  change : w.topology.Change r.1.topology

/-- What happens without the work of a patron. -/
structure World.Stirs (w w' : World (Watched N)) : Prop where
  record : w'.net.record = w.net.record
  idle : w'.topology.idle <+ w.topology.idle
  balanced : ∀ footings, w.topology.Balanced footings → w'.topology.Balanced footings
  listed : w.topology.Listed → w'.topology.Listed
  ages : w.topology.Ages w'.topology

namespace Patron

theorem works_start (w : World (Watched N)) (request : Request α) :
    Works w none ((Activity.start w request).1, (Activity.start w request).2.map .caller) := by
  refine ⟨fun replies => ?_, fun hlisted => ?_, Activity.change_start w request⟩
  · have hm : Moves replies w _ _ _ := Activity.start_moves w request
    rcases hs : Activity.start w request with ⟨w', _ | a⟩ <;> rw [hs] at hm <;> exact hm
  · have hkeeps := Activity.keeps_start hlisted request
    rcases hs : Activity.start w request with ⟨w', _ | a⟩ <;> rw [hs] at hkeeps <;> exact hkeeps

theorem works_giveBack (w : World (Watched N)) {p : Patron α} {id : PoolId} {link : Link}
    (hholding : ∃ x, p.holding? = some x ∧ x.link? = some link)
    (hfooting : p.footing = .on id .holding .nothing) (discard : Bool) :
    Works w (some p) (Loan.giveBack w id link discard, none) := by
  obtain ⟨x, hx, hlink⟩ := hholding
  refine ⟨fun replies => ?_, fun _ => ?_, .quiet (Loan.quiet_giveBack w id link discard)⟩
  · show Moves replies w p.holding? _ none
    rw [hx]
    exact .giveBack hlink
  · show w.topology.Keeps p.footing _ (.off .nothing)
    rw [hfooting]
    exact Attempt.keeps_giveBack w id link discard

theorem works_drop (w : World (Watched N)) (p : Patron α) : Works w (some p) (p.drop w, none) := by
  cases p with
  | caller a => exact ⟨fun _ => a.drop_moves w, fun _ => a.keeps_drop w, .quiet (a.quiet_drop w)⟩
  | borrower b => exact ⟨fun _ => b.moves_drop w, fun _ => b.keeps_drop w, .quiet (b.quiet_drop w)⟩
  | holder id link => exact works_giveBack w ⟨_, rfl, rfl⟩ rfl false
  | user id x => exact works_giveBack w ⟨_, rfl, x.link?_holding⟩ rfl false

/-- Nothing is done, or the patron looks at what he has in another way. -/
theorem works_still (w : World (Watched N)) {p? p'? : Option (Patron α)}
    (hmoves : ∀ replies, Moves replies w (p?.bind holding?) w (p'?.bind holding?))
    (hfooting : footing? p'? = footing? p?) : Works w p? (w, p'?) :=
  ⟨hmoves, fun _ => hfooting ▸ .refl _ _, .quiet (.refl _)⟩

variable [Network N]

/-- **A turn of a patron** keeps to his connection and keeps the books. -/
theorem works_turn (w : World (Watched N)) (p : Patron α) : Works w (some p) (p.turn w) := by
  cases p with
  | caller a =>
    have hmoves : ∀ replies, Moves replies w _ _ _ := fun replies => a.turn_moves w
    have hkeeps := fun hlisted => a.keeps_turn (w := w) hlisted
    have hchange := a.change_turn w
    simp only [turn]
    rcases ha : a.turn w with ⟨w', _ | a'⟩ <;> rw [ha] at hmoves hkeeps hchange <;>
      exact ⟨hmoves, hkeeps, hchange⟩
  | borrower b =>
    have hmoves : ∀ replies, Moves replies w _ _ _ := fun replies => b.moves w
    have hkeeps := b.keeps_turn (l := .nothing) w
    have hquiet := b.quiet_turn w
    simp only [turn]
    rcases hb : b.turn w with ⟨w', _ | b' | e | loan⟩ <;> rw [hb] at hmoves hkeeps hquiet <;>
      exact ⟨hmoves, fun _ => hkeeps, .quiet hquiet⟩
  | holder id link => exact ⟨fun _ => .refl, fun _ => .refl _ _, .quiet (.refl _)⟩
  | user id x =>
    have hmoves : ∀ replies, Moves replies w _ _ _ := fun replies => x.moves w
    simp only [turn]
    rcases hx : w.exchange x with ⟨w', _ | x' | ⟨link, answer⟩⟩ <;> rw [hx] at hmoves <;>
      have hsame := World.topology_exchange hx
    · exact ⟨hmoves, fun _ => hsame ▸ .refl _ _, .quiet (hsame ▸ .refl _)⟩
    · exact ⟨hmoves, fun _ => hsame ▸ .refl _ _, .quiet (hsame ▸ .refl _)⟩
    · exact ⟨hmoves, fun _ => hsame ▸ .refl _ _, .quiet (hsame ▸ .refl _)⟩

/-- **So does every deed.** -/
theorem works_does (w : World (Watched N)) (p? : Option (Patron α)) (deed : Deed α) :
    Works w p? (does w p? deed) := by
  unfold does
  split
  · exact works_start w _
  · split_ifs with hid
    · exact ⟨fun _ => .refl, fun _ => .come hid, .quiet (.refl _)⟩
    · exact works_still w (fun _ => .refl) rfl
  · exact works_turn w _
  · exact works_still w (fun _ => .refl) rfl
  · exact works_still w (fun _ => .leave (Exchange.link?_holding _)) rfl
  · exact works_giveBack w ⟨_, rfl, rfl⟩ rfl _
  · exact works_drop w _
  · exact works_still w (fun _ => .refl) rfl

end Patron

namespace World.Stirs

variable {w : World (Watched N)}

theorem modifyPool (w : World (Watched N)) (id : PoolId) {change : Pool → Pool}
    (hidle : ∀ p, (change p).idle = []) (haddress : ∀ p, (change p).capacity = p.capacity)
    (hbalanced : ∀ p stakes, p.Balanced stakes → (change p).Balanced stakes)
    (hretired : ∀ p, p.closed = true → (change p).closed = true) : Stirs w (w.modifyPool id change) where
  record := rfl
  idle := Topology.idle_modifyPool fun p => hidle p ▸ List.nil_sublist p.idle
  balanced footings h := h.modifyPool change haddress hbalanced id
  listed h := by
    have hlength : (w.topology.modifyPool id change).pools.length = w.topology.pools.length :=
      List.length_modify ..
    exact ⟨fun address other hother => hlength ▸ h.registered address other hother,
      fun slot other hother => hlength ▸ h.served slot other hother, h.current⟩
  ages := .modifyPool w.topology id hretired

theorem apply (w : World (Watched N)) (op : Topology.Operation) :
    Stirs w (w.modifyTopology (·.apply op)) where
  record := rfl
  idle := w.topology.idle_apply op
  balanced _ h := h.apply op
  listed h := h.apply op
  ages := Topology.Ages.stepwise.apply _ op

end World.Stirs

namespace Patronage

variable [Network N] {setup : Setup} {s : Patronage N α}

/-- **A dealing is the work of one patron, or nobody's.** -/
theorem step_cases (s : Patronage N α) (d : Dealing N α) :
    (∃ who r, s.step d = s.put who r ∧ Patron.Works (s.seenBy who) (s.patrons who) r) ∨
    ∃ w, s.step d = { s with world := w } ∧ s.world.Stirs w := by
  cases d with
  | does who deed => exact .inl ⟨who, _, rfl, Patron.works_does (s.seenBy who) (s.patrons who) deed⟩
  | elapse duration => exact .inr ⟨_, rfl, rfl, List.Sublist.refl _, fun _ h => h, fun h => h, .refl _⟩
  | stir net => exact .inr ⟨_, rfl, rfl, List.Sublist.refl _, fun _ h => h, fun h => h, .refl _⟩
  | operate op => exact .inr ⟨_, rfl, .apply s.world op⟩
  | invalidate id =>
    exact .inr ⟨_, rfl, .modifyPool s.world id (fun _ => rfl) (fun _ => rfl) (fun _ _ h => h.invalidate)
      fun _ h => h⟩
  | closePool id =>
    exact .inr ⟨_, rfl, .modifyPool s.world id (fun _ => rfl) (fun _ => rfl) (fun _ _ h => h.close)
      fun _ _ => rfl⟩

omit [Network N] in
theorem footing_put (s : Patronage N α) (who : Nat) (r : World (Watched N) × Option (Patron α)) :
    (s.put who r).footing = Function.update s.footing who (Patron.footing? r.2) := by
  funext other
  by_cases hother : other = who
  · subst hother
    simp [footing, put]
  · simp [footing, put, hother]

omit [Network N] in
theorem held_put (s : Patronage N α) (who : Nat) (r : World (Watched N) × Option (Patron α)) :
    (s.put who r).held = Function.update s.held who (r.2.bind Patron.holding?) := by
  funext other
  by_cases hother : other = who
  · subst hother
    simp [held, put]
  · simp [held, put, hother]

/-- Pools only grow old. -/
theorem ages_step (s : Patronage N α) (d : Dealing N α) : s.world.topology.Ages (s.step d).world.topology := by
  rcases step_cases s d with ⟨who, r, hstep, hworks⟩ | ⟨w, hstep, hstirs⟩ <;> rw [hstep]
  · exact Topology.Ages.stepwise.change hworks.change
  · exact hstirs.ages

theorem ages_foldl (s : Patronage N α) (dealings : List (Dealing N α)) :
    s.world.topology.Ages (dealings.foldl step s).world.topology := by
  induction dealings generalizing s with
  | nil => exact .refl _
  | cons d dealings ih => exact (ages_step s d).trans (ih (s.step d))

theorem Arises.foldl (hs : s.Arises setup) (dealings : List (Dealing N α)) :
    (dealings.foldl Patronage.step s).Arises setup := by
  induction dealings generalizing s with
  | nil => exact hs
  | cons d dealings ih => exact ih (hs.step d)

theorem Arises.setup_eq (hs : s.Arises setup) : s.world.topology.setup = setup := by
  induction hs with
  | start topology patrons =>
    rw [topology]
    rfl
  | step d hs ih => exact (ages_step _ d).setup.trans ih

/-- **The books of the pools balance**, and the pools that are named have been made. -/
theorem Arises.balanced (hs : s.Arises setup) :
    s.world.topology.Listed ∧ s.world.topology.Balanced s.footing := by
  induction hs with
  | @start s topology patrons =>
    have hnobody : s.footing = fun _ => .off .nothing := by
      funext who
      simp [footing, patrons who, Patron.footing?]
    rw [topology, hnobody]
    exact ⟨.fresh setup, .fresh setup⟩
  | @step s d hs ih =>
    obtain ⟨hlisted, hbalanced⟩ := ih
    rcases step_cases s d with ⟨who, r, hstep, hworks⟩ | ⟨w, hstep, hstirs⟩ <;> rw [hstep]
    · rw [footing_put]
      exact ⟨hlisted.change hworks.change, (hworks.keeps hlisted).balanced s.footing who hbalanced rfl⟩
    · exact ⟨hstirs.listed hlisted, hstirs.balanced _ hbalanced⟩

theorem record_step (s : Patronage N α) (d : Dealing N α) :
    s.world.net.record <:+ (s.step d).world.net.record := by
  rcases step_cases s d with ⟨who, r, hstep, hworks⟩ | ⟨w, hstep, hstirs⟩ <;> rw [hstep]
  · exact (hworks.moves default).suffix
  · exact ⟨[], hstirs.record.symm⟩

/-- **Every connection is in one place**, as long as those that are opened are new ones. -/
theorem Arises.placed (hs : s.Arises setup) (hfresh : (Traffic.openings s.world.net.record).Nodup) :
    Placed s.world.topology s.world.net.record s.held := by
  induction hs with
  | @start s topology patrons =>
    have hnobody : s.held = fun _ => none := by
      funext who
      simp [held, patrons who]
    rw [hnobody, topology]
    exact .nobody rfl
  | @step s d hs ih =>
    have hbefore := Traffic.nodup_openings_of_suffix hfresh (record_step s d)
    rcases step_cases s d with ⟨who, r, hstep, hworks⟩ | ⟨w, hstep, hstirs⟩ <;> rw [hstep] at hfresh ⊢
    · rw [held_put]
      have hplaced : Placed (s.seenBy who).topology (s.seenBy who).net.record s.held := ih hbefore
      exact hplaced.put (hworks.moves default) hfresh
    · have hplaced := (ih hbefore).drop_idle hstirs.idle
      rw [← hstirs.record] at hplaced
      exact hplaced

end Patronage

/-! ### Who has a permit -/

/-- Whoever has a permit has a link or opens one: no turn ends in between. -/
def Footing.AtRest (f : Footing) : Prop := ∀ id, f.stake id ≠ .waiting .permit

theorem Footing.atRest_on (id : PoolId) {x : Pool.Stake} (h : x ≠ .waiting .permit) (l : Semaphore.Stake) :
    (Footing.on id x l).AtRest := by
  intro other
  by_cases hother : id = other
  · subst hother
    rw [Footing.stake_on_self]
    exact h
  · rw [Footing.stake_on_of_ne hother]
    exact nofun

theorem Footing.atRest_off (l : Semaphore.Stake) : (Footing.off l).AtRest := fun _ => nofun

/-- A stake with a link is the stake at the pool that the party has come to. -/
theorem Footing.hasLink_on {own id : PoolId} {x : Pool.Stake} {l : Semaphore.Stake}
    (h : ((Footing.on own x l).stake id).hasLink = true) : x.hasLink = true := by
  by_cases hown : own = id
  · subst hown
    rwa [Footing.stake_on_self] at h
  · rw [Footing.stake_on_of_ne hown] at h
    cases h

/-- What is known of a footing and of the connection that goes with it: no permit is without a link, and
no link without a connection. -/
structure Footing.Suits (f : Footing) (H : Option Holding) : Prop where
  atRest : f.AtRest
  linked : ∀ id, (f.stake id).hasLink = true → ∃ x, H = some x

namespace Footing.Suits

theorem off (l : Semaphore.Stake) (H : Option Holding) : (Footing.off l).Suits H := ⟨atRest_off l, nofun⟩

theorem waiting (id : PoolId) (stake : Semaphore.Stake) (h : stake ≠ .permit) (l : Semaphore.Stake)
    (H : Option Holding) : (Footing.on id (.waiting stake) l).Suits H :=
  ⟨atRest_on id (fun heq => h (Pool.Stake.waiting.inj heq)) l, fun _ hlink => absurd (hasLink_on hlink) nofun⟩

theorem linked_on (id : PoolId) {x : Pool.Stake} (h : x.hasLink = true) (l : Semaphore.Stake) (y : Holding) :
    (Footing.on id x l).Suits (some y) := by
  refine ⟨atRest_on id ?_ l, fun _ _ => ⟨y, rfl⟩⟩
  rintro rfl
  cases h

end Footing.Suits

namespace Borrow

theorem suits (l : Semaphore.Stake) (b : Borrow) : (b.footing l).Suits b.holding? := by
  cases b with
  | entering id => exact .waiting id .nothing nofun l _
  | queued id ticket deadline => exact .waiting id (.queued ticket) nofun l _
  | dialling id d => exact .linked_on id rfl l _

end Borrow

theorem Attempt.suits (a : Attempt) : a.footing.Suits a.holding? := by
  cases a with
  | borrowing asking b => exact b.suits .nothing
  | announcing id x => exact .linked_on id rfl .nothing _
  | running id heard p => exact .linked_on id rfl .nothing _
  | resting id heard link wake => exact .linked_on id rfl .nothing _

theorem Refresh.suits (r : Refresh) : r.footing.Suits r.holding? := by
  rcases r with _ | ⟨seen, ticket⟩ | ⟨node, nodes, seeds, b⟩ | ⟨node, nodes, seeds, id, x⟩ | d | x
  · exact .off .nothing _
  · exact .off (.queued ticket) _
  · exact b.suits .permit
  · exact .linked_on id rfl .permit _
  · exact .off .permit _
  · exact .off .permit _

theorem Activity.suits (a : Activity α) : a.footing.Suits a.holding? := by
  rcases a with ⟨inv, r | ⟨id, asking, a⟩ | wake | r⟩ | r
  · exact r.suits
  · exact a.suits
  · exact .off .nothing _
  · exact r.suits
  · exact r.suits

theorem Patron.suits (p? : Option (Patron α)) : (Patron.footing? p?).Suits (p?.bind Patron.holding?) := by
  rcases p? with _ | a | b | ⟨id, link⟩ | ⟨id, x⟩
  · exact .off .nothing _
  · exact a.suits
  · exact b.suits .nothing
  · exact .linked_on id rfl .nothing _
  · exact .linked_on id rfl .nothing _

namespace Patronage

variable [Network N] {setup : Setup} {s : Patronage N α}

omit [Network N] in
/-- Those with a link, and those who open one. -/
theorem linked_eq (s : Patronage N α) (id : PoolId) :
    {who | ((s.footing who).stake id).hasLink = true} = s.borrowed id ∪ s.connecting id := by
  ext who
  show ((s.footing who).stake id).hasLink = true ↔
    (s.footing who).stake id = .holding ∨ (s.footing who).stake id = .connecting
  cases (s.footing who).stake id <;> simp [Pool.Stake.hasLink]

omit [Network N] in
theorem permitted_eq (s : Patronage N α) (id : PoolId) :
    {who | ((s.footing who).stake id).permits = .permit} = s.borrowed id ∪ s.connecting id := by
  rw [← linked_eq]
  ext who
  show ((s.footing who).stake id).permits = .permit ↔ ((s.footing who).stake id).hasLink = true
  have hrest := (Patron.suits (s.patrons who)).atRest id
  change (s.footing who).stake id ≠ _ at hrest
  refine ⟨fun h => ?_, Pool.Stake.permits_of_hasLink⟩
  cases hstake : (s.footing who).stake id with
  | waiting stake =>
    rw [hstake] at h hrest
    exact absurd (congrArg Pool.Stake.waiting h) hrest
  | connecting | holding => rfl

omit [Network N] in
theorem disjoint_borrowed_connecting (s : Patronage N α) (id : PoolId) :
    Disjoint (s.borrowed id) (s.connecting id) := by
  refine Set.disjoint_left.2 fun who hborrowed hconnecting => ?_
  have heq : Pool.Stake.holding = .connecting := hborrowed.symm.trans hconnecting
  cases heq

/-- **The capacity of a pool is kept, and none of it is lost.** In every state that arises, however the
patrons of a pool have dealt with it, its capacity is the one that was set, and at least one. The
permits that nobody has taken, be they free or granted to somebody who has not picked his up, the links
that are lent, and those that are being opened are together as many; idle links, links that are lent
and links that are being opened are no more. A permit that has been granted and not picked up belongs
to somebody who waits for one, and when nobody has anything of the pool, all permits are free. Whoever
has a link or opens one has a connection, and as long as connections that are opened are new ones, no
connection is idle twice, or idle and lent, or lent twice. Once the pool is closed it stays closed
and nothing is idle in it, whatever happens; and a borrower who comes then, or has been waiting for a
permit, is told at his turn that the pool has been retired. -/
theorem capacity_is_kept (hs : s.Arises setup) {id : PoolId} (hid : id < s.world.topology.pools.length) :
    (s.world.pool id).capacity = max setup.pool.maxConnections 1 ∧
    ((s.borrowed id).Finite ∧ (s.connecting id).Finite) ∧
    (s.world.pool id).permits.untaken + (s.borrowed id).ncard + (s.connecting id).ncard =
      (s.world.pool id).capacity ∧
    (s.world.pool id).idle.length + (s.borrowed id).ncard + (s.connecting id).ncard ≤
      (s.world.pool id).capacity ∧
    (∀ ticket ∈ (s.world.pool id).permits.granted,
      ∃ who, (s.footing who).stake id = .waiting (.queued ticket)) ∧
    ((∀ who, (s.footing who).stake id = .none) → (s.world.pool id).permits.free = (s.world.pool id).capacity) ∧
    (∀ who ∈ s.borrowed id ∪ s.connecting id, ∃ x, s.held who = some x) ∧
    ((Traffic.openings s.world.net.record).Nodup →
      (s.world.topology.idle.map Link.handle).Nodup ∧
      (∀ who x, s.held who = some x → ∀ link ∈ s.world.topology.idle, link.handle ≠ x.handle) ∧
      ∀ who other x y, who ≠ other → s.held who = some x → s.held other = some y → x.handle ≠ y.handle) ∧
    ((s.world.pool id).closed = true → ∀ dealings : List (Dealing N α),
      ((dealings.foldl step s).world.pool id).closed = true ∧
      ((dealings.foldl step s).world.pool id).idle = [] ∧
      ∀ who (b : Borrow), b.pool = id → b.isWaiting = true → (b.turn ((dealings.foldl step s).seenBy who)).2 =
        .done (.error (.io (.retired ((dealings.foldl step s).world.pool id).address)))) := by
  obtain ⟨-, hbalanced⟩ := hs.balanced
  have hpool : (s.world.pool id).Balanced fun who => (s.footing who).stake id := hbalanced.pools id hid
  have hfinite : (s.borrowed id ∪ s.connecting id).Finite := permitted_eq s id ▸ hpool.permits.finite
  have hborrowed := hfinite.subset Set.subset_union_left
  have hconnecting := hfinite.subset Set.subset_union_right
  have hcount : (s.borrowed id ∪ s.connecting id).ncard = (s.borrowed id).ncard + (s.connecting id).ncard :=
    Set.ncard_union_eq (disjoint_borrowed_connecting s id) hborrowed hconnecting
  refine ⟨hs.setup_eq ▸ hbalanced.capacity id hid, ⟨hborrowed, hconnecting⟩, ?_, ?_, fun ticket hticket => ?_,
    fun hnobody => ?_, fun who hwho => ?_, fun hfresh => ?_, fun hclosed dealings => ?_⟩
  · have hbalance := hpool.permits.balance
    rw [permitted_eq, hcount] at hbalance
    rwa [Nat.add_assoc]
  · have hlinks := hpool.links
    rw [linked_eq, hcount] at hlinks
    rwa [Nat.add_assoc]
  · obtain ⟨who, hwho⟩ := hpool.permits.owned ticket (List.mem_append_left _ hticket)
    refine ⟨who, ?_⟩
    cases hstake : (s.footing who).stake id with
    | waiting stake =>
      rw [hstake] at hwho
      exact congrArg Pool.Stake.waiting hwho
    | connecting | holding =>
      rw [hstake] at hwho
      cases hwho
  · refine hpool.permits.free_eq fun who => ?_
    rw [hnobody who]
    rfl
  · have hlinked : ((s.footing who).stake id).hasLink = true := by
      rw [← linked_eq] at hwho
      exact hwho
    exact (Patron.suits (s.patrons who)).linked id hlinked
  · have hplaced := hs.placed hfresh
    exact ⟨hplaced.idle, hplaced.away, hplaced.apart⟩
  · -- the books of the later state say that a retired pool has nothing idle and its permits are closed
    have hages := ages_foldl s dealings
    have hlater := (hs.foldl dealings).balanced.2.pools id (Nat.lt_of_lt_of_le hid hages.length)
    have hstays := hages.retired id hid hclosed
    obtain ⟨hpermits, hidle⟩ := hlater.retired hstays
    refine ⟨hstays, hidle, fun who b hb hwaiting => ?_⟩
    exact Borrow.turn_of_retired (w := (dealings.foldl step s).seenBy who) hstays hpermits hb hwaiting

end Patronage

namespace Prompt

/-- A client that may have one link to a node. -/
def narrow : Setup := { Topology.bare with pool := { maxConnections := 1 } }

/-- Nobody deals with the pools. -/
def vacant : Patronage Prompt Unit where
  world := { topology := .fresh narrow, net := { net := {} } }
  patrons _ := none

/-- One patron has the only link to a node, and another one waits for it. -/
def lent : Patronage Prompt Unit :=
  [.operate (.obtain "a:1"), .does 0 (.come 0), .does 0 .turn, .does 0 .turn, .does 1 (.come 0),
    .does 1 .turn].foldl Patronage.step vacant

/-- The pool has been closed then. -/
def withdrawn : Patronage Prompt Unit := lent.step (.closePool 0)

/-- The borrower that waits. -/
def patient : Borrow := .queued 0 0 (milliseconds 2000)

theorem arises_lent : lent.Arises narrow :=
  Patronage.Arises.foldl (.start rfl fun _ => rfl) _

/-- The one permit is with the link that is lent, and none is left for the second borrower. Once the pool
is closed, he is told so. -/
theorem capacity_is_kept_lent :
    lent.Arises narrow ∧ 0 < lent.world.topology.pools.length ∧
    0 ∈ lent.borrowed 0 ∧ lent.patrons 1 = some (.borrower patient) ∧
    (lent.world.pool 0).permits.untaken + (lent.borrowed 0).ncard + (lent.connecting 0).ncard = 1 ∧
    (lent.borrowed 0).ncard = 1 ∧
    (patient.turn (withdrawn.seenBy 1)).2 = .done (.error (.io (.retired "a:1"))) := by
  have hmade : 0 < lent.world.topology.pools.length := by decide
  have hborrowed : 0 ∈ lent.borrowed 0 := rfl
  obtain ⟨hcapacity, ⟨hfinite, -⟩, hbalance, -⟩ := Patronage.capacity_is_kept arises_lent hmade
  have hone : (lent.world.pool 0).permits.untaken + (lent.borrowed 0).ncard + (lent.connecting 0).ncard = 1 :=
    hbalance.trans hcapacity
  have hsome : 0 < (lent.borrowed 0).ncard := (Set.ncard_pos hfinite).2 ⟨0, hborrowed⟩
  obtain ⟨-, -, -, -, -, -, -, -, hclosed⟩ := Patronage.capacity_is_kept (arises_lent.step (.closePool 0)) hmade
  exact ⟨arises_lent, hmade, hborrowed, rfl, hone, by omega, (hclosed rfl []).2.2 1 patient rfl rfl⟩

end Prompt
end SlotRouter
