import Mathlib.Tactic.SplitIfs
import SlotRouter.Invocation
import SlotRouter.Proofs.Registry

/-!
# What a turn does to the topology

Most turns only lend links and take them back (`Topology.Quiet`): they change neither the registry
nor a table, and no pool is made or retired. All else that a turn can do is one operation: a refresh
installs a layout and is counted, `MOVED` moves a slot, or `ASK` registers its node
(`Topology.Change`).

Key definitions: `Topology.Quiet`, `Topology.Change`, `Topology.Stepwise`. Key theorems: `Stepwise.change`,
`Attempt.quiet_turn`, `Refresh.change_turn`, `Invocation.change_turn`.
-/

namespace SlotRouter

variable {N α : Type}

namespace Topology

/-- Links have been lent and given back, the lock has changed hands, chance has been asked: nothing
else has changed. -/
structure Quiet (t t' : Topology) : Prop where
  setup : t'.setup = t.setup
  registry : t'.registry = t.registry
  tables : t'.tables = t.tables
  current : t'.current = t.current
  generation : t'.generation = t.generation
  closed : t'.closed = t.closed
  length : t'.pools.length = t.pools.length
  address : ∀ id, (t'.pool id).address = (t.pool id).address
  retired : ∀ id, (t'.pool id).closed = (t.pool id).closed

variable {t t' t'' : Topology}

namespace Quiet

theorem refl (t : Topology) : t.Quiet t :=
  ⟨rfl, rfl, rfl, rfl, rfl, rfl, rfl, fun _ => rfl, fun _ => rfl⟩

theorem trans (h : t.Quiet t') (h' : t'.Quiet t'') : t.Quiet t'' where
  setup := h'.setup.trans h.setup
  registry := h'.registry.trans h.registry
  tables := h'.tables.trans h.tables
  current := h'.current.trans h.current
  generation := h'.generation.trans h.generation
  closed := h'.closed.trans h.closed
  length := h'.length.trans h.length
  address id := (h'.address id).trans (h.address id)
  retired id := (h'.retired id).trans (h.retired id)

theorem registered? (h : t.Quiet t') (address : String) :
    t'.registered? address = t.registered? address := by
  unfold Topology.registered?
  rw [h.registry]

theorem poolFor? (h : t.Quiet t') (slot : Nat) : t'.poolFor? slot = t.poolFor? slot := by
  unfold Topology.poolFor? table
  rw [h.tables, h.current]

theorem agrees (h : t.Quiet t') (ht : t.Agrees) : t'.Agrees where
  distinct := h.registry ▸ ht.distinct
  made address id hid := by
    rw [h.length, h.address]
    exact ht.made address id (h.registry ▸ hid)
  entries slot id hid := by
    rw [h.address, h.registered?]
    exact ht.entries slot id (h.poolFor? slot ▸ hid)
  closed id hid := by
    rw [h.retired, h.registry]
    exact ht.closed id (h.length ▸ hid)
  latest := by
    rw [h.current, h.tables]
    exact ht.latest

theorem modifyPool {id : PoolId} {f : Pool → Pool}
    (haddress : (f (t.pool id)).address = (t.pool id).address)
    (hretired : (f (t.pool id)).closed = (t.pool id).closed) : t.Quiet (t.modifyPool id f) := by
  refine ⟨rfl, rfl, rfl, rfl, rfl, rfl, List.length_modify .., fun other => ?_, fun other => ?_⟩
  · rw [pool_modifyPool]
    split_ifs with hother
    · obtain ⟨rfl, -⟩ := hother
      exact haddress
    · rfl
  · rw [pool_modifyPool]
    split_ifs with hother
    · obtain ⟨rfl, -⟩ := hother
      exact hretired
    · rfl

theorem refreshLock (t : Topology) (lock : Semaphore) : t.Quiet { t with refreshLock := lock } :=
  ⟨rfl, rfl, rfl, rfl, rfl, rfl, rfl, fun _ => rfl, fun _ => rfl⟩

theorem draws (t : Topology) (draws : Nat) : t.Quiet { t with draws } :=
  ⟨rfl, rfl, rfl, rfl, rfl, rfl, rfl, fun _ => rfl, fun _ => rfl⟩

end Quiet

/-- What one event can do to a topology. -/
inductive Change (t t' : Topology) : Prop where
  | quiet (h : t.Quiet t')
  /-- A refresh has installed a layout. -/
  | refreshed {t₁ t₂ : Topology} {ranges : List SlotRange} (before : t.Quiet t₁)
      (h : t₁.install ranges = .ok t₂) (after : Quiet { t₂ with generation := t₂.generation + 1 } t')
  | moved {t₁ : Topology} (before : t.Quiet t₁) (slot : UInt16) (address : String)
      (after : Quiet (t₁.move slot.toNat address).2 t')
  | obtained {t₁ : Topology} (before : t.Quiet t₁) (address : String)
      (after : Quiet (t₁.obtain address).2 t')
  | closed {t₁ : Topology} (before : t.Quiet t₁) (after : t₁.close.Quiet t')

namespace Change

theorem before (hq : t.Quiet t') (h : t'.Change t'') : t.Change t'' := by
  cases h with
  | quiet h => exact .quiet (hq.trans h)
  | refreshed before h after => exact .refreshed (hq.trans before) h after
  | moved before slot address after => exact .moved (hq.trans before) slot address after
  | obtained before address after => exact .obtained (hq.trans before) address after
  | closed before after => exact .closed (hq.trans before) after

theorem after (h : t.Change t') (hq : t'.Quiet t'') : t.Change t'' := by
  cases h with
  | quiet h => exact .quiet (h.trans hq)
  | refreshed before h after => exact .refreshed before h (after.trans hq)
  | moved before slot address after => exact .moved before slot address (after.trans hq)
  | obtained before address after => exact .obtained before address (after.trans hq)
  | closed before after => exact .closed before (after.trans hq)

/-- No event makes the registry and the table disagree. -/
theorem agrees (h : t.Change t') (ht : t.Agrees) : t'.Agrees := by
  cases h with
  | quiet h => exact h.agrees ht
  | @refreshed t₁ t₂ ranges before h after =>
    obtain ⟨hdistinct, hmade, hentries, hclosed, hlatest⟩ := (before.agrees ht).install h
    exact after.agrees ⟨hdistinct, hmade, hentries, hclosed, hlatest⟩
  | moved before slot address after => exact after.agrees ((before.agrees ht).move slot.toNat address)
  | obtained before address after => exact after.agrees ((before.agrees ht).obtain address)
  | closed before after => exact after.agrees (before.agrees ht).close

end Change

/-- A relation between a topology and a later one that holds of each step in which the operations are done, and of
steps in a row. -/
structure Stepwise (R : Topology → Topology → Prop) : Prop where
  trans : ∀ {t t' t'' : Topology}, R t t' → R t' t'' → R t t''
  quiet : ∀ {t t' : Topology}, t.Quiet t' → R t t'
  grows : ∀ {t t' : Topology}, t.Grows t' → R t t'
  retain : ∀ (t : Topology) (live : List String), R t (t.retain live)
  /-- The pools are the same ones. -/
  same : ∀ {t t' : Topology}, t'.setup = t.setup → t'.pools = t.pools → R t t'

namespace Stepwise

variable {R : Topology → Topology → Prop}

theorem install (hR : Stepwise R) {ranges : List SlotRange} (ht : t.install ranges = .ok t') : R t t' := by
  obtain ⟨-, rfl⟩ := of_install ht
  have hlaid : R t ((t.layOut .empty ranges).2.putInForce (t.layOut .empty ranges).1) :=
    hR.trans (hR.grows (.layOut t .empty ranges)) (hR.same rfl rfl)
  exact hR.trans hlaid (hR.retain _ _)

theorem move (hR : Stepwise R) (t : Topology) (slot : Nat) (address : String) : R t (t.move slot address).2 := by
  cases hclosed : t.closed with
  | true =>
    rw [move_of_closed hclosed]
    exact hR.quiet (.refl t)
  | false =>
    rw [move_of_open hclosed]
    exact hR.trans (hR.grows (.obtain t address)) (hR.same rfl rfl)

theorem close (hR : Stepwise R) (t : Topology) : R t t.close := by
  have hmarked : R t (({ t with closed := true } : Topology).putInForce .empty) := hR.same rfl rfl
  exact hR.trans hmarked (hR.retain _ [])

/-- It holds of each operation. -/
theorem apply (hR : Stepwise R) (t : Topology) (op : Operation) : R t (t.apply op) := by
  cases op with
  | install ranges =>
    unfold Topology.apply
    dsimp only
    split
    · rename_i ht
      exact hR.install ht
    · exact hR.quiet (.refl t)
  | move slot address => exact hR.move t slot.toNat address
  | obtain address => exact hR.grows (.obtain t address)
  | close => exact hR.close t

/-- **It holds of each event.** -/
theorem change (hR : Stepwise R) (h : t.Change t') : R t t' := by
  cases h with
  | quiet h => exact hR.quiet h
  | @refreshed t₁ t₂ ranges before hinstall after =>
    have hcounted : R t₂ { t₂ with generation := t₂.generation + 1 } := hR.same rfl rfl
    exact hR.trans (hR.quiet before) (hR.trans (hR.install hinstall) (hR.trans hcounted (hR.quiet after)))
  | moved before slot address after =>
    exact hR.trans (hR.quiet before) (hR.trans (hR.move _ slot.toNat address) (hR.quiet after))
  | obtained before address after =>
    exact hR.trans (hR.quiet before) (hR.trans (hR.grows (.obtain _ address)) (hR.quiet after))
  | closed before after => exact hR.trans (hR.quiet before) (hR.trans (hR.close _) (hR.quiet after))

end Stepwise

end Topology

/-! ### Borrowers and attempts -/

theorem World.quiet_modifyPool (w : World N) (id : PoolId) {f : Pool → Pool}
    (haddress : ∀ p, (f p).address = p.address) (hretired : ∀ p, (f p).closed = p.closed) :
    w.topology.Quiet (w.modifyPool id f).topology := .modifyPool (haddress _) (hretired _)

theorem Pool.takeIdle_same (p : Pool) :
    p.takeIdle.2.address = p.address ∧ p.takeIdle.2.closed = p.closed := by
  unfold takeIdle
  split <;> exact ⟨rfl, rfl⟩

theorem Pool.giveBack_same (p : Pool) (link : Link) (discard : Bool) :
    (p.giveBack link discard).address = p.address ∧ (p.giveBack link discard).closed = p.closed := by
  unfold giveBack keep returnPermit
  split <;> exact ⟨rfl, rfl⟩

theorem Loan.quiet_giveBack (w : World N) (id : PoolId) (link : Link) (discard : Bool) :
    w.topology.Quiet (Loan.giveBack w id link discard).topology :=
  w.quiet_modifyPool id (fun p => (p.giveBack_same link discard).1) fun p => (p.giveBack_same link discard).2

namespace World

variable [Network N] {w w' : World N}

theorem topology_exchange {x : Exchange} {t : Turn Exchange Answered} (h : w.exchange x = (w', t)) :
    w'.topology = w.topology := by
  obtain ⟨rfl, -⟩ := Prod.mk.inj h
  rfl

theorem topology_dialOn {d : Dial} {t : Turn Dial (Except Error Link)} (h : w.dialOn d = (w', t)) :
    w'.topology = w.topology := by
  obtain ⟨rfl, -⟩ := Prod.mk.inj h
  rfl

end World

namespace Borrow

theorem quiet_drop (w : World N) (b : Borrow) : w.topology.Quiet (b.drop w).topology := by
  cases b with
  | entering id => exact .refl _
  | queued id ticket deadline => exact w.quiet_modifyPool id (fun _ => rfl) fun _ => rfl
  | dialling id d => exact w.quiet_modifyPool id (fun _ => rfl) fun _ => rfl

theorem quiet_withPermits (w : World N) (id : PoolId) (permits : Semaphore) :
    w.topology.Quiet (withPermits w id permits).topology :=
  w.quiet_modifyPool id (fun _ => rfl) fun _ => rfl

variable [Network N]

theorem quiet_permitted (w : World N) (id : PoolId) : w.topology.Quiet (permitted w id).1.topology := by
  have hsame := (w.pool id).takeIdle_same
  unfold permitted
  rcases htake : (w.pool id).takeIdle with ⟨_ | link, p⟩ <;> rw [htake] at hsame
  · exact .modifyPool hsame.1 hsame.2
  · exact .modifyPool hsame.1 hsame.2

theorem quiet_turn (w : World N) (b : Borrow) : w.topology.Quiet (b.turn w).1.topology := by
  cases b with
  | entering id =>
    simp only [turn]
    split_ifs
    · exact .refl _
    · split
      · exact .refl _
      · exact (quiet_withPermits w id _).trans (quiet_permitted _ id)
      · exact quiet_withPermits w id _
  | queued id ticket deadline =>
    simp only [turn]
    split
    · exact quiet_withPermits w id _
    · exact (quiet_withPermits w id _).trans (quiet_permitted _ id)
    · split_ifs
      · exact quiet_drop w (.queued id ticket deadline)
      · exact .refl _
  | dialling id d =>
    simp only [turn]
    rcases hd : w.dialOn d with ⟨w', _ | d' | e | link⟩ <;> rw [← World.topology_dialOn hd]
    · exact .refl _
    · exact .refl _
    · exact w'.quiet_modifyPool id (fun _ => rfl) fun _ => rfl
    · exact .refl _

end Borrow

namespace Attempt

theorem quiet_drop (w : World N) (a : Attempt) : w.topology.Quiet (a.drop w).topology := by
  cases a with
  | borrowing asking b => exact b.quiet_drop w
  | announcing id x => exact Loan.quiet_giveBack w id x.link false
  | running id heard p => exact Loan.quiet_giveBack w id p.exchange.link false
  | resting id heard link wake => exact Loan.quiet_giveBack w id link false

theorem quiet_proceed (w : World N) (body : Body α) (started : Nat) (id : PoolId) (link : Link)
    (heard : List Patience.Heard) : w.topology.Quiet (proceed w body started id link heard).1.topology := by
  unfold proceed
  split
  · exact .refl _
  · exact .refl _
  · exact Loan.quiet_giveBack w id link _

variable [Network N]

theorem topology_patience (w : World N) (p : Patience) : (p.turn w).1.topology = w.topology := by
  unfold Patience.turn
  rcases hx : w.exchange p.exchange with ⟨w', _ | x | ⟨link, answer⟩⟩ <;>
    have hsame := World.topology_exchange hx
  · dsimp only
    split
    · split_ifs <;> exact hsame
    · exact hsame
  · exact hsame
  · exact hsame

/-- **A turn of an attempt only lends a link or takes it back.** -/
theorem quiet_turn (w : World N) (body : Body α) (started : Nat) (a : Attempt) :
    w.topology.Quiet (a.turn w body started).1.topology := by
  cases a with
  | borrowing asking b =>
    have hquiet := b.quiet_turn w
    simp only [turn]
    rcases hb : b.turn w with ⟨w', _ | b' | e | loan⟩ <;> rw [hb] at hquiet
    · exact hquiet
    · exact hquiet
    · exact hquiet
    · dsimp only
      split_ifs
      · exact hquiet
      · exact hquiet.trans (quiet_proceed w' body started loan.pool loan.link [])
  | announcing id x =>
    simp only [turn]
    rcases hx : w.exchange x with ⟨w', _ | x' | ⟨link, e | f⟩⟩ <;> rw [← World.topology_exchange hx]
    · exact .refl _
    · exact .refl _
    · exact Loan.quiet_giveBack w' id link false
    · exact quiet_proceed w' body started id link []
  | running id heard p =>
    have hsame := topology_patience w p
    simp only [turn]
    rcases hp : p.turn w with ⟨w', _ | p' | ⟨link, answer⟩⟩ <;> rw [hp] at hsame <;> rw [← hsame]
    · exact .refl _
    · exact .refl _
    · exact quiet_proceed w' body started id link _
  | resting id heard link wake =>
    simp only [turn]
    split_ifs
    · exact quiet_proceed w body started id link _
    · exact .refl _

end Attempt

/-! ### Searches and refreshes -/

namespace Discovery

theorem quiet_drop (w : World N) (d : Discovery) : w.topology.Quiet (d.drop w).topology := by
  cases d with
  | borrowing node nodes seeds b => exact b.quiet_drop w
  | querying node nodes seeds id x => exact Loan.quiet_giveBack w id x.link false
  | dialling seed seeds d => exact .refl _
  | asking seed seeds x => exact .refl _

variable [Network N]

theorem topology_nextSeed (w : World N) (seeds : List String) :
    (nextSeed w seeds).1.topology = w.topology := by
  cases seeds <;> rfl

theorem topology_nextNode (w : World N) (seeds nodes : List String) :
    (nextNode w seeds nodes).1.topology = w.topology := by
  induction nodes with
  | nil => exact topology_nextSeed w seeds
  | cons node nodes ih =>
    unfold nextNode
    split
    · rfl
    · exact ih

theorem quiet_start (w : World N) : w.topology.Quiet (start w).1.topology := by
  unfold start
  rw [topology_nextNode]
  exact .draws w.topology _

/-- A search only lends links. -/
theorem quiet_turn (w : World N) (d : Discovery) : w.topology.Quiet (d.turn w).1.topology := by
  cases d with
  | borrowing node nodes seeds b =>
    have hquiet := b.quiet_turn w
    simp only [turn]
    rcases hb : b.turn w with ⟨w', _ | b' | e | loan⟩ <;> rw [hb] at hquiet
    · exact hquiet
    · exact hquiet
    · dsimp only
      rw [topology_nextNode]
      exact hquiet
    · exact hquiet
  | querying node nodes seeds id x =>
    simp only [turn]
    rcases hx : w.exchange x with ⟨w', _ | x' | ⟨link, answer⟩⟩ <;> rw [← World.topology_exchange hx]
    · exact .refl _
    · exact .refl _
    · dsimp only
      split
      · exact Loan.quiet_giveBack w' id link false
      · rw [topology_nextNode]
        exact Loan.quiet_giveBack w' id link false
  | dialling seed seeds d =>
    simp only [turn]
    rcases hd : w.dialOn d with ⟨w', _ | d' | e | link⟩ <;> rw [← World.topology_dialOn hd]
    · exact .refl _
    · exact .refl _
    · dsimp only
      rw [topology_nextSeed]
      exact .refl _
    · exact .refl _
  | asking seed seeds x =>
    simp only [turn]
    rcases hx : w.exchange x with ⟨w', _ | x' | ⟨link, answer⟩⟩ <;> rw [← World.topology_exchange hx]
    · exact .refl _
    · exact .refl _
    · dsimp only
      split
      · exact .refl _
      · rw [topology_nextSeed]
        exact .refl _

end Discovery

namespace Refresh

theorem quiet_unlock (w : World N) : w.topology.Quiet (unlock w).topology := .refreshLock _ _

theorem quiet_withLock (w : World N) (lock : Semaphore) : w.topology.Quiet (withLock w lock).topology :=
  .refreshLock _ _

theorem quiet_drop (w : World N) (r : Refresh) : w.topology.Quiet (r.drop w).topology := by
  cases r with
  | entering => exact .refl _
  | queued seen ticket => exact .refreshLock _ _
  | discovering d => exact (d.quiet_drop w).trans (quiet_unlock _)

theorem change_finish (w : World N) (found : Except Error (List SlotRange)) :
    w.topology.Change (finish w found).1.topology := by
  unfold finish
  split
  · exact .quiet (quiet_unlock w)
  · split
    · exact .quiet (quiet_unlock w)
    · rename_i ranges t ht
      exact .refreshed (.refl _) ht (.refreshLock _ _)

theorem change_searched (w : World N) (step : Discovery.Step) :
    w.topology.Change (searched w step).1.topology := by
  cases step with
  | blocked => exact .quiet (.refl _)
  | running d => exact .quiet (.refl _)
  | done found => exact change_finish w found

variable [Network N]

theorem change_locked (w : World N) (seen : Nat) : w.topology.Change (locked w seen).1.topology := by
  unfold locked
  split_ifs
  · exact .quiet (quiet_unlock w)
  · exact .quiet (quiet_unlock w)
  · exact (change_searched _ _).before (Discovery.quiet_start w)

/-- **A turn of a refresh installs at most one layout**, and does nothing else to the topology. -/
theorem change_turn (w : World N) (r : Refresh) : w.topology.Change (r.turn w).1.topology := by
  cases r with
  | entering =>
    simp only [turn]
    split_ifs
    · exact .quiet (.refl _)
    · split
      · exact (change_locked _ _).before (quiet_withLock w _)
      · exact .quiet (quiet_withLock w _)
      · exact .quiet (.refl _)
  | queued seen ticket =>
    simp only [turn]
    split
    · exact (change_locked _ _).before (quiet_withLock w _)
    · exact .quiet (.refl _)
  | discovering d => exact (change_searched _ _).before (d.quiet_turn w)

end Refresh

/-! ### Invocations -/

namespace Invocation

variable {inv : Invocation α}

theorem quiet_choose (w : World N) (slot : Option UInt16) :
    w.topology.Quiet (choose w slot).2.topology := by
  cases slot with
  | none => exact .draws w.topology _
  | some slot => exact .refl _

/-- At the head of the loop nothing is registered unless `ASK` has named a node. -/
theorem quiet_next (w : World N) (inv : Invocation α) : w.topology.Quiet (inv.next w none).1.topology := by
  unfold next
  split_ifs
  · exact .refl _
  · split
    · exact .refl _
    · have hquiet := quiet_choose w inv.slot
      dsimp only
      rcases hc : choose w inv.slot with ⟨_ | id, w'⟩ <;> rw [hc] at hquiet <;> exact hquiet

theorem change_next (w : World N) (inv : Invocation α) (target : Option String) :
    w.topology.Change (inv.next w target).1.topology := by
  cases target with
  | none => exact .quiet (quiet_next w inv)
  | some address =>
    unfold next
    split_ifs
    · exact .quiet (.refl _)
    · split
      · exact .quiet (.refl _)
      · exact .obtained (.refl _) address (.refl _)

theorem quiet_invalidate (w : World N) (id? : Option PoolId) :
    w.topology.Quiet (invalidate w id?).topology := by
  cases id? with
  | none => exact .refl _
  | some id => exact w.quiet_modifyPool id (fun _ => rfl) fun _ => rfl

theorem quiet_recover (w : World N) (inv : Invocation α) (id? : Option PoolId) (e : Error) :
    w.topology.Quiet (inv.recover w id? e).1.topology := by
  have hquiet := quiet_invalidate w id?
  unfold recover
  dsimp only
  split_ifs
  · exact hquiet.trans (quiet_next _ _)
  · exact hquiet

theorem quiet_resolved (w : World N) (inv : Invocation α) (result : Except Error Unit) :
    w.topology.Quiet (inv.resolved w result).1.topology := by
  unfold resolved
  split
  · have hquiet := quiet_choose w inv.slot
    rcases hc : choose w inv.slot with ⟨_ | id, w'⟩ <;> rw [hc] at hquiet <;> exact hquiet
  · split_ifs
    · exact quiet_recover ..
    · exact .refl _

theorem change_retry (w : World N) (inv : Invocation α) (id : PoolId) (e : Error) :
    w.topology.Change (inv.retry w id e).1.topology := by
  unfold retry
  split
  · rename_i slot address heq
    exact .moved (.refl _) slot address
      (quiet_next { w with topology := (w.topology.move slot.toNat address).2 } _)
  · exact change_next ..
  · split_ifs
    · exact .quiet (quiet_recover ..)
    · exact .quiet (.refl _)

/-- After an attempt a slot is moved or a node registered, or neither. -/
theorem change_attempted (w : World N) (inv : Invocation α) (id : PoolId) (asking : Bool)
    (result : Except Error α) : w.topology.Change (inv.attempted w id asking result).1.topology := by
  unfold attempted
  split
  · exact .quiet (.refl _)
  · split_ifs
    · exact .quiet (.refl _)
    · exact change_retry ..

/-- A redirect means nothing to an invocation without a slot. -/
theorem quiet_attempted (hslot : inv.slot = none) (w : World N) (id : PoolId) (asking : Bool)
    (result : Except Error α) : w.topology.Quiet (inv.attempted w id asking result).1.topology := by
  unfold attempted
  split
  · exact .refl _
  · split_ifs
    · exact .refl _
    · unfold retry
      rw [hslot]
      dsimp only
      split_ifs
      · exact quiet_recover ..
      · exact .refl _

variable [Network N]

theorem change_refreshUntil (deadline : Nat) (w : World N) (r : Refresh) :
    w.topology.Change (refreshUntil deadline w r).1.topology := by
  have hchange := r.change_turn w
  unfold refreshUntil
  rcases hr : r.turn w with ⟨w', _ | r' | result⟩ <;> rw [hr] at hchange
  · dsimp only
    split_ifs
    · exact hchange.after (r.quiet_drop w')
    · exact hchange
  · exact hchange
  · exact hchange

theorem quiet_attemptUntil (deadline : Nat) (w : World N) (body : Body α) (started : Nat) (a : Attempt) :
    w.topology.Quiet (attemptUntil deadline w body started a).1.topology := by
  have hquiet := a.quiet_turn w body started
  unfold attemptUntil
  rcases ha : a.turn w body started with ⟨w', _ | a' | ended⟩ <;> rw [ha] at hquiet
  · dsimp only
    split_ifs
    · exact hquiet.trans (a.quiet_drop w')
    · exact hquiet
  · exact hquiet
  · exact hquiet

theorem quiet_stageTurn (w : World N) (inv : Invocation α) (id : PoolId) (asking : Bool) (a : Attempt) :
    w.topology.Quiet (inv.stageTurn w (.attempting id asking a)).1.topology := by
  have hquiet := quiet_attemptUntil inv.budget.deadline w inv.body inv.started a
  simp only [stageTurn]
  rcases ha : attemptUntil inv.budget.deadline w inv.body inv.started a with ⟨w', _ | a' | ended⟩ <;>
    rw [ha] at hquiet <;> exact hquiet

/-- An invocation without a slot only lends links while it makes an attempt, and when the attempt has
ended. -/
theorem quiet_turn (hslot : inv.slot = none) (w : World N) (id : PoolId) (asking : Bool) (a : Attempt) :
    w.topology.Quiet (inv.turn w (.attempting id asking a)).1.topology := by
  have hquiet := quiet_attemptUntil inv.budget.deadline w inv.body inv.started a
  simp only [turn, stageTurn]
  rcases ha : attemptUntil inv.budget.deadline w inv.body inv.started a with ⟨w', _ | a' | ended⟩ <;>
    rw [ha] at hquiet
  · exact hquiet
  · exact hquiet
  · refine hquiet.trans (quiet_attempted ?_ w' id asking ended.result)
    cases ended.started <;> exact hslot

/-- **A turn of an invocation does one thing to the topology**, or nothing. -/
theorem change_turn (w : World N) (inv : Invocation α) (stage : Stage) :
    w.topology.Change (inv.turn w stage).1.topology := by
  cases stage with
  | resolving r =>
    have hchange := change_refreshUntil inv.budget.deadline w r
    simp only [turn, stageTurn]
    rcases hr : refreshUntil inv.budget.deadline w r with ⟨w', _ | r' | result⟩ <;> rw [hr] at hchange
    · exact hchange
    · exact hchange
    · exact hchange.after (quiet_resolved w' inv result)
  | attempting id asking a =>
    have hquiet := quiet_attemptUntil inv.budget.deadline w inv.body inv.started a
    simp only [turn, stageTurn]
    rcases ha : attemptUntil inv.budget.deadline w inv.body inv.started a with ⟨w', _ | a' | ended⟩ <;>
      rw [ha] at hquiet
    · exact .quiet hquiet
    · exact .quiet hquiet
    · exact (change_attempted w' _ id asking ended.result).before hquiet
  | pausing wake =>
    simp only [turn, stageTurn]
    split_ifs <;> exact .quiet (.refl _)
  | refreshing r =>
    have hchange := change_refreshUntil inv.budget.deadline w r
    simp only [turn, stageTurn]
    rcases hr : refreshUntil inv.budget.deadline w r with ⟨w', _ | r' | result⟩ <;> rw [hr] at hchange
    · exact hchange
    · exact hchange
    · exact hchange.after (quiet_next w' inv)

end Invocation
end SlotRouter
