import SlotRouter.Proofs.Books
import SlotRouter.Proofs.System

/-!
# Activities and the books

Every turn of every activity keeps the books of the topology, and so does every way to give an activity
up: a permit is taken before a link is opened or lent, and it goes back exactly once, whether the link
comes back, breaks, cannot be opened, or nobody waits for it any more.

The pools that an activity comes to are those that the registry and the table name, and these exist
(`Topology.Listed`).

Key definitions: `Borrow.footing`, `Attempt.footing`, `Discovery.footing`, `Refresh.footing`,
`Stage.footing`, `Activity.footing`. Key theorems: `keeps_turn` and `keeps_drop` for each of the
activities.
-/

namespace SlotRouter

open SlotRouter.Topology

/-- What is left of something after a turn. -/
def Turn.left {σ ρ β : Type} (before : β) (state : σ → β) (result : ρ → β) : Turn σ ρ → β
  | .blocked => before
  | .running s => state s
  | .done r => result r

variable {N α : Type}

/-! ### Pools that are named exist -/

namespace Topology

/-- The pools that the registry and the table in force name have been made. -/
structure Listed (t : Topology) : Prop where
  registered : ∀ address id, t.registered? address = some id → id < t.pools.length
  served : ∀ slot id, t.poolFor? slot = some id → id < t.pools.length
  current : t.current < t.tables.length

variable {t t' : Topology}

namespace Listed

theorem fresh (setup : Setup) : (Topology.fresh setup).Listed := by
  refine ⟨nofun, fun slot id hid => ?_, Nat.one_pos⟩
  have hempty : SlotTable.empty.get? slot = some id := hid
  rw [SlotTable.get?_empty] at hempty
  cases hempty

theorem quiet (h : t.Listed) (hq : t.Quiet t') : t'.Listed where
  registered address id hid := by
    rw [hq.length]
    exact h.registered address id (hq.registered? address ▸ hid)
  served slot id hid := by
    rw [hq.length]
    exact h.served slot id (hq.poolFor? slot ▸ hid)
  current := by
    rw [hq.current, hq.tables]
    exact h.current

theorem obtain (h : t.Listed) (address : String) :
    (t.obtain address).2.Listed ∧ (t.obtain address).1 < (t.obtain address).2.pools.length := by
  have hgrows := Grows.obtain t address
  have hmade : (t.obtain address).1 < (t.obtain address).2.pools.length := by
    cases hreg : t.registered? address with
    | some id =>
      rw [obtain_of_registered hreg]
      exact h.registered address id hreg
    | none =>
      rw [obtain_of_unregistered hreg]
      simp [register]
  refine ⟨⟨fun other id hid => ?_, fun slot id hid => ?_, ?_⟩, hmade⟩
  · by_cases hother : other = address
    · subst hother
      rw [registered?_obtain] at hid
      obtain rfl := Option.some.inj hid
      exact hmade
    · rw [registered?_obtain_of_ne hother] at hid
      exact Nat.lt_of_lt_of_le (h.registered other id hid) hgrows.length_le
  · rw [hgrows.poolFor?] at hid
    exact Nat.lt_of_lt_of_le (h.served slot id hid) hgrows.length_le
  · rw [hgrows.current, hgrows.tables]
    exact h.current

theorem move (h : t.Listed) (slot : Nat) (address : String) : (t.move slot address).2.Listed := by
  cases hclosed : t.closed with
  | true =>
    rw [move_of_closed hclosed]
    exact h
  | false =>
    obtain ⟨hobtain, hmade⟩ := h.obtain address
    rw [move_of_open hclosed]
    refine ⟨hobtain.registered, fun other id hid => ?_, ?_⟩
    · rw [poolFor?_setEntry hobtain.current] at hid
      split at hid
      · obtain rfl := Option.some.inj hid
        exact hmade
      · exact hobtain.served other id hid
    · show (t.obtain address).2.current < ((t.obtain address).2.tables.modify _ _).length
      rw [List.length_modify]
      exact hobtain.current

theorem layOut (h : t.Listed) (table : SlotTable) (ranges : List SlotRange) :
    (t.layOut table ranges).2.Listed := by
  induction ranges generalizing t table with
  | nil => exact h
  | cons r rs ih => exact ih (h.obtain r.master).1 _

/-- A table whose pools have been made may be put in force, and pools may be retired. -/
theorem enforce (h : t.Listed) {table : SlotTable} (live : List String)
    (htable : ∀ slot id, table.get? slot = some id → id < t.pools.length) :
    ((t.putInForce table).retain live).Listed := by
  refine ⟨fun address id hid => ?_, fun slot id hid => ?_, ?_⟩
  · rw [length_retain]
    rw [registered?_retain] at hid
    split at hid
    · exact h.registered address id hid
    · cases hid
  · rw [length_retain]
    refine htable slot id ?_
    simpa [Topology.poolFor?, Topology.table, Topology.retain, putInForce] using hid
  · simp [Topology.retain, putInForce]

theorem install (h : t.Listed) {ranges : List SlotRange} (ht : t.install ranges = .ok t') : t'.Listed := by
  obtain ⟨-, rfl⟩ := of_install ht
  have hlaid := h.layOut .empty ranges
  refine hlaid.enforce _ fun slot id hid => ?_
  obtain ⟨r, -, hreg⟩ := master_of_layOut hid
  exact hlaid.registered r.master id hreg

theorem close (h : t.Listed) : t.close.Listed := by
  have hmarked : ({ t with closed := true } : Topology).Listed := ⟨h.registered, h.served, h.current⟩
  refine hmarked.enforce [] fun slot id hid => ?_
  rw [SlotTable.get?_empty] at hid
  cases hid

theorem apply (h : t.Listed) (op : Operation) : (t.apply op).Listed := by
  cases op with
  | install ranges =>
    unfold Topology.apply
    dsimp only
    split
    · rename_i ht
      exact h.install ht
    · exact h
  | move slot address => exact h.move slot.toNat address
  | obtain address => exact (h.obtain address).1
  | close => exact h.close

/-- What one event does leaves the pools that are named among those that have been made. -/
theorem change (h : t.Listed) (hc : t.Change t') : t'.Listed := by
  cases hc with
  | quiet hq => exact h.quiet hq
  | @refreshed t₁ t₂ ranges before hinstall after =>
    obtain ⟨hregistered, hserved, hcurrent⟩ := (h.quiet before).install hinstall
    have hcounted : ({ t₂ with generation := t₂.generation + 1 } : Topology).Listed :=
      ⟨hregistered, hserved, hcurrent⟩
    exact hcounted.quiet after
  | moved before slot address after => exact ((h.quiet before).move slot.toNat address).quiet after
  | obtained before address after => exact ((h.quiet before).obtain address).1.quiet after
  | closed before after => exact (h.quiet before).close.quiet after

end Listed

theorem Agrees.listed (h : t.Agrees) : t.Listed where
  registered address id hid := (h.made_of_registered? hid).1
  served slot id hid := (h.made_of_registered? (h.entries slot id hid)).1
  current := by
    have := h.latest
    omega

end Topology

/-! ### Borrowers -/

namespace Borrow

/-- What a borrower has, beside what it has of the lock. -/
def footing (l : Semaphore.Stake) : Borrow → Footing
  | .entering id => .on id .none l
  | .queued id ticket _ => .on id (.waiting (.queued ticket)) l
  | .dialling id _ => .on id .connecting l

/-- What is left of a borrower after a turn. -/
abbrev footingAfter (l : Semaphore.Stake) (b : Borrow) : Turn Borrow (Except Error Loan) → Footing :=
  Turn.left (b.footing l) (footing l) fun
    | .ok loan => .on loan.pool .holding l
    | .error _ => .off l

variable {l : Semaphore.Stake}

/-- A deal with the permits, by a borrower without a link. -/
theorem keeps_permits {w : World N} {id : PoolId} {x x' : Semaphore.Stake} {s : Semaphore}
    (h : Semaphore.Deal (w.pool id).permits x s x') :
    w.topology.Keeps (.on id (.waiting x) l) (withPermits w id s).topology (.on id (.waiting x') l) :=
  .pool _ (.permits h) rfl

/-- A borrower that gives up leaves nothing behind. -/
theorem keeps_drop (w : World N) (b : Borrow) :
    w.topology.Keeps (b.footing l) (b.drop w).topology (.off l) := by
  cases b with
  | entering id => exact .go
  | queued id ticket deadline =>
    have hleave : w.topology.Keeps (.on id (.waiting (.queued ticket)) l)
        (w.modifyPool id fun p => { p with permits := p.permits.abandon ticket }).topology (.on id .none l) :=
      .pool _ (.permits (.abandon _ ticket)) rfl
    exact hleave.trans .go
  | dialling id d =>
    have hreturn : w.topology.Keeps (.on id .connecting l) (w.modifyPool id Pool.returnPermit).topology
        (.on id .none l) := .pool _ (.failed _) rfl
    exact hreturn.trans .go

variable [Network N]

/-- With a permit a borrower takes the link that came back last, or opens one if there is none. -/
theorem keeps_permitted (w : World N) (id : PoolId) (b : Borrow) :
    w.topology.Keeps (.on id (.waiting .permit) l) (permitted w id).1.topology
      (b.footingAfter l (permitted w id).2) := by
  unfold permitted
  rcases htake : (w.pool id).takeIdle with ⟨_ | link, p⟩
  · have hcapacity : p.capacity = (w.pool id).capacity := by rw [Pool.of_takeIdle_none htake]
    exact .pool (fun _ => p) (.dial htake) hcapacity
  · have hcapacity : p.capacity = (w.pool id).capacity := by rw [(Pool.of_takeIdle_some htake).1]
    exact .pool (fun _ => p) (.take htake) hcapacity

/-- **A turn of a borrower keeps the books.** -/
theorem keeps_turn (w : World N) (b : Borrow) :
    w.topology.Keeps (b.footing l) (b.turn w).1.topology (b.footingAfter l (b.turn w).2) := by
  cases b with
  | entering id =>
    simp only [turn]
    split_ifs
    · exact .go
    · split
      · exact .go
      · rename_i permits hacquire
        exact (keeps_permits (.acquire hacquire)).trans (keeps_permitted _ id _)
      · rename_i ticket permits hacquire
        exact keeps_permits (.queue hacquire)
  | queued id ticket deadline =>
    simp only [turn]
    split
    · rename_i permits hcollect
      have habandon : permits = (w.pool id).permits.abandon ticket := by
        unfold Semaphore.collect at hcollect
        split_ifs at hcollect
        · exact (Prod.mk.inj hcollect).2.symm
        · cases (Prod.mk.inj hcollect).1
        · cases (Prod.mk.inj hcollect).1
      subst habandon
      exact (keeps_permits (.abandon _ ticket)).trans .go
    · rename_i permits hcollect
      exact (keeps_permits (.collect hcollect)).trans (keeps_permitted _ id _)
    · split_ifs
      · exact keeps_drop w (.queued id ticket deadline)
      · exact .refl _ _
  | dialling id d =>
    simp only [turn]
    rcases hd : w.dialOn d with ⟨w', _ | d' | e | link⟩ <;> rw [← World.topology_dialOn hd]
    · exact .refl _ _
    · exact .refl _ _
    · exact keeps_drop w' (.dialling id d)
    · exact .still (.opened _)

end Borrow

/-! ### Attempts -/

namespace Attempt

/-- What an attempt has. -/
def footing : Attempt → Footing
  | .borrowing _ b => b.footing .nothing
  | .announcing id _ | .running id _ _ | .resting id _ _ _ => .on id .holding .nothing

/-- What is left of an attempt after a turn. -/
abbrev footingAfter (a : Attempt) : Turn Attempt (Ended α) → Footing :=
  Turn.left a.footing footing fun _ => .off .nothing

theorem keeps_giveBack {l : Semaphore.Stake} (w : World N) (id : PoolId) (link : Link) (discard : Bool) :
    w.topology.Keeps (.on id .holding l) (Loan.giveBack w id link discard).topology (.off l) := by
  have hcapacity : ((w.pool id).giveBack link discard).capacity = (w.pool id).capacity := by
    rw [((w.pool id).of_giveBack link discard).1]
  have hback : w.topology.Keeps (.on id .holding l) (Loan.giveBack w id link discard).topology
      (.on id .none l) := .pool _ (.giveBack _ link discard) hcapacity
  exact hback.trans .go

/-- An attempt that is given up leaves nothing behind. -/
theorem keeps_drop (w : World N) (a : Attempt) :
    w.topology.Keeps a.footing (a.drop w).topology (.off .nothing) := by
  cases a with
  | borrowing asking b => exact b.keeps_drop w
  | announcing id x => exact keeps_giveBack w id x.link false
  | running id heard p => exact keeps_giveBack w id p.exchange.link false
  | resting id heard link wake => exact keeps_giveBack w id link false

theorem keeps_proceed (w : World N) (body : Body α) (started : Nat) (id : PoolId) (link : Link)
    (heard : List Patience.Heard) (a : Attempt) :
    w.topology.Keeps (.on id .holding .nothing) (proceed w body started id link heard).1.topology
      (a.footingAfter (proceed w body started id link heard).2) := by
  unfold proceed
  split
  · exact .refl _ _
  · exact .refl _ _
  · exact keeps_giveBack w id link _

variable [Network N]

/-- **A turn of an attempt keeps the books.** -/
theorem keeps_turn (w : World N) (body : Body α) (started : Nat) (a : Attempt) :
    w.topology.Keeps a.footing (a.turn w body started).1.topology
      (a.footingAfter (a.turn w body started).2) := by
  cases a with
  | borrowing asking b =>
    have hkeeps := b.keeps_turn (l := .nothing) w
    simp only [turn]
    rcases hb : b.turn w with ⟨w', _ | b' | e | loan⟩ <;> rw [hb] at hkeeps
    · exact hkeeps
    · exact hkeeps
    · exact hkeeps
    · dsimp only
      split_ifs
      · exact hkeeps
      · exact hkeeps.trans (keeps_proceed ..)
  | announcing id x =>
    simp only [turn]
    rcases hx : w.exchange x with ⟨w', _ | x' | ⟨link, e | f⟩⟩ <;> rw [← World.topology_exchange hx]
    · exact .refl _ _
    · exact .refl _ _
    · exact keeps_giveBack w' id link false
    · exact keeps_proceed ..
  | running id heard p =>
    have hsame := topology_patience w p
    simp only [turn]
    rcases hp : p.turn w with ⟨w', _ | p' | ⟨link, answer⟩⟩ <;> rw [hp] at hsame <;> rw [← hsame]
    · exact .refl _ _
    · exact .refl _ _
    · exact keeps_proceed ..
  | resting id heard link wake =>
    simp only [turn]
    split_ifs
    · exact keeps_proceed ..
    · exact .refl _ _

end Attempt

/-! ### Searches and refreshes -/

namespace Discovery

/-- What a search has; it runs with the lock. -/
def footing : Discovery → Footing
  | .borrowing _ _ _ b => b.footing .permit
  | .querying _ _ _ id _ => .on id .holding .permit
  | .dialling .. | .asking .. => .off .permit

/-- What is left of a search after a turn; the lock is still to be given back. -/
abbrev footingAfter (before : Footing) : Step → Footing :=
  Turn.left before footing fun _ => .off .permit

/-- A search that is given up leaves only the lock. -/
theorem keeps_drop (w : World N) (d : Discovery) :
    w.topology.Keeps d.footing (d.drop w).topology (.off .permit) := by
  cases d with
  | borrowing node nodes seeds b => exact b.keeps_drop w
  | querying node nodes seeds id x => exact Attempt.keeps_giveBack w id x.link false
  | dialling seed seeds d => exact .refl _ _
  | asking seed seeds x => exact .refl _ _

variable [Network N]

theorem keeps_nextSeed (w : World N) (seeds : List String) (before : Footing) :
    w.topology.Keeps (.off .permit) (nextSeed w seeds).1.topology
      (footingAfter before (nextSeed w seeds).2) := by
  rw [topology_nextSeed]
  cases seeds <;> exact .refl _ _

theorem keeps_nextNode {w : World N} (h : w.topology.Listed) (seeds nodes : List String) (before : Footing) :
    w.topology.Keeps (.off .permit) (nextNode w seeds nodes).1.topology
      (footingAfter before (nextNode w seeds nodes).2) := by
  induction nodes with
  | nil => exact keeps_nextSeed w seeds before
  | cons node nodes ih =>
    unfold nextNode
    split
    · rename_i id hid
      exact .come (h.registered node id hid)
    · exact ih

theorem keeps_start {w : World N} (h : w.topology.Listed) (before : Footing) :
    w.topology.Keeps (.off .permit) (start w).1.topology (footingAfter before (start w).2) := by
  have hdrawn : w.topology.drawNodes.2.Listed := h.quiet (.draws w.topology _)
  have hdraw : w.topology.Keeps (.off .permit) w.topology.drawNodes.2 (.off .permit) := .same rfl rfl rfl
  exact hdraw.trans (keeps_nextNode (w := { w with topology := w.topology.drawNodes.2 }) hdrawn _ _ before)

/-- **A turn of a search keeps the books.** -/
theorem keeps_turn {w : World N} (h : w.topology.Listed) (d : Discovery) :
    w.topology.Keeps d.footing (d.turn w).1.topology (footingAfter d.footing (d.turn w).2) := by
  cases d with
  | borrowing node nodes seeds b =>
    have hkeeps := b.keeps_turn (l := .permit) w
    have hquiet := b.quiet_turn w
    simp only [turn]
    rcases hb : b.turn w with ⟨w', _ | b' | e | loan⟩ <;> rw [hb] at hkeeps hquiet
    · exact hkeeps
    · exact hkeeps
    · exact hkeeps.trans (keeps_nextNode (h.quiet hquiet) _ _ _)
    · exact hkeeps
  | querying node nodes seeds id x =>
    simp only [turn]
    rcases hx : w.exchange x with ⟨w', _ | x' | ⟨link, answer⟩⟩ <;> rw [← World.topology_exchange hx] at h ⊢
    · exact .refl _ _
    · exact .refl _ _
    · have hback := Attempt.keeps_giveBack (l := .permit) w' id link false
      dsimp only
      split
      · exact hback
      · exact hback.trans (keeps_nextNode (h.quiet (Loan.quiet_giveBack w' id link false)) _ _ _)
  | dialling seed seeds d =>
    simp only [turn]
    rcases hd : w.dialOn d with ⟨w', _ | d' | e | link⟩ <;> rw [← World.topology_dialOn hd]
    · exact .refl _ _
    · exact .refl _ _
    · exact keeps_nextSeed w' seeds _
    · exact .refl _ _
  | asking seed seeds x =>
    simp only [turn]
    rcases hx : w.exchange x with ⟨w', _ | x' | ⟨link, answer⟩⟩ <;> rw [← World.topology_exchange hx]
    · exact .refl _ _
    · exact .refl _ _
    · dsimp only
      split
      · exact .refl _ _
      · exact keeps_nextSeed w' seeds _

end Discovery

namespace Refresh

/-- What a refresh has. -/
def footing : Refresh → Footing
  | .entering => .off .nothing
  | .queued _ ticket => .off (.queued ticket)
  | .discovering d => d.footing

/-- What is left of a refresh after a turn. -/
abbrev footingAfter (before : Footing) : Turn Refresh (Except Error Unit) → Footing :=
  Turn.left before footing fun _ => .off .nothing

theorem keeps_unlock (w : World N) :
    w.topology.Keeps (.off .permit) (unlock w).topology (.off .nothing) := .lock (.release _)

/-- A refresh that is given up leaves nothing behind, not even the lock. -/
theorem keeps_drop (w : World N) (r : Refresh) :
    w.topology.Keeps r.footing (r.drop w).topology (.off .nothing) := by
  cases r with
  | entering => exact .refl _ _
  | queued seen ticket => exact .lock (.abandon _ ticket)
  | discovering d => exact (d.keeps_drop w).trans (keeps_unlock _)

theorem keeps_finish (w : World N) (found : Except Error (List SlotRange)) :
    w.topology.Keeps (.off .permit) (finish w found).1.topology (.off .nothing) := by
  unfold finish
  split
  · exact keeps_unlock w
  · split
    · exact keeps_unlock w
    · rename_i ranges t ht
      have hinstall : w.topology.Keeps (.off .permit) { t with generation := t.generation + 1 }
          (.off .permit) := .of_balanced fun _ h => (h.install ht).same rfl rfl rfl
      exact hinstall.trans (keeps_unlock { w with topology := { t with generation := t.generation + 1 } })

theorem keeps_searched {w w' : World N} {f before : Footing} {step : Discovery.Step}
    (h : w.topology.Keeps f w'.topology (Discovery.footingAfter before step)) :
    w.topology.Keeps f (searched w' step).1.topology (footingAfter before (searched w' step).2) := by
  cases step with
  | blocked => exact h
  | running d => exact h
  | done found => exact h.trans (keeps_finish w' found)

variable [Network N]

theorem keeps_locked {w : World N} (h : w.topology.Listed) (seen : Nat) (before : Footing) :
    w.topology.Keeps (.off .permit) (locked w seen).1.topology (footingAfter before (locked w seen).2) := by
  unfold locked
  split_ifs
  · exact keeps_unlock w
  · exact keeps_unlock w
  · exact keeps_searched (Discovery.keeps_start h before)

/-- **A turn of a refresh keeps the books.** -/
theorem keeps_turn {w : World N} (h : w.topology.Listed) (r : Refresh) :
    w.topology.Keeps r.footing (r.turn w).1.topology (footingAfter r.footing (r.turn w).2) := by
  have hlocked : ∀ lock, (withLock w lock).topology.Listed := fun lock => h.quiet (quiet_withLock w lock)
  cases r with
  | entering =>
    simp only [turn]
    split_ifs
    · exact .refl _ _
    · split
      · rename_i lock hacquire
        have hlock : w.topology.Keeps (.off .nothing) (withLock w lock).topology (.off .permit) :=
          .lock (.acquire hacquire)
        exact hlock.trans (keeps_locked (hlocked lock) _ _)
      · rename_i ticket lock hacquire
        exact .lock (.queue hacquire)
      · exact .refl _ _
  | queued seen ticket =>
    simp only [turn]
    split
    · rename_i lock hcollect
      have hlock : w.topology.Keeps (.off (.queued ticket)) (withLock w lock).topology (.off .permit) :=
        .lock (.collect hcollect)
      exact hlock.trans (keeps_locked (hlocked lock) _ _)
    · exact .refl _ _
  | discovering d => exact keeps_searched (Discovery.keeps_turn h d)

end Refresh

/-! ### Invocations -/

namespace Invocation

/-- What an invocation has. -/
def Stage.footing : Stage → Footing
  | .resolving r | .refreshing r => r.footing
  | .attempting _ _ a => a.footing
  | .pausing _ => .off .nothing

/-- What is left of an invocation after a turn. -/
abbrev footingAfter (before : Footing) : Step α → Footing :=
  Turn.left before (fun next => next.2.footing) fun _ => .off .nothing

/-- An invocation that is given up leaves nothing behind. -/
theorem keeps_drop (w : World N) (stage : Stage) :
    w.topology.Keeps stage.footing (drop w stage).topology (.off .nothing) := by
  cases stage with
  | resolving r | refreshing r => exact r.keeps_drop w
  | attempting id asking a => exact a.keeps_drop w
  | pausing wake => exact .refl _ _

variable {w : World N} {inv : Invocation α}

/-- A pool that is chosen has been made. -/
theorem keeps_choose (h : w.topology.Listed) (slot : Option UInt16) {id : PoolId} {w' : World N}
    (hchoose : choose w slot = (some id, w')) :
    w.topology.Keeps (.off .nothing) w'.topology (.on id .none .nothing) := by
  cases slot with
  | some slot =>
    obtain ⟨hpool, rfl⟩ := Prod.mk.inj hchoose
    exact .come (h.served _ id hpool)
  | none =>
    obtain ⟨hpool, rfl⟩ := Prod.mk.inj hchoose
    obtain ⟨address, -, hreg⟩ := Option.bind_eq_some_iff.1 hpool
    have hdraw : w.topology.Keeps (.off .nothing) w.topology.drawPool.2 (.off .nothing) := .same rfl rfl rfl
    exact hdraw.trans (.come (h.registered address id hreg))

theorem keeps_choose_none (slot : Option UInt16) :
    w.topology.Keeps (.off .nothing) (choose w slot).2.topology (.off .nothing) := by
  cases slot with
  | some slot => exact .refl _ _
  | none => exact .same rfl rfl rfl

theorem keeps_next (h : w.topology.Listed) (target : Option String) (before : Footing) :
    w.topology.Keeps (.off .nothing) (next w inv target).1.topology
      (footingAfter before (next w inv target).2) := by
  unfold next
  split_ifs
  · exact .refl _ _
  · split
    · exact .refl _ _
    · cases target with
      | some address =>
        have hobtain : w.topology.Keeps (.off .nothing) (w.topology.obtain address).2 (.off .nothing) :=
          .of_balanced fun _ hbalanced => hbalanced.obtain address
        exact hobtain.trans (.come (h.obtain address).2)
      | none =>
        have hnone := keeps_choose_none (w := w) inv.slot
        dsimp only
        rcases hc : choose w inv.slot with ⟨_ | id, w'⟩
        · rw [hc] at hnone
          exact hnone
        · exact keeps_choose h inv.slot hc

theorem keeps_invalidate (id? : Option PoolId) :
    w.topology.Keeps (.off .nothing) (invalidate w id?).topology (.off .nothing) := by
  cases id? with
  | some id => exact .of_balanced fun _ h => h.invalidatePool id
  | none => exact .refl _ _

theorem keeps_recover (h : w.topology.Listed) (id? : Option PoolId) (e : Error) (before : Footing) :
    w.topology.Keeps (.off .nothing) (recover w inv id? e).1.topology
      (footingAfter before (recover w inv id? e).2) := by
  have hinvalidate := keeps_invalidate (w := w) id?
  have hlisted := h.quiet (quiet_invalidate w id?)
  unfold recover
  dsimp only
  split_ifs
  · exact hinvalidate.trans (keeps_next hlisted none before)
  · exact hinvalidate

theorem keeps_resolved (h : w.topology.Listed) (result : Except Error Unit) (before : Footing) :
    w.topology.Keeps (.off .nothing) (resolved w inv result).1.topology
      (footingAfter before (resolved w inv result).2) := by
  unfold resolved
  split
  · have hnone := keeps_choose_none (w := w) inv.slot
    rcases hc : choose w inv.slot with ⟨_ | id, w'⟩
    · rw [hc] at hnone
      exact hnone
    · exact keeps_choose h inv.slot hc
  · split_ifs
    · exact keeps_recover h none _ before
    · exact .refl _ _

theorem keeps_retry (h : w.topology.Listed) (id : PoolId) (e : Error) (before : Footing) :
    w.topology.Keeps (.off .nothing) (retry w inv id e).1.topology
      (footingAfter before (retry w inv id e).2) := by
  unfold retry
  split
  · rename_i slot address _
    have hmove : w.topology.Keeps (.off .nothing) (w.topology.move slot.toNat address).2 (.off .nothing) :=
      .of_balanced fun _ hbalanced => hbalanced.move slot.toNat address
    exact hmove.trans (keeps_next (w := { w with topology := (w.topology.move slot.toNat address).2 })
      (h.move slot.toNat address) none before)
  · exact keeps_next h _ before
  · split_ifs
    · exact keeps_recover h _ _ before
    · exact .refl _ _

/-- Between two stages an invocation has nothing. -/
theorem keeps_after (h : w.topology.Listed) (outcome : Outcome α) (before : Footing) :
    w.topology.Keeps (.off .nothing) (inv.after w outcome).1.topology
      (footingAfter before (inv.after w outcome).2) := by
  unfold after
  split
  · exact keeps_resolved h _ before
  · unfold attempted
    split
    · exact .refl _ _
    · split_ifs
      · exact .refl _ _
      · exact keeps_retry h _ _ before
  · exact .refl _ _
  · exact keeps_next h none before

variable [Network N]

theorem keeps_refreshUntil (h : w.topology.Listed) (deadline : Nat) (r : Refresh) :
    w.topology.Keeps r.footing (refreshUntil deadline w r).1.topology
      (Refresh.footingAfter r.footing (refreshUntil deadline w r).2) := by
  have hkeeps := r.keeps_turn h
  unfold refreshUntil
  rcases hr : r.turn w with ⟨w', _ | r' | result⟩ <;> rw [hr] at hkeeps
  · dsimp only
    split_ifs
    · exact hkeeps.trans (r.keeps_drop w')
    · exact hkeeps
  · exact hkeeps
  · exact hkeeps

theorem keeps_attemptUntil (deadline started : Nat) (body : Body α) (a : Attempt) :
    w.topology.Keeps a.footing (attemptUntil deadline w body started a).1.topology
      (a.footingAfter (attemptUntil deadline w body started a).2) := by
  have hkeeps := a.keeps_turn w body started
  unfold attemptUntil
  rcases ha : a.turn w body started with ⟨w', _ | a' | ended⟩ <;> rw [ha] at hkeeps
  · dsimp only
    split_ifs
    · exact hkeeps.trans (a.keeps_drop w')
    · exact hkeeps
  · exact hkeeps
  · exact hkeeps

/-- **A turn of an invocation keeps the books.** -/
theorem keeps_turn (h : w.topology.Listed) (inv : Invocation α) (stage : Stage) :
    w.topology.Keeps stage.footing (inv.turn w stage).1.topology
      (footingAfter stage.footing (inv.turn w stage).2) := by
  cases stage with
  | resolving r =>
    have hkeeps := keeps_refreshUntil h inv.budget.deadline r
    have hchange := change_refreshUntil inv.budget.deadline w r
    simp only [turn, stageTurn]
    rcases hr : refreshUntil inv.budget.deadline w r with ⟨w', _ | r' | result⟩ <;> rw [hr] at hkeeps hchange
    · exact hkeeps
    · exact hkeeps
    · exact hkeeps.trans (keeps_after (h.change hchange) (.resolved result) _)
  | attempting id asking a =>
    have hkeeps := keeps_attemptUntil (w := w) inv.budget.deadline inv.started inv.body a
    have hquiet := quiet_attemptUntil inv.budget.deadline w inv.body inv.started a
    simp only [turn, stageTurn]
    rcases ha : attemptUntil inv.budget.deadline w inv.body inv.started a with ⟨w', _ | a' | ended⟩ <;>
      rw [ha] at hkeeps hquiet
    · exact hkeeps
    · exact hkeeps
    · exact hkeeps.trans (keeps_after (h.quiet hquiet) (.attempted id asking ended) _)
  | pausing wake =>
    simp only [turn, stageTurn]
    by_cases hwake : wake ≤ w.now
    · rw [if_pos hwake]
      exact keeps_after h .woken _
    · rw [if_neg hwake]
      exact .refl _ _
  | refreshing r =>
    have hkeeps := keeps_refreshUntil h inv.budget.deadline r
    have hchange := change_refreshUntil inv.budget.deadline w r
    simp only [turn, stageTurn]
    rcases hr : refreshUntil inv.budget.deadline w r with ⟨w', _ | r' | result⟩ <;> rw [hr] at hkeeps hchange
    · exact hkeeps
    · exact hkeeps
    · exact hkeeps.trans (keeps_after (h.change hchange) (.refreshed result) _)

end Invocation

/-! ### Activities -/

namespace Activity

/-- What an activity has. -/
def footing : Activity α → Footing
  | .invoking _ stage => stage.footing
  | .refreshing r => r.footing

/-- What is left of an activity that may be over. -/
def footing? (a? : Option (Activity α)) : Footing := (a?.map footing).getD (.off .nothing)

theorem footing?_ofStep (before : Option (Activity α)) (step : Invocation.Step α) :
    footing? (ofStep before step) = Invocation.footingAfter (footing? before) step := by
  rcases step with _ | ⟨inv, stage⟩ | result <;> rfl

theorem footing?_ofRefresh (before : Option (Activity α)) (step : Turn Refresh (Except Error Unit)) :
    footing? (ofRefresh before step) = Refresh.footingAfter (footing? before) step := by
  rcases step with _ | r | result <;> rfl

theorem keeps_start {w : World N} (h : w.topology.Listed) (request : Request α) :
    w.topology.Keeps (.off .nothing) (start w request).1.topology (footing? (start w request).2) := by
  cases request with
  | invoke policy body slot deadline =>
    simp only [start]
    rw [footing?_ofStep]
    exact Invocation.keeps_next h none _
  | refresh => exact .refl _ _

/-- An activity that is given up leaves nothing behind. -/
theorem keeps_drop (w : World N) (a : Activity α) :
    w.topology.Keeps a.footing (a.drop w).topology (.off .nothing) := by
  cases a with
  | invoking inv stage => exact Invocation.keeps_drop w stage
  | refreshing r => exact r.keeps_drop w

/-- **A turn of an activity keeps the books.** -/
theorem keeps_turn [Network N] {w : World N} (h : w.topology.Listed) (a : Activity α) :
    w.topology.Keeps a.footing (a.turn w).1.topology (footing? (a.turn w).2) := by
  cases a with
  | invoking inv stage =>
    simp only [turn]
    rw [footing?_ofStep]
    exact Invocation.keeps_turn h inv stage
  | refreshing r =>
    simp only [turn]
    rw [footing?_ofRefresh]
    exact r.keeps_turn h

end Activity
end SlotRouter
