import SlotRouter.Proofs.Lending
import SlotRouter.Proofs.Permits

/-!
# The books of a topology

A party has something of one pool at most, and of the lock: its footing. A borrower waits, opens a link
or has one, and in the last two cases it has a permit as well. The books of a pool balance if those of
its permits do, and if the idle links, the links that are being opened and those that are lent are
together no more than there may be. Nothing checks the latter: it holds because a link is opened only
with a permit and only when none is idle, and because a link that comes back brings its permit.

A piece of work of one party keeps the books of the whole topology (`Topology.Keeps`) if they balance
after it, whatever the others have.

Key definitions: `Pool.Stake`, `Pool.Deal`, `Pool.Balanced`, `Footing`, `Topology.Balanced`,
`Topology.Keeps`, `Topology.Listed`. Key theorems: `Pool.Balanced.deal`, `Keeps.pool`, `Keeps.lock`,
`Keeps.install`.
-/

namespace SlotRouter

open List

/-! ### One pool -/

namespace Semaphore

variable {s s' : Semaphore} {x x' : Stake}

@[simp] theorem closed_release (s : Semaphore) : s.release.closed = s.closed := by
  unfold release
  split <;> rfl

@[simp] theorem closed_abandon (s : Semaphore) (ticket : Nat) :
    (s.abandon ticket).closed = s.closed := by
  unfold abandon
  split
  · exact closed_release _
  · rfl

/-- No deal opens what is closed. -/
theorem Deal.closed (h : Deal s x s' x') : s'.closed = s.closed := by
  cases h with
  | acquire h | queue h =>
    unfold Semaphore.acquire at h
    split_ifs at h <;> obtain ⟨-, rfl⟩ := Prod.mk.inj h <;> rfl
  | collect h =>
    unfold Semaphore.collect at h
    split_ifs at h
    · cases (Prod.mk.inj h).1
    · obtain ⟨-, rfl⟩ := Prod.mk.inj h
      rfl
    · cases (Prod.mk.inj h).1
  | abandon => exact closed_abandon s _
  | release => exact closed_release s

end Semaphore

namespace Pool

/-- What a party has of a pool. -/
inductive Stake where
  /-- No link, but perhaps a ticket or a permit. -/
  | waiting (stake : Semaphore.Stake)
  /-- A permit, and it opens a link. -/
  | connecting
  /-- A permit and a link. -/
  | holding
  deriving DecidableEq, Inhabited

namespace Stake

/-- Nothing at all. -/
abbrev none : Stake := .waiting .nothing

/-- What the party has of the permits. -/
def permits : Stake → Semaphore.Stake
  | .waiting stake => stake
  | .connecting | .holding => .permit

/-- Whether the party has a link or opens one. -/
def hasLink : Stake → Bool
  | .waiting _ => false
  | .connecting | .holding => true

theorem permits_of_hasLink {x : Stake} (h : x.hasLink = true) : x.permits = .permit := by
  cases x with
  | waiting stake => cases h
  | connecting | holding => rfl

end Stake

/-- A deal of one party with the pool. -/
inductive Deal : Pool → Stake → Pool → Stake → Prop where
  | permits {p : Pool} {s : Semaphore} {x x' : Semaphore.Stake} (h : Semaphore.Deal p.permits x s x') :
      Deal p (.waiting x) { p with permits := s } (.waiting x')
  | take {p p' : Pool} {link : Link} (h : p.takeIdle = (some link, p')) :
      Deal p (.waiting .permit) p' .holding
  | dial {p p' : Pool} (h : p.takeIdle = (none, p')) : Deal p (.waiting .permit) p' .connecting
  | opened (p : Pool) : Deal p .connecting p .holding
  | failed (p : Pool) : Deal p .connecting p.returnPermit .none
  | giveBack (p : Pool) (link : Link) (discard : Bool) : Deal p .holding (p.giveBack link discard) .none

/-- The books of a pool balance. -/
structure Balanced (p : Pool) (stakes : Nat → Stake) : Prop where
  permits : p.permits.Balanced p.capacity fun who => (stakes who).permits
  links : p.idle.length + {who | (stakes who).hasLink = true}.ncard ≤ p.capacity
  retired : p.closed = true → p.permits.closed = true ∧ p.idle = []

variable {p p' : Pool} {stakes : Nat → Stake} {who : Nat} {x : Stake}

theorem of_takeIdle_some {link : Link} (h : p.takeIdle = (some link, p')) :
    p' = { p with idle := p'.idle } ∧ p'.idle.length + 1 ≤ p.idle.length := by
  unfold takeIdle at h
  split at h
  · rename_i first rest hdrop
    obtain ⟨-, rfl⟩ := Prod.mk.inj h
    have hlength := (List.dropWhile_sublist (l := p.idle) Link.broken).length_le
    rw [hdrop] at hlength
    exact ⟨rfl, hlength⟩
  · cases (Prod.mk.inj h).1

theorem of_takeIdle_none (h : p.takeIdle = (none, p')) : p' = { p with idle := [] } := by
  unfold takeIdle at h
  split at h
  · cases (Prod.mk.inj h).1
  · exact (Prod.mk.inj h).2.symm

theorem of_giveBack (p : Pool) (link : Link) (discard : Bool) :
    p.giveBack link discard = { p with permits := p.permits.release, idle := (p.keep link discard).idle } ∧
      (p.keep link discard).idle.length ≤ p.idle.length + 1 ∧
      (p.closed = true → (p.keep link discard).idle = p.idle) := by
  unfold giveBack keep returnPermit
  split_ifs with hdrop
  · exact ⟨rfl, Nat.le_succ _, fun _ => rfl⟩
  · refine ⟨rfl, Nat.le_refl _, fun hclosed => ?_⟩
    simp [hclosed] at hdrop

namespace Balanced

theorem fresh (address : String) (maxConnections : Nat) :
    (Pool.fresh address maxConnections).Balanced fun _ => .none := by
  refine ⟨Semaphore.Balanced.fresh _, ?_, nofun⟩
  simp [Pool.fresh, Stake.hasLink]

/-- The links that are lent or being opened have permits. -/
theorem ncard_le (h : p.Balanced stakes) : {who | (stakes who).hasLink = true}.ncard ≤ p.capacity :=
  (Set.ncard_le_ncard (fun _ ho => Stake.permits_of_hasLink ho) h.permits.finite).trans h.permits.ncard_le

theorem finite (h : p.Balanced stakes) : {who | (stakes who).hasLink = true}.Finite :=
  h.permits.finite.subset fun _ ho => Stake.permits_of_hasLink ho

theorem permits_update (h : p.Balanced stakes) {s : Semaphore}
    (hdeal : Semaphore.Deal p.permits (stakes who).permits s x.permits) :
    s.Balanced p.capacity fun o => (Function.update stakes who x o).permits := by
  have hcomp := Function.comp_update Stake.permits stakes who x
  have hbalanced := h.permits.deal hdeal
  rwa [show (fun o => (Function.update stakes who x o).permits) = _ from hcomp]

/-- A deal that leaves the permits alone. -/
theorem permits_same (h : p.Balanced stakes) (hsame : x.permits = (stakes who).permits) :
    p.permits.Balanced p.capacity fun o => (Function.update stakes who x o).permits := by
  have hcomp := Function.comp_update Stake.permits stakes who x
  have hself : Function.update (Stake.permits ∘ stakes) who x.permits = Stake.permits ∘ stakes := by
    rw [hsame]
    exact Function.update_eq_self who _
  rw [show (fun o => (Function.update stakes who x o).permits) = _ from hcomp, hself]
  exact h.permits

/-- **After every deal of any party the books of the pool balance.** -/
theorem deal (h : p.Balanced stakes) (hdeal : Deal p (stakes who) p' x) :
    p'.Balanced (Function.update stakes who x) := by
  have hcount := ncard_setOf_update (P := (Stake.hasLink · = true)) h.finite who x
  have hlinks := h.links
  generalize hwho : stakes who = before at hdeal hcount
  cases hdeal with
  | @permits s y y' hpermits =>
    have hsame : {o | (Function.update stakes who (.waiting y') o).hasLink = true}.ncard =
        {o | (stakes o).hasLink = true}.ncard := hcount
    refine ⟨h.permits_update (by rwa [hwho]), ?_, fun hclosed => ?_⟩
    · rw [hsame]
      exact hlinks
    · obtain ⟨hpermitsClosed, hidle⟩ := h.retired hclosed
      exact ⟨hpermits.closed.trans hpermitsClosed, hidle⟩
  | take htake =>
    obtain ⟨heq, hlength⟩ := of_takeIdle_some htake
    rw [heq]
    refine ⟨h.permits_same (by rw [hwho]; rfl), ?_, fun hclosed => ?_⟩
    · have hmore : {o | (Function.update stakes who .holding o).hasLink = true}.ncard =
          {o | (stakes o).hasLink = true}.ncard + 1 := hcount
      show p'.idle.length + {o | (Function.update stakes who .holding o).hasLink = true}.ncard ≤ p.capacity
      omega
    · obtain ⟨-, hidle⟩ := h.retired hclosed
      rw [hidle] at hlength
      exact absurd hlength (Nat.not_succ_le_zero _)
  | dial hnone =>
    rw [of_takeIdle_none hnone]
    have hpermits : p.permits.Balanced p.capacity
        fun o => (Function.update stakes who .connecting o).permits := h.permits_same (by rw [hwho]; rfl)
    refine ⟨hpermits, ?_, fun hclosed => ⟨(h.retired hclosed).1, rfl⟩⟩
    -- nothing is idle, so those with links are bounded by those with permits
    have hle := Set.ncard_le_ncard (fun o ho => Stake.permits_of_hasLink ho) hpermits.finite
    exact (Nat.zero_add _).trans_le (hle.trans hpermits.ncard_le)
  | opened =>
    refine ⟨h.permits_same (by rw [hwho]; rfl), ?_, h.retired⟩
    have hsame : {o | (Function.update stakes who .holding o).hasLink = true}.ncard =
        {o | (stakes o).hasLink = true}.ncard := Nat.add_right_cancel hcount
    rw [hsame]
    exact hlinks
  | failed =>
    refine ⟨h.permits_update (by rw [hwho]; exact .release _), ?_, fun hclosed => ?_⟩
    · have hless : {o | (Function.update stakes who .none o).hasLink = true}.ncard + 1 =
          {o | (stakes o).hasLink = true}.ncard := hcount
      show p.idle.length + {o | (Function.update stakes who .none o).hasLink = true}.ncard ≤ p.capacity
      omega
    · obtain ⟨hpermits, hidle⟩ := h.retired hclosed
      exact ⟨(Semaphore.closed_release _).trans hpermits, hidle⟩
  | giveBack link discard =>
    obtain ⟨heq, hlength, hkept⟩ := p.of_giveBack link discard
    rw [heq]
    refine ⟨h.permits_update (by rw [hwho]; exact .release _), ?_, fun hclosed => ?_⟩
    · have hless : {o | (Function.update stakes who .none o).hasLink = true}.ncard + 1 =
          {o | (stakes o).hasLink = true}.ncard := hcount
      show (p.keep link discard).idle.length +
        {o | (Function.update stakes who .none o).hasLink = true}.ncard ≤ p.capacity
      omega
    · obtain ⟨hpermits, hidle⟩ := h.retired hclosed
      exact ⟨(Semaphore.closed_release _).trans hpermits, (hkept hclosed).trans hidle⟩

theorem invalidate (h : p.Balanced stakes) : p.invalidate.Balanced stakes where
  permits := h.permits
  links := (Nat.zero_add _).trans_le h.ncard_le
  retired hclosed := ⟨(h.retired hclosed).1, rfl⟩

theorem close (h : p.Balanced stakes) : p.close.Balanced stakes where
  permits := h.permits.close
  links := (Nat.zero_add _).trans_le h.ncard_le
  retired _ := ⟨rfl, rfl⟩

end Balanced
end Pool

/-! ### All pools, and the lock -/

/-- What a party has of a topology: of one pool at most, and of the lock. -/
structure Footing where
  pool? : Option (PoolId × Pool.Stake)
  lock : Semaphore.Stake
  deriving DecidableEq, Inhabited

namespace Footing

/-- The party has come to a pool. -/
abbrev on (id : PoolId) (x : Pool.Stake) (lock : Semaphore.Stake) : Footing := ⟨some (id, x), lock⟩

/-- The party has nothing of any pool. -/
abbrev off (lock : Semaphore.Stake) : Footing := ⟨none, lock⟩

/-- What the party has of the pool. -/
def stake (f : Footing) (id : PoolId) : Pool.Stake :=
  match f.pool? with
  | some (own, x) => if own = id then x else .none
  | none => .none

@[simp] theorem stake_on_self (id : PoolId) (x : Pool.Stake) (lock : Semaphore.Stake) :
    (on id x lock).stake id = x := if_pos rfl

theorem stake_on_of_ne {id other : PoolId} (h : id ≠ other) (x : Pool.Stake) (lock : Semaphore.Stake) :
    (on id x lock).stake other = .none := if_neg h

theorem stake_of_ne {f : Footing} {id : PoolId} (h : ∀ x, f.pool? ≠ some (id, x)) :
    f.stake id = .none := by
  unfold stake
  split
  · rename_i own x hpool
    refine if_neg ?_
    rintro rfl
    exact h x hpool
  · rfl

end Footing

namespace Topology

/-- The books of a topology balance. -/
structure Balanced (t : Topology) (footings : Nat → Footing) : Prop where
  /-- Nobody has come to a pool that is yet to be made. -/
  made : ∀ who id x, (footings who).pool? = some (id, x) → id < t.pools.length
  capacity : ∀ id < t.pools.length, (t.pool id).capacity = max t.setup.pool.maxConnections 1
  pools : ∀ id < t.pools.length, (t.pool id).Balanced fun who => (footings who).stake id
  lock : t.refreshLock.Balanced 1 fun who => (footings who).lock

/-- Whoever turns what he has from `f` into `f'` by this piece of work keeps the books. -/
structure Keeps (t : Topology) (f : Footing) (t' : Topology) (f' : Footing) : Prop where
  balanced : ∀ (footings : Nat → Footing) (who : Nat), t.Balanced footings → footings who = f →
    t'.Balanced (Function.update footings who f')

theorem Balanced.fresh (setup : Setup) : (Topology.fresh setup).Balanced fun _ => .off .nothing :=
  ⟨nofun, fun id hid => absurd hid (Nat.not_lt_zero id), fun id hid => absurd hid (Nat.not_lt_zero id),
    .fresh 1⟩

variable {t t' t'' : Topology} {f f' f'' : Footing} {footings : Nat → Footing} {who : Nat} {id : PoolId}
  {l l' : Semaphore.Stake} {x x' : Pool.Stake}

/-! ### What nobody's stake depends on -/

/-- A topology with the same pools and the same lock. -/
theorem Balanced.same (h : t.Balanced footings) (hsetup : t'.setup = t.setup) (hpools : t'.pools = t.pools)
    (hlock : t'.refreshLock = t.refreshLock) : t'.Balanced footings := by
  have hpool : ∀ id, t'.pool id = t.pool id := fun id => by
    unfold Topology.pool
    rw [hpools]
  refine ⟨fun who id x hid => ?_, fun id hid => ?_, fun id hid => ?_, ?_⟩
  · rw [hpools]
    exact h.made who id x hid
  · rw [hpool, hsetup]
    exact h.capacity id (hpools ▸ hid)
  · rw [hpool]
    exact h.pools id (hpools ▸ hid)
  · rw [hlock]
    exact h.lock

/-- Something is done to one pool that leaves its books balanced. -/
theorem Balanced.modifyPool (h : t.Balanced footings) (change : Pool → Pool)
    (hcapacity : ∀ p, (change p).capacity = p.capacity)
    (hpool : ∀ p stakes, p.Balanced stakes → (change p).Balanced stakes) (id : PoolId) :
    (t.modifyPool id change).Balanced footings := by
  have hlength : (t.modifyPool id change).pools.length = t.pools.length := List.length_modify ..
  refine ⟨fun who other x hother => ?_, fun other hother => ?_, fun other hother => ?_, h.lock⟩
  · rw [hlength]
    exact h.made who other x hother
  · rw [hlength] at hother
    rw [pool_modifyPool]
    split_ifs
    · rw [hcapacity]
      exact h.capacity other hother
    · exact h.capacity other hother
  · rw [hlength] at hother
    rw [pool_modifyPool]
    split_ifs
    · exact hpool _ _ (h.pools other hother)
    · exact h.pools other hother

theorem Balanced.closePool (h : t.Balanced footings) (id : PoolId) :
    (t.modifyPool id Pool.close).Balanced footings :=
  h.modifyPool Pool.close (fun _ => rfl) (fun _ _ hp => hp.close) id

theorem Balanced.invalidatePool (h : t.Balanced footings) (id : PoolId) :
    (t.modifyPool id Pool.invalidate).Balanced footings :=
  h.modifyPool Pool.invalidate (fun _ => rfl) (fun _ _ hp => hp.invalidate) id

/-- Nobody has anything of a pool that has just been made. -/
theorem Balanced.register (h : t.Balanced footings) (address : String) :
    (t.register address).Balanced footings := by
  have hgrows := Grows.register t address
  have hlength : (t.register address).pools.length = t.pools.length + 1 := by simp [Topology.register]
  have hcases : ∀ id < (t.register address).pools.length, id < t.pools.length ∨ id = t.pools.length := by
    omega
  refine ⟨fun who id x hid => ?_, fun id hid => ?_, fun id hid => ?_, h.lock⟩
  · exact Nat.lt_of_lt_of_le (h.made who id x hid) hgrows.length_le
  · rcases hcases id hid with hold | rfl
    · rw [hgrows.pool hold]
      exact h.capacity id hold
    · rw [pool_register]
      rfl
  · rcases hcases id hid with hold | rfl
    · rw [hgrows.pool hold]
      exact h.pools id hold
    · rw [pool_register]
      have hnobody : (fun who => (footings who).stake t.pools.length) = fun _ => Pool.Stake.none := by
        funext who
        exact Footing.stake_of_ne fun x hpool => Nat.lt_irrefl _ (h.made who _ x hpool)
      rw [hnobody]
      exact Pool.Balanced.fresh address _

theorem Balanced.obtain (h : t.Balanced footings) (address : String) :
    (t.obtain address).2.Balanced footings := by
  cases hreg : t.registered? address with
  | some id =>
    rw [obtain_of_registered hreg]
    exact h
  | none =>
    rw [obtain_of_unregistered hreg]
    exact h.register address

theorem Balanced.move (h : t.Balanced footings) (slot : Nat) (address : String) :
    (t.move slot address).2.Balanced footings := by
  cases hclosed : t.closed with
  | true =>
    rw [move_of_closed hclosed]
    exact h
  | false =>
    rw [move_of_open hclosed]
    exact (h.obtain address).same rfl rfl rfl

theorem Balanced.layOut (h : t.Balanced footings) (table : SlotTable) (ranges : List SlotRange) :
    (t.layOut table ranges).2.Balanced footings := by
  induction ranges generalizing t table with
  | nil => exact h
  | cons r rs ih => exact ih (h.obtain r.master) _

/-- What the closing of one pool leaves true is true when all those entries have been retired. -/
theorem foldl_close_induction {P : Topology → Prop} (hclose : ∀ t id, P t → P (t.modifyPool id Pool.close))
    (entries : List (String × PoolId)) (t : Topology) (h : P t) :
    P { t with pools := entries.foldl (fun pools e => pools.modify e.2 Pool.close) t.pools } := by
  induction entries generalizing t with
  | nil => exact h
  | cons e entries ih => exact ih (t.modifyPool e.2 Pool.close) (hclose t e.2 h)

theorem Balanced.retain (h : t.Balanced footings) (live : List String) :
    (t.retain live).Balanced footings := by
  have hclosed := foldl_close_induction (P := (·.Balanced footings)) (fun _ id ht => ht.closePool id)
    (t.registry.filter fun e => !live.contains e.1) t h
  exact hclosed.same rfl rfl rfl

theorem Balanced.install (h : t.Balanced footings) {ranges : List SlotRange}
    (ht : t.install ranges = .ok t') : t'.Balanced footings := by
  obtain ⟨-, rfl⟩ := of_install ht
  have hforced : ((t.layOut .empty ranges).2.putInForce (t.layOut .empty ranges).1).Balanced footings :=
    (h.layOut .empty ranges).same rfl rfl rfl
  exact hforced.retain _

theorem Balanced.close (h : t.Balanced footings) : t.close.Balanced footings := by
  have hmarked : (({ t with closed := true } : Topology).putInForce .empty).Balanced footings :=
    h.same rfl rfl rfl
  exact hmarked.retain []

/-- No operation on a topology upsets the books. -/
theorem Balanced.apply (h : t.Balanced footings) (op : Operation) : (t.apply op).Balanced footings := by
  cases op with
  | install ranges =>
    unfold Topology.apply
    dsimp only
    split
    · rename_i ht
      exact h.install ht
    · exact h
  | move slot address => exact h.move slot.toNat address
  | obtain address => exact h.obtain address
  | close => exact h.close

/-! ### What a party does -/

namespace Keeps

theorem of_balanced (h : ∀ footings, t.Balanced footings → t'.Balanced footings) : t.Keeps f t' f := by
  refine ⟨?_⟩
  rintro footings who hbalanced rfl
  rw [Function.update_eq_self]
  exact h footings hbalanced

theorem refl (t : Topology) (f : Footing) : t.Keeps f t f := of_balanced fun _ h => h

theorem trans (h : t.Keeps f t' f') (h' : t'.Keeps f' t'' f'') : t.Keeps f t'' f'' := by
  refine ⟨fun footings who hbalanced hwho => ?_⟩
  have hboth := h'.balanced _ who (h.balanced footings who hbalanced hwho) (Function.update_self ..)
  rwa [Function.update_idem] at hboth

theorem same (hsetup : t'.setup = t.setup) (hpools : t'.pools = t.pools)
    (hlock : t'.refreshLock = t.refreshLock) : t.Keeps f t' f :=
  of_balanced fun _ h => h.same hsetup hpools hlock

theorem stake_update (footings : Nat → Footing) (who : Nat) (f : Footing) (id : PoolId) :
    (fun o => (Function.update footings who f o).stake id) =
      Function.update (fun o => (footings o).stake id) who (f.stake id) :=
  Function.comp_update (fun f : Footing => f.stake id) footings who f

theorem lock_update (footings : Nat → Footing) (who : Nat) (f : Footing) :
    (fun o => (Function.update footings who f o).lock) =
      Function.update (fun o => (footings o).lock) who f.lock :=
  Function.comp_update Footing.lock footings who f

/-- A party's stakes at a pool are as before if its own there is. -/
theorem stake_update_same (h : f.stake id = (footings who).stake id) :
    (fun o => (Function.update footings who f o).stake id) = fun o => (footings o).stake id := by
  rw [stake_update, h]
  exact Function.update_eq_self who fun o => (footings o).stake id

theorem lock_update_same (h : f.lock = (footings who).lock) :
    (fun o => (Function.update footings who f o).lock) = fun o => (footings o).lock := by
  rw [lock_update, h]
  exact Function.update_eq_self who fun o => (footings o).lock

theorem made_update {n : Nat} (h : ∀ o id x, (footings o).pool? = some (id, x) → id < n)
    (hmade : ∀ id x, f.pool? = some (id, x) → id < n) (o : Nat) (id : PoolId) (x : Pool.Stake)
    (hid : (Function.update footings who f o).pool? = some (id, x)) : id < n := by
  by_cases ho : o = who
  · subst ho
    rw [Function.update_self] at hid
    exact hmade id x hid
  · rw [Function.update_of_ne ho] at hid
    exact h o id x hid

/-- **A deal with a pool keeps the books.** -/
theorem pool (change : Pool → Pool) (h : Pool.Deal (t.pool id) x (change (t.pool id)) x')
    (hcapacity : (change (t.pool id)).capacity = (t.pool id).capacity) :
    t.Keeps (.on id x l) (t.modifyPool id change) (.on id x' l) := by
  refine ⟨fun footings who hbalanced hwho => ?_⟩
  have hid : id < t.pools.length := hbalanced.made who id x (by rw [hwho])
  have hlength : (t.modifyPool id change).pools.length = t.pools.length := List.length_modify ..
  refine ⟨?_, fun other hother => ?_, fun other hother => ?_, ?_⟩
  · rw [hlength]
    refine made_update hbalanced.made fun other y hother => ?_
    obtain ⟨rfl, -⟩ := Prod.mk.inj (Option.some.inj hother)
    exact hid
  · rw [hlength] at hother
    rw [pool_modifyPool]
    split_ifs with heq
    · obtain ⟨rfl, -⟩ := heq
      rw [hcapacity]
      exact hbalanced.capacity id hid
    · exact hbalanced.capacity other hother
  · rw [hlength] at hother
    rw [pool_modifyPool]
    split_ifs with heq
    · obtain ⟨rfl, -⟩ := heq
      rw [stake_update, Footing.stake_on_self]
      refine (hbalanced.pools id hid).deal ?_
      rw [hwho, Footing.stake_on_self]
      exact h
    · have hne : id ≠ other := fun h => heq ⟨h, hother⟩
      rw [stake_update_same (by rw [hwho, Footing.stake_on_of_ne hne, Footing.stake_on_of_ne hne])]
      exact hbalanced.pools other hother
  · rw [lock_update_same (by rw [hwho])]
    exact hbalanced.lock

/-- A deal that leaves the pool itself as it is. -/
theorem still {own : PoolId} (h : Pool.Deal (t.pool own) x (t.pool own) x') :
    t.Keeps (.on own x l) t (.on own x' l) := by
  have hsame : t.modifyPool own id = t := by
    unfold modifyPool
    rw [List.modify_id]
  have hkeeps : t.Keeps (.on own x l) (t.modifyPool own id) (.on own x' l) := .pool _ h rfl
  rwa [hsame] at hkeeps

/-- **A deal with the lock keeps the books.** -/
theorem lock {s : Semaphore} {y : Option (PoolId × Pool.Stake)} (h : Semaphore.Deal t.refreshLock l s l') :
    t.Keeps ⟨y, l⟩ { t with refreshLock := s } ⟨y, l'⟩ := by
  refine ⟨fun footings who hbalanced hwho => ?_⟩
  refine ⟨made_update hbalanced.made fun id z hid => hbalanced.made who id z (by rw [hwho]; exact hid), hbalanced.capacity,
    fun other hother => ?_, ?_⟩
  · rw [stake_update_same (by rw [hwho]; rfl)]
    exact hbalanced.pools other hother
  · rw [lock_update]
    refine hbalanced.lock.deal ?_
    rw [hwho]
    exact h

/-- A party without anything of a pool may come to another one. -/
theorem shift {y y' : Option (PoolId × Pool.Stake)} (hstake : ∀ id, (⟨y, l⟩ : Footing).stake id = .none)
    (hstake' : ∀ id, (⟨y', l⟩ : Footing).stake id = .none)
    (hmade : ∀ id x, y' = some (id, x) → id < t.pools.length) : t.Keeps ⟨y, l⟩ t ⟨y', l⟩ := by
  refine ⟨fun footings who hbalanced hwho => ?_⟩
  refine ⟨made_update hbalanced.made hmade, hbalanced.capacity, fun other hother => ?_, ?_⟩
  · rw [stake_update_same (by rw [hwho, hstake, hstake'])]
    exact hbalanced.pools other hother
  · rw [lock_update_same (by rw [hwho])]
    exact hbalanced.lock

theorem stake_none (id own : PoolId) : (Footing.on own .none l).stake id = .none := by
  show (if own = id then Pool.Stake.none else .none) = .none
  exact ite_self _

theorem come (hid : id < t.pools.length) : t.Keeps (.off l) t (.on id .none l) := by
  refine shift (fun _ => rfl) (fun other => stake_none other id) fun other x heq => ?_
  obtain ⟨rfl, -⟩ := Prod.mk.inj (Option.some.inj heq)
  exact hid

theorem go : t.Keeps (.on id .none l) t (.off l) :=
  shift (fun other => stake_none other id) (fun _ => rfl) nofun

end Keeps
end Topology
end SlotRouter
