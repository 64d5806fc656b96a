import SlotRouter.Proofs.Idle

/-!
# The registry and the slot table

A topology keeps its pools in two places: the registry knows them by address, and the table in force
knows them by slot. Each operation changes both in several small steps, and after each of them the
two agree (`Topology.Agrees`): an entry of the table is the pool that is registered under the address
of that pool, there is one pool to an address, and a pool is retired exactly when it is registered no
more.

Key definitions: `Topology.Agrees`, `Topology.Operation`. Key theorems: `Agrees.obtain`,
`Agrees.move`, `Agrees.install`, `Agrees.close`, `registered?_install`, `Agrees.pool_install`.
-/

namespace SlotRouter

@[simp] theorem Pool.close_close (p : Pool) : p.close.close = p.close := rfl

namespace Topology

variable {t t' : Topology} {address other : String} {id : PoolId}

/-! ### Looking pools up -/

theorem mem_registry (h : t.registered? address = some id) : (address, id) ∈ t.registry := by
  obtain ⟨before, after, hsplit, -⟩ := List.lookup_eq_some_iff.1 h
  rw [hsplit]
  exact List.mem_append_right _ List.mem_cons_self

theorem registered?_of_mem (hdistinct : (t.registry.map Prod.fst).Nodup)
    (h : (address, id) ∈ t.registry) : t.registered? address = some id := by
  obtain ⟨before, after, hsplit⟩ := List.append_of_mem h
  refine List.lookup_eq_some_iff.2 ⟨before, after, hsplit, fun e he => ?_⟩
  rw [hsplit, List.map_append] at hdistinct
  have hne : e.1 ≠ address :=
    (List.nodup_append.1 hdistinct).2.2 _ (List.mem_map_of_mem he) _ (by simp)
  exact bne_iff_ne.2 hne.symm

theorem pool_modifyPool (t : Topology) (id other : PoolId) (f : Pool → Pool) :
    (t.modifyPool id f).pool other =
      if id = other ∧ other < t.pools.length then f (t.pool other) else t.pool other := by
  simp only [pool, modifyPool, List.getD_eq_getElem?_getD, List.getElem?_modify]
  by_cases hother : other < t.pools.length
  · by_cases hid : id = other <;> simp [hother, hid]
  · simp [hother]

/-! ### More pools -/

/-- A pool is made and registered under the address. -/
def register (t : Topology) (address : String) : Topology :=
  { t with
    pools := t.pools ++ [.fresh address t.setup.pool.maxConnections]
    registry := t.registry ++ [(address, t.pools.length)] }

theorem obtain_of_registered (h : t.registered? address = some id) : t.obtain address = (id, t) := by
  unfold obtain
  rw [h]

theorem obtain_of_unregistered (h : t.registered? address = none) :
    t.obtain address = (t.pools.length, t.register address) := by
  unfold obtain
  rw [h]
  rfl

theorem pool_register (t : Topology) (address : String) :
    (t.register address).pool t.pools.length = .fresh address t.setup.pool.maxConnections := by
  simp [register, pool]

/-- Pools have been made and registered, and nothing else has changed. -/
def Grows (t t' : Topology) : Prop :=
  ∃ made added, t' = { t with pools := t.pools ++ made, registry := t.registry ++ added }

namespace Grows

theorem refl (t : Topology) : t.Grows t := ⟨[], [], by simp⟩

theorem trans {t'' : Topology} (h : t.Grows t') (h' : t'.Grows t'') : t.Grows t'' := by
  obtain ⟨made, added, rfl⟩ := h
  obtain ⟨made', added', rfl⟩ := h'
  exact ⟨made ++ made', added ++ added', by simp⟩

theorem register (t : Topology) (address : String) : t.Grows (t.register address) := ⟨_, _, rfl⟩

theorem obtain (t : Topology) (address : String) : t.Grows (t.obtain address).2 := by
  cases h : t.registered? address with
  | some id =>
    rw [obtain_of_registered h]
    exact refl t
  | none =>
    rw [obtain_of_unregistered h]
    exact register t address

theorem layOut (t : Topology) (table : SlotTable) (ranges : List SlotRange) :
    t.Grows (t.layOut table ranges).2 := by
  induction ranges generalizing t table with
  | nil => exact refl t
  | cons r rs ih => exact (Grows.obtain t r.master).trans (ih _ _)

theorem pool (h : t.Grows t') (hid : id < t.pools.length) : t'.pool id = t.pool id := by
  obtain ⟨made, added, rfl⟩ := h
  simp [Topology.pool, List.getD_eq_getElem?_getD, List.getElem?_append_left hid]

theorem registered? (h : t.Grows t') (hid : t.registered? address = some id) :
    t'.registered? address = some id := by
  obtain ⟨made, added, rfl⟩ := h
  unfold Topology.registered? at hid ⊢
  rw [List.lookup_append, hid]
  rfl

theorem length_le (h : t.Grows t') : t.pools.length ≤ t'.pools.length := by
  obtain ⟨made, added, rfl⟩ := h
  rw [List.length_append]
  exact Nat.le_add_right _ _

theorem tables (h : t.Grows t') : t'.tables = t.tables := by
  obtain ⟨made, added, rfl⟩ := h
  rfl

theorem current (h : t.Grows t') : t'.current = t.current := by
  obtain ⟨made, added, rfl⟩ := h
  rfl

theorem generation (h : t.Grows t') : t'.generation = t.generation := by
  obtain ⟨made, added, rfl⟩ := h
  rfl

theorem closed (h : t.Grows t') : t'.closed = t.closed := by
  obtain ⟨made, added, rfl⟩ := h
  rfl

theorem poolFor? (h : t.Grows t') (slot : Nat) : t'.poolFor? slot = t.poolFor? slot := by
  obtain ⟨made, added, rfl⟩ := h
  rfl

end Grows

theorem registered?_obtain (t : Topology) (address : String) :
    (t.obtain address).2.registered? address = some (t.obtain address).1 := by
  cases h : t.registered? address with
  | some id =>
    rw [obtain_of_registered h]
    exact h
  | none =>
    rw [obtain_of_unregistered h]
    unfold registered? at h ⊢
    rw [register, List.lookup_append, h]
    simp

theorem registered?_obtain_of_ne (hother : other ≠ address) :
    (t.obtain address).2.registered? other = t.registered? other := by
  cases h : t.registered? address with
  | some id => rw [obtain_of_registered h]
  | none =>
    rw [obtain_of_unregistered h]
    unfold registered? register
    rw [List.lookup_append, List.lookup_cons, beq_eq_false_iff_ne.2 hother]
    exact Option.or_none

/-! ### Entries -/

theorem poolFor?_setEntry (h : t.current < t.tables.length) (slot other : Nat) (id : PoolId) :
    (t.setEntry t.current slot id).poolFor? other =
      if other = slot ∧ slot < slotCount then some id else t.poolFor? other := by
  have htable : (t.setEntry t.current slot id).table = t.table.set slot id := by
    simp [table, setEntry, List.getD_eq_getElem?_getD, h]
  unfold poolFor?
  rw [htable, SlotTable.get?_set]

theorem move_of_closed (h : t.closed = true) (slot : Nat) (address : String) :
    t.move slot address = (none, t) := by
  unfold move
  rw [if_pos h]

theorem move_of_open (h : t.closed = false) (slot : Nat) (address : String) :
    (t.move slot address).2 =
      (t.obtain address).2.setEntry (t.obtain address).2.current slot (t.obtain address).1 := by
  unfold move
  rw [if_neg (Bool.eq_false_iff.1 h)]

/-! ### Layouts -/

/-- What it is to install a layout. -/
theorem of_install {ranges : List SlotRange} (h : t.install ranges = .ok t') :
    t.closed = false ∧
      t' = ((t.layOut .empty ranges).2.putInForce (t.layOut .empty ranges).1).retain
        (ranges.map SlotRange.master) := by
  unfold install at h
  split at h
  · cases h
  · rename_i hopen
    exact ⟨Bool.eq_false_iff.2 hopen, (Except.ok.inj h).symm⟩

theorem registered?_layOut (t : Topology) (table : SlotTable) {ranges : List SlotRange} {r : SlotRange}
    (h : r ∈ ranges) : ∃ id, (t.layOut table ranges).2.registered? r.master = some id := by
  induction ranges generalizing t table with
  | nil => cases h
  | cons first rest ih =>
    rcases List.mem_cons.1 h with rfl | hrest
    · exact ⟨_, (Grows.layOut _ _ rest).registered? (registered?_obtain t r.master)⟩
    · exact ih _ _ hrest

theorem contains_iff (r : SlotRange) (slot : UInt16) :
    r.contains slot = true ↔ r.first.toNat ≤ slot.toNat ∧ slot.toNat ≤ r.last.toNat := by
  unfold SlotRange.contains
  rw [Bool.and_eq_true, decide_eq_true_eq, decide_eq_true_eq, UInt16.le_iff_toNat_le, UInt16.le_iff_toNat_le]

/-- The last of the ranges that has the slot, if one has it. -/
def lastRange? (ranges : List SlotRange) (slot : UInt16) : Option SlotRange :=
  (ranges.filter (·.contains slot)).getLast?

theorem lastRange?_cons (r : SlotRange) (rs : List SlotRange) (slot : UInt16) :
    lastRange? (r :: rs) slot =
      (lastRange? rs slot).or (if r.contains slot = true then some r else none) := by
  simp only [lastRange?, List.getLast?_filter, List.reverse_cons, List.find?_append]
  congr 1
  by_cases hr : r.contains slot = true
  · rw [if_pos hr]
    exact List.find?_cons_of_pos hr
  · rw [if_neg hr]
    exact List.find?_cons_of_neg hr

theorem mem_of_lastRange? {ranges : List SlotRange} {slot : UInt16} {r : SlotRange}
    (h : lastRange? ranges slot = some r) : r ∈ ranges :=
  (List.mem_filter.1 (List.mem_of_getLast? h)).1

/-- **Of the ranges that have a slot the last one counts**; a slot in none of them keeps its entry. -/
theorem get?_layOut (t : Topology) (table : SlotTable) (ranges : List SlotRange) {slot : UInt16}
    (hslot : slot.toNat < slotCount) :
    (t.layOut table ranges).1.get? slot.toNat =
      match lastRange? ranges slot with
      | some r => (t.layOut table ranges).2.registered? r.master
      | none => table.get? slot.toNat := by
  induction ranges generalizing t table with
  | nil => rfl
  | cons r rs ih =>
    have hstep : t.layOut table (r :: rs) = (t.obtain r.master).2.layOut
        (table.assign r.first.toNat r.last.toNat (t.obtain r.master).1) rs := rfl
    rw [hstep, ih, lastRange?_cons]
    rcases lastRange? rs slot with _ | r'
    · rw [Option.none_or]
      have hcovers := contains_iff r slot
      by_cases hr : r.contains slot = true
      · obtain ⟨hfirst, hlast⟩ := hcovers.1 hr
        rw [if_pos hr]
        show (table.assign _ _ _).get? _ = Topology.registered? _ _
        rw [SlotTable.get?_assign, if_pos ⟨hfirst, hlast, hslot⟩]
        exact ((Grows.layOut _ _ rs).registered? (registered?_obtain t r.master)).symm
      · rw [if_neg hr]
        show (table.assign _ _ _).get? _ = table.get? _
        rw [SlotTable.get?_assign, if_neg fun h => hr (hcovers.2 ⟨h.1, h.2.1⟩)]
    · rw [Option.some_or]

/-- What a layout puts into an empty table is registered under the address of a master. -/
theorem master_of_layOut {ranges : List SlotRange} {slot : Nat}
    (h : (t.layOut .empty ranges).1.get? slot = some id) :
    ∃ r ∈ ranges, (t.layOut .empty ranges).2.registered? r.master = some id := by
  have hslot := SlotTable.lt_of_get? h
  have hword : slot < UInt16.size := Nat.lt_trans hslot (by decide)
  have hsame : (UInt16.ofNat slot).toNat = slot := UInt16.toNat_ofNat_of_lt hword
  rw [← hsame] at h hslot
  rw [get?_layOut t .empty ranges hslot] at h
  rcases hlast : lastRange? ranges (UInt16.ofNat slot) with _ | r
  · rw [hlast] at h
    simp at h
  · rw [hlast] at h
    exact ⟨r, mem_of_lastRange? hlast, h⟩

/-! ### Fewer pools -/

@[simp] theorem length_retain (t : Topology) (live : List String) :
    (t.retain live).pools.length = t.pools.length := by
  have hfold : ∀ (entries : List (String × PoolId)) (pools : List Pool),
      (entries.foldl (fun pools e => pools.modify e.2 Pool.close) pools).length = pools.length := by
    intro entries
    induction entries with
    | nil => exact fun pools => rfl
    | cons e entries ih =>
      intro pools
      rw [List.foldl_cons, ih, List.length_modify]
  exact hfold _ _

theorem registered?_retain (t : Topology) (live : List String) (address : String) :
    (t.retain live).registered? address =
      if address ∈ live then t.registered? address else none := by
  show List.lookup address (t.registry.filter fun e => live.contains e.1) = _
  unfold registered?
  induction t.registry with
  | nil => simp
  | cons e rest ih =>
    by_cases he : e.1 = address
    · subst he
      by_cases hlive : e.1 ∈ live
      · rw [List.filter_cons_of_pos (by simpa using hlive), if_pos hlive, List.lookup_cons, List.lookup_cons]
        simp
      · rw [List.filter_cons_of_neg (by simpa using hlive), ih, if_neg hlive, if_neg hlive]
    · have hskip : List.lookup address (e :: rest) = List.lookup address rest := by
        rw [List.lookup_cons, beq_eq_false_iff_ne.2 (Ne.symm he)]
      rw [hskip, ← ih, List.filter_cons]
      split
      · rw [List.lookup_cons, beq_eq_false_iff_ne.2 (Ne.symm he)]
      · rfl

/-- Retiring entries closes the pools that they name, and leaves the others as they are. -/
theorem pool_foldl_close (entries : List (String × PoolId)) (t : Topology) (hid : id < t.pools.length) :
    (entries.foldl (fun pools e => pools.modify e.2 Pool.close) t.pools).getD id default =
      if id ∈ entries.map Prod.snd then (t.pool id).close else t.pool id := by
  induction entries generalizing t with
  | nil => simp [pool]
  | cons e entries ih =>
    have hlen : id < (t.modifyPool e.2 Pool.close).pools.length := by
      simpa [modifyPool] using hid
    rw [List.foldl_cons]
    refine (ih (t.modifyPool e.2 Pool.close) hlen).trans ?_
    rw [pool_modifyPool, List.map_cons]
    by_cases he : e.2 = id
    · simp [he, hid]
    · have hmem : id ∈ entries.map Prod.snd ↔ id ∈ e.2 :: entries.map Prod.snd :=
        ⟨List.mem_cons_of_mem _, fun h => (List.mem_cons.1 h).resolve_left (Ne.symm he)⟩
      have hother : ¬(e.2 = id ∧ id < t.pools.length) := fun h => he h.1
      rw [if_neg hother]
      exact if_congr hmem rfl rfl

/-- The pool of an address that is not live is closed. -/
theorem pool_retain_of_stale {live : List String} (hid : id < t.pools.length)
    (h : (address, id) ∈ t.registry) (hstale : address ∉ live) :
    (t.retain live).pool id = (t.pool id).close := by
  refine (pool_foldl_close _ t hid).trans (if_pos ?_)
  exact List.mem_map.2 ⟨_, List.mem_filter.2 ⟨h, by simpa using hstale⟩, rfl⟩

/-- A pool that no address that is not live has stays as it is. -/
theorem pool_retain_of_live {live : List String} (hid : id < t.pools.length)
    (h : ∀ address, (address, id) ∈ t.registry → address ∈ live) : (t.retain live).pool id = t.pool id := by
  refine (pool_foldl_close _ t hid).trans (if_neg fun hmem => ?_)
  obtain ⟨e, he, rfl⟩ := List.mem_map.1 hmem
  obtain ⟨hreg, hstale⟩ := List.mem_filter.1 he
  simp [h e.1 hreg] at hstale

/-! ### Agreement -/

/-- **The registry and the slot table agree.** -/
structure Agrees (t : Topology) : Prop where
  /-- There is one pool to an address. -/
  distinct : (t.registry.map Prod.fst).Nodup
  /-- A pool is registered under its own address. -/
  made : ∀ address id, (address, id) ∈ t.registry → id < t.pools.length ∧ (t.pool id).address = address
  /-- An entry of the table is the pool that is registered under the address of that pool. -/
  entries : ∀ slot id, t.poolFor? slot = some id → t.registered? (t.pool id).address = some id
  /-- A pool is closed exactly when it is registered no more. -/
  closed : ∀ id < t.pools.length, (t.pool id).closed = true ↔ ∀ address, (address, id) ∉ t.registry
  /-- The table in force is the last that was made. -/
  latest : t.current + 1 = t.tables.length

namespace Agrees

theorem registered?_iff (h : t.Agrees) : t.registered? address = some id ↔ (address, id) ∈ t.registry :=
  ⟨mem_registry, registered?_of_mem h.distinct⟩

theorem made_of_registered? (h : t.Agrees) (hid : t.registered? address = some id) :
    id < t.pools.length ∧ (t.pool id).address = address := h.made address id (mem_registry hid)

theorem fresh (setup : Setup) : (Topology.fresh setup).Agrees := by
  refine ⟨List.nodup_nil, nofun, fun slot id hid => ?_, fun id hid => absurd hid (Nat.not_lt_zero id), rfl⟩
  have hempty : SlotTable.empty.get? slot = some id := hid
  rw [SlotTable.get?_empty] at hempty
  cases hempty

/-- An address that has no pool may be given one. -/
theorem register (h : t.Agrees) (hnone : t.registered? address = none) : (t.register address).Agrees := by
  have hgrows := Grows.register t address
  have hnew : ∀ id, (address, id) ∉ t.registry := by
    intro id hid
    rw [h.registered?_iff.2 hid] at hnone
    cases hnone
  refine ⟨?_, fun other id hid => ?_, fun slot id hid => ?_, fun id hid => ?_, h.latest⟩
  · rw [Topology.register, List.map_append]
    refine List.nodup_append.2 ⟨h.distinct, by simp, ?_⟩
    rintro a ha _ hb rfl
    obtain ⟨e, he, rfl⟩ := List.mem_map.1 ha
    obtain rfl : e.1 = address := by simpa using hb
    exact hnew e.2 he
  · rcases List.mem_append.1 hid with hold | hmade
    · obtain ⟨hlt, haddress⟩ := h.made other id hold
      rw [hgrows.pool hlt]
      exact ⟨Nat.lt_of_lt_of_le hlt hgrows.length_le, haddress⟩
    · obtain ⟨rfl, rfl⟩ := Prod.mk.inj (List.mem_singleton.1 hmade)
      rw [pool_register]
      exact ⟨by simp [Topology.register], rfl⟩
  · have hreg := h.entries slot id hid
    rw [hgrows.pool (h.made_of_registered? hreg).1]
    exact hgrows.registered? hreg
  · by_cases hold : id < t.pools.length
    · rw [hgrows.pool hold, h.closed id hold]
      refine forall_congr' fun other => not_congr ?_
      rw [Topology.register, List.mem_append, List.mem_singleton, Prod.mk.injEq]
      exact ⟨.inl, fun hmem => hmem.resolve_right fun heq => Nat.ne_of_lt hold heq.2⟩
    · obtain rfl : id = t.pools.length := by
        rw [Topology.register, List.length_append, List.length_singleton] at hid
        omega
      rw [pool_register]
      refine ⟨nofun, fun hno => ?_⟩
      exact absurd (List.mem_append_right _ (List.mem_singleton.2 rfl)) (hno address)

theorem obtain (h : t.Agrees) (address : String) : (t.obtain address).2.Agrees := by
  cases hreg : t.registered? address with
  | some id =>
    rw [obtain_of_registered hreg]
    exact h
  | none =>
    rw [obtain_of_unregistered hreg]
    exact h.register hreg

theorem layOut (h : t.Agrees) (table : SlotTable) (ranges : List SlotRange) :
    (t.layOut table ranges).2.Agrees := by
  induction ranges generalizing t table with
  | nil => exact h
  | cons r rs ih => exact ih (h.obtain r.master) _

/-- An entry may be set to a pool that is registered. -/
theorem setEntry (h : t.Agrees) (slot : Nat) (hid : t.registered? (t.pool id).address = some id) :
    (t.setEntry t.current slot id).Agrees := by
  refine ⟨h.distinct, h.made, fun other pool hpool => ?_, h.closed, ?_⟩
  · rw [poolFor?_setEntry (by have := h.latest; omega)] at hpool
    split at hpool
    · obtain rfl := Option.some.inj hpool
      exact hid
    · exact h.entries other pool hpool
  · show t.current + 1 = (t.tables.modify _ _).length
    rw [List.length_modify]
    exact h.latest

theorem move (h : t.Agrees) (slot : Nat) (address : String) : (t.move slot address).2.Agrees := by
  cases hclosed : t.closed with
  | true =>
    rw [move_of_closed hclosed]
    exact h
  | false =>
    have hobtain := h.obtain address
    have hreg := registered?_obtain t address
    rw [move_of_open hclosed]
    refine hobtain.setEntry slot ?_
    rw [(hobtain.made_of_registered? hreg).2]
    exact hreg

/-- A table may be put in force if the pools in it are registered and stay so; all other pools may be
retired. -/
theorem enforce (h : t.Agrees) {table : SlotTable} {live : List String}
    (htable : ∀ slot id, table.get? slot = some id → ∃ address ∈ live, t.registered? address = some id) :
    ((t.putInForce table).retain live).Agrees := by
  have hsame : ∀ address id, (address, id) ∈ t.registry → address ∈ live →
      ((t.putInForce table).retain live).pool id = t.pool id := by
    intro address id hid hlive
    obtain ⟨hlt, haddress⟩ := h.made address id hid
    refine pool_retain_of_live (t := t.putInForce table) hlt fun other hother => ?_
    rw [(h.made other id hother).2.symm.trans haddress]
    exact hlive
  refine ⟨?_, fun address id hid => ?_, fun slot id hid => ?_, fun id hid => ?_,
    by simp [retain, putInForce]⟩
  · exact h.distinct.sublist ((List.filter_sublist).map _)
  · obtain ⟨hreg, hlive⟩ := List.mem_filter.1 hid
    rw [hsame address id hreg (by simpa using hlive), length_retain]
    exact h.made address id hreg
  · have hentry : table.get? slot = some id := by
      simpa [Topology.poolFor?, Topology.table, retain, putInForce] using hid
    obtain ⟨address, hlive, hreg⟩ := htable slot id hentry
    rw [hsame address id (mem_registry hreg) hlive, (h.made_of_registered? hreg).2, registered?_retain,
      if_pos hlive]
    exact hreg
  · rw [length_retain] at hid
    have hiff := h.closed id hid
    by_cases hreg : ∃ address, (address, id) ∈ t.registry
    · obtain ⟨address, hreg⟩ := hreg
      by_cases hlive : address ∈ live
      · rw [hsame address id hreg hlive, hiff]
        refine ⟨fun hno => absurd hreg (hno address), fun hno => absurd ?_ (hno address)⟩
        exact List.mem_filter.2 ⟨hreg, by simpa using hlive⟩
      · rw [pool_retain_of_stale (t := t.putInForce table) hid hreg hlive]
        refine ⟨fun _ other hother => ?_, fun _ => rfl⟩
        obtain ⟨hmem, hother⟩ := List.mem_filter.1 hother
        rw [(h.made other id hmem).2.symm.trans (h.made address id hreg).2] at hother
        exact hlive (by simpa using hother)
    · have hnone : ∀ address, (address, id) ∉ t.registry := fun address hmem => hreg ⟨address, hmem⟩
      rw [pool_retain_of_live (t := t.putInForce table) hid fun address hmem => absurd hmem (hnone address)]
      show (t.pool id).closed = true ↔ _
      rw [hiff]
      refine ⟨fun _ address hmem => hnone address (List.mem_filter.1 hmem).1, fun _ => hnone⟩

theorem install (h : t.Agrees) {ranges : List SlotRange} (ht : t.install ranges = .ok t') : t'.Agrees := by
  obtain ⟨-, rfl⟩ := of_install ht
  refine (h.layOut .empty ranges).enforce fun slot id hid => ?_
  obtain ⟨r, hr, hreg⟩ := master_of_layOut hid
  exact ⟨r.master, List.mem_map_of_mem hr, hreg⟩

theorem close (h : t.Agrees) : t.close.Agrees := by
  have hclosed : ({ t with closed := true } : Topology).Agrees :=
    ⟨h.distinct, h.made, h.entries, h.closed, h.latest⟩
  refine hclosed.enforce fun slot id hid => ?_
  rw [SlotTable.get?_empty] at hid
  cases hid

end Agrees

/-! ### After a layout has been installed -/

/-- **The addresses of the masters are registered, and no others.** -/
theorem registered?_install {ranges : List SlotRange} (ht : t.install ranges = .ok t') :
    (∃ id, t'.registered? address = some id) ↔ ∃ r ∈ ranges, r.master = address := by
  obtain ⟨-, rfl⟩ := of_install ht
  rw [registered?_retain]
  have hlive : address ∈ ranges.map SlotRange.master ↔ ∃ r ∈ ranges, r.master = address := List.mem_map
  rw [← hlive]
  by_cases h : address ∈ ranges.map SlotRange.master
  · rw [if_pos h]
    obtain ⟨r, hr, rfl⟩ := hlive.1 h
    exact ⟨fun _ => h, fun _ => registered?_layOut t .empty hr⟩
  · rw [if_neg h]
    exact ⟨nofun, fun hmem => absurd hmem h⟩

/-- **The pool of an address that stays is the same pool, as it was.** -/
theorem Agrees.pool_install (h : t.Agrees) {ranges : List SlotRange} (ht : t.install ranges = .ok t')
    (hid : t.registered? address = some id) (hmaster : ∃ r ∈ ranges, r.master = address) :
    t'.registered? address = some id ∧ t'.pool id = t.pool id := by
  obtain ⟨-, rfl⟩ := of_install ht
  have hgrows := Grows.layOut t .empty ranges
  have hlive : address ∈ ranges.map SlotRange.master := List.mem_map.2 hmaster
  have hlaid := h.layOut .empty ranges
  have hreg := hgrows.registered? hid
  constructor
  · rw [registered?_retain, if_pos hlive]
    exact hreg
  · refine Eq.trans ?_ (hgrows.pool (h.made_of_registered? hid).1)
    obtain ⟨hlt, haddress⟩ := hlaid.made_of_registered? hreg
    refine pool_retain_of_live (t := (t.layOut .empty ranges).2.putInForce _) hlt fun other hother => ?_
    rw [(hlaid.made other id hother).2.symm.trans haddress]
    exact hlive

/-! ### Operations -/

/-- What can be done to a topology as a whole. -/
inductive Operation where
  | install (ranges : List SlotRange)
  | move (slot : UInt16) (address : String)
  | obtain (address : String)
  | close
  deriving DecidableEq

/-- Does an operation; a layout that is refused changes nothing. -/
def apply (t : Topology) : Operation → Topology
  | .install ranges =>
    match t.install ranges with
    | .ok t => t
    | .error _ => t
  | .move slot address => (t.move slot.toNat address).2
  | .obtain address => (t.obtain address).2
  | .close => t.close

/-- No operation makes the registry and the table disagree. -/
theorem Agrees.apply (h : t.Agrees) (op : Operation) : (t.apply op).Agrees := by
  cases op with
  | install ranges =>
    unfold Topology.apply
    dsimp only
    split
    · rename_i ht
      exact h.install ht
    · exact h
  | move slot address => exact h.move slot.toNat address
  | obtain address => exact h.obtain address
  | close => exact h.close

end Topology
end SlotRouter
