import SlotRouter.Slot

/-!
# Slot tables

A slot table says for every slot which pool serves it, if any does. Pools are known by number.
-/

namespace SlotRouter

/-- The number of a pool: its place among all pools ever made. -/
abbrev PoolId := Nat

/-- For every slot the pool that serves it. -/
structure SlotTable where
  entries : Vector (Option PoolId) slotCount
  deriving DecidableEq

namespace SlotTable

/-- No slot is served. -/
def empty : SlotTable := ⟨Vector.replicate slotCount none⟩

instance : Inhabited SlotTable := ⟨empty⟩

/-- The pool that serves the slot. -/
def get? (t : SlotTable) (slot : Nat) : Option PoolId :=
  if h : slot < slotCount then t.entries[slot] else none

/-- The slot is served by the pool; a number that is no slot changes nothing. -/
def set (t : SlotTable) (slot : Nat) (pool : PoolId) : SlotTable :=
  if h : slot < slotCount then ⟨t.entries.set slot (some pool)⟩ else t

/-- The slots from `first` to `last` are served by the pool. -/
def assign (t : SlotTable) (first last : Nat) (pool : PoolId) : SlotTable :=
  (List.range' first (last + 1 - first)).foldl (fun t slot => t.set slot pool) t

/-- The number of slots that are served. -/
def covered (t : SlotTable) : Nat := t.entries.toArray.countP Option.isSome

/-- Whether every slot is served. -/
def isFull (t : SlotTable) : Bool := t.covered == slotCount

/-- A line that says how many slots are served. -/
def summary (t : SlotTable) : String := "SlotTable \x7b covered: " ++ toString t.covered ++ " \x7d"

@[simp] theorem get?_empty (slot : Nat) : empty.get? slot = none := by
  unfold get? empty
  split <;> simp

theorem get?_set (t : SlotTable) (slot other : Nat) (pool : PoolId) :
    (t.set slot pool).get? other =
      if other = slot ∧ slot < slotCount then some pool else t.get? other := by
  unfold set get?
  by_cases hs : slot < slotCount
  · by_cases ho : other < slotCount
    · simp only [hs, ho, dif_pos, and_true, Vector.getElem_set]
      by_cases he : slot = other
      · simp [he]
      · simp [he, Ne.symm he]
    · have : other ≠ slot := by omega
      simp [hs, ho, this]
  · simp [hs]

theorem get?_eq_none {t : SlotTable} {slot : Nat} (h : ¬slot < slotCount) : t.get? slot = none := by
  unfold get?
  rw [dif_neg h]

theorem lt_of_get? {t : SlotTable} {slot : Nat} {pool : PoolId} (h : t.get? slot = some pool) :
    slot < slotCount := by
  refine Decidable.byContradiction fun hno => ?_
  rw [get?_eq_none hno] at h
  cases h

/-- A run of slots that starts at `first` is served by the pool afterwards, and no other slot is touched. -/
theorem get?_foldl_set (t : SlotTable) (first count other : Nat) (pool : PoolId) :
    ((List.range' first count).foldl (fun t slot => t.set slot pool) t).get? other =
      if first ≤ other ∧ other < first + count ∧ other < slotCount then some pool else t.get? other := by
  induction count generalizing t first with
  | zero =>
    rw [if_neg (by omega)]
    rfl
  | succ count ih =>
    rw [List.range'_succ, List.foldl_cons, ih, get?_set]
    by_cases hrest : first + 1 ≤ other ∧ other < first + 1 + count ∧ other < slotCount
    · rw [if_pos hrest, if_pos (by omega)]
    · rw [if_neg hrest]
      by_cases hfirst : other = first ∧ first < slotCount
      · rw [if_pos hfirst, if_pos (by omega)]
      · rw [if_neg hfirst, if_neg (by omega)]

theorem get?_assign (t : SlotTable) (first last other : Nat) (pool : PoolId) :
    (t.assign first last pool).get? other =
      if first ≤ other ∧ other ≤ last ∧ other < slotCount then some pool else t.get? other := by
  unfold assign
  rw [get?_foldl_set]
  congr 1
  exact propext (by omega)

/-- A table is full if every slot is served. -/
theorem isFull_iff (t : SlotTable) : t.isFull = true ↔ ∀ slot < slotCount, (t.get? slot).isSome = true := by
  unfold isFull covered
  rw [beq_iff_eq]
  constructor
  · intro h slot hslot
    have hall := Array.countP_eq_size.1 (h.trans t.entries.size_toArray.symm)
    unfold get?
    rw [dif_pos hslot]
    exact hall _ (Array.getElem_mem _)
  · intro h
    refine (Array.countP_eq_size.2 fun entry hentry => ?_).trans t.entries.size_toArray
    obtain ⟨slot, hslot, rfl⟩ := Array.mem_iff_getElem.1 hentry
    rw [t.entries.size_toArray] at hslot
    have hserved := h slot hslot
    unfold get? at hserved
    rwa [dif_pos hslot] at hserved

end SlotTable
end SlotRouter
