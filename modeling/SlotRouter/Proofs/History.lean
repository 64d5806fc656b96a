import SlotRouter.Proofs.Registry

/-!
# Slots and the history of a topology

What a topology says about a slot is what was last said about it: by a move since the last layout, or
else by the last range of that layout that has the slot, and nothing once it is closed
(`Operation.owner?`, read off from the history alone). An earlier table stays for those who still look
at it as it was when the next layout came.

Key definitions: `Topology.ofHistory`, `Operation.owner?`. Key theorem: `Topology.history_decides`.
-/

namespace SlotRouter
namespace Topology

/-- The topology after a history of operations, the latest in front. -/
def ofHistory (setup : Setup) : List Operation → Topology
  | [] => .fresh setup
  | op :: past => (ofHistory setup past).apply op

namespace Operation

/-- The layout that the operation installs, if it installs one. -/
def layout? : Operation → Option (List SlotRange)
  | .install ranges => some ranges
  | _ => none

/-- The node to which the operation moves the slot, if it moves it. -/
def moved? (slot : UInt16) : Operation → Option String
  | .move other address => if other = slot then some address else none
  | _ => none

/-- What has been done since a layout was installed. -/
def sinceLayout (history : List Operation) : List Operation :=
  history.takeWhile fun op => op.layout?.isNone

/-- The node that serves the slot according to the history: the one to which the slot was moved last
since a layout was installed, or else the master of the last range of that layout that has the slot. A
closed topology serves no slot. -/
def owner? (history : List Operation) (slot : UInt16) : Option String :=
  if .close ∈ history then none
  else ((sinceLayout history).findSome? (moved? slot)).or
    (((history.findSome? layout?).bind fun ranges => lastRange? ranges slot).map SlotRange.master)

variable {past : List Operation} {slot : UInt16}

theorem owner?_install (ranges : List SlotRange) (hopen : .close ∉ past) :
    owner? (.install ranges :: past) slot = (lastRange? ranges slot).map SlotRange.master := by
  have hstill : .close ∉ Operation.install ranges :: past := by simpa using hopen
  exact if_neg hstill

theorem owner?_move (other : UInt16) (address : String) (hopen : .close ∉ past) :
    owner? (.move other address :: past) slot = if other = slot then some address else owner? past slot := by
  have hstill : .close ∉ Operation.move other address :: past := by simpa using hopen
  have hsince : sinceLayout (.move other address :: past) = .move other address :: sinceLayout past := rfl
  have hlayout : (Operation.move other address :: past).findSome? layout? = past.findSome? layout? := rfl
  unfold owner?
  rw [if_neg hstill, if_neg hopen, hsince, hlayout, List.findSome?_cons]
  by_cases hother : other = slot <;> simp [moved?, hother]

theorem owner?_obtain (address : String) : owner? (.obtain address :: past) slot = owner? past slot := by
  have hclose : .close ∈ Operation.obtain address :: past ↔ .close ∈ past := by simp
  exact if_congr hclose rfl rfl

theorem owner?_of_close (hclosed : .close ∈ past) : owner? past slot = none := if_pos hclosed

end Operation

variable {t t' : Topology} {setup : Setup} {slot : UInt16}

/-! ### Owners -/

theorem owner?_eq_none {slot : Nat} (h : t.poolFor? slot = none) : t.owner? slot = none := by
  unfold owner?
  rw [h]
  rfl

/-- Making pools changes no owner. -/
theorem Grows.owner? (h : t.Grows t') (ht : t.Agrees) (slot : Nat) : t'.owner? slot = t.owner? slot := by
  unfold Topology.owner?
  rw [h.poolFor?]
  cases hid : t.poolFor? slot with
  | none => rfl
  | some id =>
    have hlt := (ht.made_of_registered? (ht.entries slot id hid)).1
    rw [Option.map_some, Option.map_some, h.pool hlt]

/-- A move changes the owner of the slot, and of no other. -/
theorem Agrees.owner?_move (ht : t.Agrees) (hopen : t.closed = false) (slot other : Nat) (address : String) :
    (t.move slot address).2.owner? other =
      if other = slot ∧ slot < slotCount then some address else t.owner? other := by
  have hgrows := Grows.obtain t address
  have hobtain := ht.obtain address
  have hcurrent : (t.obtain address).2.current < (t.obtain address).2.tables.length := by
    have := hobtain.latest
    omega
  have haddress := (hobtain.made_of_registered? (registered?_obtain t address)).2
  rw [move_of_open hopen]
  unfold Topology.owner?
  rw [poolFor?_setEntry hcurrent]
  split_ifs
  · rw [Option.map_some]
    exact congrArg some haddress
  · exact hgrows.owner? ht other

/-- A layout that is installed gives every slot the master of the last range that has it. -/
theorem Agrees.owner?_install (ht : t.Agrees) {ranges : List SlotRange} (h : t.install ranges = .ok t')
    (hslot : slot.toNat < slotCount) :
    t'.owner? slot.toNat = (lastRange? ranges slot).map SlotRange.master := by
  have hagrees := ht.install h
  obtain ⟨-, hnew⟩ := of_install h
  have hpool : t'.poolFor? slot.toNat = (t.layOut .empty ranges).1.get? slot.toNat := by
    rw [hnew]
    simp [poolFor?, table, retain, putInForce]
  unfold Topology.owner?
  rw [hpool, get?_layOut t .empty ranges hslot]
  rcases hlast : lastRange? ranges slot with _ | r
  · simp
  · have hmem := mem_of_lastRange? hlast
    obtain ⟨id, hid⟩ := registered?_layOut t .empty hmem
    have hkept : t'.registered? r.master = some id := by
      rw [hnew, registered?_retain, if_pos (List.mem_map_of_mem hmem)]
      exact hid
    dsimp only
    rw [hid, Option.map_some, Option.map_some, (hagrees.made_of_registered? hkept).2]

/-! ### Histories -/

theorem agrees_ofHistory (setup : Setup) (history : List Operation) : (ofHistory setup history).Agrees := by
  induction history with
  | nil => exact .fresh setup
  | cons op past ih => exact ih.apply op

theorem closed_install {ranges : List SlotRange} (h : t.install ranges = .ok t') :
    t.closed = false ∧ t'.closed = false := by
  obtain ⟨hopen, rfl⟩ := of_install h
  exact ⟨hopen, (Grows.layOut t .empty ranges).closed.trans hopen⟩

theorem closed_apply (t : Topology) (op : Operation) :
    (t.apply op).closed = (t.closed || decide (op = .close)) := by
  cases op with
  | install ranges =>
    unfold apply
    dsimp only
    split
    · rename_i t' h
      obtain ⟨hbefore, hafter⟩ := closed_install h
      rw [hbefore, hafter]
      rfl
    · simp
  | move slot address =>
    simp only [apply]
    cases hclosed : t.closed with
    | true => simp [move_of_closed hclosed, hclosed]
    | false =>
      rw [move_of_open hclosed]
      simpa [setEntry] using (Grows.obtain t address).closed.trans hclosed
  | obtain address =>
    refine (Grows.obtain t address).closed.trans ?_
    simp
  | close => simp [apply]

theorem closed_ofHistory (setup : Setup) (history : List Operation) :
    (ofHistory setup history).closed = true ↔ .close ∈ history := by
  induction history with
  | nil => simp [ofHistory, fresh]
  | cons op past ih =>
    show ((ofHistory setup past).apply op).closed = true ↔ _
    rw [closed_apply, Bool.or_eq_true, ih, decide_eq_true_eq, List.mem_cons, or_comm, eq_comm]

/-- A topology that is closed and serves no slot stays so. -/
theorem poolFor?_apply_of_closed (hclosed : t.closed = true) {slot : Nat} (h : t.poolFor? slot = none)
    (op : Operation) : (t.apply op).poolFor? slot = none := by
  cases op with
  | install ranges => simpa [apply, install, hclosed] using h
  | move other address => simpa [apply, move, hclosed] using h
  | obtain address => exact ((Grows.obtain t address).poolFor? slot).trans h
  | close => exact poolFor?_close t slot

theorem poolFor?_of_closed {history : List Operation} (hclosed : .close ∈ history) (slot : Nat) :
    (ofHistory setup history).poolFor? slot = none := by
  induction history with
  | nil => cases hclosed
  | cons op past ih =>
    by_cases hpast : .close ∈ past
    · exact poolFor?_apply_of_closed ((closed_ofHistory setup past).2 hpast) (ih hpast) op
    · obtain rfl : .close = op := (List.mem_cons.1 hclosed).resolve_right hpast
      exact poolFor?_close _ slot

/-- **The owner of a slot is the one that the history says.** -/
theorem owner?_ofHistory (setup : Setup) (history : List Operation) (hslot : slot.toNat < slotCount) :
    (ofHistory setup history).owner? slot.toNat = Operation.owner? history slot := by
  induction history with
  | nil => exact owner?_eq_none (SlotTable.get?_empty _)
  | cons op past ih =>
    have hagrees := agrees_ofHistory setup past
    by_cases hclosed : .close ∈ op :: past
    · rw [Operation.owner?_of_close hclosed]
      exact owner?_eq_none (poolFor?_of_closed hclosed _)
    · have hpast : .close ∉ past := fun h => hclosed (List.mem_cons_of_mem _ h)
      have hopen : (ofHistory setup past).closed = false := by
        rw [← Bool.not_eq_true, closed_ofHistory]
        exact hpast
      cases op with
      | install ranges =>
        rw [Operation.owner?_install ranges hpast]
        obtain ⟨t', ht⟩ : ∃ t', (ofHistory setup past).install ranges = .ok t' := by
          simp [install, hopen]
        show ((ofHistory setup past).apply _).owner? _ = _
        simp only [apply, ht]
        exact hagrees.owner?_install ht hslot
      | move other address =>
        rw [Operation.owner?_move other address hpast, ← ih]
        show ((ofHistory setup past).move other.toNat address).2.owner? slot.toNat = _
        rw [hagrees.owner?_move hopen]
        refine if_congr ?_ rfl rfl
        constructor
        · exact fun h => UInt16.toNat_inj.1 h.1.symm
        · rintro rfl
          exact ⟨rfl, hslot⟩
      | obtain address =>
        rw [Operation.owner?_obtain, ← ih]
        exact (Grows.obtain _ address).owner? hagrees slot.toNat
      | close => exact absurd List.mem_cons_self hclosed

/-- Every slot is served exactly if the history names a node for each. -/
theorem isFull_ofHistory (setup : Setup) (history : List Operation) :
    (ofHistory setup history).table.isFull = true ↔
      ∀ slot : UInt16, slot.toNat < slotCount → (Operation.owner? history slot).isSome = true := by
  have howner : ∀ slot : UInt16, slot.toNat < slotCount →
      ((ofHistory setup history).table.get? slot.toNat).isSome = (Operation.owner? history slot).isSome := by
    intro slot hslot
    rw [← owner?_ofHistory setup history hslot]
    exact Option.isSome_map.symm
  rw [SlotTable.isFull_iff]
  constructor
  · intro h slot hslot
    rw [← howner slot hslot]
    exact h slot.toNat hslot
  · intro h slot hslot
    have hword : slot < UInt16.size := Nat.lt_trans hslot (by decide)
    have hsame : (UInt16.ofNat slot).toNat = slot := UInt16.toNat_ofNat_of_lt hword
    rw [← hsame] at hslot ⊢
    rw [howner _ hslot]
    exact h _ hslot

/-! ### Earlier tables -/

/-- Nothing is written into the table with the number any more: it is in force no longer, or the
topology is closed. -/
def IsPast (t : Topology) (number : Nat) : Prop :=
  number < t.tables.length ∧ (number = t.current → t.closed = true)

theorem tables_install {ranges : List SlotRange} (h : t.install ranges = .ok t') :
    (∃ table, t'.tables = t.tables ++ [table]) ∧ t'.current = t.tables.length := by
  obtain ⟨-, rfl⟩ := of_install h
  simp [retain, putInForce, (Grows.layOut t .empty ranges).tables]

/-- A table that there is when a layout comes is past from then on, whether the layout is installed or
refused. -/
theorem isPast_install (ranges : List SlotRange) {number : Nat} (hnumber : number < t.tables.length) :
    (t.apply (.install ranges)).tables[number]? = t.tables[number]? ∧
      (t.apply (.install ranges)).IsPast number := by
  cases h : t.install ranges with
  | error e =>
    have hsame : t.apply (.install ranges) = t := by simp [apply, h]
    have hclosed : t.closed = true := by
      unfold install at h
      split at h
      · assumption
      · cases h
    rw [hsame]
    exact ⟨rfl, hnumber, fun _ => hclosed⟩
  | ok t' =>
    have hnew : t.apply (.install ranges) = t' := by simp [apply, h]
    obtain ⟨⟨table, htables⟩, hcurrent⟩ := tables_install h
    rw [hnew, IsPast, htables, hcurrent]
    refine ⟨List.getElem?_append_left hnumber, ?_, fun heq => ?_⟩
    · rw [List.length_append]
      omega
    · omega

/-- A past table stays as it is, and it stays past. -/
theorem IsPast.apply {number : Nat} (h : t.IsPast number) (op : Operation) :
    (t.apply op).tables[number]? = t.tables[number]? ∧ (t.apply op).IsPast number := by
  obtain ⟨hnumber, hclosed⟩ := h
  cases op with
  | install ranges => exact isPast_install ranges hnumber
  | move slot address =>
    have hgrows := Grows.obtain t address
    simp only [Topology.apply]
    cases hopen : t.closed with
    | true =>
      rw [move_of_closed hopen]
      exact ⟨rfl, hnumber, hclosed⟩
    | false =>
      have hne : t.current ≠ number := by
        intro heq
        rw [hclosed heq.symm] at hopen
        cases hopen
      rw [move_of_open hopen, IsPast, setEntry, hgrows.tables, hgrows.current]
      refine ⟨List.getElem?_modify_ne _ _ hne, ?_, fun heq => absurd heq.symm hne⟩
      rw [List.length_modify]
      exact hnumber
  | obtain address =>
    have hgrows := Grows.obtain t address
    show (t.obtain address).2.tables[number]? = _ ∧ (t.obtain address).2.IsPast number
    rw [IsPast, hgrows.tables, hgrows.current, hgrows.closed]
    exact ⟨rfl, hnumber, hclosed⟩
  | close =>
    refine ⟨List.getElem?_append_left hnumber, ?_, fun _ => rfl⟩
    show number < (t.tables ++ [SlotTable.empty]).length
    rw [List.length_append]
    omega

/-- No table is ever lost. -/
theorem length_tables_apply (t : Topology) (op : Operation) :
    t.tables.length ≤ (t.apply op).tables.length := by
  cases op with
  | install ranges =>
    cases h : t.install ranges with
    | error e => simp [apply, h]
    | ok t' =>
      obtain ⟨⟨table, htables⟩, -⟩ := tables_install h
      simp [apply, h, htables]
  | move slot address =>
    refine Nat.le_of_eq ?_
    simp only [apply]
    cases hclosed : t.closed with
    | true => rw [move_of_closed hclosed]
    | false =>
      rw [move_of_open hclosed, setEntry, (Grows.obtain t address).tables, List.length_modify]
  | obtain address => exact Nat.le_of_eq (congrArg List.length (Grows.obtain t address).tables.symm)
  | close =>
    show t.tables.length ≤ (t.tables ++ [SlotTable.empty]).length
    rw [List.length_append]
    exact Nat.le_add_right _ _

theorem length_tables_ofHistory (setup : Setup) (since older : List Operation) :
    (ofHistory setup older).tables.length ≤ (ofHistory setup (since ++ older)).tables.length := by
  induction since with
  | nil => exact Nat.le_refl _
  | cons op since ih => exact Nat.le_trans ih (length_tables_apply _ op)

/-- **A table stays as it was when the next layout came**, whatever is done afterwards. -/
theorem tables_ofHistory (setup : Setup) (later : List Operation) (ranges : List SlotRange)
    {past : List Operation} {number : Nat} (hnumber : number < (ofHistory setup past).tables.length) :
    (ofHistory setup (later ++ .install ranges :: past)).tables[number]? =
      (ofHistory setup past).tables[number]? := by
  have hpast : (ofHistory setup (later ++ .install ranges :: past)).tables[number]? =
        (ofHistory setup past).tables[number]? ∧
      (ofHistory setup (later ++ .install ranges :: past)).IsPast number := by
    induction later with
    | nil => exact isPast_install ranges hnumber
    | cons op later ih =>
      obtain ⟨hsame, hstays⟩ := ih
      obtain ⟨hnext, hstill⟩ := hstays.apply op
      exact ⟨hnext.trans hsame, hstill⟩
  exact hpast.1

/-- **The history of a topology decides what it says of the slots.** The owner of a slot is the node
to which the slot was moved last since the last layout, or else the master of the last range of that
layout that has it, and nobody if there is neither or the topology has been closed; every slot is
served exactly if the history names a node for each. And the table that is in force at some moment
stays, once a layout has come after it, as it was when that layout came. -/
theorem history_decides (setup : Setup) (history : List Operation) :
    (∀ slot : UInt16, slot.toNat < slotCount →
      (ofHistory setup history).owner? slot.toNat = Operation.owner? history slot) ∧
    ((ofHistory setup history).table.isFull = true ↔
      ∀ slot : UInt16, slot.toNat < slotCount → (Operation.owner? history slot).isSome = true) ∧
    ∀ later ranges since older, history = later ++ .install ranges :: (since ++ older) →
      ∃ table, (ofHistory setup (since ++ older)).tables[(ofHistory setup older).current]? = some table ∧
        (ofHistory setup history).tables[(ofHistory setup older).current]? = some table := by
  refine ⟨fun slot hslot => owner?_ofHistory setup history hslot, isFull_ofHistory setup history, ?_⟩
  rintro later ranges since older rfl
  have hlatest := (agrees_ofHistory setup older).latest
  have hlength := length_tables_ofHistory setup since older
  have hnumber : (ofHistory setup older).current < (ofHistory setup (since ++ older)).tables.length := by
    omega
  refine ⟨_, List.getElem?_eq_getElem hnumber, ?_⟩
  rw [tables_ofHistory setup later ranges hnumber]
  exact List.getElem?_eq_getElem hnumber

/-- A layout in which one range lies within another. -/
def nested : List SlotRange := [⟨0, 100, "a:1", []⟩, ⟨50, 60, "b:1", []⟩]

/-- A move, the layout, another move, and a node that is only registered, the latest in front. -/
def eventful : List Operation := [.obtain "d:1", .move 60 "c:1", .install nested, .move 7 "e:1"]

/-- A client that is told nothing at its start. -/
def bare : Setup := { seeds := [], connection := {}, pool := {}, chance := .settled }

/-- One end of the inner range has moved, the other belongs to the inner master, a move before the
layout is forgotten, and the table before the layout is still what it was. -/
theorem history_decides_eventful :
    (60 : UInt16).toNat < slotCount ∧ (ofHistory bare eventful).owner? 60 = some "c:1" ∧
    (50 : UInt16).toNat < slotCount ∧ (ofHistory bare eventful).owner? 50 = some "b:1" ∧
    (7 : UInt16).toNat < slotCount ∧ (ofHistory bare eventful).owner? 7 = some "a:1" ∧
    (101 : UInt16).toNat < slotCount ∧ (ofHistory bare eventful).owner? 101 = none ∧
    ∃ table, (ofHistory bare [.move 7 "e:1"]).tables[0]? = some table ∧
      (ofHistory bare eventful).tables[0]? = some table := by
  obtain ⟨howner, -, hpast⟩ := history_decides bare eventful
  exact ⟨by decide, howner 60 (by decide), by decide, howner 50 (by decide), by decide, howner 7 (by decide),
    by decide, howner 101 (by decide), hpast [.obtain "d:1", .move 60 "c:1"] nested [] [.move 7 "e:1"] rfl⟩

end Topology
end SlotRouter
