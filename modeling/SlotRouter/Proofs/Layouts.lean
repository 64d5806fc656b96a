import Mathlib
import SlotRouter.Proofs.Identity

/-!
# What a layout is read from

The reader of layouts accepts the form of a reply that lists ranges (`Layout.IsLayout`), and nothing else
(`Layout.ofReply_eq_ok_iff`): each range of the layout is that of the row in its place, with all the nodes among
what follows its master (`Layout.IsRange`). One row that is no range spoils the reply, and the fault is that of the
first such row (`Layout.fault_of_not_isLayout`).

Key theorem: `Layout.reads_exactly`.
-/

namespace SlotRouter

namespace Layout

/-! ### Nodes -/

variable {asked host : List Char} {f : Frame} {payload : Bytes} {address : String}

theorem shows_iff {port : Int} :
    Address.Shows host port address ↔ address = String.ofList (Address.join host port) := by
  have hshown : (host.contains ':' && host.head? != some '[') = true ↔ ':' ∈ host ∧ host.head? ≠ some '[' := by
    simp
  unfold Address.join
  dsimp only
  split_ifs with h
  · obtain ⟨hcolon, hfirst⟩ := hshown.1 h
    constructor
    · rintro (hplain | _)
      · rcases hplain with hplain | hplain
        · exact absurd hcolon hplain
        · exact absurd hplain hfirst
      · simp
    · rintro rfl
      have hbracketed : Address.Shows host port _ := .bracketed hcolon hfirst
      simpa using hbracketed
  · constructor
    · rintro (_ | ⟨hcolon, hfirst⟩)
      · rfl
      · exact absurd (hshown.2 ⟨hcolon, hfirst⟩) h
    · rintro rfl
      refine .plain ?_
      by_contra hboth
      rw [not_or, not_not] at hboth
      exact h (hshown.2 hboth)

theorem means_iff : Means asked payload host ↔ host = Layout.host asked payload := by
  have hunstated : Utf8.lossy payload = [] ∨ Utf8.lossy payload = ['?'] ↔ Unstated (Utf8.lossyText payload) := by
    rw [← unstated_iff, Utf8.lossyText, String.toList_ofList]
  unfold Layout.host
  dsimp only
  split_ifs with h
  · constructor
    · rintro (hstated | _)
      · exact absurd (hunstated.1 h) hstated
      · rfl
    · rintro rfl
      exact .unstated (hunstated.1 h)
  · constructor
    · rintro (_ | hleft)
      · rfl
      · exact absurd (hunstated.2 hleft) h
    · rintro rfl
      exact .stated (hunstated.not.1 h)

theorem payload?_eq_some_iff : f.payload? = some payload ↔ f = .bulk payload ∨ f = .simple payload := by
  cases f <;> simp [Frame.payload?]

theorem items?_eq_some_iff {items : List Frame} : f.items? = some items ↔ f = .array items := by
  cases f <;> simp [Frame.items?]

theorem port_eq_ok_iff {value : Int} :
    port f = .ok value ↔ ∃ p : Int64, f = .integer p ∧ p.toInt = value ∧ 1 ≤ value ∧ value ≤ 65535 := by
  have hrange (p : Int64) : (1 ≤ p ∧ p ≤ 65535) ↔ 1 ≤ p.toInt ∧ p.toInt ≤ 65535 := by
    rw [Int64.le_iff_toInt_le, Int64.le_iff_toInt_le]
    exact Iff.rfl
  unfold port
  constructor
  · intro h
    split at h
    · rename_i p
      split_ifs at h with hp
      · obtain rfl := Except.ok.inj h
        exact ⟨p, rfl, rfl, (hrange p).1 hp⟩
      · cases h
    · cases h
  · rintro ⟨p, rfl, rfl, hp⟩
    exact if_pos ((hrange p).2 hp)

/-- **A node is read exactly from host and port.** -/
theorem node_eq_ok_iff : node asked f = .ok address ↔ IsNode asked f address := by
  constructor
  · intro h
    unfold node at h
    split at h
    · cases h
    · rename_i first second more hitems
      obtain rfl := items?_eq_some_iff.1 hitems
      split at h
      · cases h
      · rename_i payload hpayload
        split at h
        · rename_i value hvalue
          obtain ⟨p, rfl, rfl, hfirst, hlast⟩ := port_eq_ok_iff.1 hvalue
          exact .entry (payload?_eq_some_iff.1 hpayload) hfirst hlast (means_iff.2 rfl)
            (shows_iff.2 (Except.ok.inj h).symm)
        · cases h
    · cases h
  · rintro ⟨htext, hfirst, hlast, hmeans, hshows⟩
    obtain rfl := means_iff.1 hmeans
    obtain rfl := shows_iff.1 hshows
    simp only [node, Frame.items?, payload?_eq_some_iff.2 htext, port_eq_ok_iff.2 ⟨_, rfl, rfl, hfirst, hlast⟩]

theorem node?_eq_some_iff : node? asked f = some address ↔ IsNode asked f address := by
  rw [← node_eq_ok_iff, node?]
  cases node asked f <;> simp [Except.toOption]

/-- **Nothing but nodes is kept, and every node is.** -/
theorem filterMap_node?_iff {fs : List Frame} {addresses : List String} :
    fs.filterMap (node? asked) = addresses ↔ Keeps asked fs addresses := by
  constructor
  · rintro rfl
    induction fs with
    | nil => exact .nil
    | cons f fs ih =>
      cases h : node? asked f with
      | none =>
        rw [List.filterMap_cons_none h]
        refine .other (fun address hnode => ?_) ih
        rw [node?_eq_some_iff.2 hnode] at h
        cases h
      | some address =>
        rw [List.filterMap_cons_some h]
        exact .node (node?_eq_some_iff.1 h) ih
  · intro h
    induction h with
    | nil => rfl
    | node h _ ih => rw [List.filterMap_cons_some (node?_eq_some_iff.2 h), ih]
    | other h _ ih =>
      have hnone : node? asked _ = none := Option.eq_none_iff_forall_ne_some.2 fun address hsome =>
        h address (node?_eq_some_iff.1 hsome)
      rw [List.filterMap_cons_none hnone, ih]

/-! ### Ranges -/

variable {r : SlotRange}

theorem slot_eq_ok_iff {s : UInt16} :
    slot f = .ok s ↔ ∃ n : Int64, f = .integer n ∧ n.toInt = s.toNat ∧ s.toNat < 16384 := by
  have hrange (n : Int64) : (0 ≤ n ∧ n < 16384) ↔ 0 ≤ n.toInt ∧ n.toInt < 16384 := by
    rw [Int64.le_iff_toInt_le, Int64.lt_iff_toInt_lt]
    exact Iff.rfl
  unfold slot
  constructor
  · intro h
    split at h
    · rename_i n
      split_ifs at h with hn
      · obtain ⟨hlow, hhigh⟩ := (hrange n).1 hn
        obtain rfl := Except.ok.inj h
        have hvalue : (UInt16.ofNat n.toInt.toNat).toNat = n.toInt.toNat :=
          UInt16.toNat_ofNat_of_lt' (by rw [UInt16.size]; omega)
        refine ⟨n, rfl, ?_, ?_⟩ <;> rw [hvalue] <;> omega
      · cases h
    · cases h
  · rintro ⟨n, rfl, hvalue, hbound⟩
    dsimp only
    rw [if_pos ((hrange n).2 (by omega)), hvalue, Int.toNat_natCast, UInt16.ofNat_toNat]

/-- **A range is read exactly from its two ends, its master and what follows.** -/
theorem range_eq_ok_iff : range asked f = .ok r ↔ IsRange asked f r := by
  constructor
  · intro h
    unfold range at h
    split at h
    · cases h
    · rename_i first last entry replicas hitems
      obtain rfl := items?_eq_some_iff.1 hitems
      obtain ⟨low, hlow, h⟩ := ok_of_bind h
      obtain ⟨high, hhigh, h⟩ := ok_of_bind h
      split_ifs at h with horder
      · cases h
      · obtain ⟨master, hmaster, h⟩ := ok_of_bind h
        cases h
        obtain ⟨n, rfl, hn, -⟩ := slot_eq_ok_iff.1 hlow
        obtain ⟨m, rfl, hm, hbound⟩ := slot_eq_ok_iff.1 hhigh
        exact .entry hn hm (UInt16.not_lt.1 horder) hbound (node_eq_ok_iff.1 hmaster) (filterMap_node?_iff.1 rfl)
    · cases h
  · rintro ⟨hfirst, hlast, horder, hbound, hmaster, hreplicas⟩
    have hle := UInt16.le_iff_toNat_le.1 horder
    unfold range
    simp only [Frame.items?, slot_eq_ok_iff.2 ⟨_, rfl, hfirst, by omega⟩, slot_eq_ok_iff.2 ⟨_, rfl, hlast, hbound⟩,
      node_eq_ok_iff.2 hmaster, filterMap_node?_iff.2 hreplicas]
    exact if_neg (UInt16.not_lt.2 horder)

/-- Who is asked does not decide whether a row is a range. -/
theorem exists_isRange_iff : (∃ r, IsRange asked f r) ↔ IsRow f := by
  constructor
  · rintro ⟨r, hfirst, hlast, horder, hbound, ⟨htext, hport, hport', -, -⟩, -⟩
    have hle := UInt16.le_iff_toNat_le.1 horder
    exact ⟨_, _, _, _, _, _, _, rfl, by omega, by omega, by omega, htext, hport, hport'⟩
  · rintro ⟨first, last, port, host, payload, more, others, rfl, hfirst, horder, hlast, htext, hport, hport'⟩
    obtain ⟨low, hlow⟩ := Int.eq_ofNat_of_zero_le hfirst
    obtain ⟨high, hhigh⟩ := Int.eq_ofNat_of_zero_le (Int.le_trans hfirst horder)
    have hvalue : (UInt16.ofNat low).toNat = low := UInt16.toNat_ofNat_of_lt' (by rw [UInt16.size]; omega)
    have hvalue' : (UInt16.ofNat high).toNat = high := UInt16.toNat_ofNat_of_lt' (by rw [UInt16.size]; omega)
    exact ⟨⟨.ofNat low, .ofNat high, _, others.filterMap (node? asked)⟩, .entry (by rw [hvalue, hlow])
      (by rw [hvalue', hhigh]) (by rw [UInt16.le_iff_toNat_le, hvalue, hvalue']; omega) (by rw [hvalue']; omega)
      (.entry htext hport hport' (means_iff.2 rfl) (shows_iff.2 rfl)) (filterMap_node?_iff.1 rfl)⟩

/-! ### Faults -/

variable {e : Error}

theorem protocol_of_slot (h : slot f = .error e) : ∃ fault, e = .protocol fault := by
  unfold slot at h
  split at h
  · split_ifs at h
    exact ⟨_, (Except.error.inj h).symm⟩
  · exact ⟨_, (Except.error.inj h).symm⟩

theorem protocol_of_port (h : port f = .error e) : ∃ fault, e = .protocol fault := by
  unfold port at h
  split at h
  · split_ifs at h
    exact ⟨_, (Except.error.inj h).symm⟩
  · exact ⟨_, (Except.error.inj h).symm⟩

theorem protocol_of_node (h : node asked f = .error e) : ∃ fault, e = .protocol fault := by
  unfold node at h
  split at h
  · exact ⟨_, (Except.error.inj h).symm⟩
  · split at h
    · exact ⟨_, (Except.error.inj h).symm⟩
    · split at h
      · cases h
      · rename_i hport
        obtain rfl := Except.error.inj h
        exact protocol_of_port hport
  · exact ⟨_, (Except.error.inj h).symm⟩

theorem protocol_of_range (h : range asked f = .error e) : ∃ fault, e = .protocol fault := by
  unfold range at h
  split at h
  · exact ⟨_, (Except.error.inj h).symm⟩
  · rcases error_of_bind h with h | ⟨first, -, h⟩
    · exact protocol_of_slot h
    rcases error_of_bind h with h | ⟨last, -, h⟩
    · exact protocol_of_slot h
    split_ifs at h
    · exact ⟨_, (Except.error.inj h).symm⟩
    · rcases error_of_bind h with h | ⟨master, -, h⟩
      · exact protocol_of_node h
      · cases h
  · exact ⟨_, (Except.error.inj h).symm⟩

/-! ### Layouts -/

variable {rows : List Frame} {rs : List SlotRange}

theorem ranges_eq_ok_iff : ranges asked rows = .ok rs ↔ List.Forall₂ (IsRange asked) rows rs := by
  induction rows generalizing rs with
  | nil =>
    rw [ranges, Except.ok.injEq, List.forall₂_nil_left_iff]
    exact eq_comm
  | cons row rows ih =>
    rw [List.forall₂_cons_left_iff]
    constructor
    · intro h
      obtain ⟨r, hr, h⟩ := ok_of_bind h
      obtain ⟨rs', hrs', h⟩ := ok_of_bind h
      exact ⟨r, rs', range_eq_ok_iff.1 hr, ih.1 hrs', (Except.ok.inj h).symm⟩
    · rintro ⟨r, rs', hr, hrs', rfl⟩
      rw [ranges, range_eq_ok_iff.2 hr, ih.2 hrs']
      rfl

/-- **A layout is read exactly from an array of ranges, one after the other.** -/
theorem ofReply_eq_ok_iff {asked : String} :
    ofReply asked f = .ok rs ↔ ∃ rows, f = .array rows ∧ List.Forall₂ (IsRange asked.toList) rows rs := by
  constructor
  · intro h
    unfold ofReply at h
    split at h
    · rename_i rows hitems
      exact ⟨rows, items?_eq_some_iff.1 hitems, ranges_eq_ok_iff.1 h⟩
    · cases h
  · rintro ⟨rows, rfl, h⟩
    exact ranges_eq_ok_iff.2 h

/-- Every row that is a range has one. -/
theorem exists_forall₂_iff : (∃ rs, List.Forall₂ (IsRange asked) rows rs) ↔ ∀ row ∈ rows, IsRow row := by
  induction rows with
  | nil => exact ⟨fun _ => List.forall_mem_nil _, fun _ => ⟨[], .nil⟩⟩
  | cons row rows ih =>
    have hrow : (∃ r, IsRange asked row r) ↔ IsRow row := exists_isRange_iff
    rw [List.forall_mem_cons, ← ih, ← hrow]
    constructor
    · rintro ⟨rs, hrs⟩
      obtain ⟨r, rs', hr, hrs', -⟩ := List.forall₂_cons_left_iff.1 hrs
      exact ⟨⟨r, hr⟩, rs', hrs'⟩
    · rintro ⟨⟨r, hr⟩, rs, hrs⟩
      exact ⟨r :: rs, .cons hr hrs⟩

/-- The first row that is no range decides what is wrong with all of them. -/
theorem ranges_of_bad_row (hbad : ∃ row ∈ rows, ¬IsRow row) : ∃ before row after fault,
    rows = before ++ row :: after ∧ (∀ r ∈ before, IsRow r) ∧ ¬IsRow row ∧
      range asked row = .error (.protocol fault) ∧ ranges asked rows = .error (.protocol fault) := by
  induction rows with
  | nil =>
    obtain ⟨row, hrow, -⟩ := hbad
    cases hrow
  | cons row rows ih =>
    cases hrange : range asked row with
    | error e =>
      obtain ⟨fault, rfl⟩ := protocol_of_range hrange
      refine ⟨[], row, rows, fault, rfl, List.forall_mem_nil _, fun hrow => ?_, hrange, by rw [ranges, hrange]; rfl⟩
      obtain ⟨r, hr⟩ := exists_isRange_iff.2 hrow
      rw [range_eq_ok_iff.2 hr] at hrange
      cases hrange
    | ok r =>
      have hrow : IsRow row := exists_isRange_iff.1 ⟨r, range_eq_ok_iff.1 hrange⟩
      obtain ⟨bad, hmem, hnot⟩ := hbad
      rcases List.mem_cons.1 hmem with rfl | hmem
      · exact absurd hrow hnot
      obtain ⟨before, row', after, fault, rfl, hbefore, hrow', hfault, hranges⟩ := ih ⟨bad, hmem, hnot⟩
      refine ⟨row :: before, row', after, fault, rfl, List.forall_mem_cons.2 ⟨hrow, hbefore⟩, hrow', hfault, ?_⟩
      rw [ranges, hrange, hranges]
      rfl

/-- **What is no layout is refused**, with the fault of its first row that is no range. -/
theorem fault_of_not_isLayout (asked : String) (h : ¬IsLayout f) :
    (∃ fault, ofReply asked f = .error (.protocol fault)) ∧
    ∀ rows, f = .array rows → ∃ before row after fault, rows = before ++ row :: after ∧ (∀ r ∈ before, IsRow r) ∧
      ¬IsRow row ∧ range asked.toList row = .error (.protocol fault) ∧
        ofReply asked f = .error (.protocol fault) := by
  have hrows (rows : List Frame) (hf : f = .array rows) : ∃ before row after fault,
      rows = before ++ row :: after ∧ (∀ r ∈ before, IsRow r) ∧ ¬IsRow row ∧
        range asked.toList row = .error (.protocol fault) ∧ ofReply asked f = .error (.protocol fault) := by
    subst hf
    refine ranges_of_bad_row ?_
    by_contra hall
    exact h ⟨rows, rfl, fun row hrow => by_contra fun hnot => hall ⟨row, hrow, hnot⟩⟩
  refine ⟨?_, hrows⟩
  cases hitems : f.items? with
  | none => exact ⟨.layoutNotArray, by rw [ofReply, hitems]; rfl⟩
  | some rows =>
    obtain ⟨-, -, -, fault, -, -, -, -, hfault⟩ := hrows rows (items?_eq_some_iff.1 hitems)
    exact ⟨fault, hfault⟩

end Layout

/-! ### The slots of a range -/

namespace SlotRange

variable {r : SlotRange}

theorem toNat_length (horder : r.first ≤ r.last) (hbound : r.last.toNat < 16384) :
    r.length.toNat = r.last.toNat - r.first.toNat + 1 := by
  have hle := UInt16.le_iff_toNat_le.1 horder
  rw [length, UInt16.toNat_add, UInt16.toNat_sub_of_le _ _ horder]
  exact Nat.mod_eq_of_lt (by show _ + 1 < 2 ^ 16; omega)

theorem contains_iff {s : UInt16} : r.contains s = true ↔ r.first ≤ s ∧ s ≤ r.last := by
  rw [contains, Bool.and_eq_true, decide_eq_true_eq, decide_eq_true_eq]

/-- A range has as many slots as its ends say. -/
theorem card_contains (horder : r.first ≤ r.last) :
    (Finset.univ.filter fun s => r.contains s = true).card = r.last.toNat - r.first.toNat + 1 := by
  have hle := UInt16.le_iff_toNat_le.1 horder
  have hsize : r.last.toNat < UInt16.size := r.last.toNat_lt
  have hcard : (Finset.Icc r.first.toNat r.last.toNat).card = r.last.toNat - r.first.toNat + 1 := by
    rw [Nat.card_Icc]
    omega
  rw [← hcard]
  refine Finset.card_nbij UInt16.toNat (fun s hs => ?_) (fun s _ s' _ heq => UInt16.toNat_inj.1 heq) fun n hn => ?_
  · have hs : r.first ≤ s ∧ s ≤ r.last := by simpa [contains_iff] using hs
    rw [UInt16.le_iff_toNat_le, UInt16.le_iff_toNat_le] at hs
    simpa using hs
  · have hn : r.first.toNat ≤ n ∧ n ≤ r.last.toNat := by simpa using hn
    have hvalue : (UInt16.ofNat n).toNat = n := UInt16.toNat_ofNat_of_lt' (by omega)
    refine ⟨.ofNat n, ?_, hvalue⟩
    have hmem : r.first ≤ UInt16.ofNat n ∧ UInt16.ofNat n ≤ r.last := by
      rw [UInt16.le_iff_toNat_le, UInt16.le_iff_toNat_le, hvalue]
      exact hn
    simpa [contains_iff] using hmem

end SlotRange

namespace Layout

/-- **A layout is read from its form, and from nothing else.** A reply is accepted exactly if it is an array of ranges,
whoever was asked; else it is refused as a whole, with the fault of its first row that is no range. What is
accepted has one range for each row, in their order, with its ends, its master and all the nodes among
what follows; a host that is left out is the one that was asked, and one with colons is in brackets.
The number of slots of such a range does not overflow, it is how many slots the range contains, all of
them slots of the cluster, and the range is not empty. -/
theorem reads_exactly (asked : String) (f : Frame) :
    ((∃ rs, ofReply asked f = .ok rs) ↔ IsLayout f) ∧
    (¬IsLayout f → (∃ fault, ofReply asked f = .error (.protocol fault)) ∧
      ∀ rows, f = .array rows → ∃ before row after fault, rows = before ++ row :: after ∧ (∀ r ∈ before, IsRow r) ∧
        ¬IsRow row ∧ range asked.toList row = .error (.protocol fault) ∧
          ofReply asked f = .error (.protocol fault)) ∧
    (∀ rs, ofReply asked f = .ok rs ↔ ∃ rows, f = .array rows ∧ List.Forall₂ (IsRange asked.toList) rows rs) ∧
    ∀ rs, ofReply asked f = .ok rs → ∀ r ∈ rs,
      r.first ≤ r.last ∧ r.last.toNat - r.first.toNat + 1 < 2 ^ 16 ∧
      r.length.toNat = r.last.toNat - r.first.toNat + 1 ∧
      r.length.toNat = (Finset.univ.filter fun s => r.contains s = true).card ∧
      (∀ s, r.contains s = true → s.toNat < slotCount) ∧ r.isEmpty = false := by
  refine ⟨?_, fault_of_not_isLayout asked, fun rs => ofReply_eq_ok_iff, fun rs h r hr => ?_⟩
  · simp only [ofReply_eq_ok_iff]
    constructor
    · rintro ⟨rs, rows, rfl, hrows⟩
      exact ⟨rows, rfl, exists_forall₂_iff.1 ⟨rs, hrows⟩⟩
    · rintro ⟨rows, rfl, hrows⟩
      obtain ⟨rs, hrs⟩ := exists_forall₂_iff.2 hrows
      exact ⟨rs, rows, rfl, hrs⟩
  · obtain ⟨rows, -, hrows⟩ := ofReply_eq_ok_iff.1 h
    obtain ⟨row, -, hrange⟩ : ∃ row ∈ rows, IsRange asked.toList row r := by
      obtain ⟨i, hi, rfl⟩ := List.getElem_of_mem hr
      have hi' : i < rows.length := hrows.length_eq ▸ hi
      exact ⟨rows[i], List.getElem_mem hi', hrows.get hi' hi⟩
    obtain ⟨-, -, horder, hbound, -, -⟩ := hrange
    have hlength := SlotRange.toNat_length horder hbound
    refine ⟨horder, by omega, hlength, ?_, fun s hs => ?_, ?_⟩
    · rw [hlength, SlotRange.card_contains horder]
    · have hle := UInt16.le_iff_toNat_le.1 (SlotRange.contains_iff.1 hs).2
      show s.toNat < 16384
      omega
    · rw [SlotRange.isEmpty, decide_eq_false_iff_not]
      exact UInt16.not_lt.2 horder

/-- A range of all slots: its master has colons, one of its replicas has no host and others are none. -/
def whole : Frame := .array [.integer 0, .integer 16383, .array [.bulkText "::1", .integer 7001, .bulkText "id"],
  .array [.ofText "?", .integer 7002], .array [.bulkText "lost"], .nilBulk, .array [.bulkText "10.0.0.2", .integer 0]]

/-- A range whose ends are in the wrong order. -/
def reversed : Frame := .array [.integer 5, .integer 4, .array [.bulkText "10.0.0.2", .integer 7000]]

/-- The range of all slots is read alone; behind it, one that is none spoils the reply. -/
theorem reads_exactly_whole :
    IsLayout (.array [whole]) ∧
    ofReply "10.0.0.1" (.array [whole]) = .ok [⟨0, 16383, "[::1]:7001", ["10.0.0.1:7002"]⟩] ∧
    (Finset.univ.filter fun s =>
      (⟨0, 16383, "[::1]:7001", ["10.0.0.1:7002"]⟩ : SlotRange).contains s = true).card = 16384 ∧
    ¬IsLayout (.array [whole, reversed]) ∧
    ofReply "10.0.0.1" (.array [whole, reversed]) = .error (.protocol .rangeReversed) := by
  have hread : ofReply "10.0.0.1" (.array [whole]) = .ok [⟨0, 16383, "[::1]:7001", ["10.0.0.1:7002"]⟩] := by cbv
  have hspoilt : ofReply "10.0.0.1" (.array [whole, reversed]) = .error (.protocol .rangeReversed) := by cbv
  obtain ⟨hlayout, -, -, hslots⟩ := reads_exactly "10.0.0.1" (.array [whole])
  obtain ⟨hlayout', -, -, -⟩ := reads_exactly "10.0.0.1" (.array [whole, reversed])
  obtain ⟨-, -, hlength, hcard, -, -⟩ := hslots _ hread _ List.mem_cons_self
  refine ⟨hlayout.1 ⟨_, hread⟩, hread, hcard.symm.trans hlength, fun hform => ?_, hspoilt⟩
  obtain ⟨rs, hrs⟩ := hlayout'.2 hform
  rw [hspoilt] at hrs
  cases hrs

end Layout
end SlotRouter
