import SlotRouter.Proofs.Readback
import SlotRouter.Proofs.Referrals
import SlotRouter.Reply

/-!
# Replies that are lists

A list of values is read from an array of which every item is octets or nothing, a list of members from one of
which every item is octets, and a page of a scan from a position in decimal with a list of members. Nothing is
lost on the way: there is one value for each item, in their order (`Reply.values_eq_ok_iff`,
`Reply.members_eq_ok_iff`, `Reply.scan_eq_ok_iff`).

Reading stops at the first item that cannot be read, and with what is wrong there (`Reply.each_of_first_error`). So an
error line is never taken for a value, and if it is the first thing that cannot be read it is what is reported.

Key definitions: `Reply.Holds`, `Reply.page`. Key theorem: `Reply.lists_are_read_whole`.
-/

namespace SlotRouter.Reply

/-- The frame is octets or says nothing. -/
inductive Holds : Frame → Option Bytes → Prop where
  | bulk (payload : Bytes) : Holds (.bulk payload) (some payload)
  | simple (line : Bytes) : Holds (.simple line) (some line)
  | nilBulk : Holds .nilBulk none
  | nilArray : Holds .nilArray none

/-- The frame is an error line, or an item of it is one, or a key of a page that it is. -/
inductive Carries (line : Bytes) : Frame → Prop where
  | reply : Carries line (.error line)
  | item {items : List Frame} (mem : .error line ∈ items) : Carries line (.array items)
  | key {position : Frame} {keys : List Frame} (mem : .error line ∈ keys) : Carries line (.array [position, .array keys])

/-- A page of a scan as nodes send it. -/
def page (position : UInt64) (keys : List Bytes) : Frame :=
  .array [.bulk (Decimal.digits position.toNat), .array (keys.map .bulk)]

variable {f keys : Frame} {items rest : List Frame} {v : Option Bytes} {vs : List (Option Bytes)} {ms : List Bytes}
  {m line : Bytes} {c : UInt64} {e : Error}

/-! ### Item by item -/

section

variable {α β : Type} {read : α → Except Error β} {as more : List α} {bs : List β} {a : α}

/-- **One value is read from each item, in their order.** -/
theorem each_eq_ok_iff : each read as = .ok bs ↔ List.Forall₂ (fun a b => read a = .ok b) as bs := by
  induction as generalizing bs with
  | nil =>
    rw [each, Except.ok.injEq, List.forall₂_nil_left_iff]
    exact eq_comm
  | cons a as ih =>
    rw [List.forall₂_cons_left_iff]
    constructor
    · intro h
      obtain ⟨b, hb, h⟩ := ok_of_bind h
      obtain ⟨bs', hbs', h⟩ := ok_of_bind h
      exact ⟨b, bs', hb, ih.1 hbs', (Except.ok.inj h).symm⟩
    · rintro ⟨b, bs', hb, hbs', rfl⟩
      rw [each, hb, ih.2 hbs']
      rfl

/-- Items are read exactly if each of them can be. -/
theorem exists_each_iff : (∃ bs, each read as = .ok bs) ↔ ∀ a ∈ as, ∃ b, read a = .ok b := by
  induction as with
  | nil => exact ⟨fun _ => List.forall_mem_nil _, fun _ => ⟨[], rfl⟩⟩
  | cons a as ih =>
    rw [List.forall_mem_cons, ← ih]
    constructor
    · rintro ⟨bs, h⟩
      obtain ⟨b, hb, h⟩ := ok_of_bind h
      obtain ⟨bs', hbs', -⟩ := ok_of_bind h
      exact ⟨⟨b, hb⟩, bs', hbs'⟩
    · rintro ⟨⟨b, hb⟩, bs', hbs'⟩
      refine ⟨b :: bs', ?_⟩
      rw [each, hb, hbs']
      rfl

/-- **Reading ends at the first item that cannot be read**, with what is wrong there. -/
theorem each_of_first_error (hread : ∀ a ∈ as, ∃ b, read a = .ok b) (h : read a = .error e) :
    each read (as ++ a :: more) = .error e := by
  induction as with
  | nil =>
    rw [List.nil_append, each, h]
    rfl
  | cons a' as ih =>
    obtain ⟨⟨b, hb⟩, hlater⟩ := List.forall_mem_cons.1 hread
    rw [List.cons_append, each, hb, ih hlater]
    rfl

end

/-! ### Values and members -/

/-- A value is read from octets and from what says nothing, and from nothing else. -/
theorem value_eq_ok_iff : value f = .ok v ↔ Holds f v := by
  constructor
  · intro h
    cases f with
    | bulk payload =>
      obtain rfl := Except.ok.inj h
      exact .bulk payload
    | simple line =>
      obtain rfl := Except.ok.inj h
      exact .simple line
    | nilBulk =>
      obtain rfl := Except.ok.inj h
      exact .nilBulk
    | nilArray =>
      obtain rfl := Except.ok.inj h
      exact .nilArray
    | _ => cases h
  · rintro (_ | _) <;> rfl

theorem present_eq_ok_iff : present v = .ok m ↔ v = some m := by
  cases v with
  | none => exact ⟨nofun, nofun⟩
  | some payload =>
    show (Except.ok payload : Except Error Bytes) = .ok m ↔ _
    rw [Except.ok.injEq, Option.some.injEq]

/-- Values are read item by item, from an array. -/
theorem values_eq_ok_iff_each : values f = .ok vs ↔ ∃ items, f = .array items ∧ each value items = .ok vs := by
  constructor
  · intro h
    cases f with
    | array items => exact ⟨items, rfl, h⟩
    | _ => cases h
  · rintro ⟨items, rfl, h⟩
    exact h

/-- **Values are read from an array, one from each item, in their order.** -/
theorem values_eq_ok_iff : values f = .ok vs ↔ ∃ items, f = .array items ∧ List.Forall₂ Holds items vs := by
  simp only [values_eq_ok_iff_each, each_eq_ok_iff, value_eq_ok_iff]

theorem exists_values_iff :
    (∃ vs, values f = .ok vs) ↔ ∃ items, f = .array items ∧ ∀ item ∈ items, ∃ v, Holds item v := by
  simp only [values_eq_ok_iff_each, ← value_eq_ok_iff, ← exists_each_iff]
  exact ⟨fun ⟨vs, items, hf, h⟩ => ⟨items, hf, vs, h⟩, fun ⟨items, hf, vs, h⟩ => ⟨vs, items, hf, h⟩⟩

/-- Members are values of which none is nothing. -/
theorem members_eq_ok_iff_values : members f = .ok ms ↔ values f = .ok (ms.map some) := by
  have hpresent : ∀ {vs}, each present vs = .ok ms ↔ vs = ms.map some := by
    intro vs
    simp only [each_eq_ok_iff, present_eq_ok_iff]
    rw [← List.forall₂_map_right_iff (R := Eq), List.forall₂_eq_eq_eq]
  constructor
  · intro h
    obtain ⟨vs, hvs, h⟩ := ok_of_bind h
    rwa [hpresent.1 h] at hvs
  · intro h
    rw [members, h]
    exact hpresent.2 rfl

/-- **Members are read from an array, one from each item, in their order**, where each item is octets. -/
theorem members_eq_ok_iff : members f = .ok ms ↔
    ∃ items, f = .array items ∧ List.Forall₂ (fun item m => Holds item (some m)) items ms := by
  simp only [members_eq_ok_iff_values, values_eq_ok_iff, List.forall₂_map_right_iff]

theorem value_then_present_eq_ok_iff : (do present (← value f)) = .ok m ↔ Holds f (some m) := by
  rw [← value_eq_ok_iff]
  constructor
  · intro h
    obtain ⟨v, hv, h⟩ := ok_of_bind h
    rwa [present_eq_ok_iff.1 h] at hv
  · intro h
    rw [h]
    rfl

theorem exists_members_iff :
    (∃ ms, members f = .ok ms) ↔ ∃ items, f = .array items ∧ ∀ item ∈ items, ∃ m, Holds item (some m) := by
  simp only [members_eq_ok_iff, ← value_then_present_eq_ok_iff, ← each_eq_ok_iff, ← exists_each_iff]
  exact ⟨fun ⟨ms, items, hf, h⟩ => ⟨items, hf, ms, h⟩, fun ⟨items, hf, ms, h⟩ => ⟨ms, items, hf, h⟩⟩

/-! ### Pages of a scan -/

/-- **A position is read from a number of 64 bits in decimal**, with a plus sign or without. -/
theorem cursor_eq_ok_iff : cursor f = .ok c ↔ ∃ text, Holds f (some text) ∧ Decimal.Unsigned text c.toNat := by
  constructor
  · intro h
    obtain ⟨v, hv, h⟩ := ok_of_bind h
    split at h
    · rename_i n hn
      obtain rfl := Except.ok.inj h
      obtain ⟨text, rfl, hbelow⟩ := Option.bind_eq_some_iff.1 hn
      obtain ⟨hunsigned, hlt⟩ := Decimal.below?_eq_some_iff.1 hbelow
      refine ⟨text, value_eq_ok_iff.1 hv, ?_⟩
      rwa [UInt64.toNat_ofNat_of_lt' hlt]
    · cases h
  · rintro ⟨text, hholds, hunsigned⟩
    have hbelow : Decimal.below? UInt64.size text = some c.toNat :=
      Decimal.below?_eq_some_iff.2 ⟨hunsigned, c.toNat_lt⟩
    simp only [cursor, value_eq_ok_iff.2 hholds, bind, Except.bind, Option.bind, hbelow, UInt64.ofNat_toNat]

/-- **A page is read from an array of two**, a position and the members. -/
theorem scan_eq_ok_iff : scan f = .ok (c, ms) ↔
    ∃ position keys, f = .array [position, keys] ∧ cursor position = .ok c ∧ members keys = .ok ms := by
  constructor
  · intro h
    unfold scan at h
    split at h
    · rename_i position keys
      obtain ⟨c', hc, h⟩ := ok_of_bind h
      obtain ⟨ms', hms, h⟩ := ok_of_bind h
      obtain ⟨rfl, rfl⟩ := Prod.mk.inj (Except.ok.inj h)
      exact ⟨position, keys, rfl, hc, hms⟩
    · cases h
    · cases h
    · cases h
  · rintro ⟨position, keys, rfl, hc, hms⟩
    rw [scan, hc, hms]
    rfl

/-- A page is read as what it was made of. -/
theorem scan_page (c : UInt64) (ms : List Bytes) : scan (page c ms) = .ok (c, ms) := by
  refine scan_eq_ok_iff.2 ⟨_, _, rfl, cursor_eq_ok_iff.2 ⟨_, .bulk _, .plain (.written _)⟩, members_eq_ok_iff.2
    ⟨_, rfl, ?_⟩⟩
  rw [List.forall₂_map_left_iff]
  exact List.forall₂_same.2 fun key _ => .bulk key

/-! ### Error lines -/

/-- Nothing is read as values where an error line is. -/
theorem Carries.values_ne_ok (h : Carries line f) (vs : List (Option Bytes)) : values f ≠ .ok vs := by
  intro hvs
  obtain ⟨items, hf, hitems⟩ := exists_values_iff.1 ⟨vs, hvs⟩
  cases h with
  | reply => cases hf
  | item mem =>
    cases hf
    obtain ⟨v, hv⟩ := hitems _ mem
    cases hv
  | @key _ keys mem =>
    cases hf
    obtain ⟨v, hv⟩ := hitems (.array keys) (by simp)
    cases hv

theorem Carries.members_ne_ok (h : Carries line f) (ms : List Bytes) : members f ≠ .ok ms := by
  rw [ne_eq, members_eq_ok_iff_values]
  exact h.values_ne_ok _

theorem Carries.scan_ne_ok (h : Carries line f) (page : UInt64 × List Bytes) : scan f ≠ .ok page := by
  intro hpage
  obtain ⟨position, keys, hf, hposition, hkeys⟩ := scan_eq_ok_iff.1 hpage
  cases h with
  | reply => cases hf
  | item mem =>
    cases hf
    rcases List.mem_pair.1 mem with rfl | rfl
    · cases hposition
    · exact Carries.reply.members_ne_ok _ hkeys
  | key mem =>
    cases hf
    exact (Carries.item mem).members_ne_ok _ hkeys

/-- An error line behind items that hold something is what is reported. -/
theorem values_of_first_error (h : ∀ item ∈ items, ∃ v, Holds item v) :
    values (.array (items ++ .error line :: rest)) = .error (reported line) := by
  simp only [← value_eq_ok_iff] at h
  exact each_of_first_error h rfl

theorem members_of_values_error (h : values f = .error e) : members f = .error e := by
  rw [members, h]
  rfl

theorem scan_of_members_error {position : Frame} (hc : cursor position = .ok c) (h : members keys = .error e) :
    scan (.array [position, keys]) = .error e := by
  rw [scan, hc, h]
  rfl

/-! ### All of it -/

/-- **Lists are read whole, and an error is not hidden in them.** Values are read exactly from arrays of which every
item is octets or nothing, members exactly where every item is octets, one from each item and in their
order; a page exactly from an array of two, of which the first is octets that are a number of 64 bits in
decimal, with a plus sign or without, and the second an array of octets, and it is this number with these.
Where an error line is the reply, an item of it or a key of a page, nothing is read; and it is reported, if it
is the reply or stands behind items that hold something. What nodes send for a page is read as that page. -/
theorem lists_are_read_whole (f : Frame) :
    ((∀ vs, values f = .ok vs ↔ ∃ items, f = .array items ∧ List.Forall₂ Holds items vs) ∧
      ((∃ vs, values f = .ok vs) ↔ ∃ items, f = .array items ∧ ∀ item ∈ items, ∃ v, Holds item v)) ∧
    ((∀ ms, members f = .ok ms ↔
        ∃ items, f = .array items ∧ List.Forall₂ (fun item m => Holds item (some m)) items ms) ∧
      ((∃ ms, members f = .ok ms) ↔ ∃ items, f = .array items ∧ ∀ item ∈ items, ∃ m, Holds item (some m))) ∧
    ((∀ c ms, scan f = .ok (c, ms) ↔ ∃ position keys text, f = .array [position, keys] ∧
        Holds position (some text) ∧ Decimal.Unsigned text c.toNat ∧ members keys = .ok ms) ∧
      ((∃ page, scan f = .ok page) ↔ ∃ position keys text n, f = .array [position, .array keys] ∧
        Holds position (some text) ∧ Decimal.Unsigned text n ∧ n < 2 ^ 64 ∧ ∀ key ∈ keys, ∃ m, Holds key (some m))) ∧
    (∀ line, Carries line f →
      (∀ vs, values f ≠ .ok vs) ∧ (∀ ms, members f ≠ .ok ms) ∧ ∀ page, scan f ≠ .ok page) ∧
    (∀ line, f = .error line →
      values f = .error (reported line) ∧ members f = .error (reported line) ∧ scan f = .error (reported line)) ∧
    (∀ line items rest, f = .array (items ++ .error line :: rest) → (∀ item ∈ items, ∃ v, Holds item v) →
      values f = .error (reported line) ∧ members f = .error (reported line) ∧
        ∀ position c, cursor position = .ok c → scan (.array [position, f]) = .error (reported line)) ∧
    ∀ c ms, scan (page c ms) = .ok (c, ms) := by
  refine ⟨⟨fun vs => values_eq_ok_iff, exists_values_iff⟩, ⟨fun ms => members_eq_ok_iff, exists_members_iff⟩,
    ⟨fun c ms => ?_, ?_⟩, fun line h => ⟨h.values_ne_ok, h.members_ne_ok, h.scan_ne_ok⟩, ?_, ?_, scan_page⟩
  · rw [scan_eq_ok_iff]
    simp only [cursor_eq_ok_iff]
    exact ⟨fun ⟨position, keys, hf, ⟨text, hholds, hnumber⟩, hkeys⟩ => ⟨position, keys, text, hf, hholds, hnumber, hkeys⟩,
      fun ⟨position, keys, text, hf, hholds, hnumber, hkeys⟩ => ⟨position, keys, hf, ⟨text, hholds, hnumber⟩, hkeys⟩⟩
  · constructor
    · rintro ⟨⟨c, ms⟩, h⟩
      obtain ⟨position, keys, rfl, hc, hkeys⟩ := scan_eq_ok_iff.1 h
      obtain ⟨text, hholds, hnumber⟩ := cursor_eq_ok_iff.1 hc
      obtain ⟨items, rfl, hitems⟩ := exists_members_iff.1 ⟨ms, hkeys⟩
      exact ⟨position, items, text, c.toNat, rfl, hholds, hnumber, c.toNat_lt, hitems⟩
    · rintro ⟨position, keys, text, n, rfl, hholds, hnumber, hword, hkeys⟩
      obtain ⟨ms, hms⟩ := exists_members_iff.2 ⟨keys, rfl, hkeys⟩
      have hc : cursor position = .ok (UInt64.ofNat n) := by
        refine cursor_eq_ok_iff.2 ⟨text, hholds, ?_⟩
        rwa [UInt64.toNat_ofNat_of_lt' hword]
      exact ⟨_, scan_eq_ok_iff.2 ⟨position, .array keys, rfl, hc, hms⟩⟩
  · rintro line rfl
    exact ⟨rfl, rfl, rfl⟩
  · rintro line items rest rfl hitems
    have hvalues : values (.array (items ++ .error line :: rest)) = .error (reported line) := values_of_first_error hitems
    have hmembers := members_of_values_error hvalues
    exact ⟨hvalues, hmembers, fun position c hc => scan_of_members_error hc hmembers⟩

/-- A position with a sign and zeros in front; an error line behind nothing and before what is no value, and one
among the keys of a page; the last position there is. -/
theorem lists_are_read_whole_signed :
    scan (.array [.ofText "+0017", .array [.bulkText "a\r\n", .ofText ""]]) = .ok (17, [.ofText "a\r\n", []]) ∧
    members (.array [.nilArray, .errorText "ERR", .integer 3]) = .error (reported (.ofText "ERR")) ∧
    (∀ p, scan (.array [.bulkText "0", .array [.bulkText "a", .errorText "ERR"]]) ≠ .ok p) ∧
    scan (page 18446744073709551615 [[], .ofText "a"]) = .ok (18446744073709551615, [[], .ofText "a"]) := by
  have hread : Decimal.below? 18 (.ofText "+0017") = some 17 := by decide
  have hnumber : Decimal.Unsigned (.ofText "+0017") 17 := (Decimal.below?_eq_some_iff.1 hread).1
  have hkeys : members (.array [.bulkText "a\r\n", .ofText ""]) = .ok [.ofText "a\r\n", []] :=
    members_eq_ok_iff.2 ⟨_, rfl, .cons (.bulk _) (.cons (.simple _) .nil)⟩
  obtain ⟨-, -, ⟨hscan, -⟩, -, -, -, hpage⟩ :=
    lists_are_read_whole (.array [.ofText "+0017", .array [.bulkText "a\r\n", .ofText ""]])
  obtain ⟨-, -, -, -, -, hfirst, -⟩ := lists_are_read_whole (.array [.nilArray, .errorText "ERR", .integer 3])
  obtain ⟨-, -, -, hnever, -⟩ := lists_are_read_whole (.array [.bulkText "0", .array [.bulkText "a", .errorText "ERR"]])
  have hbefore : ∀ item ∈ [Frame.nilArray], ∃ v, Holds item v := List.forall_mem_singleton.2 ⟨none, .nilArray⟩
  obtain ⟨-, hmembers, -⟩ := hfirst (.ofText "ERR") [.nilArray] [.integer 3] rfl hbefore
  have hcarries : Carries (.ofText "ERR") (.array [.bulkText "0", .array [.bulkText "a", .errorText "ERR"]]) :=
    .key (List.mem_cons_of_mem _ List.mem_cons_self)
  exact ⟨(hscan 17 _).2 ⟨_, _, _, rfl, .simple _, hnumber, hkeys⟩, hmembers, (hnever _ hcarries).2.2, hpage _ _⟩

end SlotRouter.Reply
