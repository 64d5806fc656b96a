import Mathlib
import SlotRouter.Invocation

/-!
# How long a pause is

The time that remains is divided by `left * (left + 1)`, cut off at the largest word. Since that is two at
least while an attempt is left, a pause is at most half of what remains, and the fewer attempts are left the
smaller is the divisor and the longer the pause.

The one number without a divisor is the largest word, for then `left + 1` is not a word
(`exists_divisor_iff`). A budget has so many attempts left only before the first is charged, so all other
pauses exist.

Key definition: `Budget.after`. Key theorems: `Budget.exists_pause_iff`, `Budget.pauses_fit`.
-/

namespace SlotRouter.Budget

/-- What befalls a budget. -/
inductive Event where
  /-- An attempt is charged. -/
  | charge
  | elapse (duration : Nat)
  deriving DecidableEq

/-- What has become of a budget and the clock. -/
def after (b : Budget) (now : Nat) : List Event → Budget × Nat
  | [] => (b, now)
  | .charge :: events => after b.consume now events
  | .elapse duration :: events => after b (now + duration) events

variable {b later : Budget} {now now' divisor divisor' pause deadline start : Nat} {left left' maxAttempts : UInt32}
  {events : List Event}

/-! ### Attempts -/

theorem left_consume (b : Budget) : b.consume.left.toNat = b.left.toNat - 1 := by
  unfold consume
  dsimp only
  split_ifs with hspent
  · rw [hspent]
    rfl
  · have hone : (1 : UInt32) ≤ b.left := by
      have hpos : b.left.toNat ≠ 0 := fun h0 => hspent (UInt32.toNat_inj.1 h0)
      exact UInt32.le_iff_toNat_le.2 (Nat.one_le_iff_ne_zero.2 hpos)
    exact UInt32.toNat_sub_of_le b.left 1 hone

/-- Each charge takes one attempt, as long as there is one. -/
theorem left_after (b : Budget) (now : Nat) (events : List Event) :
    (b.after now events).1.left.toNat = b.left.toNat - events.count .charge := by
  induction events generalizing b now with
  | nil => rfl
  | cons event events ih =>
    cases event with
    | charge =>
      rw [after, ih, left_consume, List.count_cons_self]
      omega
    | elapse duration =>
      have hother : Event.elapse duration ≠ .charge := nofun
      rw [after, ih, List.count_cons_of_ne hother]

/-- Nothing that befalls a budget changes its bounds. -/
theorem bounds_after (b : Budget) (now : Nat) (events : List Event) :
    (b.after now events).1.maxAttempts = b.maxAttempts ∧ (b.after now events).1.deadline = b.deadline := by
  induction events generalizing b now with
  | nil => exact ⟨rfl, rfl⟩
  | cons event events ih =>
    cases event with
    | charge => exact ih b.consume now
    | elapse duration => exact ih b (now + duration)

/-- The attempts that were charged and those that are left are all there are. -/
theorem made_add_left (h : b.left ≤ b.maxAttempts) : b.made.toNat + b.left.toNat = b.maxAttempts.toNat := by
  have hle : b.left.toNat ≤ b.maxAttempts.toNat := h
  rw [made, UInt32.toNat_sub_of_le b.maxAttempts b.left h]
  omega

/-! ### Divisors -/

/-- **Only the largest word has no divisor.** -/
theorem exists_divisor_iff : (∃ divisor, divisor? left = some divisor) ↔ left.toNat ≠ 2 ^ 32 - 1 := by
  have hword := left.toNat_lt
  unfold divisor?
  split_ifs with hsuccessor
  · have hsmall : left.toNat + 1 < 2 ^ 32 := hsuccessor
    exact ⟨fun _ => by omega, fun _ => ⟨_, rfl⟩⟩
  · have hlarge : 2 ^ 32 ≤ left.toNat + 1 := Nat.le_of_not_lt hsuccessor
    exact iff_of_false (fun hnone => hnone.elim fun _ h => h) (by omega)

theorem eq_of_divisor? (h : divisor? left = some divisor) :
    divisor = min (left.toNat * (left.toNat + 1)) (2 ^ 32 - 1) := by
  unfold divisor? at h
  split_ifs at h
  exact (Option.some.inj h).symm

theorem divisor_lt (h : divisor? left = some divisor) : divisor < 2 ^ 32 := by
  rw [eq_of_divisor? h]
  omega

/-- While an attempt is left the divisor is two at least. -/
theorem two_le_divisor (hleft : left ≠ 0) (h : divisor? left = some divisor) : 2 ≤ divisor := by
  have hpos : 1 ≤ left.toNat := Nat.one_le_iff_ne_zero.2 fun h0 => hleft (UInt32.toNat_inj.1 h0)
  have hproduct : 1 * 2 ≤ left.toNat * (left.toNat + 1) := Nat.mul_le_mul hpos (Nat.succ_le_succ hpos)
  rw [eq_of_divisor? h]
  omega

/-- The more attempts are left the larger is the divisor, also where it is cut off. -/
theorem divisor_mono (hle : left' ≤ left) (h : divisor? left = some divisor) (h' : divisor? left' = some divisor') :
    divisor' ≤ divisor := by
  have hproduct : left'.toNat * (left'.toNat + 1) ≤ left.toNat * (left.toNat + 1) :=
    Nat.mul_le_mul hle (Nat.succ_le_succ hle)
  rw [eq_of_divisor? h, eq_of_divisor? h']
  omega

/-! ### Pauses -/

theorem pause?_of_spent (h : b.left = 0) (now : Nat) : b.pause? now = some 0 := if_pos h

theorem pause?_of_left (h : b.left ≠ 0) (now : Nat) :
    b.pause? now = (divisor? b.left).map (b.remaining now / ·) := if_neg h

/-- A pause exists unless the largest word of attempts is left. -/
theorem exists_pause_iff (b : Budget) (now : Nat) :
    (∃ pause, b.pause? now = some pause) ↔ b.left.toNat ≠ 2 ^ 32 - 1 := by
  by_cases hleft : b.left = 0
  · rw [hleft]
    exact ⟨fun _ => by decide, fun _ => ⟨0, pause?_of_spent hleft now⟩⟩
  · rw [pause?_of_left hleft, ← exists_divisor_iff]
    constructor
    · rintro ⟨pause, hpause⟩
      obtain ⟨divisor, hdivisor, -⟩ := Option.map_eq_some_iff.1 hpause
      exact ⟨divisor, hdivisor⟩
    · rintro ⟨divisor, hdivisor⟩
      exact ⟨_, Option.map_eq_some_iff.2 ⟨divisor, hdivisor, rfl⟩⟩

/-- A pause is at most half of the time that remains. -/
theorem two_mul_pause_le (h : b.pause? now = some pause) : 2 * pause ≤ b.remaining now := by
  by_cases hleft : b.left = 0
  · obtain rfl := Option.some.inj ((pause?_of_spent hleft now).symm.trans h)
    exact Nat.zero_le _
  · rw [pause?_of_left hleft] at h
    obtain ⟨divisor, hdivisor, rfl⟩ := Option.map_eq_some_iff.1 h
    have htwo := two_le_divisor hleft hdivisor
    calc 2 * (b.remaining now / divisor) ≤ divisor * (b.remaining now / divisor) := Nat.mul_le_mul_right _ htwo
      _ ≤ b.remaining now := Nat.mul_div_le _ _

/-- A pause that begins before the deadline ends by the deadline. -/
theorem now_add_pause_le (h : b.pause? now = some pause) (hearly : now < b.deadline) : now + pause ≤ b.deadline := by
  have hhalf := two_mul_pause_le h
  unfold remaining at hhalf
  omega

/-- **With the same time to go the pause is no shorter when fewer attempts are left.** -/
theorem pause_mono (h : b.pause? now = some pause) (hle : later.left ≤ b.left) (hleft : later.left ≠ 0)
    (htime : later.remaining now' = b.remaining now) : ∃ pause', later.pause? now' = some pause' ∧ pause ≤ pause' := by
  have hnat : later.left.toNat ≤ b.left.toNat := hle
  have hmore : b.left ≠ 0 := by
    intro h0
    rw [h0] at hnat
    exact hleft (UInt32.toNat_inj.1 (Nat.le_zero.1 hnat))
  have hsmall := (exists_pause_iff b now).1 ⟨pause, h⟩
  rw [pause?_of_left hmore] at h
  obtain ⟨divisor, hdivisor, rfl⟩ := Option.map_eq_some_iff.1 h
  obtain ⟨divisor', hdivisor'⟩ : ∃ divisor', divisor? later.left = some divisor' := by
    have hword := b.left.toNat_lt
    exact exists_divisor_iff.2 (by omega)
  refine ⟨later.remaining now' / divisor', ?_, ?_⟩
  · rw [pause?_of_left hleft, hdivisor']
    rfl
  · have hpos : 0 < divisor' := Nat.lt_of_lt_of_le Nat.zero_lt_two (two_le_divisor hleft hdivisor')
    rw [htime]
    exact Nat.div_le_div_left (divisor_mono hle hdivisor hdivisor') hpos

/-- **Every pause fits into the time that is left**, whatever was charged and however much time has passed. The
attempts that were charged and those that are left are together all there are. A pause exists, and so does its
divisor, unless there are `2 ^ 32 - 1` attempts and none has been charged. No divisor is zero or larger than a
word. A pause is nothing when no attempt is left, and at most half of the time that remains else, so one
that begins before the deadline is over by the deadline and an invocation does not have to cut it short;
and with the same time to go it is no shorter when fewer attempts are left, as long as there is one. -/
theorem pauses_fit (h : (fresh maxAttempts deadline).after start events = (b, now)) :
    (b.maxAttempts = maxAttempts ∧ b.left ≤ b.maxAttempts ∧ b.made.toNat + b.left.toNat = maxAttempts.toNat ∧
      b.left.toNat = maxAttempts.toNat - events.count .charge) ∧
    ((∃ pause, b.pause? now = some pause) ↔ ¬(maxAttempts.toNat = 2 ^ 32 - 1 ∧ .charge ∉ events)) ∧
    ((∃ divisor, divisor? b.left = some divisor) ↔ ¬(maxAttempts.toNat = 2 ^ 32 - 1 ∧ .charge ∉ events)) ∧
    (∀ divisor, divisor? b.left = some divisor → b.left ≠ 0 → 0 < divisor ∧ divisor < 2 ^ 32) ∧
    ∀ pause, b.pause? now = some pause →
      (b.left = 0 → pause = 0) ∧ 2 * pause ≤ b.remaining now ∧
      (now < deadline → now + pause ≤ deadline) ∧
      (now < deadline → ∀ (α : Type) (inv : Invocation α), inv.budget = b → inv.wake now = now + pause) ∧
      ∀ (later : Budget) (now' : Nat), later.left ≤ b.left → later.left ≠ 0 → later.remaining now' = b.remaining now →
        ∃ pause', later.pause? now' = some pause' ∧ pause ≤ pause' := by
  have hleft : b.left.toNat = maxAttempts.toNat - events.count .charge := by
    have hafter := left_after (fresh maxAttempts deadline) start events
    rwa [h] at hafter
  obtain ⟨hmax, hdeadline⟩ : b.maxAttempts = maxAttempts ∧ b.deadline = deadline := by
    have hafter := bounds_after (fresh maxAttempts deadline) start events
    rwa [h] at hafter
  subst hdeadline
  have hle : b.left ≤ b.maxAttempts := by
    rw [hmax, UInt32.le_iff_toNat_le]
    omega
  have hsum : b.made.toNat + b.left.toNat = maxAttempts.toNat := by
    rw [made_add_left hle, hmax]
  -- The largest word is left only if it is all there is and nothing has been taken from it.
  have hlargest : b.left.toNat ≠ 2 ^ 32 - 1 ↔ ¬(maxAttempts.toNat = 2 ^ 32 - 1 ∧ .charge ∉ events) := by
    have hword := maxAttempts.toNat_lt
    rw [← List.count_eq_zero, hleft]
    omega
  refine ⟨⟨hmax, hle, hsum, hleft⟩, (exists_pause_iff b now).trans hlargest, exists_divisor_iff.trans hlargest,
    fun divisor hdivisor hsome => ?_, fun pause hpause => ?_⟩
  · exact ⟨Nat.lt_of_lt_of_le Nat.zero_lt_two (two_le_divisor hsome hdivisor), divisor_lt hdivisor⟩
  · refine ⟨fun hspent => ?_, two_mul_pause_le hpause, now_add_pause_le hpause, fun hearly α inv hbudget => ?_,
      fun later now' hfewer hsome htime => pause_mono hpause hfewer hsome htime⟩
    · exact (Option.some.inj ((pause?_of_spent hspent now).symm.trans hpause)).symm
    · have hfits := now_add_pause_le hpause hearly
      rw [Invocation.wake, hbudget, hpause]
      exact Nat.min_eq_left hfits

/-- As many attempts as a word can count, in ten thousand seconds. Before a charge there is no pause. After one, and
a thousand seconds, the divisor is cut off at the largest word, and it still is with 65536 attempts left. -/
theorem pauses_fit_huge :
    (fresh 4294967295 10000000000000).pause? 0 = none ∧
    (fresh 4294967295 10000000000000).after 0 [.charge, .elapse 1000000000000] =
      (⟨4294967295, 4294967294, 10000000000000⟩, 1000000000000) ∧
    divisor? 4294967294 = some 4294967295 ∧
    (⟨4294967295, 4294967294, 10000000000000⟩ : Budget).pause? 1000000000000 = some 2095 ∧
    1000000000000 + 2095 ≤ 10000000000000 ∧
    ∃ pause, (⟨4294967295, 65536, 10000000000000⟩ : Budget).pause? 1000000000000 = some pause ∧ 2095 ≤ pause := by
  have hafter : (fresh 4294967295 10000000000000).after 0 [.charge, .elapse 1000000000000] =
      (⟨4294967295, 4294967294, 10000000000000⟩, 1000000000000) := by decide
  have hpause : (⟨4294967295, 4294967294, 10000000000000⟩ : Budget).pause? 1000000000000 = some 2095 := by decide
  obtain ⟨-, -, -, -, hfits⟩ := pauses_fit hafter
  obtain ⟨-, -, hend, -, hlonger⟩ := hfits 2095 hpause
  exact ⟨by decide, hafter, by decide, hpause, hend (by decide),
    hlonger ⟨4294967295, 65536, 10000000000000⟩ 1000000000000 (by decide) (by decide) rfl⟩

end SlotRouter.Budget
