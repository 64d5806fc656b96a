import Mathlib
import SlotRouter.Seed.Ip

/-!
# IPv6 addresses read back

The canonical text of an address is read as that address (`Ipv6.ofChars?_toChars`): groups between colons give
the groups (`side?_joined`), and the run that is left out consists of zeros (`IsRun.longestRun`), so that filling
the gap restores it. There is no gap inside the groups on its two sides (`cutGap?_joined`), so the gap that is
found is the one that was made.

The text is made of hexadecimal digits in lower case, colons and points (`mem_lettering_of_mem_toChars`), and there is
a colon in it (`colon_mem_toChars`).

Key definitions: `Ipv6.IsRun`, `Ipv6.lettering`. Key theorem: `Ipv6.ofChars?_toChars`.
-/

namespace SlotRouter

theorem Text.parts_eq_splitOn (sep : Char) (cs : List Char) : parts sep cs = cs.splitOn sep := by
  induction cs with
  | nil => rfl
  | cons c cs ih =>
    rw [parts, List.splitOn_cons_eq_if_modifyHead, ih]
    by_cases hc : c = sep
    · rw [if_pos hc, if_pos (beq_iff_eq.2 hc)]
    · rw [if_neg hc, if_neg (by simpa using hc)]
      cases hsplit : cs.splitOn sep with
      | nil => exact absurd hsplit (List.splitOn_ne_nil _ _)
      | cons part rest => rfl

namespace Ipv6

/-! ### Numbers -/

/-- The characters of which a text of an address is made. -/
def lettering : List Char := "0123456789abcdef:.".toList

theorem hexDigit?_digitChar {d : Nat} (h : d < 16) : hexDigit? d.digitChar = some d := by
  decide +revert

/-- Hexadecimal digits are read as the number for which they are written. -/
theorem mapM_toDigits (n : Nat) : ∃ ds, (Nat.toDigits 16 n).mapM hexDigit? = some ds ∧
    ds.foldl (fun n d => n * 16 + d) 0 = n := by
  induction n using Nat.strongRecOn with
  | ind n ih =>
    rcases Nat.lt_or_ge n 16 with hn | hn
    · refine ⟨[n], ?_, by simp⟩
      rw [Nat.toDigits_of_lt_base hn]
      simp [hexDigit?_digitChar hn]
    · obtain ⟨ds, hds, hvalue⟩ := ih (n / 16) (by omega)
      refine ⟨ds ++ [n % 16], ?_, ?_⟩
      · rw [Nat.toDigits_of_base_le (by decide) hn, List.mapM_append, hds]
        simp [hexDigit?_digitChar (Nat.mod_lt n (by decide : 0 < 16))]
      · rw [List.foldl_append, hvalue]
        simp only [List.foldl_cons, List.foldl_nil]
        omega

theorem group?_toDigits (g : UInt16) : group? (Nat.toDigits 16 g.toNat) = some g := by
  have hlength : (Nat.toDigits 16 g.toNat).length ≤ 4 :=
    (Nat.length_toDigits_le_iff (by decide) (by decide)).2 g.toNat_lt
  have hpart : ((Nat.toDigits 16 g.toNat).isEmpty || decide ((Nat.toDigits 16 g.toNat).length > 4)) = false := by
    simp [Nat.toDigits_ne_nil, hlength]
  obtain ⟨ds, hds, hvalue⟩ := mapM_toDigits g.toNat
  rw [group?, hpart, hds]
  simp [hvalue]

theorem byte?_toDigits {n : Nat} (h : n < 256) : byte? (Nat.toDigits 10 n) = some n := by
  decide +kernel +revert

/-- A digit of a number is a digit in lower case. -/
theorem mem_lettering_of_mem_toDigits {base n : Nat} (hbase : 1 < base ∧ base ≤ 16) {c : Char}
    (hc : c ∈ Nat.toDigits base n) : c ∈ lettering ∧ c ≠ ':' ∧ c ≠ '.' := by
  have hdigit : ∀ d < 16, d.digitChar ∈ lettering ∧ d.digitChar ≠ ':' ∧ d.digitChar ≠ '.' := by decide
  induction n using Nat.strongRecOn with
  | ind n ih =>
    rcases Nat.lt_or_ge n base with hn | hn
    · rw [Nat.toDigits_of_lt_base hn, List.mem_singleton] at hc
      exact hc ▸ hdigit n (by omega)
    · rw [Nat.toDigits_of_base_le hbase.1 hn, List.mem_append, List.mem_singleton] at hc
      rcases hc with hc | rfl
      · exact ih (n / base) (Nat.div_lt_self (by omega) hbase.1) hc
      · exact hdigit _ ((Nat.mod_lt n (by omega)).trans_le hbase.2)

/-! ### Groups between colons -/

variable {gs : List UInt16} {c : Char}

theorem joined_cons (g : UInt16) (hne : gs ≠ []) :
    joined (g :: gs) = Nat.toDigits 16 g.toNat ++ ':' :: joined gs := by
  cases gs with
  | nil => exact absurd rfl hne
  | cons g' gs => simp [joined]

theorem parts_joined (hne : gs ≠ []) : Text.parts ':' (joined gs) = gs.map fun g => Nat.toDigits 16 g.toNat := by
  rw [Text.parts_eq_splitOn]
  refine List.splitOn_intercalate ':' (fun part hpart hcolon => ?_) (by simpa using hne)
  obtain ⟨g, -, rfl⟩ := List.mem_map.1 hpart
  exact (mem_lettering_of_mem_toDigits (by decide) hcolon).2.1 rfl

theorem groups?_hexadecimal (gs : List UInt16) : groups? (gs.map fun g => Nat.toDigits 16 g.toNat) = some gs := by
  induction gs with
  | nil => rfl
  | cons g gs ih =>
    cases gs with
    | nil => simp [groups?, group?_toDigits]
    | cons g' gs =>
      rw [List.map_cons, groups?, group?_toDigits, ih]
      · rfl
      · simp

theorem joined_ne_nil (hne : gs ≠ []) : joined gs ≠ [] := by
  obtain ⟨g, gs, rfl⟩ := List.exists_cons_of_ne_nil hne
  cases gs with
  | nil => simp [joined, Nat.toDigits_ne_nil]
  | cons g' gs => simp [joined_cons]

theorem side?_joined (gs : List UInt16) : side? (joined gs) = some gs := by
  rcases eq_or_ne gs [] with rfl | hne
  · rfl
  · rw [side?, if_neg (by simpa using joined_ne_nil hne), parts_joined hne, groups?_hexadecimal]

theorem mem_lettering_of_mem_joined (hc : c ∈ joined gs) : c ∈ lettering ∧ c ≠ '.' := by
  induction gs with
  | nil => cases hc
  | cons g gs ih =>
    have hdigit : ∀ d ∈ Nat.toDigits 16 g.toNat, d ∈ lettering ∧ d ≠ '.' := fun d hd =>
      have hd := mem_lettering_of_mem_toDigits (by decide) hd
      ⟨hd.1, hd.2.2⟩
    rcases eq_or_ne gs [] with rfl | hne
    · exact hdigit c (by simpa [joined] using hc)
    · rw [joined_cons g hne, List.mem_append, List.mem_cons] at hc
      rcases hc with hc | rfl | hc
      · exact hdigit c hc
      · decide
      · exact ih hc

/-! ### Gaps -/

section Gaps

variable {before rest cs : List Char}

theorem cutGap?_cons (h : c = ':' → rest.head? ≠ some ':') :
    cutGap? before (c :: rest) = cutGap? (c :: before) rest := by
  rw [cutGap?]
  rintro rest' rfl rfl
  exact h rfl rfl

theorem cutGap?_append (h : ':' ∉ cs) (rest : List Char) :
    cutGap? before (cs ++ rest) = cutGap? (cs.reverse ++ before) rest := by
  induction cs generalizing before with
  | nil => rfl
  | cons c cs ih =>
    rw [List.mem_cons, not_or] at h
    rw [List.cons_append, cutGap?_cons fun hc => absurd hc.symm h.1, ih h.2]
    simp

/-- **There is no gap within groups**, nor does one begin with their last colon. -/
theorem cutGap?_joined (gs : List UInt16) (rest : List Char) :
    cutGap? before (joined gs ++ rest) = cutGap? ((joined gs).reverse ++ before) rest := by
  have hhex (g : UInt16) : ':' ∉ Nat.toDigits 16 g.toNat := fun hcolon =>
    (mem_lettering_of_mem_toDigits (by decide) hcolon).2.1 rfl
  induction gs generalizing before with
  | nil => rfl
  | cons g gs ih =>
    cases gs with
    | nil => simpa [joined] using cutGap?_append (hhex g) rest
    | cons g' gs =>
      have hhead : (joined (g' :: gs) ++ rest).head? ≠ some ':' := by
        obtain ⟨d, ds, hds⟩ := List.exists_cons_of_ne_nil (Nat.toDigits_ne_nil (n := g'.toNat) (b := 16))
        have hd : d ≠ ':' := fun hd => hhex g' (by simp [hds, hd])
        cases gs with
        | nil => simpa [joined, hds] using hd
        | cons => simpa [joined_cons, hds] using hd
      rw [joined_cons g (List.cons_ne_nil _ _), List.append_assoc, List.cons_append, cutGap?_append (hhex g),
        cutGap?_cons fun _ => hhead, ih]
      simp

end Gaps

/-! ### Runs of zeros -/

/-- From `run.1` on there are `run.2` zeros. -/
def IsRun (gs : List UInt16) (run : Nat × Nat) : Prop := List.replicate run.2 0 <+: gs.drop run.1

theorem replicate_zeroRun (gs : List UInt16) : List.replicate (zeroRun gs) 0 <+: gs := by
  have hzeros : gs.takeWhile (· == 0) = List.replicate (zeroRun gs) 0 :=
    List.eq_replicate_iff.2 ⟨rfl, fun g hg => by simpa using List.mem_takeWhile_imp hg⟩
  exact hzeros ▸ List.takeWhile_prefix _

/-- The longest run is a run, if the one that was the longest so far is. -/
theorem IsRun.longestRun {front : List UInt16} {best : Nat × Nat} (h : IsRun (front ++ gs) best) :
    IsRun (front ++ gs) (longestRun gs front.length best) := by
  -- group by group the list passes over to what is in front, and the whole stays the same
  induction gs generalizing front best with
  | nil => exact h
  | cons g gs ih =>
    have hrun : IsRun (front ++ g :: gs) (front.length, zeroRun (g :: gs)) := by
      simpa [IsRun] using replicate_zeroRun (g :: gs)
    have hnext : IsRun ((front ++ [g]) ++ gs)
        (if zeroRun (g :: gs) > best.2 then (front.length, zeroRun (g :: gs)) else best) := by
      rw [List.append_assoc, List.singleton_append]
      split
      · exact hrun
      · exact h
    simpa [Ipv6.longestRun] using ih hnext

/-- What stands before a run, the zeros, and what stands behind it. -/
theorem IsRun.eq_append {run : Nat × Nat} (h : IsRun gs run) :
    gs = gs.take run.1 ++ List.replicate run.2 0 ++ gs.drop (run.1 + run.2) := by
  obtain ⟨behind, hbehind⟩ := h
  have hdrop : gs.drop (run.1 + run.2) = behind := by
    rw [← List.drop_drop, ← hbehind]
    simp
  rw [hdrop, List.append_assoc, hbehind, List.take_append_drop]

/-! ### The whole address -/

theorem ofList?_toList (g : Groups) : ofList? g.toList = some g := by
  rw [ofList?, dif_pos g.length_toList]
  exact congrArg some (Vector.toArray_inj.1 (Array.toArray_toList))

theorem parts_ipv4Chars (high low : UInt16) : Text.parts '.' (ipv4Chars high low) =
    [high.toNat / 256, high.toNat % 256, low.toNat / 256, low.toNat % 256].map (Nat.toDigits 10) := by
  rw [Text.parts_eq_splitOn]
  refine List.splitOn_intercalate '.' (fun part hpart hpoint => ?_) (by simp)
  obtain ⟨n, -, rfl⟩ := List.mem_map.1 hpart
  exact (mem_lettering_of_mem_toDigits (by decide) hpoint).2.2 rfl

theorem ipv4?_ipv4Chars (high low : UInt16) : ipv4? (ipv4Chars high low) = some [high, low] := by
  have hhigh := high.toNat_lt
  have hlow := low.toNat_lt
  have hbytes :
      ([high.toNat / 256, high.toNat % 256, low.toNat / 256, low.toNat % 256].map (Nat.toDigits 10)).mapM byte? =
        some [high.toNat / 256, high.toNat % 256, low.toNat / 256, low.toNat % 256] := by
    simp [byte?_toDigits, show high.toNat / 256 < 256 by omega, show low.toNat / 256 < 256 by omega,
      Nat.mod_lt _ (by decide : 256 > 0)]
  rw [ipv4?, parts_ipv4Chars, hbytes]
  simp [Nat.div_add_mod']

theorem mem_ipv4Chars {high low : UInt16} (hc : c ∈ ipv4Chars high low) : c ∈ lettering ∧ c ≠ ':' := by
  have hdigit (n : Nat) (hc : c ∈ Nat.toDigits 10 n) : c ∈ lettering ∧ c ≠ ':' :=
    have hc := mem_lettering_of_mem_toDigits (by decide) hc
    ⟨hc.1, hc.2.1⟩
  have hpoint (hc : c = '.') : c ∈ lettering ∧ c ≠ ':' := by
    subst hc
    decide
  simp only [ipv4Chars, List.map_cons, List.map_nil, List.intersperse_cons_cons, List.intersperse_singleton,
    List.flatten_cons, List.flatten_nil, List.append_nil, List.mem_append, List.mem_singleton] at hc
  rcases hc with hc | hc | hc | hc | hc | hc | hc
  · exact hdigit _ hc
  · exact hpoint hc
  · exact hdigit _ hc
  · exact hpoint hc
  · exact hdigit _ hc
  · exact hpoint hc
  · exact hdigit _ hc

/-- An IPv4 address is too long for a group. -/
theorem group?_ipv4Chars (high low : UInt16) : group? (ipv4Chars high low) = none := by
  have hpos (n : Nat) : 0 < (Nat.toDigits 10 n).length := Nat.length_toDigits_pos
  have hlong : (ipv4Chars high low).length > 4 := by
    have hfirst := hpos (high.toNat / 256)
    have hsecond := hpos (high.toNat % 256)
    simp only [ipv4Chars, List.map_cons, List.map_nil, List.intersperse_cons_cons, List.intersperse_singleton,
      List.flatten_cons, List.flatten_nil, List.length_append, List.length_cons, List.length_nil]
    omega
  rw [group?, decide_eq_true hlong, Bool.or_true, if_pos rfl]

theorem side?_mapped (high low : UInt16) :
    side? ("ffff:".toList ++ ipv4Chars high low) = some [0xFFFF, high, low] := by
  have hjoined : "ffff:".toList ++ ipv4Chars high low = [':'].intercalate ["ffff".toList, ipv4Chars high low] := by
    simp [List.intercalate]
  have hparts : Text.parts ':' ("ffff:".toList ++ ipv4Chars high low) = ["ffff".toList, ipv4Chars high low] := by
    rw [Text.parts_eq_splitOn, hjoined]
    refine List.splitOn_intercalate ':' (fun part hpart hcolon => ?_) (by simp)
    rcases List.mem_pair.1 hpart with rfl | rfl
    · exact absurd hcolon (by decide)
    · exact (mem_ipv4Chars hcolon).2 rfl
  have hgroup : group? "ffff".toList = some 0xFFFF := by decide
  rw [side?, if_neg (by simp), hparts, groups?, hgroup, groups?, group?_ipv4Chars, ipv4?_ipv4Chars]
  · rfl
  · simp

theorem ofChars?_joined (gs : List UInt16) : ofChars? (joined gs) = ofList? gs := by
  have hnone : cutGap? [] (joined gs) = none := by
    rw [← List.append_nil (joined gs), cutGap?_joined]
    rfl
  rw [ofChars?, hnone]
  simp [side?_joined]

/-- Zeros in place of the gap restore the groups, if zeros were left out. -/
theorem ofChars?_gap (l r : List UInt16) {n : Nat} (hlength : l.length + n + r.length = 8) (hn : 0 < n) :
    ofChars? (joined l ++ "::".toList ++ joined r) = ofList? (l ++ List.replicate n 0 ++ r) := by
  have hcut : cutGap? [] (joined l ++ "::".toList ++ joined r) = some (joined l, joined r) := by
    rw [List.append_assoc, cutGap?_joined]
    simp [cutGap?]
  have hpoint : '.' ∉ joined l := fun h => (mem_lettering_of_mem_joined h).2 rfl
  have hfill : 8 - l.length - r.length = n := by omega
  have hroom : ¬l.length + r.length > 7 := by omega
  rw [ofChars?, hcut]
  simp [hpoint, side?_joined, hfill, hroom]

theorem ofChars?_mapped (high low : UInt16) :
    ofChars? ("::ffff:".toList ++ ipv4Chars high low) = ofList? [0, 0, 0, 0, 0, 0xFFFF, high, low] := by
  have hcut : cutGap? [] ("::ffff:".toList ++ ipv4Chars high low) =
      some ([], "ffff:".toList ++ ipv4Chars high low) := rfl
  rw [ofChars?, hcut]
  dsimp only
  rw [side?_mapped]
  rfl

/-- **The canonical text of an address is read as the address.** -/
theorem ofChars?_toChars (g : Groups) : ofChars? (toChars g) = some g := by
  rw [← ofList?_toList g]
  unfold toChars
  split
  · rename_i hmapped
    rw [hmapped, ofChars?_mapped]
  · have hrun : IsRun g.toList (longestRun g.toList 0 (0, 0)) := by
      have hnone : IsRun ([] ++ g.toList) (0, 0) := List.nil_prefix
      exact hnone.longestRun
    rcases hlongest : longestRun g.toList 0 (0, 0) with ⟨start, length⟩
    rw [hlongest] at hrun
    have hwhole := hrun.eq_append
    dsimp only
    split_ifs with hlong
    · have hlength := congrArg List.length hwhole
      rw [List.length_append, List.length_append, List.length_replicate, g.length_toList] at hlength
      rw [ofChars?_gap _ _ hlength.symm (by omega), ← hwhole]
    · exact ofChars?_joined _

/-! ### The characters of an address -/

/-- The text has no characters but digits in lower case, colons and points. -/
theorem mem_lettering_of_mem_toChars {g : Groups} (hc : c ∈ toChars g) : c ∈ lettering := by
  have hcolons : "::".toList ⊆ lettering := by decide
  have hmapped : "::ffff:".toList ⊆ lettering := by decide
  unfold toChars at hc
  split at hc
  · rcases List.mem_append.1 hc with hc | hc
    · exact hmapped hc
    · exact (mem_ipv4Chars hc).1
  · dsimp only at hc
    split_ifs at hc
    · rw [List.mem_append, List.mem_append] at hc
      rcases hc with (hc | hc) | hc
      · exact (mem_lettering_of_mem_joined hc).1
      · exact hcolons hc
      · exact (mem_lettering_of_mem_joined hc).1
    · exact (mem_lettering_of_mem_joined hc).1

theorem colon_mem_toChars (g : Groups) : ':' ∈ toChars g := by
  unfold toChars
  split
  · exact List.mem_append_left _ (by decide)
  · dsimp only
    split_ifs
    · exact List.mem_append_left _ (List.mem_append_right _ (by decide))
    · obtain ⟨first, others, hgroups⟩ := List.exists_cons_of_length_eq_add_one g.length_toList
      have hothers : others ≠ [] := by
        rintro rfl
        have hlength := g.length_toList
        rw [hgroups] at hlength
        cases hlength
      rw [hgroups, joined_cons first hothers]
      exact List.mem_append_right _ List.mem_cons_self

end Ipv6
end SlotRouter
