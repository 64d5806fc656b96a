import Mathlib.Tactic.SplitIfs
import Mathlib.Tactic.ByContra
import SlotRouter.Frame.Decode
import SlotRouter.Frame.Wire

/-!
# Reading is stable

A frame that has been read stays what it is when more octets arrive (`parse_append`) and when the
limits are wider (`parse_mono`). Every form of a frame is read as that frame (`parse_of_wire`). So
whoever reads a frame from the beginning of a form has the whole form, and the frame is the one it
is a form of (`eq_of_parse_prefix`).

Key theorems: `parse_append`, `parse_mono`, `parse_of_wire`, `eq_of_parse_prefix`.
-/

namespace SlotRouter.Frame

variable {size size' depth depth' : Nat} {bs more rest body w : Bytes} {f : Frame}

/-! ### Lines -/

theorem splitLineFrom_append {before : Bytes} (h : splitLineFrom before bs = some (body, rest)) :
    splitLineFrom before (bs ++ more) = some (body, rest ++ more) := by
  fun_induction splitLineFrom before bs with
  | case1 before rest' =>
    obtain ⟨rfl, rfl⟩ : before.reverse = body ∧ rest' = rest := by simpa using h
    rfl
  | case2 before b rest' hne ih =>
    have hne' : ∀ r, b = 13 → rest' ++ more = 10 :: r → False := by
      intro r hb hr
      cases rest' with
      | nil => simp [splitLineFrom] at h
      | cons c rest' =>
        obtain ⟨rfl, -⟩ := List.cons.inj hr
        exact hne rest' hb rfl
    rw [List.cons_append, splitLineFrom.eq_2 _ _ _ hne']
    exact ih h
  | case3 => simp at h

theorem splitLine_append (h : splitLine bs = some (body, rest)) :
    splitLine (bs ++ more) = some (body, rest ++ more) := splitLineFrom_append h

theorem splitLineFrom_of_noLineEnd {before : Bytes} (h : NoLineEnd body) :
    splitLineFrom before (body ++ Bytes.crlf ++ rest) = some (before.reverse ++ body, rest) := by
  induction body generalizing before with
  | nil => simp [Bytes.crlf, splitLineFrom]
  | cons b body ih =>
    have htail : NoLineEnd body := fun hin => h (hin.trans (List.suffix_cons b body).isInfix)
    have hne : ∀ r, b = 13 → body ++ Bytes.crlf ++ rest = 10 :: r → False := by
      rintro r rfl hr
      cases body with
      | nil => simp [Bytes.crlf] at hr
      | cons c body =>
        obtain ⟨rfl, -⟩ := List.cons.inj hr
        exact h ⟨[], body, rfl⟩
    rw [List.cons_append, List.cons_append, splitLineFrom.eq_2 _ _ _ hne, ih htail]
    simp

theorem splitLine_of_noLineEnd (h : NoLineEnd body) :
    splitLine (body ++ Bytes.crlf ++ rest) = some (body, rest) := by
  exact splitLineFrom_of_noLineEnd h

/-! ### More octets -/

/-- Where something is left, all that was passed was there. -/
theorem le_length_of_drop {length : Nat} {b : UInt8} (h : bs.drop length = b :: rest) : length ≤ bs.length := by
  by_contra hlt
  rw [List.drop_eq_nil_of_le (by omega)] at h
  cases h

theorem parsePayload_append {length : Nat} (h : parsePayload length bs = .done f rest) :
    parsePayload length (bs ++ more) = .done f (rest ++ more) := by
  unfold parsePayload at h ⊢
  split at h
  · rename_i r hr
    obtain ⟨rfl, rfl⟩ := Parsed.done.inj h
    have hle := le_length_of_drop hr
    rw [List.drop_append_of_le_length hle, hr, List.take_append_of_le_length hle]
    rfl
  · cases h
  · cases h

/-- Items are read alike by a reader that reads whatever the first one reads, with `more` octets
behind it. -/
theorem parseItems_extends {item item' : Bytes → Parsed Frame}
    (hitem : ∀ bs f rest, item bs = .done f rest → item' (bs ++ more) = .done f (rest ++ more))
    {count : Nat} {fs : List Frame} (h : parseItems item count bs = .done fs rest) :
    parseItems item' count (bs ++ more) = .done fs (rest ++ more) := by
  induction count generalizing bs fs with
  | zero =>
    obtain ⟨rfl, rfl⟩ := Parsed.done.inj h
    rfl
  | succ count ih =>
    unfold parseItems at h ⊢
    split at h
    · rename_i f r hf
      split at h
      · rename_i fs' r' hfs
        obtain ⟨rfl, rfl⟩ := Parsed.done.inj h
        rw [hitem _ _ _ hf]
        simp only [ih hfs]
      · cases h
      · cases h
    · cases h
    · cases h

/-- The rest of a frame is read alike with a wider limit, more octets, and a reader of items that
extends the first. -/
theorem parseAfterLine_extends {items items' : Option (Nat → Bytes → Parsed (List Frame))}
    {tag : UInt8} (hsize : size ≤ size')
    (hitems : ∀ read, items = some read → ∃ read', items' = some read' ∧
      ∀ count bs fs rest, read count bs = .done fs rest → read' count (bs ++ more) = .done fs (rest ++ more))
    (h : parseAfterLine size items tag body bs = .done f rest) :
    parseAfterLine size' items' tag body (bs ++ more) = .done f (rest ++ more) := by
  unfold parseAfterLine at h ⊢
  split_ifs at h ⊢ with h43 h45 h58 h36 h42
  · obtain ⟨rfl, rfl⟩ := Parsed.done.inj h
    rfl
  · obtain ⟨rfl, rfl⟩ := Parsed.done.inj h
    rfl
  · split at h
    · obtain ⟨rfl, rfl⟩ := Parsed.done.inj h
      rfl
    · cases h
  · split at h
    · split_ifs at h ⊢ with hneg hbig hbig'
      · obtain ⟨rfl, rfl⟩ := Parsed.done.inj h
        rfl
      · omega
      · exact parsePayload_append h
    · cases h
  · split at h
    · split_ifs at h ⊢ with hneg hbig hbig'
      · obtain ⟨rfl, rfl⟩ := Parsed.done.inj h
        rfl
      · omega
      · split at h
        · cases h
        · rename_i read
          obtain ⟨read', rfl, hread⟩ := hitems read rfl
          split at h
          · rename_i fs r hfs
            obtain ⟨rfl, rfl⟩ := Parsed.done.inj h
            simp only [hread _ _ _ _ hfs]
          · cases h
          · cases h
    · cases h

/-- The reader of the items of an array, where arrays may be nested `depth` deep. -/
def itemReader (size : Nat) : (depth : Nat) → Option (Nat → Bytes → Parsed (List Frame))
  | 0 => none
  | depth + 1 => some (parseItems (parse size depth))

/-- A frame is its first line and what that line says is to follow. -/
theorem parse_cons (tag : UInt8) (h : splitLine bs = some (body, rest)) :
    parse size depth (tag :: bs) = parseAfterLine size (itemReader size depth) tag body rest := by
  unfold parse
  rw [h]
  cases depth <;> rfl

/-- Unless more octets are needed, the first line is there. -/
theorem exists_line_of_parse {read : Parsed Frame} (h : parse size depth bs = read) (hread : read ≠ .incomplete) :
    ∃ tag bs' body r, bs = tag :: bs' ∧ splitLine bs' = some (body, r) := by
  subst h
  cases bs with
  | nil => simp [parse] at hread
  | cons tag bs =>
    unfold parse at hread
    split at hread
    · exact absurd rfl hread
    · rename_i hline
      exact ⟨tag, bs, _, _, rfl, hline⟩

/-- More octets and wider limits at once. -/
theorem parse_extends (hsize : size ≤ size') (hdepth : depth ≤ depth')
    (h : parse size depth bs = .done f rest) :
    parse size' depth' (bs ++ more) = .done f (rest ++ more) := by
  induction depth generalizing depth' bs f rest with
  | zero =>
    obtain ⟨tag, bs, body, r, rfl, hline⟩ := exists_line_of_parse h nofun
    rw [parse_cons tag hline] at h
    rw [List.cons_append, parse_cons tag (splitLine_append hline)]
    exact parseAfterLine_extends hsize (by rintro _ ⟨⟩) h
  | succ depth ih =>
    obtain ⟨depth', rfl⟩ : ∃ d, depth' = d + 1 := ⟨depth' - 1, by omega⟩
    obtain ⟨tag, bs, body, r, rfl, hline⟩ := exists_line_of_parse h nofun
    rw [parse_cons tag hline] at h
    rw [List.cons_append, parse_cons tag (splitLine_append hline)]
    refine parseAfterLine_extends hsize ?_ h
    rintro _ ⟨⟩
    exact ⟨_, rfl, fun _ _ _ _ hfs => parseItems_extends (fun _ _ _ hf => ih (by omega) hf) hfs⟩

/-- A frame that has been read stays what it is when more octets arrive. -/
theorem parse_append (h : parse size depth bs = .done f rest) :
    parse size depth (bs ++ more) = .done f (rest ++ more) := parse_extends (Nat.le_refl _) (Nat.le_refl _) h

/-- A frame that has been read stays what it is under wider limits. -/
theorem parse_mono (hsize : size ≤ size') (hdepth : depth ≤ depth')
    (h : parse size depth bs = .done f rest) : parse size' depth' bs = .done f rest := by
  have hmore : parse size' depth' (bs ++ []) = .done f (rest ++ []) := parse_extends hsize hdepth h
  rwa [List.append_nil, List.append_nil] at hmore

/-! ### Forms of frames -/

theorem ne_of_continueWith {acc n : Nat} (h : Decimal.continueWith acc bs = some n) : 13 ∉ bs := by
  induction bs generalizing acc with
  | nil => simp
  | cons b bs ih =>
    unfold Decimal.continueWith at h
    split at h
    · rename_i d hd
      have hb : b ≠ 13 := by
        rintro rfl
        simp [Decimal.digit?] at hd
      simp [hb.symm, ih h]
    · cases h

theorem ne_of_natural? {n : Nat} (h : Decimal.natural? bs = some n) : 13 ∉ bs := by
  unfold Decimal.natural? at h
  split_ifs at h
  exact ne_of_continueWith h

/-- No line end stands in a numeral. -/
theorem Numeral.noLineEnd {n : Int64} (h : Numeral body n) : NoLineEnd body := by
  have hsigned : ∃ m, Decimal.signed? body = some m := by
    unfold Numeral Decimal.int64? at h
    split at h
    · exact ⟨_, ‹_›⟩
    · cases h
  have hne : 13 ∉ body := by
    obtain ⟨m, hm⟩ := hsigned
    unfold Decimal.signed? at hm
    split at hm <;> obtain ⟨k, hk, -⟩ := Option.map_eq_some_iff.1 hm <;>
      have := ne_of_natural? hk <;> simp_all
  exact fun hin => hne (hin.subset (by simp [Bytes.crlf]))

theorem parsePayload_of_form (payload : Bytes) :
    parsePayload payload.length (payload ++ (Bytes.crlf ++ rest)) = .done (.bulk payload) rest := by
  simp [parsePayload, Bytes.crlf]

theorem parse_line (tag : UInt8) (h : NoLineEnd body) :
    parse size depth (tag :: body ++ Bytes.crlf ++ rest) =
      parseAfterLine size (itemReader size depth) tag body rest :=
  parse_cons tag (splitLine_of_noLineEnd h)

theorem not_neg_of_toInt_eq {n : Int64} {m : Nat} (h : n.toInt = m) : ¬ n < 0 := by
  rw [Int64.lt_iff_toInt_lt, h]
  simp

mutual

/-- Every form of a frame is read as that frame, whatever stands behind it. -/
theorem parse_of_wire : ∀ {depth : Nat} {w : Bytes} {f : Frame}, Wire size depth w f →
    ∀ rest, parse size depth (w ++ rest) = .done f rest
  | _, _, _, .simple h, rest => by
    rw [parse_line _ h]
    rfl
  | _, _, _, .error h, rest => by
    rw [parse_line _ h]
    rfl
  | _, _, _, .integer h, rest => by
    rw [parse_line _ h.noLineEnd]
    unfold Numeral at h
    simp [parseAfterLine, h]
  | _, _, _, .nilBulk h neg, rest => by
    rw [parse_line _ h.noLineEnd]
    unfold Numeral at h
    simp [parseAfterLine, h, neg]
  | _, _, _, @Wire.bulk _ _ _ payload _ h len fits, rest => by
    rw [List.append_assoc _ payload, List.append_assoc, parse_line _ h.noLineEnd]
    unfold Numeral at h
    have hneg := not_neg_of_toInt_eq len
    have hsize : ¬ payload.length > size := by omega
    simp only [parseAfterLine, h, len, Int.toNat_natCast]
    simp [hneg, hsize, parsePayload_of_form]
  | _, _, _, .nilArray h neg, rest => by
    rw [parse_line _ h.noLineEnd]
    unfold Numeral at h
    simp [parseAfterLine, h, neg]
  | _, _, _, @Wire.array _ _ _ _ _ items h len fits each, rest => by
    rw [List.append_assoc, parse_line _ h.noLineEnd]
    unfold Numeral at h
    have hneg := not_neg_of_toInt_eq len
    have hsize : ¬ items.length > size / 4 := by omega
    simp only [parseAfterLine, h, len, Int.toNat_natCast, itemReader, parseItems_of_wireItems each]
    simp [hneg, hsize]

theorem parseItems_of_wireItems :
    ∀ {depth : Nat} {w : Bytes} {fs : List Frame}, WireItems size depth w fs →
    ∀ rest, parseItems (parse size depth) fs.length (w ++ rest) = .done fs rest
  | _, _, _, .nil, rest => rfl
  | _, _, _, .cons head tail, rest => by
    rw [List.append_assoc, List.length_cons]
    unfold parseItems
    simp only [parse_of_wire head, parseItems_of_wireItems tail]

end

/-- Whoever reads a frame from the beginning of a form, under whatever limits, has the whole form,
and the frame is the one it is a form of. -/
theorem eq_of_parse_prefix {g : Frame} (hw : Wire size' depth' w g) (hbs : bs <+: w)
    (h : parse size depth bs = .done f rest) : bs = w ∧ f = g ∧ rest = [] := by
  obtain ⟨more, rfl⟩ := hbs
  have hread : parse (max size size') (max depth depth') (bs ++ more) = .done f (rest ++ more) :=
    parse_extends (Nat.le_max_left ..) (Nat.le_max_left ..) h
  have hform : parse (max size size') (max depth depth') (bs ++ more) = .done g [] :=
    parse_mono (Nat.le_max_right ..) (Nat.le_max_right ..) (by simpa using parse_of_wire hw [])
  rw [hread] at hform
  obtain ⟨rfl, hnil⟩ := Parsed.done.inj hform
  obtain ⟨rfl, rfl⟩ := List.append_eq_nil_iff.1 hnil
  exact ⟨by simp, rfl, rfl⟩

end SlotRouter.Frame
