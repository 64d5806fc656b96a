import SlotRouter.Proofs.Frame.RoundTrip

/-!
# Lengths that are refused early

The length of a payload or an array is judged before what it announces has come. A payload is refused if it
alone is longer than the limit; no form of it would fit (`Wire.payload_length_lt`). An array is refused if
it has more items than a fourth of the limit. The shortest forms are lines with nothing in them, though, and
these have three octets: an array of such lines can fit and be refused (`exists_fitting_array_iff`).

`Reaches` says where the reader comes to stand in what it reads, and `Refused` what it does not go on from.

Key definitions: `Frame.Reaches`, `Frame.Refused`, `Frame.Within`.
Key theorems: `parse_eq_faulty_iff`, `Decoder.refuses_early`.
-/

namespace SlotRouter.Frame

/-- The octets begin with a line of this tag and a numeral of `n`. -/
def Declares (tag : UInt8) (body : Bytes) (n : Int64) (left : Bytes) : Prop :=
  Numeral body n ∧ tag :: body ++ Bytes.crlf <+: left

/-- Reading `bs` with arrays allowed `depth` deep comes to stand before `left`: at once, or behind some items
of an array that was opened. -/
inductive Reaches (size : Nat) : (depth : Nat) → (bs : Bytes) → (left : Bytes) → Prop where
  | start {depth : Nat} {bs : Bytes} : Reaches size depth bs bs
  | item {depth : Nat} {body w bs left : Bytes} {n : Int64} {items : List Frame} (h : Numeral body n)
      (opened : n.toInt ≤ (size / 4 : Nat)) (more : items.length < n.toInt) (each : WireItems size depth w items)
      (on : Reaches size depth bs left) : Reaches size (depth + 1) (42 :: body ++ Bytes.crlf ++ (w ++ bs)) left

/-- The octets begin with a length that is refused. -/
inductive Refused (size : Nat) (left : Bytes) : Fault → Prop where
  | payload {body : Bytes} {n : Int64} (h : Declares 36 body n left) (long : size < n.toInt) :
      Refused size left .payloadTooLarge
  | array {body : Bytes} {n : Int64} (h : Declares 42 body n left) (long : (size / 4 : Nat) < n.toInt) :
      Refused size left .arrayTooLarge

/-- The frame `g` stands in a frame: it is that frame or stands in one of its items. -/
inductive Within (g : Frame) : Frame → Prop where
  | self : Within g g
  | item {f : Frame} {items : List Frame} (mem : f ∈ items) (h : Within g f) : Within g (.array items)

/-- No line in the frame holds a line end. -/
def Unbroken (f : Frame) : Prop := ∀ line, Within (.simple line) f ∨ Within (.error line) f → NoLineEnd line

variable {size depth count : Nat} {bs left rest body w : Bytes} {f : Frame} {fs : List Frame} {fault : Fault}
  {n : Int64}

/-! ### Where the reader stops -/

theorem not_neg_of_lt {m : Nat} (h : m < n.toInt) : ¬n < 0 := by
  rw [Int64.lt_iff_toInt_lt]
  have hzero : (0 : Int64).toInt = 0 := rfl
  omega

/-- A length that is refused is refused however deep it stands. -/
theorem Refused.parse (h : Refused size left fault) (depth : Nat) :
    Frame.parse size depth left = .faulty fault := by
  cases h with
  | @payload body n h long =>
    obtain ⟨hn, rest, rfl⟩ := h
    have hbig : n.toInt.toNat > size := by omega
    rw [parse_line _ hn.noLineEnd]
    unfold Numeral at hn
    simp only [parseAfterLine, hn, if_neg (not_neg_of_lt long), if_pos hbig]
    rfl
  | @array body n h long =>
    obtain ⟨hn, rest, rfl⟩ := h
    have hbig : n.toInt.toNat > size / 4 := by omega
    rw [parse_line _ hn.noLineEnd]
    unfold Numeral at hn
    simp only [parseAfterLine, hn, if_neg (not_neg_of_lt long), if_pos hbig]
    rfl

/-- Behind whole items the next one decides. -/
theorem parseItems_faulty (h : WireItems size depth w fs) (hcount : fs.length < count)
    (hfaulty : parse size depth bs = .faulty fault) :
    parseItems (parse size depth) count (w ++ bs) = .faulty fault := by
  induction fs generalizing w count with
  | nil =>
    cases h
    obtain ⟨count, rfl⟩ : ∃ k, count = k + 1 := ⟨count - 1, by simp at hcount; omega⟩
    unfold parseItems
    rw [List.nil_append, hfaulty]
  | cons f fs ih =>
    rw [List.length_cons] at hcount
    obtain ⟨count, rfl⟩ : ∃ k, count = k + 1 := ⟨count - 1, by omega⟩
    cases h with
    | cons head tail =>
      unfold parseItems
      rw [List.append_assoc]
      simp only [parse_of_wire head, ih tail (Nat.lt_of_succ_lt_succ hcount)]

theorem Reaches.parse (h : Reaches size depth bs left) (hleft : Refused size left fault) :
    Frame.parse size depth bs = .faulty fault := by
  induction h with
  | start => exact hleft.parse _
  | @item depth body w bs left n items hn opened more each on ih =>
    have hitems : parseItems (Frame.parse size depth) n.toInt.toNat (w ++ bs) = .faulty fault :=
      parseItems_faulty each (by omega) (ih hleft)
    have hsize : ¬n.toInt.toNat > size / 4 := by omega
    rw [parse_line _ hn.noLineEnd]
    unfold Numeral at hn
    simp only [parseAfterLine, hn, if_neg (not_neg_of_lt more), if_neg hsize, itemReader, hitems]
    rfl

/-- A reader of items that finds a fault has read whole items before it. -/
theorem of_parseItems_faulty (h : parseItems (parse size depth) count bs = .faulty fault) :
    ∃ w items later, bs = w ++ later ∧ items.length < count ∧ WireItems size depth w items ∧
      parse size depth later = .faulty fault := by
  induction count generalizing bs with
  | zero => cases h
  | succ count ih =>
    unfold parseItems at h
    split at h
    · rename_i f r hf
      split at h
      · cases h
      · cases h
      · rename_i fault' hfaulty
        obtain rfl := Parsed.faulty.inj h
        obtain ⟨v, rfl, hv⟩ := wire_of_parse hf
        obtain ⟨w, items, later, rfl, hlt, hw, hlater⟩ := ih hfaulty
        exact ⟨v ++ w, f :: items, later, (List.append_assoc ..).symm, Nat.succ_lt_succ hlt, .cons hv hw, hlater⟩
    · cases h
    · rename_i fault' hfaulty
      obtain rfl := Parsed.faulty.inj h
      exact ⟨[], [], bs, rfl, Nat.succ_pos _, .nil, hfaulty⟩

theorem of_parsePayload_faulty {length : Nat} (h : parsePayload length bs = .faulty fault) :
    fault = .payloadUnterminated := by
  unfold parsePayload at h
  split at h
  · cases h
  · exact (Parsed.faulty.inj h).symm
  · cases h

/-- What is found too large behind a line is what the line says, or is found by the reader of the items. -/
theorem of_parseAfterLine_faulty {items : Option (Nat → Bytes → Parsed (List Frame))} {tag : UInt8}
    (hfault : fault = .payloadTooLarge ∨ fault = .arrayTooLarge)
    (h : parseAfterLine size items tag body bs = .faulty fault) :
    Refused size (tag :: body ++ Bytes.crlf ++ bs) fault ∨
      ∃ n read, tag = 42 ∧ Numeral body n ∧ n.toInt ≤ (size / 4 : Nat) ∧ items = some read ∧
        read n.toInt.toNat bs = .faulty fault := by
  unfold parseAfterLine at h
  split_ifs at h with h43 h45 h58 h36 h42
  · split at h
    · cases h
    · obtain rfl := Parsed.faulty.inj h
      simp at hfault
  · subst h36
    split at h
    · rename_i n hn
      split_ifs at h with hneg hbig
      · obtain rfl := Parsed.faulty.inj h
        exact .inl (.payload ⟨hn, List.prefix_append _ _⟩ (by omega))
      · obtain rfl := of_parsePayload_faulty h
        simp at hfault
    · obtain rfl := Parsed.faulty.inj h
      simp at hfault
  · subst h42
    split at h
    · rename_i n hn
      split_ifs at h with hneg hbig
      · obtain rfl := Parsed.faulty.inj h
        exact .inl (.array ⟨hn, List.prefix_append _ _⟩ (by omega))
      · split at h
        · obtain rfl := Parsed.faulty.inj h
          simp at hfault
        · rename_i read
          split at h
          · cases h
          · cases h
          · rename_i fault' hread
            obtain rfl := Parsed.faulty.inj h
            exact .inr ⟨n, read, rfl, hn, by omega, rfl, hread⟩
    · obtain rfl := Parsed.faulty.inj h
      simp at hfault
  · obtain rfl := Parsed.faulty.inj h
    simp at hfault

/-- What is found too large is the first length, or is found among the items of an array. -/
theorem of_parse_faulty (hfault : fault = .payloadTooLarge ∨ fault = .arrayTooLarge)
    (h : parse size depth bs = .faulty fault) :
    Refused size bs fault ∨ ∃ body n rest read, bs = 42 :: body ++ Bytes.crlf ++ rest ∧ Numeral body n ∧
      n.toInt ≤ (size / 4 : Nat) ∧ itemReader size depth = some read ∧ read n.toInt.toNat rest = .faulty fault := by
  obtain ⟨tag, bs, body, r, rfl, hsplit⟩ := exists_line_of_parse h nofun
  obtain ⟨-, rfl⟩ := of_splitLine hsplit
  rw [parse_cons tag hsplit] at h
  rcases of_parseAfterLine_faulty hfault h with hrefused | ⟨n, read, rfl, hn, hopened, hread, hitems⟩
  · exact .inl hrefused
  · exact .inr ⟨body, n, r, read, rfl, hn, hopened, hread, hitems⟩

/-- **A length is refused exactly where the reader comes to stand before one that is too long.** -/
theorem parse_eq_faulty_iff (hfault : fault = .payloadTooLarge ∨ fault = .arrayTooLarge) :
    parse size depth bs = .faulty fault ↔ ∃ left, Reaches size depth bs left ∧ Refused size left fault := by
  constructor
  · intro h
    induction depth generalizing bs with
    | zero =>
      rcases of_parse_faulty hfault h with hrefused | ⟨body, n, rest, read, -, -, -, hread, -⟩
      · exact ⟨bs, .start, hrefused⟩
      · cases hread
    | succ depth ih =>
      rcases of_parse_faulty hfault h with hrefused | ⟨body, n, rest, read, rfl, hn, hopened, hread, hitems⟩
      · exact ⟨bs, .start, hrefused⟩
      · obtain rfl := Option.some.inj hread
        obtain ⟨w, items, later, rfl, hmore, hw, hlater⟩ := of_parseItems_faulty hitems
        obtain ⟨left, hreaches, hrefused⟩ := ih hlater
        exact ⟨left, .item hn hopened (by omega) hw hreaches, hrefused⟩
  · rintro ⟨left, hreaches, hrefused⟩
    exact hreaches.parse hrefused

/-! ### How short a form can be -/

/-- A line has one end. -/
theorem line_unique {body' more more' : Bytes} (h : NoLineEnd body) (h' : NoLineEnd body')
    (heq : body ++ Bytes.crlf ++ more = body' ++ Bytes.crlf ++ more') : body = body' ∧ more = more' := by
  have hsplit : splitLine (body ++ Bytes.crlf ++ more) = some (body, more) := splitLine_of_noLineEnd h
  rw [heq, splitLine_of_noLineEnd h'] at hsplit
  obtain ⟨rfl, rfl⟩ := Prod.mk.inj (Option.some.inj hsplit)
  exact ⟨rfl, rfl⟩

/-- The first line of octets says one thing. -/
theorem Declares.unique {tag tag' : UInt8} {body' more : Bytes} (h : Declares tag body n left)
    (h' : NoLineEnd body') (heq : left = tag' :: body' ++ Bytes.crlf ++ more) : tag = tag' ∧ body = body' := by
  obtain ⟨hn, more', rfl⟩ := h
  obtain ⟨htag, hlines⟩ := List.cons.inj heq
  exact ⟨htag, (line_unique hn.noLineEnd h' hlines).1⟩

theorem Declares.unique_numeral {tag tag' : UInt8} {body' more : Bytes} {n' : Int64} (h : Declares tag body n left)
    (h' : Numeral body' n') (heq : left = tag' :: body' ++ Bytes.crlf ++ more) : tag = tag' ∧ body = body' ∧ n = n' := by
  obtain ⟨htag, rfl⟩ := h.unique h'.noLineEnd heq
  exact ⟨htag, rfl, Option.some.inj (h.1.symm.trans h')⟩

/-- What a form says first, a length of payloads or of arrays, is kept by what it is a form of. -/
theorem Wire.of_payload (hw : Wire size depth w f) (h : Declares 36 body n w) (hn : 0 ≤ n.toInt) :
    ∃ payload, f = .bulk payload ∧ n.toInt = payload.length ∧
      w = 36 :: body ++ Bytes.crlf ++ payload ++ Bytes.crlf := by
  cases hw with
  | simple hline => cases (h.unique hline (List.append_nil _).symm).1
  | error hline => cases (h.unique hline (List.append_nil _).symm).1
  | integer hm => cases (h.unique hm.noLineEnd (List.append_nil _).symm).1
  | nilBulk hm hneg =>
    obtain ⟨-, rfl, rfl⟩ := h.unique_numeral hm (List.append_nil _).symm
    rw [Int64.lt_iff_toInt_lt] at hneg
    exact absurd hneg (by simpa using hn)
  | bulk hm hlen hfits =>
    obtain ⟨-, rfl, rfl⟩ := h.unique_numeral hm (List.append_assoc ..)
    exact ⟨_, rfl, hlen, rfl⟩
  | nilArray hm hneg => cases (h.unique hm.noLineEnd (List.append_nil _).symm).1
  | array hm hlen hfits hitems => cases (h.unique hm.noLineEnd rfl).1

theorem Wire.of_array (hw : Wire size depth w f) (h : Declares 42 body n w) (hn : 0 ≤ n.toInt) :
    ∃ inner w' items, f = .array items ∧ n.toInt = items.length ∧ WireItems size inner w' items ∧
      w = 42 :: body ++ Bytes.crlf ++ w' := by
  cases hw with
  | simple hline => cases (h.unique hline (List.append_nil _).symm).1
  | error hline => cases (h.unique hline (List.append_nil _).symm).1
  | integer hm => cases (h.unique hm.noLineEnd (List.append_nil _).symm).1
  | nilBulk hm hneg => cases (h.unique hm.noLineEnd (List.append_nil _).symm).1
  | bulk hm hlen hfits => cases (h.unique hm.noLineEnd (List.append_assoc ..)).1
  | nilArray hm hneg =>
    obtain ⟨-, rfl, rfl⟩ := h.unique_numeral hm (List.append_nil _).symm
    rw [Int64.lt_iff_toInt_lt] at hneg
    exact absurd hneg (by simpa using hn)
  | array hm hlen hfits hitems =>
    obtain ⟨-, rfl, rfl⟩ := h.unique_numeral hm rfl
    exact ⟨_, _, _, rfl, hlen, hitems, rfl⟩

/-- **Every form of a payload of this length is longer than the payload.** -/
theorem Wire.payload_length_lt (hw : Wire size depth w f) (h : Declares 36 body n w) (hn : 0 ≤ n.toInt) :
    n.toInt < w.length := by
  obtain ⟨payload, -, hlen, rfl⟩ := hw.of_payload h hn
  simp only [List.length_append, List.length_cons]
  omega

/-- Every form of an array has three octets at least for each of its items. -/
theorem Wire.array_length_le {m : Nat} (hw : Wire size depth w f) (h : Declares 42 body n w) (hn : n.toInt = m) :
    body.length + 3 + 3 * m ≤ w.length := by
  obtain ⟨inner, w', items, -, hlen, hitems, rfl⟩ := hw.of_array h (by omega)
  have hthree := hitems.three_mul_le
  simp only [Bytes.crlf, List.length_append, List.length_cons, List.length_nil]
  omega

/-- Lines with nothing in them. -/
theorem wireItems_empty_lines (count : Nat) :
    WireItems size depth (List.replicate count (43 :: Bytes.crlf)).flatten (List.replicate count (.simple [])) := by
  induction count with
  | zero => exact .nil
  | succ count ih => exact .cons (.simple noLineEnd_nil) ih

/-- **An array fits exactly if there is room for as many lines with nothing in them.** -/
theorem exists_fitting_array_iff {m : Nat} (h : Numeral body n) (hn : n.toInt = m) :
    (∃ limit depth w f, Wire limit depth w f ∧ Declares 42 body n w ∧ w.length ≤ size) ↔
      body.length + 3 + 3 * m ≤ size := by
  constructor
  · rintro ⟨limit, depth, w, f, hw, hdeclares, hfits⟩
    exact (hw.array_length_le hdeclares hn).trans hfits
  · intro hroom
    have hitems : WireItems (4 * m) 0 _ (List.replicate m (.simple [])) := wireItems_empty_lines m
    have hlen : n.toInt = (List.replicate m (Frame.simple [])).length := by rw [List.length_replicate, hn]
    have harray := Wire.array h hlen (by simp) hitems
    refine ⟨4 * m, 1, _, _, harray, ⟨h, List.prefix_append _ _⟩, ?_⟩
    simp [Bytes.crlf]
    omega

/-! ### Frames that were written -/

theorem Unbroken.item (h : Unbroken (.array fs)) (mem : f ∈ fs) : Unbroken f :=
  fun line hline => h line (hline.imp (.item mem) (.item mem))

theorem three_le_encode (f : Frame) : 3 ≤ f.encode.length := by
  cases f <;> simp only [encode, taggedLine, Bytes.crlf, List.length_append, List.length_cons, List.length_nil] <;>
    omega

/-- Only a line with nothing in it has a form of three octets. -/
theorem four_le_encode (hsimple : f ≠ .simple []) (herror : f ≠ .error []) : 4 ≤ f.encode.length := by
  have hdigits (n : Nat) : 0 < (Decimal.digits n).length :=
    List.length_pos_iff.2 (Decimal.digitsBefore_ne_nil n [])
  have hnumber (n : Int) : 0 < (Decimal.ofInt n).length := by
    cases n with
    | ofNat n => exact hdigits n
    | negSucc n => exact Nat.succ_pos _
  cases f with
  | simple line | error line =>
    have hline : 0 < line.length := List.length_pos_iff.2 fun hnil => by simp_all
    simp only [encode, taggedLine, Bytes.crlf, List.length_append, List.length_cons, List.length_nil]
    omega
  | integer n =>
    have hpos := hnumber n.toInt
    simp only [encode, taggedLine, Bytes.crlf, List.length_append, List.length_cons, List.length_nil]
    omega
  | nilBulk | nilArray =>
    have hpos := hnumber (-1)
    simp only [encode, taggedLine, Bytes.crlf, List.length_append, List.length_cons, List.length_nil]
    omega
  | bulk payload =>
    simp only [encode, taggedLine, Bytes.crlf, List.length_append, List.length_cons, List.length_nil]
    omega
  | array items =>
    have hpos := hdigits items.length
    simp only [encode, taggedLine, Bytes.crlf, List.length_append, List.length_cons, List.length_nil]
    omega

/-- Items that each have some octets have so many together. -/
theorem mul_length_le_encodeAll {k : Nat} (h : ∀ f ∈ fs, k ≤ f.encode.length) :
    k * fs.length ≤ (encodeAll fs).length := by
  induction fs with
  | nil => exact Nat.zero_le _
  | cons f fs ih =>
    obtain ⟨hhead, htail⟩ := List.forall_mem_cons.1 h
    calc k * (f :: fs).length = k + k * fs.length := by rw [List.length_cons, Nat.mul_succ, Nat.add_comm]
      _ ≤ f.encode.length + (encodeAll fs).length := Nat.add_le_add hhead (ih htail)
      _ = (encodeAll (f :: fs)).length := by rw [encodeAll, List.length_append]

theorem length_encode_le_of_mem (mem : f ∈ fs) : f.encode.length ≤ (encodeAll fs).length := by
  induction fs with
  | nil => cases mem
  | cons g fs ih =>
    rw [encodeAll, List.length_append]
    rcases List.mem_cons.1 mem with rfl | hmem
    · exact Nat.le_add_right _ _
    · exact (ih hmem).trans (Nat.le_add_left _ _)

/-- What stands in a frame is no longer than the frame. -/
theorem Within.length_le {g : Frame} (h : Within g f) : g.encode.length ≤ f.encode.length := by
  induction h with
  | self => exact Nat.le_refl _
  | item mem _ ih =>
    rw [encode, List.length_append]
    exact (ih.trans (length_encode_le_of_mem mem)).trans (Nat.le_add_left _ _)

/-- Where no line with nothing in it is an item, arrays that fit are short. -/
theorem short_of_no_empty_line (hfits : f.encode.length ≤ size)
    (hlines : ∀ items, Within (.array items) f → .simple [] ∉ items ∧ .error [] ∉ items) {items : List Frame}
    (hwithin : Within (.array items) f) : items.length ≤ size / 4 := by
  obtain ⟨hsimple, herror⟩ := hlines items hwithin
  have hfour : 4 * items.length ≤ (encodeAll items).length := by
    refine mul_length_le_encodeAll fun g hg => four_le_encode ?_ ?_
    · rintro rfl
      exact hsimple hg
    · rintro rfl
      exact herror hg
  have hle := hwithin.length_le
  rw [encode, List.length_append] at hle
  omega

mutual

/-- A frame whose arrays are short can be written. -/
theorem writable_of_short : ∀ {f : Frame}, Unbroken f →
    (∀ items, Within (.array items) f → items.length ≤ size / 4) → Writable size f
  | .simple line, hlines, _ => hlines line (.inl .self)
  | .error line, hlines, _ => hlines line (.inr .self)
  | .array items, hlines, hshort =>
    ⟨hshort items .self, writableAll_of_short (fun _ hf => hlines.item hf) fun _ hf _ h => hshort _ (.item hf h)⟩
  | .integer _, _, _ | .bulk _, _, _ | .nilBulk, _, _ | .nilArray, _, _ => trivial

theorem writableAll_of_short : ∀ {fs : List Frame}, (∀ f ∈ fs, Unbroken f) →
    (∀ f ∈ fs, ∀ items, Within (.array items) f → items.length ≤ size / 4) → WritableAll size fs
  | [], _, _ => trivial
  | f :: _, hlines, hshort =>
    ⟨writable_of_short (hlines f (List.mem_cons_self ..)) (hshort f (List.mem_cons_self ..)),
      writableAll_of_short (fun g hg => hlines g (List.mem_cons_of_mem _ hg))
        fun g hg => hshort g (List.mem_cons_of_mem _ hg)⟩

end

mutual

/-- The reader comes to stand before the first array that is too long. -/
theorem reaches_long : ∀ {depth : Nat} {f : Frame}, Unbroken f → f.depth ≤ depth → f.encode.length ≤ size →
    f.encode.length < 2 ^ 63 → (∃ items, Within (.array items) f ∧ size / 4 < items.length) → ∀ rest,
    ∃ left, Reaches size depth (f.encode ++ rest) left ∧ Refused size left .arrayTooLarge
  | _, .simple _, _, _, _, _, hlong, _ | _, .error _, _, _, _, _, hlong, _
  | _, .integer _, _, _, _, _, hlong, _ | _, .bulk _, _, _, _, _, hlong, _
  | _, .nilBulk, _, _, _, _, hlong, _ | _, .nilArray, _, _, _, _, hlong, _ => by
    obtain ⟨items, hwithin, -⟩ := hlong
    cases hwithin
  | depth, .array items, hlines, hdepth, hfits, hshort, hlong, rest => by
    obtain ⟨inner, rfl⟩ : ∃ inner, depth = inner + 1 := ⟨depth - 1, by rw [Frame.depth] at hdepth; omega⟩
    have hthree : 3 * items.length ≤ (encodeAll items).length :=
      mul_length_le_encodeAll fun f _ => three_le_encode f
    rw [encode, List.length_append] at hfits hshort
    obtain ⟨hnumeral, hvalue⟩ := numeral_digits (show items.length < 2 ^ 63 by omega)
    rw [encode, List.append_assoc]
    by_cases hopened : items.length ≤ size / 4
    · have hinner : ∃ f ∈ items, ∃ long, Within (.array long) f ∧ size / 4 < long.length := by
        obtain ⟨long, hwithin, hlt⟩ := hlong
        cases hwithin with
        | self => exact absurd hopened (Nat.not_le.2 hlt)
        | item mem h => exact ⟨_, mem, long, h, hlt⟩
      obtain ⟨w, before, later, left, heq, hlt, hw, hreaches, hrefused⟩ :=
        reaches_long_item (fun _ hf => hlines.item hf) (Nat.le_of_succ_le_succ hdepth) (by omega) (by omega) hinner rest
      rw [heq]
      exact ⟨left, .item hnumeral (by omega) (by omega) hw hreaches, hrefused⟩
    · exact ⟨_, .start, .array ⟨hnumeral, List.prefix_append _ _⟩ (by omega)⟩

theorem reaches_long_item : ∀ {depth : Nat} {fs : List Frame}, (∀ f ∈ fs, Unbroken f) → depthAll fs ≤ depth →
    (encodeAll fs).length ≤ size → (encodeAll fs).length < 2 ^ 63 →
    (∃ f ∈ fs, ∃ items, Within (.array items) f ∧ size / 4 < items.length) → ∀ rest,
    ∃ w before later left, encodeAll fs ++ rest = w ++ later ∧ before.length < fs.length ∧
      WireItems size depth w before ∧ Reaches size depth later left ∧ Refused size left .arrayTooLarge
  | _, [], _, _, _, _, hlong, _ => by
    obtain ⟨f, hf, -⟩ := hlong
    cases hf
  | depth, f :: fs, hlines, hdepth, hfits, hshort, hlong, rest => by
    rw [depthAll] at hdepth
    obtain ⟨hdepth, hdepths⟩ := Nat.max_le.1 hdepth
    rw [encodeAll, List.length_append] at hfits hshort
    have hline := hlines f (List.mem_cons_self ..)
    rw [encodeAll, List.append_assoc]
    by_cases hhead : ∃ items, Within (.array items) f ∧ size / 4 < items.length
    · obtain ⟨left, hreaches, hrefused⟩ :=
        reaches_long hline hdepth (by omega) (by omega) hhead (encodeAll fs ++ rest)
      exact ⟨[], [], _, left, rfl, Nat.succ_pos _, .nil, hreaches, hrefused⟩
    · have hform : Wire size depth f.encode f := by
        have harrays : ∀ items, Within (.array items) f → items.length ≤ size / 4 :=
          fun items hwithin => Nat.not_lt.1 fun hlt => hhead ⟨items, hwithin, hlt⟩
        exact wire_encode (writable_of_short hline harrays) hdepth (by omega) (by omega)
      have htail : ∃ g ∈ fs, ∃ items, Within (.array items) g ∧ size / 4 < items.length := by
        obtain ⟨g, hg, hlong⟩ := hlong
        rcases List.mem_cons.1 hg with rfl | hg
        · exact absurd hlong hhead
        · exact ⟨g, hg, hlong⟩
      obtain ⟨w, before, later, left, heq, hlt, hw, hreaches, hrefused⟩ :=
        reaches_long_item (fun g hg => hlines g (List.mem_cons_of_mem _ hg)) hdepths (by omega) (by omega) htail rest
      refine ⟨f.encode ++ w, f :: before, later, left, ?_, Nat.succ_lt_succ hlt, .cons hform hw, hreaches, hrefused⟩
      rw [heq, List.append_assoc]

end

end SlotRouter.Frame

namespace SlotRouter.Decoder

open SlotRouter.Frame (Reaches Refused Wire Declares Numeral Within)

theorem decode_eq_faulty_iff {d : Decoder} {fault : Fault} (fits : d.buffer.length ≤ d.limits.size) :
    d.decode.1 = .faulty fault ↔ Frame.parse d.limits.size d.limits.depth d.buffer = .faulty fault := by
  cases hparse : Frame.parse d.limits.size d.limits.depth d.buffer with
  | done f rest => simp [decode_of_done fits hparse]
  | incomplete => simp [decode_of_incomplete fits hparse]
  | faulty fault' => simp [decode_of_faulty fits hparse]

/-- **What is refused before it has come.** Octets that fit are refused for a length exactly if the reader comes
to stand before a payload longer than the limit or an array of more items than a fourth of it. For a payload
this is sound: whatever form begins with this length is longer than the limit. For an array it is not, since a
line with nothing in it takes three octets: a form that fits begins with this length exactly if there is room for
as many such lines. So a frame that was written, has no line end in a line, is not too deep and fits, is read and
leaves nothing behind if every array in it has at most a fourth of the limit as items; it is refused if one has
more; and none has more unless a line with nothing in it is an item of an array. -/
theorem refuses_early (limits : Frame.Limits) :
    (∀ octets fault, octets.length ≤ limits.size → fault = .payloadTooLarge ∨ fault = .arrayTooLarge →
      (({ limits, buffer := octets } : Decoder).decode.1 = .faulty fault ↔
        ∃ left, Reaches limits.size limits.depth octets left ∧ Refused limits.size left fault)) ∧
    (∀ body (n : Int64), limits.size < n.toInt → ∀ size depth w f, Wire size depth w f → Declares 36 body n w →
      limits.size < w.length) ∧
    (∀ body n (m : Nat), Numeral body n → n.toInt = m →
      ((∃ size depth w f, Wire size depth w f ∧ Declares 42 body n w ∧ w.length ≤ limits.size) ↔
        body.length + 3 + 3 * m ≤ limits.size)) ∧
    ∀ f : Frame, f.Unbroken → f.depth ≤ limits.depth → f.encode.length ≤ limits.size → f.encode.length < 2 ^ 63 →
      ((∀ items, Within (.array items) f → items.length ≤ limits.size / 4) →
        (({ limits } : Decoder).append f.encode).decode = (.frame f, { limits })) ∧
      (∀ items, Within (.array items) f → limits.size / 4 < items.length →
        (({ limits } : Decoder).append f.encode).decode.1 = .faulty .arrayTooLarge) ∧
      ((∀ items, Within (.array items) f → .simple [] ∉ items ∧ .error [] ∉ items) →
        (({ limits } : Decoder).append f.encode).decode = (.frame f, { limits })) := by
  have hrefused : ∀ octets fault, octets.length ≤ limits.size → fault = .payloadTooLarge ∨ fault = .arrayTooLarge →
      (({ limits, buffer := octets } : Decoder).decode.1 = .faulty fault ↔
        ∃ left, Reaches limits.size limits.depth octets left ∧ Refused limits.size left fault) := by
    intro octets fault hfits hfault
    rw [← Frame.parse_eq_faulty_iff hfault]
    exact decode_eq_faulty_iff hfits
  refine ⟨hrefused, ?_, fun body n m => Frame.exists_fitting_array_iff, ?_⟩
  · intro body n hlong size depth w f hw hdeclares
    have hlt := hw.payload_length_lt hdeclares (by omega)
    omega
  · intro f hlines hdepth hfits hsmall
    have hread (hshort : ∀ items, Within (.array items) f → items.length ≤ limits.size / 4) :
        (({ limits } : Decoder).append f.encode).decode = (.frame f, { limits }) := by
      have hform := Frame.wire_encode (Frame.writable_of_short hlines hshort) hdepth hfits hsmall
      exact (decode_eq_frame_iff hfits).2 ⟨f.encode, (List.append_nil _).symm, hform⟩
    refine ⟨hread, fun items hwithin hlong => ?_, fun hempty => hread fun items hwithin => ?_⟩
    · obtain ⟨left, hleft⟩ := Frame.reaches_long hlines hdepth hfits hsmall ⟨items, hwithin, hlong⟩ []
      rw [List.append_nil] at hleft
      exact (hrefused f.encode .arrayTooLarge hfits (.inr rfl)).2 ⟨left, hleft⟩
    · exact Frame.short_of_no_empty_line hfits hempty hwithin

/-- Five lines with nothing in them. -/
def emptyLines : Frame := .array (List.replicate 5 (.simple []))

theorem within_emptyLines {items : List Frame} (h : Within (.array items) emptyLines) :
    items = List.replicate 5 (.simple []) := by
  cases h with
  | self => rfl
  | item mem hinner =>
    obtain rfl := List.eq_of_mem_replicate mem
    cases hinner

/-- Nineteen octets are refused where nineteen may come, and read where twenty may. -/
theorem refuses_early_empty_lines :
    emptyLines.encode = Bytes.ofText "*5\r\n+\r\n+\r\n+\r\n+\r\n+\r\n" ∧ emptyLines.encode.length = 19 ∧
    (({ limits := { size := 19 } } : Decoder).append emptyLines.encode).decode.1 = .faulty .arrayTooLarge ∧
    (({ limits := { size := 20 } } : Decoder).append emptyLines.encode).decode =
      (.frame emptyLines, { limits := { size := 20 } }) := by
  have hoctets : emptyLines.encode = Bytes.ofText "*5\r\n+\r\n+\r\n+\r\n+\r\n+\r\n" := by cbv
  have hlength : emptyLines.encode.length = 19 := by cbv
  have hunbroken : emptyLines.Unbroken := by
    intro line hline
    rcases hline with hsimple | herror
    · cases hsimple with
      | item mem hinner =>
        obtain rfl := List.eq_of_mem_replicate mem
        cases hinner
        exact Frame.noLineEnd_nil
    · cases herror with
      | item mem hinner =>
        obtain rfl := List.eq_of_mem_replicate mem
        cases hinner
  have hdepth : emptyLines.depth ≤ 32 := by decide
  have hsmall : emptyLines.encode.length < 2 ^ 63 := hlength.trans_lt (by decide)
  obtain ⟨-, -, -, hnineteen⟩ := refuses_early { size := 19 }
  obtain ⟨-, -, -, htwenty⟩ := refuses_early { size := 20 }
  obtain ⟨-, hlong, -⟩ := hnineteen emptyLines hunbroken hdepth hlength.le hsmall
  obtain ⟨hshort, -, -⟩ := htwenty emptyLines hunbroken hdepth (hlength.trans_le (by decide)) hsmall
  refine ⟨hoctets, hlength, hlong _ .self (by decide), hshort fun items hwithin => ?_⟩
  rw [within_emptyLines hwithin]
  decide

end SlotRouter.Decoder
