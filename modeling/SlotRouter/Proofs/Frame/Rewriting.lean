import Mathlib
import SlotRouter.Proofs.Frame.RoundTrip

/-!
# Writing what was read

A frame has many forms: a number may have a plus sign and zeros in front, and any negative length says
nothing. What is written for a frame that was read is again a form of it, under the same limits, and no
form of the frame is shorter (`Frame.Wire.written`). So whoever writes what he reads comes to the same frame
in fewer octets at most, and whoever does it twice has done it once.

Nothing is asked of the frame: that no line of it holds a line end, and that its arrays are neither too
long nor too deep, is known from its having been read.

Key definition: `Decoder.rewritten?`. Key theorems: `Decimal.Signed.length_le`, `Frame.Wire.written`,
`Decoder.rewriting_keeps_the_frame`.
-/

namespace SlotRouter

/-! ### Numerals -/

namespace Decimal

variable {bs : Bytes} {n k : Nat}

theorem length_digitsBefore_le (hpos : 0 < k) (h : n < 10 ^ k) (tail : Bytes) :
    (digitsBefore n tail).length ≤ k + tail.length := by
  induction k generalizing n tail with
  | zero => omega
  | succ k ih =>
    unfold digitsBefore
    by_cases hone : n < 10
    · rw [if_pos hone, List.length_cons]
      omega
    · rw [if_neg hone]
      have hmore : 0 < k := by
        by_contra hzero
        obtain rfl : k = 0 := by omega
        omega
      have hrest : n / 10 < 10 ^ k := by
        rw [Nat.pow_succ] at h
        omega
      have hle := ih hmore hrest (UInt8.ofNat (48 + n % 10) :: tail)
      rw [List.length_cons] at hle
      omega

/-- The digits that are written for a number are the fewest that stand for it. -/
theorem Digits.length_le (h : Digits bs n) : (Decimal.digits n).length ≤ bs.length := by
  have hpos : 0 < bs.length := List.length_pos_iff.2 h.ne_nil
  have hlt : n < 10 ^ bs.length := by
    have hplaces : ∀ d ∈ bs.reverse.map fun b => b.toNat - 48, d < 10 := by
      intro d hd
      obtain ⟨b, hb, rfl⟩ := List.mem_map.1 hd
      have hdigit := h.digits b (List.mem_reverse.1 hb)
      have htop : b.toNat ≤ 57 := hdigit.2
      omega
    have hvalue := Nat.ofDigits_lt_base_pow_length (b := 10) (by omega) hplaces
    rwa [← h.value, List.length_map, List.length_reverse] at hvalue
  exact length_digitsBefore_le hpos hlt []

/-- **No numeral of a number is shorter than the one that is written.** -/
theorem Signed.length_le {n : Int} (h : Signed bs n) : (ofInt n).length ≤ bs.length := by
  cases h with
  | plain h => exact h.length_le
  | plus h => exact h.length_le.trans (Nat.le_succ _)
  | @minus bs m h =>
    cases m with
    | zero => exact h.length_le.trans (Nat.le_succ _)
    | succ m =>
      have hdigits : (Decimal.digits (m + 1)).length ≤ bs.length := h.length_le
      exact Nat.succ_le_succ hdigits

end Decimal

/-! ### Frames -/

namespace Frame

variable {size : Nat} {body : Bytes} {n : Int64}

theorem Numeral.length_le (h : Numeral body n) : (Decimal.ofInt n.toInt).length ≤ body.length :=
  (Decimal.int64?_eq_some_iff.1 h).length_le

/-- The numeral of a length, written again. -/
theorem Numeral.written {m : Nat} (h : Numeral body n) (hlen : n.toInt = m) :
    Numeral (Decimal.digits m) (Int64.ofNat m) ∧ (Int64.ofNat m).toInt = m ∧
      (Decimal.digits m).length ≤ body.length := by
  have hsmall : m < 2 ^ 63 := by
    have hlt := n.toInt_lt
    omega
  obtain ⟨hnumeral, hvalue⟩ := numeral_digits hsmall
  have hle := h.length_le
  rw [hlen] at hle
  exact ⟨hnumeral, hvalue, hle⟩

/-- A numeral of a negative number is at least as long as the one that stands for nothing. -/
theorem Numeral.negative_length_le (h : Numeral body n) (hneg : n < 0) :
    (Decimal.ofInt (-1)).length ≤ body.length := by
  have hlt : n.toInt < 0 := by
    rw [Int64.lt_iff_toInt_lt] at hneg
    exact hneg
  have hwritten : (Decimal.ofInt (-1)).length ≤ 2 := by
    have hnumeral : Decimal.signed? [45, 49] = some (-1) := rfl
    exact (Decimal.signed?_eq_some_iff.1 hnumeral).length_le
  have hle := h.length_le
  obtain ⟨m, hm⟩ := Int.eq_negSucc_of_lt_zero hlt
  rw [hm] at hle
  have hdigits : 0 < (Decimal.digits (m + 1)).length := List.length_pos_iff.2 (Decimal.digitsBefore_ne_nil _ _)
  calc (Decimal.ofInt (-1)).length ≤ 2 := hwritten
    _ ≤ (Decimal.digits (m + 1)).length + 1 := by omega
    _ ≤ body.length := hle

mutual

/-- **What is written for a frame that was read is a form of it**, and no form is shorter. -/
theorem Wire.written : ∀ {depth : Nat} {w : Bytes} {f : Frame}, Wire size depth w f →
    Wire size depth f.encode f ∧ f.encode.length ≤ w.length
  | _, _, _, .simple h => ⟨.simple h, Nat.le_refl _⟩
  | _, _, _, .error h => ⟨.error h, Nat.le_refl _⟩
  | _, _, _, @Wire.integer _ _ body n h => by
    have hle := h.length_le
    refine ⟨.integer (Decimal.int64?_ofInt n), ?_⟩
    simp only [encode, taggedLine, List.length_cons, List.length_append]
    omega
  | _, _, _, @Wire.nilBulk _ _ body n h hneg => by
    have hle := h.negative_length_le hneg
    refine ⟨.nilBulk (Decimal.int64?_ofInt (-1)) (by decide), ?_⟩
    simp only [encode, taggedLine, List.length_cons, List.length_append]
    omega
  | _, _, _, @Wire.nilArray _ _ body n h hneg => by
    have hle := h.negative_length_le hneg
    refine ⟨.nilArray (Decimal.int64?_ofInt (-1)) (by decide), ?_⟩
    simp only [encode, taggedLine, List.length_cons, List.length_append]
    omega
  | _, _, _, @Wire.bulk _ _ body payload n h hlen hfits => by
    obtain ⟨hnumeral, hvalue, hle⟩ := h.written hlen
    refine ⟨.bulk hnumeral hvalue hfits, ?_⟩
    simp only [encode, taggedLine, List.length_cons, List.length_append]
    omega
  | _, _, _, @Wire.array _ _ body w n items h hlen hfits hitems => by
    obtain ⟨hnumeral, hvalue, hle⟩ := h.written hlen
    obtain ⟨hforms, hshort⟩ := hitems.written
    refine ⟨.array hnumeral hvalue hfits hforms, ?_⟩
    simp only [encode, taggedLine, List.length_cons, List.length_append]
    omega

theorem WireItems.written : ∀ {depth : Nat} {w : Bytes} {fs : List Frame}, WireItems size depth w fs →
    WireItems size depth (encodeAll fs) fs ∧ (encodeAll fs).length ≤ w.length
  | _, _, _, .nil => ⟨.nil, Nat.le_refl _⟩
  | _, _, _, @WireItems.cons _ _ v w f fs head tail => by
    obtain ⟨hform, hle⟩ := head.written
    obtain ⟨hforms, hles⟩ := tail.written
    refine ⟨.cons hform hforms, ?_⟩
    rw [encodeAll, List.length_append, List.length_append]
    exact Nat.add_le_add hle hles

end

end Frame

/-! ### Reading again -/

namespace Decoder

variable {d d' : Decoder} {f : Frame}

/-- What is written for the frame in front of the octets, if there is one. -/
def rewritten? (limits : Frame.Limits) (octets : Bytes) : Option Bytes :=
  match ({ limits, buffer := octets } : Decoder).decode with
  | (.frame f, _) => some f.encode
  | (.incomplete, _) | (.faulty _, _) => none

theorem rewritten?_of_frame {limits : Frame.Limits} {octets : Bytes}
    (h : ({ limits, buffer := octets } : Decoder).decode = (.frame f, d')) :
    rewritten? limits octets = some f.encode := by
  unfold rewritten?
  rw [h]

/-- **Writing what was read keeps the frame.** When a frame is read, the octets that it took are at least as
many as are written for it; from what is written a fresh decoder with the same limits reads the same frame
and has nothing left; and so what is written for what was written is the same again. -/
theorem rewriting_keeps_the_frame (h : d.decode = (.frame f, d')) :
    (∃ taken, d.buffer = taken ++ d'.buffer ∧ f.encode.length ≤ taken.length) ∧
    (({ limits := d.limits } : Decoder).append f.encode).decode = (.frame f, { limits := d.limits }) ∧
    rewritten? d.limits d.buffer = some f.encode ∧
    ∀ octets, rewritten? d.limits d.buffer = some octets → rewritten? d.limits octets = some octets := by
  obtain ⟨taken, hbuffer, hform⟩ := wire_of_decode h
  obtain ⟨hwritten, hshort⟩ := hform.written
  have hfits : f.encode.length ≤ d.limits.size := by
    have hread := (of_decode_frame h).1
    rw [hbuffer, List.length_append] at hread
    omega
  have hagain : (({ limits := d.limits } : Decoder).append f.encode).decode = (.frame f, { limits := d.limits }) := by
    have hbehind : f.encode = f.encode ++ [] := (List.append_nil _).symm
    exact (decode_eq_frame_iff hfits).2 ⟨f.encode, hbehind, hwritten⟩
  have honce : rewritten? d.limits d.buffer = some f.encode := rewritten?_of_frame h
  refine ⟨⟨taken, hbuffer, hshort⟩, hagain, honce, fun octets hoctets => ?_⟩
  obtain rfl := Option.some.inj (honce.symm.trans hoctets)
  exact rewritten?_of_frame hagain

/-- An array of a nil payload, a number, a line with half a line end and a nil array, in forms that nobody
writes, and half of another frame. -/
def longhand : Decoder := { buffer := Bytes.ofText "*+04\r\n$-30\r\n:-007\r\n+a\r\r\n*-01\r\n$1\r\n" }

/-- The frame is read from 30 octets and written in 24. -/
theorem rewriting_keeps_the_frame_longhand :
    longhand.decode = (.frame (.array [.nilBulk, .integer (-7), .ofText "a\r", .nilArray]),
      { longhand with buffer := Bytes.ofText "$1\r\n" }) ∧
    rewritten? longhand.limits longhand.buffer = some (Bytes.ofText "*4\r\n$-1\r\n:-7\r\n+a\r\r\n*-1\r\n") ∧
    rewritten? longhand.limits (Bytes.ofText "*4\r\n$-1\r\n:-7\r\n+a\r\r\n*-1\r\n") =
      some (Bytes.ofText "*4\r\n$-1\r\n:-7\r\n+a\r\r\n*-1\r\n") := by
  have hread : longhand.decode = (.frame (.array [.nilBulk, .integer (-7), .ofText "a\r", .nilArray]),
      { longhand with buffer := Bytes.ofText "$1\r\n" }) := by
    cbv
  have hshort : (Frame.array [.nilBulk, .integer (-7), .ofText "a\r", .nilArray]).encode =
      Bytes.ofText "*4\r\n$-1\r\n:-7\r\n+a\r\r\n*-1\r\n" := by
    cbv
  obtain ⟨-, -, honce, hagain⟩ := rewriting_keeps_the_frame hread
  rw [hshort] at honce
  exact ⟨hread, honce, hagain _ honce⟩

end Decoder
end SlotRouter
