import SlotRouter.Proofs.Ipv6Text
import SlotRouter.Proofs.Readback
import SlotRouter.Seed.Url

/-!
# Hosts that URLs name

Whatever the text, the host that is read from a URL without a special scheme is in a normal form: visible characters
other than delimiters, or an IPv6 address (`Url.normal_of_ofChars`). A host in normal form that is written into a
URL is read as that host, with the port that is written behind it (`Url.ofChars_shown`): percent signs are not
encoded again, and the canonical text of an IPv6 address is read as the address.

Key definitions: `Url.IsHostChar`, `Url.Host.Normal`, `Url.Host.shown`. Key theorems: `Url.normal_of_ofChars`,
`Url.ofChars_shown`.
-/

namespace SlotRouter.Url

variable {c : Char} {cs text rest scheme : List Char} {host : Host} {port : Option Nat} {p : Nat}

/-! ### Hosts -/

/-- A character that an opaque host may show: visible, in ASCII, and no delimiter. -/
def IsHostChar (c : Char) : Prop := ' ' < c ∧ c < '\x7F' ∧ isForbidden c = false

instance (c : Char) : Decidable (IsHostChar c) := inferInstanceAs (Decidable (_ ∧ _ ∧ _))

/-- The host is in the form in which a URL gives it. -/
inductive Host.Normal : Host → Prop where
  | name {text : List Char} (ne_nil : text ≠ []) (plain : ∀ c ∈ text, IsHostChar c) : Normal (.name text)
  | ipv6 (groups : Ipv6.Groups) : Normal (.ipv6 groups)

/-- The host as it stands in a URL. -/
def Host.shown : Host → List Char
  | .name text => text
  | .ipv6 groups => '[' :: (Ipv6.toChars groups ++ [']'])

theorem IsHostChar.ne (hc : IsHostChar c) {d : Char} (hd : isForbidden d = true) : c ≠ d := by
  rintro rfl
  rw [hc.2.2] at hd
  cases hd

/-- A percent sign and capital hexadecimal digits are characters of hosts. -/
theorem isHostChar_percentEncoded {d : Char} (hd : d ∈ percentEncoded c) : IsHostChar d := by
  have hdigit : ∀ n < 16, IsHostChar n.digitChar.toUpper := by decide
  obtain ⟨b, -, hb⟩ := List.mem_flatMap.1 hd
  have hbound := b.toNat_lt
  rcases List.mem_cons.1 hb with rfl | hb
  · decide
  · rcases List.mem_pair.1 hb with rfl | rfl
    · exact hdigit _ (by omega)
    · exact hdigit _ (by omega)

theorem isHostChar_hostChar (hc : isForbidden c = false) {d : Char} (hd : d ∈ hostChar c) : IsHostChar d := by
  unfold hostChar at hd
  split_ifs at hd with hencoded
  · exact isHostChar_percentEncoded hd
  · obtain rfl := List.mem_singleton.1 hd
    obtain ⟨hlow, hhigh⟩ := not_or.1 hencoded
    have hspace : ' ' ≠ d := by
      rintro rfl
      cases hc
    exact ⟨lt_of_le_of_ne (not_lt.1 hlow) hspace, not_le.1 hhigh, hc⟩

theorem hostChar_ne_nil (c : Char) : hostChar c ≠ [] := by
  unfold hostChar
  split_ifs
  · have hoctets : String.utf8EncodeChar c ≠ [] :=
      List.ne_nil_of_length_pos (String.length_utf8EncodeChar c ▸ c.utf8Size_pos)
    obtain ⟨b, bs, hoctets⟩ := List.exists_cons_of_ne_nil hoctets
    rw [percentEncoded, hoctets]
    exact List.cons_ne_nil _ _
  · exact List.cons_ne_nil _ _

/-- **What is in normal form is not encoded again.** -/
theorem flatMap_hostChar (h : ∀ c ∈ cs, IsHostChar c) : cs.flatMap hostChar = cs := by
  induction cs with
  | nil => rfl
  | cons c cs ih =>
    obtain ⟨hc, hcs⟩ := List.forall_mem_cons.1 h
    have hplain : hostChar c = [c] := if_neg (not_or.2 ⟨not_lt.2 hc.1.le, not_le.2 hc.2.1⟩)
    rw [List.flatMap_cons, hplain, ih hcs]
    rfl

theorem normal_of_readOpaque (hne : text ≠ []) (h : readOpaque text = .ok host) : host.Normal := by
  unfold readOpaque at h
  split_ifs at h with hforbidden
  cases h
  have hallowed : ∀ c ∈ text, isForbidden c = false := by simpa using hforbidden
  refine .name ?_ fun d hd => ?_
  · obtain ⟨c, cs, rfl⟩ := List.exists_cons_of_ne_nil hne
    simp [hostChar_ne_nil]
  · obtain ⟨c, hc, hd⟩ := List.mem_flatMap.1 hd
    exact isHostChar_hostChar (hallowed c hc) hd

/-- **The host of a text is in normal form**, unless it has to be a domain name. -/
theorem normal_of_readHost (hne : text ≠ []) (h : readHost false text = .ok host) : host.Normal := by
  unfold readHost at h
  split at h
  · split at h
    · split at h
      · cases h
        exact .ipv6 _
      · cases h
    · cases h
  · exact normal_of_readOpaque hne h

theorem Host.Normal.shown_ne_nil (h : host.Normal) : host.shown ≠ [] := by
  cases h with
  | name hne => exact hne
  | ipv6 groups => exact List.cons_ne_nil _ _

/-- **A host in normal form is read as it is.** -/
theorem Host.Normal.readHost (h : host.Normal) : Url.readHost false host.shown = .ok host := by
  cases h with
  | @name text hne hplain =>
    have hallowed : text.any isForbidden = false := by simpa using fun c hc => (hplain c hc).2.2
    have hopening : ∀ inner, text ≠ '[' :: inner := by
      rintro inner rfl
      exact (hplain '[' List.mem_cons_self).ne (by decide) rfl
    show Url.readHost false text = _
    rw [Url.readHost, if_neg Bool.false_ne_true, readOpaque, hallowed, if_neg Bool.false_ne_true,
      flatMap_hostChar hplain]
    exact hopening
  | ipv6 groups =>
    have hreverse : (Ipv6.toChars groups ++ [']']).reverse = ']' :: (Ipv6.toChars groups).reverse := by simp
    show Url.readHost false ('[' :: (Ipv6.toChars groups ++ [']'])) = _
    simp only [Url.readHost, hreverse, List.reverse_reverse, Ipv6.ofChars?_toChars]

/-! ### Where the host ends -/

theorem takeHost_append {bracketed : Bool} (hcolon : ':' ∈ cs → bracketed = true)
    (hbrackets : ∀ c ∈ cs, c ≠ '[' ∧ c ≠ ']') (rest : List Char) :
    takeHost bracketed (cs ++ rest) = cs ++ takeHost bracketed rest := by
  induction cs with
  | nil => rfl
  | cons c cs ih =>
    obtain ⟨⟨hopening, hclosing⟩, hcs⟩ := List.forall_mem_cons.1 hbrackets
    have hinside : ¬(c = ':' ∧ bracketed = false) := by
      rintro ⟨rfl, houtside⟩
      rw [hcolon List.mem_cons_self] at houtside
      cases houtside
    rw [List.cons_append, takeHost, if_neg hinside, if_neg hopening, if_neg hclosing,
      ih (fun h => hcolon (List.mem_cons_of_mem c h)) hcs]
    rfl

theorem bracket_not_mem_toChars (groups : Ipv6.Groups) : ∀ c ∈ Ipv6.toChars groups, c ≠ '[' ∧ c ≠ ']' := by
  have hopening : '[' ∉ Ipv6.lettering := by decide
  have hclosing : ']' ∉ Ipv6.lettering := by decide
  intro c hc
  have hmem := Ipv6.mem_lettering_of_mem_toChars hc
  exact ⟨fun h => hopening (h ▸ hmem), fun h => hclosing (h ▸ hmem)⟩

/-- **The host ends at the first colon that is not its own.** -/
theorem Host.Normal.takeHost (h : host.Normal) (rest : List Char) :
    Url.takeHost false (host.shown ++ ':' :: rest) = host.shown := by
  cases h with
  | @name text hne hplain =>
    have hcolon : ':' ∉ text := fun h => (hplain ':' h).ne (by decide) rfl
    have hbrackets : ∀ c ∈ text, c ≠ '[' ∧ c ≠ ']' := fun c hc =>
      ⟨(hplain c hc).ne (by decide), (hplain c hc).ne (by decide)⟩
    show Url.takeHost false (text ++ ':' :: rest) = text
    rw [takeHost_append (fun h => absurd h hcolon) hbrackets, Url.takeHost, if_pos ⟨rfl, rfl⟩, List.append_nil]
  | ipv6 groups =>
    have hinner : Url.takeHost true (Ipv6.toChars groups ++ ']' :: ':' :: rest) =
        Ipv6.toChars groups ++ Url.takeHost true (']' :: ':' :: rest) :=
      takeHost_append (fun _ => rfl) (bracket_not_mem_toChars groups) _
    have houter : Url.takeHost false ('[' :: (Ipv6.toChars groups ++ ']' :: ':' :: rest)) =
        '[' :: Url.takeHost true (Ipv6.toChars groups ++ ']' :: ':' :: rest) := by
      simp [Url.takeHost]
    have hend : Url.takeHost true (']' :: ':' :: rest) = [']'] := by
      simp [Url.takeHost]
    simp only [Host.shown, List.cons_append, List.append_assoc, List.nil_append, houter, hinner, hend]

/-! ### Ports -/

/-- No port is beyond the last. -/
theorem le_of_portNumber (h : portNumber cs = .ok (some p)) : p ≤ 65535 := by
  unfold portNumber at h
  dsimp only at h
  split_ifs at h with hlarge hempty
  · split at h <;> cases h
  · split at h
    · cases h
      exact not_lt.1 hlarge
    · cases h
      exact not_lt.1 hlarge
    · cases h

/-- The digits of a port are read as the port. -/
theorem portNumber_toString (hp : p ≤ 65535) : portNumber (toString p).toList = .ok (some p) := by
  have hdigits : (toString p).toList = Nat.toDigits 10 p := Nat.toList_repr
  have htake : (toString p).toList.takeWhile Char.isDigit = (toString p).toList :=
    List.takeWhile_eq_self_iff.2 fun c hc => Decimal.isDigit_of_mem_toString hc
  have hdrop : (toString p).toList.dropWhile Char.isDigit = [] :=
    List.dropWhile_eq_nil_iff.2 fun c hc => Decimal.isDigit_of_mem_toString hc
  have hvalue : (toString p).toList.foldl (fun n c => n * 10 + (c.toNat - '0'.toNat)) 0 = p := by
    have hread := Nat.ofDigitChars_ten_toDigits (n := p)
    simp only [Nat.ofDigitChars_eq_foldl, Nat.mul_comm 10] at hread
    rwa [hdigits]
  unfold portNumber
  dsimp only
  rw [htake, hdrop, hvalue, if_neg (not_lt.2 hp)]
  simp

/-! ### Authorities -/

/-- A character of an authority without user information. -/
def IsAuthorityChar (c : Char) : Prop := ' ' < c ∧ c < '\x7F' ∧ c ∉ "@/?#".toList

instance (c : Char) : Decidable (IsAuthorityChar c) := inferInstanceAs (Decidable (_ ∧ _ ∧ _))

theorem IsHostChar.isAuthorityChar (hc : IsHostChar c) : IsAuthorityChar c := by
  refine ⟨hc.1, hc.2.1, fun hmem => ?_⟩
  have hdelimiter : ∀ d ∈ "@/?#".toList, isForbidden d = true := by
    simp [isForbidden]
  exact hc.ne (hdelimiter c hmem) rfl

theorem isAuthorityChar_of_isDigit (hc : c.isDigit = true) : IsAuthorityChar c := by
  have hrange : '0' ≤ c ∧ c ≤ '9' := by simpa [Char.isDigit, Char.le_def] using hc
  refine ⟨lt_of_lt_of_le (by decide) hrange.1, lt_of_le_of_lt hrange.2 (by decide), fun hmem => ?_⟩
  have hdelimiter : ∀ d ∈ "@/?#".toList, d.isDigit = false := by simp
  rw [hdelimiter c hmem] at hc
  cases hc

/-- No character of a host in normal form, nor of a port behind it, ends the authority or the user information. -/
theorem Host.Normal.isAuthorityChar (h : host.Normal) (p : Nat) :
    ∀ c ∈ host.shown ++ ':' :: (toString p).toList, IsAuthorityChar c := by
  have hlettering : Ipv6.lettering.all (fun c => decide (IsAuthorityChar c)) = true := by decide
  have hshown : ∀ c ∈ host.shown, IsAuthorityChar c := by
    cases h with
    | name _ hplain => exact fun c hc => (hplain c hc).isAuthorityChar
    | ipv6 groups =>
      intro c hc
      rcases List.mem_cons.1 hc with rfl | hc
      · decide
      · rcases List.mem_append.1 hc with hc | hc
        · simpa using List.all_eq_true.1 hlettering c (Ipv6.mem_lettering_of_mem_toChars hc)
        · obtain rfl := List.mem_singleton.1 hc
          decide
  intro c hc
  rcases List.mem_append.1 hc with hc | hc
  · exact hshown c hc
  · rcases List.mem_cons.1 hc with rfl | hc
    · decide
    · exact isAuthorityChar_of_isDigit (Decimal.isDigit_of_mem_toString hc)

theorem splitUser_of_not_mem (h : '@' ∉ cs) : splitUser cs = (none, cs) := by
  have hnone : cs.reverse.dropWhile (· != '@') = [] := by
    refine List.dropWhile_eq_nil_iff.2 fun c hc => bne_iff_ne.2 ?_
    rintro rfl
    exact h (List.mem_reverse.1 hc)
  rw [splitUser, hnone]

/-- The host of an authority is in normal form, unless it has to be a domain name, and its port is a port. -/
theorem normal_of_authority {more : Bool} (hordinary : isSpecial scheme = false)
    (h : authority scheme text more = .ok (some host, port)) : host.Normal ∧ ∀ p ∈ port, p ≤ 65535 := by
  unfold authority at h
  generalize splitUser text = parts at h
  obtain ⟨user, rest⟩ := parts
  dsimp only at h
  split_ifs at h with hlost hempty hneeded
  · split at h <;> cases h
  · rw [hordinary] at h
    have hne : Url.takeHost false rest ≠ [] := by simpa using hempty
    obtain ⟨host', hread, h⟩ := ok_of_bind h
    obtain ⟨port', hnumber, h⟩ := ok_of_bind h
    cases h
    refine ⟨normal_of_readHost hne hread, fun p hp => ?_⟩
    rw [Option.mem_def] at hp
    split_ifs at hp
    exact le_of_portNumber (hnumber.trans (congrArg Except.ok hp))

/-- A host in normal form and a port are read as they are. -/
theorem Host.Normal.authority (h : host.Normal) (hp : p ≤ 65535) (hordinary : isSpecial scheme = false)
    (himplied : impliedPort scheme = none) (more : Bool) :
    Url.authority scheme (host.shown ++ ':' :: (toString p).toList) more = .ok (some host, some p) := by
  have huser : '@' ∉ host.shown ++ ':' :: (toString p).toList := fun hmem =>
    absurd (h.isAuthorityChar p '@' hmem) (by decide)
  have hne : host.shown.isEmpty = false := by simpa using h.shown_ne_nil
  have hport : ((host.shown ++ ':' :: (toString p).toList).drop host.shown.length).drop 1 = (toString p).toList := by
    rw [List.drop_left]
    rfl
  unfold Url.authority
  rw [splitUser_of_not_mem huser]
  dsimp only
  rw [h.takeHost, if_neg (by simp), hne, if_neg Bool.false_ne_true, hordinary, h.readHost, hport,
    portNumber_toString hp, himplied]
  rfl

/-! ### Whole URLs -/

theorem of_afterSlashes {url : Url} (h : afterSlashes scheme rest = .ok url) :
    url.scheme = scheme ∧ ∃ text more, Url.authority scheme text more = .ok (url.host, url.port) := by
  obtain ⟨found, hauthority, h⟩ := ok_of_bind h
  cases h
  exact ⟨rfl, _, _, hauthority⟩

/-- **The host of a URL without a special scheme is in normal form**, and its port is a port. -/
theorem normal_of_ofChars {url : Url} (h : ofChars cs = .ok url) (hordinary : isSpecial url.scheme = false)
    (hfile : url.scheme ≠ "file".toList) (hhost : url.host = some host) :
    host.Normal ∧ ∀ p ∈ url.port, p ≤ 65535 := by
  have hnormal (scheme rest : List Char) (h : afterSlashes scheme rest = .ok url) :
      host.Normal ∧ ∀ p ∈ url.port, p ≤ 65535 := by
    obtain ⟨rfl, text, more, hauthority⟩ := of_afterSlashes h
    exact normal_of_authority hordinary (hhost ▸ hauthority)
  unfold ofChars at h
  split at h
  · cases h
  · rename_i scheme rest _
    split_ifs at h with hscheme hspecial
    · cases hread : fileHost rest with
      | error fault =>
        rw [hread] at h
        cases h
      | ok host' =>
        rw [hread] at h
        cases h
        exact absurd hscheme hfile
    · exact hnormal _ _ h
    · split at h
      · exact hnormal _ _ h
      · cases h
        cases hhost

theorem significant_of_visible (h : ∀ c ∈ cs, ' ' < c) : significant cs = cs := by
  have hkeep (cs : List Char) (h : ∀ c ∈ cs, ' ' < c) : cs.dropWhile (fun c => decide (c ≤ ' ')) = cs := by
    refine List.dropWhile_eq_self_iff.2 fun hne hedge => ?_
    exact absurd (h _ (List.getElem_mem hne)) (not_lt.2 (of_decide_eq_true hedge))
  have hreverse : ∀ c ∈ cs.reverse, ' ' < c := fun c hc => h c (List.mem_reverse.1 hc)
  unfold significant
  dsimp only
  rw [hkeep cs h, hkeep cs.reverse hreverse, List.reverse_reverse, List.filter_eq_self]
  intro c hc
  have hvisible := h c hc
  have hne (d : Char) (hd : d ≤ ' ') : c ≠ d := (lt_of_le_of_lt hd hvisible).ne'
  simp [hne '\t' (by decide), hne '\n' (by decide), hne '\r' (by decide)]

/-- **A host in normal form is read from its URL as it is**, and so is the port. -/
theorem ofChars_shown (h : host.Normal) (hp : p ≤ 65535) :
    ofChars ("redis://".toList ++ (host.shown ++ ':' :: (toString p).toList)) =
      .ok ⟨"redis".toList, some host, some p⟩ := by
  have hchars := h.isAuthorityChar p
  generalize htext : host.shown ++ ':' :: (toString p).toList = text at hchars ⊢
  have hvisible : ∀ c ∈ "redis://".toList ++ text, ' ' < c := by
    intro c hc
    rcases List.mem_append.1 hc with hc | hc
    · have hopening : "redis://".toList.all (fun c => decide (' ' < c)) = true := by decide
      simpa using List.all_eq_true.1 hopening c hc
    · exact (hchars c hc).1
  have hscheme : scheme? ("redis://".toList ++ text) = some ("redis".toList, "//".toList ++ text) := rfl
  have hslashes : "//".toList.isPrefixOf? ("//".toList ++ text) = some text := rfl
  have hspecial : isSpecial "redis".toList = false := by decide
  have hends : (text.takeWhile fun c => !endsAuthority (isSpecial "redis".toList) c) = text := by
    refine List.takeWhile_eq_self_iff.2 fun c hc => ?_
    have hne (d : Char) (hd : d ∈ "@/?#".toList) : c ≠ d := fun heq => (hchars c hc).2.2 (heq ▸ hd)
    rw [hspecial]
    simp [endsAuthority, hne '/' (by decide), hne '?' (by decide), hne '#' (by decide)]
  unfold ofChars
  rw [significant_of_visible hvisible, hscheme]
  dsimp only
  rw [if_neg (by decide), hspecial, if_neg Bool.false_ne_true, hslashes]
  dsimp only
  unfold afterSlashes
  dsimp only
  rw [hends, ← htext, h.authority hp (by decide) (by decide)]
  rfl

end SlotRouter.Url
