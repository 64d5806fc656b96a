import Mathlib
import SlotRouter.Proofs.Agreement
import SlotRouter.Proofs.Recognition

/-!
# The address of a node in a redirect and in a layout

A redirect writes a node as one word, host and port with a colon between them; a layout gives host and
port apart. The pool of a node is registered under its address, so both have to come to the same text. They
do so if the host has no colon of its own, and also if it is left out (`Redirect.named_eq_listed_iff`). A host with a
colon stands in brackets in the address from a layout and not in the one from a redirect, which is
an address that no layout ever gives (`Redirect.node_ne_named`): the pool that the redirect made is
retired by the next layout, even by one that lists the node.

Key definitions: `Redirect.line`, `Redirect.named`, `Layout.listed`. Key theorems: `Redirect.ofLine_line`,
`Layout.node_listed`, `Redirect.one_pool_iff`.
-/

namespace SlotRouter

/-- The host is a plain one: no blanks and no brackets. -/
def PlainHost (host : String) : Prop := ∀ c ∈ host.toList, Text.isBlank c = false ∧ c ≠ '[' ∧ c ≠ ']'

/-! ### What a layout makes of a node -/

namespace Layout

variable {host : String} {port : Nat} {asked : List Char} {f : Frame}

theorem port_ofNat (h : 1 ≤ port ∧ port ≤ 65535) : Layout.port (.integer (Int64.ofNat port)) = .ok port := by
  have hvalue : (Int64.ofNat port).toInt = port := Int64.toInt_ofNat_of_lt (by omega)
  have hrange : 1 ≤ Int64.ofNat port ∧ Int64.ofNat port ≤ 65535 := by
    rw [Int64.le_iff_toInt_le, Int64.le_iff_toInt_le, hvalue]
    show (1 : Int) ≤ port ∧ (port : Int) ≤ 65535
    omega
  rw [Layout.port, if_pos hrange, hvalue]

theorem host_ofText (asked : List Char) (host : String) :
    Layout.host asked (Bytes.ofText host) = if Unstated host then asked else host.toList := by
  rw [Layout.host, Utf8.lossy_ofText]
  exact if_congr unstated_iff rfl rfl

/-- Who was asked matters only for a host that is not stated. -/
theorem listed_congr {asked' : List Char} (h : Unstated host → asked = asked') :
    listed host port asked = listed host port asked' := by
  unfold listed
  split_ifs with hunstated
  · rw [h hunstated]
  · rfl

/-- **The address of a node in a layout.** -/
theorem node_listed (hport : 1 ≤ port ∧ port ≤ 65535) (hf : Describes host port f) (asked : List Char) :
    node asked f = .ok (listed host port asked) := by
  obtain ⟨h, more, rfl, hpayload⟩ := hf
  rw [node]
  simp only [Frame.items?, hpayload, port_ofNat hport, host_ofText]
  rfl

theorem nonneg_of_port {value : Int} (h : Layout.port f = .ok value) : 0 ≤ value := by
  unfold Layout.port at h
  split at h
  · split_ifs at h with hrange
    · rw [Int64.le_iff_toInt_le, Int64.le_iff_toInt_le] at hrange
      rw [← Except.ok.inj h]
      exact Int.le_trans (by decide) hrange.1
    · cases h
  · cases h

/-- The address of a node in a layout is a host, in brackets if it has colons, and a port. -/
theorem exists_of_node {address : String} (h : node asked f = .ok address) :
    ∃ (host : List Char) (port : Nat), address = String.ofList (Address.join host port) := by
  unfold node at h
  split at h
  · cases h
  · split at h
    · cases h
    · rename_i payload _
      split at h
      · rename_i value hvalue
        obtain ⟨port, rfl⟩ := Int.eq_ofNat_of_zero_le (nonneg_of_port hvalue)
        exact ⟨Layout.host asked payload, port, (Except.ok.inj h).symm⟩
      · cases h
  · cases h

theorem master_of_items {first last entry : Frame} {replicas : List Frame} {r : SlotRange}
    (hitems : f.items? = some (first :: last :: entry :: replicas)) (h : range asked f = .ok r) :
    node asked entry = .ok r.master := by
  unfold range at h
  rw [hitems] at h
  obtain ⟨first', -, h⟩ := ok_of_bind h
  obtain ⟨last', -, h⟩ := ok_of_bind h
  split_ifs at h
  · cases h
  · obtain ⟨master, hmaster, h⟩ := ok_of_bind h
    cases h
    exact hmaster

theorem node_of_range {r : SlotRange} (h : range asked f = .ok r) : ∃ entry, node asked entry = .ok r.master := by
  have hrange := h
  unfold range at hrange
  split at hrange
  · cases hrange
  · rename_i first last entry replicas hitems
    exact ⟨entry, master_of_items hitems h⟩
  · cases hrange

/-- A layout has a range for every row of the reply. -/
theorem range_of_mem_rows {rows : List Frame} {ranges : List SlotRange} (h : Layout.ranges asked rows = .ok ranges)
    {row : Frame} (hrow : row ∈ rows) : ∃ r ∈ ranges, range asked row = .ok r := by
  induction rows generalizing ranges with
  | nil => cases hrow
  | cons first rows ih =>
    obtain ⟨r, hr, h⟩ := ok_of_bind h
    obtain ⟨rs, hrs, h⟩ := ok_of_bind h
    cases h
    rcases List.mem_cons.1 hrow with rfl | hrow
    · exact ⟨r, List.mem_cons_self, hr⟩
    · obtain ⟨r', hr', hrange⟩ := ih hrs hrow
      exact ⟨r', List.mem_cons_of_mem _ hr', hrange⟩

/-- Every range of a layout has an address that the layout gives a node. -/
theorem node_of_mem_ranges {rows : List Frame} {ranges : List SlotRange} (h : Layout.ranges asked rows = .ok ranges)
    {r : SlotRange} (hr : r ∈ ranges) : ∃ entry, node asked entry = .ok r.master := by
  induction rows generalizing ranges with
  | nil =>
    cases h
    cases hr
  | cons first rows ih =>
    obtain ⟨r', hr', h⟩ := ok_of_bind h
    obtain ⟨rs, hrs, h⟩ := ok_of_bind h
    cases h
    rcases List.mem_cons.1 hr with rfl | hr
    · exact node_of_range hr'
    · exact ih hrs hr

/-- Every master of a layout has an address that the layout gives a node. -/
theorem node_of_mem_layout {ranges : List SlotRange} {asked : String} (h : ofReply asked f = .ok ranges)
    {r : SlotRange} (hr : r ∈ ranges) : ∃ entry, node asked.toList entry = .ok r.master := by
  unfold ofReply at h
  split at h
  · exact node_of_mem_ranges h hr
  · cases h

/-- A layout that is read from a reply has the address of each node that the reply lists. -/
theorem listed_mem {ranges : List SlotRange} {asked : String} (hport : 1 ≤ port ∧ port ≤ 65535)
    (hf : Lists host port f) (h : ofReply asked f = .ok ranges) :
    ∃ r ∈ ranges, r.master = listed host port asked.toList := by
  obtain ⟨rows, rfl, first, last, entry, replicas, hrow, hdescribes⟩ := hf
  obtain ⟨r, hr, hrange⟩ := range_of_mem_rows h hrow
  have hmaster := master_of_items rfl hrange
  rw [node_listed hport hdescribes, Except.ok.injEq] at hmaster
  exact ⟨r, hr, hmaster.symm⟩

end Layout

/-! ### What a redirect makes of a node -/

namespace Redirect

/-- The line with which a node sends the caller of a slot to a host and port. -/
def line (keyword : String) (slot : UInt16) (host : String) (port : Nat) : Bytes :=
  Bytes.ofText (keyword ++ " " ++ toString slot.toNat ++ " " ++ host ++ ":" ++ toString port)

/-- One blank between the words, and no other. -/
def Blanks.plain : Blanks where
  between_ne_nil := by simp
  blank := by simp [Text.isBlank]

variable {host origin : String} {port : Nat} {slot : UInt16}

theorem line_eq_plain (keyword : String) (slot : UInt16) (host : String) (port : Nat) :
    line keyword slot host port = Blanks.plain.line keyword slot host port := by
  rw [line, Bytes.ofText, Blanks.line]
  simp [Blanks.plain, word]

/-- **The address of a node in a redirect of either kind.** -/
theorem ofLine_line (kind : Kind) (hhost : PlainHost host) (hport : port ≤ 65535) (hslot : slot.toNat < 16384)
    (origin : String) : ofLine (line kind.keyword slot host port) origin = kind.error slot (named host port origin) := by
  rw [line_eq_plain]
  exact ofLine_spelt kind .plain hslot hport (fun c hc => (hhost c hc).1) origin

/-! ### The two addresses -/

theorem not_unstated_of_colon (hcolon : ':' ∈ host.toList) : ¬Unstated host := by
  rintro (rfl | rfl)
  · cases hcolon
  · exact absurd hcolon (by decide)

theorem named_of_colon (hcolon : ':' ∈ host.toList) (port : Nat) (origin : String) :
    named host port origin = host ++ ":" ++ toString port := if_neg (not_unstated_of_colon hcolon)

theorem head?_ne_bracket (hhost : PlainHost host) : host.toList.head? ≠ some '[' := fun h =>
  (hhost '[' (List.mem_of_head? h)).2.1 rfl

theorem listed_of_colon (hhost : PlainHost host) (hcolon : ':' ∈ host.toList) (port : Nat) (asked : List Char) :
    Layout.listed host port asked = "[" ++ host ++ "]:" ++ toString port := by
  rw [Layout.listed, if_neg (not_unstated_of_colon hcolon),
    Address.join_bracketed hcolon (head?_ne_bracket hhost), ← String.toList_inj]
  simp

/-- **No layout gives a node the address that a redirect has for a host with a colon.** -/
theorem node_ne_named (hhost : PlainHost host) (hcolon : ':' ∈ host.toList) (port : Nat) (origin : String)
    (asked : List Char) (f : Frame) : Layout.node asked f ≠ .ok (named host port origin) := by
  intro h
  obtain ⟨other, otherPort, heq⟩ := Layout.exists_of_node h
  have hword : (named host port origin).toList = word host port := by
    rw [named_of_colon hcolon, word]
    simp
  obtain ⟨shown, hsplit, hbracket⟩ := Address.splitLast?_join other otherPort
  rw [← String.toList_ofList (l := Address.join other otherPort), ← heq, hword, word,
    Address.splitLast?_colon _ (Decimal.colon_not_mem port), Option.some.injEq, Prod.mk.injEq] at hsplit
  obtain ⟨rfl, -⟩ := hsplit
  exact head?_ne_bracket hhost (hbracket hcolon)

/-- **The two addresses of a node are one if its host has no colon.** -/
theorem named_eq_listed_iff (hhost : PlainHost host) (hport : 1 ≤ port ∧ port ≤ 65535) (origin : String) :
    named host port origin = Layout.listed host port (Address.host origin.toList) ↔ ':' ∉ host.toList := by
  constructor
  · intro heq hcolon
    have hnode := Layout.node_listed hport ⟨.bulkText host, [], rfl, rfl⟩ (Address.host origin.toList)
    rw [← heq] at hnode
    exact node_ne_named hhost hcolon port origin _ _ hnode
  · intro hcolon
    by_cases h : Unstated host
    · exact if_pos h
    · rw [named, if_neg h, Layout.listed, if_neg h, Address.join_plain hcolon, ← String.toList_inj]
      simp

end Redirect

/-! ### Pools -/

namespace Topology

variable {t t' : Topology} {a b : String} {id other : PoolId}

/-- Two addresses have one pool only if they are one. -/
theorem Agrees.address_eq (h : t.Agrees) (ha : t.registered? a = some id) (hb : t.registered? b = some id) : a = b :=
  (h.made_of_registered? ha).2.symm.trans (h.made_of_registered? hb).2

/-- The pool of one address is the pool of another only if they are one address. -/
theorem Agrees.obtain_eq_iff (h : t.Agrees) : ((t.obtain a).2.obtain b).1 = (t.obtain a).1 ↔ a = b := by
  have ha := registered?_obtain t a
  constructor
  · intro heq
    have hb := registered?_obtain (t.obtain a).2 b
    rw [heq] at hb
    have hkept := (Grows.obtain (t.obtain a).2 b).registered? ha
    exact ((h.obtain a).obtain b).address_eq hkept hb
  · rintro rfl
    rw [obtain_of_registered ha]

/-- The pool of an address that a layout does not name is retired. -/
theorem Agrees.retired_of_install (h : t.Agrees) {ranges : List SlotRange} (ht : t.install ranges = .ok t')
    (hid : t.registered? a = some id) (hgone : ∀ r ∈ ranges, r.master ≠ a) :
    t'.registered? a = none ∧ (t'.pool id).closed = true := by
  have hnone : t'.registered? a = none := by
    rw [Option.eq_none_iff_forall_ne_some]
    intro other hother
    obtain ⟨r, hr, hmaster⟩ := (registered?_install ht).1 ⟨other, hother⟩
    exact hgone r hr hmaster
  refine ⟨hnone, ?_⟩
  obtain ⟨-, rfl⟩ := of_install ht
  have hkept := (Grows.layOut t .empty ranges).registered? hid
  have hlt := ((h.layOut .empty ranges).made_of_registered? hkept).1
  have hstale : a ∉ ranges.map SlotRange.master := fun hmem => by
    obtain ⟨r, hr, hmaster⟩ := List.mem_map.1 hmem
    exact hgone r hr hmaster
  have hclosed := pool_retain_of_stale (t := (t.layOut .empty ranges).2.putInForce (t.layOut .empty ranges).1)
    hlt (mem_registry hkept) hstale
  rw [hclosed]
  rfl

end Topology

namespace Redirect

variable {N α : Type} [Network N] {setup : Setup} {s : System N α} {host : String} {port : Nat} {slot : UInt16}

/-- **A node has one address, and so one pool, exactly if its host has no colon.** Whatever redirect names
the node, it has the same address in the reply of both kinds, and whatever frame describes the node in a
layout, it has the same address there. If the host has no colon, or is left out, the two are equal, the
pools under them are one, and the next layout that lists the node leaves the pool of the redirect as it is.
If the host has a colon, it is in brackets in the second only; then the node has two pools, and the next
layout retires that of the redirect although it lists the node. -/
theorem one_pool_iff (hs : s.Arises setup) (hhost : PlainHost host) (hport : 1 ≤ port ∧ port ≤ 65535)
    (hslot : slot.toNat < 16384) (origin : String) : ∃ inRedirect inLayout : String,
    ofLine (line "MOVED" slot host port) origin = .moved slot inRedirect ∧
    ofLine (line "ASK" slot host port) origin = .ask slot inRedirect ∧
    (∀ f, Layout.Describes host port f → Layout.node (Address.host origin.toList) f = .ok inLayout) ∧
    (inRedirect = inLayout ↔ ':' ∉ host.toList) ∧
    (':' ∈ host.toList →
      inRedirect = host ++ ":" ++ toString port ∧ inLayout = "[" ++ host ++ "]:" ++ toString port) ∧
    (((s.world.topology.obtain inRedirect).2.obtain inLayout).1 = (s.world.topology.obtain inRedirect).1 ↔
      ':' ∉ host.toList) ∧
    ∀ id, s.world.topology.registered? inRedirect = some id → ∀ asked reply ranges t',
      (Unstated host → Address.host asked.toList = Address.host origin.toList) →
      Layout.Lists host port reply → Discovery.layout asked (.ok reply) = .ok ranges →
      s.world.topology.install ranges = .ok t' →
      (':' ∉ host.toList → t'.registered? inLayout = some id ∧ t'.pool id = s.world.topology.pool id) ∧
      (':' ∈ host.toList → (t'.pool id).closed = true ∧ t'.registered? inRedirect = none ∧
        ∃ other, other ≠ id ∧ t'.registered? inLayout = some other) := by
  have hagrees := hs.agrees
  have hiff := named_eq_listed_iff hhost hport origin
  refine ⟨named host port origin, Layout.listed host port (Address.host origin.toList),
    ofLine_line .moved hhost hport.2 hslot origin, ofLine_line .ask hhost hport.2 hslot origin,
    fun f hf => Layout.node_listed hport hf _, hiff,
    fun hcolon => ⟨named_of_colon hcolon port origin, listed_of_colon hhost hcolon port _⟩,
    hagrees.obtain_eq_iff.trans hiff, fun id hid asked reply ranges t' hasked hlists hlayout ht => ?_⟩
  obtain ⟨r, hr, hmaster⟩ := Layout.listed_mem hport hlists hlayout
  rw [String.toList_ofList, Layout.listed_congr hasked] at hmaster
  constructor
  · intro hcolon
    rw [hiff.2 hcolon] at hid
    exact hagrees.pool_install ht hid ⟨r, hr, hmaster⟩
  · intro hcolon
    have hgone : ∀ r ∈ ranges, r.master ≠ named host port origin := by
      intro r hr heq
      obtain ⟨entry, hentry⟩ := Layout.node_of_mem_layout hlayout hr
      rw [heq] at hentry
      exact node_ne_named hhost hcolon port origin _ entry hentry
    obtain ⟨hnone, hclosed⟩ := hagrees.retired_of_install ht hid hgone
    obtain ⟨other, hother⟩ := (Topology.registered?_install ht).2 ⟨r, hr, hmaster⟩
    refine ⟨hclosed, hnone, other, ?_, hother⟩
    rintro rfl
    have hagrees' := hagrees.install ht
    exact (hagrees'.closed _ (hagrees'.made_of_registered? hother).1).1 hclosed _ (Topology.mem_registry hother)

end Redirect

namespace Prompt

/-- A slot has moved to a node on the loopback. -/
def loopback : System Prompt Unit := blank.operate (.move 12182 "::1:7001")

/-- A layout in which that node serves every slot. -/
def everywhere : Frame := Layout.render [⟨0, 16383, [(Bytes.ofText "::1", 7001)]⟩]

theorem everywhere_lists : Layout.Lists "::1" 7001 everywhere :=
  ⟨_, rfl, .integer 0, .integer 16383, Layout.renderNode (Bytes.ofText "::1", 7001), [], List.mem_singleton.2 rfl,
    .bulk (Bytes.ofText "::1"), [.bulkText "id"], rfl, rfl⟩

/-- The node has a pool under each of two addresses, and the layout that lists it retires the first. -/
theorem one_pool_iff_loopback : loopback.Arises Topology.bare ∧ PlainHost "::1" ∧
    Redirect.ofLine (Redirect.line "MOVED" 12182 "::1" 7001) "10.0.0.1:7000" = .moved 12182 "::1:7001" ∧
    Layout.node (Address.host "10.0.0.1:7000".toList) (Layout.renderNode (Bytes.ofText "::1", 7001)) =
      .ok "[::1]:7001" ∧
    loopback.world.topology.registered? "::1:7001" = some 0 ∧
    ∃ t', loopback.world.topology.install [⟨0, 16383, "[::1]:7001", []⟩] = .ok t' ∧ (t'.pool 0).closed = true := by
  have hblank : blank.Arises Topology.bare := .start rfl fun _ => rfl
  have harises : loopback.Arises Topology.bare := .operate _ hblank
  have hplain : PlainHost "::1" := by simp [PlainHost, Text.isBlank]
  have hport : 1 ≤ 7001 ∧ 7001 ≤ 65535 := by omega
  have hslot : (12182 : UInt16).toNat < 16384 := by decide
  have hlayout : Discovery.layout "10.0.0.1:7000" (.ok everywhere) = .ok [⟨0, 16383, "[::1]:7001", []⟩] := by cbv
  have hregistered : loopback.world.topology.registered? "::1:7001" = some 0 := by decide
  obtain ⟨inRedirect, inLayout, hmoved, -, hnode, -, hforms, -, hrefresh⟩ :=
    Redirect.one_pool_iff harises hplain hport hslot "10.0.0.1:7000"
  have hcolon : ':' ∈ "::1".toList := by decide
  obtain ⟨rfl, rfl⟩ := hforms hcolon
  obtain ⟨t', ht⟩ : ∃ t', loopback.world.topology.install [⟨0, 16383, "[::1]:7001", []⟩] = .ok t' := ⟨_, rfl⟩
  obtain ⟨-, hretired⟩ :=
    hrefresh 0 hregistered "10.0.0.1:7000" everywhere _ t' (fun _ => rfl) everywhere_lists hlayout ht
  exact ⟨harises, hplain, hmoved, hnode _ ⟨_, _, rfl, rfl⟩, hregistered, t', ht, (hretired (by decide)).1⟩

end Prompt
end SlotRouter
