import SlotRouter.Proofs.Idle
import SlotRouter.Proofs.Traffic

/-!
# Who has a connection

At every moment a connection is idle in one pool, or one activity has it, or nobody has it any more.
What an activity has of a connection is a `Holding`: a connection that is being opened, a link in
hand, or a link with an exchange on it. A holding is sound if the link is as far as the traffic
says. Idle links are settled: the replies to all commands that were written have been taken, and
nothing is left over of them. Nothing has been written to their connections but whole commands.

`Moves` is what a piece of work of one activity may do: it touches only connections that it has,
that were idle or that it opens, it puts a connection in one place only, and it leaves sound what it
has and what is idle. Pieces of work follow each other (`Moves.trans`), and the holdings of others
stay sound (`Holding.Sound.append`).

Key definitions: `Settled`, `Holding.Sound`, `Safe`, `Moves`.
-/

namespace SlotRouter

open List

/-- The replies to all commands on the connection have been taken, and nothing is left over. -/
structure Settled (replies : Replies) (record : List Traffic) (link : Link) : Prop where
  buffer : link.decoder.buffer = []
  taken : Traffic.octets link.handle record = replies.upTo link.handle (Traffic.commands link.handle record)

/-- What an activity has of a connection. -/
inductive Holding where
  | opening (handle : Handle)
  | inHand (link : Link)
  /-- A command is being written, and these octets of it are left. -/
  | writing (link : Link) (left : Bytes)
  /-- A command has been written, and its reply is awaited. -/
  | waiting (link : Link)

namespace Holding

/-- The connection. -/
def handle : Holding → Handle
  | .opening handle => handle
  | .inHand link | .writing link _ | .waiting link => link.handle

/-- The link, once the connection is open. -/
def link? : Holding → Option Link
  | .opening _ => none
  | .inHand link | .writing link _ | .waiting link => some link

/-- The link is as far as the traffic says; `who` has it. -/
def Sound (replies : Replies) (record : List Traffic) (who : Nat) : Holding → Prop
  | .opening h => Traffic.commands h record = 0 ∧ Traffic.octets h record = [] ∧ Traffic.Whole h record
  | .inHand link => link.broken = false → Settled replies record link ∧ Traffic.Whole link.handle record
  | .writing link left => link.broken = true ∧ Settled replies record link ∧ Traffic.Begun link.handle record left
  | .waiting link => link.broken = true ∧ Traffic.Whole link.handle record ∧ ∃ k,
      Traffic.lastCommand? who record = some (link.handle, k) ∧
      Traffic.commands link.handle record = k + 1 ∧
      Traffic.octets link.handle record = replies.upTo link.handle k ++ link.decoder.buffer

end Holding

variable {replies : Replies} {record new : List Traffic} {link : Link} {who : Nat} {x x' : Holding}

theorem Holding.handle_of_link? (h : x.link? = some link) : x.handle = link.handle := by
  cases x <;> simp_all [Holding.link?, Holding.handle]

/-- A link is broken while a command is written or a reply is awaited; an unbroken one is settled.
-/
theorem Holding.Sound.settled (h : x.Sound replies record who) (hlink : x.link? = some link)
    (hunbroken : link.broken = false) : Settled replies record link ∧ Traffic.Whole link.handle record := by
  cases x with
  | opening => cases hlink
  | inHand l =>
    obtain rfl := Option.some.inj hlink
    exact h hunbroken
  | writing | waiting =>
    obtain rfl := Option.some.inj hlink
    rw [h.1] at hunbroken
    cases hunbroken

/-! ### What others do -/

theorem Settled.append (h : Settled replies record link) (hne : ∀ e ∈ new, e.handle ≠ link.handle) :
    Settled replies (new ++ record) link where
  buffer := h.buffer
  taken := by
    rw [Traffic.octets_append_of_ne hne, Traffic.commands_append_of_ne hne]
    exact h.taken

/-- What is done on other connections by others leaves a holding sound. -/
theorem Holding.Sound.append (h : x.Sound replies record who) (hwho : ∀ e ∈ new, e.who ≠ who)
    (hne : ∀ e ∈ new, e.handle ≠ x.handle) : x.Sound replies (new ++ record) who := by
  have hcommands : Traffic.commands x.handle (new ++ record) = _ := Traffic.commands_append_of_ne hne
  have hoctets : Traffic.octets x.handle (new ++ record) = _ := Traffic.octets_append_of_ne hne
  cases x with
  | opening g => exact ⟨hcommands.trans h.1, hoctets.trans h.2.1, h.2.2.append hne⟩
  | inHand link => exact fun hunbroken => ⟨(h hunbroken).1.append hne, (h hunbroken).2.append hne⟩
  | writing link left => exact ⟨h.1, h.2.1.append hne, h.2.2.append hne⟩
  | waiting link =>
    obtain ⟨hbroken, hwhole, k, hlast, hwritten, htaken⟩ := h
    refine ⟨hbroken, hwhole.append hne, k, ?_, hcommands.trans hwritten, hoctets.trans htaken⟩
    rw [Traffic.lastCommand?_append_of_ne hwho]
    exact hlast

/-! ### Safety -/

variable {N : Type} {w w' w'' : World (Watched N)} {H H' H'' : Option Holding}

/-- The connections that are idle or that an activity has. -/
def owned (w : World (Watched N)) (H : Option Holding) : List Handle :=
  w.topology.idle.map Link.handle ++ (H.map Holding.handle).toList

@[simp] theorem owned_none (w : World (Watched N)) :
    owned w none = w.topology.idle.map Link.handle := by
  simp [owned]

@[simp] theorem owned_some (w : World (Watched N)) (x : Holding) :
    owned w (some x) = w.topology.idle.map Link.handle ++ [x.handle] := rfl

/-- Idle links can be lent, and what an activity has is sound. -/
structure Safe (replies : Replies) (w : World (Watched N)) (H : Option Holding) : Prop where
  distinct : (owned w H).Nodup
  opened : ∀ h ∈ owned w H, h ∈ Traffic.openings w.net.record
  /-- Nothing has been done on a connection before it was opened. -/
  noted : ∀ e ∈ w.net.record, e.handle ∈ Traffic.openings w.net.record
  idle : ∀ link ∈ w.topology.idle, link.broken = false ∧ Settled replies w.net.record link ∧
    Traffic.Whole link.handle w.net.record
  held : ∀ x, H = some x → x.Sound replies w.net.record w.net.who

theorem handles_subperm {links links' : List Link} (h : links <+~ links') :
    links.map Link.handle <+~ links'.map Link.handle := by
  obtain ⟨l, hperm, hsub⟩ := h
  exact ⟨l.map Link.handle, hperm.map _, hsub.map _⟩

theorem Safe.handle_ne (hs : Safe replies w (some x)) (hlink : link ∈ w.topology.idle) :
    link.handle ≠ x.handle := by
  have hdistinct := hs.distinct
  unfold owned at hdistinct
  obtain ⟨-, -, hdisjoint⟩ := List.nodup_append.1 hdistinct
  exact hdisjoint _ (List.mem_map_of_mem hlink) _ (by simp)

/-- What a piece of work of an activity may do to the world, and to what the activity has. -/
structure Moves (replies : Replies) (w : World (Watched N)) (H : Option Holding)
    (w' : World (Watched N)) (H' : Option Holding) : Prop where
  who : w'.net.who = w.net.who
  exists_new : ∃ new, w'.net.record = new ++ w.net.record ∧
    (∀ e ∈ new, e.who = w.net.who ∧ e.handle ∈ Traffic.openings new ++ owned w H) ∧
    owned w' H' <+~ Traffic.openings new ++ owned w H
  sound : Orderly replies w'.net.record → Safe replies w H →
    (∀ link ∈ w'.topology.idle, link.broken = false ∧ Settled replies w'.net.record link ∧
      Traffic.Whole link.handle w'.net.record) ∧
    ∀ x, H' = some x → x.Sound replies w'.net.record w'.net.who

namespace Moves

theorem suffix (m : Moves replies w H w' H') : w.net.record <:+ w'.net.record := by
  obtain ⟨new, hrecord, -⟩ := m.exists_new
  exact ⟨new, hrecord.symm⟩

/-- New connections are new to everybody. -/
theorem not_mem_openings (ho : Orderly replies (new ++ record)) {h : Handle}
    (hh : h ∈ Traffic.openings record) :
    h ∉ Traffic.openings new := by
  have hfresh := ho.fresh
  rw [Traffic.openings_append] at hfresh
  exact fun hnew => (List.nodup_append.1 hfresh).2.2 _ hnew _ hh rfl

/-- What is idle and what one activity has was theirs before or has just been opened, so they stay apart. -/
theorem owned_apart (m : Moves replies w H w' H') (hfresh : (Traffic.openings w'.net.record).Nodup)
    (hdistinct : (owned w H).Nodup) (hopened : ∀ h ∈ owned w H, h ∈ Traffic.openings w.net.record) :
    (owned w' H').Nodup ∧ ∀ h ∈ owned w' H', h ∈ Traffic.openings w'.net.record := by
  obtain ⟨new, hrecord, -, hsub⟩ := m.exists_new
  rw [hrecord, Traffic.openings_append] at hfresh ⊢
  obtain ⟨hnew, -, hapart⟩ := List.nodup_append.1 hfresh
  have hnodup : (Traffic.openings new ++ owned w H).Nodup := by
    refine List.nodup_append.2 ⟨hnew, hdistinct, ?_⟩
    rintro g hg _ hh rfl
    exact hapart _ hg _ (hopened _ hh) rfl
  refine ⟨?_, fun h hh => List.mem_append.2 ((List.mem_append.1 (hsub.subset hh)).imp id (hopened h))⟩
  obtain ⟨l, hperm, hl⟩ := hsub
  exact hperm.nodup_iff.1 (hnodup.sublist hl)

/-- A piece of work leaves safe what was safe. -/
theorem safe (m : Moves replies w H w' H') (ho : Orderly replies w'.net.record)
    (hs : Safe replies w H) :
    Safe replies w' H' := by
  obtain ⟨hidle, hheld⟩ := m.sound ho hs
  obtain ⟨hdistinct, hopened⟩ := m.owned_apart ho.fresh hs.distinct hs.opened
  obtain ⟨new, hrecord, hnew, -⟩ := m.exists_new
  refine ⟨hdistinct, hopened, fun e he => ?_, hidle, hheld⟩
  rw [hrecord] at he ⊢
  rw [Traffic.openings_append]
  rcases List.mem_append.1 he with he | he
  · exact List.mem_append.2 ((List.mem_append.1 (hnew e he).2).imp id (hs.opened _))
  · exact List.mem_append_right _ (hs.noted e he)

/-- Pieces of work follow each other. -/
theorem trans (m : Moves replies w H w' H') (m' : Moves replies w' H' w'' H'') :
    Moves replies w H w'' H'' where
  who := m'.who.trans m.who
  exists_new := by
    obtain ⟨new, hrecord, hnew, hsub⟩ := m.exists_new
    obtain ⟨new', hrecord', hnew', hsub'⟩ := m'.exists_new
    have howned : Traffic.openings new' ++ owned w' H' <+~ Traffic.openings (new' ++ new) ++ owned w H := by
      rw [Traffic.openings_append, List.append_assoc]
      exact (List.subperm_append_left _).2 hsub
    refine ⟨new' ++ new, ?_, ?_, hsub'.trans howned⟩
    · rw [hrecord', hrecord, List.append_assoc]
    · intro e he
      rcases List.mem_append.1 he with he | he
      · obtain ⟨hwho, hhandle⟩ := hnew' e he
        exact ⟨hwho.trans m.who, howned.subset hhandle⟩
      · obtain ⟨hwho, hhandle⟩ := hnew e he
        refine ⟨hwho, ?_⟩
        rw [Traffic.openings_append, List.append_assoc]
        exact List.mem_append_right _ hhandle
  sound ho hs := m'.sound ho (m.safe (ho.of_suffix m'.suffix) hs)

/-! ### Simple pieces of work -/

/-- Nothing happens on the network, and no link becomes idle. -/
theorem of_same (hwho : w'.net.who = w.net.who) (hrecord : w'.net.record = w.net.record)
    (hidle : w'.topology.idle <+ w.topology.idle) : Moves replies w H w' H where
  who := hwho
  exists_new := by
    refine ⟨[], hrecord, by simp, ?_⟩
    exact ((hidle.map Link.handle).append (List.Sublist.refl _)).subperm
  sound ho hs := by
    rw [hwho, hrecord]
    exact ⟨fun link hlink => hs.idle link (hidle.subset hlink), hs.held⟩

theorem refl : Moves replies w H w H := of_same rfl rfl (List.Sublist.refl _)

/-- No link becomes idle by a change of what the client knows. -/
theorem of_topology {t : Topology} (h : t.idle <+ w.topology.idle) :
    Moves replies w H { w with topology := t } H := of_same rfl rfl h

theorem of_modifyPool {id : PoolId} {f : Pool → Pool} (h : ∀ p, (f p).idle <+ p.idle) :
    Moves replies w H (w.modifyPool id f) H := of_topology (Topology.idle_modifyPool h)

theorem obtain (address : String) :
    Moves replies w H { w with topology := (w.topology.obtain address).2 } H := by
  refine of_topology ?_
  rw [Topology.idle_obtain]

theorem move (slot : Nat) (address : String) :
    Moves replies w H { w with topology := (w.topology.move slot address).2 } H := by
  refine of_topology ?_
  rw [Topology.idle_move]

/-- The connection is dropped. -/
theorem letGo : Moves replies w H w none where
  who := rfl
  exists_new := by
    refine ⟨[], rfl, by simp, ?_⟩
    exact ((List.Sublist.refl _).append (List.nil_sublist _)).subperm
  sound ho hs := ⟨hs.idle, by simp⟩

/-- The activity looks at what it has in another way. -/
theorem turnInto (hhandle : x'.handle = x.handle)
    (hsound : Orderly replies w.net.record → x.Sound replies w.net.record w.net.who →
      x'.Sound replies w.net.record w.net.who) : Moves replies w (some x) w (some x') where
  who := rfl
  exists_new := by
    refine ⟨[], rfl, by simp, ?_⟩
    rw [Traffic.openings_nil, List.nil_append, owned_some, owned_some, hhandle]
  sound ho hs := by
    refine ⟨hs.idle, ?_⟩
    rintro _ ⟨⟩
    exact hsound ho (hs.held x rfl)

/-- An exchange ends or is given up. -/
theorem leave (hlink : x.link? = some link) : Moves replies w (some x) w (some (.inHand link)) :=
  turnInto (Holding.handle_of_link? hlink).symm fun _ hx hunbroken => hx.settled hlink hunbroken

/-- The activity does something on the connection that it has. -/
theorem act {net : Watched N} {e : Traffic} (hwho : net.who = w.net.who)
    (hrecord : net.record = e :: w.net.record)
    (heWho : e.who = w.net.who) (heHandle : e.handle = x.handle) (hhandle : x'.handle = x.handle)
    (hsound : Orderly replies (e :: w.net.record) → x.Sound replies w.net.record w.net.who →
      x'.Sound replies (e :: w.net.record) w.net.who) :
    Moves replies w (some x) { w with net } (some x') where
  who := hwho
  exists_new := by
    refine ⟨[e], hrecord, ?_, ?_⟩
    · simp [owned, heWho, heHandle]
    · simp [owned, hhandle, List.sublist_append_right _ _ |>.subperm]
  sound ho hs := by
    change Orderly replies net.record at ho
    rw [hrecord] at ho
    simp only [hrecord, hwho]
    refine ⟨fun link hlink => ?_, ?_⟩
    · obtain ⟨hunbroken, hsettled, hwhole⟩ := hs.idle link hlink
      have hfar : ∀ e' ∈ [e], e'.handle ≠ link.handle := by
        intro e' he' heq
        obtain rfl := List.mem_singleton.1 he'
        exact hs.handle_ne hlink (heq.symm.trans heHandle)
      exact ⟨hunbroken, hsettled.append hfar, hwhole.append hfar⟩
    · rintro _ ⟨⟩
      exact hsound ho (hs.held x rfl)

/-- The activity opens a connection. -/
theorem connect {net : Watched N} {h : Handle} (hwho : net.who = w.net.who)
    (hrecord : net.record = .opened w.net.who h :: w.net.record) :
    Moves replies w none { w with net } (some (.opening h)) where
  who := hwho
  exists_new := by
    refine ⟨[.opened w.net.who h], hrecord, ?_, ?_⟩
    · simp [Traffic.who, Traffic.handle, Traffic.openings]
    · rw [owned_none, owned_some]
      exact (List.perm_append_singleton h _).subperm
  sound ho hs := by
    change Orderly replies net.record at ho
    rw [hrecord] at ho
    simp only [hrecord, hwho]
    have hnone : ∀ e ∈ w.net.record, e.handle ≠ h := by
      intro e he heq
      have hnew : e.handle ∉ Traffic.openings [.opened w.net.who h] := not_mem_openings ho (hs.noted e he)
      exact hnew (by simp [Traffic.openings, heq])
    refine ⟨fun link hlink => ?_, ?_⟩
    · obtain ⟨hunbroken, hsettled, hwhole⟩ := hs.idle link hlink
      have hopened : link.handle ∈ Traffic.openings w.net.record :=
        hs.opened _ (by rw [owned_none]; exact List.mem_map_of_mem hlink)
      have hnew : link.handle ∉ Traffic.openings [.opened w.net.who h] := not_mem_openings ho hopened
      have hfar : ∀ e ∈ [Traffic.opened w.net.who h], e.handle ≠ link.handle := by
        intro e he heq
        obtain rfl := List.mem_singleton.1 he
        exact hnew (List.mem_singleton.2 heq.symm)
      exact ⟨hunbroken, hsettled.append hfar, hwhole.append hfar⟩
    · rintro _ ⟨⟩
      have hcommands : Traffic.commands h w.net.record = 0 := Traffic.commands_eq_zero hnone
      have hoctets : Traffic.octets h w.net.record = [] := Traffic.octets_eq_nil hnone
      exact ⟨hcommands, hoctets, Traffic.whole_opened hnone⟩

/-- A link is taken from its pool. -/
theorem take {id : PoolId} {p : Pool} (h : (w.pool id).takeIdle = (some link, p)) :
    Moves replies w none (w.modifyPool id fun _ => p) (some (.inHand link)) := by
  have hidle : link :: (w.modifyPool id fun _ => p).topology.idle <+~ w.topology.idle := Topology.idle_take h
  refine ⟨rfl, ⟨[], rfl, by simp, ?_⟩, fun _ hs => ⟨fun l hl => ?_, ?_⟩⟩
  · rw [Traffic.openings_nil, List.nil_append, owned_none, owned_some]
    exact (List.perm_append_singleton link.handle _).subperm.trans (handles_subperm hidle)
  · exact hs.idle l (hidle.subset (List.mem_cons_of_mem _ hl))
  · rintro _ ⟨⟩
    exact fun _ => (hs.idle link (hidle.subset List.mem_cons_self)).2

/-- A link goes back to its pool. -/
theorem giveBack {id : PoolId} {discard : Bool} (hlink : x.link? = some link) :
    Moves replies w (some x) (Loan.giveBack w id link discard) none := by
  have hcases : (w.modifyPool id fun p => p.giveBack link discard).topology.idle <+ w.topology.idle ∨
      link.broken = false ∧ (w.modifyPool id fun p => p.giveBack link discard).topology.idle <+~ link :: w.topology.idle :=
    Topology.idle_giveBack link discard
  rcases hcases with hless | ⟨hunbroken, hmore⟩
  · exact letGo.trans (of_topology hless)
  · refine ⟨rfl, ⟨[], rfl, by simp, ?_⟩, fun _ hs => ⟨fun l hl => ?_, by simp⟩⟩
    · rw [Traffic.openings_nil, List.nil_append, owned_none, owned_some, Holding.handle_of_link? hlink]
      exact (handles_subperm hmore).trans (List.perm_append_singleton link.handle _).symm.subperm
    · rcases List.mem_cons.1 (hmore.subset hl) with rfl | hold
      · exact ⟨hunbroken, (hs.held x rfl).settled hlink hunbroken⟩
      · exact hs.idle l hold

end Moves
end SlotRouter
