import SlotRouter.Proofs.Coalescing
import SlotRouter.Proofs.Inquiries

/-!
# The first layout or nothing

What has come of the candidates of a search is noted in a survey. When a search begins, its survey opens
with the nodes that are registered, in the order that chance gives, and with the seeds that are not among
them. From then on the candidates in the survey and those whom the search has still to ask are all of
them, and everybody in the survey has failed (`Survey.Tells`, `System.Surveyed.tells`), whatever the other
callers do meanwhile. So a search ends with the first layout that it can read, or with everybody asked in
vain; and the topology is touched at its end only, by installing that layout.

Key definitions: `Survey`, `Survey.Tells`, `Survey.Finds`, `System.Surveyed`. Key theorems:
`Survey.Tells.learn`, `Refresh.after_turn`, `System.Surveyed.tells`, `System.first_layout_or_nothing`.
-/

namespace SlotRouter

variable {N α : Type}

/-! ### What becomes of pools -/

namespace Topology

variable {t t' t'' : Topology} {id : PoolId}

/-- No pool is lost, and no pool changes its address. -/
structure Lasts (t t' : Topology) : Prop where
  length : t.pools.length ≤ t'.pools.length
  address : ∀ id < t.pools.length, (t'.pool id).address = (t.pool id).address

namespace Lasts

theorem refl (t : Topology) : t.Lasts t := ⟨Nat.le_refl _, fun _ _ => rfl⟩

theorem trans (h : t.Lasts t') (h' : t'.Lasts t'') : t.Lasts t'' where
  length := h.length.trans h'.length
  address _ hid := (h'.address _ (hid.trans_le h.length)).trans (h.address _ hid)

theorem modifyPool (t : Topology) (id : PoolId) {change : Pool → Pool}
    (haddress : ∀ p, (change p).address = p.address) : t.Lasts (t.modifyPool id change) := by
  refine ⟨(List.length_modify ..).ge, fun other _ => ?_⟩
  rw [pool_modifyPool]
  split_ifs
  · exact haddress _
  · rfl

/-- Whatever is done to a topology, its pools last. -/
theorem stepwise : Stepwise Lasts where
  trans := trans
  quiet h := ⟨h.length.ge, fun id _ => h.address id⟩
  grows h := ⟨h.length_le, fun _ hid => congrArg Pool.address (h.pool hid)⟩
  retain t live := by
    have hclosed := foldl_close_induction (P := t.Lasts) (fun _ id ht => ht.trans (modifyPool _ id fun _ => rfl))
      (t.registry.filter fun e => !live.contains e.1) t (refl t)
    exact ⟨hclosed.length, hclosed.address⟩
  same _ hpools := by
    refine ⟨(congrArg List.length hpools).ge, fun id _ => ?_⟩
    unfold Topology.pool
    rw [hpools]

end Lasts

/-- Whoever was registered still is, under the same pool. -/
def Retains (t t' : Topology) : Prop := ∀ address id, t.registered? address = some id → t'.registered? address = some id

theorem Quiet.retains (h : t.Quiet t') : t.Retains t' := fun address _ hid => (h.registered? address).trans hid

/-- **As long as the client is open and no layout is counted, nobody loses his pool.** -/
theorem Change.retains (h : t.Change t') (hgeneration : t'.generation = t.generation) (hopen : t'.closed = false) :
    t.closed = false ∧ t.Retains t' := by
  cases h with
  | quiet h => exact ⟨h.closed.symm.trans hopen, h.retains⟩
  | refreshed before hinstall after =>
    have hcount : t'.generation = t.generation + 1 := by
      rw [after.generation, generation_install hinstall, before.generation]
    omega
  | @moved t₁ before slot address after =>
    cases hclosed : t₁.closed with
    | true =>
      rw [move_of_closed hclosed] at after
      rw [after.closed, hclosed] at hopen
      cases hopen
    | false =>
      rw [move_of_open hclosed] at after
      have hgrows := Grows.obtain t₁ address
      exact ⟨before.closed.symm.trans hclosed,
        fun other id hid => after.retains other id (hgrows.registered? (before.retains other id hid))⟩
  | @obtained t₁ before address after =>
    have hgrows := Grows.obtain t₁ address
    refine ⟨?_, fun other id hid => after.retains other id (hgrows.registered? (before.retains other id hid))⟩
    rw [← before.closed, ← hgrows.closed, ← after.closed, hopen]
  | closed before after =>
    rw [after.closed] at hopen
    cases hopen

/-- Chance arranges those who are registered. -/
theorem perm_drawNodes (t : Topology) : t.drawNodes.1.Perm (t.registry.map Prod.fst) :=
  (t.setup.chance.perm t.draws t.nodes).trans (List.mergeSort_perm _ _)

/-- Whoever is drawn is registered. -/
theorem Agrees.registered?_of_mem_drawNodes (ht : t.Agrees) {node : String} (hnode : node ∈ t.drawNodes.1) :
    ∃ id, t.registered? node = some id := by
  obtain ⟨⟨_, id⟩, hentry, rfl⟩ := List.mem_map.1 (t.perm_drawNodes.mem_iff.1 hnode)
  exact ⟨id, ht.registered?_iff.2 hentry⟩

end Topology

theorem Discovery.Contacts.later {d : Discovery} {t t' : Topology} (h : d.Contacts t) (hlasts : t.Lasts t') :
    d.Contacts t' := by
  have hpool : ∀ {id : PoolId} {node : String}, id < t.pools.length ∧ (t.pool id).address = node →
      id < t'.pools.length ∧ (t'.pool id).address = node := fun hid =>
    ⟨hid.1.trans_le hlasts.length, (hlasts.address _ hid.1).trans hid.2⟩
  cases d with
  | borrowing node nodes seeds b => exact hpool h
  | querying node nodes seeds id x => exact ⟨hpool h.1, h.2⟩
  | dialling | asking => exact h

/-! ### Surveys -/

/-- What has come of the candidates of a search. -/
structure Survey where
  nodes : List String := []
  seeds : List String := []
  /-- Who has been asked, in order, and what came of it. -/
  inquiries : List (Candidate × Finding) := []
  /-- Somebody has installed a layout by hand since. -/
  replaced : Bool := false

namespace Survey

/-- The survey of a search that begins. -/
def opening (t : Topology) : Survey where
  nodes := t.drawNodes.1
  seeds := t.setup.seeds.filter fun seed => !t.drawNodes.1.contains seed

/-- Whom the search may ask, in order. -/
def candidates (v : Survey) : List Candidate := Candidate.inOrder v.nodes v.seeds

def learn (v : Survey) (news : List (Candidate × Finding)) : Survey := { v with inquiries := v.inquiries ++ news }

/-- Nobody has had a layout so far, and `left` are still to be asked. -/
structure Tells (v : Survey) (t : Topology) (left : List Candidate) : Prop where
  order : v.inquiries.map Prod.fst ++ left = v.candidates
  failed : ∀ i ∈ v.inquiries, i.2.Fails
  distinct : v.nodes.Nodup
  unknown : ∀ seed ∈ v.seeds, seed ∉ v.nodes
  /-- On a client that is open the nodes keep their pools, unless a layout is installed by hand. -/
  kept : v.replaced = false → t.closed = false →
    (∀ node ∈ v.nodes, ∃ id, t.registered? node = some id) ∧ ∀ i ∈ v.inquiries, i.2 ≠ .gone

/-- The last who was asked is the first who has had a layout, read for his own host. -/
def Finds (v : Survey) (ranges : List SlotRange) : Prop :=
  ∃ earlier candidate f later, v.inquiries = earlier ++ [(candidate, .laidOut f ranges)] ∧
    (∀ i ∈ earlier, i.2.Fails) ∧ v.candidates = earlier.map Prod.fst ++ candidate :: later ∧
    Layout.ofReply candidate.host f = .ok ranges

/-- What the survey of a search says after a turn, if it was `v` before and the topology was `t`. -/
inductive After (v : Survey) (t : Topology) (v' : Survey) : Discovery.Step → Prop where
  | waits {d : Discovery} (same : v' = v) (tells : v'.Tells t d.candidates) : After v t v' .blocked
  | goesOn {d : Discovery} (tells : v'.Tells t d.candidates) (contacts : d.Contacts t) : After v t v' (.running d)
  | fails (tells : v'.Tells t []) : After v t v' (.done (.error .noReachableNode))
  | finds {ranges : List SlotRange} (finds : v'.Finds ranges) : After v t v' (.done (.ok ranges))

variable {v : Survey} {t t' : Topology} {left : List Candidate}

theorem Finds.unique {ranges ranges' : List SlotRange} (h : v.Finds ranges) (h' : v.Finds ranges') :
    ranges = ranges' := by
  obtain ⟨earlier, candidate, f, later, hlast, -⟩ := h
  obtain ⟨earlier', candidate', f', later', hlast', -⟩ := h'
  have hsame := List.append_inj_right' (hlast.symm.trans hlast') rfl
  simp only [List.cons.injEq, Prod.mk.injEq, Finding.laidOut.injEq] at hsame
  exact hsame.1.2.2

/-- The pools of the nodes are all that matters of the topology. -/
theorem Tells.later (h : v.Tells t left) (hkept : t'.closed = false → t.closed = false ∧ t.Retains t') :
    v.Tells t' left := by
  refine ⟨h.order, h.failed, h.distinct, h.unknown, fun hreplaced hopen => ?_⟩
  obtain ⟨hbefore, hretains⟩ := hkept hopen
  obtain ⟨hnodes, hthere⟩ := h.kept hreplaced hbefore
  refine ⟨fun node hnode => ?_, hthere⟩
  obtain ⟨id, hid⟩ := hnodes node hnode
  exact ⟨id, hretains node id hid⟩

/-- A node that is still to be asked is one of those with which the search began. -/
theorem Tells.mem_nodes {d : Discovery} (h : v.Tells t d.candidates) {node : String} (hnode : node ∈ d.laterNodes) :
    node ∈ v.nodes := by
  have hlater : Candidate.node node ∈ d.candidates :=
    List.mem_cons_of_mem _ (List.mem_append_left _ (List.mem_map_of_mem hnode))
  have hcandidate : Candidate.node node ∈ v.candidates := h.order ▸ List.mem_append_right _ hlater
  simpa [candidates, Candidate.inOrder] using hcandidate

/-- When a candidate has failed, the nodes that are passed over are noted with him; there are none as long as
nobody loses his pool. -/
theorem Tells.fail {d : Discovery} {finding : Finding} (h : v.Tells t d.candidates) (hfails : finding.Fails)
    (hthere : finding ≠ .gone) :
    (v.learn ((d.current, finding) :: (Discovery.passedOver t d.laterNodes).map fun node => (.node node, .gone))).Tells t
      (Candidate.inOrder (Discovery.remaining t d.laterNodes) d.laterSeeds) := by
  have hmem : ∀ i ∈ v.inquiries ++ (d.current, finding) ::
      (Discovery.passedOver t d.laterNodes).map (fun node => (Candidate.node node, Finding.gone)),
      i ∈ v.inquiries ∨ i = (d.current, finding) ∨
        ∃ node ∈ Discovery.passedOver t d.laterNodes, (Candidate.node node, Finding.gone) = i := by
    intro i hi
    rcases List.mem_append.1 hi with hearlier | hnew
    · exact .inl hearlier
    · exact .inr ((List.mem_cons.1 hnew).imp_right List.mem_map.1)
  refine ⟨?_, fun i hi => ?_, h.distinct, h.unknown, fun hreplaced hopen => ?_⟩
  · have hcandidates : d.candidates = d.current :: ((Discovery.passedOver t d.laterNodes).map Candidate.node ++
        Candidate.inOrder (Discovery.remaining t d.laterNodes) d.laterSeeds) := by
      unfold Discovery.candidates Candidate.inOrder Discovery.passedOver Discovery.remaining
      rw [← List.append_assoc, ← List.map_append, List.takeWhile_append_dropWhile]
    show List.map Prod.fst (v.inquiries ++ _) ++ _ = v.candidates
    rw [← h.order, hcandidates]
    simp [Function.comp_def]
  · rcases hmem i hi with hearlier | rfl | ⟨node, -, rfl⟩
    · exact h.failed i hearlier
    · exact hfails
    · trivial
  · obtain ⟨hnodes, hearlier⟩ := h.kept hreplaced hopen
    refine ⟨hnodes, fun i hi => ?_⟩
    rcases hmem i hi with hold | rfl | ⟨node, hnode, rfl⟩
    · exact hearlier i hold
    · exact hthere
    · obtain ⟨id, hid⟩ := hnodes node (h.mem_nodes (List.takeWhile_subset _ hnode))
      have hnone := List.mem_takeWhile_imp hnode
      rw [hid] at hnone
      cases hnone

/-- **What a turn teaches is noted.** -/
theorem Tells.learn {d : Discovery} {news : List (Candidate × Finding)} {step : Discovery.Step}
    (h : v.Tells t d.candidates) (hlearns : d.Learns t news step) : v.After t (v.learn news) step := by
  have hnothing : v.learn [] = v := by
    unfold Survey.learn
    rw [List.append_nil]
  cases hlearns with
  | waits => exact .waits hnothing (hnothing.symm ▸ h)
  | goesOn horder hcontacts =>
    rw [hnothing]
    exact .goesOn (horder ▸ h) hcontacts
  | fails hfails hthere hnext =>
    have hnoted := h.fail hfails hthere
    cases hnext with
    | nobody hnone => exact .fails (hnone ▸ hnoted)
    | somebody horder hcontacts => exact .goesOn (horder ▸ hnoted) hcontacts
  | @lays f ranges hreads =>
    exact .finds ⟨v.inquiries, d.current, f, _, rfl, h.failed, h.order.symm, hreads⟩

/-- **A search begins with the first of its candidates.** -/
theorem continues_start [Network N] {w : World N} (ht : w.topology.Agrees) (lock : Semaphore) :
    Discovery.Continues w.topology (opening w.topology).candidates
      (Discovery.start (Refresh.withLock w lock)).2 := by
  have hall : Discovery.remaining w.topology w.topology.drawNodes.1 = w.topology.drawNodes.1 := by
    refine List.dropWhile_eq_self_iff.2 fun hsome => ?_
    obtain ⟨id, hid⟩ := ht.registered?_of_mem_drawNodes (List.getElem_mem hsome)
    simp [hid]
  have hstart : Discovery.start (Refresh.withLock w lock) =
      Discovery.nextNode { Refresh.withLock w lock with topology := (Refresh.withLock w lock).topology.drawNodes.2 }
        (opening w.topology).seeds w.topology.drawNodes.1 := rfl
  have hnext := Discovery.continues_nextNode (t := w.topology)
    (w := { Refresh.withLock w lock with topology := (Refresh.withLock w lock).topology.drawNodes.2 }) ht (fun _ => rfl)
    (opening w.topology).seeds w.topology.drawNodes.1
  rwa [← hstart, hall] at hnext

/-- **A search begins with everybody still to be asked.** -/
theorem after_start [Network N] {w : World N} (ht : w.topology.Agrees) (v : Survey) (lock : Semaphore) :
    v.After w.topology (opening w.topology) (Discovery.start (Refresh.withLock w lock)).2 := by
  have hopening : (opening w.topology).Tells w.topology (opening w.topology).candidates := by
    refine ⟨rfl, List.forall_mem_nil _, ?_, fun seed hseed => ?_,
      fun _ _ => ⟨fun node => ht.registered?_of_mem_drawNodes, List.forall_mem_nil _⟩⟩
    · exact w.topology.perm_drawNodes.nodup_iff.2 ht.distinct
    · have hunknown : (!w.topology.drawNodes.1.contains seed) = true := (List.mem_filter.1 hseed).2
      show seed ∉ w.topology.drawNodes.1
      simpa using hunknown
  have hnext := continues_start ht lock
  generalize (Discovery.start (Refresh.withLock w lock)).2 = step at hnext
  cases hnext with
  | nobody hnone => exact .fails (hnone ▸ hopening)
  | somebody horder hcontacts => exact .goesOn (horder ▸ hopening) hcontacts

end Survey

/-! ### Refreshes -/

namespace Refresh

/-- The survey of a search tells whom it has still to ask, and the first of them is being asked. -/
def IsTold (v : Survey) (t : Topology) : Refresh → Prop
  | .discovering d => v.Tells t d.candidates ∧ d.Contacts t
  | .entering | .queued .. => True

variable [Network N] {w : World N} {v : Survey} {r r' : Refresh}

/-- The survey after a turn: a search that begins opens a new one, and what a search learns is noted. -/
def survey (w : World N) (v : Survey) (r : Refresh) : Survey :=
  match r with
  | .discovering d => v.learn (d.news w)
  | .entering | .queued .. => if r.begins (r.turn w).2 then .opening w.topology else v

theorem survey_of_idle (hidle : r.isSearching = false) :
    r.survey w v = if r.begins (r.turn w).2 then .opening w.topology else v := by
  cases r with
  | entering | queued => rfl
  | discovering d => cases hidle

/-- Only a refresh that does not search begins to. -/
theorem idle_of_begins {step : Turn Refresh (Except Error Unit)} (h : r.begins step = true) :
    r.isSearching = false := by
  cases hsearching : r.isSearching with
  | false => rfl
  | true =>
    unfold begins at h
    rw [hsearching] at h
    split at h <;> cases h

/-- **A search begins with the lock of an open client.** -/
theorem turn_of_begins (h : r.begins (r.turn w).2 = true) : w.topology.closed = false ∧
    ∃ lock, r.turn w = searched (Discovery.start (withLock w lock)).1 (Discovery.start (withLock w lock)).2 := by
  have hlocked : ∀ lock seen, r.begins (locked (withLock w lock) seen).2 = true → w.topology.closed = false ∧
      locked (withLock w lock) seen =
        searched (Discovery.start (withLock w lock)).1 (Discovery.start (withLock w lock)).2 := by
    intro lock seen hbegins
    unfold locked at hbegins ⊢
    split_ifs at hbegins ⊢ with hclosed
    · cases hbegins
    · cases hbegins
    · exact ⟨Bool.eq_false_iff.2 hclosed, rfl⟩
  cases r with
  | entering =>
    simp only [turn] at h ⊢
    split_ifs at h ⊢
    · cases h
    · rcases hacquire : w.topology.refreshLock.acquire with ⟨_ | ticket | _, lock⟩ <;> rw [hacquire] at h
      · obtain ⟨hopen, hsearch⟩ := hlocked lock _ h
        exact ⟨hopen, lock, hsearch⟩
      · cases h
      · cases h
  | queued seen ticket =>
    simp only [turn] at h ⊢
    rcases hcollect : w.topology.refreshLock.collect ticket with ⟨_ | ticket | _, lock⟩ <;> rw [hcollect] at h
    · obtain ⟨hopen, hsearch⟩ := hlocked lock seen h
      exact ⟨hopen, lock, hsearch⟩
    · cases h
    · cases h
  | discovering d => cases idle_of_begins h

/-- **The survey after a turn in which there was a search**, and what has come of the search. -/
theorem after_turn (ht : w.topology.Agrees) (htold : r.IsTold v w.topology)
    (hsearch : r.isSearching = true ∨ r.begins (r.turn w).2 = true) :
    ∃ (w' : World N) (step : Discovery.Step), r.turn w = searched w' step ∧ w.topology.Quiet w'.topology ∧
      v.After w.topology (r.survey w v) step := by
  rcases hsearch with hsearching | hbegins
  · cases r with
    | entering | queued => cases hsearching
    | discovering d => exact ⟨_, _, rfl, d.quiet_turn w, htold.1.learn (Discovery.turn_learns ht htold.2)⟩
  · obtain ⟨-, lock, hturn⟩ := turn_of_begins hbegins
    refine ⟨_, _, hturn, (quiet_withLock w lock).trans (Discovery.quiet_start _), ?_⟩
    rw [survey_of_idle (idle_of_begins hbegins), if_pos hbegins]
    exact Survey.after_start ht v lock

/-- **What is left of a search goes on with those who are left.** -/
theorem isTold_turn (ht : w.topology.Agrees) (htold : r.IsTold v w.topology)
    (h : (r.turn w).2 = .running r' ∨ (r.turn w).2 = .blocked ∧ r' = r) : r'.IsTold (r.survey w v) w.topology := by
  cases r' with
  | entering | queued => trivial
  | discovering d =>
    have hsearch : r.isSearching = true ∨ r.begins (r.turn w).2 = true := by
      rcases h with hrunning | ⟨-, rfl⟩
      · rw [hrunning]
        cases hidle : r.isSearching with
        | false => exact .inr (begins_discovering hidle d)
        | true => exact .inl rfl
      · exact .inl rfl
    obtain ⟨w', step, hturn, -, hafter⟩ := after_turn ht htold hsearch
    rw [hturn] at h
    cases hafter with
    | waits hsame =>
      obtain ⟨-, rfl⟩ := h.resolve_left nofun
      rw [hsame]
      exact htold
    | goesOn htells hcontacts =>
      obtain rfl := discovering.inj (Turn.running.inj (h.resolve_right nofun))
      exact ⟨htells, hcontacts⟩
    | fails | finds => exact h.elim nofun fun h => by cases h.1

/-- **A turn of a refresh touches the topology only to install what a search has found.** -/
theorem quiet_or_installs (w : World N) (r : Refresh) : w.topology.Quiet (r.turn w).1.topology ∨
    r.isSearching = true ∧ (r.turn w).2 = .done (.ok ()) := by
  have hdoes := turn_does w r
  generalize r.turn w = out at hdoes ⊢
  cases hdoes with
  | refuse | wait => exact .inl (.refl _)
  | queue | late | served => exact .inl (quiet_withLock w _)
  | search _ quiet | nobody _ quiet | waits quiet | goesOn quiet | fails quiet => exact .inl quiet
  | installs => exact .inr ⟨rfl, rfl⟩

omit [Network N] in
theorem IsTold.later {t t' : Topology} (h : r.IsTold v t) (hlasts : t.Lasts t')
    (hkept : r.isSearching = true → t'.closed = false → t.closed = false ∧ t.Retains t') : r.IsTold v t' := by
  cases r with
  | entering | queued => trivial
  | discovering d => exact ⟨h.1.later (hkept rfl), h.2.later hlasts⟩

end Refresh

/-! ### Clients -/

/-- A layout may also be installed by hand. -/
def Survey.operate (v : Survey) : Topology.Operation → Survey
  | .install _ => { v with replaced := true }
  | .move .. | .obtain _ | .close => v

namespace System

variable [Network N] {setup : Setup} {s : System N α} {who : Nat} {v : Survey} {r r' : Refresh}

/-- The survey of a caller's searches after an event: only his own turns add to it. -/
def survey (s : System N α) (who : Nat) (v : Survey) : Event N α → Survey
  | .turn other =>
    if other = who then
      match s.refresh? who with
      | some r => r.survey (s.seenBy who) v
      | none => v
    else v
  | .start .. | .drop _ | .elapse _ | .stir _ | .close => v

/-- The states that a client comes to from a start with nothing known, with the survey of a caller's searches. -/
inductive Surveyed (setup : Setup) (who : Nat) : Survey → System N α → Prop where
  | start {s : System N α} (topology : s.world.topology = .fresh setup)
      (active : ∀ who, s.active who = none) : Surveyed setup who {} s
  | step {s : System N α} {v : Survey} (e : Event N α) : Surveyed setup who v s →
      Surveyed setup who (s.survey who v e) (s.step e)
  | operate {s : System N α} {v : Survey} (op : Topology.Operation) : Surveyed setup who v s →
      Surveyed setup who (v.operate op) (s.operate op)

theorem Surveyed.arises (hs : Surveyed setup who v s) : s.Arises setup := by
  induction hs with
  | start topology active => exact .start topology active
  | step e hs ih => exact ih.step e
  | operate op hs ih => exact ih.operate op

/-- Every state that arises has a survey for each caller. -/
theorem Arises.surveyed (hs : s.Arises setup) (who : Nat) : ∃ v, Surveyed setup who v s := by
  induction hs with
  | start topology active => exact ⟨_, .start topology active⟩
  | step e hs ih =>
    obtain ⟨v, hv⟩ := ih
    exact ⟨_, hv.step e⟩
  | operate op hs ih =>
    obtain ⟨v, hv⟩ := ih
    exact ⟨_, hv.operate op⟩

theorem survey_turn (hr : s.refresh? who = some r) : s.survey who v (.turn who) = r.survey (s.seenBy who) v := by
  simp only [survey, hr, if_pos]

theorem survey_of_ne {e : Event N α} (he : e ≠ .turn who) : s.survey who v e = v := by
  cases e with
  | turn other =>
    have hother : other ≠ who := fun h => he (h ▸ rfl)
    exact if_neg hother
  | _ => rfl

/-- What others do leaves a refresh as it is. -/
theorem refresh?_of_ne {e : Event N α} (he : e ≠ .turn who) (h : (s.step e).refresh? who = some r') :
    r' = .entering ∨ s.refresh? who = some r' := by
  rcases refresh?_step e h with hnew | ⟨hsame, -⟩ | ⟨r, rfl, -⟩
  · exact .inl hnew
  · exact .inr hsame
  · exact absurd rfl he

/-- After its own turn a refresh is what the turn has left of it. -/
theorem refresh?_turn (h : (s.step (.turn who)).refresh? who = some r') :
    r' = .entering ∨ ∃ r, s.refresh? who = some r ∧
      ((r.turn (s.seenBy who)).2 = .running r' ∨ (r.turn (s.seenBy who)).2 = .blocked ∧ r' = r) := by
  cases ha : s.active who with
  | none =>
    have hidle : (s.step (.turn who)).refresh? who = none := by simp [step, refresh?, ha]
    rw [hidle] at h
    cases h
  | some a =>
    rw [step_turn ha, refresh?, active_put] at h
    rcases Activity.refresh?_turn (s.seenBy who) a h with hnew | ⟨r, hr, hor⟩
    · exact .inl hnew
    · exact .inr ⟨r, by simp [refresh?, ha, hr], hor⟩

/-- **While a caller searches nobody loses his pool**, as long as the client is open. -/
theorem Arises.retains_step (hs : s.Arises setup) (e : Event N α) (h : (s.step e).refresh? who = some r')
    (hsearching : r'.isSearching = true) (hopen : (s.step e).world.topology.closed = false) :
    s.world.topology.closed = false ∧ s.world.topology.Retains (s.step e).world.topology := by
  have hentered : r' ≠ .entering := by
    rintro rfl
    cases hsearching
  refine (change_step s e).retains ?_ hopen
  rcases generation_step s e with ⟨hsame, -⟩ | ⟨other, r, rfl, hr, hcount⟩
  · exact hsame
  · rcases r.quiet_or_installs (s.seenBy other) with hquiet | ⟨hfinds, hdone⟩
    · exact hcount.trans hquiet.generation
    · exfalso
      by_cases hother : other = who
      · subst hother
        obtain ⟨r₀, hr₀, hleft⟩ := (refresh?_turn h).resolve_left hentered
        obtain rfl := Option.some.inj (hr.symm.trans hr₀)
        rw [hdone] at hleft
        rcases hleft with hleft | ⟨hleft, -⟩ <;> cases hleft
      · have hne : (.turn other : Event N α) ≠ .turn who := fun heq => hother (Event.turn.inj heq)
        have hsame := (refresh?_of_ne hne h).resolve_left hentered
        exact hother (hs.searches_unique ⟨r, hr, hfinds⟩ ⟨r', hsame, hsearching⟩)

/-- **The survey of a search tells how far it has come**, in every state that arises. -/
theorem Surveyed.tells (hs : Surveyed setup who v s) (hr : s.refresh? who = some r) :
    r.IsTold v s.world.topology := by
  induction hs generalizing r with
  | @start s topology active => simp [refresh?, active who] at hr
  | @step s v e hs ih =>
    have hlater : ∀ {v'}, r.IsTold v' s.world.topology → r.IsTold v' (s.step e).world.topology := fun htold =>
      htold.later (Topology.Lasts.stepwise.change (change_step s e)) (hs.arises.retains_step e hr)
    refine hlater ?_
    by_cases he : e = .turn who
    · subst he
      rcases refresh?_turn hr with rfl | ⟨r₀, hr₀, hleft⟩
      · trivial
      · rw [survey_turn hr₀]
        exact Refresh.isTold_turn (w := s.seenBy who) hs.arises.agrees (ih hr₀) hleft
    · rw [survey_of_ne he]
      rcases refresh?_of_ne he hr with rfl | hsame
      · trivial
      · exact ih hsame
  | @operate s v op hs ih =>
    have htold : r.IsTold v s.world.topology := ih hr
    have hlasts := Topology.Lasts.stepwise.apply s.world.topology op
    have hsame : (s.operate op).world.topology.generation = s.world.topology.generation :=
      s.world.topology.generation_apply op
    cases op with
    | install ranges =>
      cases r with
      | entering | queued => trivial
      | discovering d =>
        obtain ⟨⟨horder, hfailed, hdistinct, hunknown, -⟩, hcontacts⟩ := htold
        exact ⟨⟨horder, hfailed, hdistinct, hunknown, fun hreplaced => by cases hreplaced⟩, hcontacts.later hlasts⟩
    | move slot address =>
      have hchange : s.world.topology.Change (s.world.topology.move slot.toNat address).2 :=
        .moved (.refl _) slot address (.refl _)
      exact htold.later hlasts fun _ => hchange.retains hsame
    | obtain address =>
      have hchange : s.world.topology.Change (s.world.topology.obtain address).2 :=
        .obtained (.refl _) address (.refl _)
      exact htold.later hlasts fun _ => hchange.retains hsame
    | close =>
      have hchange : s.world.topology.Change s.world.topology.close := .closed (.refl _) (.refl _)
      exact htold.later hlasts fun _ => hchange.retains hsame

end System

/-! ### A seed that is down -/

/-- A network on which the first connection is refused, and everybody else has the layout of an atlas. -/
structure Breakdown where
  atlas : Atlas := {}

namespace Breakdown

instance : Network Breakdown where
  connect p now address := (⟨(Network.connect p.atlas now address).1⟩, (Network.connect p.atlas now address).2)
  opening _ _ h := if h = 0 then .failed .refused else .opened
  send p now h octets := (⟨(Network.send p.atlas now h octets).1⟩, (Network.send p.atlas now h octets).2)
  receive p now h := (⟨(Network.receive p.atlas now h).1⟩, (Network.receive p.atlas now h).2)
  nextEvent? _ _ := none

/-- A client that is told of two seeds. -/
def seeded : Setup := { Topology.bare with seeds := ["x:1", "y:1"] }

/-- The client knows nothing. -/
def blank : System Breakdown Unit where
  world := { topology := .fresh seeded, net := { net := {} } }
  active _ := none

/-- A refresh has asked the second seed for the layout, and it has come. -/
def answered : System Breakdown Unit :=
  [.start 0 .refresh, .turn 0, .turn 0, .turn 0, .turn 0, .turn 0, .turn 0].foldl System.step blank

end Breakdown
end SlotRouter
