import SlotRouter.Proofs.Books.Activities
import SlotRouter.Proofs.Refreshes

/-!
# Refreshes that come together

Any number of refreshes of one client may be under way, of callers who ask for one and of invocations
that have to learn the layout, and each may fail or be given up at any point. What they do is noted in
a log: a refresh looks at the count of layouts when it enters, begins a search, installs a layout, and
returns.

A refresh that waits remembers the count that it saw. By an invariant on the log that number and the
installs since then are the count at present (`Refresh.Told`), so the comparison that a refresh makes
when it gets the lock says whether somebody has installed a layout in the meantime. That only one
refresh searches is read off from the books: a refresh that searches has the one permit of the lock.

Key definitions: `Notice`, `System.Noted`, `Refresh.Told`, `Notice.Fits`. Key theorems:
`Refresh.recounts_of_does`, `System.Arises.balanced`, `System.Noted.coherent`,
`System.refreshes_coalesce`.
-/

namespace SlotRouter

variable {N α : Type}

/-! ### The log -/

/-- What is noted of the refresh of a caller. -/
inductive Notice where
  /-- It has its first turn, and looks at the count of layouts. -/
  | entered (who : Nat)
  /-- It begins a search. -/
  | searching (who : Nat)
  | installed (who : Nat)
  | returned (who : Nat) (result : Except Error Unit)

namespace Notice

/-- The caller whose refresh it is. -/
def who : Notice → Nat
  | .entered who | .searching who | .installed who | .returned who _ => who

/-- Whether a layout is installed. -/
def isInstall : Notice → Bool
  | .installed _ => true
  | .entered _ | .searching _ | .returned .. => false

/-- Whether the caller's refresh enters. -/
def enters (who : Nat) : Notice → Bool
  | .entered other => other = who
  | .searching _ | .installed _ | .returned .. => false

/-- What has been noted since the caller's refresh entered; the log has the latest in front. -/
def since (who : Nat) (log : List Notice) : List Notice := log.takeWhile fun n => !n.enters who

/-- How many layouts have been installed. -/
def installs (log : List Notice) : Nat := log.countP isInstall

variable {who : Nat} {log new : List Notice}

theorem installs_append (new log : List Notice) : installs (new ++ log) = installs new + installs log :=
  List.countP_append

theorem installs_pos : 0 < installs log ↔ ∃ other, .installed other ∈ log := by
  refine List.countP_pos_iff.trans ⟨?_, ?_⟩
  · rintro ⟨n, hn, hinstall⟩
    cases n with
    | installed other => exact ⟨other, hn⟩
    | _ => cases hinstall
  · rintro ⟨other, hother⟩
    exact ⟨_, hother, rfl⟩

theorem installs_eq_zero : installs log = 0 ↔ ∀ other, .installed other ∉ log := by
  rw [← not_exists, ← installs_pos, Nat.pos_iff_ne_zero, not_not]

@[simp] theorem since_entered (who : Nat) (log : List Notice) : since who (.entered who :: log) = [] := by
  simp [since, enters]

theorem enters_of_ne {n : Notice} (h : n.who ≠ who) : n.enters who = false := by
  cases n with
  | entered other => exact decide_eq_false h
  | _ => rfl

/-- What the others do is noted after one's own entering. -/
theorem since_append (h : ∀ n ∈ new, n.who ≠ who) : since who (new ++ log) = new ++ since who log :=
  List.takeWhile_append_of_pos fun n hn => by rw [enters_of_ne (h n hn)]; rfl

/-- The notice fits what was noted before: nobody begins a search when a layout has been installed
since he entered, nobody installs a layout without a search, and nobody returns well unless one has
been installed since he entered. -/
def Fits (past : List Notice) : Notice → Prop
  | .entered _ => True
  | .searching who => .entered who ∈ past ∧ installs (since who past) = 0
  | .installed who => .entered who ∈ past ∧ .searching who ∈ since who past
  | .returned who (.ok ()) => .entered who ∈ past ∧ 0 < installs (since who past)
  | .returned who (.error _) => .entered who ∈ past

/-- Each notice fits those before it. -/
def Chronicle : List Notice → Prop
  | [] => True
  | n :: past => n.Fits past ∧ Chronicle past

theorem Chronicle.fits (h : Chronicle log) {later past : List Notice} {n : Notice}
    (hlog : log = later ++ n :: past) : n.Fits past := by
  subst hlog
  induction later with
  | nil => exact h.1
  | cons m later ih => exact ih h.2

end Notice

open Notice

/-! ### A turn and its notices -/

namespace Refresh

/-- Whether the refresh has not begun. -/
def isNew : Refresh → Bool
  | .entering => true
  | .queued .. | .discovering _ => false

/-- What is noted of a turn that comes to `out`, the latest in front. -/
def report (who : Nat) (w : World N) (r : Refresh) (out : World N × Turn Refresh (Except Error Unit)) :
    List Notice :=
  (match out.2 with
    | .done result => [.returned who result]
    | .blocked | .running _ => []) ++
  (if out.1.topology.tables.length ≠ w.topology.tables.length then [.installed who] else []) ++
  (if r.begins out.2 then [.searching who] else []) ++
  (if r.isNew && out.2.isProgress then [.entered who] else [])

/-- What a refresh knows from the log. One that waits has seen the count before all that has been
installed since it entered; one that searches has begun to since then, and nothing has been installed. -/
def Told (who : Nat) (log : List Notice) (generation : Nat) : Refresh → Prop
  | .entering => True
  | .queued seen _ => .entered who ∈ log ∧ seen + installs (since who log) = generation
  | .discovering _ => .entered who ∈ log ∧ .searching who ∈ since who log ∧ installs (since who log) = 0

variable {who other : Nat} {log new : List Notice} {w : World N} {r : Refresh}
  {out : World N × Turn Refresh (Except Error Unit)} {generation : Nat}

theorem who_of_mem_report {n : Notice} (h : n ∈ report who w r out) : n.who = who := by
  simp only [report, List.mem_append, List.mem_ite_nil_right, List.mem_singleton] at h
  rcases h with ((h | ⟨-, rfl⟩) | ⟨-, rfl⟩) | ⟨-, rfl⟩
  · split at h
    · obtain rfl := List.mem_singleton.1 h
      rfl
    · cases h
    · cases h
  · rfl
  · rfl
  · rfl

/-- A search is noted exactly when the turn begins one. -/
theorem searching_mem_report : .searching who ∈ report who w r out ↔ r.begins out.2 = true := by
  simp only [report, List.mem_append, List.mem_ite_nil_right, List.mem_singleton]
  rcases out with ⟨w', _ | r' | result⟩ <;> simp

/-- What the others do is added to the installs that a refresh knows of, and none of them installs
anything while it searches. -/
theorem Told.append (h : r.Told who log generation) (hothers : ∀ n ∈ new, n.who ≠ who)
    (hsearch : r.isSearching = true → installs new = 0) :
    r.Told who (new ++ log) (generation + installs new) := by
  have hsince : since who (new ++ log) = new ++ since who log := since_append hothers
  cases r with
  | entering => trivial
  | queued seen ticket =>
    obtain ⟨hentered, hcount⟩ := h
    refine ⟨List.mem_append_right new hentered, ?_⟩
    rw [hsince, installs_append]
    omega
  | discovering d =>
    obtain ⟨hentered, hsearching, hcount⟩ := h
    refine ⟨List.mem_append_right new hentered, ?_, ?_⟩
    · rw [hsince]
      exact List.mem_append_right new hsearching
    · rw [hsince, installs_append, hsearch rfl, hcount]

/-- A refresh that waits compares the right numbers. -/
theorem Told.isCurrent_iff {seen ticket : Nat} (h : Told who log generation (.queued seen ticket)) :
    (queued seen ticket).IsCurrent generation ↔ ∀ other, .installed other ∉ since who log := by
  obtain ⟨-, hcount⟩ := h
  rw [← installs_eq_zero]
  show generation = seen ↔ _
  omega

/-- A refresh in whose time a layout has been installed waits, and will be served. -/
theorem Told.served (h : r.Told who log generation) (hnew : r ≠ .entering)
    (hsome : ∃ other, .installed other ∈ since who log) :
    r.isSearching = false ∧ ¬r.IsCurrent generation := by
  cases r with
  | entering => exact absurd rfl hnew
  | queued seen ticket =>
    refine ⟨rfl, fun hcurrent => ?_⟩
    obtain ⟨other, hother⟩ := hsome
    exact h.isCurrent_iff.1 hcurrent other hother
  | discovering d =>
    obtain ⟨-, -, hnone⟩ := h
    exact absurd (installs_pos.2 hsome) (by omega)

/-- One in whose time none has been installed will search. -/
theorem Told.isCurrent (h : r.Told who log generation) (hidle : r.isSearching = false)
    (hnone : r = .entering ∨ ∀ other, .installed other ∉ since who log) : r.IsCurrent generation := by
  cases r with
  | entering => trivial
  | queued seen ticket => exact h.isCurrent_iff.2 (hnone.resolve_left nofun)
  | discovering d => cases hidle

/-- The notices of a turn say what has become of the refresh and of the count. -/
structure Recounts (who : Nat) (log : List Notice) (w : World N) (r : Refresh)
    (out : World N × Turn Refresh (Except Error Unit)) : Prop where
  generation : out.1.topology.generation = w.topology.generation + installs (report who w r out)
  searched : installs (report who w r out) ≠ 0 → r.isSearching = true
  chronicle : Chronicle (report who w r out ++ log)
  running : ∀ r', out.2 = .running r' → r'.Told who (report who w r out ++ log) out.1.topology.generation
  blocked : out.2 = .blocked → report who w r out = []

/-- A turn without an install. -/
theorem Recounts.quiet (new : List Notice) (hquiet : w.topology.Quiet out.1.topology)
    (hnew : report who w r out = new) (hnone : installs new = 0)
    (hchronicle : Chronicle (new ++ log))
    (hrunning : ∀ r', out.2 = .running r' → r'.Told who (new ++ log) w.topology.generation)
    (hblocked : out.2 = .blocked → new = []) : Recounts who log w r out := by
  subst hnew
  exact ⟨by rw [hnone]; exact hquiet.generation, fun h => absurd hnone h, hchronicle,
    fun r' hr' => hquiet.generation.symm ▸ hrunning r' hr', hblocked⟩

theorem Recounts.over (new : List Notice) (hquiet : w.topology.Quiet out.1.topology)
    (hnew : report who w r out = new) (hnone : installs new = 0) (hchronicle : Chronicle (new ++ log))
    {result : Except Error Unit} (hout : out.2 = .done result) : Recounts who log w r out := by
  refine .quiet new hquiet hnew hnone hchronicle (fun r' hr' => ?_) fun hblocked => ?_
  · rw [hout] at hr'
    cases hr'
  · rw [hout] at hblocked
    cases hblocked

theorem Recounts.goes (new : List Notice) (hquiet : w.topology.Quiet out.1.topology)
    (hnew : report who w r out = new) (hnone : installs new = 0) (hchronicle : Chronicle (new ++ log))
    {r' : Refresh} (hout : out.2 = .running r') (htold : r'.Told who (new ++ log) w.topology.generation) :
    Recounts who log w r out := by
  refine .quiet new hquiet hnew hnone hchronicle (fun r'' hr'' => ?_) fun hblocked => ?_
  · rw [hout] at hr''
    obtain rfl := Turn.running.inj hr''
    exact htold
  · rw [hout] at hblocked
    cases hblocked

theorem Recounts.waits (hquiet : w.topology.Quiet out.1.topology) (hnew : report who w r out = [])
    (hlog : Chronicle log) (hout : out.2 = .blocked) : Recounts who log w r out := by
  refine .quiet [] hquiet hnew rfl hlog (fun r' hr' => ?_) fun _ => rfl
  rw [hout] at hr'
  cases hr'

/-- The notices of a turn that begins a search, but for what comes of it. -/
def opening (who : Nat) (r : Refresh) : List Notice :=
  .searching who :: if r.isNew then [.entered who] else []

theorem IsCurrent.idle (h : r.IsCurrent generation) : r.isSearching = false := by
  cases r with
  | entering | queued => rfl
  | discovering d => exact absurd h id

/-- Whoever begins a search has entered, and nothing has been installed since. -/
theorem Told.opening (htold : r.Told who log generation) (hcurrent : r.IsCurrent generation)
    (hlog : Chronicle log) : Chronicle (opening who r ++ log) ∧ .entered who ∈ opening who r ++ log ∧
      .searching who ∈ since who (opening who r ++ log) ∧ installs (since who (opening who r ++ log)) = 0 := by
  cases r with
  | entering =>
    have hsince : since who (opening who .entering ++ log) = [.searching who] := by
      simp [Refresh.opening, isNew, since, enters]
    rw [hsince]
    refine ⟨⟨⟨List.mem_cons_self, ?_⟩, trivial, hlog⟩, List.mem_cons_of_mem _ List.mem_cons_self,
      List.mem_cons_self, rfl⟩
    show installs (since who (.entered who :: log)) = 0
    rw [since_entered]
    rfl
  | queued seen ticket =>
    have hnone := installs_eq_zero.2 (htold.isCurrent_iff.1 hcurrent)
    exact ⟨⟨⟨htold.1, hnone⟩, hlog⟩, List.mem_cons_of_mem _ htold.1, List.mem_cons_self, hnone⟩
  | discovering d => exact absurd hcurrent id

theorem installs_opening (who : Nat) (r : Refresh) : installs (opening who r) = 0 := by
  cases r <;> rfl

/-- **What a turn does is as its notices say.** -/
theorem recounts_of_does (h : Does w r out) (htold : r.Told who log w.topology.generation)
    (hlog : Chronicle log) : Recounts who log w r out := by
  cases h with
  | refuse closed =>
    exact .over [.returned who (.error .clientClosed), .entered who] (.refl _)
      (by simp [report, begins, isNew, Turn.isProgress]) rfl ⟨List.mem_cons_self, trivial, hlog⟩ rfl
  | wait idle => exact .waits (.refl _) (by simp [report, begins, Turn.isProgress]) hlog rfl
  | queue lock ticket =>
    refine .goes [.entered who] (quiet_withLock w lock)
      (by simp [report, begins, isNew, isSearching, Turn.isProgress, withLock, World.modifyTopology]) rfl
      ⟨trivial, hlog⟩ rfl ⟨List.mem_cons_self, ?_⟩
    show _ + installs (since who (.entered who :: log)) = _
    rw [since_entered]
    rfl
  | late lock seen ticket closed =>
    exact .over [.returned who (.error .clientClosed)] (quiet_withLock w lock)
      (by simp [report, begins, isNew, withLock, World.modifyTopology]) rfl ⟨htold.1, hlog⟩ rfl
  | @served lock seen ticket newer =>
    have hcount : seen + installs (since who log) = w.topology.generation := htold.2
    have hsome : 0 < installs (since who log) := by omega
    exact .over [.returned who (.ok ())] (quiet_withLock w lock)
      (by simp [report, begins, isNew, withLock, World.modifyTopology]) rfl ⟨⟨htold.1, hsome⟩, hlog⟩ rfl
  | search current quiet d =>
    obtain ⟨hchronicle, htells⟩ := htold.opening current hlog
    refine .goes (opening who r) quiet ?_ (installs_opening who r) hchronicle rfl htells
    simp [report, opening, begins_discovering current.idle, quiet.tables, Turn.isProgress]
  | nobody current quiet =>
    obtain ⟨hchronicle, hentered, -⟩ := htold.opening current hlog
    refine .over (.returned who (.error .noReachableNode) :: opening who r) quiet ?_ (installs_opening who r)
      ⟨hentered, hchronicle⟩ rfl
    simp [report, opening, begins_noReachableNode current.idle, quiet.tables, Turn.isProgress]
  | waits quiet d => exact .waits quiet (by simp [report, begins, quiet.tables, isNew]) hlog rfl
  | goesOn quiet d d' =>
    exact .goes [] quiet (by simp [report, begins, quiet.tables, isNew, isSearching]) rfl hlog rfl htold
  | fails quiet d e =>
    refine .over [.returned who (.error e)] quiet ?_ rfl ⟨htold.1, hlog⟩ rfl
    cases e <;> simp [report, begins, quiet.tables, isNew, isSearching]
  | @installs w' t ranges d quiet h =>
    obtain ⟨hentered, hsearching, -⟩ := htold
    obtain ⟨⟨table, htables⟩, -⟩ := Topology.tables_install h
    have hnew : report who w (.discovering d)
        (unlock { w' with topology := { t with generation := t.generation + 1 } }, .done (.ok ())) =
          [.returned who (.ok ()), .installed who] := by
      simp [report, begins, isNew, unlock, World.modifyTopology, htables, quiet.tables]
    refine ⟨?_, fun _ => rfl, ?_, fun r' hr' => ?_, fun hblocked => ?_⟩
    · rw [hnew]
      show t.generation + 1 = w.topology.generation + 1
      rw [Topology.generation_install h, quiet.generation]
    · rw [hnew]
      refine ⟨⟨List.mem_cons_of_mem _ hentered, ?_⟩, ⟨hentered, hsearching⟩, hlog⟩
      exact installs_pos.2 ⟨who, List.mem_cons_self⟩
    · cases hr'
    · cases hblocked

end Refresh
/-! ### The client -/

theorem Borrow.lock_footing (b : Borrow) (l : Semaphore.Stake) : (b.footing l).lock = l := by
  cases b <;> rfl

/-- Whoever searches has the lock, and no other refresh has it. -/
theorem Refresh.lock_eq_permit {r : Refresh} : r.footing.lock = .permit ↔ r.isSearching = true := by
  rcases r with _ | ⟨seen, ticket⟩ | d
  · exact ⟨nofun, nofun⟩
  · exact ⟨nofun, nofun⟩
  · refine ⟨fun _ => rfl, fun _ => ?_⟩
    cases d with
    | borrowing node nodes seeds b => exact b.lock_footing .permit
    | _ => rfl

/-- The lock is for refreshes. -/
theorem Activity.lock_eq_permit {a : Activity α} :
    a.footing.lock = .permit ↔ ∃ r, a.refresh? = some r ∧ r.isSearching = true := by
  have hrefresh : ∀ r' : Refresh, r'.footing.lock = .permit ↔ ∃ r, some r' = some r ∧ r.isSearching = true := by
    intro r'
    simp [Refresh.lock_eq_permit]
  rcases a with ⟨inv, r' | ⟨id, asking, b⟩ | wake | r'⟩ | r'
  · exact hrefresh r'
  · refine ⟨fun h => ?_, nofun⟩
    cases b with
    | borrowing asking b =>
      have hlock : (b.footing .nothing).lock = .permit := h
      rw [b.lock_footing] at hlock
      cases hlock
    | _ => cases h
  · exact ⟨nofun, nofun⟩
  · exact hrefresh r'
  · exact hrefresh r'

namespace System

/-- The refresh that is under way for a caller. -/
def refresh? (s : System N α) (who : Nat) : Option Refresh := (s.active who).bind Activity.refresh?

/-- The caller's refresh searches. -/
def Searches (s : System N α) (who : Nat) : Prop := ∃ r, s.refresh? who = some r ∧ r.isSearching = true

/-- What a caller has of the pools and of the lock. -/
def footing (s : System N α) (who : Nat) : Footing := Activity.footing? (s.active who)

/-- What is noted of an event. -/
def notices [Network N] (s : System N α) : Event N α → List Notice
  | .turn who =>
    match s.refresh? who with
    | some r => r.report who (s.seenBy who) (r.turn (s.seenBy who))
    | none => []
  | .start .. | .drop _ | .elapse _ | .stir _ | .close => []

variable {s : System N α} {who : Nat}

theorem footing_put (s : System N α) (who : Nat) (r : World (Watched N) × Option (Activity α)) :
    (s.put who r).footing = Function.update s.footing who (Activity.footing? r.2) := by
  funext other
  by_cases hother : other = who
  · subst hother
    simp [footing, put]
  · simp [footing, put, hother]

variable [Network N] {setup : Setup} {log : List Notice}

/-- **The books of a client balance** in every state that arises. -/
theorem Arises.balanced (hs : s.Arises setup) : s.world.topology.Balanced s.footing := by
  induction hs with
  | @start s topology active =>
    have hnobody : s.footing = fun _ => .off .nothing := by
      funext who
      simp [footing, active who, Activity.footing?]
    rw [topology, hnobody]
    exact .fresh setup
  | @step s e hs ih =>
    have hlisted := hs.agrees.listed
    have hput : ∀ {who} {r : World (Watched N) × Option (Activity α)},
        s.world.topology.Keeps (s.footing who) r.1.topology (Activity.footing? r.2) →
          (s.put who r).world.topology.Balanced (s.put who r).footing := by
      intro who r hkeeps
      rw [footing_put]
      exact hkeeps.balanced s.footing who ih rfl
    cases e with
    | start who request =>
      simp only [System.step]
      split
      · rename_i hidle
        refine hput ?_
        rw [show s.footing who = .off .nothing by simp [footing, hidle, Activity.footing?]]
        exact Activity.keeps_start (w := s.seenBy who) hlisted request
      · exact ih
    | turn who =>
      simp only [System.step]
      split
      · exact ih
      · rename_i a ha
        refine hput ?_
        rw [show s.footing who = a.footing by simp [footing, ha, Activity.footing?]]
        exact Activity.keeps_turn (w := s.seenBy who) hlisted a
    | drop who =>
      simp only [System.step]
      split
      · exact ih
      · rename_i a ha
        refine hput ?_
        rw [show s.footing who = a.footing by simp [footing, ha, Activity.footing?]]
        exact Activity.keeps_drop (s.seenBy who) a
    | elapse duration => exact ih
    | stir net => exact ih
    | close => exact Topology.Balanced.close ih
  | operate op hs ih => exact ih.apply op

omit [Network N] in
theorem lock_eq_permit : (s.footing who).lock = .permit ↔ s.Searches who := by
  unfold footing Searches refresh?
  cases s.active who with
  | none => exact ⟨nofun, nofun⟩
  | some a => exact Activity.lock_eq_permit

/-- **The lock is with the refresh that searches**, or else it can be had. -/
theorem Arises.lock (hs : s.Arises setup) : {who | s.Searches who}.Finite ∧
    s.world.topology.refreshLock.untaken + {who | s.Searches who}.ncard = 1 := by
  have hlock := hs.balanced.lock
  have hsame : {who | (s.footing who).lock = .permit} = {who | s.Searches who} := by
    ext who
    exact lock_eq_permit
  rw [← hsame]
  exact ⟨hlock.finite, hlock.balance⟩

/-- **At most one refresh searches.** -/
theorem Arises.searches_unique (hs : s.Arises setup) {other : Nat} (hwho : s.Searches who)
    (hother : s.Searches other) : who = other := by
  obtain ⟨hfinite, hbalance⟩ := hs.lock
  have hone : {who | s.Searches who}.ncard ≤ 1 := by omega
  exact (Set.ncard_le_one hfinite).1 hone who hwho other hother

omit [Network N] in
/-- What is under way for the others is not touched by a caller's work. -/
theorem refresh?_put {other : Nat} {r : World (Watched N) × Option (Activity α)} {r' : Refresh}
    (h : (s.put other r).refresh? who = some r') :
    who ≠ other ∧ s.refresh? who = some r' ∨ who = other ∧ r.2.bind Activity.refresh? = some r' := by
  by_cases hwho : who = other
  · subst hwho
    exact .inr ⟨rfl, by simpa [refresh?, put] using h⟩
  · exact .inl ⟨hwho, by simpa [refresh?, put, hwho] using h⟩

/-- **A refresh after an event** is a new one, or as it was, or what its own turn has left. -/
theorem refresh?_step (e : Event N α) {r' : Refresh} (h : (s.step e).refresh? who = some r') :
    r' = .entering ∨ s.refresh? who = some r' ∧ (∀ n ∈ s.notices e, n.who ≠ who) ∨
      ∃ r, e = .turn who ∧ s.refresh? who = some r ∧
        ((r.turn (s.seenBy who)).2 = .running r' ∨ (r.turn (s.seenBy who)).2 = .blocked ∧ r' = r) := by
  cases e with
  | start other request =>
    simp only [step] at h
    split at h
    · rcases refresh?_put h with ⟨-, hsame⟩ | ⟨-, hnew⟩
      · exact .inr (.inl ⟨hsame, List.forall_mem_nil _⟩)
      · exact .inl (Activity.refresh?_start _ request hnew)
    · exact .inr (.inl ⟨h, List.forall_mem_nil _⟩)
  | turn other =>
    simp only [step] at h
    split at h
    · rename_i hidle
      refine .inr (.inl ⟨h, ?_⟩)
      simp [notices, refresh?, hidle]
    · rename_i a ha
      rcases refresh?_put h with ⟨hne, hsame⟩ | ⟨rfl, hturn⟩
      · refine .inr (.inl ⟨hsame, fun n hn => ?_⟩)
        simp only [notices] at hn
        split at hn
        · rw [Refresh.who_of_mem_report hn]
          exact hne.symm
        · cases hn
      · rcases Activity.refresh?_turn _ a hturn with hnew | ⟨r, hr, hor⟩
        · exact .inl hnew
        · exact .inr (.inr ⟨r, rfl, by simp [refresh?, ha, hr], hor⟩)
  | drop other =>
    simp only [step] at h
    split at h
    · exact .inr (.inl ⟨h, List.forall_mem_nil _⟩)
    · rcases refresh?_put h with ⟨-, hsame⟩ | ⟨-, hnew⟩
      · exact .inr (.inl ⟨hsame, List.forall_mem_nil _⟩)
      · cases hnew
  | elapse duration => exact .inr (.inl ⟨h, List.forall_mem_nil _⟩)
  | stir net => exact .inr (.inl ⟨h, List.forall_mem_nil _⟩)
  | close => exact .inr (.inl ⟨h, List.forall_mem_nil _⟩)

/-- What is counted in an event is what the turn of a refresh counts. -/
theorem generation_step (s : System N α) (e : Event N α) :
    (s.step e).world.topology.generation = s.world.topology.generation ∧ s.notices e = [] ∨
      ∃ who r, e = .turn who ∧ s.refresh? who = some r ∧
        (s.step e).world.topology.generation = (r.turn (s.seenBy who)).1.topology.generation := by
  cases e with
  | start who request =>
    refine .inl ⟨?_, rfl⟩
    simp only [step]
    split
    · exact Activity.generation_start _ request
    · rfl
  | turn who =>
    cases ha : s.active who with
    | none =>
      refine .inl ⟨by simp [step, ha], by simp [notices, refresh?, ha]⟩
    | some a =>
      have hcount := Activity.generation_turn (s.seenBy who) a
      have hstep : (s.step (.turn who)).world.topology.generation = (a.turn (s.seenBy who)).1.topology.generation := by
        rw [step_turn ha]
        rfl
      rw [hstep]
      cases hr : a.refresh? with
      | none =>
        rw [hr] at hcount
        exact .inl ⟨hcount, by simp [notices, refresh?, ha, hr]⟩
      | some r =>
        rw [hr] at hcount
        exact .inr ⟨who, r, rfl, by simp [refresh?, ha, hr], hcount⟩
  | drop who =>
    refine .inl ⟨?_, rfl⟩
    simp only [step]
    split
    · rfl
    · exact (Activity.quiet_drop (s.seenBy who) _).generation
  | elapse duration => exact .inl ⟨rfl, rfl⟩
  | stir net => exact .inl ⟨rfl, rfl⟩
  | close => exact .inl ⟨rfl, rfl⟩

/-- The states that a client comes to from a start with nothing known, with what has been noted. -/
inductive Noted (setup : Setup) : List Notice → System N α → Prop where
  | start {s : System N α} (topology : s.world.topology = .fresh setup)
      (active : ∀ who, s.active who = none) : Noted setup [] s
  | step {s : System N α} {log : List Notice} (e : Event N α) : Noted setup log s →
      Noted setup (s.notices e ++ log) (s.step e)
  | operate {s : System N α} {log : List Notice} (op : Topology.Operation) : Noted setup log s →
      Noted setup log (s.operate op)

theorem Noted.arises (hs : Noted setup log s) : s.Arises setup := by
  induction hs with
  | start topology active => exact .start topology active
  | step e hs ih => exact ih.step e
  | operate op hs ih => exact ih.operate op

/-- Every state that arises has its log. -/
theorem Arises.noted (hs : s.Arises setup) : ∃ log, Noted setup log s := by
  induction hs with
  | start topology active => exact ⟨[], .start topology active⟩
  | step e hs ih =>
    obtain ⟨log, hlog⟩ := ih
    exact ⟨_, hlog.step e⟩
  | operate op hs ih =>
    obtain ⟨log, hlog⟩ := ih
    exact ⟨log, hlog.operate op⟩

/-- The log, the count and what the refreshes remember go together. -/
structure Coherent (log : List Notice) (s : System N α) : Prop where
  generation : s.world.topology.generation = installs log
  chronicle : Chronicle log
  told : ∀ who r, s.refresh? who = some r → r.Told who log s.world.topology.generation

/-- The turn of a refresh goes together with its notices. -/
theorem Coherent.recounts (h : s.Coherent log) {r : Refresh} (hr : s.refresh? who = some r) :
    r.Recounts who log (s.seenBy who) (r.turn (s.seenBy who)) ∧
      s.notices (.turn who) = r.report who (s.seenBy who) (r.turn (s.seenBy who)) :=
  ⟨Refresh.recounts_of_does (r.turn_does (s.seenBy who)) (h.told who r hr) h.chronicle, by simp [notices, hr]⟩

/-- Every event is noted as it is. -/
theorem Coherent.step (h : s.Coherent log) (hs : s.Arises setup) (e : Event N α) :
    (s.step e).Coherent (s.notices e ++ log) := by
  have hgeneration : (s.step e).world.topology.generation = s.world.topology.generation + installs (s.notices e) := by
    rcases generation_step s e with ⟨hsame, hnone⟩ | ⟨who, r, rfl, hr, hcount⟩
    · rw [hsame, hnone]
      rfl
    · obtain ⟨hrecounts, hnotices⟩ := h.recounts hr
      rw [hcount, hnotices]
      exact hrecounts.generation
  have hchronicle : Chronicle (s.notices e ++ log) := by
    rcases generation_step s e with ⟨-, hnone⟩ | ⟨who, r, rfl, hr, -⟩
    · rw [hnone]
      exact h.chronicle
    · obtain ⟨hrecounts, hnotices⟩ := h.recounts hr
      rw [hnotices]
      exact hrecounts.chronicle
  refine ⟨?_, hchronicle, fun who r' hr' => ?_⟩
  · rw [hgeneration, h.generation, installs_append, Nat.add_comm]
  · rcases refresh?_step e hr' with rfl | ⟨hsame, hothers⟩ | ⟨r, rfl, hr, hturn⟩
    · trivial
    · rw [hgeneration]
      refine (h.told who r' hsame).append hothers fun hsearching => ?_
      by_contra hsome
      rcases generation_step s e with ⟨-, hnone⟩ | ⟨other, r, rfl, hr, -⟩
      · exact hsome (by rw [hnone]; rfl)
      · obtain ⟨hrecounts, hnotices⟩ := h.recounts hr
        rw [hnotices] at hothers hsome
        -- Whoever installs a layout searches, and so it is the caller himself.
        obtain rfl : who = other := hs.searches_unique ⟨r', hsame, hsearching⟩ ⟨r, hr, hrecounts.searched hsome⟩
        obtain ⟨x, hx⟩ := installs_pos.1 (Nat.pos_of_ne_zero hsome)
        exact hothers _ hx (Refresh.who_of_mem_report hx)
    · obtain ⟨hrecounts, hnotices⟩ := h.recounts hr
      rw [hgeneration, hnotices]
      rcases hturn with hrunning | ⟨hblocked, rfl⟩
      · have htold := hrecounts.running r' hrunning
        rwa [hrecounts.generation] at htold
      · rw [hrecounts.blocked hblocked]
        exact h.told who r' hr

theorem Noted.coherent (hs : Noted setup log s) : s.Coherent log := by
  induction hs with
  | @start s topology active =>
    refine ⟨by rw [topology]; rfl, trivial, fun who r hr => ?_⟩
    simp [refresh?, active who] at hr
  | step e hs ih => exact ih.step hs.arises e
  | @operate s log op hs ih =>
    have hsame : (s.operate op).world.topology.generation = s.world.topology.generation :=
      s.world.topology.generation_apply op
    exact ⟨hsame.trans ih.generation, ih.chronicle, fun who r hr => hsame ▸ ih.told who r hr⟩

/-- **Refreshes that come together coalesce.** Any number of refreshes are under way, in any order, and
some fail or are given up. At most one of them searches at any time, and while none does the lock can be
had. A refresh returns well only if a layout has been installed since it entered, and begins a search
only if none has been; before and between it sends nothing. One that waits while another installs a
layout never begins a search; when it obtains the lock of an open client it returns well if a layout has
been installed since it entered, and begins a search of its own if none has been, whatever became of
those before it. The generation is the number of layouts that refreshes have installed. -/
theorem refreshes_coalesce (hs : Noted setup log s) :
    ((∀ who other, s.Searches who → s.Searches other → who = other) ∧
      ((∀ who, ¬s.Searches who) → s.world.topology.refreshLock.untaken = 1)) ∧
    (∀ later who past, log = later ++ .returned who (.ok ()) :: past →
      .entered who ∈ past ∧ ∃ other, .installed other ∈ since who past) ∧
    (∀ later who past, log = later ++ .searching who :: past →
      .entered who ∈ past ∧ ∀ other, .installed other ∉ since who past) ∧
    (∀ who r, s.refresh? who = some r →
      (r.isSearching = true → .searching who ∈ since who log) ∧
      (r.isSearching = false → .searching who ∉ s.notices (.turn who) →
        (r.turn (s.seenBy who)).1.net = (s.seenBy who).net) ∧
      (r ≠ .entering → (∃ other, .installed other ∈ since who log) →
        r.isSearching = false ∧ .searching who ∉ s.notices (.turn who)) ∧
      (s.world.topology.closed = false → r.Obtains s.world.topology.refreshLock →
        (r = .entering ∨ (∀ other, .installed other ∉ since who log) → .searching who ∈ s.notices (.turn who)) ∧
        (r ≠ .entering → (∃ other, .installed other ∈ since who log) →
          (r.turn (s.seenBy who)).2 = .done (.ok ())))) ∧
    s.world.topology.generation = installs log := by
  have harises := hs.arises
  have hcoherent := hs.coherent
  have hchronicle := hcoherent.chronicle
  refine ⟨⟨fun _ _ => harises.searches_unique, fun hnobody => ?_⟩, fun later who past hlog => ?_,
    fun later who past hlog => ?_, fun who r hr => ?_, hcoherent.generation⟩
  · have hbalance := harises.lock.2
    have hempty : {who | s.Searches who} = ∅ := Set.eq_empty_of_forall_notMem hnobody
    rwa [hempty, Set.ncard_empty] at hbalance
  · obtain ⟨hentered, hsome⟩ := hchronicle.fits hlog
    exact ⟨hentered, installs_pos.1 hsome⟩
  · obtain ⟨hentered, hnone⟩ := hchronicle.fits hlog
    exact ⟨hentered, installs_eq_zero.1 hnone⟩
  · have hknows := hcoherent.told who r hr
    have hnotices : .searching who ∈ s.notices (.turn who) ↔ r.begins (r.turn (s.seenBy who)).2 = true := by
      rw [(hcoherent.recounts hr).2]
      exact Refresh.searching_mem_report
    rw [hnotices]
    refine ⟨fun hsearching => ?_, fun hidle hnone => ?_, fun hnew hsome => ?_, fun hopen hobtains => ?_⟩
    · cases r with
      | discovering d => exact hknows.2.1
      | entering | queued => cases hsearching
    · exact Refresh.net_turn hidle (Bool.eq_false_iff.2 hnone)
    · obtain ⟨hidle, hserved⟩ := hknows.served hnew hsome
      exact ⟨hidle, fun hbegins => hserved (Refresh.isCurrent_of_begins (w := s.seenBy who) hbegins)⟩
    · obtain ⟨hsearch, hreturn⟩ := Refresh.turn_of_obtains (w := s.seenBy who) hopen hobtains
      exact ⟨fun hnone => hsearch (hknows.isCurrent hobtains.idle hnone),
        fun hnew hsome => hreturn (hknows.served hnew hsome).2⟩

end System

/-! ### A network with a layout -/

/-- A network of which every node says at once that `a:1` serves the slot `0`. -/
structure Atlas where
  connections : Nat := 0
  due : Bool := false

namespace Atlas

/-- The octets of the layout. -/
def layout : Bytes := Bytes.ofText "*1\r\n*3\r\n:0\r\n:0\r\n*2\r\n$1\r\na\r\n:1\r\n"

instance : Network Atlas where
  connect p _ _ := ({ p with connections := p.connections + 1 }, p.connections)
  opening _ _ _ := .opened
  send p _ _ octets := ({ p with due := true }, .taken octets.length)
  receive p _ _ := if p.due then ({ p with due := false }, .octets layout) else (p, .pending)
  nextEvent? _ _ := none

/-- A client that knows nothing. -/
def blank : System Atlas Unit where
  world := { topology := .fresh Topology.bare, net := { net := {} } }
  active _ := none

/-- Two refreshes: one searches, and the other one waits for the lock. -/
def crowded : System Atlas Unit :=
  [.start 0 .refresh, .start 1 .refresh, .turn 0, .turn 1].foldl System.step
    (blank.operate (.obtain "a:1"))

/-- The one that searched has installed the layout. -/
def served : System Atlas Unit :=
  [.turn 0, .turn 0, .turn 0, .turn 0, .turn 0, .turn 0].foldl System.step crowded

theorem noted_crowded : System.Noted Topology.bare [.entered 1, .searching 0, .entered 0] crowded := by
  have hblank : System.Noted Topology.bare [] blank := .start rfl fun _ => rfl
  have hstarted := ((hblank.operate (.obtain "a:1")).step (.start 0 .refresh)).step (.start 1 .refresh)
  with_unfolding_all exact (hstarted.step (.turn 0)).step (.turn 1)

theorem noted_served : System.Noted Topology.bare
    [.returned 0 (.ok ()), .installed 0, .entered 1, .searching 0, .entered 0] served := by
  have hqueried := ((noted_crowded.step (.turn 0)).step (.turn 0)).step (.turn 0)
  with_unfolding_all exact ((hqueried.step (.turn 0)).step (.turn 0)).step (.turn 0)

/-- The one that waited returns well without a search of its own, and one layout has been counted. -/
theorem refreshes_coalesce_served :
    System.Noted Topology.bare
      [.returned 0 (.ok ()), .installed 0, .entered 1, .searching 0, .entered 0] served ∧
    served.refresh? 1 = some (.queued 0 0) ∧
    .searching 1 ∉ served.notices (.turn 1) ∧
    (Refresh.turn (served.seenBy 1) (.queued 0 0)).2 = .done (.ok ()) ∧
    served.world.topology.generation = 1 := by
  obtain ⟨-, -, -, hunderway, hgeneration⟩ := System.refreshes_coalesce noted_served
  have hwaits : served.refresh? 1 = some (.queued 0 0) := by with_unfolding_all rfl
  have hopen : served.world.topology.closed = false := by with_unfolding_all rfl
  have hobtains : (served.world.topology.refreshLock.collect 0).1 = .taken := by with_unfolding_all rfl
  obtain ⟨-, -, hnone, hlock⟩ := hunderway 1 _ hwaits
  have hsome : ∃ other, .installed other ∈ since 1
      [.returned 0 (.ok ()), .installed 0, .entered 1, .searching 0, .entered 0] :=
    ⟨0, by simp [since, enters]⟩
  exact ⟨noted_served, hwaits, (hnone nofun hsome).2, (hlock hopen hobtains).2 nofun hsome, hgeneration⟩

end Atlas
end SlotRouter
