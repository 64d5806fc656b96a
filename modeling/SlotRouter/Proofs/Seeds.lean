import SlotRouter.Client
import SlotRouter.Proofs.Patrons
import SlotRouter.Proofs.Referrals
import SlotRouter.Proofs.Surveys
import SlotRouter.Proofs.UrlHosts

/-!
# Seeds in canonical form

Reading a seed gives an address in canonical form: a host and a port, and nothing else of what the seed may
have been written with (`Seed.exists_normal_of_read`, `Seed.canonical_join`). An address in that form is read
as itself (`Seed.read_join`), so reading twice is the same as reading once, for one seed, for a list of them,
and for the configurations and the clients that are made of it. A search therefore knows a node again, if it is
registered under the address of a seed, and asks it once (`Seed.filter_opening`).

Key definition: `Seed.Canonical`. Key theorem: `Seed.reading_is_canonical`.
-/

namespace SlotRouter

/-- A client with the configuration as it is. -/
def Client.withSettings (config : Config) : Except Error Client := do
  config.check
  .ok { config, policy := .ofConfig config }

namespace Seed

variable {cs : List Char} {text a : String} {host : Url.Host} {p : Nat}

/-- The address is that of a port on a host, which is found in it again, and there is nothing else in it: no
blank, no user information, no path and no scheme. -/
structure Canonical (a : String) (host : List Char) (port : Nat) : Prop where
  joined : a = String.ofList (Address.join host port)
  named : host ≠ []
  port_le : port ≤ 65535
  host_eq : Address.host a.toList = host
  plain : ∀ c ∈ a.toList, Text.isBlank c = false ∧ c ∉ "@/?#".toList
  no_scheme : hasScheme a.toList = false

/-! ### One seed -/

theorem not_blank_of_isAuthorityChar {c : Char} (hc : Url.IsAuthorityChar c) : Text.isBlank c = false := by
  have hlow : 0x20 < c.toNat := hc.1
  have hhigh : c.toNat < 0x7F := hc.2.1
  simp only [Text.isBlank, Bool.or_eq_false_iff, Bool.and_eq_false_iff, decide_eq_false_iff_not, beq_eq_false_iff_ne]
  omega

theorem hasScheme_of_not_mem (h : '/' ∉ cs) : hasScheme cs = false := by
  induction cs with
  | nil => rfl
  | cons c cs ih =>
    rw [List.mem_cons, not_or] at h
    rw [hasScheme, ih h.2]
    rintro cs' - rfl
    exact h.2 List.mem_cons_self

theorem hostText_ne_nil (h : host.Normal) : hostText host ≠ [] := by
  cases h with
  | name hne => exact hne
  | ipv6 groups => exact List.ne_nil_of_mem (Ipv6.colon_mem_toChars groups)

theorem bracket_not_mem_hostText (h : host.Normal) : ∀ c ∈ hostText host, c ≠ '[' ∧ c ≠ ']' := by
  cases h with
  | name _ hplain => exact fun c hc => ⟨(hplain c hc).ne (by decide), (hplain c hc).ne (by decide)⟩
  | ipv6 groups => exact Url.bracket_not_mem_toChars groups

/-- An address shows the host as a URL does. -/
theorem join_hostText (h : host.Normal) (p : Nat) :
    Address.join (hostText host) p = host.shown ++ ':' :: (toString p).toList := by
  cases h with
  | name _ hplain => exact Address.join_plain (fun hcolon => (hplain _ hcolon).ne (by decide) rfl) p
  | ipv6 groups =>
    refine Address.join_bracketed (Ipv6.colon_mem_toChars groups) (fun hfirst => ?_) p
    exact (Url.bracket_not_mem_toChars groups _ (List.mem_of_head? hfirst)).1 rfl

theorem of_addressOf {seed : String} {url : Url} (h : addressOf seed url = .ok a) :
    url.scheme = "redis".toList ∧ ∃ host, url.host = some host ∧
      a = String.ofList (Address.join (hostText host) (url.port.getD defaultPort)) := by
  unfold addressOf at h
  split_ifs at h with hencrypted hforeign
  · cases h
  · cases h
  · split at h
    · cases h
    · rename_i host hhost
      exact ⟨not_not.1 hforeign, host, hhost, (Except.ok.inj h).symm⟩

/-- **What is read is the address of a host in normal form.** -/
theorem exists_normal_of_read (h : read text = .ok a) : ∃ host, ∃ p : Nat,
    host.Normal ∧ p ≤ 65535 ∧ a = String.ofList (Address.join (hostText host) p) := by
  unfold read at h
  dsimp only at h
  generalize hurl : Url.ofChars _ = result at h
  split_ifs at h
  · cases h
  · cases result with
    | error fault => cases h
    | ok url =>
      obtain ⟨hscheme, host, hhost, rfl⟩ := of_addressOf h
      obtain ⟨hnormal, hport⟩ := Url.normal_of_ofChars hurl (by rw [hscheme]; decide) (by rw [hscheme]; decide) hhost
      refine ⟨host, url.port.getD defaultPort, hnormal, ?_, rfl⟩
      cases hp : url.port with
      | none => decide
      | some p => exact hport p hp

theorem canonical_join (h : host.Normal) (hp : p ≤ 65535) :
    Canonical (String.ofList (Address.join (hostText host) p)) (hostText host) p := by
  have hchars : ∀ c ∈ Address.join (hostText host) p, Url.IsAuthorityChar c := by
    rw [join_hostText h]
    exact h.isAuthorityChar p
  refine ⟨rfl, hostText_ne_nil h, hp, ?_, ?_, ?_⟩ <;> rw [String.toList_ofList]
  · exact Address.host_join (bracket_not_mem_hostText h) p
  · exact fun c hc => ⟨not_blank_of_isAuthorityChar (hchars c hc), (hchars c hc).2.2⟩
  · exact hasScheme_of_not_mem fun hslash => (hchars _ hslash).2.2 (by decide)

/-- **The address of a host in normal form is read as it is.** -/
theorem read_join (h : host.Normal) (hp : p ≤ 65535) :
    read (String.ofList (Address.join (hostText host) p)) = .ok (String.ofList (Address.join (hostText host) p)) := by
  -- there is nothing to trim, and without a scheme of its own the address is put behind one
  have hcanonical := canonical_join h hp
  have hscheme := hcanonical.no_scheme
  have hplain := hcanonical.plain
  rw [String.toList_ofList] at hscheme hplain
  have htrim : Text.trim (Address.join (hostText host) p) = Address.join (hostText host) p :=
    Text.trim_of_ends (fun c hc => (hplain c (List.mem_of_mem_head? hc)).1)
      fun c hc => (hplain c (List.mem_of_mem_getLast? hc)).1
  have hne : (Address.join (hostText host) p).isEmpty = false := by
    simp [Address.join]
  unfold read
  dsimp only
  rw [String.toList_ofList, htrim, hne, if_neg Bool.false_ne_true, hscheme, if_neg Bool.false_ne_true, join_hostText h,
    Url.ofChars_shown h hp]
  dsimp only
  have hencrypted : "redis".toList ≠ "rediss".toList := by decide
  unfold addressOf
  dsimp only
  rw [if_neg hencrypted, if_neg (not_not.2 rfl), join_hostText h]
  rfl

/-- The addresses that are read are those of the hosts in normal form. -/
theorem exists_read_iff : (∃ text, read text = .ok a) ↔ ∃ (host : Url.Host) (p : Nat),
    host.Normal ∧ p ≤ 65535 ∧ a = String.ofList (Address.join (hostText host) p) := by
  constructor
  · rintro ⟨text, h⟩
    exact exists_normal_of_read h
  · rintro ⟨host, p, hnormal, hp, rfl⟩
    exact ⟨_, read_join hnormal hp⟩

theorem read_of_read (h : read text = .ok a) : read a = .ok a := by
  obtain ⟨host, p, hnormal, hp, rfl⟩ := exists_normal_of_read h
  exact read_join hnormal hp

/-! ### Lists of seeds -/

section

variable {texts as : List String}

/-- The addresses are those of the seeds. -/
theorem mem_iff_of_readEach (h : readEach texts = .ok as) : a ∈ as ↔ ∃ text ∈ texts, read text = .ok a := by
  induction texts generalizing as with
  | nil =>
    cases h
    simp
  | cons text texts ih =>
    obtain ⟨first, hfirst, h⟩ := ok_of_bind h
    obtain ⟨others, hothers, h⟩ := ok_of_bind h
    cases h
    simp [ih hothers, hfirst, eq_comm]

theorem readEach_of_forall (h : ∀ a ∈ as, read a = .ok a) : readEach as = .ok as := by
  induction as with
  | nil => rfl
  | cons a as ih =>
    obtain ⟨hfirst, hothers⟩ := List.forall_mem_cons.1 h
    rw [readEach, hfirst, ih hothers]
    rfl

/-- **Addresses that were read are read as they are.** -/
theorem readEach_of_readEach (h : readEach texts = .ok as) : readEach as = .ok as := by
  refine readEach_of_forall fun a ha => ?_
  obtain ⟨text, -, hread⟩ := (mem_iff_of_readEach h).1 ha
  exact read_of_read hread

theorem readEach_bind (texts : List String) : (readEach texts >>= readEach) = readEach texts := by
  cases h : readEach texts with
  | error e => rfl
  | ok as => exact readEach_of_readEach h

end

/-! ### Configurations and clients -/

/-- Seeds in canonical form stay as they are. -/
theorem normalized_of_readEach {config : Config} (h : readEach config.seeds = .ok config.seeds) :
    config.normalized = config.check >>= fun _ => .ok config := by
  unfold Config.normalized
  rw [h]
  rfl

theorem seeds_of_normalized {config config' : Config} (h : config.normalized = .ok config') :
    readEach config.seeds = .ok config'.seeds ∧ config'.check = .ok () := by
  obtain ⟨seeds, hseeds, h⟩ := ok_of_bind h
  obtain ⟨⟨⟩, hcheck, h⟩ := ok_of_bind h
  cases h
  exact ⟨hseeds, hcheck⟩

theorem normalized_of_normalized {config config' : Config} (h : config.normalized = .ok config') :
    config'.normalized = .ok config' := by
  obtain ⟨hseeds, hcheck⟩ := seeds_of_normalized h
  rw [normalized_of_readEach (readEach_of_readEach hseeds), hcheck]
  rfl

theorem built_bind (config : Config) : (config.built >>= Config.normalized) = config.built := by
  unfold Config.built
  split_ifs
  · rfl
  · cases h : config.normalized with
    | error e => rfl
    | ok config' => exact normalized_of_normalized h

/-- **A client has the configuration of its builder.** -/
theorem ofBuilder_eq (config : Config) : Client.ofBuilder config = config.built >>= Client.withSettings := by
  unfold Client.ofBuilder
  cases h : config.built with
  | error e => rfl
  | ok config' =>
    unfold Config.built at h
    split_ifs at h
    obtain ⟨hseeds, hcheck⟩ := seeds_of_normalized h
    show Client.ofConfig config' = Client.withSettings config'
    rw [Client.ofConfig, normalized_of_normalized h, Client.withSettings, hcheck]
    rfl

/-- **A client has the seeds that were read from the text.** -/
theorem ofSeeds_eq (text : String) :
    Client.ofSeeds text = readList text >>= fun seeds => Client.withSettings { seeds } := by
  unfold Client.ofSeeds
  cases h : readList text with
  | error e => rfl
  | ok seeds =>
    have hread : readEach seeds = .ok seeds := readEach_of_readEach h
    show Client.ofConfig { seeds } = Client.withSettings { seeds }
    rw [Client.ofConfig, normalized_of_readEach hread, Client.withSettings]
    cases Config.check { seeds } with
    | error e => rfl
    | ok => rfl

/-! ### Searches -/

/-- **A node that is a seed as well is asked as a node, and only once.** -/
theorem filter_opening {t : Topology} (ht : t.Agrees) {id : PoolId} (hid : t.registered? a = some id) :
    (Survey.opening t).candidates.filter (fun c => c.address = a) = [.node a] := by
  have hnode : a ∈ t.drawNodes.1 :=
    t.perm_drawNodes.mem_iff.2 (List.mem_map_of_mem (Topology.mem_registry hid))
  have honce : t.drawNodes.1.filter (fun node => node = a) = [a] := by
    have hcount : t.drawNodes.1.count a = 1 :=
      List.count_eq_one_of_mem (t.perm_drawNodes.nodup_iff.2 ht.distinct) hnode
    rw [List.filter_eq, hcount]
    rfl
  have hseeds : (Survey.opening t).seeds.filter (fun seed => seed = a) = [] := by
    refine List.filter_eq_nil_iff.2 fun seed hseed heq => ?_
    obtain rfl := of_decide_eq_true heq
    have hunknown : (!t.drawNodes.1.contains seed) = true := (List.mem_filter.1 hseed).2
    simp [hnode] at hunknown
  have hcandidates : (Survey.opening t).candidates =
      t.drawNodes.1.map .node ++ (Survey.opening t).seeds.map .seed := rfl
  rw [hcandidates, List.filter_append, List.filter_map, List.filter_map]
  show (t.drawNodes.1.filter fun node => node = a).map Candidate.node ++
    ((Survey.opening t).seeds.filter fun seed => seed = a).map Candidate.seed = _
  rw [honce, hseeds]
  rfl

/-- **A seed that is no node is asked as a seed.** -/
theorem mem_opening {t : Topology} (ht : t.Agrees) (ha : a ∈ t.setup.seeds) (hnone : t.registered? a = none) :
    .seed a ∈ (Survey.opening t).candidates ∧ .node a ∉ (Survey.opening t).candidates := by
  have hnode : a ∉ t.drawNodes.1 := by
    intro hmem
    obtain ⟨id, hid⟩ := ht.registered?_of_mem_drawNodes hmem
    rw [hnone] at hid
    cases hid
  have hseed : a ∈ (Survey.opening t).seeds := List.mem_filter.2 ⟨ha, by simpa using hnode⟩
  refine ⟨List.mem_append_right _ (List.mem_map_of_mem hseed), fun hmem => hnode ?_⟩
  have hmem : a ∈ (Survey.opening t).nodes := by simpa [Survey.candidates, Candidate.inOrder] using hmem
  exact hmem

end Seed

theorem System.Arises.setup_eq {N α : Type} [Network N] {setup : Setup} {s : System N α} (hs : s.Arises setup) :
    s.world.topology.setup = setup := by
  induction hs with
  | start topology active => rw [topology, Topology.fresh]
  | step e hs ih => exact (Topology.Ages.stepwise.change (System.change_step _ e)).setup.trans ih
  | operate op hs ih => exact (Topology.Ages.stepwise.apply _ op).setup.trans ih

namespace Seed

/-- A search that a refresh begins has the candidates of its time. -/
theorem exists_discovering {N : Type} [Network N] {w : World N} {r : Refresh} (ht : w.topology.Agrees)
    (hsome : (Survey.opening w.topology).candidates ≠ []) (hbegins : r.begins (r.turn w).2 = true) :
    ∃ d : Discovery, (r.turn w).2 = .running (.discovering d) ∧
      d.candidates = (Survey.opening w.topology).candidates := by
  obtain ⟨-, lock, hturn⟩ := Refresh.turn_of_begins hbegins
  have hstart := Survey.continues_start ht lock
  rw [hturn]
  generalize Discovery.start (Refresh.withLock w lock) = start at hstart
  obtain ⟨w', step⟩ := start
  cases hstart with
  | nobody hnone => exact absurd hnone hsome
  | @somebody d horder => exact ⟨d, rfl, horder⟩

/-- **Reading a seed gives an address in canonical form, and reading that again changes nothing.** Whatever the
text, if there is an address to be read from it, that is the address of a port on a host, with the host to be
found in it again, and has nothing else in it; and it is read as itself. The addresses that are read are those
of every port on every host in normal form. So seeds that were read for a list, or for a builder, may be read again
when the client is made: the outcome is the same, be it addresses or an error, as if the client took them as they
are. And when a search begins, a node that is registered under the address of a seed of the client is one of its
candidates, and the only one with that address; a seed whose address is not registered is a candidate as a
seed. -/
theorem reading_is_canonical :
    (∀ text a, read text = .ok a → (∃ host port, Canonical a host port) ∧ read a = .ok a) ∧
    (∀ a, (∃ text, read text = .ok a) ↔ ∃ (host : Url.Host) (p : Nat),
      host.Normal ∧ p ≤ 65535 ∧ a = String.ofList (Address.join (hostText host) p)) ∧
    (∀ texts, (readEach texts >>= readEach) = readEach texts) ∧
    (∀ text, (readList text >>= readEach) = readList text) ∧
    (∀ text, Client.ofSeeds text = readList text >>= fun seeds => Client.withSettings { seeds }) ∧
    (∀ config : Config, (config.built >>= Config.normalized) = config.built) ∧
    (∀ config, Client.ofBuilder config = config.built >>= Client.withSettings) ∧
    ∀ {N α : Type} [Network N] (s : System N α) (config : Config) (client : Client) (chance : Chance),
      Client.ofConfig config = .ok client → s.Arises (Client.setup client.config chance) →
      ∀ seed ∈ config.seeds, ∀ a, read seed = .ok a →
      ∀ who r, s.refresh? who = some r → r.begins (r.turn (s.seenBy who)).2 = true →
      ∃ d : Discovery, (r.turn (s.seenBy who)).2 = .running (.discovering d) ∧
        (∀ id, s.world.topology.registered? a = some id → d.candidates.filter (fun c => c.address = a) = [.node a]) ∧
        (s.world.topology.registered? a = none → .seed a ∈ d.candidates ∧ .node a ∉ d.candidates) := by
  refine ⟨fun text a h => ⟨?_, read_of_read h⟩, fun a => exists_read_iff, readEach_bind, fun text => readEach_bind _,
    ofSeeds_eq, built_bind, ofBuilder_eq, ?_⟩
  · obtain ⟨host, p, hnormal, hp, rfl⟩ := exists_normal_of_read h
    exact ⟨hostText host, p, canonical_join hnormal hp⟩
  · intro N α _ s config client chance hclient hs seed hseed a hread who r _ hbegins
    have hagrees : (s.seenBy who).topology.Agrees := hs.agrees
    have hseeds : (s.seenBy who).topology.setup.seeds = client.config.seeds := congrArg Setup.seeds hs.setup_eq
    have ha : a ∈ (s.seenBy who).topology.setup.seeds := by
      obtain ⟨config', hnormalized, h⟩ := ok_of_bind hclient
      cases h
      rw [hseeds]
      exact (mem_iff_of_readEach (seeds_of_normalized hnormalized).1).2 ⟨seed, hseed, hread⟩
    have hnode : ∀ id, (s.seenBy who).topology.registered? a = some id →
        (Survey.opening (s.seenBy who).topology).candidates.filter (fun c => c.address = a) = [.node a] :=
      fun id hid => filter_opening hagrees hid
    have hseed := mem_opening hagrees ha
    have hsome : (Survey.opening (s.seenBy who).topology).candidates ≠ [] := by
      intro hnil
      rw [hnil] at hnode hseed
      cases hid : (s.seenBy who).topology.registered? a with
      | none => cases (hseed hid).1
      | some id => cases hnode id hid
    obtain ⟨d, hd, horder⟩ := exists_discovering hagrees hsome hbegins
    rw [← horder] at hnode hseed
    exact ⟨d, hd, hnode, hseed⟩

end Seed

namespace Prompt

/-- Seeds with all that a seed may be written with, and with a host beyond ASCII. -/
def motley : Config where
  seeds := [" redis://user:secret@[0:0:0:0:0:0:0:1]:7002/0?x#y ", "caf\u00e9"]

/-- The same seeds as addresses. -/
def tidy : Config where
  seeds := ["[::1]:7002", "caf%C3%A9:6379"]

/-- A client with these seeds knows the first of them as a node, and a refresh has come. -/
def acquainted : System Prompt Unit :=
  (System.operate { blank with world := { blank.world with topology := .fresh (Client.setup tidy .settled) } }
    (.move 0 "[::1]:7002")).step (.start 0 .refresh)

theorem arises_acquainted : acquainted.Arises (Client.setup tidy .settled) :=
  .step _ (.operate _ (.start rfl fun _ => rfl))

/-- The first seed is asked as a node, and the second as a seed. -/
theorem reading_is_canonical_motley :
    Client.ofConfig motley = .ok { config := tidy, policy := .ofConfig tidy } ∧
    Seed.read "[::1]:7002" = .ok "[::1]:7002" ∧ Seed.read "caf%C3%A9:6379" = .ok "caf%C3%A9:6379" ∧
    ∃ d : Discovery, (Refresh.turn (acquainted.seenBy 0) .entering).2 = .running (.discovering d) ∧
      d.candidates.filter (fun c => c.address = "[::1]:7002") = [.node "[::1]:7002"] ∧
      .seed "caf%C3%A9:6379" ∈ d.candidates := by
  have hfirst : Seed.read " redis://user:secret@[0:0:0:0:0:0:0:1]:7002/0?x#y " = .ok "[::1]:7002" := by
    with_unfolding_all rfl
  have hsecond : Seed.read "caf\u00e9" = .ok "caf%C3%A9:6379" := by with_unfolding_all rfl
  have hclient : Client.ofConfig motley = .ok { config := tidy, policy := .ofConfig tidy } := by
    with_unfolding_all rfl
  have hr : acquainted.refresh? 0 = some .entering := rfl
  have hbegins : Refresh.begins .entering (Refresh.turn (acquainted.seenBy 0) .entering).2 = true := by
    with_unfolding_all rfl
  have hknown : acquainted.world.topology.registered? "[::1]:7002" = some 0 := by decide
  have hunknown : acquainted.world.topology.registered? "caf%C3%A9:6379" = none := by decide
  obtain ⟨hread, -, -, -, -, -, -, hsearch⟩ := Seed.reading_is_canonical
  obtain ⟨d, hd, hnode, -⟩ := hsearch acquainted motley _ .settled hclient arises_acquainted _
    List.mem_cons_self _ hfirst 0 _ hr hbegins
  obtain ⟨d', hd', -, hseed⟩ := hsearch acquainted motley _ .settled hclient arises_acquainted _
    (List.mem_cons_of_mem _ List.mem_cons_self) _ hsecond 0 _ hr hbegins
  obtain rfl : d' = d := by
    rw [hd] at hd'
    cases hd'
    rfl
  exact ⟨hclient, (hread _ _ hfirst).2, (hread _ _ hsecond).2, d', hd, hnode 0 hknown, (hseed hunknown).1⟩

end Prompt
end SlotRouter
