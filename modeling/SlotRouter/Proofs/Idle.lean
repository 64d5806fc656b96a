import Mathlib.Data.List.Perm.Subperm
import SlotRouter.Topology.Refresh

/-!
# The idle links of a client

The idle links of all pools, as one list. Borrowing takes a link out of it, giving back puts at most
that link into it, and whatever else a client does to its topology only takes links away.

Key definition: `Topology.idle`. Key theorems: `idle_take`, `idle_giveBack`, `idle_install`,
`idle_close`.
-/

namespace SlotRouter
namespace Topology

open List

/-- The links that nobody has, of all pools ever made. -/
def idle (t : Topology) : List Link := t.pools.flatMap Pool.idle

variable {t t' : Topology} {id : PoolId} {f : Pool → Pool}

theorem pool_eq_getElem (h : id < t.pools.length) : t.pool id = t.pools[id] := by
  simp [pool, h]

theorem pool_eq_default (h : ¬ id < t.pools.length) : t.pool id = default := by
  simp [pool, h]

theorem modifyPool_eq_self (h : ¬ id < t.pools.length) : t.modifyPool id f = t := by
  unfold modifyPool
  rw [List.modify_eq_self (Nat.not_lt.1 h)]

/-- Changing one pool leaves the idle links of the others as they are. -/
theorem exists_rest (h : id < t.pools.length) (f : Pool → Pool) :
    ∃ before after, t.idle = before ++ ((t.pool id).idle ++ after) ∧
      (t.modifyPool id f).idle = before ++ ((f (t.pool id)).idle ++ after) := by
  obtain ⟨before, p, after, hpools, hlen, hmod⟩ := List.exists_of_modify f h
  have hp : t.pool id = p := by
    rw [pool_eq_getElem h]
    simp [hpools, ← hlen]
  refine ⟨before.flatMap Pool.idle, after.flatMap Pool.idle, ?_, ?_⟩
  · rw [hp]
    simp [idle, hpools]
  · rw [hp]
    simp [idle, modifyPool, hmod]

theorem idle_modifyPool (h : ∀ p, (f p).idle <+ p.idle) : (t.modifyPool id f).idle <+ t.idle := by
  by_cases hid : id < t.pools.length
  · obtain ⟨before, after, ht, hf⟩ := exists_rest hid f
    rw [ht, hf]
    exact (List.Sublist.refl before).append ((h _).append (List.Sublist.refl after))
  · rw [modifyPool_eq_self hid]

/-- A link that is taken was idle, and the others still are at most once. -/
theorem idle_take {link : Link} {p : Pool} (h : (t.pool id).takeIdle = (some link, p)) :
    link :: (t.modifyPool id fun _ => p).idle <+~ t.idle := by
  have hidle : link :: p.idle <+ (t.pool id).idle := by
    unfold Pool.takeIdle at h
    split at h
    · rename_i l rest hdrop
      obtain ⟨hl, rfl⟩ := Prod.mk.inj h
      obtain rfl := Option.some.inj hl
      show l :: rest <+ (t.pool id).idle
      rw [← hdrop]
      exact List.dropWhile_sublist _
    · cases h
  by_cases hid : id < t.pools.length
  · obtain ⟨before, after, ht, hf⟩ := exists_rest hid fun _ => p
    rw [ht, hf]
    have hperm : link :: (before ++ (p.idle ++ after)) ~ before ++ (link :: p.idle ++ after) :=
      List.perm_middle.symm
    refine hperm.subperm.trans ?_
    exact ((List.Sublist.refl before).append (hidle.append (List.Sublist.refl after))).subperm
  · rw [pool_eq_default hid] at hidle
    cases hidle

theorem idle_take_none {p : Pool} (h : (t.pool id).takeIdle = (none, p)) :
    (t.modifyPool id fun _ => p).idle <+ t.idle := by
  have hidle : p.idle = [] := by
    unfold Pool.takeIdle at h
    split at h
    · cases h
    · obtain ⟨-, rfl⟩ := Prod.mk.inj h
      rfl
  exact idle_modifyPool fun q => hidle ▸ List.nil_sublist q.idle

/-- A link that is given back becomes idle only if it is unbroken, and nothing else becomes idle. -/
theorem idle_giveBack (link : Link) (discard : Bool) :
    (t.modifyPool id fun p => p.giveBack link discard).idle <+ t.idle ∨
      link.broken = false ∧ (t.modifyPool id fun p => p.giveBack link discard).idle <+~ link :: t.idle := by
  have hpool : ∀ p : Pool, (p.giveBack link discard).idle = p.idle ∨
      link.broken = false ∧ (p.giveBack link discard).idle = link :: p.idle := by
    intro p
    unfold Pool.giveBack Pool.keep Pool.returnPermit
    split
    · exact .inl rfl
    · rename_i hkeep
      simp only [Bool.or_eq_true, not_or, Bool.not_eq_true] at hkeep
      exact .inr ⟨hkeep.1.2, rfl⟩
  by_cases hid : id < t.pools.length
  · obtain ⟨before, after, ht, hf⟩ := exists_rest hid fun p => p.giveBack link discard
    rcases hpool (t.pool id) with hsame | ⟨hunbroken, hmore⟩
    · left
      rw [ht, hf, hsame]
    · right
      refine ⟨hunbroken, ?_⟩
      rw [ht, hf, hmore]
      exact List.perm_middle.subperm
  · left
    rw [modifyPool_eq_self hid]

/-! ### Changes of the topology -/

theorem idle_obtain (t : Topology) (address : String) : (t.obtain address).2.idle = t.idle := by
  unfold obtain
  split
  · rfl
  · simp [idle, Pool.fresh]

theorem idle_move (t : Topology) (slot : Nat) (address : String) :
    (t.move slot address).2.idle = t.idle := by
  unfold move
  split
  · rfl
  · exact idle_obtain t address

theorem idle_layOut (t : Topology) (table : SlotTable) (rs : List SlotRange) :
    (t.layOut table rs).2.idle = t.idle := by
  induction rs generalizing t table with
  | nil => rfl
  | cons r rs ih =>
    unfold layOut
    rw [ih, idle_obtain]

theorem idle_retain (t : Topology) (live : List String) : (t.retain live).idle <+ t.idle := by
  have hfold : ∀ (entries : List (String × PoolId)) (pools : List Pool),
      (entries.foldl (fun pools e => pools.modify e.2 Pool.close) pools).flatMap Pool.idle
        <+ pools.flatMap Pool.idle := by
    intro entries
    induction entries with
    | nil => exact fun pools => List.Sublist.refl _
    | cons e entries ih =>
      intro pools
      have hclose : (({ t with pools } : Topology).modifyPool e.2 Pool.close).idle <+ ({ t with pools } : Topology).idle :=
        idle_modifyPool fun p => List.nil_sublist p.idle
      exact (ih _).trans hclose
  exact hfold _ _

theorem idle_install {ranges : List SlotRange} (h : t.install ranges = .ok t') :
    t'.idle <+ t.idle := by
  unfold install at h
  split at h
  · cases h
  · obtain rfl := Except.ok.inj h
    refine (idle_retain _ _).trans ?_
    exact (idle_layOut t .empty ranges) ▸ List.Sublist.refl _

theorem idle_close (t : Topology) : t.close.idle <+ t.idle := idle_retain _ _

end Topology
end SlotRouter
