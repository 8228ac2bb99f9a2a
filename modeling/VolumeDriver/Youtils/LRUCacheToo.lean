/-
The cache of objects by key (`LRUCacheToo`) in which the object registry keeps registrations. Its bimap has
the keys on the left and, on the right, a list of the entries, the least recently used one first.
-/
import Mathlib.Data.List.Induction
import Mathlib.Data.List.Nodup
import VolumeDriver.Lib.Assoc
import VolumeDriver.Lib.Except

namespace VolumeDriver.Youtils

open Lib List

variable {K V : Type} [DecidableEq K]

/-! ## The cache -/

/-- `bimap<Set<K>, list_of<V>>`: what the list holds, a key at most once. -/
structure Bimap (K V : Type) where
  right : Assoc K V
  unique : (right.map (·.1)).Nodup

namespace Bimap

variable (b : Bimap K V) (k : K) (v : V)

/-- The keys, by use. -/
def keys : List K := b.right.map (·.1)

/-- `right.erase(right.begin())`. -/
def eraseFront : Bimap K V := ⟨b.right.tail, b.unique.sublist ((tail_sublist _).map _)⟩

/-- `left.erase(k)`. -/
def erase : Bimap K V := ⟨b.right.erase k, b.unique.sublist (filter_sublist.map _)⟩

/-- A new entry is the last one of the list; nothing is changed when the key has one. -/
def insert : Bimap K V × Bool :=
  if h : k ∈ b.keys then (b, false)
  else (⟨b.right ++ [(k, v)], by
    rw [map_append]
    exact List.Nodup.append b.unique (nodup_singleton k) (disjoint_singleton.2 h)⟩, true)

end Bimap

/-- The calls. -/
inductive Op (K V : Type)
  | find (k : K)
  | insert (k : K) (v : V)
  | erase (k : K)
  | clear

namespace LRUCacheToo

variable (capacity_ : Nat) (bimap_ : Bimap K V) (k : K) (v : V)

/-- An entry that is found is relocated to the end of the list. -/
def find : Option V × Bimap K V :=
  match bimap_.right.find k with
  | some v => (some v, ((bimap_.erase k).insert k v).1)
  | none => (none, bimap_)

/-- Makes room, and puts the entry last. -/
def insert : Except String (Bimap K V) :=
  let b := if capacity_ ≤ bimap_.right.length then bimap_.eraseFront else bimap_
  if (b.insert k v).2 then pure (b.insert k v).1
  else do
    let r := (b.erase k).insert k v
    verify r.2 "r.second"
    pure r.1

/-- The cache after a call. -/
def step (bimap_ : Bimap K V) : Op K V → Except String (Bimap K V)
  | .find k => pure (find bimap_ k).2
  | .insert k v => insert capacity_ bimap_ k v
  | .erase k => pure (bimap_.erase k)
  | .clear => pure ⟨[], .nil⟩

/-- The cache after some calls. -/
def run (ops : List (Op K V)) : Except String (Bimap K V) := ops.foldlM (step capacity_) ⟨[], .nil⟩

/-! ## What it is to hold -/

/-- The keys inserted since the last `clear` and not erased or evicted since, with the values of their last
inserts and in the order of their last inserts or successful finds. -/
def used (r : Assoc K V) : Op K V → Assoc K V
  | .find k => ((r.find k).map fun v => r.erase k ++ [(k, v)]).getD r
  | .insert k v =>
    -- the last `min capacity_ d` of `d` keys
    let r := r.erase k ++ [(k, v)]
    r.drop (r.length - capacity_)
  | .erase k => r.erase k
  | .clear => []

/-- What is to be held after some calls. -/
def recent (ops : List (Op K V)) : Assoc K V := ops.foldl (used capacity_) []

/-- The cache is full and the key has an entry in it, but not the least recently used one. -/
def Displaces (keys : List K) (k : K) : Prop := capacity_ ≤ keys.length ∧ k ∈ keys.tail

instance (keys : List K) (k : K) : Decidable (Displaces capacity_ keys k) := inferInstanceAs (Decidable (_ ∧ _))

/-! ## An insert -/

variable {capacity_ bimap_ k} {b : Bimap K V} {r : Assoc K V}

theorem mem_keys_erase {x : K} : x ∈ (r.erase k).map (·.1) ↔ x ∈ r.map (·.1) ∧ x ≠ k := by
  rw [← Assoc.find_isSome_iff, ← Assoc.find_isSome_iff, Assoc.find_erase]
  split
  · next hx => simp [hx]
  · next hx => simp [Ne.symm hx]

theorem erase_of_not_mem (h : k ∉ r.map (·.1)) : r.erase k = r :=
  filter_eq_self.2 fun p hp => decide_eq_true fun hk => h (mem_map.2 ⟨p, hp, hk⟩)

theorem insert_erase (b : Bimap K V) (k : K) :
    ((b.erase k).insert k v).2 = true ∧ ((b.erase k).insert k v).1.right = b.right.erase k ++ [(k, v)] := by
  have h : k ∉ (b.erase k).keys := fun h => (mem_keys_erase.1 h).2 rfl
  rw [Bimap.insert, dif_neg h]
  exact ⟨rfl, rfl⟩

/-- The entries that an insert starts from: it makes room before it looks for the key. -/
def room (capacity_ : Nat) (r : Assoc K V) : Assoc K V := if capacity_ ≤ r.length then r.tail else r

theorem insert_eq (capacity_ : Nat) (bimap_ : Bimap K V) (k : K) (v : V) : ∃ b, insert capacity_ bimap_ k v = .ok b ∧
    b.right = (room capacity_ bimap_.right).erase k ++ [(k, v)] := by
  have hroom : (if capacity_ ≤ bimap_.right.length then bimap_.eraseFront else bimap_).right =
      room capacity_ bimap_.right := by
    unfold room
    split <;> rfl
  unfold insert
  rw [← hroom]
  generalize (if capacity_ ≤ bimap_.right.length then bimap_.eraseFront else bimap_) = b
  by_cases hk : k ∈ b.keys
  · obtain ⟨hok, hright⟩ := insert_erase v b k
    have hold : (b.insert k v).2 = false := by simp [Bimap.insert, hk]
    refine ⟨_, ?_, hright⟩
    simp only [hold, hok, verify_of, Bool.false_eq_true, if_false, ok_bind]
    rfl
  · have hnew : (b.insert k v).2 = true ∧ (b.insert k v).1.right = b.right ++ [(k, v)] := by simp [Bimap.insert, hk]
    refine ⟨_, if_pos hnew.1, ?_⟩
    rw [hnew.2, erase_of_not_mem hk]

theorem room_erase (hc : 0 < capacity_) (hr : r.length ≤ capacity_) (h : ¬ Displaces capacity_ (r.map (·.1)) k) :
    (room capacity_ r).erase k ++ [(k, v)] = used capacity_ r (.insert k v) := by
  have hlen : (r.erase k).length ≤ r.length := length_filter_le ..
  simp only [room, used, length_append, length_singleton]
  split
  · next hfull =>
    obtain ⟨p, rest, rfl⟩ := exists_cons_of_length_pos (Nat.lt_of_lt_of_le hc hfull)
    have hk : Assoc.erase rest k = rest := erase_of_not_mem fun hk => h ⟨by simpa using hfull, hk⟩
    have hsize : rest.length + 1 = capacity_ := Nat.le_antisymm hr hfull
    by_cases hp : p.1 = k
    · have hfront : Assoc.erase (p :: rest) k = rest := by rw [← hk]; simp [Assoc.erase, hp]
      rw [hfront, hsize, Nat.sub_self, tail_cons, hk, drop_zero]
    · have hfront : Assoc.erase (p :: rest) k = p :: rest := by rw [← hk]; simp [Assoc.erase, hp]
      rw [hfront, length_cons, hsize, Nat.add_sub_cancel_left, tail_cons, hk]
      rfl
  · rw [Nat.sub_eq_zero_of_le (by omega), drop_zero]

theorem keys_kept_iff (bimap_ : Bimap K V) (hb : insert capacity_ bimap_ k v = .ok b) (hk : k ∈ bimap_.keys) :
    bimap_.keys ⊆ b.keys ↔ ¬ Displaces capacity_ bimap_.keys k := by
  obtain ⟨_, hins, hright⟩ := insert_eq capacity_ bimap_ k v
  obtain rfl := Except.ok.inj (hb.symm.trans hins)
  obtain ⟨r, hn⟩ := bimap_
  obtain ⟨p, rest, rfl⟩ := exists_cons_of_ne_nil (map_eq_nil_iff.not.1 (ne_nil_of_mem hk))
  simp only [Bimap.keys, hright, room, map_append, map_cons, map_nil] at hn hk ⊢
  rw [nodup_cons] at hn
  constructor
  · rintro hsub ⟨hfull, hk'⟩
    have hp := hsub (mem_cons_self ..)
    rw [if_pos (by simpa using hfull), mem_append, mem_keys_erase, mem_singleton] at hp
    rcases hp with hp | rfl
    · exact hn.1 hp.1
    · exact hn.1 hk'
  · intro hnot x hx
    rw [mem_append, mem_keys_erase]
    by_cases hxk : x = k
    · exact .inr (mem_singleton.2 hxk)
    · refine .inl ⟨?_, hxk⟩
      split
      · next hfull =>
        have hk' := (mem_cons.1 hk).resolve_right fun hk => hnot ⟨by simpa using hfull, hk⟩
        exact (mem_cons.1 hx).resolve_left fun he => hxk (he.trans hk'.symm)
      · exact hx

/-! ## Runs -/

theorem step_used (hc : 0 < capacity_) (hr : b.right.length ≤ capacity_) (op : Op K V)
    (hop : ∀ k v, op = .insert k v → ¬ Displaces capacity_ b.keys k) :
    ∃ b', step capacity_ b op = .ok b' ∧ b'.right = used capacity_ b.right op ∧ b'.right.length ≤ capacity_ := by
  cases op with
  | find k =>
    refine ⟨_, rfl, ?_⟩
    cases hv : b.right.find k with
    | none =>
      simp only [find, used, hv]
      exact ⟨rfl, hr⟩
    | some v =>
      have hlt : (b.right.erase k).length < b.right.length :=
        length_filter_lt_length_iff_exists.2 ⟨_, Assoc.mem_of_find hv, by simp⟩
      simp only [find, used, hv, (insert_erase v b k).2]
      refine ⟨rfl, ?_⟩
      rw [length_append, length_singleton]
      omega
  | insert k v =>
    obtain ⟨b', hb, hright⟩ := insert_eq capacity_ b k v
    have hused := hright.trans (room_erase v hc hr (hop k v rfl))
    refine ⟨b', hb, hused, ?_⟩
    rw [hused, used, length_drop]
    omega
  | erase k => exact ⟨_, rfl, rfl, Nat.le_trans (length_filter_le ..) hr⟩
  | clear => exact ⟨_, rfl, rfl, Nat.zero_le _⟩

theorem run_recent (hc : 0 < capacity_) (ops : List (Op K V))
    (h : ∀ pre k v, pre ++ [.insert k v] <+: ops → ¬ Displaces capacity_ ((recent capacity_ pre).map (·.1)) k) :
    ∃ b, run capacity_ ops = .ok b ∧ b.right = recent capacity_ ops ∧ b.right.length ≤ capacity_ := by
  induction ops using List.reverseRecOn with
  | nil => exact ⟨_, rfl, rfl, Nat.zero_le _⟩
  | append_singleton pre op ih =>
    obtain ⟨b, hrun, hright, hle⟩ := ih fun pre' k v hp => h pre' k v (hp.trans (prefix_append ..))
    obtain ⟨b', hstep, hnext⟩ := step_used hc hle op fun k v hop => by
      rw [Bimap.keys, hright]
      exact h pre k v (hop ▸ prefix_rfl)
    refine ⟨b', ?_, ?_⟩
    · rw [run, foldlM_append, ← run, hrun]
      simpa using hstep
    · rwa [recent, foldl_append, ← recent, ← hright]

/-- The cache holds the most recently used keys, in their order and with their values, and an insert of a key
with an entry evicts nothing, exactly as long as no key is inserted that displaces the entry of another. -/
theorem exact_lru_iff (capacity_ : Nat) (hc : 0 < capacity_) (ops : List (Op K V)) :
    (∀ pre, pre <+: ops → ∃ b, run capacity_ pre = .ok b ∧ b.keys = (recent capacity_ pre).map (·.1) ∧
      (∀ k, (find b k).1 = (recent capacity_ pre).find k) ∧
      ∀ k v b', pre ++ [.insert k v] <+: ops → insert capacity_ b k v = .ok b' → k ∈ b.keys → b.keys ⊆ b'.keys) ↔
    ∀ pre k v, pre ++ [.insert k v] <+: ops → ¬ Displaces capacity_ ((recent capacity_ pre).map (·.1)) k := by
  constructor
  · intro h pre k v hp hdis
    obtain ⟨b, -, hkeys, -, hkeeps⟩ := h pre ((prefix_append ..).trans hp)
    rw [← hkeys] at hdis
    have hk := mem_of_mem_tail hdis.2
    obtain ⟨b', hins, -⟩ := insert_eq capacity_ b k v
    exact (keys_kept_iff v b hins hk).1 (hkeeps k v b' hp hins hk) hdis
  · intro h pre hpre
    obtain ⟨b, hrun, hright, -⟩ := run_recent hc pre fun pre' k v hp => h pre' k v (hp.trans hpre)
    refine ⟨b, hrun, congrArg (List.map _) hright, fun k => ?_, fun k v b' hp hins hk => ?_⟩
    · unfold find
      split <;> simp_all
    · refine (keys_kept_iff v b hins hk).2 ?_
      rw [Bimap.keys, hright]
      exact h pre k v hp

/-- The older of two keys is inserted once more. -/
theorem exact_lru_older_again :
    0 < 2 ∧ ∃ b : Bimap Nat Nat, run 2 [.insert 1 0, .insert 2 0, .insert 1 5] = .ok b ∧ b.keys = [2, 1] := by
  have hfree : ∀ pre k v, pre ++ [.insert k v] <+: [.insert 1 0, .insert 2 0, .insert 1 5] →
      ¬ Displaces 2 ((recent 2 pre : Assoc Nat Nat).map (·.1)) k := by
    rintro pre k v ⟨rest, hp⟩
    rcases pre with _ | ⟨_, _ | ⟨_, _ | ⟨_, pre⟩⟩⟩
    · cases hp
      decide
    · cases hp
      decide
    · cases hp
      decide
    · simp at hp
  obtain ⟨b, hrun, hkeys, -⟩ := (exact_lru_iff 2 (by decide) _).2 hfree _ prefix_rfl
  exact ⟨by decide, b, hrun, hkeys⟩

/-- The younger of two keys is inserted once more: the older one is evicted. -/
theorem insert_evicts_other :
    (run 2 [.insert 1 0, .insert 2 0, .insert 2 5]).map Bimap.keys = .ok [2] ∧
      (recent 2 [.insert 1 0, .insert 2 0, .insert 2 5]).map (·.1) = [1, 2] := by
  decide

end LRUCacheToo

end VolumeDriver.Youtils
