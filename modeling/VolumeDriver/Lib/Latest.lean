/-
The last element of each key in a list, in the order of the list.
-/
import VolumeDriver.Lib.Replay
import Mathlib.Data.List.Pairwise

namespace Lib

open List

section

variable {α K : Type} [DecidableEq K] (key : α → K)

/-- The elements after which none of the same key comes. -/
def latest (l : List α) : List α := l.pwFilter fun a b => key a ≠ key b

theorem latest_sublist (l : List α) : (latest key l).Sublist l := pwFilter_sublist l

theorem latest_nodup (l : List α) : ((latest key l).map key).Nodup := by
  rw [List.Nodup, pairwise_map]
  exact pairwise_pwFilter l

theorem latest_keys_ne (a : α) (l : List α) : (∀ b ∈ latest key l, key a ≠ key b) ↔ ∀ b ∈ l, key a ≠ key b := by
  apply forall_mem_pwFilter
  intro x y z hxz
  by_cases hxy : key x = key y
  · exact Or.inr fun hyz => hxz (hxy.trans hyz)
  · exact Or.inl hxy

theorem mem_latest_keys {k : K} {l : List α} : k ∈ (latest key l).map key ↔ k ∈ l.map key := by
  constructor
  · intro h
    exact ((latest_sublist key l).map key).subset h
  · intro h
    obtain ⟨a, ha, rfl⟩ := mem_map.1 h
    by_contra hne
    refine (latest_keys_ne key a l).1 (fun b hb hk => ?_) a ha rfl
    exact hne (mem_map.2 ⟨b, hb, hk.symm⟩)

theorem latest_cons (a : α) (l : List α) :
    latest key (a :: l) = if key a ∈ l.map key then latest key l else a :: latest key l := by
  split
  · rename_i h
    obtain ⟨b, hb, hk⟩ := mem_map.1 h
    exact pwFilter_cons_of_neg fun hall => (latest_keys_ne key a l).1 hall b hb hk.symm
  · rename_i h
    exact pwFilter_cons_of_pos ((latest_keys_ne key a l).2 fun b hb hk => h (mem_map.2 ⟨b, hb, hk.symm⟩))

/-- Elements of other keys do not matter. -/
theorem latest_filter (p : K → Bool) : ∀ (l : List α),
    latest key (l.filter fun a => p (key a)) = (latest key l).filter fun a => p (key a)
  | [] => rfl
  | a :: l => by
    have hmem : p (key a) = true → (key a ∈ (l.filter fun a => p (key a)).map key ↔ key a ∈ l.map key) := by
      intro hp
      constructor
      · intro h
        obtain ⟨b, hb, hk⟩ := mem_map.1 h
        exact mem_map.2 ⟨b, mem_of_mem_filter hb, hk⟩
      · intro h
        obtain ⟨b, hb, hk⟩ := mem_map.1 h
        exact mem_map.2 ⟨b, mem_filter.2 ⟨hb, by rw [hk]; exact hp⟩, hk⟩
    rw [filter_cons]
    by_cases hp : p (key a) = true
    · rw [if_pos hp, latest_cons, latest_cons]
      by_cases ha : key a ∈ l.map key
      · rw [if_pos ((hmem hp).2 ha), if_pos ha, latest_filter p l]
      · rw [if_neg fun h => ha ((hmem hp).1 h), if_neg ha, latest_filter p l, filter_cons, if_pos hp]
    · rw [if_neg hp, latest_filter p l, latest_cons]
      split
      · rfl
      · rw [filter_cons, if_neg hp]

/-- The last element of a key is its last binding. -/
theorem lastBinding_of_mem_latest {V : Type} (value : α → V) : ∀ {l : List α} {a : α}, a ∈ latest key l →
    lastBinding (l.map fun x => (key x, value x)) (key a) = some (value a)
  | x :: l, a, h => by
    rw [map_cons, lastBinding]
    rw [latest_cons] at h
    split at h
    · rw [lastBinding_of_mem_latest value h]; rfl
    · rename_i hx
      rcases mem_cons.1 h with rfl | h
      · have hnone : lastBinding (l.map fun x => (key x, value x)) (key a) = none := by
          rw [lastBinding_eq_none, map_map]
          exact hx
        rw [hnone, if_pos rfl]; rfl
      · rw [lastBinding_of_mem_latest value h]; rfl

end

end Lib
