/-
Maps as lists of keys and values in the order of the keys, so that equal maps are equal lists.
-/
import Mathlib.Data.List.Basic

namespace Lib

/-- A map from keys to values. -/
abbrev Assoc (K V : Type) := List (K × V)

namespace Assoc

variable {K V : Type} [DecidableEq K]

/-- The value of the key. -/
def find (m : Assoc K V) (key : K) : Option V :=
  match m with
  | [] => none
  | (k, v) :: rest => if k = key then some v else find rest key

/-- The map without the key. -/
def erase (m : Assoc K V) (key : K) : Assoc K V := m.filter fun p => p.1 ≠ key

@[simp] theorem find_nil (key : K) : find ([] : Assoc K V) key = none := rfl

theorem mem_of_find {key : K} {value : V} : ∀ {m : Assoc K V}, m.find key = some value → (key, value) ∈ m
  | (k, v) :: rest, h => by
    simp only [find] at h
    split at h
    · next hk =>
      cases h
      subst hk
      exact List.mem_cons_self ..
    · exact List.mem_cons_of_mem _ (mem_of_find h)

theorem find_of_mem {key : K} {value : V} :
    ∀ {m : Assoc K V}, (m.map (·.1)).Nodup → (key, value) ∈ m → m.find key = some value
  | (k, v) :: rest, hnodup, hmem => by
    rw [List.map_cons, List.nodup_cons] at hnodup
    rcases List.mem_cons.1 hmem with heq | hrest
    · cases heq
      simp [find]
    · -- the head has another key
      have hne : k ≠ key := by
        rintro rfl
        exact hnodup.1 (List.mem_map.2 ⟨_, hrest, rfl⟩)
      simp only [find, hne, if_false]
      exact find_of_mem hnodup.2 hrest

theorem find_isSome_iff {key : K} : ∀ {m : Assoc K V}, (m.find key).isSome ↔ key ∈ m.map (·.1)
  | [] => by simp
  | (k, v) :: rest => by
    simp only [find]
    split
    · next hk => simp [hk]
    · next hk =>
      rw [find_isSome_iff, List.map_cons, List.mem_cons]
      simp [Ne.symm hk]

theorem find_erase (key k : K) : ∀ m : Assoc K V, (m.erase key).find k = if key = k then none else m.find k
  | [] => by simp [erase]
  | (k', v) :: rest => by
    have ih := find_erase key k rest
    unfold erase at ih ⊢
    rw [List.filter_cons]
    split
    · next hk =>
      have hne : k' ≠ key := by simpa using hk
      simp only [find, ih]
      by_cases hkk : k' = k
      · subst hkk
        simp [Ne.symm hne]
      · simp [hkk]
    · next hk =>
      have hkey : k' = key := by simpa using hk
      subst hkey
      rw [ih]
      simp only [find]
      split <;> rfl

theorem find_map {W : Type} (g : V → W) (key : K) :
    ∀ m : Assoc K V, find (m.map fun q => (q.1, g q.2)) key = (m.find key).map g
  | [] => rfl
  | (k, v) :: rest => by
    simp only [List.map_cons, find]
    split
    · rfl
    · exact find_map g key rest

variable [LT K] [DecidableLT K]

/-- The map with the value of the key, at the key's place. -/
def insert (m : Assoc K V) (key : K) (value : V) : Assoc K V :=
  match m with
  | [] => [(key, value)]
  | (k, v) :: rest =>
    if k = key then (key, value) :: rest
    else if key < k then (key, value) :: (k, v) :: rest
    else (k, v) :: insert rest key value

theorem find_insert (key : K) (value : V) (k : K) :
    ∀ m : Assoc K V, (m.insert key value).find k = if key = k then some value else m.find k
  | [] => rfl
  | (k', v) :: rest => by
    unfold insert
    split
    · next hk =>
      subst hk
      simp only [find]
      split <;> rfl
    · next hk =>
      split
      · simp only [find]
      · simp only [find, find_insert key value k rest]
        -- the key is found at the head or behind it, the new one never at the head
        by_cases hkk : k' = k
        · subst hkk
          simp [Ne.symm hk]
        · simp [hkk]

/-- The value of a key, wherever it is in the list. -/
def set (m : Assoc K V) (key : K) (value : V) : Assoc K V := (m.erase key).insert key value

theorem find_set (key : K) (value : V) (k : K) (m : Assoc K V) :
    (m.set key value).find k = if key = k then some value else m.find k := by
  unfold set
  rw [find_insert, find_erase]
  split <;> rfl

end Assoc

end Lib
