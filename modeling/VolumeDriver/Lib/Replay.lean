/-
Logs of bindings replayed over a map, oldest first: what a key holds afterwards is its last
binding in the log, or what it held before. Over any key and value types.
-/
import Mathlib.Data.List.Basic
import Mathlib.Data.List.Nodup
import Mathlib.Logic.Function.Basic
import Std.Data.TreeMap.Lemmas

namespace Lib

section Replay

variable {K V : Type} [DecidableEq K]

/-- Writes the bindings of `l` into `m`, oldest first. -/
def replay (m : K → V) (l : List (K × V)) : K → V :=
  l.foldl (fun m p => Function.update m p.1 p.2) m

/-- The last binding of `k` in `l`. -/
def lastBinding : List (K × V) → K → Option V
  | [], _ => none
  | p :: l, k => (lastBinding l k).or (if p.1 = k then some p.2 else none)

@[simp] theorem replay_nil (m : K → V) : replay m [] = m := rfl

@[simp] theorem replay_cons (m : K → V) (p : K × V) (l : List (K × V)) :
    replay m (p :: l) = replay (Function.update m p.1 p.2) l := rfl

theorem replay_append (m : K → V) (l₁ l₂ : List (K × V)) : replay m (l₁ ++ l₂) = replay (replay m l₁) l₂ :=
  List.foldl_append

@[simp] theorem lastBinding_nil (k : K) : lastBinding ([] : List (K × V)) k = none := rfl

theorem lastBinding_append (l₁ l₂ : List (K × V)) (k : K) :
    lastBinding (l₁ ++ l₂) k = (lastBinding l₂ k).or (lastBinding l₁ k) := by
  induction l₁ with
  | nil => simp
  | cons p l₁ ih => simp only [List.cons_append, lastBinding, ih, Option.or_assoc]

/-- What a key holds after a replay: its last binding, or what it held before. -/
theorem replay_apply : ∀ (l : List (K × V)) (m : K → V) (k : K), replay m l k = (lastBinding l k).getD (m k)
  | [], m, k => rfl
  | p :: l, m, k => by
    rw [replay_cons, replay_apply l, lastBinding]
    cases lastBinding l k with
    | some v => rfl
    | none =>
      by_cases hk : p.1 = k
      · subst hk; simp
      · simp [hk, Function.update_of_ne (Ne.symm hk)]

variable {k : K} {l : List (K × V)}

theorem lastBinding_mem {v : V} (h : lastBinding l k = some v) : (k, v) ∈ l := by
  induction l with
  | nil => cases h
  | cons p l ih =>
    rw [lastBinding] at h
    cases hl : lastBinding l k with
    | some w =>
      rw [hl] at h
      exact List.mem_cons_of_mem _ (ih (by rw [hl]; exact h))
    | none =>
      rw [hl, Option.none_or] at h
      split at h
      · rename_i hk
        cases h; subst hk
        exact List.mem_cons_self ..
      · cases h

theorem lastBinding_eq_none : lastBinding l k = none ↔ k ∉ l.map Prod.fst := by
  induction l with
  | nil => simp
  | cons p l ih =>
    simp only [lastBinding, Option.or_eq_none_iff, ih, List.map_cons, List.mem_cons, not_or]
    by_cases hk : p.1 = k
    · simp [hk]
    · simp [hk, Ne.symm hk]

theorem lastBinding_isSome (h : k ∈ l.map Prod.fst) : ∃ v, lastBinding l k = some v := by
  cases hl : lastBinding l k with
  | some v => exact ⟨v, rfl⟩
  | none => exact absurd h (lastBinding_eq_none.1 hl)

/-- In a log that binds every key at most once, a binding is the last one of its key. -/
theorem lastBinding_of_nodup (hn : (l.map Prod.fst).Nodup) {v : V} (h : (k, v) ∈ l) : lastBinding l k = some v := by
  obtain ⟨w, hw⟩ := lastBinding_isSome (List.mem_map_of_mem (f := Prod.fst) h)
  have := List.inj_on_of_nodup_map hn h (lastBinding_mem hw) rfl
  cases this; exact hw

/-- Two maps that agree outside the keys of a log agree after its replay. -/
theorem replay_congr {m m' : K → V} (h : ∀ k, k ∉ l.map Prod.fst → m k = m' k) : replay m l = replay m' l := by
  funext k
  rw [replay_apply, replay_apply]
  by_cases hk : k ∈ l.map Prod.fst
  · obtain ⟨v, hv⟩ := lastBinding_isSome hk
    rw [hv]; rfl
  · rw [lastBinding_eq_none.2 hk]; exact h k hk

/-- Only the bindings of keys of the same class matter for a key. -/
theorem lastBinding_filter {C : Type} [DecidableEq C] (c : K → C) (k : K) : ∀ (l : List (K × V)),
    lastBinding (l.filter fun p => c p.1 = c k) k = lastBinding l k
  | [] => rfl
  | p :: l => by
    rw [List.filter_cons]
    split
    · rw [lastBinding, lastBinding, lastBinding_filter c k l]
    · rename_i h
      have hk : p.1 ≠ k := fun he => h (by simp [he])
      rw [lastBinding_filter c k l, lastBinding, if_neg hk, Option.or_none]

/-- Bindings of keys of different classes may change places in a log. -/
theorem replay_of_classes {C : Type} [DecidableEq C] (c : K → C) {l' : List (K × V)}
    (h : ∀ x, (l.filter fun p => c p.1 = x) = l'.filter fun p => c p.1 = x) (m : K → V) : replay m l = replay m l' := by
  funext k
  rw [replay_apply, replay_apply, ← lastBinding_filter c k l, ← lastBinding_filter c k l', h]

end Replay

/-! ## Ordered maps as logs -/

section TreeMap

variable {V : Type}

/-- An ordered map lists every key once, so its list replays its lookups. -/
theorem lastBinding_toList (m : Std.TreeMap Nat V) (k : Nat) : lastBinding m.toList k = m[k]? := by
  have hn : (m.toList.map Prod.fst).Nodup := by
    have := m.distinct_keys_toList
    rw [List.Nodup, List.pairwise_map]
    exact this.imp fun h he => by simp [he] at h
  cases hk : m[k]? with
  | some v => exact lastBinding_of_nodup hn (Std.TreeMap.mem_toList_iff_getElem?_eq_some.2 hk)
  | none =>
    cases hl : lastBinding m.toList k with
    | none => rfl
    | some v =>
      rw [Std.TreeMap.mem_toList_iff_getElem?_eq_some.1 (lastBinding_mem hl)] at hk
      cases hk

end TreeMap

end Lib
