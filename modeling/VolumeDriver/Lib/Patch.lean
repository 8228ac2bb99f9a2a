/-
Conditional patches of a map: a key gets a new value where its value still has the old tag. Patching
what a log left behind is the same as replaying a log that has the new values in it.
-/
import VolumeDriver.Lib.Replay

namespace Lib

section

variable {K V L : Type} [DecidableEq K] [DecidableEq L] (tag : V → L)

/-- Gives the key `k` the value `new` if its value has the tag `old`. -/
structure Patch (K V L : Type) where
  key : K
  old : L
  new : V

/-- The map after one patch. -/
def Patch.apply (m : K → V) (p : Patch K V L) : K → V :=
  if tag (m p.key) = p.old then Function.update m p.key p.new else m

/-- The map after the patches, in turn. -/
def patchAll (m : K → V) (ps : List (Patch K V L)) : K → V := ps.foldl (Patch.apply tag) m

theorem Patch.apply_of_ne {m : K → V} {p : Patch K V L} {k : K} (h : p.key ≠ k) : p.apply tag m k = m k := by
  unfold Patch.apply
  split
  · exact Function.update_of_ne (Ne.symm h) ..
  · rfl

theorem patchAll_of_not_mem : ∀ {ps : List (Patch K V L)} {m : K → V} {k : K}, k ∉ ps.map (·.key) →
    patchAll tag m ps k = m k
  | [], _, _, _ => rfl
  | p :: ps, m, k, h => by
    rw [List.map_cons, List.mem_cons, not_or] at h
    show patchAll tag (p.apply tag m) ps k = m k
    rw [patchAll_of_not_mem h.2, Patch.apply_of_ne tag (Ne.symm h.1)]

/-- With one patch for a key, the key has the new value if it had the old one before. -/
theorem patchAll_of_mem : ∀ {ps : List (Patch K V L)} {m : K → V} {p : Patch K V L}, (ps.map (·.key)).Nodup → p ∈ ps →
    patchAll tag m ps p.key = if tag (m p.key) = p.old then p.new else m p.key
  | q :: ps, m, p, hn, hp => by
    rw [List.map_cons, List.nodup_cons] at hn
    show patchAll tag (q.apply tag m) ps p.key = _
    rcases List.mem_cons.1 hp with rfl | hp
    · rw [patchAll_of_not_mem tag hn.1]
      unfold Patch.apply
      split
      · exact Function.update_self ..
      · rfl
    · have hne : q.key ≠ p.key := fun he => hn.1 (he ▸ List.mem_map_of_mem hp)
      rw [patchAll_of_mem hn.2 hp, Patch.apply_of_ne tag hne]

/-- A log `l` between an older and a newer one may be patched afterwards, or replaced by one that has
the new values, if the newer log brings back none of the old tags. -/
theorem patchAll_replay {ps : List (Patch K V L)} {older l l' newer : List (K × V)} {m : K → V}
    (hn : (ps.map (·.key)).Nodup)
    (hold : ∀ p ∈ ps, ∃ v, lastBinding l p.key = some v ∧ tag v = p.old)
    (hnew : ∀ p ∈ ps, lastBinding l' p.key = some p.new)
    (hkeep : ∀ k ∉ ps.map (·.key), lastBinding l' k = lastBinding l k)
    (hnewer : ∀ p ∈ ps, ∀ v, lastBinding newer p.key = some v → tag v ≠ p.old) :
    patchAll tag (replay m (older ++ l ++ newer)) ps = replay m (older ++ l' ++ newer) := by
  funext k
  by_cases hk : k ∈ ps.map (·.key)
  · obtain ⟨p, hp, rfl⟩ := List.mem_map.1 hk
    rw [patchAll_of_mem tag hn hp]
    simp only [replay_apply, lastBinding_append]
    cases hv : lastBinding newer p.key with
    | some v => exact if_neg (hnewer p hp v hv)
    | none =>
      obtain ⟨v, hv', htag⟩ := hold p hp
      rw [hv', hnew p hp]
      exact if_pos htag
  · rw [patchAll_of_not_mem tag hk]
    simp only [replay_apply, lastBinding_append, hkeep k hk]

end

end Lib
