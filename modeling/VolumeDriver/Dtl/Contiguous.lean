/-
Which contents of a DTL can be replayed behind the backend: the locations have to come one after
the other, from offset 0 of the SCO after the last one on the backend. A SCO that takes up all
`2 ^ 16` offsets ends where it began, so that only the last one may be that long.
-/
import VolumeDriver.Dtl.Backend
import Mathlib.Data.List.Perm.Basic
import Mathlib.Data.List.Range
import Mathlib.Tactic.Tauto

namespace VolumeDriver

open List

namespace Contiguous

/-- The number of clusters after which the 16 bits of an offset start over. -/
def offsets : Nat := 2 ^ 16

/-! ## Contents of a DTL -/

/-- The SCOs of a cache, with their entries. -/
abbrev SCOs := List (SCO × List CacheEntry)

/-- All entries, in order. -/
def entries (scos : SCOs) : List CacheEntry := scos.flatMap (·.2)

/-- Their locations. -/
def locs (scos : SCOs) : List ClusterLocation := scos.flatMap fun p => p.2.map (·.cli_)

/-- Entries in the order in which a volume writes them: SCOs with increasing numbers, and in each
of them increasing offsets. -/
structure InOrder (scos : SCOs) : Prop where
  numbers : scos.Pairwise fun p q => q.1.number > p.1.number
  nonempty : ∀ p ∈ scos, p.2 ≠ []
  plain : ∀ p ∈ scos, p.1 = ⟨p.1.number, 0, 0⟩
  number_pos : ∀ p ∈ scos, p.1.number ≠ 0
  number_lt : ∀ p ∈ scos, 2 ^ 32 > p.1.number
  sco : ∀ p ∈ scos, ∀ e ∈ p.2, e.cli_.sco = p.1
  increasing : ∀ p ∈ scos, (p.2.map (·.cli_)).Pairwise fun a b => b.offset > a.offset
  offset_lt : ∀ p ∈ scos, ∀ e ∈ p.2, offsets > e.cli_.offset

variable {p : SCO × List CacheEntry} {scos : SCOs} {n o : Nat}

theorem InOrder.sublist {part : SCOs} (h : InOrder scos) (hsub : part.Sublist scos) : InOrder part where
  numbers := h.numbers.sublist hsub
  nonempty q hq := h.nonempty q (hsub.subset hq)
  plain q hq := h.plain q (hsub.subset hq)
  number_pos q hq := h.number_pos q (hsub.subset hq)
  number_lt q hq := h.number_lt q (hsub.subset hq)
  sco q hq := h.sco q (hsub.subset hq)
  increasing q hq := h.increasing q (hsub.subset hq)
  offset_lt q hq := h.offset_lt q (hsub.subset hq)

theorem InOrder.tail (h : InOrder (p :: scos)) : InOrder scos := h.sublist (sublist_cons_self ..)

/-- The locations `o`, `o + 1`, … of a SCO. -/
def locations (n o count : Nat) : List ClusterLocation := (List.range' o count).map fun i => ⟨⟨n, 0, 0⟩, i⟩

/-- No gaps: SCO numbers from `n` on, and in each SCO the offsets 0, 1, 2, … -/
def Run : Nat → SCOs → Prop
  | _, [] => True
  | n, p :: ps => p.1 = ⟨n, 0, 0⟩ ∧ p.2.map (·.cli_) = locations n 0 p.2.length ∧ Run (n + 1) ps

/-- Only the last SCO may take up all offsets. -/
def FullOnlyLast : SCOs → Prop
  | [] => True
  | [_] => True
  | p :: q :: ps => p.2.length < offsets ∧ FullOnlyLast (q :: ps)

/-- What is behind SCO `n`. -/
def rest (n : Nat) (scos : SCOs) : SCOs := scos.dropWhile fun p => p.1.number ≤ n

/-! ## What a replay takes -/

/-- At offset `o` of SCO `n` a cluster is taken at this location, or, if the SCO has clusters, at
the start of the next one. -/
def Expected (n o : Nat) (l : ClusterLocation) : Prop := l = ⟨⟨n, 0, 0⟩, o⟩ ∨ (o ≠ 0 ∧ l = ⟨⟨n + 1, 0, 0⟩, 0⟩)

/-- A replay at offset `o` of SCO `n` takes the locations. -/
def Accepts : Nat → Nat → List ClusterLocation → Prop
  | _, _, [] => True
  | n, o, l :: ls => Expected n o l ∧ Accepts l.sco.number ((l.offset + 1) % offsets) ls

theorem expected_same {l : ClusterLocation} (h : l.sco.number = n) : Expected n o l ↔ l = ⟨⟨n, 0, 0⟩, o⟩ := by
  refine ⟨?_, .inl⟩
  rintro (hl | ⟨-, rfl⟩)
  · exact hl
  · exact absurd h (Nat.succ_ne_self n)

theorem expected_later {l : ClusterLocation} (h : l.sco.number > n) (ho : o ≠ 0) :
    Expected n o l ↔ Expected (n + 1) 0 l := by
  constructor
  · rintro (rfl | ⟨-, hl⟩)
    · exact absurd h (Nat.lt_irrefl n)
    · exact .inl hl
  · rintro (hl | ⟨h0, -⟩)
    · exact .inr ⟨ho, hl⟩
    · exact absurd rfl h0

theorem accepts_within : ∀ {ls : List ClusterLocation} {o : Nat} (more : List ClusterLocation), o ≤ offsets →
    (∀ l ∈ ls, l.sco.number = n) → ls.Pairwise (fun a b => b.offset > a.offset) →
    (∀ l ∈ ls, o ≤ l.offset ∧ offsets > l.offset) →
    (Accepts n (o % offsets) (ls ++ more) ↔ ls = locations n o ls.length ∧ Accepts n ((o + ls.length) % offsets) more)
  | [], o, more, _, _, _, _ => by simp [locations]
  | l :: ls, o, more, ho, hn, hinc, hoff => by
    obtain ⟨hfirst, hinc⟩ := pairwise_cons.mp hinc
    obtain ⟨hlo, hlt⟩ := hoff l (mem_cons_self ..)
    have ho : o < offsets := Nat.lt_of_le_of_lt hlo hlt
    have hnl := hn l (mem_cons_self ..)
    have hlocs : locations n o (l :: ls).length = ⟨⟨n, 0, 0⟩, o⟩ :: locations n (o + 1) ls.length := rfl
    have hlen : (o + (l :: ls).length) % offsets = (o + 1 + ls.length) % offsets := by
      rw [length_cons, Nat.add_assoc o 1, Nat.add_comm 1]
    rw [cons_append, Accepts, Nat.mod_eq_of_lt ho, expected_same hnl, hlocs, hlen, List.cons.injEq, and_assoc]
    refine and_congr_right fun hl => ?_
    have hstep : (l.offset + 1) % offsets = (o + 1) % offsets := by rw [hl]
    rw [hnl, hstep]
    refine accepts_within more ho (fun x hx => hn x (mem_cons_of_mem l hx)) hinc fun x hx => ?_
    refine ⟨?_, (hoff x (mem_cons_of_mem l hx)).2⟩
    have hgt : x.offset > l.offset := hfirst x hx
    rw [hl] at hgt
    exact hgt

section
variable (h : InOrder (p :: scos))
include h

theorem length_le_offsets : p.2.length ≤ offsets := by
  have hnodup : (p.2.map (·.cli_.offset)).Nodup := by
    have hinc := h.increasing p (mem_cons_self ..)
    rw [pairwise_map] at hinc
    exact pairwise_map.mpr (hinc.imp fun hab => Nat.ne_of_lt hab)
  have hsub : p.2.map (·.cli_.offset) ⊆ List.range offsets := by
    intro o ho
    obtain ⟨e, he, rfl⟩ := mem_map.mp ho
    exact mem_range.mpr (h.offset_lt p (mem_cons_self ..) e he)
  have hle := (subperm_of_subset hnodup hsub).length_le
  rwa [length_map, length_range] at hle

theorem locs_cons : ∃ l ls, locs (p :: scos) = l :: ls ∧ l.sco = p.1 := by
  obtain ⟨e, es, hes⟩ := exists_cons_of_ne_nil (h.nonempty p (mem_cons_self ..))
  refine ⟨e.cli_, es.map (·.cli_) ++ locs scos, ?_, h.sco p (mem_cons_self ..) e ?_⟩
  · show p.2.map (·.cli_) ++ locs scos = _
    rw [hes]
    rfl
  · rw [hes]
    exact mem_cons_self ..

theorem accepts_next (hn : p.1.number > n) (ho : o ≠ 0) :
    Accepts n o (locs (p :: scos)) ↔ Accepts (n + 1) 0 (locs (p :: scos)) := by
  obtain ⟨l, ls, hl, hsco⟩ := locs_cons h
  rw [hl, Accepts, Accepts, expected_later (hsco ▸ hn) ho]

theorem not_accepts_full (hn : p.1.number ≠ n) : ¬ Accepts n 0 (locs (p :: scos)) := by
  obtain ⟨l, ls, hl, hsco⟩ := locs_cons h
  rw [hl]
  rintro ⟨hl | ⟨h0, -⟩, -⟩
  · rw [hl] at hsco
    exact hn (by rw [← hsco])
  · exact h0 rfl

end

/-- A replay takes everything if there is no gap and only the last SCO is full. -/
theorem accepts_iff : ∀ {scos : SCOs} {n : Nat}, InOrder scos →
    (Accepts n 0 (locs scos) ↔ Run n scos ∧ FullOnlyLast scos)
  | [], _, _ => by simp [locs, Accepts, Run, FullOnlyLast]
  | p :: ps, n, h => by
    have hp : p ∈ p :: ps := mem_cons_self ..
    by_cases hn : p.1.number = n
    · have hsco : ∀ l ∈ p.2.map (·.cli_), l.sco.number = n := by
        intro l hl
        obtain ⟨e, he, rfl⟩ := mem_map.mp hl
        rw [h.sco p hp e he, hn]
      have hoff : ∀ l ∈ p.2.map (·.cli_), 0 ≤ l.offset ∧ offsets > l.offset := by
        intro l hl
        obtain ⟨e, he, rfl⟩ := mem_map.mp hl
        exact ⟨Nat.zero_le _, h.offset_lt p hp e he⟩
      have hwithin := accepts_within (locs ps) (Nat.zero_le _) hsco (h.increasing p hp) hoff
      rw [Nat.zero_mod, Nat.zero_add, length_map] at hwithin
      have hplain : p.1 = ⟨n, 0, 0⟩ := hn ▸ h.plain p hp
      have hpos : 0 < p.2.length := length_pos_of_ne_nil (h.nonempty p hp)
      have hle := length_le_offsets h
      rw [show locs (p :: ps) = p.2.map (·.cli_) ++ locs ps from rfl, hwithin, Run, and_assoc, and_assoc]
      simp only [hplain, true_and]
      refine and_congr_right fun _ => ?_
      cases ps with
      | nil => simp [locs, Accepts, Run, FullOnlyLast]
      | cons q qs =>
        have hgt : q.1.number > n := hn ▸ (pairwise_cons.mp h.numbers).1 q (mem_cons_self ..)
        rw [FullOnlyLast]
        by_cases hfull : p.2.length < offsets
        · rw [Nat.mod_eq_of_lt hfull, accepts_next h.tail hgt (by omega), accepts_iff h.tail]
          tauto
        · have hmod : p.2.length % offsets = 0 := by
            rw [Nat.le_antisymm hle (Nat.le_of_not_lt hfull), Nat.mod_self]
          rw [hmod]
          have hno := not_accepts_full h.tail (Nat.ne_of_gt hgt)
          tauto
    · have hno := not_accepts_full h hn
      have hrun : ¬ Run n (p :: ps) := fun hrun => hn (by rw [hrun.1])
      tauto

/-! ## What is behind the backend -/

theorem InOrder.rest (h : InOrder scos) : InOrder (rest n scos) := h.sublist (dropWhile_sublist _)

theorem mem_rest : ∀ {scos : SCOs}, InOrder scos → (p ∈ rest n scos ↔ p ∈ scos ∧ p.1.number > n)
  | [], _ => by simp [rest]
  | q :: qs, h => by
    unfold rest
    rw [dropWhile_cons]
    split
    · next hle =>
      have hle : ¬ q.1.number > n := Nat.not_lt.mpr (of_decide_eq_true hle)
      rw [show qs.dropWhile _ = rest n qs from rfl, mem_rest h.tail, mem_cons]
      constructor
      · rintro ⟨hp, hgt⟩
        exact ⟨.inr hp, hgt⟩
      · rintro ⟨rfl | hp, hgt⟩
        · exact absurd hgt hle
        · exact ⟨hp, hgt⟩
    · next hgt =>
      have hgt : q.1.number > n := Nat.lt_of_not_le fun hle => hgt (decide_eq_true hle)
      refine ⟨fun hp => ⟨hp, ?_⟩, And.left⟩
      rcases mem_cons.mp hp with rfl | hp
      · exact hgt
      · exact Nat.lt_trans hgt ((pairwise_cons.mp h.numbers).1 p hp)

theorem filter_entries : ∀ {scos : SCOs}, InOrder scos → p ∈ scos →
    (entries scos).filter (fun e => e.cli_.sco.number = p.1.number) = p.2
  | [], _, hp => by simp at hp
  | q :: qs, h, hp => by
    have hown : ∀ r ∈ q :: qs, ∀ e ∈ r.2, e.cli_.sco.number = r.1.number := fun r hr e he => by rw [h.sco r hr e he]
    obtain ⟨hlater, -⟩ := pairwise_cons.mp h.numbers
    show (q.2 ++ entries qs).filter _ = _
    rw [filter_append]
    rcases mem_cons.mp hp with rfl | hp
    · -- the entries behind it are in later SCOs
      have hnone : (entries qs).filter (fun e => e.cli_.sco.number = p.1.number) = [] := by
        refine filter_eq_nil_iff.mpr fun e he => ?_
        obtain ⟨r, hr, her⟩ := mem_flatMap.mp he
        rw [hown r (mem_cons_of_mem _ hr) e her]
        simpa using Nat.ne_of_gt (hlater r hr)
      rw [hnone, append_nil]
      exact filter_eq_self.mpr fun e he => by simpa using hown p hp e he
    · have hnone : q.2.filter (fun e => e.cli_.sco.number = p.1.number) = [] := by
        refine filter_eq_nil_iff.mpr fun e he => ?_
        rw [hown q (mem_cons_self ..) e he]
        simpa using Nat.ne_of_lt (hlater p hp)
      rw [hnone, nil_append, filter_entries h.tail hp]

theorem entries_rest : ∀ {scos : SCOs}, InOrder scos →
    entries (rest n scos) = (entries scos).filter fun e => e.cli_.sco.number > n
  | [], _ => rfl
  | q :: qs, h => by
    have hown : ∀ e ∈ q.2, e.cli_.sco.number = q.1.number := fun e he => by rw [h.sco q (mem_cons_self ..) e he]
    have hcons : entries (q :: qs) = q.2 ++ entries qs := rfl
    unfold rest
    rw [dropWhile_cons, hcons, filter_append]
    split
    · next hle =>
      have hnone : q.2.filter (fun e => e.cli_.sco.number > n) = [] := by
        refine filter_eq_nil_iff.mpr fun e he => ?_
        rw [hown e he]
        simpa using of_decide_eq_true hle
      rw [hnone, nil_append]
      exact entries_rest h.tail
    · next hgt =>
      have hgt : q.1.number > n := Nat.lt_of_not_le fun hle => hgt (decide_eq_true hle)
      have hall : q.2.filter (fun e => e.cli_.sco.number > n) = q.2 :=
        filter_eq_self.mpr fun e he => by rw [hown e he]; exact decide_eq_true hgt
      have hlater : (entries qs).filter (fun e => e.cli_.sco.number > n) = entries qs := by
        refine filter_eq_self.mpr fun e he => decide_eq_true ?_
        obtain ⟨r, hr, her⟩ := mem_flatMap.mp he
        rw [h.tail.sco r hr e her]
        exact Nat.lt_trans hgt ((pairwise_cons.mp h.numbers).1 r hr)
      rw [hall, hlater, hcons]

/-- The second entry is at a later location. -/
def Later (a b : CacheEntry) : Prop :=
  b.cli_.sco.number > a.cli_.sco.number ∨ (b.cli_.sco.number = a.cli_.sco.number ∧ b.cli_.offset > a.cli_.offset)

theorem InOrder.later : ∀ {scos : SCOs}, InOrder scos → (entries scos).Pairwise Later
  | [], _ => List.Pairwise.nil
  | q :: qs, h => by
    have hq : q ∈ q :: qs := mem_cons_self ..
    show (q.2 ++ entries qs).Pairwise Later
    rw [pairwise_append]
    refine ⟨?_, h.tail.later, ?_⟩
    · have hinc := h.increasing q hq
      rw [pairwise_map] at hinc
      refine hinc.imp_of_mem ?_
      intro a b ha hb hab
      exact .inr ⟨by rw [h.sco q hq a ha, h.sco q hq b hb], hab⟩
    · intro a ha b hb
      obtain ⟨r, hr, hbr⟩ := mem_flatMap.mp hb
      refine .inl ?_
      rw [h.sco q hq a ha, h.tail.sco r hr b hbr]
      exact (pairwise_cons.mp h.numbers).1 r hr

theorem map_cli_entries (scos : SCOs) : (entries scos).map (·.cli_) = locs scos := map_flatMap

end Contiguous

end VolumeDriver
