/-
Cluster locations are handed out in increasing order: as long as the SCO multiplier is smaller
than `2 ^ 16` and the SCO numbers do not run out, no location is used twice and every offset is
below the multiplier in force. An offset has 16 bits, so a SCO of `2 ^ 16` clusters starts over at
offset 0 without a rollover.
-/
import VolumeDriver.DataStore.Consistent
import VolumeDriver.Volume.Write
import VolumeDriver.Lib.Steps

namespace VolumeDriver

open Lib List
open DataStoreNG
open Volume Triple

namespace Locations

variable {D : Type}

/-! ## The property -/

/-- The location comes before offset `o` of SCO `n`. -/
def Before (l : ClusterLocation) (n o : Nat) : Prop := n > l.sco.number ∨ n = l.sco.number ∧ o > l.offset

/-- Lexicographic order on SCO number and offset. -/
def Less (a b : ClusterLocation) : Prop := Before a b.sco.number b.offset

/-- What is asked of the locations handed out. -/
structure Bounded (handed : List Handout) : Prop where
  distinct : (handed.flatMap (·.locs)).Nodup
  increasing : (handed.flatMap (·.locs)).Pairwise Less
  offset_lt : ∀ h ∈ handed, ∀ l ∈ h.locs, h.sco_mult > l.offset
  num_locs_le : ∀ h ∈ handed, h.locs.length ≤ h.size

theorem Before.mono {l : ClusterLocation} {n o n' o' : Nat} (h : Before l n o) (hle : n < n' ∨ n = n' ∧ o ≤ o') :
    Before l n' o' := by
  unfold Before at *
  omega

theorem ne_of_less {a b : ClusterLocation} (h : Less a b) : a ≠ b := by
  rintro rfl
  rcases h with h | ⟨-, h⟩
  · exact Nat.lt_irrefl _ h
  · exact Nat.lt_irrefl _ h

/-! ## The invariant of the data store -/

/-- Everything handed out so far comes before the current location. -/
structure Behind (c : DataStoreNG D × Nat × List Handout) : Prop where
  mult_pos : 0 < c.1.sco_mult_
  mult_lt : c.1.sco_mult_ < 2 ^ 16
  size_eq : c.2.1 = c.1.sco_mult_
  closed : c.1.current_open = false → c.1.offset = 0
  before : ∀ l ∈ c.2.2.flatMap (·.locs), Before l c.1.number c.1.offset
  bounded : Bounded c.2.2

/-- The state between two calls: the SCO is at most full, and `r` more clusters can be written
before the SCO numbers run out. -/
structure Ordered (r : Nat) (c : DataStoreNG D × Nat × List Handout) : Prop extends Behind c where
  offset_le : c.1.offset ≤ c.1.sco_mult_
  room : c.1.number + (c.1.offset + r) / c.1.sco_mult_ < 2 ^ 32

open Ordered

section
variable {d : DataStoreNG D} {size r : Nat} {handed : List Handout}

theorem Ordered.mono {c : DataStoreNG D × Nat × List Handout} {r' : Nat} (h : Ordered r c) (hr : r' ≤ r) :
    Ordered r' c := by
  have hdiv := Nat.div_le_div_right (c := c.1.sco_mult_) (show c.1.offset + r' ≤ c.1.offset + r by omega)
  have hroom := h.room
  exact { h with room := by omega }

theorem Ordered.toRoom (h : Ordered r (d, size, handed)) : DataStoreNG.Room r d :=
  ⟨h.mult_pos, h.mult_lt, h.offset_le, h.room⟩

theorem mem_locations {l : ClusterLocation} {n : Nat} (hn : d.offset + n < 2 ^ 16) (h : l ∈ d.locations n) :
    d.number = l.sco.number ∧ d.offset ≤ l.offset ∧ d.offset + n > l.offset := by
  obtain ⟨i, hi, rfl⟩ := mem_map.mp h
  have hi := mem_range.mp hi
  refine ⟨rfl, ?_, ?_⟩
  · show d.offset ≤ (d.offset + i) % 2 ^ 16
    omega
  · show d.offset + n > (d.offset + i) % 2 ^ 16
    omega

theorem head?_locations {n : Nat} (hn : 0 < n) :
    (d.locations n).head? = some ⟨⟨d.number, 0, 0⟩, d.offset % 2 ^ 16⟩ := by
  unfold DataStoreNG.locations
  rw [List.head?_map, List.head?_range, if_neg (by omega)]
  rfl

theorem locations_pairwise {n : Nat} (hn : d.offset + n < 2 ^ 16) : (d.locations n).Pairwise Less := by
  unfold DataStoreNG.locations
  rw [pairwise_map]
  refine List.Pairwise.imp_of_mem ?_ pairwise_lt_range
  intro i j hi hj hij
  have hj := mem_range.mp hj
  refine .inr ⟨rfl, ?_⟩
  show (d.offset + j) % 2 ^ 16 > (d.offset + i) % 2 ^ 16
  omega

theorem Bounded.concat (hb : Bounded handed) (hbefore : ∀ l ∈ handed.flatMap (·.locs), Before l d.number d.offset)
    {n mult : Nat} (hn : d.offset + n ≤ mult) (hmult : mult < 2 ^ 16) (hsize : n ≤ size) :
    Bounded (handed ++ [⟨d.locations n, size, mult⟩]) := by
  have hlt : d.offset + n < 2 ^ 16 := by omega
  have hinc : ((handed ++ [(⟨d.locations n, size, mult⟩ : Handout)]).flatMap (·.locs)).Pairwise Less := by
    rw [flatMap_append, flatMap_singleton, pairwise_append]
    refine ⟨hb.increasing, locations_pairwise hlt, ?_⟩
    intro a ha b hb
    obtain ⟨hnum, hoff, -⟩ := mem_locations hlt hb
    exact (hbefore a ha).mono (.inr ⟨hnum, hoff⟩)
  refine ⟨hinc.imp ne_of_less, hinc, ?_, ?_⟩
  · intro h hh l hl
    rcases mem_append.mp hh with hh | hh
    · exact hb.offset_lt h hh l hl
    · obtain rfl := mem_singleton.mp hh
      have := (mem_locations hlt hl).2.2
      show mult > l.offset
      omega
  · intro h hh
    rcases mem_append.mp hh with hh | hh
    · exact hb.num_locs_le h hh
    · obtain rfl := mem_singleton.mp hh
      simpa [DataStoreNG.locations] using hsize

theorem Ordered.write (h : Ordered r (d, size, handed)) (buf : List D) (hfit : buf.length ≤ d.sco_mult_ - d.offset)
    (hr : buf.length ≤ r) :
    Ordered (r - buf.length)
      (d.ready.written buf, size, handed ++ [⟨d.locations buf.length, size, d.sco_mult_⟩]) := by
  have hlt := h.toRoom.mult_lt
  have hle := h.toRoom.offset_le
  have hsize : size = d.sco_mult_ := h.size_eq
  have hbefore : ∀ l ∈ handed.flatMap (·.locs), Before l d.number d.offset := h.before
  have hbuf : d.offset + buf.length < 2 ^ 16 := by omega
  have hnumber : (d.ready.written buf).number = d.number := number_ready
  have hoffset := offset_ready_written buf hbuf
  have hmult : (d.ready.written buf).sco_mult_ = d.sco_mult_ := d.sameLocation_ready.mult
  have hroom := h.toRoom.write hfit hr
  refine ⟨⟨hroom.mult_pos, hroom.mult_lt, hmult ▸ hsize, ?_, ?_, ?_⟩, hroom.offset_le, hroom.room⟩
  · intro ho
    exact absurd (d.ready_open.symm.trans ho) (by simp)
  · intro l hl
    simp only [flatMap_append, flatMap_singleton, mem_append] at hl
    simp only [hnumber, hoffset]
    rcases hl with hl | hl
    · exact (hbefore l hl).mono (.inr ⟨rfl, by omega⟩)
    · obtain ⟨hnum, -, hoff⟩ := mem_locations hbuf hl
      exact .inr ⟨hnum, hoff⟩
  · exact h.bounded.concat hbefore (by omega) hlt (by omega)

theorem Behind.next (h : Behind (d, size, handed)) (hroom : d.number + 1 + r / d.sco_mult_ < 2 ^ 32) :
    Ordered r (d.nextSCO.attempted, size, handed) := by
  have hnext := room_next h.mult_pos h.mult_lt hroom
  have hnumber : d.nextSCO.attempted.number = d.number + 1 :=
    number_attempted.trans (Nat.mod_eq_of_lt (Nat.lt_of_le_of_lt (Nat.le_add_right _ _) hroom))
  have hmult : d.nextSCO.attempted.sco_mult_ = d.sco_mult_ := d.nextSCO.sameLocation_attempted.mult
  refine ⟨⟨hnext.mult_pos, hnext.mult_lt, hmult ▸ h.size_eq, fun _ => offset_attempted, ?_, h.bounded⟩,
    hnext.offset_le, hnext.room⟩
  intro l hl
  simp only [hnumber]
  exact (h.before l hl).mono (.inl (by simp))

theorem Ordered.fail (h : Ordered r (d, size, handed)) (ho : d.current_open = false) :
    Ordered r (d.notCreated, size, handed) :=
  { h with closed := fun _ => h.closed ho }

end

/-! ## The calls of the volume -/

section
variable (sums : Sums D) {r : Nat}

/-- The invariant, of a volume. -/
def Ord (r : Nat) (v : Volume D) : Prop := Ordered r v.core

theorem handOut_triple (buf : List D) (hr : buf.length ≤ r) :
    Triple (fun v => Ord r v ∧ buf.length ≤ v.dataStore_.sco_mult_ - v.dataStore_.offset) (handOut buf)
      (fun _ => Ord (r - buf.length)) (Ord 0) := by
  rintro v ⟨h, hfit⟩
  cases ho : v.dataStore_.current_open with
  | true =>
    rw [handOut_ok buf (.inl ho)]
    exact write h buf hfit hr
  | false =>
    cases hc : v.dataStore_.createSCO_fails.headD false with
    | false =>
      rw [handOut_ok buf (.inr hc)]
      exact write h buf hfit hr
    | true =>
      rw [handOut_fails buf ho hc]
      exact (fail h ho).mono (Nat.zero_le _)

/-- The SCO can be finalised: there is a number for the next one, or the SCO has no clusters. -/
def Finalisable (r : Nat) (v : Volume D) : Prop :=
  Behind v.core ∧ (v.dataStore_.offset ≠ 0 → v.dataStore_.number + 1 + r / v.dataStore_.sco_mult_ < 2 ^ 32) ∧
    (v.dataStore_.offset = 0 → Ord r v)

theorem finalize_triple {E : Volume D → Prop} :
    Triple (Finalisable r) (ds finalizeCurrentSCO : Volume.M D _) (fun _ => Ord r) E := by
  rintro v ⟨h, hroom, hempty⟩
  by_cases h0 : v.dataStore_.offset = 0
  · rw [ds_ok (finalizeCurrentSCO_empty h0)]
    exact hempty h0
  · have hopen : v.dataStore_.current_open = true := by
      by_contra hn
      exact h0 (h.closed (Bool.eq_false_iff.mpr hn))
    rw [ds_ok (finalizeCurrentSCO_data h0 hopen)]
    exact Behind.next h (hroom h0)

theorem rollover_triple : Triple (Ord r) (rollover sums) (fun _ => Ord r) (Ord 0) := by
  refine get_bind fun v h => ?_
  refine ite (fun hcap => ?_) fun _ => pure fun w hw => hw ▸ h
  rw [toRoom h |>.capacity] at hcap
  have hpos : 0 < v.dataStore_.sco_mult_ := h.mult_pos
  have hle : v.dataStore_.offset ≤ v.dataStore_.sco_mult_ := h.offset_le
  have hfull : v.dataStore_.offset = v.dataStore_.sco_mult_ := by omega
  have hroom : v.dataStore_.number + (v.dataStore_.offset + r) / v.dataStore_.sco_mult_ < 2 ^ 32 := h.room
  rw [hfull, Nat.add_div_left _ hpos] at hroom
  have hfin : Triple (· = v) (ds finalizeCurrentSCO : Volume.M D _) (fun _ => Ord r) (Ord 0) := by
    refine finalize_triple.weaken ?_ fun _ _ hq => hq
    rintro w rfl
    refine ⟨h.toBehind, fun _ => ?_, fun h0 => absurd h0 (by omega)⟩
    rw [show w.dataStore_.number + 1 + r / w.dataStore_.sco_mult_ =
      w.dataStore_.number + (r / w.dataStore_.sco_mult_).succ by omega]
    exact hroom
  refine hfin.bind fun cs => ?_
  cases cs with
  | none => exact throw fun w hw => mono hw (Nat.zero_le _)
  | some cs =>
    exact ((core_addSCOCRC sums cs).triple (Ordered r)).weakenError fun w hw => mono hw (Nat.zero_le _)

theorem writeClusters_triple (ca : ClusterAddress) (buf : List D) (hr : buf.length ≤ r) :
    Triple (fun v => Ord r v ∧ buf.length ≤ v.dataStore_.sco_mult_ - v.dataStore_.offset)
      (writeClusters_ sums ca buf) (fun _ => Ord (r - buf.length)) (Ord 0) := by
  refine (handOut_triple buf hr).bind fun locs => ?_
  have hrecord := (core_recordClusters sums ca (locs.zip buf)).triple (Ordered (r - buf.length))
  exact (hrecord.weakenError fun w hw => mono hw (Nat.zero_le _)).bind fun _ => rollover_triple sums

theorem writeChunks_triple (max_entries : Nat) : ∀ (turns : Nat) (ca : ClusterAddress) (buf : List D),
    Triple (Ord buf.length) (writeChunks sums max_entries turns ca buf) (fun _ => Ord 0) (Ord 0) :=
  triple_writeChunks sums (fun _ _ h => mono h (Nat.zero_le _)) (fun _ _ h => (toRoom h).capacity)
    (writeClusters_triple sums) max_entries

theorem scheduleBackendSync_triple : Triple (Finalisable 0) (scheduleBackendSync_ sums) (fun _ => Ord 0) (Ord 0) := by
  intro v hv
  have hsync : scheduleBackendSync_ sums v = (ds finalizeCurrentSCO >>= closeTLogWith sums) v :=
    run_bind (show sync_ sums false v = .ok () v from rfl)
  exact bind finalize_triple (fun cs => (core_closeTLogWith sums cs).triple (Ordered 0)) v hv

theorem setSCOMultiplier_triple (limits : Volume.SCOSizeLimits) (csize : Nat) (enough : Bool) {sco_mult : Nat}
    (hpos : 0 < sco_mult) (hlt : sco_mult < 2 ^ 16) :
    Triple (fun v => Ord 0 v ∧ (v.dataStore_.offset ≠ 0 → v.dataStore_.number + 1 < 2 ^ 32))
      (setSCOMultiplier sums limits csize enough sco_mult) (fun _ => Ord 0) (Ord 0) := by
  refine ite (fun _ => throw fun v h => h.1) fun _ => ?_
  refine ite (fun _ => throw fun v h => h.1) fun _ => ?_
  refine ite (fun _ => throw fun v h => h.1) fun _ => ?_
  rintro v ⟨h, hroom⟩
  have heq := run_bind (f := fun _ => scheduleBackendSync_ sums)
    (applySCOMultiplier_ok (v := v) (show sco_mult ≠ 0 by omega))
  -- the vector and the multiplier have the new size; the offset may be beyond it
  suffices hsync : Finalisable 0 _ from (heq ▸ scheduleBackendSync_triple sums _ hsync :)
  refine ⟨?_, fun h0 => ?_, ?_⟩
  · exact ⟨hpos, hlt, rfl, h.closed, h.before, h.bounded⟩
  · rw [Nat.zero_div]
    exact hroom h0
  · intro h0
    have hnum : v.dataStore_.number < 2 ^ 32 := Nat.lt_of_le_of_lt (Nat.le_add_right _ _) h.room
    refine ⟨⟨hpos, hlt, rfl, h.closed, h.before, h.bounded⟩, ?_, ?_⟩
    · show v.dataStore_.offset ≤ sco_mult
      rw [show v.dataStore_.offset = 0 from h0]
      omega
    · show v.dataStore_.number + (v.dataStore_.offset + 0) / sco_mult < 2 ^ 32
      rw [show v.dataStore_.offset = 0 from h0, Nat.zero_div]
      exact hnum

end

/-! ## Runs -/

/-- The calls. -/
inductive Action (D : Type)
  | write (max_entries : Nat) (ca : ClusterAddress) (buf : List D)
  | finalizeCurrentSCO
  | setSCOMultiplier (enough : Bool) (sco_mult : Nat)

/-- The limits on the size of a SCO, and the cluster size of the volume. -/
structure Config where
  limits : Volume.SCOSizeLimits
  csize : Nat

section
variable (sums : Sums D) (cfg : Config)

/-- What they run. -/
def perform : Action D → Volume.M D Unit
  | .write max_entries ca buf => write_aligned_ sums max_entries ca buf
  | .finalizeCurrentSCO => do let _ ← ds finalizeCurrentSCO
  | .setSCOMultiplier enough sco_mult => setSCOMultiplier sums cfg.limits cfg.csize enough sco_mult

/-- An action, with the outcomes of the calls of `createSCO` in it. An action that throws leaves
behind what it did. -/
def step (v : Volume D) (a : Action D × List Bool) : Volume D :=
  after (perform sums cfg a.1) { v with dataStore_ := { v.dataStore_ with createSCO_fails := a.2 } }

/-- A new volume. -/
def init (sco_mult : Nat) : Volume D :=
  { dataStore_ := { sco_mult_ := sco_mult }, cluster_locations_ := sco_mult, maxTLogEntries_ := 20 * sco_mult }

/-- The multiplier fits into 16 bits, and the SCO numbers do not run out. -/
def Fits (v : Volume D) (a : Action D × List Bool) : Prop :=
  match a.1 with
  | .write _ _ buf => v.dataStore_.number + (v.dataStore_.offset + buf.length) / v.dataStore_.sco_mult_ < 2 ^ 32
  | .finalizeCurrentSCO => v.dataStore_.offset ≠ 0 → v.dataStore_.number + 1 < 2 ^ 32
  | .setSCOMultiplier _ sco_mult =>
    0 < sco_mult ∧ sco_mult < 2 ^ 16 ∧ (v.dataStore_.offset ≠ 0 → v.dataStore_.number + 1 < 2 ^ 32)

theorem init_ord {sco_mult : Nat} (hpos : 0 < sco_mult) (hlt : sco_mult < 2 ^ 16) :
    Ord 0 (init sco_mult : Volume D) := by
  have hnone : Bounded [] := ⟨by simp, by simp, by simp, by simp⟩
  refine ⟨⟨hpos, hlt, rfl, fun _ => rfl, by simp [core, init], hnone⟩, ?_, ?_⟩
  · exact Nat.zero_le _
  · show 1 + (0 + 0) / sco_mult < 2 ^ 32
    rw [Nat.zero_div]
    decide

theorem step_ord (v : Volume D) (a : Action D × List Bool) (h : Ord 0 v) (hf : Fits v a) :
    Ord 0 (step sums cfg v a) := by
  obtain ⟨a, fails⟩ := a
  -- the outcomes of `createSCO` are not part of the invariant
  have hload : Ord 0 { v with dataStore_ := { v.dataStore_ with createSCO_fails := fails } } :=
    ⟨{ h with }, h.offset_le, h.room⟩
  cases a with
  | write max_entries ca buf =>
    refine (writeChunks_triple sums max_entries _ ca buf).after ?_
    exact ⟨hload.toBehind, h.offset_le, hf⟩
  | finalizeCurrentSCO =>
    have htriple : Triple (Finalisable 0) (perform sums cfg .finalizeCurrentSCO) (fun _ => Ord 0) (Ord 0) :=
      finalize_triple.bind fun _ => pure fun _ hw => hw
    refine htriple.after ⟨hload.toBehind, fun h0 => ?_, fun _ => hload⟩
    rw [Nat.zero_div]
    exact hf h0
  | setSCOMultiplier enough sco_mult =>
    obtain ⟨hpos, hlt, hroom⟩ := hf
    exact (setSCOMultiplier_triple sums cfg.limits cfg.csize enough hpos hlt).after ⟨hload, hroom⟩

/-- Every run whose multipliers fit into 16 bits and that does not use up the SCO numbers hands
out increasing locations within the bounds of their SCOs. -/
theorem locations_never_reused {sco_mult : Nat} (hpos : 0 < sco_mult) (hlt : sco_mult < 2 ^ 16)
    (as : List (Action D × List Bool)) (h : Each (step sums cfg) Fits (init sco_mult) as) :
    Bounded (runs (step sums cfg) (init sco_mult) as).handed :=
  (runs_invariant (Ord 0) (step_ord sums cfg) (init_ord hpos hlt) h).bounded

instance (v : Volume D) (a : Action D × List Bool) : Decidable (Fits v a) :=
  match a with
  | (.write _ _ _, _) => inferInstanceAs (Decidable (_ < _))
  | (.finalizeCurrentSCO, _) => inferInstanceAs (Decidable (_ → _))
  | (.setSCOMultiplier _ _, _) => inferInstanceAs (Decidable (_ ∧ _))

end

namespace Sample

/-- Clusters of 512 bytes, and the limits that hold unless the environment sets others. -/
def cfg : Config := { limits := { first_csize := 512, min_sco_size := 2 ^ 20, max_sco_size := 2 ^ 27 }, csize := 512 }

/-- A few writes with a full SCO among them, and a change of the multiplier. -/
def small : List (Action Unit × List Bool) :=
  [(.write 8 0 [(), (), ()], [true]), (.write 8 0 [(), (), ()], []), (.setSCOMultiplier true 2048, []),
    (.write 8 5 [()], [])]

end Sample

theorem locations_never_reused_small :
    Bounded (runs (step .lengths Sample.cfg) (init 2) Sample.small).handed :=
  locations_never_reused .lengths Sample.cfg (by decide) (by decide) Sample.small
    ⟨by decide, by decide, by decide, by decide, trivial⟩

/-! ## A SCO of 65536 clusters -/

/-- The core of a volume after it has written clusters without a rollover. -/
def afterChunk (v : Volume D) (buf : List D) : DataStoreNG D × Nat × List Handout :=
  (v.dataStore_.ready.written buf, v.cluster_locations_,
    v.handed ++ [⟨v.dataStore_.locations buf.length, v.cluster_locations_, v.dataStore_.sco_mult_⟩])

section
variable (sums : Sums D) (ca : ClusterAddress) {v : Volume D} {buf : List D} {max_entries : Nat}

theorem core_writeClusters_ (hcreate : v.dataStore_.createSCO_fails.headD false = false)
    (hcap : (v.dataStore_.ready.written buf).getRemainingSCOCapacity ≠ 0) :
    (after (writeClusters_ sums ca buf) v).core = afterChunk v buf := by
  unfold writeClusters_
  rw [after_bind (handOut_ok buf (.inr hcreate))]
  generalize hw : ({ v with dataStore_ := _, handed := _ } : Volume D) = w
  have hcore : w.core = afterChunk v buf := by
    rw [← hw]; rfl
  rw [← hcore]
  have hkeep := core_recordClusters sums ca ((v.dataStore_.locations buf.length).zip buf)
  cases hr : recordClusters sums ca ((v.dataStore_.locations buf.length).zip buf) w with
  | ok a u =>
    have hu := hkeep.of_ok hr
    rw [after_bind hr]
    have hcap' : u.dataStore_.getRemainingSCOCapacity ≠ 0 := by
      rw [show u.dataStore_ = v.dataStore_.ready.written buf from congrArg Prod.fst (hu.trans hcore)]
      exact hcap
    have hroll : rollover sums u = .ok () u := by
      refine run_get_bind.trans ?_
      rw [if_neg hcap']
      rfl
    rw [after_ok hroll]
    exact hu
  | error e u =>
    rw [after_bind_error hr]
    exact hkeep.of_error hr

theorem core_write_aligned_ (hbuf : buf ≠ []) (hmax : buf.length ≤ max_entries)
    (hchunk : buf.length ≤ v.dataStore_.getRemainingSCOCapacity)
    (hcreate : v.dataStore_.createSCO_fails.headD false = false)
    (hcap : (v.dataStore_.ready.written buf).getRemainingSCOCapacity ≠ 0) :
    (after (write_aligned_ sums max_entries ca buf) v).core = afterChunk v buf := by
  have hpos := length_pos_iff.mpr hbuf
  obtain ⟨turns, hturns⟩ : ∃ turns, 2 * buf.length = turns + 1 + 1 := ⟨2 * buf.length - 2, by omega⟩
  have hmin : min buf.length (min max_entries v.dataStore_.getRemainingSCOCapacity) = buf.length := by omega
  have hfirst : write_aligned_ sums max_entries ca buf v =
      (writeClusters_ sums ca buf >>= fun _ => writeChunks sums max_entries (turns + 1) (ca + buf.length) []) v := by
    unfold write_aligned_
    rw [hturns, writeChunks]
    refine run_get_bind.trans ?_
    rw [if_pos hbuf]
    refine (run_bind (show Volume.verify _ _ v = .ok () v by rw [Volume.verify, if_pos (by omega)]; rfl)).trans ?_
    rw [hmin, take_length, drop_length]
  rw [← core_writeClusters_ sums ca hcreate hcap, after_congr hfirst]
  cases hw : writeClusters_ sums ca buf v with
  | ok a w => rw [after_bind hw, after_ok hw]; rfl
  | error e w => rw [after_bind_error hw, after_error hw]

theorem core_step_write (cfg : Config) (max_entries : Nat) (buf : List D) {d : DataStoreNG D} {size : Nat}
    {handed : List Handout} (hv : v.core = (d, size, handed)) (hbuf : buf ≠ []) (hmax : buf.length ≤ max_entries)
    (hchunk : buf.length ≤ d.getRemainingSCOCapacity)
    (hcap : (({ d with createSCO_fails := [] } : DataStoreNG D).ready.written buf).getRemainingSCOCapacity ≠ 0) :
    (step sums cfg v (.write max_entries ca buf, [])).core =
      (({ d with createSCO_fails := [] } : DataStoreNG D).ready.written buf, size,
        handed ++ [⟨d.locations buf.length, size, d.sco_mult_⟩]) := by
  obtain ⟨rfl, rfl, rfl⟩ : v.dataStore_ = d ∧ v.cluster_locations_ = size ∧ v.handed = handed := by
    simpa [core] using hv
  exact core_write_aligned_ sums ca (v := { v with dataStore_ := { v.dataStore_ with createSCO_fails := [] } })
    hbuf hmax hchunk rfl hcap

end

namespace Sample

/-- The multiplier is changed to 65536, and a buffer and one more cluster are written. -/
def large (buf : List Unit) : List (Action Unit × List Bool) :=
  [(.setSCOMultiplier true 65536, []), (.write 65536 0 buf, []), (.write 1 0 [()], [])]

/-- A buffer of 65536 clusters gets all offsets of a SCO, and the offset after it is 0 again. -/
theorem handed_large (buf : List Unit) (hlen : buf.length = 65536) :
    (runs (step .lengths cfg) (init 2048) (large buf)).handed.map (·.locs.head?) =
      [some ⟨⟨1, 0, 0⟩, 0⟩, some ⟨⟨1, 0, 0⟩, 0⟩] := by
  have h0 : (step (D := Unit) .lengths cfg (init 2048) (.setSCOMultiplier true 65536, [])).core =
    ({ sco_mult_ := 65536 }, 65536, []) := rfl
  have h1 := core_step_write .lengths 0 cfg 65536 buf h0 (by rw [← length_pos_iff, hlen]; decide) (Nat.le_of_eq hlen)
    (by rw [hlen]; decide)
    (by
      show (65536 + 2 ^ 32 - (0 + buf.length) % 2 ^ 16) % 2 ^ 32 ≠ 0
      rw [hlen]
      decide)
  have h2 := core_step_write .lengths 0 cfg 1 [()] h1 (by decide) (by decide) (by
      show 1 ≤ (65536 + 2 ^ 32 - (0 + buf.length) % 2 ^ 16) % 2 ^ 32
      rw [hlen]
      decide)
    (by
      show (65536 + 2 ^ 32 - ((0 + buf.length) % 2 ^ 16 + 1) % 2 ^ 16) % 2 ^ 32 ≠ 0
      rw [hlen]
      decide)
  have hhanded : (runs (step .lengths cfg) (init 2048) (large buf)).handed = _ := congrArg (·.2.2) h2
  rw [hhanded]
  simp only [nil_append, map_append, map_cons, map_nil]
  rw [head?_locations (by rw [hlen]; decide), head?_locations (by decide)]
  show [some _, some (⟨⟨1, 0, 0⟩, (0 + buf.length) % 2 ^ 16 % 2 ^ 16⟩ : ClusterLocation)] = _
  rw [hlen]
  rfl

end Sample

open Sample

/-- The change is accepted; the SCO with its 65536 clusters is not rolled over, and the next
cluster gets the location of the first one. -/
theorem location_handed_out_twice :
    returns (setSCOMultiplier .lengths cfg.limits cfg.csize true 65536)
        (init 2048 : Volume Unit) = true ∧
      (runs (step .lengths cfg) (init 2048) (large (List.replicate 65536 ()))).handed.map (·.locs.head?) =
        [some ⟨⟨1, 0, 0⟩, 0⟩, some ⟨⟨1, 0, 0⟩, 0⟩] :=
  ⟨by decide, handed_large _ length_replicate⟩

end Locations

end VolumeDriver
