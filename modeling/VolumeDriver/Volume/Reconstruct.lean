/-
What a restart from the backend rebuilds from the DTL: the metadata, the TLogs and the SCOs hold
exactly the clusters behind the backend. A replay that meets a location out of order throws.
-/
import VolumeDriver.Dtl.Appending
import VolumeDriver.Volume.BackendRestart

namespace VolumeDriver

open Lib Function List

namespace Reconstruct

open DataStoreNG (Consistent)
open Volume (trimmed)
open TLogRuns (written SameLocations addRollover_same closeTLogWith_same writeClusterMetaData_ok)
open Contiguous (Expected Accepts InOrder Later Run FullOnlyLast entries locs offsets rest)
open DataStoreNG
open Volume Backend Nat

section
variable {D : Type} (sums : Sums D)

/-! ## What was replayed -/

/-- What the metadata get. -/
def binding (e : DtlEntry D) : ClusterAddress × ClusterLocationAndHash := (e.ca, ⟨e.loc, sums.md5 e.cluster⟩)

/-- What the TLog gets. -/
def entryOf (e : DtlEntry D) : Entry := ⟨e.ca, ⟨e.loc, sums.md5 e.cluster⟩⟩

/-- The clusters `es`, and nothing else, were written again behind SCO `n`; `m` is the metadata
that the backend gave. -/
structure Holds (n : Nat) (m : ClusterMap) (es : List (DtlEntry D)) (v : Volume D) :
    Prop where
  metadata : v.metaDataStore_ = replay m (es.map (binding sums))
  tlogs : written v = es.map (entryOf sums)
  scos : ∀ k, k > n → v.dataStore_.scos k = (es.filter fun e => e.loc.sco.number = k).map (·.cluster)

/-- The state between two clusters. -/
structure Rel (n : Nat) (m : ClusterMap) (es : List (DtlEntry D)) (v : Volume D) : Prop
    extends Holds sums n m es v where
  ds : Consistent v.dataStore_
  behind : v.dataStore_.number > n
  below : ∀ e ∈ es, v.dataStore_.number > e.loc.sco.number ∨
    (v.dataStore_.number = e.loc.sco.number ∧ v.dataStore_.offset ≠ 0)

/-- The number of times that `createSCO` is still going to fail. -/
def failures (v : Volume D) : Nat := v.dataStore_.createSCO_fails.count true

/-! ## TLogs -/

section
variable {n : Nat} {m : ClusterMap} {es : List (DtlEntry D)} {v v' : Volume D}

theorem Holds.congr (h : Holds sums n m es v) (hsame : SameLocations v v') : Holds sums n m es v' where
  metadata := hsame.metadata.trans h.metadata
  tlogs := hsame.written.trans h.tlogs
  scos k hk := by rw [hsame.ds, h.scos k hk]

/-! ## One cluster -/

/-- What follows the rollover in `replayClusterFromFailOverCache_`. -/
def replayAt (e : DtlEntry D) (forced_rollover : Option (List D)) : Volume.M D Unit := do
  ds (writeClusterToLocation e.cluster e.loc)
  addRollover sums forced_rollover
  writeClusterMetaData_ e.ca ⟨e.loc, sums.md5 e.cluster⟩

variable {sums}

variable {k : Nat} {e : DtlEntry D}

section
variable (h : Rel sums n m es v)
include h

theorem Rel.scos_ready (hk : k > n) : v.dataStore_.ready.scos k = v.dataStore_.scos k := by
  by_cases hn : k = v.dataStore_.number
  · cases hopen : v.dataStore_.current_open with
    | true => rw [ready, if_pos hopen]
    | false =>
      have h0 := h.ds.closed hopen
      have hnone : (es.filter fun e => e.loc.sco.number = k) = [] := by
        refine filter_eq_nil_iff.mpr fun e he => ?_
        rcases h.below e he with hlt | ⟨-, hne⟩
        · rw [decide_eq_true_eq]
          exact Nat.ne_of_lt (hn ▸ hlt)
        · exact absurd h0 hne
      rw [ready, if_neg (by simp [hopen]), h.scos k hk, hnone, hn]
      exact update_self ..
  · exact scos_ready_of_ne hn

theorem Rel.scos_written (hnum : v.dataStore_.number = e.loc.sco.number) (hk : k > n) :
    (v.dataStore_.ready.written [e.cluster]).scos k =
      ((es ++ [e]).filter fun e => e.loc.sco.number = k).map (·.cluster) := by
  rw [h.ds.ready.scos_written [e.cluster] v.dataStore_.ready_open, number_ready, filter_append,
    map_append, ← h.scos k hk]
  by_cases hn : k = v.dataStore_.number
  · rw [hn, update_self, h.scos_ready h.behind]
    simp [← hnum]
  · rw [update_of_ne hn, h.scos_ready hk]
    have hne : ¬ e.loc.sco.number = k := fun he => hn (he.symm.trans hnum.symm)
    simp [hne]

theorem replayAt_ok (hloc : e.loc = v.dataStore_.currentClusterLoc_) (hca : e.ca ≤ Entry.max_valid_cluster_address)
    (hopen : v.dataStore_.CanWrite) (cs : Option (List D)) :
    ∃ v', replayAt sums e cs v = .ok ⟨⟩ v' ∧ v'.dataStore_ = v.dataStore_.ready.written [e.cluster] ∧
      Holds sums n m (es ++ [e]) v' := by
  have hwrite := h.ds.writeClusterToLocation_ok e.cluster hopen
  rw [← hloc] at hwrite
  obtain ⟨v₁, h1, hsame⟩ := addRollover_same sums { v with dataStore_ := v.dataStore_.ready.written [e.cluster] } cs
  have hnull : (⟨e.loc, sums.md5 e.cluster⟩ : ClusterLocationAndHash).isNull = false := by
    show e.loc.isNull = false
    have hpos : v.dataStore_.currentClusterLoc_.sco.number ≠ 0 := ne_of_gt h.ds.number_pos
    simp [ClusterLocation.isNull, hloc, hpos]
  obtain ⟨v', h2, hd, hm, hw⟩ := writeClusterMetaData_ok e.ca hnull hca v₁
  refine ⟨v', ?_, hd.trans hsame.ds, ?_, ?_, ?_⟩
  · exact (run_bind (ds_ok hwrite)).trans ((run_bind h1).trans h2)
  · rw [hm, hsame.metadata, h.metadata, map_append, replay_append]
    rfl
  · rw [hw, hsame.written, map_append, ← h.tlogs]
    rfl
  · intro k hk
    rw [hd, hsame.ds]
    exact h.scos_written (by rw [hloc]; rfl) hk

theorem replayAt_fails (hloc : e.loc = v.dataStore_.currentClusterLoc_)
    (hopen : v.dataStore_.current_open = false) (hfails : v.dataStore_.createSCO_fails.headD false = true)
    (cs : Option (List D)) :
    replayAt sums e cs v = .error .transientException { v with dataStore_ := v.dataStore_.notCreated } ∧
      Rel sums n m es { v with dataStore_ := v.dataStore_.notCreated } := by
  have hwrite := h.ds.writeClusterToLocation_fails e.cluster hopen hfails
  rw [← hloc] at hwrite
  refine ⟨run_bind_error (ds_error hwrite), { h with }, ?_, h.behind, h.below⟩
  exact h.ds.notCreated (h.ds.closed hopen)

theorem Rel.after_write (hloc : e.loc = v.dataStore_.currentClusterLoc_)
    (hfit : v.dataStore_.offset + 1 < 2 ^ 16) (hd : v'.dataStore_ = v.dataStore_.ready.written [e.cluster])
    (hholds : Holds sums n m (es ++ [e]) v') : Rel sums n m (es ++ [e]) v' := by
  have hnumber : v'.dataStore_.number = v.dataStore_.number := by
    rw [hd, number_written, number_ready]
  have hoffset : v'.dataStore_.offset ≠ 0 := by
    rw [hd, offset_ready_written [e.cluster] hfit]
    exact succ_ne_zero _
  refine ⟨hholds, hd ▸ h.ds.ready_written [e.cluster] hfit, hnumber ▸ h.behind, ?_⟩
  intro x hx
  rw [hnumber]
  rcases mem_append.mp hx with hx | hx
  · exact (h.below x hx).imp_right fun hx => ⟨hx.1, hoffset⟩
  · obtain rfl := mem_singleton.mp hx
    exact .inr ⟨by rw [hloc]; rfl, hoffset⟩

theorem Rel.filter_later (hk : k > v.dataStore_.number) : (es.filter fun e => e.loc.sco.number = k) = [] := by
  refine filter_eq_nil_iff.mpr fun e he => ?_
  rw [decide_eq_true_eq]
  rcases h.below e he with hlt | ⟨heq, -⟩
  · exact Nat.ne_of_lt (Nat.lt_trans hlt hk)
  · exact Nat.ne_of_lt (heq ▸ hk)

theorem Rel.scos_next (hk : k > n) :
    v.dataStore_.nextSCO.attempted.scos k = (es.filter fun e => e.loc.sco.number = k).map (·.cluster) := by
  unfold attempted
  split
  · exact h.scos k hk
  · by_cases hk' : k = v.dataStore_.nextSCO.number
    · have hlater : k > v.dataStore_.number := by
        -- after the last number comes 0, which is not behind the backend
        have hlt := h.ds.number_lt
        have hmod : v.dataStore_.nextSCO.number = (v.dataStore_.number + 1) % 2 ^ 32 := rfl
        omega
      rw [h.filter_later hlater, hk']
      exact update_self ..
    · exact (update_of_ne hk' ..).trans (h.scos k hk)

theorem Rel.next (hn : v.dataStore_.number + 1 < 2 ^ 32) :
    Rel sums n m es { v with dataStore_ := v.dataStore_.nextSCO.attempted } := by
  have hnumber : v.dataStore_.nextSCO.attempted.number = v.dataStore_.number + 1 :=
    number_attempted.trans (mod_eq_of_lt hn)
  refine ⟨⟨h.metadata, h.tlogs, fun k hk => h.scos_next hk⟩, (h.ds.nextSCO hn).attempted rfl, ?_, fun e he => .inl ?_⟩
  · show v.dataStore_.nextSCO.attempted.number > n
    have := h.behind
    omega
  · show v.dataStore_.nextSCO.attempted.number > _
    rw [hnumber]
    rcases h.below e he with hlt | ⟨heq, -⟩
    · exact lt_succ_of_lt hlt
    · exact heq ▸ lt_succ_self _

end

theorem failures_attempted (d : DataStoreNG D) :
    d.attempted.createSCO_fails.count true ≤ d.createSCO_fails.count true := by
  unfold attempted
  split <;> exact (tail_sublist _).count_le true

theorem failures_ready (d : DataStoreNG D) : d.ready.createSCO_fails.count true ≤ d.createSCO_fails.count true := by
  unfold ready
  split
  · exact le_refl _
  · exact (tail_sublist _).count_le true

theorem failures_tail {fails : List Bool} (h : fails.headD false = true) :
    fails.tail.count true < fails.count true := by
  cases fails with
  | nil => simp at h
  | cons b fails =>
    obtain rfl : b = true := h
    simp

theorem forcedRollover_expected (h : Rel sums n m es v) (hlt : 2 ^ 32 > e.loc.sco.number)
    (hexp : Expected v.dataStore_.number v.dataStore_.offset e.loc) :
    ∃ cs v₁, replayClusterFromFailOverCache_ sums e v = replayAt sums e cs v₁ ∧ Rel sums n m es v₁ ∧
      e.loc = v₁.dataStore_.currentClusterLoc_ ∧ failures v₁ ≤ failures v := by
  rcases hexp with hloc | ⟨h0, hloc⟩
  · have hcur : e.loc = v.dataStore_.currentClusterLoc_ := by
      rw [hloc, ← h.ds.sco]
      rfl
    refine ⟨none, v, run_bind (show forcedRollover e.loc v = .ok none v from ?_), h, hcur, le_refl _⟩
    unfold forcedRollover
    split
    · next h0 =>
      rw [hcur] at h0
      exact ds_ok (finalizeCurrentSCO_empty h0)
    · rfl
  · have hn : v.dataStore_.number + 1 < 2 ^ 32 := by
      rw [hloc] at hlt
      exact hlt
    have hroll : forcedRollover e.loc v =
        .ok (some v.dataStore_.currentCheckSum_) { v with dataStore_ := v.dataStore_.nextSCO.attempted } := by
      unfold forcedRollover
      rw [if_pos (by rw [hloc])]
      exact ds_ok (finalizeCurrentSCO_data h0 (h.ds.open_of_offset h0))
    refine ⟨_, _, run_bind hroll, h.next hn, ?_, failures_attempted _⟩
    show e.loc = v.dataStore_.nextSCO.attempted.currentClusterLoc_
    rw [hloc, v.dataStore_.nextSCO.sameLocation_attempted.loc, nextSCO, mod_eq_of_lt hn, h.ds.sco]

/-- What a cluster leaves behind that was replayed. -/
structure Replayed (sums : Sums D) (n : Nat) (m : ClusterMap) (es : List (DtlEntry D)) (e : DtlEntry D)
    (v v' : Volume D) : Prop where
  holds : Holds sums n m (es ++ [e]) v'
  loc : v'.dataStore_.currentClusterLoc_ = ⟨e.loc.sco, (e.loc.offset + 1) % offsets⟩
  rel : e.loc.offset + 1 < 2 ^ 16 → Rel sums n m (es ++ [e]) v'
  failures : failures v' ≤ failures v

theorem replayEntry_expected (hlt : 2 ^ 32 > e.loc.sco.number) (hca : e.ca ≤ Entry.max_valid_cluster_address) :
    ∀ (attempts : Nat) {v : Volume D}, Rel sums n m es v →
    Expected v.dataStore_.number v.dataStore_.offset e.loc → failures v < attempts →
    ∃ v', replayEntry sums e attempts v = .ok ⟨⟩ v' ∧ Replayed sums n m es e v v'
  | 0, _, _, _, hf => absurd hf (not_lt_zero _)
  | attempts + 1, v, h, hexp, hf => by
    obtain ⟨cs, v₁, heq, h₁, hcur, hle⟩ := forcedRollover_expected h hlt hexp
    by_cases hopen : v₁.dataStore_.CanWrite
    · obtain ⟨v', hrun, hd, hholds⟩ := replayAt_ok h₁ hcur hca hopen cs
      refine ⟨v', run_tryCatch (heq.trans hrun), hholds, ?_, fun hfit => ?_, ?_⟩
      · rw [hd, hcur]
        show ClusterLocation.mk v₁.dataStore_.ready.currentClusterLoc_.sco
          ((v₁.dataStore_.ready.currentClusterLoc_.offset + 1) % 2 ^ 16) = _
        rw [v₁.dataStore_.sameLocation_ready.loc]
        rfl
      · refine h₁.after_write hcur ?_ hd hholds
        rw [hcur] at hfit
        exact hfit
      · refine le_trans ?_ hle
        unfold Reconstruct.failures
        rw [hd]
        exact failures_ready _
    · obtain ⟨hopen, hfails⟩ := not_or.mp hopen
      have hfails : v₁.dataStore_.createSCO_fails.headD false = true := by simpa using hfails
      obtain ⟨hrun, h₂⟩ := replayAt_fails h₁ hcur (by simpa using hopen) hfails cs
      have hless : failures { v₁ with dataStore_ := v₁.dataStore_.notCreated } < failures v₁ := failures_tail hfails
      -- the location is the current one now
      have hexp₂ : Expected v₁.dataStore_.number v₁.dataStore_.offset e.loc := by
        refine .inl ?_
        rw [hcur, ← h₁.ds.sco]
        rfl
      obtain ⟨v', hrest, hdone⟩ := replayEntry_expected hlt hca attempts h₂ hexp₂ (by omega)
      refine ⟨v', ?_, hdone.holds, hdone.loc, hdone.rel, by have := hdone.failures; omega⟩
      refine (run_tryCatch_error (heq.trans hrun)).trans ?_
      rw [if_pos ⟨rfl, by omega⟩]
      exact hrest

theorem replayEntry_unexpected {v : Volume D} (hopen : v.dataStore_.offset ≠ 0 → v.dataStore_.current_open = true)
    (hsco : v.dataStore_.currentClusterLoc_.sco = ⟨v.dataStore_.number, 0, 0⟩) (hpos : e.loc.sco.number ≠ 0)
    (hlt : v.dataStore_.number < 2 ^ 32) (hno : ¬ Expected v.dataStore_.number v.dataStore_.offset e.loc)
    (attempts : Nat) : ∃ x v', replayEntry sums e (attempts + 1) v = .error x v' := by
  suffices hfirst : ∃ x v', replayClusterFromFailOverCache_ sums e v = .error (.exn x) v' by
    obtain ⟨x, v', hx⟩ := hfirst
    refine ⟨.exn x, v', (run_tryCatch_error hx).trans ?_⟩
    rw [if_neg (by simp)]
    rfl
  have hcur : e.loc ≠ v.dataStore_.currentClusterLoc_ := by
    intro hcur
    refine hno (.inl ?_)
    rw [hcur, ← hsco]
    rfl
  have hrefused : ∀ (cs : Option (List D)) (v₁ : Volume D), e.loc ≠ v₁.dataStore_.currentClusterLoc_ →
      forcedRollover e.loc v = .ok cs v₁ →
      ∃ x v', replayClusterFromFailOverCache_ sums e v = .error (.exn x) v' := by
    intro cs v₁ hne hroll
    obtain ⟨x, hx⟩ := writeClusterToLocation_unexpected e.cluster hne
    exact ⟨x, _, (run_bind hroll).trans (run_bind_error (ds_error hx))⟩
  by_cases hfirst : e.loc.offset = 0
  · by_cases h0 : v.dataStore_.offset = 0
    · refine hrefused none v hcur ?_
      rw [forcedRollover, if_pos hfirst]
      exact ds_ok (finalizeCurrentSCO_empty h0)
    · refine hrefused (some v.dataStore_.currentCheckSum_) { v with dataStore_ := v.dataStore_.nextSCO.attempted } ?_ ?_
      · intro hnext
        have hnext : e.loc = v.dataStore_.nextSCO.currentClusterLoc_ :=
          hnext.trans v.dataStore_.nextSCO.sameLocation_attempted.loc
        rw [nextSCO] at hnext
        rw [hsco] at hnext
        -- the numbers do not start over, as 0 is no number
        have hmod : (v.dataStore_.number + 1) % 2 ^ 32 = v.dataStore_.number + 1 := by
          rw [hnext] at hpos
          have hpos : (v.dataStore_.number + 1) % 2 ^ 32 ≠ 0 := hpos
          omega
        rw [hmod] at hnext
        exact hno (.inr ⟨h0, hnext⟩)
      · rw [forcedRollover, if_pos hfirst]
        exact ds_ok (finalizeCurrentSCO_data h0 (hopen h0))
  · refine hrefused none v hcur ?_
    rw [forcedRollover, if_neg hfirst]
    rfl

/-! ## The end of a replay -/

/-- Everything was replayed; the last SCO may have taken up all offsets. -/
def Done (sums : Sums D) (n : Nat) (m : ClusterMap) (es : List (DtlEntry D)) (v : Volume D) :
    Prop :=
  Rel sums n m es v ∨ Holds sums n m es v ∧ v.dataStore_.offset = 0

theorem finishReplay_ok (h : Done sums n m es v) : ∃ v', finishReplay sums v = .ok ⟨⟩ v' ∧ Holds sums n m es v' := by
  have hfinalize : ∃ cs v₁, ds finalizeCurrentSCO v = .ok cs v₁ ∧ Holds sums n m es v₁ := by
    by_cases h0 : v.dataStore_.offset = 0
    · refine ⟨none, v, ds_ok (finalizeCurrentSCO_empty h0), ?_⟩
      rcases h with h | ⟨h, -⟩
      · exact h.toHolds
      · exact h
    · rcases h with h | ⟨-, h⟩
      · refine ⟨_, _, ds_ok (finalizeCurrentSCO_data h0 (h.ds.open_of_offset h0)), ?_⟩
        exact ⟨h.metadata, h.tlogs, fun k hk => h.scos_next hk⟩
      · exact absurd h h0
  obtain ⟨cs, v₁, heq, hholds⟩ := hfinalize
  unfold finishReplay
  rw [run_bind heq, run_get_bind]
  split
  · obtain ⟨v', hclose, hsame⟩ := closeTLogWith_same sums v₁ cs
    exact ⟨v', hclose, hholds.congr sums hsame⟩
  · exact ⟨v₁, rfl, hholds⟩

end

end

/-! ## The entries of a DTL -/

section
variable {sums : Sums Bytes} {g : Geometry} {n : Nat} {m : ClusterMap}

/-- An entry that stands for the write of a whole cluster to the volume. -/
structure ClusterWrite (g : Geometry) (e : CacheEntry) : Prop where
  size : e.data.length = g.clusterSize
  aligned : g.addr e % g.clusterSize = 0
  ca_le : g.addr e / g.clusterSize ≤ Entry.max_valid_cluster_address

theorem replayCacheEntry_eq {e : CacheEntry} (h : ClusterWrite g e) (v : Volume Bytes) :
    replayCacheEntry sums g e v = replayEntry sums (g.dtlEntry e) 256 v := by
  have hverify : (Volume.verify (e.data.length = g.clusterSize) "size == static_cast<size_t>(clusterSize_)" :
      Volume.M Bytes Unit) v = .ok ⟨⟩ v := by
    rw [Volume.verify, if_pos h.size]
    rfl
  have halign : validateIOAlignment g (g.addr e) e.data.length v = .ok ⟨⟩ v := by
    unfold validateIOAlignment
    rw [h.size, if_neg (not_not.mpr (mod_self _)), if_neg (not_not.mpr h.aligned)]
    rfl
  exact (run_bind hverify).trans (run_bind halign)

/-- What is known of the entries of a DTL, one by one. -/
structure Sane (g : Geometry) (e : CacheEntry) : Prop extends ClusterWrite g e where
  number_pos : e.cli_.sco.number ≠ 0
  number_lt : 2 ^ 32 > e.cli_.sco.number
  offset_lt : offsets > e.cli_.offset

theorem replayEntries_refused {x : CacheEntry} {v : Volume Bytes} (hx : Sane g x)
    (hopen : v.dataStore_.offset ≠ 0 → v.dataStore_.current_open = true)
    (hsco : v.dataStore_.currentClusterLoc_.sco = ⟨v.dataStore_.number, 0, 0⟩) (hlt : v.dataStore_.number < 2 ^ 32)
    (hno : ¬ Expected v.dataStore_.number v.dataStore_.offset x.cli_) (ces : List CacheEntry) :
    ∃ err v', (x :: ces).forM (replayCacheEntry sums g) v = .error err v' := by
  have hpos : (g.dtlEntry x).loc.sco.number ≠ 0 := hx.number_pos
  obtain ⟨err, v', hrun⟩ := replayEntry_unexpected hopen hsco hpos hlt hno 255
  exact ⟨err, v', run_bind_error ((replayCacheEntry_eq hx.toClusterWrite v).trans hrun)⟩

theorem not_expected_full {e x : CacheEntry} (hx : Sane g x) (hlater : Later e x)
    (hlast : e.cli_.offset + 1 = offsets) : ¬ Expected e.cli_.sco.number 0 x.cli_ := by
  rintro (hl | ⟨h0, -⟩)
  · rcases hlater with hnum | ⟨-, hoff⟩
    · rw [hl] at hnum
      exact lt_irrefl _ hnum
    · have hlt := hx.offset_lt
      rw [← hlast] at hlt
      exact not_lt.mpr (le_of_lt_succ hlt) hoff
  · exact h0 rfl

theorem replayEntries_spec : ∀ {ces : List CacheEntry} {es : List (DtlEntry Bytes)} {v : Volume Bytes},
    Rel sums n m es v → failures v < 256 → (∀ e ∈ ces, Sane g e) → ces.Pairwise Later →
    (Accepts v.dataStore_.number v.dataStore_.offset (ces.map (·.cli_)) →
      ∃ v', ces.forM (replayCacheEntry sums g) v = .ok ⟨⟩ v' ∧ Done sums n m (es ++ ces.map g.dtlEntry) v') ∧
    (¬ Accepts v.dataStore_.number v.dataStore_.offset (ces.map (·.cli_)) →
      ∃ x v', ces.forM (replayCacheEntry sums g) v = .error x v')
  | [], es, v, h, _, _, _ => by
    refine ⟨fun _ => ⟨v, rfl, .inl ?_⟩, fun hno => absurd trivial hno⟩
    rwa [map_nil, append_nil]
  | e :: ces, es, v, h, hf, hsane, hlater => by
    obtain ⟨hfirst, hlater⟩ := pairwise_cons.mp hlater
    have he := hsane e (mem_cons_self ..)
    have hrest : ∀ x ∈ ces, Sane g x := fun x hx => hsane x (mem_cons_of_mem e hx)
    rw [map_cons, Accepts]
    by_cases hexp : Expected v.dataStore_.number v.dataStore_.offset e.cli_
    · obtain ⟨v₁, hrun, hdone⟩ := replayEntry_expected (e := g.dtlEntry e) he.number_lt he.ca_le 256 h hexp hf
      have hnum : v₁.dataStore_.number = e.cli_.sco.number := congrArg (·.sco.number) hdone.loc
      have hoff : v₁.dataStore_.offset = (e.cli_.offset + 1) % offsets := congrArg (·.offset) hdone.loc
      have hcons : (e :: ces).forM (replayCacheEntry sums g) v = ces.forM (replayCacheEntry sums g) v₁ :=
        run_bind ((replayCacheEntry_eq he.toClusterWrite v).trans hrun)
      simp only [hcons, hexp, true_and]
      by_cases hfit : e.cli_.offset + 1 < 2 ^ 16
      · have hind := replayEntries_spec (hdone.rel hfit) (Nat.lt_of_le_of_lt hdone.failures hf) hrest hlater
        rw [hnum, hoff, append_assoc] at hind
        exact hind
      · have hlast : e.cli_.offset + 1 = offsets := Nat.le_antisymm he.offset_lt (Nat.le_of_not_lt hfit)
        have h0 : v₁.dataStore_.offset = 0 := by rw [hoff, hlast, Nat.mod_self]
        rw [hlast, Nat.mod_self]
        cases ces with
        | nil => exact ⟨fun _ => ⟨v₁, rfl, .inr ⟨hdone.holds, h0⟩⟩, fun hno => absurd trivial hno⟩
        | cons x ces =>
          have hx := hrest x (mem_cons_self ..)
          have hno := not_expected_full hx (hfirst x (mem_cons_self ..)) hlast
          refine ⟨fun hacc => absurd hacc.1 hno, fun _ => ?_⟩
          have hsco : v₁.dataStore_.currentClusterLoc_.sco = ⟨v₁.dataStore_.number, 0, 0⟩ := by
            rw [hdone.loc, hnum]
            rcases hexp with hl | ⟨-, hl⟩
            · show e.cli_.sco = _
              rw [hl]
            · show e.cli_.sco = _
              rw [hl]
          refine replayEntries_refused hx (fun hne => absurd h0 hne) hsco ?_ ?_ ces
          · rw [hnum]
            exact he.number_lt
          · rw [hnum, h0]
            exact hno
    · refine ⟨fun hacc => absurd hacc.1 hexp, fun _ => ?_⟩
      exact replayEntries_refused he h.ds.open_of_offset h.ds.sco h.ds.number_lt hexp ces

/-! ## The whole DTL -/

/-- The contents of a DTL: writes of whole clusters, in the order in which they were made. -/
structure Dtl (g : Geometry) (b : Backend) : Prop where
  inOrder : InOrder b.scos
  writes : ∀ e ∈ entries b.scos, ClusterWrite g e

theorem sane_of_inOrder {scos : Contiguous.SCOs} (h : InOrder scos) (hwrites : ∀ e ∈ entries scos, ClusterWrite g e) :
    ∀ e ∈ entries scos, Sane g e := by
  intro e he
  obtain ⟨p, hp, hep⟩ := mem_flatMap.mp he
  have hsco := h.sco p hp e hep
  refine ⟨hwrites e he, ?_, ?_, h.offset_lt p hp e hep⟩
  · rw [hsco]
    exact h.number_pos p hp
  · rw [hsco]
    exact h.number_lt p hp

theorem forM_entries (f : CacheEntry → Volume.M Bytes Unit) : ∀ scos : Contiguous.SCOs,
    (scos.forM fun p => get_entries f p.2) = (entries scos).forM f
  | [] => rfl
  | p :: ps => by
    show (p.2.forM f >>= fun _ => ps.forM fun p => get_entries f p.2) = (p.2 ++ entries ps).forM f
    rw [forM_entries f ps]
    exact (forM_append ..).symm

variable {b : Backend}

theorem replayFOC_spec {v : Volume Bytes} (hb : Dtl g b) (h : Rel sums n m [] v) (hf : failures v < 256)
    (h0 : v.dataStore_.offset = 0) :
    (Accepts v.dataStore_.number 0 (locs b.scos) →
      ∃ v', replayFOC_ sums g b v = .ok ⟨⟩ v' ∧ Holds sums n m ((entries b.scos).map g.dtlEntry) v') ∧
    (¬ Accepts v.dataStore_.number 0 (locs b.scos) → ∃ x v', replayFOC_ sums g b v = .error x v') := by
  have hspec := replayEntries_spec h hf (sane_of_inOrder hb.inOrder hb.writes) hb.inOrder.later
  rw [Contiguous.map_cli_entries, h0, nil_append] at hspec
  have hget : b.getEntries (pure ()) (replayCacheEntry sums g) v =
      (entries b.scos).forM (replayCacheEntry sums g) v := by
    rw [← forM_entries]
    rfl
  constructor
  · intro hacc
    obtain ⟨v₁, hrun, hdone⟩ := hspec.1 hacc
    obtain ⟨v', hfinish, hholds⟩ := finishReplay_ok hdone
    exact ⟨v', run_tryCatch ((run_bind (hget.trans hrun)).trans hfinish), hholds⟩
  · intro hno
    obtain ⟨x, v₁, hrun⟩ := hspec.2 hno
    refine ⟨.exn (.ioException "Problem with failover cache "), v₁, ?_⟩
    exact run_tryCatch_error (run_bind_error (hget.trans hrun))

/-! ## The restart -/

/-- The oldest SCO of the cache, 0 if there is none. -/
def old (b : Backend) : Nat := b.getSCORange.1.number

/-- The youngest SCO of the cache, 0 if there is none. -/
def young (b : Backend) : Nat := b.getSCORange.2.number

theorem scos_trimmed (h : InOrder b.scos) : (trimmed n b).scos = rest n b.scos := by
  unfold trimmed
  by_cases hn : n = 0
  · -- every number is larger than 0
    rw [if_neg (not_not.mpr hn), hn]
    cases hb : b.scos with
    | nil => rfl
    | cons p ps =>
      have hpos := h.number_pos p (hb ▸ mem_cons_self ..)
      rw [rest, dropWhile_cons, if_neg (by simpa using hpos)]
  · obtain ⟨b', hrun, hscos, -⟩ := removeUpTo_ok b n
    rw [if_pos hn, after_ok hrun, hscos]

theorem dtl_trimmed (hb : Dtl g b) : Dtl g (trimmed n b) := by
  refine ⟨?_, ?_⟩
  · rw [scos_trimmed hb.inOrder]
    exact hb.inOrder.rest
  · rw [scos_trimmed hb.inOrder, Contiguous.entries_rest hb.inOrder]
    exact fun e he => hb.writes e (mem_filter.mp he).1

/-- The DTL adjoins the backend and goes beyond it. -/
def Usable (n : Nat) (b : Backend) : Prop := old b ≤ n + 1 ∧ n < young b

theorem young_lt (h : InOrder b.scos) : young b < 2 ^ 32 := by
  show (b.scosdeque_.getLast?.getD ⟨0, 0, 0⟩).number < 2 ^ 32
  unfold scosdeque_
  rw [List.getLast?_map]
  cases hl : b.scos.getLast? with
  | none => exact Nat.two_pow_pos 32
  | some p => exact h.number_lt p (mem_of_getLast? hl)

theorem asBool_oldest (h : InOrder b.scos) : b.getSCORange.1.asBool = false ↔ b.scos = [] := by
  cases hscos : b.scos with
  | nil => simp [getSCORange, scosdeque_, hscos, SCO.asBool]
  | cons p ps =>
    have hpos := h.number_pos p (hscos ▸ mem_cons_self ..)
    simp [getSCORange, scosdeque_, hscos, SCO.asBool, hpos]

section
variable {b : Backend} {v : Volume Bytes}

theorem replayDtl_usable (hb : Dtl g b) (h : Usable n b) :
    replayDtl sums g n b v = (replayFOC_ sums g (trimmed n b) >>= fun _ =>
        pure { trimmed n b with first_command_must_be_getEntries := false }) v := by
  obtain ⟨hold, hyoung⟩ := h
  have hlt : n + 1 < 2 ^ 32 := lt_of_le_of_lt hyoung (young_lt hb.inOrder)
  have hbool : ¬ b.getSCORange.1.asBool = false := by
    rw [asBool_oldest hb.inOrder]
    intro hnil
    simp [young, getSCORange, scosdeque_, hnil] at hyoung
  have hle : b.getSCORange.1.number ≤ (n + 1) % 2 ^ 32 := by
    rw [mod_eq_of_lt hlt]
    exact hold
  unfold replayDtl
  rw [if_neg hbool, if_pos ⟨hle, hyoung⟩]

theorem replayDtl_unusable (hb : Dtl g b) (h : ¬ Usable n b) :
    ∃ b', replayDtl sums g n b v = .ok b' v ∧ b'.entries = [] := by
  unfold replayDtl
  by_cases hbool : b.getSCORange.1.asBool = false
  · have hnil := (asBool_oldest hb.inOrder).mp hbool
    refine ⟨b, ?_, by rw [Backend.entries, hnil]; rfl⟩
    rw [if_pos hbool]
    refine (run_bind (show _ = EStateM.Result.ok ⟨⟩ v from ?_)).trans rfl
    rw [Volume.verify, if_pos (by simp [Backend.getSCORange, Backend.scosdeque_, hnil, SCO.asBool])]
    rfl
  · rw [if_neg hbool, if_neg]
    · exact ⟨b.clear, rfl, rfl⟩
    · rintro ⟨hold, hyoung⟩
      refine h ⟨?_, hyoung⟩
      have hle : (n + 1) % 2 ^ 32 ≤ n + 1 := mod_le ..
      exact le_trans hold hle

/-- A volume object that is about to be restarted. -/
structure NewVolume (v : Volume Bytes) : Prop where
  closed : v.dataStore_.current_open = false
  tlogs : written v = []

theorem dataStore_backend_restart {d : DataStoreNG Bytes} (hclosed : d.current_open = false) :
    backend_restart n d = .ok ⟨⟩ (d.behindBackend n).attempted := by
  refine run_get_bind.trans ?_
  refine (run_bind (verify_ok hclosed)).trans ?_
  have hset : (set (d.behindBackend n) : DataStoreNG.M Bytes _) d = .ok ⟨⟩ (d.behindBackend n) := rfl
  refine (run_bind hset).trans ?_
  by_cases hf : (d.behindBackend n).createSCO_fails.headD false = true
  · rw [run_tryCatch_error (updateCurrentSCO_fails hf), attempted, if_pos hf]
    rfl
  · rw [run_tryCatch (updateCurrentSCO_ok (by simpa using hf)), attempted, if_neg hf]

/-- The volume before the DTL is looked at. -/
def restarted (n : Nat) (m : ClusterMap) (v : Volume Bytes) : Volume Bytes :=
  { v with dataStore_ := (v.dataStore_.behindBackend n).attempted, metaDataStore_ := m }

theorem backend_restart_eq {nsidmap : NSIDMap} {ctl : CloneTLogs} (hv : NewVolume v)
    (hm : replayClones nsidmap none v.metaDataStore_ ctl = .ok m) :
    Volume.backend_restart sums g nsidmap ctl n b v =
      replayDtl sums g n b.setFirstCommandMustBeGetEntries (restarted n m v) := by
  refine (run_bind (ds_ok (dataStore_backend_restart hv.closed))).trans ?_
  refine run_get_bind.trans ?_
  show (make (replayClones nsidmap none v.metaDataStore_ ctl) >>= _) _ = _
  rw [hm]
  rfl

theorem restarted_rel (hv : NewVolume v) (hn : n + 1 < 2 ^ 32) : Rel sums n m [] (restarted n m v) := by
  have hnumber : (v.dataStore_.behindBackend n).attempted.number = n + 1 :=
    number_attempted.trans (mod_eq_of_lt hn)
  have hds : Consistent (v.dataStore_.behindBackend n) := by
    have hclosed : ¬ v.dataStore_.current_open = true := by simp [hv.closed]
    refine ⟨rfl, ?_, mod_lt _ (by decide), ?_, fun _ => rfl, fun ho => absurd ho hclosed, fun ho => absurd ho hclosed⟩
    · show 0 < (n + 1) % 2 ^ 32
      omega
    · show 0 < 2 ^ 16
      decide
  refine ⟨⟨rfl, hv.tlogs, ?_⟩, hds.attempted rfl, ?_, by simp⟩
  · intro k hk
    show (v.dataStore_.behindBackend n).attempted.scos k = []
    have hbehind : (v.dataStore_.behindBackend n).scos k = [] := if_pos hk
    unfold attempted
    split
    · exact hbehind
    · by_cases hk' : k = (v.dataStore_.behindBackend n).number
      · rw [hk']
        exact update_self ..
      · exact (update_of_ne hk' ..).trans hbehind
  · show (v.dataStore_.behindBackend n).attempted.number > n
    omega

/-- What can be replayed of a DTL that adjoins the backend: the SCOs behind the backend have no
gaps, and only the last of them is full. -/
def Replayable (n : Nat) (b : Backend) : Prop := Run (n + 1) (rest n b.scos) ∧ FullOnlyLast (rest n b.scos)

theorem replayDtl_spec (hb : Dtl g b) (hv : NewVolume v) (hf : failures v < 256) (husable : Usable n b) :
    (Replayable n b → ∃ b' v', replayDtl sums g n b (restarted n m v) = .ok b' v' ∧
      Holds sums n m ((entries (rest n b.scos)).map g.dtlEntry) v') ∧
    (¬ Replayable n b → ∃ x v', replayDtl sums g n b (restarted n m v) = .error x v') := by
  have hn : n + 1 < 2 ^ 32 := lt_of_le_of_lt husable.2 (young_lt hb.inOrder)
  have hfail : failures (restarted n m v) < 256 := lt_of_le_of_lt (failures_attempted _) hf
  have hrel : Rel sums n m [] (restarted n m v) := restarted_rel hv hn
  have htrim : Dtl g (trimmed n b) := dtl_trimmed hb
  have hspec := replayFOC_spec htrim hrel hfail offset_attempted
  have hnumber : (restarted n m v).dataStore_.number = n + 1 :=
    number_attempted.trans (mod_eq_of_lt hn)
  rw [scos_trimmed hb.inOrder, hnumber, Contiguous.accepts_iff hb.inOrder.rest] at hspec
  rw [replayDtl_usable hb husable]
  constructor
  · intro hrep
    obtain ⟨v', hrun, hholds⟩ := hspec.1 hrep
    exact ⟨_, v', (run_bind hrun).trans rfl, hholds⟩
  · intro hrep
    obtain ⟨x, v', hrun⟩ := hspec.2 hrep
    exact ⟨x, v', run_bind_error hrun⟩

end

/-! ## What is asked of a restart -/

section
variable (sums : Sums Bytes) (g : Geometry) (nsidmap : NSIDMap) (ctl : CloneTLogs) (n : Nat) (b : Backend)
  (v : Volume Bytes) (m : ClusterMap)

/-- There is no gap in the DTL itself. -/
def Gapless (b : Backend) : Prop := Run (old b) b.scos

/-- The writes in the DTL that the backend does not have. -/
def behindBackend : List (DtlEntry Bytes) := (b.entries.filter fun e => e.cli_.sco.number > n).map g.dtlEntry

/-- The restart returns, with the metadata of the backend and of the writes behind it, with these
writes in the TLogs, and with the SCOs as they were. -/
def Reconstructs : Prop :=
  ∃ b' v', Volume.backend_restart sums g nsidmap ctl n b v = .ok b' v' ∧
    v'.metaDataStore_ = replay m ((behindBackend g n b).map (binding sums)) ∧
    written v' = (behindBackend g n b).map (entryOf sums) ∧
    ∀ p ∈ b.scos, p.1.number > n → v'.dataStore_.scos p.1.number = p.2.map (·.data)

/-- The DTL is given up as a whole, or the restart throws. -/
def GivesUp : Prop :=
  ∀ b' v', Volume.backend_restart sums g nsidmap ctl n b v = .ok b' v' →
    b'.entries = [] ∧ v'.metaDataStore_ = m ∧ written v' = []

/-- `m` is the metadata that the TLogs on the backend give. -/
structure Correct : Prop where
  gapless : Gapless b → Usable n b → Reconstructs sums g nsidmap ctl n b v m
  gap : ¬ Gapless b ∨ n + 1 < old b → GivesUp sums g nsidmap ctl n b v m

variable {sums g nsidmap ctl n b v m}

theorem reconstructs_of_holds (hb : Dtl g b) {b' : Backend} {v' : Volume Bytes}
    (hrun : Volume.backend_restart sums g nsidmap ctl n b v = .ok b' v')
    (h : Holds sums n m ((entries (rest n b.scos)).map g.dtlEntry) v') : Reconstructs sums g nsidmap ctl n b v m := by
  have hbehind : behindBackend g n b = (entries (rest n b.scos)).map g.dtlEntry := by
    rw [Contiguous.entries_rest hb.inOrder]
    rfl
  refine ⟨b', v', hrun, hbehind ▸ h.metadata, hbehind ▸ h.tlogs, ?_⟩
  intro p hp hgt
  have hfilter := Contiguous.filter_entries hb.inOrder.rest ((Contiguous.mem_rest hb.inOrder).mpr ⟨hp, hgt⟩)
  rw [h.scos _ hgt, filter_map, map_map]
  rw [show ((fun e => decide (e.loc.sco.number = p.1.number)) ∘ g.dtlEntry) =
    fun e : CacheEntry => decide (e.cli_.sco.number = p.1.number) from rfl, hfilter]
  rfl

theorem behind_ne_nil (hb : Dtl g b) (h : Usable n b) : entries (rest n b.scos) ≠ [] := by
  have hyoung : n < (b.scosdeque_.getLast?.getD ⟨0, 0, 0⟩).number := h.2
  unfold scosdeque_ at hyoung
  rw [List.getLast?_map] at hyoung
  cases hl : b.scos.getLast? with
  | none =>
    rw [hl] at hyoung
    exact absurd hyoung (not_lt_zero n)
  | some p =>
    rw [hl] at hyoung
    have hp : p ∈ b.scos := mem_of_getLast? hl
    obtain ⟨e, he⟩ := exists_mem_of_ne_nil _ (hb.inOrder.nonempty p hp)
    have hrest : p ∈ rest n b.scos := (Contiguous.mem_rest hb.inOrder).mpr ⟨hp, hyoung⟩
    exact ne_nil_of_mem (mem_flatMap.mpr ⟨p, hrest, he⟩)

theorem reconstructs_of_replayable (hb : Dtl g b) (hv : NewVolume v) (hf : failures v < 256)
    (hm : replayClones nsidmap none v.metaDataStore_ ctl = .ok m) (husable : Usable n b) (hrep : Replayable n b) :
    Reconstructs sums g nsidmap ctl n b v m ∧ ¬ GivesUp sums g nsidmap ctl n b v m := by
  have hb' : Dtl g b.setFirstCommandMustBeGetEntries := ⟨hb.inOrder, hb.writes⟩
  obtain ⟨b', v', hrun, hholds⟩ := (replayDtl_spec hb' hv hf husable).1 hrep
  have hrun := (backend_restart_eq hv hm).trans hrun
  refine ⟨reconstructs_of_holds hb hrun hholds, fun hgive => ?_⟩
  obtain ⟨-, -, hnone⟩ := hgive b' v' hrun
  have hnil : ((entries (rest n b.scos)).map g.dtlEntry).map (entryOf sums) = [] := hholds.tlogs.symm.trans hnone
  exact behind_ne_nil hb husable (by simpa using hnil)

theorem throws_of_not_replayable (hb : Dtl g b) (hv : NewVolume v) (hf : failures v < 256)
    (hm : replayClones nsidmap none v.metaDataStore_ ctl = .ok m) (husable : Usable n b) (hrep : ¬ Replayable n b) :
    ∃ x v', Volume.backend_restart sums g nsidmap ctl n b v = .error x v' := by
  have hb' : Dtl g b.setFirstCommandMustBeGetEntries := ⟨hb.inOrder, hb.writes⟩
  obtain ⟨x, v', hrun⟩ := (replayDtl_spec hb' hv hf husable).2 hrep
  exact ⟨x, v', (backend_restart_eq hv hm).trans hrun⟩

theorem givesUp_of_not_usable (hb : Dtl g b) (hv : NewVolume v)
    (hm : replayClones nsidmap none v.metaDataStore_ ctl = .ok m) (husable : ¬ Usable n b) :
    GivesUp sums g nsidmap ctl n b v m := by
  have hb' : Dtl g b.setFirstCommandMustBeGetEntries := ⟨hb.inOrder, hb.writes⟩
  obtain ⟨b', hrun, hnil⟩ : ∃ b', replayDtl sums g n b.setFirstCommandMustBeGetEntries (restarted n m v) =
      .ok b' (restarted n m v) ∧ b'.entries = [] := replayDtl_unusable hb' husable
  intro b₁ v₁ h₁
  rw [(backend_restart_eq hv hm).trans hrun] at h₁
  obtain ⟨rfl, rfl⟩ := EStateM.Result.ok.inj h₁
  exact ⟨hnil, rfl, hv.tlogs⟩

/-- A restart from the backend does what is asked of it exactly if the DTL is not usable at all, or
has no gap exactly when its SCOs behind the backend can be replayed. -/
theorem restart_correct_iff (hb : Dtl g b) (hv : NewVolume v) (hf : failures v < 256)
    (hm : replayClones nsidmap none v.metaDataStore_ ctl = .ok m) :
    Correct sums g nsidmap ctl n b v m ↔ (Usable n b → (Gapless b ↔ Replayable n b)) := by
  by_cases husable : Usable n b
  · by_cases hrep : Replayable n b
    · have hrec : Reconstructs sums g nsidmap ctl n b v m ∧ ¬ GivesUp sums g nsidmap ctl n b v m :=
        reconstructs_of_replayable hb hv hf hm husable hrep
      obtain ⟨hrec, hnot⟩ := hrec
      constructor
      · intro hc _
        refine ⟨fun _ => hrep, fun _ => ?_⟩
        by_contra hgap
        exact hnot (hc.gap (.inl hgap))
      · intro h
        refine ⟨fun _ _ => hrec, ?_⟩
        rintro (hgap | hfar)
        · exact absurd ((h husable).mpr hrep) hgap
        · exact absurd husable.1 (not_le.mpr hfar)
    · obtain ⟨x, v', hrun⟩ : ∃ x v', Volume.backend_restart sums g nsidmap ctl n b v = .error x v' :=
        throws_of_not_replayable hb hv hf hm husable hrep
      have hgive : GivesUp sums g nsidmap ctl n b v m := fun b' v'' h => by rw [hrun] at h; cases h
      have hnot : ¬ Reconstructs sums g nsidmap ctl n b v m := by
        rintro ⟨b', v'', h, -⟩
        rw [hrun] at h
        cases h
      constructor
      · exact fun hc _ => ⟨fun hg => absurd (hc.gapless hg husable) hnot, fun hr => absurd hr hrep⟩
      · exact fun h => ⟨fun hg _ => absurd ((h husable).mp hg) hrep, fun _ => hgive⟩
  · have hgive : GivesUp sums g nsidmap ctl n b v m := givesUp_of_not_usable hb hv hm husable
    constructor
    · exact fun _ hu => absurd hu husable
    · exact fun _ => ⟨fun _ hu => absurd hu husable, fun _ => hgive⟩

end

end

namespace Sample

/-- Clusters of one block of one byte. -/
def bytewise : Geometry := ⟨1, 1⟩

/-- A new volume. -/
def volume : Volume Bytes := { dataStore_ := { sco_mult_ := 4 }, cluster_locations_ := 4, maxTLogEntries_ := 80 }

/-- One TLog on the backend. -/
def nsidmap : NSIDMap := fun _ _ => .ok [⟨0, ⟨⟨⟨1, 0, 0⟩, 0⟩, 0⟩⟩]

/-- The clusters of SCO `n`, written to the addresses 0, 1, 2, … -/
def clusters (n count : Nat) : List CacheEntry := (List.range' 0 count).map fun i => ⟨⟨⟨n, 0, 0⟩, i⟩, i, [0]⟩

/-- SCO 2 with some clusters, and SCO 3 with one. -/
def cache (count : Nat) : Backend := { scos := [(⟨2, 0, 0⟩, clusters 2 count), (⟨3, 0, 0⟩, clusters 3 1)] }

/-- The metadata that the TLog gives. -/
def metadata : ClusterMap := replay (fun _ => .zero) [(0, ⟨⟨⟨1, 0, 0⟩, 0⟩, 0⟩)]

variable {n count : Nat}

theorem mem_clusters {e : CacheEntry} (h : e ∈ clusters n count) : ∃ i, i < count ∧ e = ⟨⟨⟨n, 0, 0⟩, i⟩, i, [0]⟩ := by
  obtain ⟨i, hi, rfl⟩ := mem_map.mp h
  obtain ⟨-, hi⟩ := mem_range'_1.mp hi
  exact ⟨i, by omega, rfl⟩

theorem map_cli_clusters : (clusters n count).map (·.cli_) = Contiguous.locations n 0 (clusters n count).length := by
  simp [clusters, Contiguous.locations]

theorem increasing_clusters : ((clusters n count).map (·.cli_)).Pairwise fun a b => b.offset > a.offset := by
  rw [map_cli_clusters, Contiguous.locations, pairwise_map]
  exact pairwise_lt_range'

theorem dtl_cache (hpos : 0 < count) (hle : count ≤ offsets) : Dtl bytewise (cache count) := by
  have hall : ∀ p ∈ (cache count).scos,
      ∃ n k, (n = 2 ∨ n = 3) ∧ 0 < k ∧ k ≤ offsets ∧ p = (⟨n, 0, 0⟩, clusters n k) := by
    intro p hp
    simp only [cache, mem_cons, not_mem_nil, or_false] at hp
    rcases hp with rfl | rfl
    · exact ⟨2, count, .inl rfl, hpos, hle, rfl⟩
    · exact ⟨3, 1, .inr rfl, by decide, by decide, rfl⟩
  have hentry : ∀ p ∈ (cache count).scos, ∀ e ∈ p.2, e.cli_.sco = p.1 ∧ offsets > e.cli_.offset ∧
      ClusterWrite bytewise e := by
    intro p hp e he
    obtain ⟨n, k, -, -, hk, rfl⟩ := hall p hp
    obtain ⟨i, hi, rfl⟩ := mem_clusters he
    have hlt : i < 2 ^ 16 := lt_of_lt_of_le hi hk
    refine ⟨rfl, hlt, rfl, mod_one _, ?_⟩
    show i * 1 % 2 ^ 64 / 1 ≤ 2 ^ 35 - 1
    omega
  refine ⟨⟨?_, ?_, ?_, ?_, ?_, ?_, ?_, ?_⟩, ?_⟩
  · simp [cache]
  · intro p hp
    obtain ⟨n, k, -, hk, -, rfl⟩ := hall p hp
    exact ne_nil_of_length_pos (by simpa [clusters] using hk)
  · intro p hp
    obtain ⟨n, k, -, -, -, rfl⟩ := hall p hp
    rfl
  · intro p hp
    obtain ⟨n, k, hn, -, -, rfl⟩ := hall p hp
    show n ≠ 0
    omega
  · intro p hp
    obtain ⟨n, k, hn, -, -, rfl⟩ := hall p hp
    show 2 ^ 32 > n
    omega
  · exact fun p hp e he => (hentry p hp e he).1
  · intro p hp
    obtain ⟨n, k, -, -, -, rfl⟩ := hall p hp
    exact increasing_clusters
  · exact fun p hp e he => (hentry p hp e he).2.1
  · intro e he
    obtain ⟨p, hp, hep⟩ := mem_flatMap.mp he
    exact (hentry p hp e hep).2.2

theorem gapless_cache : Gapless (cache count) :=
  ⟨rfl, map_cli_clusters, rfl, map_cli_clusters, trivial⟩

theorem usable_cache : Usable 1 (cache count) := by
  constructor
  · show 2 ≤ 1 + 1
    decide
  · show 1 < 3
    decide

theorem newVolume : NewVolume volume := ⟨rfl, rfl⟩

end Sample

open Sample

/-- Two SCOs that are not full. -/
theorem restart_correct_iff_small :
    Correct .lengths bytewise nsidmap [(0, [0])] 1 (cache 2) volume metadata :=
  (restart_correct_iff (dtl_cache (by decide) (by decide)) newVolume (by decide) rfl).mpr fun _ =>
    ⟨fun _ => ⟨gapless_cache, by decide, trivial⟩, fun _ => gapless_cache⟩

/-- The first of two SCOs takes up all offsets: there is no gap, and the restart throws. -/
theorem full_SCO_stops_restart :
    ¬ Correct .lengths bytewise nsidmap [(0, [0])] 1 (cache offsets) volume metadata := by
  intro hc
  have hrep : ¬ Replayable 1 (cache offsets) := by
    rintro ⟨-, hfull, -⟩
    simp [clusters] at hfull
  have hm : replayClones nsidmap none volume.metaDataStore_ [(0, [0])] = .ok metadata := rfl
  obtain ⟨x, v', hrun⟩ : ∃ x v', Volume.backend_restart .lengths bytewise nsidmap [(0, [0])] 1
      (cache offsets) volume = .error x v' :=
    throws_of_not_replayable (dtl_cache (by decide) (le_refl _)) newVolume (by decide) hm
      usable_cache hrep
  obtain ⟨b', v'', hok, -⟩ := hc.gapless gapless_cache usable_cache
  rw [hrun] at hok
  cases hok

end Reconstruct

end VolumeDriver
