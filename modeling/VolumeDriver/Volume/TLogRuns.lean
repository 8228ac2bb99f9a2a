/-
The TLogs of a volume are fit for recovery after every run of writes, synchronisations, changes of
the DTL and replayed clusters: each SCO that is left has its checksum in the TLog. The checksum is
handed out by the data store when the SCO is finalised and goes to the TLog later; a replayed
cluster that finalises a SCO and then fails loses it.
-/
import VolumeDriver.Volume.Replay
import VolumeDriver.Volume.Sealed

namespace VolumeDriver

open Lib List

namespace TLogRuns

open DataStoreNG (Consistent Room)
open Sealed (Past)
open Volume
open DataStoreNG Triple

variable {D : Type} (sums : Sums D)

/-! ## The invariant -/

/-- All TLogs, the current one last. -/
def tlogs (v : Volume D) : List (List Entry) := v.closedTLogs ++ [v.currentTLog_]

/-- Between two calls: the entries about the current SCO are the last ones, and in the current TLog. -/
structure Inv (v : Volume D) : Prop where
  ds : Consistent v.dataStore_
  tlog : ∃ old present, v.currentTLog_ = old ++ present ∧
    Past sums.crc v.dataStore_.scos v.dataStore_.number none (v.closedTLogs.flatten ++ old) ∧
    (∀ e ∈ present, e.isLocation = true → e.sco = ⟨v.dataStore_.number, 0, 0⟩) ∧
    (v.dataStore_.offset = 0 → ∀ e ∈ present, e.isLocation = false)

/-- There is no entry about the current SCO yet. `cs` is the checksum of the SCO before it, when
that is not in the TLog yet. -/
structure Fresh (cs : Option (List D)) (v : Volume D) : Prop where
  ds : Consistent v.dataStore_
  tlog : Past sums.crc v.dataStore_.scos v.dataStore_.number cs (v.closedTLogs.flatten ++ v.currentTLog_)

section
variable {sums} {v : Volume D}

theorem Fresh.inv (h : Fresh sums none v) : Inv sums v :=
  ⟨h.ds, v.currentTLog_, [], (append_nil _).symm, h.tlog, by simp, by simp⟩

theorem Inv.fresh (h : Inv sums v) (h0 : v.dataStore_.offset = 0) : Fresh sums none v := by
  obtain ⟨old, present, hcur, hpast, -, hnone⟩ := h.tlog
  refine ⟨h.ds, ?_⟩
  rw [hcur, ← append_assoc]
  exact hpast.append (hnone h0)

theorem Inv.wellFormed (h : Inv sums v) : Sealed.WellFormed (Sealed.sumsOf sums.crc v.dataStore_.scos) (tlogs v) := by
  obtain ⟨old, present, hcur, hpast, hpresent, -⟩ := h.tlog
  refine Sealed.wellFormed_of_each ?_
  have hall := (hpast.next hpresent).switches
  rw [append_assoc, ← hcur] at hall
  rwa [tlogs, flatten_append, flatten_singleton]

theorem Inv.append (h : Inv sums v) {e : Entry} (he : e.isLocation = true → e.sco = ⟨v.dataStore_.number, 0, 0⟩)
    (h0 : v.dataStore_.offset = 0 → e.isLocation = false) :
    Inv sums { v with currentTLog_ := v.currentTLog_ ++ [e] } := by
  obtain ⟨old, present, hcur, hpast, hpresent, hnone⟩ := h.tlog
  refine ⟨h.ds, old, present ++ [e], by simp [hcur], hpast, ?_, fun hz => ?_⟩
  · exact forall_mem_append.mpr ⟨hpresent, forall_mem_singleton.mpr he⟩
  · exact forall_mem_append.mpr ⟨hnone hz, forall_mem_singleton.mpr (h0 hz)⟩

theorem Inv.of_dataStore (h : Inv sums v) {d : DataStoreNG D} (hd : Consistent d) (hn : d.number = v.dataStore_.number)
    (hscos : ∀ n, n ≠ d.number → d.scos n = v.dataStore_.scos n) (h0 : d.offset = 0 → v.dataStore_.offset = 0)
    (handed : List Handout) : Inv sums { v with dataStore_ := d, handed := handed } := by
  obtain ⟨old, present, hcur, hpast, hpresent, hnone⟩ := h.tlog
  refine ⟨hd, old, present, hcur, ?_, ?_, fun hz => hnone (h0 hz)⟩
  · show Past sums.crc d.scos d.number none _
    rw [hn]
    exact hpast.of_scos fun m hm => hscos m (by omega)
  · intro e he hl
    rw [hpresent e he hl, ← hn]

theorem Fresh.of_dataStore {cs : Option (List D)} (h : Fresh sums cs v) {d : DataStoreNG D} (hd : Consistent d)
    (hn : d.number = v.dataStore_.number) (hscos : ∀ n, n ≠ d.number → d.scos n = v.dataStore_.scos n) :
    Fresh sums cs { v with dataStore_ := d } := by
  refine ⟨hd, ?_⟩
  show Past sums.crc d.scos d.number cs _
  rw [hn]
  exact h.tlog.of_scos fun m hm => hscos m (by omega)

theorem fresh_next {cs : Option (List D)} (hds : Consistent v.dataStore_) (hn : v.dataStore_.number + 1 < 2 ^ 32)
    (h : Past sums.crc v.dataStore_.scos (v.dataStore_.number + 1) cs (v.closedTLogs.flatten ++ v.currentTLog_)) :
    Fresh sums cs { v with dataStore_ := v.dataStore_.nextSCO.attempted } := by
  have hnumber : v.dataStore_.nextSCO.attempted.number = v.dataStore_.number + 1 :=
    number_attempted.trans (Nat.mod_eq_of_lt hn)
  refine ⟨(hds.nextSCO hn).attempted rfl, ?_⟩
  show Past sums.crc v.dataStore_.nextSCO.attempted.scos v.dataStore_.nextSCO.attempted.number cs _
  rw [hnumber]
  refine h.of_scos fun m hm => scos_attempted_of_ne ?_
  rw [← number_attempted, hnumber]
  omega

theorem Inv.next (h : Inv sums v) (h0 : v.dataStore_.offset ≠ 0) (hn : v.dataStore_.number + 1 < 2 ^ 32) :
    Fresh sums (some v.dataStore_.currentCheckSum_) { v with dataStore_ := v.dataStore_.nextSCO.attempted } := by
  obtain ⟨old, present, hcur, hpast, hpresent, -⟩ := h.tlog
  refine fresh_next h.ds hn ?_
  rw [← h.ds.content (h.ds.open_of_offset h0), hcur, ← append_assoc]
  exact hpast.next hpresent

theorem Inv.next_empty (h : Inv sums v) (hempty : ∀ e ∈ v.currentTLog_, e.isLocation = false)
    (hn : v.dataStore_.number + 1 < 2 ^ 32) : Inv sums { v with dataStore_ := v.dataStore_.nextSCO.attempted } := by
  obtain ⟨old, present, hcur, hpast, -, -⟩ := h.tlog
  refine (fresh_next h.ds hn ?_).inv
  rw [hcur, ← append_assoc]
  refine (hpast.append fun e he => hempty e ?_).mono (Nat.le_succ _)
  rw [hcur]
  exact mem_append_right _ he

end

/-! ## The TLog -/

section
variable {E : Volume D → Prop}

theorem addSCOCRCEntry_eq (cs : List D) (v : Volume D) :
    ∃ e : Entry, e.isLocation = false ∧ e.isSCOCRC = true ∧ e.getCheckSum = sums.crc cs ∧
      addSCOCRCEntry sums cs v = .ok ⟨⟩ { v with currentTLog_ := v.currentTLog_ ++ [e] } := by
  obtain ⟨e, hmk, hl, hcrc, hsum⟩ := Entry.mkCheckSum_SCOCRC (sums.crc_lt cs)
  refine ⟨e, hl, hcrc, hsum, ?_⟩
  unfold addSCOCRCEntry
  rw [hmk]
  rfl

theorem switchTLog_eq (v : Volume D) : ∃ e : Entry, e.isLocation = false ∧ switchTLog sums v = .ok ⟨⟩
    { v with closedTLogs := v.closedTLogs ++ [v.currentTLog_ ++ [e]], currentTLog_ := [], numTLogEntries_ := 0 } := by
  obtain ⟨e, hmk, hl, -⟩ := Entry.mkCheckSum_TLogCRC (sums.tlogCrc_lt v.currentTLog_)
  refine ⟨e, hl, run_get_bind.trans ?_⟩
  rw [hmk]
  rfl

theorem addSCOCRCEntry_fresh (cs : List D) :
    Triple (Fresh sums (some cs)) (addSCOCRCEntry sums cs) (fun _ => Fresh sums none) E := by
  intro v h
  obtain ⟨e, hl, hcrc, hsum, heq⟩ := addSCOCRCEntry_eq sums cs v
  rw [heq]
  refine ⟨h.ds, ?_⟩
  have := h.tlog.append_crc hl hcrc hsum
  rwa [append_assoc] at this

theorem switchTLog_fresh {cs : Option (List D)} :
    Triple (Fresh sums cs) (switchTLog sums) (fun _ => Fresh sums cs) E := by
  intro v h
  obtain ⟨e, hl, heq⟩ := switchTLog_eq sums v
  rw [heq]
  refine ⟨h.ds, ?_⟩
  have happ : Past sums.crc _ _ cs ((v.closedTLogs.flatten ++ v.currentTLog_) ++ [e]) :=
    h.tlog.append (by simpa using hl)
  show Past sums.crc _ _ cs ((v.closedTLogs ++ [v.currentTLog_ ++ [e]]).flatten ++ [])
  rwa [append_nil, flatten_append, flatten_singleton, ← append_assoc]

theorem addRollover_fresh : ∀ cs : Option (List D),
    Triple (Fresh sums cs) (addRollover sums cs) (fun _ => Fresh sums none) E
  | none => pure fun _ h => h
  | some cs => by
    refine (addSCOCRCEntry_fresh sums cs).bind fun _ => get_bind fun v h => ?_
    refine ite (fun _ => ?_) fun _ => pure fun w hw => hw ▸ h
    exact (switchTLog_fresh sums).of_eq h

theorem closeTLogWith_fresh : ∀ cs : Option (List D),
    Triple (Fresh sums cs) (closeTLogWith sums cs) (fun _ => Fresh sums none) E
  | none => switchTLog_fresh sums
  | some cs => (addSCOCRCEntry_fresh sums cs).bind fun _ => switchTLog_fresh sums

end

/-! ## Calls that keep the locations -/

section
variable {v v' : Volume D}

/-- The location entries of all TLogs. -/
def written (v : Volume D) : List Entry := (tlogs v).flatten.filter (·.isLocation)

/-- What a change of the TLogs other than a location leaves alone. -/
structure SameLocations (v v' : Volume D) : Prop where
  ds : v'.dataStore_ = v.dataStore_
  metadata : v'.metaDataStore_ = v.metaDataStore_
  written : written v' = written v

theorem SameLocations.trans {v'' : Volume D} (h : SameLocations v v') (h' : SameLocations v' v'') :
    SameLocations v v'' :=
  ⟨h'.ds.trans h.ds, h'.metadata.trans h.metadata, h'.written.trans h.written⟩

theorem addSCOCRCEntry_same (cs : List D) (v : Volume D) :
    ∃ v', addSCOCRCEntry sums cs v = .ok ⟨⟩ v' ∧ SameLocations v v' := by
  obtain ⟨e, hl, -, -, heq⟩ := addSCOCRCEntry_eq sums cs v
  refine ⟨_, heq, rfl, rfl, ?_⟩
  simp [written, tlogs, hl]

theorem switchTLog_same (v : Volume D) : ∃ v', switchTLog sums v = .ok ⟨⟩ v' ∧ SameLocations v v' := by
  obtain ⟨e, hl, heq⟩ := switchTLog_eq sums v
  refine ⟨_, heq, rfl, rfl, ?_⟩
  simp [written, tlogs, hl]

theorem addRollover_same (v : Volume D) : ∀ cs : Option (List D),
    ∃ v', addRollover sums cs v = .ok ⟨⟩ v' ∧ SameLocations v v'
  | none => ⟨v, rfl, rfl, rfl, rfl⟩
  | some cs => by
    obtain ⟨v₁, h1, hs₁⟩ := addSCOCRCEntry_same sums cs v
    have hrun : addRollover sums (some cs) v = maybe_switch_tlog_ sums v₁ := run_bind h1
    rw [hrun]
    by_cases hmax : v₁.numTLogEntries_ ≥ v₁.maxTLogEntries_
    · obtain ⟨v₂, h2, hs₂⟩ := switchTLog_same sums v₁
      refine ⟨v₂, ?_, hs₁.trans hs₂⟩
      refine run_get_bind.trans ?_
      rw [if_pos hmax]
      exact h2
    · refine ⟨v₁, ?_, hs₁⟩
      refine run_get_bind.trans ?_
      rw [if_neg hmax]
      rfl

theorem closeTLogWith_same (v : Volume D) : ∀ cs : Option (List D),
    ∃ v', closeTLogWith sums cs v = .ok ⟨⟩ v' ∧ SameLocations v v'
  | none => switchTLog_same sums v
  | some cs => by
    obtain ⟨v₁, h1, hs₁⟩ := addSCOCRCEntry_same sums cs v
    obtain ⟨v₂, h2, hs₂⟩ := switchTLog_same sums v₁
    exact ⟨v₂, (run_bind h1).trans h2, hs₁.trans hs₂⟩

theorem writeClusterMetaData_ok (ca : ClusterAddress) {l : ClusterLocationAndHash} (hnull : l.isNull = false)
    (hca : ca ≤ Entry.max_valid_cluster_address) (v : Volume D) :
    ∃ v', writeClusterMetaData_ ca l v = .ok ⟨⟩ v' ∧ v'.dataStore_ = v.dataStore_ ∧
      v'.metaDataStore_ = Function.update v.metaDataStore_ ca l ∧ written v' = written v ++ [⟨ca, l⟩] := by
  have hmk : Entry.mkLocation ca l = .ok ⟨ca, l⟩ := by
    unfold Entry.mkLocation VERIFY
    rw [verify_of hnull, ok_bind, verify_of hca]
    rfl
  have hloc : Entry.isLocation ⟨ca, l⟩ = true := Entry.isLocation_iff.mpr hnull
  unfold writeClusterMetaData_ addClusterEntry
  rw [hmk]
  refine ⟨_, rfl, rfl, rfl, ?_⟩
  simp [written, tlogs, hloc]

end

/-! ## The calls of the volume -/

section
variable {r : Nat}

/-- The SCO can be finalised. -/
def Finalisable (v : Volume D) : Prop := Inv sums v ∧ (v.dataStore_.offset ≠ 0 → v.dataStore_.number + 1 < 2 ^ 32)

theorem finalize_cases {v : Volume D} (h : Inv sums v) :
    v.dataStore_.offset = 0 ∧ ds finalizeCurrentSCO v = .ok none v ∨
      v.dataStore_.offset ≠ 0 ∧ ds finalizeCurrentSCO v =
        .ok (some v.dataStore_.currentCheckSum_) { v with dataStore_ := v.dataStore_.nextSCO.attempted } := by
  by_cases h0 : v.dataStore_.offset = 0
  · exact .inl ⟨h0, ds_ok (finalizeCurrentSCO_empty h0)⟩
  · exact .inr ⟨h0, ds_ok (finalizeCurrentSCO_data h0 (h.ds.open_of_offset h0))⟩

theorem finalize_triple {E : Volume D → Prop} :
    Triple (Finalisable sums) (ds finalizeCurrentSCO : Volume.M D _) (Fresh sums) E := by
  rintro v ⟨h, hn⟩
  rcases finalize_cases sums h with ⟨h0, heq⟩ | ⟨h0, heq⟩
  · rw [heq]
    exact h.fresh h0
  · rw [heq]
    exact h.next h0 (hn h0)

variable {d : DataStoreNG D}

theorem writeClusterMetaData_triple (ca : ClusterAddress) {l : ClusterLocationAndHash}
    (hsco : l.clusterLocation.sco = ⟨d.number, 0, 0⟩) (h0 : d.offset ≠ 0) :
    Triple (fun v => Inv sums v ∧ v.dataStore_ = d) (writeClusterMetaData_ ca l)
      (fun _ v => Inv sums v ∧ v.dataStore_ = d) (Inv sums) := by
  rintro v ⟨h, rfl⟩
  unfold writeClusterMetaData_ addClusterEntry
  cases hmk : Entry.mkLocation ca l with
  | error x => exact h
  | ok e =>
    obtain ⟨rfl, -, -⟩ := Entry.mkLocation_ok hmk
    have happ := h.append (e := ⟨ca, l⟩) (fun _ => hsco) fun hz => absurd hz h0
    exact ⟨⟨happ.ds, happ.tlog⟩, rfl⟩

theorem recordClusters_triple (h0 : d.offset ≠ 0) :
    ∀ (ca : ClusterAddress) (l : List (ClusterLocation × D)), (∀ p ∈ l, p.1.sco = ⟨d.number, 0, 0⟩) →
    Triple (fun v => Inv sums v ∧ v.dataStore_ = d) (recordClusters sums ca l)
      (fun _ v => Inv sums v ∧ v.dataStore_ = d) (Inv sums)
  | _, [], _ => pure fun _ h => h
  | ca, p :: l, hl =>
    (writeClusterMetaData_triple sums ca (hl p (mem_cons_self ..)) h0).bind fun _ =>
      recordClusters_triple h0 (ca + 1) l fun q hq => hl q (mem_cons_of_mem _ hq)

theorem handOut_triple (buf : List D) (hr : buf.length ≤ r) :
    Triple (fun v => (Inv sums v ∧ Room r v.dataStore_) ∧ buf.length ≤ v.dataStore_.sco_mult_ - v.dataStore_.offset)
      (handOut buf)
      (fun locs v => (∀ l ∈ locs, l.sco = ⟨v.dataStore_.number, 0, 0⟩) ∧ (locs ≠ [] → v.dataStore_.offset ≠ 0) ∧
        Inv sums v ∧ Room (r - buf.length) v.dataStore_) (Inv sums) := by
  rintro v ⟨⟨h, hroom⟩, hfit⟩
  have hlt := hroom.mult_lt
  have hle := hroom.offset_le
  have hbuf : v.dataStore_.offset + buf.length < 2 ^ 16 := by omega
  have hnumber : (v.dataStore_.ready.written buf).number = v.dataStore_.number := number_ready
  have hoffset := offset_ready_written buf hbuf
  by_cases hopen : v.dataStore_.CanWrite
  · rw [handOut_ok buf hopen]
    refine ⟨?_, ?_, h.of_dataStore ?_ hnumber ?_ ?_ _, hroom.write hfit hr⟩
    · intro l hl
      obtain ⟨i, -, rfl⟩ := mem_map.mp hl
      rw [hnumber]
    · intro hne
      show (v.dataStore_.ready.written buf).offset ≠ 0
      have : buf.length ≠ 0 := fun hz => hne (by simp [DataStoreNG.locations, hz])
      omega
    · exact h.ds.ready_written buf hbuf
    · exact fun n hn => scos_ready_written_of_ne buf (hnumber ▸ hn)
    · omega
  · obtain ⟨hopen, hfails⟩ := not_or.mp hopen
    have hopen : v.dataStore_.current_open = false := by simpa using hopen
    rw [handOut_fails buf hopen (by simpa using hfails)]
    exact h.of_dataStore (h.ds.notCreated (h.ds.closed hopen)) rfl (fun _ _ => rfl) id _

theorem rollover_triple : Triple (fun v => Inv sums v ∧ Room r v.dataStore_) (rollover sums)
      (fun _ v => Inv sums v ∧ Room r v.dataStore_) (Inv sums) := by
  refine get_bind fun v h => ?_
  obtain ⟨h, hroom⟩ := h
  refine ite (fun hcap => ?_) fun _ => pure fun w hw => hw ▸ ⟨h, hroom⟩
  have hpos := hroom.mult_pos
  have hle := hroom.offset_le
  rw [hroom.capacity] at hcap
  have hfull : v.dataStore_.offset = v.dataStore_.sco_mult_ := by omega
  have h0 : v.dataStore_.offset ≠ 0 := by omega
  rintro w rfl
  rw [run_bind (ds_ok (finalizeCurrentSCO_data h0 (h.ds.open_of_offset h0)))]
  have hnext := hroom.next hfull
  have hadd := (addRollover_fresh sums (E := Inv sums) (some w.dataStore_.currentCheckSum_)).and
    ((core_addSCOCRC sums w.dataStore_.currentCheckSum_).triple fun c => Room r c.1)
  exact (hadd.weakenError fun _ he => he.1).weaken (fun _ hp => hp) (fun _ u hu => ⟨hu.1.inv, hu.2⟩) _
    ⟨h.next h0 (hroom.next_lt hfull), hnext⟩

theorem writeClusters_triple (ca : ClusterAddress) (buf : List D) (hr : buf.length ≤ r) :
    Triple (fun v => (Inv sums v ∧ Room r v.dataStore_) ∧ buf.length ≤ v.dataStore_.sco_mult_ - v.dataStore_.offset)
      (writeClusters_ sums ca buf) (fun _ v => Inv sums v ∧ Room (r - buf.length) v.dataStore_) (Inv sums) := by
  refine (handOut_triple sums buf hr).bind fun locs => ?_
  have hrecord : Triple (fun v => (∀ l ∈ locs, l.sco = ⟨v.dataStore_.number, 0, 0⟩) ∧
      (locs ≠ [] → v.dataStore_.offset ≠ 0) ∧ Inv sums v ∧ Room (r - buf.length) v.dataStore_)
      (recordClusters sums ca (locs.zip buf)) (fun _ v => Inv sums v ∧ Room (r - buf.length) v.dataStore_)
      (Inv sums) := by
    rintro v ⟨hlocs, h0, h, hroom⟩
    by_cases hne : locs = []
    · subst hne
      exact ⟨h, hroom⟩
    · have hzip : ∀ p ∈ locs.zip buf, p.1.sco = ⟨v.dataStore_.number, 0, 0⟩ :=
        fun p hp => hlocs p.1 (of_mem_zip hp).1
      refine (recordClusters_triple sums (h0 hne) ca (locs.zip buf) hzip).weaken (fun _ hp => hp) ?_ v ⟨h, rfl⟩
      rintro _ w ⟨hw, hd⟩
      exact ⟨hw, hd ▸ hroom⟩
  exact hrecord.bind fun _ => rollover_triple sums

theorem writeChunks_triple (max_entries : Nat) : ∀ (turns : Nat) (ca : ClusterAddress) (buf : List D),
    Triple (fun v => Inv sums v ∧ Room buf.length v.dataStore_) (writeChunks sums max_entries turns ca buf)
      (fun _ => Inv sums) (Inv sums) :=
  triple_writeChunks sums (fun _ _ h => h.1) (fun _ _ h => h.2.capacity) (writeClusters_triple sums) max_entries

theorem sync_triple (append_chksum : Bool) :
    Triple (Inv sums) (sync_ sums append_chksum) (fun _ => Inv sums) (Inv sums) := by
  refine get_bind fun v h => ?_
  rintro w rfl
  cases (if append_chksum = true then w.dataStore_.sync else none) with
  | none => exact h
  | some cs =>
    obtain ⟨e, hl, -, -, heq⟩ := addSCOCRCEntry_eq sums cs w
    show match addSCOCRCEntry sums cs w with | .ok _ v => Inv sums v | .error _ v => Inv sums v
    rw [heq]
    exact h.append (fun ht => absurd ht (by simp [hl])) fun _ => hl

theorem rolloverForDtl_triple : Triple (Finalisable sums) (rolloverForDtl sums) (fun _ => Inv sums) (Inv sums) :=
  (finalize_triple sums).bind fun cs =>
    (closeTLogWith_fresh sums cs).weaken (fun _ hp => hp) fun _ _ hq => hq.inv

theorem scheduleBackendSync_triple :
    Triple (Finalisable sums) (scheduleBackendSync_ sums) (fun _ => Inv sums) (Inv sums) := by
  intro v hv
  have hsync : scheduleBackendSync_ sums v = rolloverForDtl sums v :=
    run_bind (show sync_ sums false v = .ok () v from rfl)
  exact rolloverForDtl_triple sums v hv

theorem finishReplay_triple : Triple (Finalisable sums) (finishReplay sums) (fun _ => Inv sums) (Inv sums) := by
  rintro v ⟨h, hn⟩
  have hclose : ∀ (cs : Option (List D)) (w : Volume D), Fresh sums cs w →
      (w.currentTLogHasData ≠ true → Inv sums w) →
      Triple (· = w) (get >>= fun v => if v.currentTLogHasData = true then closeTLogWith sums cs else pure ())
        (fun _ => Inv sums) (Inv sums) := by
    intro cs w hfresh hempty
    refine get_bind fun u hu => ?_
    subst hu
    refine ite (fun _ => ?_) fun hno => pure fun x hx => hx ▸ hempty hno
    exact (closeTLogWith_fresh sums cs).weaken (fun x hx => hx ▸ hfresh) fun _ _ hq => hq.inv
  rcases finalize_cases sums h with ⟨h0, heq⟩ | ⟨h0, heq⟩
  · rw [finishReplay, run_bind heq]
    exact hclose none v (h.fresh h0) (fun _ => h) v rfl
  · rw [finishReplay, run_bind heq]
    refine hclose _ _ (h.next h0 (hn h0)) (fun hno => h.next_empty ?_ (hn h0)) _ rfl
    exact fun e he => by simpa using fun hl => hno (any_eq_true.mpr ⟨e, he, hl⟩)

theorem recordReplayed_triple (e : DtlEntry D) (hd : Consistent d)
    (hloc : e.loc = d.currentClusterLoc_) (hfit : d.offset + 1 < 2 ^ 16) :
    Triple (fun v => Inv sums v ∧ v.dataStore_ = d.ready.written [e.cluster])
      (writeClusterMetaData_ e.ca ⟨e.loc, sums.md5 e.cluster⟩) (fun _ => Inv sums) (Inv sums) := by
  have hoffset := offset_ready_written [e.cluster] hfit
  have hsco : e.loc.sco = ⟨(d.ready.written [e.cluster]).number, 0, 0⟩ := by
    rw [hloc, hd.sco, number_written, number_ready]
  refine (writeClusterMetaData_triple sums e.ca hsco ?_).weaken (fun _ hp => hp) fun _ _ hq => hq.1
  rw [hoffset]
  exact Nat.succ_ne_zero _

theorem replayCurrent_triple (e : DtlEntry D) : Triple (fun v => Inv sums v ∧ v.dataStore_.offset + 1 < 2 ^ 16)
      (do ds (writeClusterToLocation e.cluster e.loc)
          addRollover sums none
          writeClusterMetaData_ e.ca ⟨e.loc, sums.md5 e.cluster⟩)
      (fun _ => Inv sums) (Inv sums) := by
  rintro v ⟨h, hfit⟩
  by_cases hloc : e.loc = v.dataStore_.currentClusterLoc_
  · by_cases hopen : v.dataStore_.CanWrite
    · have hwrite := h.ds.writeClusterToLocation_ok e.cluster hopen
      rw [← hloc] at hwrite
      rw [run_bind (ds_ok hwrite)]
      refine recordReplayed_triple sums e h.ds hloc hfit _ ⟨?_, rfl⟩
      have hnumber : (v.dataStore_.ready.written [e.cluster]).number = v.dataStore_.number := number_ready
      refine h.of_dataStore (h.ds.ready_written [e.cluster] hfit) hnumber ?_ ?_ v.handed
      · exact fun n hn => scos_ready_written_of_ne _ (hnumber ▸ hn)
      · intro hz
        rw [offset_ready_written [e.cluster] hfit] at hz
        exact absurd hz (Nat.succ_ne_zero _)
    · obtain ⟨hopen, hfails⟩ := not_or.mp hopen
      have hopen : v.dataStore_.current_open = false := by simpa using hopen
      have hwrite := h.ds.writeClusterToLocation_fails e.cluster hopen (by simpa using hfails)
      rw [← hloc] at hwrite
      rw [run_bind_error (ds_error hwrite)]
      exact h.of_dataStore (h.ds.notCreated (h.ds.closed hopen)) rfl (fun _ _ => rfl) id v.handed
  · obtain ⟨x, hx⟩ := writeClusterToLocation_unexpected e.cluster hloc
    rw [run_bind_error (ds_error hx)]
    exact h

/-- The first cluster of a SCO, when the checksum of the SCO before it is on its way to the TLog:
the write has to succeed. -/
theorem replayFirst_triple (e : DtlEntry D) (cs : List D) :
    Triple (fun v => Fresh sums (some cs) v ∧ v.dataStore_.offset = 0 ∧ e.loc = v.dataStore_.currentClusterLoc_ ∧
        v.dataStore_.CanWrite)
      (do ds (writeClusterToLocation e.cluster e.loc)
          addRollover sums (some cs)
          writeClusterMetaData_ e.ca ⟨e.loc, sums.md5 e.cluster⟩)
      (fun _ => Inv sums) (Inv sums) := by
  rintro v ⟨h, h0, hloc, hopen⟩
  have hfit : v.dataStore_.offset + 1 < 2 ^ 16 := by omega
  have hwrite := h.ds.writeClusterToLocation_ok e.cluster hopen
  rw [← hloc] at hwrite
  rw [run_bind (ds_ok hwrite)]
  have hnumber : (v.dataStore_.ready.written [e.cluster]).number = v.dataStore_.number := number_ready
  have hfresh : Fresh sums (some cs) { v with dataStore_ := v.dataStore_.ready.written [e.cluster] } :=
    h.of_dataStore (h.ds.ready_written [e.cluster] hfit) hnumber
      fun n hn => scos_ready_written_of_ne _ (hnumber ▸ hn)
  have hadd := (addRollover_fresh sums (E := Inv sums) (some cs)).and
    ((core_addSCOCRC sums cs).triple fun c => c.1 = v.dataStore_.ready.written [e.cluster])
  refine ((hadd.weakenError fun _ he => he.1).weaken (fun _ hp => hp) fun _ u hu => ?_).bind
    (fun _ => recordReplayed_triple sums e h.ds hloc hfit) _ ⟨hfresh, rfl⟩
  exact ⟨hu.1.inv, hu.2⟩

/-- What a replayed cluster must meet: the offset does not wrap, and a cluster that starts a SCO
while the one before it is still open is the next in order and finds a SCO to write to, created
either by the rollover or by the write itself. -/
structure ReplayOk (v : Volume D) (e : DtlEntry D) : Prop where
  fits : e.loc.offset ≠ 0 → v.dataStore_.offset + 1 < 2 ^ 16
  number_lt : e.loc.offset = 0 → v.dataStore_.offset ≠ 0 → v.dataStore_.number + 1 < 2 ^ 32
  next : e.loc.offset = 0 → v.dataStore_.offset ≠ 0 → e.loc = ⟨⟨v.dataStore_.number + 1, 0, 0⟩, 0⟩
  created : e.loc.offset = 0 → v.dataStore_.offset ≠ 0 →
    ¬ (v.dataStore_.createSCO_fails.headD false = true ∧ v.dataStore_.createSCO_fails.tail.headD false = true)

theorem open_or_created (h : ¬ (d.createSCO_fails.headD false = true ∧ d.createSCO_fails.tail.headD false = true)) :
    d.attempted.CanWrite := by
  unfold attempted
  by_cases hf : d.createSCO_fails.headD false = true
  · rw [if_pos hf]
    exact .inr (Bool.eq_false_iff.mpr fun ht => h ⟨hf, ht⟩)
  · rw [if_neg hf]
    exact .inl rfl

theorem replay_triple (e : DtlEntry D) :
    Triple (fun v => Inv sums v ∧ ReplayOk v e) (replayClusterFromFailOverCache_ sums e)
      (fun _ => Inv sums) (Inv sums) := by
  rintro v ⟨h, hok⟩
  unfold replayClusterFromFailOverCache_ forcedRollover
  by_cases hfirst : e.loc.offset = 0
  · rw [if_pos hfirst]
    rcases finalize_cases sums h with ⟨h0, heq⟩ | ⟨h0, heq⟩
    · rw [run_bind heq]
      exact replayCurrent_triple sums e v ⟨h, by omega⟩
    · rw [run_bind heq]
      have hn := hok.number_lt hfirst h0
      refine replayFirst_triple sums e _ _ ⟨h.next h0 hn, offset_attempted, ?_, ?_⟩
      · show e.loc = v.dataStore_.nextSCO.attempted.currentClusterLoc_
        rw [hok.next hfirst h0, v.dataStore_.nextSCO.sameLocation_attempted.loc, nextSCO, Nat.mod_eq_of_lt hn, h.ds.sco]
      · exact open_or_created (hok.created hfirst h0)
  · rw [if_neg hfirst]
    exact replayCurrent_triple sums e v ⟨h, hok.fits hfirst⟩

end

/-! ## Runs -/

/-- `replay` is one attempt to replay a cluster: when it throws a `TransientException` it is made
again, up to 256 times. `finishReplay` ends a replay. -/
inductive Action (D : Type)
  | write (max_entries : Nat) (ca : ClusterAddress) (buf : List D)
  | sync (append_chksum : Bool)
  | scheduleBackendSync
  | setFailOverCacheConfig
  | replay (e : DtlEntry D)
  | finishReplay

/-- What they run. -/
def perform : Action D → Volume.M D Unit
  | .write max_entries ca buf => write_aligned_ sums max_entries ca buf
  | .sync append_chksum => sync_ sums append_chksum
  | .scheduleBackendSync => scheduleBackendSync_ sums
  | .setFailOverCacheConfig => rolloverForDtl sums
  | .replay e => replayClusterFromFailOverCache_ sums e
  | .finishReplay => finishReplay sums

/-- The outcomes of the next calls of `createSCO`. -/
def load (v : Volume D) (fails : List Bool) : Volume D :=
  { v with dataStore_ := { v.dataStore_ with createSCO_fails := fails } }

/-- An action that throws leaves behind what it did. -/
def step (v : Volume D) (a : Action D × List Bool) : Volume D := after (perform sums a.1) (load v a.2)

/-- A volume with no TLog of its own yet, whose last SCO on the backend has number `n`. -/
def init (n sco_mult : Nat) : Volume D where
  dataStore_ := { currentClusterLoc_ := ⟨⟨n + 1, 0, 0⟩, 0⟩, sco_mult_ := sco_mult }
  cluster_locations_ := sco_mult
  maxTLogEntries_ := 20 * sco_mult

/-- Offsets and SCO numbers do not wrap, and no replayed cluster loses a checksum. -/
def Regular (v : Volume D) (a : Action D × List Bool) : Prop :=
  match a.1 with
  | .write _ _ buf => Room buf.length v.dataStore_
  | .sync _ => True
  | .scheduleBackendSync | .setFailOverCacheConfig | .finishReplay =>
    v.dataStore_.offset ≠ 0 → v.dataStore_.number + 1 < 2 ^ 32
  | .replay e => ReplayOk (load v a.2) e

theorem init_inv {n sco_mult : Nat} (hn : n + 1 < 2 ^ 32) : Inv sums (init n sco_mult : Volume D) := by
  refine Fresh.inv ⟨⟨rfl, Nat.succ_pos n, hn, ?_, fun _ => rfl, ?_, ?_⟩, Sealed.past_nil⟩
  · show 0 < 2 ^ 16
    decide
  · exact fun ho => absurd ho (by simp [init])
  · exact fun ho => absurd ho (by simp [init])

theorem step_inv (v : Volume D) (a : Action D × List Bool) (h : Inv sums v) (hreg : Regular v a) :
    Inv sums (step sums v a) := by
  obtain ⟨a, fails⟩ := a
  have hload : Inv sums (load v fails) := ⟨h.ds.load fails, h.tlog⟩
  cases a with
  | write max_entries ca buf =>
    obtain ⟨hpos, hlt, hle, hroom⟩ := hreg
    exact (writeChunks_triple sums max_entries _ ca buf).after ⟨hload, hpos, hlt, hle, hroom⟩
  | sync append_chksum => exact (sync_triple sums append_chksum).after hload
  | scheduleBackendSync => exact (scheduleBackendSync_triple sums).after ⟨hload, hreg⟩
  | setFailOverCacheConfig => exact (rolloverForDtl_triple sums).after ⟨hload, hreg⟩
  | replay e => exact (replay_triple sums e).after ⟨hload, hreg⟩
  | finishReplay => exact (finishReplay_triple sums).after ⟨hload, hreg⟩

/-- Every run in which nothing wraps and no replayed cluster fails twice between two SCOs leaves
TLogs that are fit for recovery. -/
theorem tlogs_well_formed {n sco_mult : Nat} (hn : n + 1 < 2 ^ 32) (as : List (Action D × List Bool))
    (h : Each (step sums) Regular (init n sco_mult) as) :
    Sealed.WellFormed (Sealed.sumsOf sums.crc (runs (step sums) (init n sco_mult) as).dataStore_.scos)
      (tlogs (runs (step sums) (init n sco_mult) as)) :=
  (runs_invariant (Inv sums) (step_inv sums) (init_inv sums hn) h).wellFormed

namespace Sample

/-- A cluster of the DTL. -/
def entry (ca n o : Nat) : DtlEntry Unit := ⟨ca, ⟨⟨n, 0, 0⟩, o⟩, ()⟩

/-- Two SCOs are replayed, the second one at the second attempt; then there is a write. -/
def regular : List (Action Unit × List Bool) :=
  [(.replay (entry 0 4 0), [true]), (.replay (entry 0 4 0), []), (.replay (entry 1 5 0), [true]), (.finishReplay, []),
    (.write 8 0 [(), ()], [])]

/-- The first cluster of the second SCO fails twice: when the SCO before it is finalised, and when
it is written. The next attempt succeeds. -/
def lost : List (Action Unit × List Bool) :=
  [(.replay (entry 0 4 0), []), (.replay (entry 1 5 0), [true, true]), (.replay (entry 1 5 0), [])]

end Sample

open Sample

theorem tlogs_well_formed_replayed :
    Sealed.WellFormed (Sealed.sumsOf Sums.lengths.crc (runs (step .lengths) (init 3 2) regular).dataStore_.scos)
      (tlogs (runs (step .lengths) (init 3 2) regular)) :=
  tlogs_well_formed .lengths (by decide) regular
    ⟨⟨by decide, by decide, by decide, by decide⟩, ⟨by decide, by decide, by decide, by decide⟩,
      ⟨by decide, by decide, by decide, by decide⟩, fun _ => by decide,
      ⟨by decide, by decide, by decide, by decide⟩, trivial⟩

/-- The checksum of the SCO that was finalised in the failed attempt is nowhere in the TLog, and
the check on a local restart throws. -/
theorem checksum_lost :
    ¬ Sealed.WellFormed (Sealed.sumsOf Sums.lengths.crc (runs (step .lengths) (init 3 2) lost).dataStore_.scos)
      (tlogs (runs (step .lengths) (init 3 2) lost)) := by
  intro h
  have hall := h.accepted [] (tlogs (runs (step .lengths) (init 3 2) lost)) [] (by simp)
  exact hall rfl

end TLogRuns

end VolumeDriver
