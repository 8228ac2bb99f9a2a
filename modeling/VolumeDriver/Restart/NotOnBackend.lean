/-
The local TLogs of a volume that restarts (trim_current_tlogs and replay_tlogs_not_on_backend in
VolumeFactory.cpp): those that are not on the backend are scanned in order; where the scan stops the
TLog is truncated, the later ones are removed, and the snapshots file is cut after it.
-/
import VolumeDriver.Snapshot.Written
import VolumeDriver.Restart.Scanner

namespace VolumeDriver

open Lib LocalTLogScanner Function List SnapshotPersistor

namespace Restart

/-- The files of the volume's TLog directory. -/
abbrev TLogFiles := TLogId → Option TLogFile

/-- Cuts the snapshots file after a TLog and corrects the size of that TLog. -/
def trim_current_tlogs (sp : SnapshotPersistor) (clusterSize : Nat) (tlogs : TLogFiles) (tlog_id : TLogId) :
    Except Exn SnapshotPersistor :=
  match tlogs tlog_id with
  | none => throw (.ioException "Could not open TLog")
  | some f => do
    -- `nextLocation` reads to the end, which fails if the file was cut within an entry
    VERIFY (f.tail = 0) "max_pos % Entry::getDataSize() == 0"
    let newsize := (bindings f.entries).length * clusterSize
    let (sp, res) := sp.snip tlog_id (some newsize)
    VERIFY (res = true) "res"
    pure sp

/-- `FileUtils::truncate` of a TLog to a number of entries. -/
def truncate (tlogs : TLogFiles) (tnas : TLogId × Nat) : Except Exn TLogFiles :=
  match tlogs tnas.1 with
  | none => throw (.ioException "Could not truncate TLog")
  | some f => pure (update tlogs tnas.1 (some (f.truncate tnas.2)))

variable {σ : Type}

/-- Returns the metadata store, the snapshots file and the TLog directory as they are left. -/
def replay_tlogs_not_on_backend (env : ScanEnv) (md : MetaDataStoreCalls σ) (clusterSize : Nat) (mdstore : σ)
    (sp : SnapshotPersistor) (tlogs : TLogFiles) : Except Exn (σ × SnapshotPersistor × TLogFiles) := do
  let tlogs_not_on_backend ← sp.getTLogsNotWrittenToBackend []
  let tlog_scanner ← tlogs_not_on_backend.foldlM (scanTLog env md) { mdstore_ := mdstore, tlogs_ := tlogs }
  if tlog_scanner.aborted_ then do
    let tnas ← tlog_scanner.last_good_tlog
    let tlogs ← truncate tlog_scanner.tlogs_ tnas
    let sp ← trim_current_tlogs sp clusterSize tlogs tnas.1
    pure (tlog_scanner.mdstore_, sp, tlogs)
  else do
    let current_ones := sp.getCurrentTLogs []
    VERIFY (current_ones ≠ []) "not current_ones.empty()"
    let sp ← trim_current_tlogs sp clusterSize tlog_scanner.tlogs_ (current_ones.getLast?.getD 0)
    pure (tlog_scanner.mdstore_, sp, tlog_scanner.tlogs_)

/-! ## The scan of all TLogs -/

/-- TLogs and what was kept of each. -/
abbrev KeptTLogs := List (TLogId × List Entry)

/-- A call on the metadata store. -/
inductive Call
  | cork (id : UUID)
  | writeCluster (ca : ClusterAddress) (loc : ClusterLocationAndHash)
  deriving DecidableEq, Repr

/-- The store after one call. -/
def perform (md : MetaDataStoreCalls σ) (s : σ) : Call → σ
  | .cork id => md.cork s id
  | .writeCluster ca loc => md.writeCluster s ca loc

/-- The writes that entries stand for: address and location of each location entry, in order. -/
def writes (l : List Entry) : List Call :=
  (l.filter (·.isLocation)).map fun e => .writeCluster e.clusteraddress e.loc_and_hash

/-- What the TLogs `kept` stand for: of each the cork, then its writes. -/
def calls (kept : KeptTLogs) : List Call := kept.flatMap fun p => .cork p.1 :: writes p.2

/-- The metadata store after the calls that the TLogs `kept` stand for. -/
def replayAll (md : MetaDataStoreCalls σ) (s : σ) (kept : KeptTLogs) : σ := (calls kept).foldl (perform md) s

/-- The files on disk are what was kept, and every location in them was verified. -/
def OnDisk (env : ScanEnv) (tlogs : TLogFiles) (kept : KeptTLogs) : Prop :=
  ∀ p ∈ kept, tlogs p.1 = some { entries := p.2 } ∧ Verified env p.1 p.2

variable {env : ScanEnv} {md : MetaDataStoreCalls σ}

theorem writeAll_bindings (s : σ) (l : List Entry) : writeAll md s (bindings l) = (writes l).foldl (perform md) s := by
  simp only [writeAll, bindings, writes, foldl_map]
  rfl

theorem replayAll_cons (s : σ) (id : TLogId) (l : List Entry) (kept : KeptTLogs) :
    replayAll md s ((id, l) :: kept) = replayAll md (writeAll md (md.cork s id) (bindings l)) kept := by
  simp [replayAll, calls, writeAll_bindings, perform]

theorem scanAll_aborted : ∀ (ids : List TLogId) {sc sc' : LocalTLogScanner σ}, sc.aborted_ = true →
    ids.foldlM (scanTLog env md) sc = .ok sc' →
    sc'.aborted_ = true ∧ sc'.last_good_tlog_ = sc.last_good_tlog_ ∧ sc'.mdstore_ = sc.mdstore_ ∧
      ∀ id ∉ ids, sc'.tlogs_ id = sc.tlogs_ id
  | [], sc, sc', ha, h => by
    rw [foldlM_nil] at h
    rw [← pure_ok h]
    exact ⟨ha, rfl, rfl, fun _ _ => rfl⟩
  | id :: ids, sc, sc', ha, h => by
    rw [foldlM_cons] at h
    obtain ⟨sc₁, h1, h2⟩ := bind_ok h
    have hsc := scanTLog_aborted ha h1
    subst hsc
    obtain ⟨h3, h4, h5, h6⟩ := scanAll_aborted ids (by exact ha) h2
    refine ⟨h3, h4, h5, ?_⟩
    intro x hx
    rw [mem_cons, not_or] at hx
    rw [h6 x hx.2]
    exact update_of_ne hx.1 _ _

/-- The scan of all TLogs: each is kept as it is, or one of them is kept in part and none after it. -/
theorem scanAll_spec : ∀ (ids : List TLogId) {sc sc' : LocalTLogScanner σ}, ids.Nodup → sc.aborted_ = false →
    ids.foldlM (scanTLog env md) sc = .ok sc' →
    (∃ kept : KeptTLogs, sc'.aborted_ = false ∧ ids = kept.map Prod.fst ∧ OnDisk env sc.tlogs_ kept ∧
      sc'.tlogs_ = sc.tlogs_ ∧ sc'.mdstore_ = replayAll md sc.mdstore_ kept) ∨
    (∃ (kept : KeptTLogs) (id : TLogId) (n : Nat) (f : TLogFile) (rest : List TLogId),
      sc'.aborted_ = true ∧ ids = kept.map Prod.fst ++ id :: rest ∧ OnDisk env sc.tlogs_ kept ∧
      sc.tlogs_ id = some f ∧ Verified env id (f.entries.take n) ∧ sc'.last_good_tlog_ = (id, n) ∧
      (∀ x ∉ rest, sc'.tlogs_ x = sc.tlogs_ x) ∧
      sc'.mdstore_ = replayAll md sc.mdstore_ (kept ++ [(id, f.entries.take n)]))
  | [], sc, sc', _, ha, h => by
    rw [foldlM_nil] at h
    rw [← pure_ok h]
    exact Or.inl ⟨[], ha, rfl, by simp [OnDisk], rfl, rfl⟩
  | id :: ids, sc, sc', hn, ha, h => by
    rw [foldlM_cons] at h
    obtain ⟨sc₁, h1, h2⟩ := bind_ok h
    rw [nodup_cons] at hn
    obtain ⟨f, hf, htlogs, hout⟩ := scanTLog_spec ha h1
    rcases hout with ⟨ha₁, htail, hk⟩ | ⟨ha₁, n, hlast, _, hk⟩
    · -- the TLog is kept, and the scan goes on
      have hhead : ∀ {kept : KeptTLogs}, OnDisk env sc₁.tlogs_ kept →
          OnDisk env sc.tlogs_ ((id, f.entries) :: kept) := by
        intro kept hd
        rw [htlogs] at hd
        rintro p hp
        rcases mem_cons.1 hp with rfl | hp
        · refine ⟨?_, hk.verified⟩
          rw [hf]
          cases f; cases htail; rfl
        · exact hd p hp
      rcases scanAll_spec ids hn.2 ha₁ h2 with
        ⟨kept, h3, h4, h5, h6, h7⟩ | ⟨kept, x, n, g, rest, h3, h4, h5, h6, h7, h8, h9, h10⟩
      · refine Or.inl ⟨(id, f.entries) :: kept, h3, by rw [h4]; rfl, hhead h5, h6.trans htlogs, ?_⟩
        rw [h7, hk.store, replayAll_cons]
      · refine Or.inr ⟨(id, f.entries) :: kept, x, n, g, rest, h3, by rw [h4]; rfl, hhead h5, ?_, h7, h8, ?_, ?_⟩
        · rw [← htlogs]; exact h6
        · intro y hy; rw [h9 y hy, htlogs]
        · rw [h10, hk.store, cons_append, replayAll_cons]
    · -- the scan was aborted here
      obtain ⟨h3, h4, h5, h6⟩ := scanAll_aborted ids ha₁ h2
      refine Or.inr ⟨[], id, n, f, ids, h3, rfl, by simp [OnDisk], hf, hk.verified, h4.trans hlast, ?_, ?_⟩
      · intro x hx; rw [h6 x hx, htlogs]
      · rw [h5, hk.store, nil_append, replayAll_cons]; rfl

end Restart

/-! ## The snapshots file -/

namespace SnapshotPersistor

variable {sp : SnapshotPersistor}

/-- The ids of the TLogs that are not marked. -/
def unwritten (l : TLogs) : List TLogId := (l.filter (·.written_to_backend = false)).map (·.id)

theorem collectTLogs_writtenFirst {written : Bool} : ∀ {l : TLogs} {seen : Bool} {out out' : List TLogId},
    (∀ t ∈ l, sp.isTLogWrittenToBackend t.id = t.written_to_backend) →
    sp.collectTLogs written seen (l.map (·.id)) out = .ok out' →
    l.WrittenFirst ∧ (seen = false → ∀ t ∈ l, t.written_to_backend = false)
  | [], _, _, _, _, _ => ⟨List.Pairwise.nil, by simp⟩
  | t :: l, seen, out, out', hq, h => by
    have hq' : ∀ t ∈ l, sp.isTLogWrittenToBackend t.id = t.written_to_backend :=
      fun x hx => hq x (mem_cons_of_mem _ hx)
    rw [map_cons, collectTLogs, hq t (mem_cons_self ..)] at h
    cases ht : t.written_to_backend with
    | true =>
      rw [ht, if_pos rfl] at h
      obtain ⟨hseen, h⟩ := VERIFY_bind_ok h
      refine ⟨pairwise_cons.2 ⟨fun _ _ _ => ht, (collectTLogs_writtenFirst hq' h).1⟩, ?_⟩
      rw [hseen]
      intro hcontra; cases hcontra
    | false =>
      rw [ht, if_neg (by simp)] at h
      obtain ⟨h1, h2⟩ := collectTLogs_writtenFirst hq' h
      constructor
      · -- all that follow are unwritten, too
        refine pairwise_cons.2 ⟨?_, h1⟩
        intro x hx hxw
        rw [h2 rfl x hx] at hxw; cases hxw
      · rintro - x hx
        rcases mem_cons.1 hx with rfl | hx
        · exact ht
        · exact h2 rfl x hx

theorem Inv.notWritten (hi : sp.Inv) {ids : List TLogId} (h : sp.getTLogsNotWrittenToBackend [] = .ok ids) :
    sp.allTLogs.WrittenFirst ∧ ids = unwritten sp.allTLogs := by
  have hq : ∀ t ∈ sp.allTLogs, sp.isTLogWrittenToBackend t.id = t.written_to_backend :=
    fun t ht => hi.isTLogWrittenToBackend ht
  unfold getTLogsNotWrittenToBackend at h
  rw [hi.getAllTLogs] at h
  have hw := (collectTLogs_writtenFirst hq h).1
  rw [SnapshotPersistor.ids, collectTLogs_ok false [] hw hq (by simp)] at h
  exact ⟨hw, by cases h; rfl⟩

theorem Inv.notWritten_ok (hi : sp.Inv) (hw : sp.allTLogs.WrittenFirst) :
    sp.getTLogsNotWrittenToBackend [] = .ok (unwritten sp.allTLogs) := by
  unfold getTLogsNotWrittenToBackend
  rw [hi.getAllTLogs]
  exact collectTLogs_ok false [] hw (fun t ht => hi.isTLogWrittenToBackend ht) (by simp)

theorem snip_allTLogs {tid : TLogId} {sz : Option Nat} (h : (sp.snip tid sz).2 = true) :
    ∃ pre t post, sp.allTLogs = pre ++ t :: post ∧ t.id = tid ∧
      (sp.snip tid sz).1.allTLogs = pre ++ [{ t with size := sz.getD t.size }] := by
  unfold snip at h ⊢
  unfold allTLogs
  rcases Snapshots.snip_cases sp.snapshots tid sz with ⟨h1, _⟩ | ⟨l₁, s, l₂, ts, hs, hts, _, h1⟩
  · rw [h1] at h ⊢
    cases hc : sp.current.snip tid sz with
    | none => rw [hc] at h; cases h
    | some ts =>
      obtain ⟨a, t, b, hcur, ht, _, rfl⟩ := TLogs.snip_some hc
      refine ⟨sp.snapshots.allTLogs ++ a, t, b, by rw [hcur]; simp, ht, by simp⟩
  · rw [h1]
    obtain ⟨a, t, b, htl, ht, _, rfl⟩ := TLogs.snip_some hts
    refine ⟨Snapshots.allTLogs l₁ ++ a, t, b ++ Snapshots.allTLogs l₂ ++ sp.current, ?_, ht, by simp⟩
    rw [hs, Snapshots.allTLogs_append, Snapshots.allTLogs_cons, htl]
    simp

theorem Inv.snip_notWritten (hi : sp.Inv) (hw : sp.allTLogs.WrittenFirst) {tid : TLogId} {sz : Option Nat}
    (h : (sp.snip tid sz).2 = true) :
    ∃ pre t post, sp.allTLogs = pre ++ t :: post ∧ t.id = tid ∧
      (sp.snip tid sz).1.getTLogsNotWrittenToBackend [] = .ok (unwritten (pre ++ [t])) := by
  obtain ⟨pre, t, post, h1, h2, h3⟩ := snip_allTLogs h
  refine ⟨pre, t, post, h1, h2, ?_⟩
  have hi' : (sp.snip tid sz).1.Inv := hi.trans (@snip_trans False sp tid sz)
  have hw' : (sp.snip tid sz).1.allTLogs.WrittenFirst := by
    refine hw.of_sublist ?_
    rw [h1, h3]
    simp
  rw [hi'.notWritten_ok hw', h3]
  unfold unwritten
  cases ht : t.written_to_backend <;> simp [ht]

end SnapshotPersistor

/-! ## Agreement -/

namespace Restart

variable {σ : Type} {env : ScanEnv} {md : MetaDataStoreCalls σ}

theorem trim_current_tlogs_ok {sp sp' : SnapshotPersistor} {clusterSize : Nat} {tlogs : TLogFiles} {tlog_id : TLogId}
    (h : trim_current_tlogs sp clusterSize tlogs tlog_id = .ok sp') :
    ∃ sz, (sp.snip tlog_id sz).2 = true ∧ sp' = (sp.snip tlog_id sz).1 := by
  unfold trim_current_tlogs at h
  split at h
  · cases h
  · obtain ⟨-, h⟩ := VERIFY_bind_ok h
    obtain ⟨hres, h⟩ := VERIFY_bind_ok h
    exact ⟨_, hres, (pure_ok h).symm⟩

/-- Cutting after an unwritten TLog keeps the unwritten ones up to it. -/
theorem unwritten_cut {l pre post : TLogs} {t : TLog} {ids rest : List TLogId} (hl : l = pre ++ t :: post)
    (hn : (l.map (·.id)).Nodup) (h : unwritten l = ids ++ t.id :: rest) :
    unwritten (pre ++ [t]) = ids ++ [t.id] := by
  have ht : t.written_to_backend = false := by
    have hmem : t.id ∈ unwritten l := by rw [h]; simp
    obtain ⟨x, hx, hid⟩ := mem_map.1 hmem
    rw [mem_filter] at hx
    -- ids are distinct, so the unwritten TLog of that id is `t`
    have hxt : x = t := inj_on_of_nodup_map hn hx.1 (by rw [hl]; simp) hid
    rw [← hxt]; simpa using hx.2
  rw [hl, map_append, map_cons, nodup_append, nodup_cons] at hn
  have hpre : t.id ∉ unwritten pre := by
    intro hm
    obtain ⟨x, hx, hid⟩ := mem_map.1 hm
    exact hn.2.2 _ (mem_map_of_mem (mem_of_mem_filter hx)) _ (mem_cons_self ..) hid
  have hpost : t.id ∉ unwritten post := by
    intro hm
    obtain ⟨x, hx, hid⟩ := mem_map.1 hm
    exact hn.2.1.1 (hid ▸ mem_map_of_mem (mem_of_mem_filter hx))
  have hsplit : unwritten l = unwritten pre ++ t.id :: unwritten post := by
    rw [hl]; simp [unwritten, ht]
  rw [hsplit, append_cons_inj_of_notMem hpre hpost] at h
  rw [← h.1]
  simp [unwritten, ht]

/-- The last current TLog is the last of all. -/
theorem last_current {sp : SnapshotPersistor} (hi : sp.Inv) {pre post : TLogs} {t : TLog}
    (hl : sp.allTLogs = pre ++ t :: post) (ht : t.id = (sp.getCurrentTLogs []).getLast?.getD 0) : post = [] := by
  obtain ⟨front, x, hx⟩ : ∃ front x, sp.current = front ++ [x] :=
    (eq_nil_or_concat' sp.current).resolve_left hi.current
  have hid : t.id = x.id := by
    rw [ht, getCurrentTLogs, TLogs.getOrderedTLogIds, hx]; simp
  have hn : (pre.map (·.id) ++ t.id :: post.map (·.id)).Nodup := by
    have := hi.ids
    rw [ids, hl] at this
    simpa using this
  have heq : pre.map (·.id) ++ t.id :: post.map (·.id) = (sp.snapshots.allTLogs ++ front).map (·.id) ++ t.id :: [] := by
    have := congrArg (List.map (·.id)) hl
    rw [allTLogs, hx] at this
    simpa [hid] using this.symm
  rw [nodup_append, nodup_cons] at hn
  have hpre : t.id ∉ pre.map (·.id) := fun hm => hn.2.2 _ hm _ (mem_cons_self ..) rfl
  rw [append_cons_inj_of_notMem hpre hn.2.1.1] at heq
  exact map_eq_nil_iff.1 heq.2.2

/-- However the local TLogs were cut and whatever the SCO checks say: when the replay returns, the
TLogs that the snapshots file has as not on the backend are those that were kept, their files are what
was kept of them, every location in a file was verified, and the calls made on the metadata store are
the cork of one file and then address and location of each of its location entries, file after file. -/
theorem replay_not_on_backend_agrees {parent : Option ParentConfig} {sp sp' : SnapshotPersistor} {clusterSize : Nat}
    {mdstore mdstore' : σ} {tlogs tlogs' : TLogFiles}
    (hsp : SnapshotPersistor.Reachable SnapshotPersistor.Legal parent sp)
    (h : replay_tlogs_not_on_backend env md clusterSize mdstore sp tlogs = .ok (mdstore', sp', tlogs')) :
    ∃ kept : KeptTLogs, sp'.getTLogsNotWrittenToBackend [] = .ok (kept.map Prod.fst) ∧ OnDisk env tlogs' kept ∧
      mdstore' = replayAll md mdstore kept := by
  have hi := hsp.inv
  obtain ⟨ids, hids, hrun⟩ := bind_ok h
  obtain ⟨hw, hun⟩ := hi.notWritten hids
  subst hun
  obtain ⟨sc, hscan, h⟩ := bind_ok hrun
  have hnodup : (unwritten sp.allTLogs).Nodup := hi.ids.sublist (filter_sublist.map _)
  rcases scanAll_spec _ hnodup rfl hscan with
    ⟨kept, h1, h2, h3, h4, h5⟩ | ⟨kept, id, n, f, rest, h1, h2, h3, h4, h5, h6, h7, h8⟩
  · -- nothing was aborted: the cut is after the last current TLog
    rw [if_neg (by simp [h1])] at h
    obtain ⟨-, h⟩ := VERIFY_bind_ok h
    obtain ⟨sp₁, htrim, h⟩ := bind_ok h
    cases pure_ok h
    obtain ⟨sz, hres, rfl⟩ := trim_current_tlogs_ok htrim
    obtain ⟨pre, t, post, h6, h7, h8⟩ := hi.snip_notWritten hw hres
    rw [last_current hi h6 h7] at h6
    refine ⟨kept, ?_, by rw [h4]; exact h3, h5⟩
    rw [h8, ← h6, h2]
  · rw [if_pos h1] at h
    obtain ⟨tnas, hlast, h⟩ := bind_ok h
    obtain ⟨tlogs₁, htrunc, h⟩ := bind_ok h
    obtain ⟨sp₁, htrim, h⟩ := bind_ok h
    cases pure_ok h
    obtain ⟨-, hlast⟩ := VERIFY_bind_ok hlast
    have htnas : tnas = (id, n) := (pure_ok hlast).symm.trans h6
    subst htnas
    obtain ⟨sz, hres, rfl⟩ := trim_current_tlogs_ok htrim
    obtain ⟨pre, t, post, h9, rfl, h10⟩ := hi.snip_notWritten hw hres
    rw [h2, nodup_append, nodup_cons] at hnodup
    refine ⟨kept ++ [(t.id, f.entries.take n)], ?_, ?_, h8⟩
    · rw [h10, unwritten_cut h9 hi.ids h2]
      simp
    · unfold truncate at htrunc
      rw [h7 t.id hnodup.2.1.1, h4] at htrunc
      rw [← pure_ok htrunc]
      intro p hp
      rcases mem_append.1 hp with hp | hp
      · -- a TLog before the one that was cut
        have hne : p.1 ≠ t.id := hnodup.2.2 _ (mem_map_of_mem hp) _ (mem_cons_self ..)
        have hrest : p.1 ∉ rest := fun hm => hnodup.2.2 _ (mem_map_of_mem hp) _ (mem_cons_of_mem _ hm) rfl
        rw [update_of_ne hne, h7 _ hrest]
        exact h3 p hp
      · rw [mem_singleton.1 hp]
        exact ⟨update_self .., h5⟩

/-- Three TLogs; at the second one the check of the SCO fails, so its locations go and the third TLog
is removed. The metadata store is the list of the calls made on it. -/
theorem replay_not_on_backend_agrees_aborted :
    let loc (n : Nat) : Entry := ⟨n, ⟨⟨⟨n, 0, 0⟩, 0⟩, 0⟩⟩
    let scoCRC : Entry := ⟨2 <<< 32, .zero⟩
    let tlogCRC : Entry := ⟨1 <<< 32, .zero⟩
    let file (n : Nat) : TLogFile := { entries := [loc n, scoCRC, tlogCRC] }
    let env : ScanEnv := { checkSCO := fun id _ _ _ => .ok (id ≠ 2), crc := fun _ => 0 }
    let md : MetaDataStoreCalls (List Call) :=
      { cork := fun s u => s ++ [.cork u], writeCluster := fun s ca loc => s ++ [.writeCluster ca loc] }
    let made : List Call := [.cork 1, .writeCluster 1 ⟨⟨⟨1, 0, 0⟩, 0⟩, 0⟩, .cork 2]
    let sp := ((init none 0 1).step (.newTLog 2)).step (.newTLog 3)
    ∃ sp' tlogs', replay_tlogs_not_on_backend env md 4096 [] sp (fun id => some (file id)) = .ok (made, sp', tlogs') ∧
      tlogs' 3 = none ∧ ∃ kept : KeptTLogs, sp'.getTLogsNotWrittenToBackend [] = .ok (kept.map Prod.fst) ∧
        OnDisk env tlogs' kept ∧ made = replayAll md [] kept := by
  intro loc scoCRC tlogCRC file env md made sp
  have hsp : SnapshotPersistor.Reachable SnapshotPersistor.Legal none sp :=
    .step (.step (.init 0 1) ⟨by decide, by decide⟩) ⟨by decide, by decide⟩
  have hfst : (replay_tlogs_not_on_backend env md 4096 [] sp (fun id => some (file id))).toOption.map
      (fun r => (r.1, r.2.2 3)) = some (made, none) := by decide
  obtain ⟨⟨s, sp', tlogs'⟩, hrun, hfst⟩ := toOption_map_ok hfst
  obtain ⟨rfl, h3⟩ := Prod.mk.inj hfst
  exact ⟨sp', tlogs', hrun, h3, replay_not_on_backend_agrees hsp hrun⟩

end Restart

end VolumeDriver
