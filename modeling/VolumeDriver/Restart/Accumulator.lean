/-
The TLogs between two corks (BackendRestartAccumulator.cpp), over the snapshots files of a volume and
of the volumes it was cloned from, oldest first. Each file is visited once: the volume's own snapshot
by snapshot, an ancestor's up to the snapshot its clone was taken from in one go. Here the code, and
what it does as a list of visits.
-/
import VolumeDriver.Snapshot.Persistor
import VolumeDriver.MetaData.CloneTLogs
import VolumeDriver.Lib.Interval

namespace VolumeDriver

open Lib List Snapshots

namespace SnapshotPersistor

/-- The ids of the current TLogs on the backend. -/
def getCurrentTLogsWrittenToBackend (sp : SnapshotPersistor) : List TLogId :=
  (sp.current.filter (·.written_to_backend)).map (·.id)

end SnapshotPersistor

/-- `start_seen_` and `end_seen_`: the corks that were come across; `clone_tlogs_` is the result so far. -/
structure BackendRestartAccumulator where
  start_cork_ : Option UUID
  end_cork_ : Option UUID
  start_seen_ : Bool
  end_seen_ : Bool := false
  clone_tlogs_ : CloneTLogs := []
  deriving DecidableEq, Repr

open BackendRestartAccumulator

namespace BackendRestartAccumulator

/-! ## The code -/

/-- The constructor. -/
def create (start_cork end_cork : Option UUID) : Except Exn BackendRestartAccumulator := do
  VERIFY (¬(start_cork ≠ none ∧ start_cork = end_cork)) "not (start_cork != boost::none and start_cork == end_cork)"
  pure { start_cork_ := start_cork, end_cork_ := end_cork, start_seen_ := start_cork.isNone }

variable (acc : BackendRestartAccumulator)

/-- The start cork itself is not collected, what comes after it is. -/
def collect (tlogs : List TLogId) (tlog_id : TLogId) :
    Except Exn (BackendRestartAccumulator × List TLogId) :=
  if acc.start_cork_ = some tlog_id then do
    VERIFY (acc.start_seen_ = false) "not start_seen_"
    pure ({ acc with start_seen_ := true }, tlogs)
  else pure (acc, if acc.start_seen_ then tlogs ++ [tlog_id] else tlogs)

/-- The loop of `walk_tlogs`. -/
def walk (acc : BackendRestartAccumulator) (tlogs : List TLogId) :
    List TLogId → Except Exn (BackendRestartAccumulator × List TLogId)
  | [] => pure (acc, tlogs)
  | tlog_id :: tlog_ids => do
    let (acc, tlogs) ← acc.collect tlogs tlog_id
    if acc.end_cork_ = some tlog_id then pure ({ acc with end_seen_ := true }, tlogs)
    else walk acc tlogs tlog_ids

/-- Collects from the TLogs in turn, up to the end cork. -/
def walk_tlogs (tlogs tlog_ids : List TLogId) :
    Except Exn (BackendRestartAccumulator × List TLogId) := do
  VERIFY (acc.end_seen_ = false) "not end_seen_"
  acc.walk tlogs tlog_ids

/-- The cork of a snapshot names its end, also when scrubbing replaced the TLog of that id. -/
def check_cork_id_of_empty_snap (cork : UUID) : BackendRestartAccumulator :=
  let acc := if acc.start_seen_ = false ∧ acc.start_cork_ = some cork then { acc with start_seen_ := true } else acc
  if acc.end_seen_ = false ∧ acc.end_cork_ = some cork then { acc with end_seen_ := true } else acc

/-- The loop over the volume's own snapshots. -/
def walk_snapshots (acc : BackendRestartAccumulator) (tlogs : List TLogId) :
    Snapshots → Except Exn (BackendRestartAccumulator × List TLogId)
  | [] => pure (acc, tlogs)
  | snap :: snaps => do
    let (acc, tlogs) ← acc.walk_tlogs tlogs (snap.tlogs.getOrderedTLogIds [])
    let acc := acc.check_cork_id_of_empty_snap snap.cork_uuid
    if acc.end_seen_ then pure (acc, tlogs) else walk_snapshots acc tlogs snaps

/-- The TLogs of one file. -/
def walk_file (sp : SnapshotPersistor) (snapshot_name : SnapshotName)
    (clone_id : SCOCloneID) : Except Exn (BackendRestartAccumulator × List TLogId) :=
  if acc.end_seen_ then pure (acc, [])
  else if clone_id = 0 then do
    let (acc, tlogs) ← acc.walk_snapshots [] sp.snapshots
    if acc.end_seen_ then pure (acc, tlogs)
    else acc.walk_tlogs tlogs sp.getCurrentTLogsWrittenToBackend
  else do
    VERIFY (snapshot_name ≠ "") "not snapshot_name.empty()"
    match sp.snapshots.find_name snapshot_name with
    | none => throw (.snapshotNotFound ("Could not find snapshot " ++ snapshot_name))
    | some snap => do
      let parent_tlogs ← sp.getTLogsTillSnapshot snap.num []
      let (acc, tlogs) ← acc.walk_tlogs [] parent_tlogs
      pure (acc.check_cork_id_of_empty_snap snap.cork_uuid, tlogs)

/-- `operator()`. -/
def call (sp : SnapshotPersistor) (snapshot_name : SnapshotName)
    (clone_id : SCOCloneID) : Except Exn BackendRestartAccumulator := do
  let (acc, tlogs) ← acc.walk_file sp snapshot_name clone_id
  pure { acc with clone_tlogs_ := acc.clone_tlogs_ ++ [(clone_id, tlogs)] }

/-- The result, if both corks were come across. -/
def clone_tlogs : Except Exn CloneTLogs :=
  if acc.start_seen_ = false then .error .corkNotFound
  else if acc.end_cork_ ≠ none ∧ acc.end_seen_ = false then .error .corkNotFound
  else .ok acc.clone_tlogs_

/-- A snapshots file, and of an ancestor the snapshot that the next volume was cloned from. -/
structure Member where
  sp : SnapshotPersistor
  snapshot_name : SnapshotName := ""
  deriving DecidableEq, Repr

/-- `SnapshotPersistor::vold` from the oldest file on, over a volume's file, its parent's and so on. The
clone id is a byte. -/
def vold (acc : BackendRestartAccumulator) : List Member → SCOCloneID → Except Exn BackendRestartAccumulator
  | [], _ => pure acc
  | m :: parents, start => do
    let acc ← acc.vold parents ((start + 1) % 2 ^ 8)
    acc.call m.sp m.snapshot_name start

/-- The TLogs of a chain from `start_cork` to `end_cork`. -/
def accumulate (chain : List Member) (start_cork end_cork : Option UUID) : Except Exn CloneTLogs := do
  let acc ← create start_cork end_cork
  let acc ← acc.vold chain 0
  acc.clone_tlogs

/-! ## Chains -/

/-- TLogs, and the cork that names the end of the last of them. -/
structure Visit where
  tlogs : List TLogId
  cork : Option UUID
  deriving DecidableEq, Repr

/-- The part of a snapshot. -/
def segment (s : Snapshot) : Visit := ⟨s.tlogs.map (·.id), some s.cork_uuid⟩

/-- The TLogs of a file: a part for each snapshot, and the current ones. -/
def Member.segments (m : Member) : List Visit :=
  m.sp.snapshots.map segment ++ [⟨m.sp.getCurrentTLogsWrittenToBackend, none⟩]

/-- The TLogs of a chain, oldest first. -/
def segments : List Member → List Visit
  | [] => []
  | m :: parents => segments parents ++ m.segments

/-- The parts in which the code visits a file. -/
def Member.visits (m : Member) (clone_id : SCOCloneID) : List Visit :=
  if clone_id = 0 then m.segments
  else [⟨m.sp.snapshots.allTLogs.map (·.id), (m.sp.snapshots.find_name m.snapshot_name).map (·.cork_uuid)⟩]

/-- The parts in which the code visits a chain. -/
def visits : List Member → SCOCloneID → List Visit
  | [], _ => []
  | m :: parents, start => visits parents ((start + 1) % 2 ^ 8) ++ m.visits start

/-- The TLogs of the visits. -/
def tlogsOf (vs : List Visit) : List TLogId := vs.flatMap (·.tlogs)

/-- What counts of an ancestor's file: all up to the snapshot that its clone was taken from. -/
def Member.cut (m : Member) : Member :=
  { m with sp := { m.sp with snapshots := through Snapshot.name m.snapshot_name m.sp.snapshots, current := [] } }

/-- A volume's own file, and what counts of the others. -/
def cut : List Member → List Member
  | [] => []
  | m :: parents => m :: parents.map Member.cut

/-- An ancestor's file, cut at the snapshot that its clone was taken from. -/
structure Cut (m : Member) : Prop where
  snapshot : ∃ older snap, m.sp.snapshots = older ++ [snap] ∧ snap.name = m.snapshot_name ∧
    ∀ s ∈ older, s.name ≠ snap.name ∧ s.num ≠ snap.num
  named : m.snapshot_name ≠ ""
  current : m.sp.getCurrentTLogsWrittenToBackend = []

/-! ## One visit -/

/-- What a visit does. -/
def look (v : Visit) : BackendRestartAccumulator × List TLogId :=
  if acc.end_seen_ then (acc, [])
  else
    let l := throughEnd id acc.end_cork_ v.tlogs
    ({ acc with
        start_seen_ := acc.start_seen_ || acc.start_cork_.any (· ∈ l) || v.cork.any (acc.start_cork_ = some ·)
        end_seen_ := acc.end_cork_.any (· ∈ v.tlogs) || v.cork.any (acc.end_cork_ = some ·) },
      if acc.start_seen_ then l else pastStart id acc.start_cork_ l)

/-- The start cork is not seen twice in `l`, and is looked for if it was not seen. -/
structure Ready (acc : BackendRestartAccumulator) (l : List TLogId) : Prop where
  once : acc.start_seen_ = true → ∀ c ∈ acc.start_cork_, c ∉ l
  given : acc.start_seen_ = false → acc.start_cork_ ≠ none

/-- The loop over the TLogs of one visit; a start cork met twice would fail its check. -/
theorem walk_eq : ∀ {l : List TLogId} {acc : BackendRestartAccumulator} (tlogs : List TLogId), l.Nodup →
    Ready acc l → acc.end_seen_ = false →
    acc.walk tlogs l = .ok ((acc.look ⟨l, none⟩).1, tlogs ++ (acc.look ⟨l, none⟩).2)
  | [], acc, tlogs, _, hr, he => by
    obtain ⟨s, e, b, _, ctl⟩ := acc
    cases he
    have hp : pastStart id s [] = ([] : List TLogId) := by cases s <;> rfl
    have ht : throughEnd id e [] = ([] : List TLogId) := by cases e <;> rfl
    simp [walk, look, hp, ht, pure, Except.pure]
  | t :: l, acc, tlogs, hn, hr, he => by
    obtain ⟨hnt, hn⟩ := nodup_cons.1 hn
    obtain ⟨s, e, b, _, ctl⟩ := acc
    cases he
    -- what is collected of `t`, and what is left to look for
    have hcollect : collect ⟨s, e, b, false, ctl⟩ tlogs t =
        .ok (⟨s, e, b || s = some t, false, ctl⟩, if b then tlogs ++ [t] else tlogs) := by
      unfold collect
      by_cases hs : s = some t
      · have hb : b = false := by
          by_contra hb
          exact hr.once (by simpa using hb) t hs (mem_cons_self ..)
        simp [hs, hb, pure, Except.pure]
      · cases b <;> simp [hs, pure, Except.pure]
    have hr' : Ready ⟨s, e, b || s = some t, false, ctl⟩ l := by
      constructor
      case once =>
        intro hb c hc
        rcases Bool.or_eq_true_iff.1 hb with hb | hb
        · exact fun hl => hr.once hb c hc (mem_cons_of_mem t hl)
        · have : c = t := Option.some.inj (hc.symm.trans (of_decide_eq_true hb))
          rwa [this]
      case given =>
        intro hb
        exact hr.given (Bool.or_eq_false_iff.1 hb).1
    rw [walk, hcollect, ok_bind]
    by_cases hend : e = some t
    · subst hend
      have ht : throughEnd id (some t) (t :: l) = [t] := by simp [through]
      cases s with
      | none =>
        cases b <;> simp [look, ht, pure, Except.pure]
        exact absurd rfl (hr.given rfl)
      | some c => by_cases hc : c = t <;> cases b <;> simp [look, ht, hc, past, eq_comm, pure, Except.pure]
    · have ht : throughEnd id e (t :: l) = t :: throughEnd id e l := by
        cases e with
        | none => rfl
        | some k =>
          have hk : t ≠ k := fun h => hend (congrArg some h.symm)
          simp [through, hk]
      simp only [if_neg hend, walk_eq _ hn hr' rfl]
      have hany : e.any (fun k => decide (k = t) || decide (k ∈ l)) = e.any (· ∈ l) := by
        cases e with
        | none => rfl
        | some k =>
          have hk : k ≠ t := fun h => hend (congrArg some h)
          simp [hk]
      cases s with
      | none =>
        cases b with
        | false => exact absurd rfl (hr.given rfl)
        | true => simp [look, ht, hany]
      | some c =>
        by_cases hc : c = t
        · subst hc
          have hb : b = false := by
            by_contra hb
            exact hr.once (by simpa using hb) c rfl (mem_cons_self ..)
          simp [look, ht, hany, hb, past]
        · cases b <;> simp [look, ht, hany, hc, past, Ne.symm hc]

theorem look_of_end_seen {acc : BackendRestartAccumulator} (h : acc.end_seen_ = true) (v : Visit) :
    acc.look v = (acc, []) :=
  if_pos h

/-- A visit and then the cork that names its end. -/
theorem check_look {acc : BackendRestartAccumulator} (he : acc.end_seen_ = false) (l : List TLogId) (c : UUID) :
    ((acc.look ⟨l, none⟩).1.check_cork_id_of_empty_snap c, (acc.look ⟨l, none⟩).2) = acc.look ⟨l, some c⟩ := by
  obtain ⟨s, e, b, _, ctl⟩ := acc
  cases he
  simp only [look, check_cork_id_of_empty_snap, Bool.false_eq_true, if_false, Option.any_none, Option.any_some,
    Bool.or_false]
  by_cases hs : s = some c
  · by_cases he : e = some c <;> cases hb : (b || s.any (· ∈ throughEnd id e l)) <;>
      cases hd : e.any (· ∈ l) <;> simp_all
  · by_cases he : e = some c <;> cases hd : e.any (· ∈ l) <;> simp_all

/-! ## A list of visits -/

/-- Visits in turn. -/
def lookAll (acc : BackendRestartAccumulator) : List Visit → BackendRestartAccumulator × List TLogId
  | [] => (acc, [])
  | v :: vs => (((acc.look v).1.lookAll vs).1, (acc.look v).2 ++ ((acc.look v).1.lookAll vs).2)

theorem lookAll_append (vs vs' : List Visit) : ∀ acc : BackendRestartAccumulator, acc.lookAll (vs ++ vs') =
    (((acc.lookAll vs).1.lookAll vs').1, (acc.lookAll vs).2 ++ ((acc.lookAll vs).1.lookAll vs').2) := by
  induction vs with
  | nil => intro acc; rfl
  | cons v vs ih =>
    intro acc
    rw [cons_append, lookAll, lookAll, ih, append_assoc]

theorem lookAll_of_end_seen {acc : BackendRestartAccumulator} (h : acc.end_seen_ = true) : ∀ vs : List Visit,
    acc.lookAll vs = (acc, [])
  | [] => rfl
  | v :: vs => by rw [lookAll, look_of_end_seen h, lookAll_of_end_seen h vs]; rfl

theorem look_clone_tlogs (ctl : CloneTLogs) (v : Visit) :
    look { acc with clone_tlogs_ := ctl } v = ({ (acc.look v).1 with clone_tlogs_ := ctl }, (acc.look v).2) := by
  unfold look
  split <;> rfl

theorem lookAll_clone_tlogs (ctl : CloneTLogs) : ∀ (vs : List Visit) (acc : BackendRestartAccumulator),
    lookAll { acc with clone_tlogs_ := ctl } vs = ({ (acc.lookAll vs).1 with clone_tlogs_ := ctl }, (acc.lookAll vs).2)
  | [], acc => rfl
  | v :: vs, acc => by rw [lookAll, look_clone_tlogs, lookAll_clone_tlogs ctl vs, lookAll]

theorem look_corks (v : Visit) :
    (acc.look v).1.start_cork_ = acc.start_cork_ ∧ (acc.look v).1.end_cork_ = acc.end_cork_ ∧
      (acc.look v).1.clone_tlogs_ = acc.clone_tlogs_ := by
  unfold look
  split <;> exact ⟨rfl, rfl, rfl⟩

theorem lookAll_corks : ∀ (vs : List Visit) (acc : BackendRestartAccumulator),
    (acc.lookAll vs).1.start_cork_ = acc.start_cork_ ∧ (acc.lookAll vs).1.end_cork_ = acc.end_cork_ ∧
      (acc.lookAll vs).1.clone_tlogs_ = acc.clone_tlogs_
  | [], acc => ⟨rfl, rfl, rfl⟩
  | v :: vs, acc => by
    obtain ⟨h1, h2, h3⟩ := look_corks acc v
    rw [← h1, ← h2, ← h3]
    exact lookAll_corks vs (acc.look v).1

/-- Visits of different TLogs among `all`, whose corks are their last TLog or none of `all`. -/
structure Orderly (all : List TLogId) (vs : List Visit) : Prop where
  nodup : (tlogsOf vs).Nodup
  subset : tlogsOf vs ⊆ all
  ends : ∀ v ∈ vs, ∀ c ∈ v.cork, v.tlogs.getLast? = some c ∨ c ∉ all

section
variable {all : List TLogId} {v : Visit} {vs vs' : List Visit} {acc : BackendRestartAccumulator}

theorem tlogsOf_cons (v : Visit) (vs : List Visit) : tlogsOf (v :: vs) = v.tlogs ++ tlogsOf vs := rfl

theorem tlogsOf_append (vs vs' : List Visit) : tlogsOf (vs ++ vs') = tlogsOf vs ++ tlogsOf vs' := by
  simp [tlogsOf]

theorem Orderly.append (h : Orderly all (vs ++ vs')) :
    Orderly all vs ∧ Orderly all vs' ∧ (tlogsOf vs).Disjoint (tlogsOf vs') := by
  obtain ⟨hn, hs, he⟩ := h
  rw [tlogsOf_append] at hn hs
  obtain ⟨hn1, hn2, hd⟩ := nodup_append'.1 hn
  obtain ⟨hs1, hs2⟩ := append_subset.1 hs
  exact ⟨⟨hn1, hs1, fun v hv => he v (mem_append_left _ hv)⟩, ⟨hn2, hs2, fun v hv => he v (mem_append_right _ hv)⟩, hd⟩

theorem Orderly.cons (h : Orderly all (v :: vs)) :
    Orderly all [v] ∧ Orderly all vs ∧ v.tlogs.Disjoint (tlogsOf vs) := by
  rw [← singleton_append] at h
  simpa [tlogsOf] using h.append

theorem Orderly.cork_mem (h : Orderly all (v :: vs)) {c : UUID} (hc : v.cork = some c) (ha : c ∈ all) :
    c ∈ v.tlogs := by
  rcases h.ends v (mem_cons_self ..) c hc with hl | hn
  · exact mem_of_getLast? hl
  · exact absurd ha hn

theorem Ready.mono {l l' : List TLogId} (h : Ready acc l) (hl : l' ⊆ l) : Ready acc l' :=
  ⟨fun hs c hc hm => h.once hs c hc (hl hm), h.given⟩

theorem Ready.left (h : Ready acc (tlogsOf (vs ++ vs'))) : Ready acc (tlogsOf vs) :=
  h.mono (by rw [tlogsOf_append]; exact subset_append_left _ _)

/-- A visit keeps that: the start cork, once seen, is in no later visit. -/
theorem Ready.look (h : Ready acc (tlogsOf (v :: vs))) (ho : Orderly all (v :: vs)) :
    Ready (acc.look v).1 (tlogsOf vs) := by
  have hrest : Ready acc (tlogsOf vs) := h.mono (by rw [tlogsOf_cons]; exact subset_append_right _ _)
  unfold BackendRestartAccumulator.look
  split
  · exact hrest
  · constructor
    case once =>
      intro hseen c hc hm
      simp only [Bool.or_eq_true] at hseen
      change acc.start_cork_ = some c at hc
      rw [hc] at hseen
      rcases hseen with (hb | hl) | hv
      · exact hrest.once hb c hc hm
      · have hl : c ∈ throughEnd id acc.end_cork_ v.tlogs := by simpa using hl
        exact ho.cons.2.2 (throughEnd_subset _ hl) hm
      · cases hcork : v.cork with
        | none => simp [hcork] at hv
        | some c' =>
          have : c = c' := by simpa [hcork] using hv
          subst this
          exact ho.cons.2.2 (ho.cork_mem hcork (ho.cons.2.1.subset hm)) hm
    case given =>
      intro hseen
      simp only [Bool.or_eq_false_iff] at hseen
      exact hrest.given hseen.1.1

theorem Ready.lookAll : ∀ {vs : List Visit} {acc : BackendRestartAccumulator},
    Ready acc (tlogsOf (vs ++ vs')) → Orderly all (vs ++ vs') → Ready (acc.lookAll vs).1 (tlogsOf vs')
  | [], _, h, _ => h
  | _ :: _, _, h, ho => (Ready.look h ho).lookAll ho.cons.2.1

/-! ## The code visits -/

theorem walk_tlogs_eq {l : List TLogId} (tlogs : List TLogId) (he : acc.end_seen_ = false) (hn : l.Nodup)
    (hr : Ready acc l) :
    acc.walk_tlogs tlogs l = .ok ((acc.look ⟨l, none⟩).1, tlogs ++ (acc.look ⟨l, none⟩).2) := by
  unfold walk_tlogs
  rw [VERIFY_of he, ok_bind, walk_eq tlogs hn hr he]

/-- The loop stops at the end cork; later visits then collect nothing. -/
theorem walk_snapshots_eq : ∀ {snaps : Snapshots} {acc : BackendRestartAccumulator} (tlogs : List TLogId),
    acc.end_seen_ = false → Orderly all (snaps.map segment) → Ready acc (tlogsOf (snaps.map segment)) →
    acc.walk_snapshots tlogs snaps =
      .ok ((acc.lookAll (snaps.map segment)).1, tlogs ++ (acc.lookAll (snaps.map segment)).2)
  | [], acc, tlogs, _, _, _ => by simp [walk_snapshots, lookAll, pure, Except.pure]
  | snap :: snaps, acc, tlogs, he, ho, hr => by
    rw [map_cons] at ho hr
    obtain ⟨ho1, ho2, _⟩ := ho.cons
    have hn : (snap.tlogs.map (·.id)).Nodup := by simpa [tlogsOf, segment] using ho1.nodup
    have hr1 : Ready acc (snap.tlogs.map (·.id)) := hr.mono (subset_append_left _ _)
    have hids : snap.tlogs.getOrderedTLogIds [] = snap.tlogs.map (·.id) := by simp [TLogs.getOrderedTLogIds]
    have hlook := check_look he (snap.tlogs.map (·.id)) snap.cork_uuid
    have hfst := congrArg Prod.fst hlook
    have hsnd := congrArg Prod.snd hlook
    simp only at hfst hsnd
    rw [walk_snapshots, hids, walk_tlogs_eq tlogs he hn hr1, ok_bind]
    simp only [hfst, hsnd]
    change (if (acc.look (segment snap)).1.end_seen_ then _ else _) = _
    rw [map_cons, lookAll]
    cases hend : (acc.look (segment snap)).1.end_seen_ with
    | true =>
      rw [lookAll_of_end_seen hend, if_pos rfl, append_nil]
      rfl
    | false =>
      rw [if_neg (by simp), ← append_assoc]
      exact walk_snapshots_eq _ hend ho2 (Ready.look hr ho)

theorem Cut.find {m : Member} (h : Cut m) : ∃ older snap, m.sp.snapshots = older ++ [snap] ∧
    m.sp.snapshots.find_name m.snapshot_name = some snap ∧ snap.num ∉ older.map (·.num) := by
  obtain ⟨older, snap, hs, hname, hne⟩ := h.snapshot
  refine ⟨older, snap, hs, ?_, by simpa using fun s hm => (hne s hm).2⟩
  unfold find_name
  have hnone : older.find? (fun s => s.name = m.snapshot_name) = none := by
    rw [List.find?_eq_none]
    intro s hm
    simpa [hname] using (hne s hm).1
  rw [hs, List.find?_append, hnone]
  simp [hname]

/-- Of an ancestor's file the code reads no more than what counts. -/
theorem walk_file_cut {m : Member} {clone_id : SCOCloneID} (h : Cut m.cut) (hid : clone_id ≠ 0) :
    acc.walk_file m.cut.sp m.cut.snapshot_name clone_id = acc.walk_file m.sp m.snapshot_name clone_id := by
  obtain ⟨older, snap, hs, hfind, hnum⟩ := h.find
  change m.cut.sp.snapshots.find? (·.name = m.snapshot_name) = some snap at hfind
  have hmem : snap ∈ m.sp.snapshots := through_subset (List.mem_of_find?_eq_some hfind)
  have hname : m.snapshot_name ∈ m.sp.snapshots.map Snapshot.name :=
    mem_map.2 ⟨snap, hmem, by simpa using List.find?_some hfind⟩
  have hsplit := through_append_past hname
  change m.cut.sp.snapshots ++ _ = _ at hsplit
  generalize past Snapshot.name m.snapshot_name m.sp.snapshots = newer at hsplit
  have hfind' : m.sp.snapshots.find? (·.name = m.snapshot_name) = some snap := by
    rw [← hsplit, List.find?_append, hfind]
    rfl
  have htill : m.sp.getTLogsTillSnapshot snap.num [] = m.cut.sp.getTLogsTillSnapshot snap.num [] := by
    unfold SnapshotPersistor.getTLogsTillSnapshot
    rw [← hsplit, hs, append_assoc, singleton_append, getTLogsTillSnapshot_append hnum,
      getTLogsTillSnapshot_append hnum]
  unfold walk_file find_name
  rw [if_neg hid, if_neg hid, show m.cut.snapshot_name = m.snapshot_name from rfl, hfind, hfind']
  simp only [htill]

/-- One file is the list of its visits. -/
theorem walk_file_eq {m : Member} {clone_id : SCOCloneID} (hm : clone_id = 0 ∨ Cut m)
    (ho : Orderly all (m.visits clone_id)) (hr : Ready acc (tlogsOf (m.visits clone_id))) :
    acc.walk_file m.sp m.snapshot_name clone_id = .ok (acc.lookAll (m.visits clone_id)) := by
  unfold walk_file
  cases hend : acc.end_seen_ with
  | true => rw [if_pos rfl, lookAll_of_end_seen hend]; rfl
  | false =>
    rw [if_neg (by simp)]
    by_cases hid : clone_id = 0
    · -- the volume's own file: one snapshot after the other, then the current TLogs
      have hv : m.visits clone_id = m.sp.snapshots.map segment ++ [⟨m.sp.getCurrentTLogsWrittenToBackend, none⟩] :=
        if_pos hid
      rw [hv] at ho hr ⊢
      rw [if_pos hid]
      obtain ⟨ho1, ho2, _⟩ := ho.append
      have hr2 := Ready.lookAll hr ho
      rw [walk_snapshots_eq [] hend ho1 hr.left, ok_bind, lookAll_append, nil_append]
      simp only
      cases hend1 : (acc.lookAll (m.sp.snapshots.map segment)).1.end_seen_ with
      | true =>
        rw [if_pos rfl, lookAll_of_end_seen hend1, append_nil]
        rfl
      | false =>
        have hn : m.sp.getCurrentTLogsWrittenToBackend.Nodup := by simpa [tlogsOf] using ho2.nodup
        have hr3 : Ready (acc.lookAll (m.sp.snapshots.map segment)).1 m.sp.getCurrentTLogsWrittenToBackend := by
          simpa [tlogsOf] using hr2
        rw [if_neg (by simp), walk_tlogs_eq _ hend1 hn hr3]
        simp [lookAll]
    · -- an ancestor's file
      obtain ⟨older, snap, hs, hfind, hnum⟩ := (hm.resolve_left hid).find
      have hv : m.visits clone_id = [⟨m.sp.snapshots.allTLogs.map (·.id), some snap.cork_uuid⟩] := by
        unfold Member.visits
        rw [if_neg hid, hfind]; rfl
      rw [hv] at ho hr ⊢
      have hn : (m.sp.snapshots.allTLogs.map (·.id)).Nodup := by simpa [tlogsOf] using ho.nodup
      have hr1 : Ready acc (m.sp.snapshots.allTLogs.map (·.id)) := by simpa [tlogsOf] using hr
      have htill : m.sp.getTLogsTillSnapshot snap.num [] = .ok (m.sp.snapshots.allTLogs.map (·.id)) := by
        unfold SnapshotPersistor.getTLogsTillSnapshot
        rw [hs, getTLogsTillSnapshot_append hnum]
        simp
      rw [if_neg hid, VERIFY_of (hm.resolve_left hid).named, ok_bind]
      simp only [hfind]
      rw [htill, ok_bind, walk_tlogs_eq [] hend hn hr1, ok_bind]
      have hlook := check_look hend (m.sp.snapshots.allTLogs.map (·.id)) snap.cork_uuid
      simp [lookAll, ← hlook, pure, Except.pure]

/-! ## A chain -/

/-- The clone ids of a chain, oldest first. -/
def cloneIds : List Member → SCOCloneID → List SCOCloneID
  | [], _ => []
  | _ :: parents, start => cloneIds parents ((start + 1) % 2 ^ 8) ++ [start]

/-- A volume's own file has clone id 0, the other files are cut. -/
def Cuts : List Member → SCOCloneID → Prop
  | [], _ => True
  | m :: parents, start => (start = 0 ∨ Cut m) ∧ Cuts parents ((start + 1) % 2 ^ 8)

theorem call_eq {m : Member} {clone_id : SCOCloneID} (hm : clone_id = 0 ∨ Cut m)
    (ho : Orderly all (m.visits clone_id)) (hr : Ready acc (tlogsOf (m.visits clone_id))) :
    acc.call m.sp m.snapshot_name clone_id = .ok { (acc.lookAll (m.visits clone_id)).1 with
        clone_tlogs_ := acc.clone_tlogs_ ++ [(clone_id, (acc.lookAll (m.visits clone_id)).2)] } := by
  unfold call
  rw [walk_file_eq hm ho hr, ok_bind, ← (lookAll_corks (m.visits clone_id) acc).2.2]
  rfl

/-- The files of a chain are visited in turn, and each has its list. -/
theorem vold_eq : ∀ {chain : List Member} {start : SCOCloneID}, Cuts chain start →
    Orderly all (visits chain start) → Ready acc (tlogsOf (visits chain start)) →
    ∃ ctl, acc.vold chain start =
        .ok { (acc.lookAll (visits chain start)).1 with clone_tlogs_ := acc.clone_tlogs_ ++ ctl } ∧
      ctl.flatMap (·.2) = (acc.lookAll (visits chain start)).2 ∧ ctl.map (·.1) = cloneIds chain start
  | [], start, _, _, _ => ⟨[], by simp [vold, visits, lookAll, pure, Except.pure], rfl, rfl⟩
  | m :: parents, start, hc, ho, hr => by
    rw [visits] at ho hr
    obtain ⟨ho1, ho2, _⟩ := ho.append
    obtain ⟨ctl, hrun, htl, hid⟩ := vold_eq hc.2 ho1 hr.left
    have hr2 := Ready.lookAll hr ho
    have hr3 : Ready { (acc.lookAll (visits parents ((start + 1) % 2 ^ 8))).1 with
        clone_tlogs_ := acc.clone_tlogs_ ++ ctl } (tlogsOf (m.visits start)) := ⟨hr2.once, hr2.given⟩
    have hcall := call_eq hc.1 ho2 hr3
    refine ⟨ctl ++ [(start, ((acc.lookAll (visits parents ((start + 1) % 2 ^ 8))).1.lookAll (m.visits start)).2)],
      ?_, ?_, ?_⟩
    · rw [vold, hrun, ok_bind, hcall, lookAll_clone_tlogs, visits, lookAll_append, append_assoc]
    · rw [visits, lookAll_append, flatMap_append, htl]
      simp
    · rw [map_append, hid]
      rfl

/-- Clone ids wrap at 2 ^ 8, and an ancestor of clone id 0 would be read as the volume's own file. -/
theorem vold_cut : ∀ {parents : List Member} {start : Nat}, 0 < start → start + parents.length ≤ 2 ^ 8 →
    (∀ m ∈ parents, Cut m.cut) → acc.vold (parents.map Member.cut) start = acc.vold parents start
  | [], _, _, _, _ => rfl
  | m :: parents, start, hpos, hlen, h => by
    have hrest : acc.vold (parents.map Member.cut) ((start + 1) % 2 ^ 8) = acc.vold parents ((start + 1) % 2 ^ 8) := by
      cases parents with
      | nil => rfl
      | cons m' parents =>
        simp only [length_cons] at hlen
        have hmod : (start + 1) % 2 ^ 8 = start + 1 := Nat.mod_eq_of_lt (by omega)
        rw [hmod]
        exact vold_cut start.succ_pos (by rw [length_cons]; omega) fun x hx => h x (mem_cons_of_mem m hx)
    rw [map_cons, vold, vold, hrest]
    congr 1
    funext acc
    unfold call
    rw [walk_file_cut (h m (mem_cons_self ..)) hpos.ne']

/-- A chain is read as the chain of what counts. -/
theorem accumulate_cut {chain : List Member} (h : ∀ m ∈ (cut chain).tail, Cut m)
    (hw : chain.length ≤ 2 ^ 8 ∨ cut chain = chain) (s e : Option UUID) :
    accumulate chain s e = accumulate (cut chain) s e := by
  rcases hw with hlen | heq
  · cases chain with
    | nil => rfl
    | cons m parents =>
      have hcut : ∀ m ∈ parents, Cut m.cut := fun x hx => h _ (mem_map_of_mem hx)
      unfold accumulate
      congr 1
      funext acc
      have hone : (0 + 1) % 2 ^ 8 = 1 := rfl
      rw [length_cons] at hlen
      rw [cut, vold, vold, hone, vold_cut Nat.one_pos (by omega) hcut]
  · rw [heq]

end

end BackendRestartAccumulator

end VolumeDriver
