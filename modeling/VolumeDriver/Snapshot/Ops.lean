/-
What each operation on the snapshots file does, said once: the shape of the snapshots and the
current TLogs afterwards, in terms of those before.
-/
import VolumeDriver.Snapshot.Persistor
import Mathlib.Data.List.TakeWhile

namespace VolumeDriver

open Lib Snapshots List

/-- What a snapshot keeps for life. -/
def Snapshot.key (s : Snapshot) : SnapshotNum × SnapshotName × UUID := (s.num, s.name, s.cork_uuid)

/-- The same snapshot with the same TLogs, their marks apart. -/
def Snapshot.Alike (s' s : Snapshot) : Prop := s'.key = s.key ∧ s'.tlogs.map (·.id) = s.tlogs.map (·.id)

namespace Snapshots

/-- Deletion splices the snapshot's TLogs into its successor, or into the current TLogs. -/
theorem deleteSnapshot_ok : ∀ {ss : Snapshots} {num : SnapshotNum} {io io' : TLogs} {ss' : Snapshots},
    ss.deleteSnapshot num io = .ok (ss', io') →
    (∃ l s, ss = l ++ [s] ∧ ss' = l ∧ io' = s.tlogs ++ io) ∨
    (∃ l₁ s s' l₂, ss = l₁ ++ s :: s' :: l₂ ∧
      ss' = l₁ ++ { s' with tlogs := s.tlogs ++ s'.tlogs, scrubbed := false } :: l₂ ∧ io' = io)
  | [], num, io, io', ss', h => by cases h
  | s :: ss, num, io, io', ss', h => by
    unfold deleteSnapshot at h
    split at h
    · split at h
      · cases h; exact .inl ⟨[], s, rfl, rfl, rfl⟩
      · rename_i s' l₂
        cases h; exact .inr ⟨[], s, s', l₂, rfl, rfl, rfl⟩
    · obtain ⟨⟨ss₁, io₁⟩, h1, h⟩ := bind_ok h
      cases pure_ok h
      rcases deleteSnapshot_ok h1 with ⟨l, x, rfl, rfl, rfl⟩ | ⟨l₁, x, y, l₂, rfl, rfl, rfl⟩
      · exact .inl ⟨s :: ss₁, x, rfl, rfl, rfl⟩
      · exact .inr ⟨s :: l₁, x, y, l₂, rfl, rfl, rfl⟩

theorem splice_tlogs : ∀ (others : Snapshots) (l : Snapshot),
    (others.foldl (fun l s => { l with tlogs := s.tlogs ++ l.tlogs, scrubbed := false }) l).tlogs =
        allTLogs others.reverse ++ l.tlogs
  | [], l => rfl
  | s :: others, l => by
    rw [foldl_cons, splice_tlogs others]
    simp

theorem splice_frame : ∀ (others : Snapshots) (l : Snapshot),
    let l' := others.foldl (fun l s => { l with tlogs := s.tlogs ++ l.tlogs, scrubbed := false }) l
    l'.num = l.num ∧ l'.name = l.name ∧ l'.cork_uuid = l.cork_uuid
  | [], _ => ⟨rfl, rfl, rfl⟩
  | s :: others, l => splice_frame others { l with tlogs := s.tlogs ++ l.tlogs, scrubbed := false }

theorem deleteAllButLastSnapshot_ok {ss ss' : Snapshots} (h : ss.deleteAllButLastSnapshot = .ok ss') :
    ∃ l s s', ss = l ++ [s] ∧ ss' = [s'] ∧ s'.tlogs = allTLogs l ++ s.tlogs ∧ s'.num = s.num ∧
      s'.name = s.name ∧ s'.cork_uuid = s.cork_uuid := by
  unfold deleteAllButLastSnapshot at h
  split at h
  · cases h
  · rename_i the_last others hr
    have hss : ss = others.reverse ++ [the_last] := by
      rw [← reverse_reverse ss, hr, reverse_cons]
    cases h
    obtain ⟨h1, h2, h3⟩ := splice_frame others the_last
    exact ⟨others.reverse, the_last, _, hss, rfl, splice_tlogs others the_last, h1, h2, h3⟩

theorem deleteTLogsAndSnapshotsAfterSnapshot_ok : ∀ {ss : Snapshots} {num : SnapshotNum} {ss' : Snapshots},
    ss.deleteTLogsAndSnapshotsAfterSnapshot num = .ok ss' →
    ∃ l₁ s l₂, ss = l₁ ++ s :: l₂ ∧ ss' = l₁ ++ [s] ∧ s.num = num
  | [], num, ss', h => by cases h
  | s :: ss, num, ss', h => by
    unfold deleteTLogsAndSnapshotsAfterSnapshot at h
    split at h
    · cases h; exact ⟨[], s, ss, rfl, rfl, ‹_›⟩
    · obtain ⟨ss₁, h1, h⟩ := bind_ok h
      cases pure_ok h
      obtain ⟨l₁, x, l₂, rfl, rfl, hx⟩ := deleteTLogsAndSnapshotsAfterSnapshot_ok h1
      exact ⟨s :: l₁, x, l₂, rfl, rfl, hx⟩

/-- A cut in the snapshots: found, the list ends with the snapshot that held the TLog, cut. -/
theorem snip_cases : ∀ (ss : Snapshots) (tid : TLogId) (sz : Option Nat),
    (ss.snip tid sz = (ss, false) ∧ tid ∉ ss.allTLogs.map (·.id)) ∨
    (∃ l₁ s l₂ ts, ss = l₁ ++ s :: l₂ ∧ s.tlogs.snip tid sz = some ts ∧ tid ∉ (allTLogs l₁).map (·.id) ∧
      ss.snip tid sz = (l₁ ++ [{ s with tlogs := ts }], true))
  | [], _, _ => .inl ⟨rfl, by simp⟩
  | s :: ss, tid, sz => by
    unfold snip
    cases hs : s.tlogs.snip tid sz with
    | some ts => exact .inr ⟨[], s, ss, ts, rfl, hs, by simp, rfl⟩
    | none =>
      have hn := TLogs.snip_none hs
      rcases snip_cases ss tid sz with ⟨h1, h2⟩ | ⟨l₁, x, l₂, ts, rfl, h1, h2, h3⟩
      · refine .inl ⟨by rw [h1], ?_⟩
        rw [allTLogs_cons, map_append, mem_append, not_or]
        exact ⟨hn, h2⟩
      · refine .inr ⟨s :: l₁, x, l₂, ts, rfl, h1, ?_, by rw [h3]; rfl⟩
        rw [allTLogs_cons, map_append, mem_append, not_or]
        exact ⟨hn, h2⟩

theorem replace_ok {ss ss' : Snapshots} {ins : List TLogId} {out : List TLog} {num : SnapshotNum}
    (h : ss.replace ins out num = .ok ss') :
    ss' = ss ∨ ∃ l₁ s l₂, ss = l₁ ++ s :: l₂ ∧ s.num = num ∧ s.tlogs.map (·.id) = ins ∧ out ≠ [] ∧
      (∀ t ∈ out, t.written_to_backend = true) ∧ ss' = l₁ ++ { s with tlogs := out } :: l₂ := by
  obtain ⟨hw, h⟩ := VERIFY_bind_ok h
  obtain ⟨s, hs, h⟩ := bind_ok h
  obtain ⟨l₁, l₂, rfl, hnum, hn⟩ := find_or_throw_ok hs
  split at h
  · exact .inl (pure_ok h).symm
  · obtain ⟨ts, ht, h⟩ := bind_ok h
    obtain ⟨hts, hne, hins⟩ := TLogs.replace_ok ht
    refine .inr ⟨l₁, s, l₂, rfl, hnum, hins, hne, hw, ?_⟩
    rw [← pure_ok h, modify_append hnum hn, hts]

theorem setTLogWrittenToBackend_all : ∀ (ss : Snapshots) (tid : TLogId) (b : Bool),
    allTLogs (ss.setTLogWrittenToBackend tid b).1 = (ss.allTLogs.setTLogWrittenToBackend tid b).1 ∧
      (ss.setTLogWrittenToBackend tid b).2 = (ss.allTLogs.setTLogWrittenToBackend tid b).2
  | [], _, _ => ⟨rfl, rfl⟩
  | s :: ss, tid, b => by
    obtain ⟨ih1, ih2⟩ := setTLogWrittenToBackend_all ss tid b
    unfold setTLogWrittenToBackend
    rw [allTLogs_cons, TLogs.setTLogWrittenToBackend_append]
    rcases s.tlogs.setTLogWrittenToBackend tid b with ⟨ts, _ | _ | _⟩
    · exact ⟨rfl, rfl⟩
    · exact ⟨by simp [ih1], ih2⟩
    · exact ⟨rfl, rfl⟩

theorem setTLogWrittenToBackend_same : ∀ (ss : Snapshots) (tid : TLogId) (b : Bool),
    (ss.setTLogWrittenToBackend tid b).2 ≠ .ok true → (ss.setTLogWrittenToBackend tid b).1 = ss
  | [], _, _, _ => rfl
  | s :: ss, tid, b, h => by
    have hs := TLogs.setTLogWrittenToBackend_same s.tlogs tid b
    unfold setTLogWrittenToBackend at h ⊢
    rcases ht : s.tlogs.setTLogWrittenToBackend tid b with ⟨ts, _ | _ | _⟩ <;> rw [ht] at h hs
    · cases hs (by simp); rfl
    · cases hs (by simp)
      exact congrArg (s :: ·) (setTLogWrittenToBackend_same ss tid b h)
    · exact absurd rfl h

theorem setTLogWrittenToBackend_alike : ∀ (ss : Snapshots) (tid : TLogId) (b : Bool),
    List.Forall₂ Snapshot.Alike (ss.setTLogWrittenToBackend tid b).1 ss
  | [], _, _ => .nil
  | s :: ss, tid, b => by
    have hids := TLogs.setTLogWrittenToBackend_ids s.tlogs tid b
    have hsame : List.Forall₂ Snapshot.Alike ss ss := forall₂_same.2 fun _ _ => ⟨rfl, rfl⟩
    unfold setTLogWrittenToBackend
    rcases ht : s.tlogs.setTLogWrittenToBackend tid b with ⟨ts, _ | _ | _⟩ <;> rw [ht] at hids
    · exact .cons ⟨rfl, hids⟩ hsame
    · exact .cons ⟨rfl, hids⟩ (setTLogWrittenToBackend_alike ss tid b)
    · exact .cons ⟨rfl, hids⟩ hsame

end Snapshots

namespace SnapshotPersistor

variable {sp : SnapshotPersistor}

theorem snapshot_ok {sp' : SnapshotPersistor} {name : SnapshotName} {metadata : List UInt8} {scrubbed : Bool}
    {id : TLogId} (h : sp.snapshot name metadata scrubbed id = .ok sp') :
    name ∉ sp.snapshots.map (·.name) ∧
    sp' = { sp with
      snapshots := sp.snapshots ++ [Snapshot.make sp.snapshots.getNextSnapshotNum name sp.current metadata scrubbed]
      current := [{ id := id }] } := by
  unfold snapshot at h
  split at h
  · cases h
  · rename_i hex
    split at h
    · cases h
    · cases h
      refine ⟨fun hm => hex ?_, rfl⟩
      obtain ⟨s, hs, rfl⟩ := mem_map.1 hm
      unfold snapshotExists find_name
      rw [find?_isSome]
      exact ⟨s, hs, by simp⟩

theorem trimToBackend_cases (sp : SnapshotPersistor) (id : TLogId) : ((∀ s ∈ sp.snapshots, s.inBackend = true) ∧
      sp.trimToBackend id = { sp with current := sp.current.tlogsOnBackend ++ [{ id := id }] }) ∨
    (∃ l₁ s l₂, sp.snapshots = l₁ ++ s :: l₂ ∧ (∀ x ∈ l₁, x.inBackend = true) ∧ s.inBackend = false ∧
      sp.trimToBackend id = { sp with snapshots := l₁, current := s.tlogs.tlogsOnBackend ++ [{ id := id }] }) := by
  unfold trimToBackend
  have happ := takeWhile_append_dropWhile (p := fun s : Snapshot => s.inBackend) (l := sp.snapshots)
  cases hd : sp.snapshots.dropWhile (fun s => s.inBackend) with
  | nil =>
    refine .inl ⟨fun s hs => ?_, rfl⟩
    rw [dropWhile_eq_nil_iff] at hd
    exact hd s hs
  | cons s l₂ =>
    rw [hd] at happ
    refine .inr ⟨_, s, l₂, happ.symm, fun x hx => mem_takeWhile_imp hx, ?_, rfl⟩
    have := head_dropWhile_not (fun s : Snapshot => s.inBackend) (l := sp.snapshots) (by rw [hd]; simp)
    simpa [hd] using this

theorem setTLogWrittenToBackend_all (sp : SnapshotPersistor) (tid : TLogId) (b : Bool) :
    (sp.setTLogWrittenToBackend tid b).1.allTLogs = (sp.allTLogs.setTLogWrittenToBackend tid b).1 ∧
      ((sp.setTLogWrittenToBackend tid b).2 = .ok () ↔ ∃ r, (sp.allTLogs.setTLogWrittenToBackend tid b).2 = .ok r) := by
  obtain ⟨h1, h2⟩ := Snapshots.setTLogWrittenToBackend_all sp.snapshots tid b
  unfold setTLogWrittenToBackend allTLogs
  rw [TLogs.setTLogWrittenToBackend_append, ← Prod.mk.eta (p := sp.snapshots.allTLogs.setTLogWrittenToBackend tid b),
    ← h1, ← h2]
  rcases sp.snapshots.setTLogWrittenToBackend tid b with ⟨ss, _ | _ | _⟩
  · exact ⟨rfl, by simp⟩
  · refine ⟨rfl, ?_⟩
    cases (sp.current.setTLogWrittenToBackend tid b).2 <;> simp
  · exact ⟨rfl, by simp⟩

theorem setTLogWrittenToBackend_throw {tid : TLogId} {b : Bool} {e : Exn}
    (h : (sp.setTLogWrittenToBackend tid b).2 = .error e) : (sp.setTLogWrittenToBackend tid b).1 = sp := by
  have hs := setTLogWrittenToBackend_same sp.snapshots tid b
  have hc := TLogs.setTLogWrittenToBackend_same sp.current tid b
  unfold setTLogWrittenToBackend at h ⊢
  rcases hm : sp.snapshots.setTLogWrittenToBackend tid b with ⟨ss, _ | _ | _⟩ <;> rw [hm] at h hs
  · cases hs (by simp); rfl
  · cases hs (by simp)
    rcases hr : (sp.current.setTLogWrittenToBackend tid b).2 with _ | _
    · exact congrArg (fun c => { sp with current := c }) (hc (by rw [hr]; simp))
    · simp [hr] at h
  · cases h

/-! ## Transitions -/

/-- Everything a legal call can do to the snapshots file. Where `unmark` does not hold, written
TLogs stay so. -/
inductive Trans (unmark : Prop) (sp : SnapshotPersistor) : SnapshotPersistor → Prop
  | same (scrub_id : ScrubId) : Trans unmark sp { sp with scrub_id := scrub_id }
  | newTLog {id : TLogId} (fresh : sp.Fresh id) : Trans unmark sp { sp with current := sp.current ++ [{ id := id }] }
  | snapshot {name : SnapshotName} {id : TLogId} (metadata : List UInt8) (scrubbed : Bool) (fresh : sp.Fresh id)
      (new_name : name ∉ sp.snapshots.map (·.name)) :
      Trans unmark sp { sp with
        snapshots := sp.snapshots ++ [Snapshot.make sp.snapshots.getNextSnapshotNum name sp.current metadata scrubbed]
        current := [{ id := id }] }
  /-- Deletion of the last snapshot. -/
  | spliceLast {l : Snapshots} {s : Snapshot} (snapshots : sp.snapshots = l ++ [s]) :
      Trans unmark sp { sp with snapshots := l, current := s.tlogs ++ sp.current }
  /-- Deletion of another snapshot. -/
  | splice {l₁ l₂ : Snapshots} {s s' : Snapshot} (snapshots : sp.snapshots = l₁ ++ s :: s' :: l₂) :
      Trans unmark sp { sp with
        snapshots := l₁ ++ { s' with tlogs := s.tlogs ++ s'.tlogs, scrubbed := false } :: l₂ }
  /-- Deletion of all snapshots but the last. -/
  | merge {l : Snapshots} {s s' : Snapshot} (snapshots : sp.snapshots = l ++ [s])
      (tlogs : s'.tlogs = l.allTLogs ++ s.tlogs) (num : s'.num = s.num) (name : s'.name = s.name)
      (cork : s'.cork_uuid = s.cork_uuid) : Trans unmark sp { sp with snapshots := [s'] }
  /-- Deletion of everything after a snapshot. -/
  | restore {l₁ l₂ : Snapshots} {s : Snapshot} {id : TLogId} (snapshots : sp.snapshots = l₁ ++ s :: l₂)
      (fresh : sp.Fresh id) : Trans unmark sp { sp with snapshots := l₁ ++ [s], current := [{ id := id }] }
  | cutSnapshot {l₁ l₂ : Snapshots} {s : Snapshot} {ts₁ ts₂ : TLogs} {t : TLog} (size : Nat)
      (snapshots : sp.snapshots = l₁ ++ s :: l₂) (tlogs : s.tlogs = ts₁ ++ t :: ts₂) :
      Trans unmark sp { sp with snapshots := l₁, current := ts₁ ++ [{ t with size := size }] }
  | cutCurrent {ts₁ ts₂ : TLogs} {t : TLog} (size : Nat) (current : sp.current = ts₁ ++ t :: ts₂) :
      Trans unmark sp { sp with current := ts₁ ++ [{ t with size := size }] }
  | trimSnapshot {l₁ l₂ : Snapshots} {s : Snapshot} {id : TLogId} (snapshots : sp.snapshots = l₁ ++ s :: l₂)
      (fresh : sp.Fresh id) :
      Trans unmark sp { sp with snapshots := l₁, current := s.tlogs.tlogsOnBackend ++ [{ id := id }] }
  | trimCurrent {id : TLogId} (fresh : sp.Fresh id) :
      Trans unmark sp { sp with current := sp.current.tlogsOnBackend ++ [{ id := id }] }
  | mark (tid : TLogId) (b : Bool) (on : b = true ∨ unmark) : Trans unmark sp (sp.setTLogWrittenToBackend tid b).1
  | replace {l₁ l₂ : Snapshots} {s : Snapshot} {out : TLogs} (scrub_id : ScrubId)
      (snapshots : sp.snapshots = l₁ ++ s :: l₂) (written : s.writtenToBackend = true) (nonempty : out ≠ [])
      (written_out : ∀ t ∈ out, t.written_to_backend = true) (nodup : (out.map (·.id)).Nodup)
      (fresh : ∀ t ∈ out, sp.Fresh t.id) :
      Trans unmark sp { sp with snapshots := l₁ ++ { s with tlogs := out } :: l₂, scrub_id := scrub_id }

variable {unmark : Prop}

theorem snip_trans (sp : SnapshotPersistor) (tid : TLogId) (sz : Option Nat) : Trans unmark sp (sp.snip tid sz).1 := by
  unfold snip
  rcases snip_cases sp.snapshots tid sz with ⟨h1, _⟩ | ⟨l₁, s, l₂, ts, hs, hts, _, h1⟩
  · rw [h1]
    cases hc : sp.current.snip tid sz with
    | none => exact .same sp.scrub_id
    | some ts =>
      obtain ⟨ts₁, t, ts₂, hcur, _, _, rfl⟩ := TLogs.snip_some hc
      exact .cutCurrent _ hcur
  · rw [h1]
    obtain ⟨ts₁, t, ts₂, htl, _, _, rfl⟩ := TLogs.snip_some hts
    simpa using Trans.cutSnapshot (sz.getD t.size) hs htl

theorem replace_trans {sp' : SnapshotPersistor} {ins : List TLogId} {out : List TLog} {num : SnapshotNum}
    {scrub_id : ScrubId} (hl : sp.Legal (.replace ins out num scrub_id))
    (h : sp.replace ins out num scrub_id = .ok sp') : Trans unmark sp sp' := by
  obtain ⟨ss, hss, h⟩ := bind_ok h
  cases pure_ok h
  obtain ⟨hw, hnd, hf⟩ := hl
  rcases replace_ok hss with rfl | ⟨l₁, s, l₂, hs, hnum, _, hne, hwo, rfl⟩
  · exact .same scrub_id
  · exact .replace scrub_id hs (hw s (by rw [hs]; simp) hnum) hne hwo hnd hf

theorem orUnchanged_trans {r : Except Exn SnapshotPersistor}
    (h : ∀ sp', r = .ok sp' → Trans unmark sp sp') : Trans unmark sp (sp.orUnchanged r) := by
  cases r with
  | ok sp' => exact h sp' rfl
  | error e => exact .same sp.scrub_id

/-- Every legal call is one of the transitions. -/
theorem step_trans {op : Op} (hl : sp.Legal op)
    (hu : ∀ tid b, op = .setTLogWrittenToBackend tid b → b = true ∨ unmark) : Trans unmark sp (sp.step op) := by
  cases op with
  | newTLog id => exact .newTLog hl
  | snapshot name metadata scrubbed id =>
    refine orUnchanged_trans fun sp' h => ?_
    obtain ⟨hname, rfl⟩ := snapshot_ok h
    exact .snapshot metadata scrubbed hl hname
  | deleteSnapshot num =>
    refine orUnchanged_trans fun sp' h => ?_
    obtain ⟨⟨ss, io⟩, hss, h⟩ := bind_ok h
    cases pure_ok h
    rcases deleteSnapshot_ok hss with ⟨l, s, hs, rfl, rfl⟩ | ⟨l₁, s, s', l₂, hs, rfl, rfl⟩
    · exact .spliceLast hs
    · exact .splice hs
  | deleteAllButLastSnapshot =>
    refine orUnchanged_trans fun sp' h => ?_
    obtain ⟨ss, hss, h⟩ := bind_ok h
    cases pure_ok h
    obtain ⟨l, s, s', hs, rfl, h1, h2, h3, h4⟩ := deleteAllButLastSnapshot_ok hss
    exact .merge hs h1 h2 h3 h4
  | deleteTLogsAndSnapshotsAfterSnapshot num id =>
    refine orUnchanged_trans fun sp' h => ?_
    obtain ⟨ss, hss, h⟩ := bind_ok h
    cases pure_ok h
    obtain ⟨l₁, s, l₂, hs, rfl, _⟩ := deleteTLogsAndSnapshotsAfterSnapshot_ok hss
    exact .restore hs hl
  | snip tid sz => exact snip_trans sp tid sz
  | trimToBackend id =>
    rcases trimToBackend_cases sp id with ⟨_, h⟩ | ⟨l₁, s, l₂, hs, _, _, h⟩
    · rw [step, h]; exact .trimCurrent hl
    · rw [step, h]; exact .trimSnapshot hs hl
  | setTLogWrittenToBackend tid b => exact .mark tid b (hu tid b rfl)
  | replace ins out num scrub_id => exact orUnchanged_trans fun sp' h => replace_trans hl h

/-- What holds of a new volume and is kept by the transitions holds of every reachable state. -/
theorem Reachable.trans_induction (unmark : Prop) {L : SnapshotPersistor → Op → Prop} {parent : Option ParentConfig}
    {P : SnapshotPersistor → Prop} (hL : ∀ sp op, L sp op → sp.Legal op)
    (hu : ∀ sp tid b, L sp (.setTLogWrittenToBackend tid b) → b = true ∨ unmark)
    (h0 : ∀ scrub_id id, P (SnapshotPersistor.init parent scrub_id id))
    (hs : ∀ sp sp', P sp → Trans unmark sp sp' → P sp') (h : Reachable L parent sp) :
    P sp := by
  induction h with
  | init scrub_id id => exact h0 scrub_id id
  | step _ hl ih => exact hs _ _ ih (step_trans (hL _ _ hl) fun tid b ho => hu _ tid b (ho ▸ hl))

end SnapshotPersistor

end VolumeDriver
