/-
Cutting a TLog into TLogs of a bounded number of entries and writing these to the backend (TLogCutter.cpp
and TheSonOfTLogCutter.cpp, which differ in where they cut and in the names they give).
-/
import VolumeDriver.Scrub.Split
import VolumeDriver.MetaData.CloneTLogs

namespace VolumeDriver

open Lib List

namespace Scrubbing

/-- The names of the logs that are written, and how a log is stored. -/
structure LogKind where
  name : TLogId → ObjectName
  object : ∀ id, List Entry → Object (name id)

/-- TLogs. -/
def LogKind.tlog : LogKind := ⟨.tlog, fun _ l => l⟩

/-- Relocation logs. -/
def LogKind.relocation : LogKind := ⟨.relocation, fun _ l => l⟩

/-- The state of a cutter; `tlog_writer` holds the entries of the log that is being written. -/
structure Cutter where
  bi_ : BackendInterface
  tlogs_ : List TLog := []
  tlog_writer : List Entry := []
  entries_written : Nat := 0
  prev_sco_num : SCONumber := 0

namespace Cutter

/-- `uuid n` is the id of the `n`-th log. -/
def makeNewTLog (uuid : Nat → TLogId) (c : Cutter) : Cutter :=
  { c with tlogs_ := c.tlogs_ ++ [{ id := uuid c.tlogs_.length }], tlog_writer := [] }

/-- Writes the last log to the backend. -/
def writeTLogToBackend (kind : LogKind) (c : Cutter) : Except Exn Cutter :=
  match c.tlogs_.getLast? with
  | none => throw (.assertion "!tlogs_.empty()")
  | some t => do
    let b ← c.bi_.write (kind.name t.id) (kind.object t.id c.tlog_writer)
    pure { c with bi_ := b, tlogs_ := c.tlogs_.dropLast ++ [{ t with written_to_backend := true }] }

/-- Begins a new log if `cut` says so. -/
def maybeCut (kind : LogKind) (uuid : Nat → TLogId) (cut : Bool) (c : Cutter) : Except Exn Cutter :=
  if cut then do
    let c ← c.writeTLogToBackend kind
    pure { c.makeNewTLog uuid with entries_written := 0 }
  else pure c

/-- Adds an entry to the log. -/
def addEntry (cluster_size_ : Nat) (c : Cutter) (e : Entry) : Except Exn Cutter := do
  let ca ← e.clusterAddress
  let tlog_writer ← TLogWriter.add c.tlog_writer ca e.loc_and_hash
  pure { c with
    tlog_writer
    tlogs_ := c.tlogs_.modify (c.tlogs_.length - 1) fun t => { t with size := t.size + cluster_size_ }
    entries_written := c.entries_written + 1
    prev_sco_num := e.clusterLocation.number }

/-- Adds an entry, to a new log if `cut` says so. -/
def doEntry (kind : LogKind) (uuid : Nat → TLogId) (cut : Cutter → Entry → Bool) (cluster_size_ : Nat) (c : Cutter)
    (e : Entry) : Except Exn Cutter := do
  let c ← c.maybeCut kind uuid (cut c e)
  c.addEntry cluster_size_ e

/-- Cuts the entries into logs and writes them. -/
def run (kind : LogKind) (uuid : Nat → TLogId) (cut : Cutter → Entry → Bool) (cluster_size_ : Nat)
    (bi : BackendInterface) (entries : List Entry) : Except Exn Cutter := do
  let c ← entries.foldlM (doEntry kind uuid cut cluster_size_) (makeNewTLog uuid { bi_ := bi })
  c.writeTLogToBackend kind

end Cutter

/-- Cuts between SCOs. -/
def TLogCutter (uuid : Nat → TLogId) (max_entries_ cluster_size_ : Nat) (bi : BackendInterface) (entries : List Entry) :
    Except Exn Cutter :=
  Cutter.run .tlog uuid
    (fun c e => max_entries_ ≤ c.entries_written && c.prev_sco_num != e.clusterLocation.number) cluster_size_ bi entries

/-- Cuts between pairs; sizes are not recorded. -/
def TheSonOfTLogCutter (uuid : Nat → TLogId) (max_entries_ : Nat) (bi : BackendInterface) (entries : List Entry) :
    Except Exn Cutter :=
  Cutter.run .relocation uuid (fun c _ => max_entries_ ≤ c.entries_written && c.entries_written % 2 == 0) 0 bi entries

/-! ## What is written -/

namespace Cutter

variable {kind : LogKind} {uuid : Nat → TLogId} {cluster_size_ : Nat} {b₀ : BackendInterface} {c c' : Cutter}

/-- The logs `logs` are on the backend, with their entries; nothing else was added. -/
structure Wrote (kind : LogKind) (b₀ : BackendInterface) (logs : Logs) (b : BackendInterface) :
    Prop where
  le : b₀.Le b
  stored : ∀ l ∈ logs, b (kind.name l.1) = some (kind.object l.1 l.2)
  added : ∀ name, b name ≠ none ↔ b₀ name ≠ none ∨ ∃ l ∈ logs, name = kind.name l.1
  fresh : ∀ l ∈ logs, b₀ (kind.name l.1) = none

/-- After the entries `done`: all logs but the last are on the backend. -/
structure Cutting (kind : LogKind) (b₀ : BackendInterface) (done : List Entry) (logs : Logs)
    (c : Cutter) : Prop where
  wrote : Wrote kind b₀ logs c.bi_
  ids : ∃ t, c.tlogs_.map (·.id) = logs.map Prod.fst ++ [t]
  entries : done = logs.entries ++ c.tlog_writer
  sane : ∀ e ∈ done, e.isLocation = true ∧ e.clusterAddress = .ok e.clusteraddress

variable {logs : Logs} {done : List Entry}

theorem Wrote.write {b b' : BackendInterface} {id : TLogId} {l : List Entry} (h : Wrote kind b₀ logs b)
    (hb : b.write (kind.name id) (kind.object id l) = .ok b') :
    Wrote kind b₀ (logs ++ [(id, l)]) b' := by
  have hle := BackendInterface.Le.write hb
  obtain ⟨hnone, rfl⟩ := BackendInterface.write_ok hb
  refine ⟨h.le.trans hle, ?_, ?_, ?_⟩
  · intro x hx
    rcases mem_append.1 hx with hx | hx
    · exact hle _ _ (h.stored x hx)
    · rw [mem_singleton.1 hx]
      exact Function.update_self ..
  · intro name
    by_cases hname : name = kind.name id
    · subst hname
      simp
    · rw [Function.update_of_ne hname, h.added name]
      simp [hname]
  · intro x hx
    rcases mem_append.1 hx with hx | hx
    · exact h.fresh x hx
    · rw [mem_singleton.1 hx]
      exact h.le.none hnone

theorem Wrote.read {b : BackendInterface} {nsid : TLogId → Except Exn (List Entry)}
    (hnsid : ∀ id l, b (kind.name id) = some (kind.object id l) → nsid id = .ok l)
    {logs : Logs} (hstored : ∀ l ∈ logs, b (kind.name l.1) = some (kind.object l.1 l.2))
    (hloc : ∀ e ∈ logs.entries, e.isLocation = true) :
    CombinedTLogReader nsid (logs.map Prod.fst) = .ok logs.entries := by
  apply CachedMetaDataStore.CombinedTLogReader_logs
  intro t ht
  refine ⟨t.2, hnsid _ _ (hstored t ht), filter_eq_self.2 ?_⟩
  intro e he
  exact hloc e (mem_flatten.2 ⟨t.2, mem_map_of_mem ht, he⟩)

theorem Cutting.writeTLogToBackend (h : Cutting kind b₀ done logs c) (hw : c.writeTLogToBackend kind = .ok c') :
    ∃ logs', Wrote kind b₀ logs' c'.bi_ ∧ c'.tlogs_.map (·.id) = logs'.map Prod.fst ∧
      done = logs'.entries ∧ c'.tlogs_ ≠ [] := by
  unfold Cutter.writeTLogToBackend at hw
  split at hw
  · cases hw
  · rename_i t ht
    obtain ⟨b, hb, hw⟩ := bind_ok hw
    rw [← pure_ok hw]
    obtain ⟨front, hfront⟩ := List.getLast?_eq_some_iff.1 ht
    obtain ⟨id, hids⟩ := h.ids
    rw [hfront, map_append, map_singleton] at hids
    obtain ⟨hids, hid⟩ := append_inj' hids rfl
    refine ⟨logs ++ [(t.id, c.tlog_writer)], h.wrote.write hb, ?_, ?_, by simp⟩
    · show (c.tlogs_.dropLast ++ [{ t with written_to_backend := true }]).map TLog.id = _
      rw [hfront, dropLast_concat]
      simp [hids]
    · rw [h.entries]; simp [Logs.entries]

theorem Cutting.maybeCut {cut : Bool} (h : Cutting kind b₀ done logs c) (hc : c.maybeCut kind uuid cut = .ok c') :
    ∃ logs', Cutting kind b₀ done logs' c' := by
  unfold Cutter.maybeCut at hc
  split at hc
  · obtain ⟨c₁, hw, hc⟩ := bind_ok hc
    rw [← pure_ok hc]
    obtain ⟨logs', h1, h2, h3, -⟩ := h.writeTLogToBackend hw
    refine ⟨logs', h1, ⟨uuid c₁.tlogs_.length, ?_⟩, ?_, h.sane⟩
    · show (c₁.tlogs_ ++ [({ id := uuid c₁.tlogs_.length } : TLog)]).map (·.id) = _
      rw [map_append, h2]; rfl
    · show done = _ ++ []
      rw [append_nil]; exact h3
  · rw [← pure_ok hc]
    exact ⟨logs, h⟩

theorem Cutting.addEntry {e : Entry} (h : Cutting kind b₀ done logs c) (hc : c.addEntry cluster_size_ e = .ok c') :
    Cutting kind b₀ (done ++ [e]) logs c' := by
  obtain ⟨ca, hca, hc⟩ := bind_ok hc
  obtain ⟨log, hlog, hc⟩ := bind_ok hc
  have hsane := TLogWriter.copy_sane hca hlog
  have hlog := TLogWriter.copy_ok hca hlog
  subst hlog
  rw [← pure_ok hc]
  obtain ⟨t, ht⟩ := h.ids
  refine ⟨h.wrote, ⟨t, ?_⟩, ?_, ?_⟩
  · -- the size of a TLog is not its id
    rw [← ht]
    apply ext_getElem?
    intro i
    rw [List.getElem?_map, List.getElem?_map, List.getElem?_modify]
    cases c.tlogs_[i]? with
    | none => rfl
    | some x => simp only [Option.map_some]; split <;> rfl
  · show done ++ [e] = _ ++ (c.tlog_writer ++ [e])
    rw [h.entries, append_assoc]
  · intro x hx
    rcases mem_append.1 hx with hx | hx
    · exact h.sane x hx
    · rw [mem_singleton.1 hx]; exact hsane

/-- The logs that are written have the entries, in order; nothing else is added to the namespace. -/
theorem run_ok {cut : Cutter → Entry → Bool} {entries : List Entry}
    (h : run kind uuid cut cluster_size_ b₀ entries = .ok c) :
    (∃ logs, Wrote kind b₀ logs c.bi_ ∧ c.tlogs_.map (·.id) = logs.map Prod.fst ∧
      entries = logs.entries ∧ c.tlogs_ ≠ []) ∧
      ∀ e ∈ entries, e.isLocation = true ∧ e.clusterAddress = .ok e.clusteraddress := by
  obtain ⟨c₁, hfold, h⟩ := bind_ok h
  have hstart : ∃ logs, Cutting kind b₀ [] logs (makeNewTLog uuid { bi_ := b₀ }) :=
    ⟨[], ⟨.refl _, by simp, by simp [makeNewTLog], by simp⟩, ⟨uuid 0, rfl⟩, rfl, by simp⟩
  obtain ⟨logs, hcut⟩ := foldlM_pre (P := fun done c => ∃ logs, Cutting kind b₀ done logs c) (by
    rintro done c e c' ⟨logs, hc⟩ he
    obtain ⟨c₂, hmaybe, hadd⟩ := bind_ok he
    obtain ⟨logs', hc'⟩ := hc.maybeCut hmaybe
    exact ⟨logs', hc'.addEntry hadd⟩) entries [] _ c₁ hstart hfold
  exact ⟨hcut.writeTLogToBackend h, hcut.sane⟩

end Cutter

end Scrubbing

end VolumeDriver
