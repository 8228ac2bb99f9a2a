/-
A volume with a synchronous DTL (`Volume::localRestart`, `setFailOverCacheConfig_`, `checkState`,
`SnapshotManagement::tlogWrittenToBackendCallback`): which writes the DTL holds, and in which states
the volume says that it holds all that the backend does not have. TLogs are kept with their writes;
a TLog ends with a SCO.
-/
import VolumeDriver.Dtl.Appending
import VolumeDriver.Dtl.FailOver
import VolumeDriver.Lib.Lists

namespace VolumeDriver.InSync

open Lib Contiguous List Nat

/-- A TLog with its writes. -/
structure TLog where
  id : TLogId
  entries : List CacheEntry := []

/-- The SCO of the last entry, a null one if there is none. -/
def TLog.sco (t : TLog) : SCO := (t.entries.getLast?.map (·.cli_.sco)).getD ⟨0, 0, 0⟩

/-- The volume, its backend and its DTL. -/
structure State where
  number : SCONumber := 1
  offset : SCOOffset := 0
  sco_mult : Nat
  /-- The writes in the TLogs on the backend. -/
  onBackend : List CacheEntry := []
  /-- The last SCO on the backend. -/
  lastSCOInBackend : SCONumber := 0
  /-- The TLogs that were closed and are not on the backend, oldest first. -/
  closed : List TLog := []
  currentTLog_ : TLog := ⟨0, []⟩
  /-- The identifier of the next TLog. -/
  newTLogId : TLogId := 1
  failoverstate_ : VolumeFailOverState := .OK_STANDALONE
  last_tlog_not_on_failover_ : Option TLogId := none
  /-- `foc_config_wrapper_` has a configuration. -/
  configured : Bool := false
  /-- `failover_` has a cache: the proxy of the server. -/
  cache_ : Bool := false
  /-- The server's cache for the volume. -/
  dtl : Backend := {}

open State

namespace State

variable (s : State)

/-- The writes that are not on the backend. -/
def notOnBackend : List CacheEntry := s.closed.flatMap (·.entries) ++ s.currentTLog_.entries

/-- All writes of the volume, in their order. -/
def writes : List CacheEntry := s.onBackend ++ s.notOnBackend

/-- A SCO with clusters is left for the next one. -/
def finalizeCurrentSCO : State :=
  if s.offset ≠ 0 then { s with number := (s.number + 1) % 2 ^ 32, offset := 0 } else s

/-- The current TLog is closed and scheduled; a new one is opened. -/
def switchTLog : State :=
  { s with
    closed := s.closed ++ [s.currentTLog_]
    currentTLog_ := ⟨s.newTLogId, []⟩
    newTLogId := s.newTLogId + 1 }

/-- `scheduleBackendSync`, a snapshot, or a TLog that is full at the end of a SCO. -/
def closeTLog : State := s.finalizeCurrentSCO.switchTLog

/-- The entries of clusters (an address and its data) that are written now. -/
def entriesFor (clusters : List (Nat × Bytes)) : List CacheEntry :=
  clusters.zipIdx.map fun c => ⟨⟨⟨s.number, 0, 0⟩, s.offset + c.2⟩, c.1.1, c.1.2⟩

/-- `FailOverCacheSyncBridge::addEntries`: a failure is the end of the connection. -/
def addEntries (es : List CacheEntry) (s : State) : State :=
  if s.cache_ then
    match Backend.addEntries es s.dtl with
    | .ok _ dtl => { s with dtl := dtl }
    | .error _ dtl => { s with dtl := dtl, cache_ := false, failoverstate_ := .DEGRADED }
  else s

/-- One chunk of a write: at most what fits into the SCO. -/
def write (clusters : List (Nat × Bytes)) : State :=
  if clusters ≠ [] ∧ s.offset + clusters.length ≤ s.sco_mult then
    addEntries (s.entriesFor clusters)
      { s with
        offset := (s.offset + clusters.length) % 2 ^ 16
        currentTLog_ := { s.currentTLog_ with entries := s.currentTLog_.entries ++ s.entriesFor clusters } }
  else s

/-- The DTL drops the SCOs up to the given one. -/
def removeUpToFromFailOverCache (sconame : SCO) (s : State) : State :=
  if s.cache_ then { s with dtl := after (Backend.removeUpTo sconame) s.dtl } else s

/-- In sync once the awaited TLog is on the backend. -/
def checkState (tlog_id : TLogId) (s : State) : State :=
  if s.last_tlog_not_on_failover_ = some tlog_id then { s with failoverstate_ := .OK_SYNC } else s

/-- The callback for a TLog. An empty one has no SCO to tell the data store and the DTL of. -/
def written (t : TLog) (closed : List TLog) (s : State) : State :=
  checkState t.id <|
    if t.sco.number ≠ 0 then
      removeUpToFromFailOverCache t.sco
        { s with closed := closed, onBackend := s.onBackend ++ t.entries, lastSCOInBackend := t.sco.number }
    else { s with closed := closed, onBackend := s.onBackend ++ t.entries }

/-- The oldest TLog is on the backend. -/
def tlogWrittenToBackendCallback : State :=
  match s.closed with
  | [] => s
  | t :: closed => s.written t closed

/-- What is left of the volume after an end: one that is not clean may have lost the last entries of
the current TLog. -/
def survived (lost : Nat) (s : State) : State :=
  { s with
    currentTLog_ :=
      { s.currentTLog_ with entries := s.currentTLog_.entries.take (s.currentTLog_.entries.length - lost) } }

/-- `getLastSCO`. -/
def getLastSCO : SCONumber := (s.writes.getLast?.map (·.cli_.sco.number)).getD 0

/-- The volume starts with the SCO after the last one, and registers with the DTL again. -/
def restarted : State :=
  { s with
    number := (s.getLastSCO + 1) % 2 ^ 32
    offset := 0
    last_tlog_not_on_failover_ := none
    cache_ := s.configured
    failoverstate_ := if s.configured then .OK_SYNC else .OK_STANDALONE
    dtl := if s.configured then s.dtl.setFirstCommandMustBeGetEntries else s.dtl }

/-- The current TLog is closed if it has entries. -/
def localRestart (lost : Nat) (s : State) : State :=
  if (s.survived lost).currentTLog_.entries ≠ [] then (s.survived lost).restarted.switchTLog
  else (s.survived lost).restarted

/-- `server` is what the server has for the volume, from whatever time before. -/
def connected (server : Backend) (s : State) : State :=
  { s with configured := true, cache_ := true, dtl := server.setFirstCommandMustBeGetEntries.clear }

/-- The last TLog with writes that the DTL does not get is remembered. -/
def setTLogNotOnFailOver : State :=
  if s.currentTLog_.entries ≠ [] then
    { s with last_tlog_not_on_failover_ := some s.currentTLog_.id, failoverstate_ := .KETCHUP }
  else
    match s.closed.getLast? with
    | some t => { s with last_tlog_not_on_failover_ := some t.id, failoverstate_ := .KETCHUP }
    | none => { s with last_tlog_not_on_failover_ := none, failoverstate_ := .OK_SYNC }

/-- A DTL is configured: what was written before is waited for. -/
def setFailOverCacheConfig_ (server : Backend) (s : State) : State :=
  (s.connected server).finalizeCurrentSCO.setTLogNotOnFailOver.switchTLog

end State

/-- What may happen to the volume. -/
inductive Action
  | write (clusters : List (Nat × Bytes))
  | finalizeCurrentSCO
  | closeTLog
  | tlogWrittenToBackend
  | localRestart (lost : Nat)
  | setFailOverCacheConfig (server : Backend)

/-- The state after an action. -/
def step (s : State) : Action → State
  | .write clusters => s.write clusters
  | .finalizeCurrentSCO => s.finalizeCurrentSCO
  | .closeTLog => s.closeTLog
  | .tlogWrittenToBackend => s.tlogWrittenToBackendCallback
  | .localRestart lost => s.localRestart lost
  | .setFailOverCacheConfig server => s.setFailOverCacheConfig_ server

/-- When the state is `OK_SYNC`, the DTL has the writes that the backend does not have. -/
def Recoverable (s : State) : Prop :=
  s.failoverstate_ = .OK_SYNC → s.dtl.entries = s.writes.filter fun e => e.cli_.sco.number > s.lastSCOInBackend

/-- A local restart comes while the DTL is in sync, and loses no write; the first write after it comes
when the TLogs from before are on the backend. SCO numbers and offsets do not run out. -/
def Orderly (s : State) : Action → Prop
  | .write clusters =>
    s.offset + clusters.length < 2 ^ 16 ∧
      (s.dtl.first_command_must_be_getEntries = true → s.cache_ = true → s.notOnBackend = [])
  | .localRestart lost =>
    s.number + 1 < 2 ^ 32 ∧ (s.configured = true → s.cache_ = true ∧ s.failoverstate_ = .OK_SYNC ∧ lost = 0)
  | .finalizeCurrentSCO | .closeTLog | .setFailOverCacheConfig _ => s.number + 1 < 2 ^ 32
  | .tlogWrittenToBackend => True

/-! ## The order of the writes -/

/-- The number of the entry's SCO. -/
def num (e : CacheEntry) : Nat := e.cli_.sco.number

/-- The entries of the first TLog are in SCOs before those of the second. -/
def Before (t t' : TLog) : Prop := ∀ e ∈ t.entries, ∀ e' ∈ t'.entries, num e < num e'

/-- SCO numbers grow with the writes, and a SCO belongs to one TLog. -/
structure Ordered (s : State) : Prop where
  number_pos : s.number ≠ 0
  number_lt : s.number < 2 ^ 32
  plain : ∀ e ∈ s.notOnBackend, e.cli_.sco = ⟨num e, 0, 0⟩ ∧ num e ≠ 0
  sorted : s.writes.Pairwise fun a b => num a ≤ num b
  finished : ∀ t ∈ s.closed, ∀ e ∈ t.entries, num e < s.number
  current : ∀ e ∈ s.currentTLog_.entries, num e ≤ s.number ∧ (num e = s.number → s.offset ≠ 0)
  tlogs : (s.closed ++ [s.currentTLog_]).Pairwise Before
  onBackend : ∀ e ∈ s.onBackend, num e ≤ s.lastSCOInBackend
  above : ∀ e ∈ s.notOnBackend, s.lastSCOInBackend < num e
  last_lt : s.lastSCOInBackend < s.number
  last_mem : s.lastSCOInBackend ≠ 0 → ∃ e ∈ s.onBackend, num e = s.lastSCOInBackend

/-- The DTL has the writes from after the first `k` TLogs that are not on the backend. -/
structure Held (k : Nat) (s : State) : Prop where
  le : k ≤ s.closed.length
  entries : s.dtl.entries = (s.closed.drop k).flatMap (·.entries) ++ s.currentTLog_.entries
  inOrder : InOrder s.dtl.scos
  tail : s.dtl.Tail s.number s.offset
  sync : s.failoverstate_ = .OK_SYNC → k = 0
  last : k ≠ 0 → ∃ t, s.closed[k - 1]? = some t ∧ s.last_tlog_not_on_failover_ = some t.id

/-- `getTLogsNotWrittenToBackend`. -/
def State.ids (s : State) : List TLogId := s.closed.map (·.id) ++ [s.currentTLog_.id]

/-- Which writes the DTL has, and whether the state says so. -/
structure Inv (s : State) : Prop where
  ordered : Ordered s
  ids : s.ids.Nodup
  ids_lt : ∀ id ∈ s.ids, id < s.newTLogId
  cache : s.cache_ = s.configured
  alone : s.cache_ = false → s.failoverstate_ ≠ .OK_SYNC ∧ s.last_tlog_not_on_failover_ = none
  held : s.cache_ = true → ∃ k, Held k s

theorem Inv.recoverable {s : State} (h : Inv s) : Recoverable s := by
  intro hsync
  have hcache : s.cache_ = true := by
    cases hc : s.cache_ with
    | true => rfl
    | false => exact absurd hsync (h.alone hc).1
  obtain ⟨k, hheld⟩ := h.held hcache
  rw [hheld.entries, hheld.sync hsync, drop_zero]
  -- what is on the backend is in SCOs up to the last one there, the rest behind it
  have hnone : (s.onBackend.filter fun e => e.cli_.sco.number > s.lastSCOInBackend) = [] := by
    refine filter_eq_nil_iff.mpr fun e he => ?_
    have hle : e.cli_.sco.number ≤ s.lastSCOInBackend := h.ordered.onBackend e he
    simpa using hle
  have hall : (s.notOnBackend.filter fun e => e.cli_.sco.number > s.lastSCOInBackend) = s.notOnBackend :=
    filter_eq_self.mpr fun e he => decide_eq_true (h.ordered.above e he)
  rw [writes, filter_append, hnone, hall]
  rfl

/-! ## Steps -/

section
variable {s : State}

variable {e : CacheEntry} {k : Nat} {closed : List TLog} {t : TLog} {last : SCONumber} {dtl : Backend}

theorem mem_notOnBackend : e ∈ s.notOnBackend ↔ (∃ t ∈ s.closed, e ∈ t.entries) ∨ e ∈ s.currentTLog_.entries := by
  rw [notOnBackend, mem_append, mem_flatMap]

theorem Ordered.le_number (h : Ordered s) (he : e ∈ s.writes) : num e ≤ s.number := by
  rcases mem_append.mp he with he | he
  · exact le_of_lt (lt_of_le_of_lt (h.onBackend e he) h.last_lt)
  · rcases mem_notOnBackend.mp he with ⟨t, ht, het⟩ | he
    · exact le_of_lt (h.finished t ht e het)
    · exact (h.current e he).1

theorem Ordered.withDtl (h : Ordered s) (dtl : Backend) (state : VolumeFailOverState) (last : Option TLogId)
    (configured cache : Bool) :
    Ordered { s with dtl, failoverstate_ := state, last_tlog_not_on_failover_ := last, configured, cache_ := cache } :=
  { h with }

theorem Ordered.moved (h : Ordered s) {n : Nat} (hn : ∀ e ∈ s.notOnBackend, num e < n) (hlast : s.lastSCOInBackend < n)
    (hlt : n < 2 ^ 32) : Ordered { s with number := n, offset := 0 } where
  __ := h
  number_pos := Nat.ne_of_gt (Nat.lt_of_le_of_lt (Nat.zero_le _) hlast)
  number_lt := hlt
  finished := fun t ht e he => hn e (mem_notOnBackend.mpr (Or.inl ⟨t, ht, he⟩))
  current := by
    intro e he
    have hlt := hn e (mem_notOnBackend.mpr (Or.inr he))
    exact ⟨Nat.le_of_lt hlt, fun heq => absurd heq (Nat.ne_of_lt hlt)⟩
  last_lt := hlast

theorem Held.pending (h : Held k s) (he : e ∈ s.dtl.entries) : e ∈ s.notOnBackend := by
  rw [h.entries] at he
  rcases mem_append.mp he with he | he
  · obtain ⟨t, ht, he⟩ := mem_flatMap.mp he
    exact mem_notOnBackend.mpr (Or.inl ⟨t, mem_of_mem_drop ht, he⟩)
  · exact mem_notOnBackend.mpr (Or.inr he)

theorem Held.below {n : Nat} (h : Held k s) (hn : ∀ e ∈ s.notOnBackend, num e < n) :
    ∀ p ∈ s.dtl.scos, p.1.number < n := by
  intro p hp
  obtain ⟨e, he⟩ := exists_mem_of_ne_nil _ (h.inOrder.nonempty p hp)
  have hlt := hn e (h.pending (mem_flatMap.mpr ⟨p, hp, he⟩))
  unfold num at hlt
  rwa [h.inOrder.sco p hp e he] at hlt

theorem Ordered.finalizeCurrentSCO (h : Ordered s) (hnum : s.number + 1 < 2 ^ 32) : Ordered s.finalizeCurrentSCO := by
  unfold State.finalizeCurrentSCO
  split
  · rw [mod_eq_of_lt hnum]
    apply h.moved _ (lt_succ_of_lt h.last_lt) hnum
    exact fun e he => lt_succ_of_le (h.le_number (mem_append_right _ he))
  · exact h

theorem Inv.finalizeCurrentSCO (h : Inv s) (hnum : s.number + 1 < 2 ^ 32) : Inv s.finalizeCurrentSCO := by
  have hord := h.ordered.finalizeCurrentSCO hnum
  unfold State.finalizeCurrentSCO at hord ⊢
  split
  · next hoff =>
    rw [if_pos hoff] at hord
    refine { h with ordered := hord, held := fun hc => ?_ }
    obtain ⟨k, hk⟩ := h.held hc
    refine ⟨k, { hk with tail := Backend.Tail.next (hk.below fun e he => ?_) 0 }⟩
    rw [mod_eq_of_lt hnum]
    exact lt_succ_of_le (h.ordered.le_number (mem_append_right _ he))
  · exact h

theorem finalizeCurrentSCO_eq (s : State) : ∃ n, s.finalizeCurrentSCO = { s with number := n, offset := 0 } := by
  unfold finalizeCurrentSCO
  split
  · exact ⟨_, rfl⟩
  · next h => exact ⟨s.number, by rw [← not_not.mp h]⟩

theorem finalizeCurrentSCO_offset (s : State) : s.finalizeCurrentSCO.offset = 0 := by
  obtain ⟨n, h⟩ := finalizeCurrentSCO_eq s
  rw [h]

theorem notOnBackend_switchTLog (s : State) : s.switchTLog.notOnBackend = s.notOnBackend := by
  unfold notOnBackend State.switchTLog
  rw [flatMap_append, flatMap_singleton, append_nil]

theorem Ordered.switchTLog (h : Ordered s) (hoff : s.offset = 0) : Ordered s.switchTLog where
  __ := h
  plain := notOnBackend_switchTLog s ▸ h.plain
  sorted := by
    rw [writes, notOnBackend_switchTLog]
    exact h.sorted
  finished := by
    intro t ht e he
    rcases mem_append.mp ht with ht | ht
    · exact h.finished t ht e he
    · rw [mem_singleton.mp ht] at he
      obtain ⟨hle, hne⟩ := h.current e he
      exact lt_of_le_of_ne hle fun heq => hne heq hoff
  current := nofun
  tlogs := by
    -- nothing is in the new TLog
    refine pairwise_append.mpr ⟨h.tlogs, pairwise_singleton .., ?_⟩
    intro t _ t' ht' e _ e' he'
    rw [mem_singleton.mp ht'] at he'
    cases he'
  above := notOnBackend_switchTLog s ▸ h.above

theorem Ordered.tlogs_current (h : Ordered s) (hnew : ∀ e ∈ t.entries, e ∈ s.currentTLog_.entries ∨ num e = s.number) :
    (s.closed ++ [t]).Pairwise Before := by
  obtain ⟨hclosed, -, hbefore⟩ := pairwise_append.mp h.tlogs
  refine pairwise_append.mpr ⟨hclosed, pairwise_singleton .., ?_⟩
  intro t₁ ht₁ t' ht' e he e' he'
  rcases hnew e' (mem_singleton.mp ht' ▸ he') with he' | he'
  · exact hbefore t₁ ht₁ _ (mem_singleton_self _) e he e' he'
  · rw [he']
    exact h.finished t₁ ht₁ e he

theorem Held.switchTLog (h : Held k s) : Held k s.switchTLog where
  __ := h
  le := le_trans h.le (by rw [State.switchTLog, length_append]; exact Nat.le_add_right ..)
  entries := by
    unfold State.switchTLog
    rw [drop_append_of_le_length h.le, flatMap_append, flatMap_singleton, append_nil]
    exact h.entries
  last := by
    intro hk
    obtain ⟨t, ht, hlast⟩ := h.last hk
    refine ⟨t, ?_, hlast⟩
    unfold State.switchTLog
    rw [List.getElem?_append_left]
    · exact ht
    · have hle := h.le
      omega

theorem ids_switchTLog (s : State) : s.switchTLog.ids = s.ids ++ [s.newTLogId] := by
  unfold ids switchTLog
  rw [map_append, map_singleton]

theorem switchTLog_ids (hids : s.ids.Nodup) (hids_lt : ∀ id ∈ s.ids, id < s.newTLogId) :
    s.switchTLog.ids.Nodup ∧ ∀ id ∈ s.switchTLog.ids, id < s.newTLogId + 1 := by
  rw [ids_switchTLog]
  constructor
  · refine nodup_append.mpr ⟨hids, pairwise_singleton .., ?_⟩
    intro id hid id' hid' heq
    have hlt := hids_lt id hid
    rw [heq, mem_singleton.mp hid'] at hlt
    exact lt_irrefl _ hlt
  · intro id hid
    rcases mem_append.mp hid with hid | hid
    · exact lt_succ_of_lt (hids_lt id hid)
    · rw [mem_singleton.mp hid]
      exact lt_succ_self _

theorem Inv.switchTLog (h : Inv s) (hoff : s.offset = 0) : Inv s.switchTLog where
  __ := h
  ordered := h.ordered.switchTLog hoff
  ids := (switchTLog_ids h.ids h.ids_lt).1
  ids_lt := (switchTLog_ids h.ids h.ids_lt).2
  held := fun hc => by
    obtain ⟨k, hk⟩ := h.held hc
    exact ⟨k, hk.switchTLog⟩

theorem Inv.closeTLog (h : Inv s) (hnum : s.number + 1 < 2 ^ 32) : Inv s.closeTLog :=
  (h.finalizeCurrentSCO hnum).switchTLog (finalizeCurrentSCO_offset s)

/-! ### Writes -/

section
variable {clusters : List (Nat × Bytes)}

theorem length_entriesFor (s : State) (clusters : List (Nat × Bytes)) :
    (s.entriesFor clusters).length = clusters.length := by
  rw [entriesFor, length_map, length_zipIdx]

theorem entriesFor_batch (s : State) (h : clusters ≠ []) : Backend.Batch s.number s.offset (s.entriesFor clusters) := by
  constructor
  · intro hnil
    exact h (length_eq_zero_iff.mp (by rw [← length_entriesFor s, hnil]; rfl))
  · have hlocs : (s.entriesFor clusters).map (·.cli_) =
        (clusters.zipIdx.map Prod.snd).map fun i => ⟨⟨s.number, 0, 0⟩, s.offset + i⟩ := by
      rw [entriesFor, map_map, map_map]
      rfl
    have hrange : List.range' s.offset clusters.length = (List.range' 0 clusters.length).map (s.offset + ·) :=
      (map_add_range' 0 clusters.length 1).symm
    rw [hlocs, zipIdx_map_snd, length_entriesFor, locations, hrange, map_map]
    rfl

theorem mem_entriesFor (h : clusters ≠ []) {e : CacheEntry} (he : e ∈ s.entriesFor clusters) :
    e.cli_.sco = ⟨s.number, 0, 0⟩ ∧ num e = s.number := by
  have hsco := ((entriesFor_batch s h).mem he).1
  exact ⟨hsco, congrArg SCO.number hsco⟩

/-- The TLog takes the entries of a write. -/
def State.recorded (s : State) (clusters : List (Nat × Bytes)) : State :=
  { s with
    offset := s.offset + clusters.length
    currentTLog_ := { s.currentTLog_ with entries := s.currentTLog_.entries ++ s.entriesFor clusters } }

theorem notOnBackend_recorded (s : State) (clusters : List (Nat × Bytes)) :
    (s.recorded clusters).notOnBackend = s.notOnBackend ++ s.entriesFor clusters :=
  (append_assoc ..).symm

theorem Ordered.recorded (h : Ordered s) (hne : clusters ≠ []) : Ordered (s.recorded clusters) := by
  have hlen : clusters.length ≠ 0 := fun h0 => hne (length_eq_zero_iff.mp h0)
  have hnew : ∀ {e : CacheEntry}, e ∈ s.entriesFor clusters → e.cli_.sco = ⟨s.number, 0, 0⟩ ∧ num e = s.number :=
    fun he => mem_entriesFor hne he
  have hmem : ∀ {P : CacheEntry → Prop}, (∀ e ∈ s.notOnBackend, P e) → (∀ e ∈ s.entriesFor clusters, P e) →
      ∀ e ∈ (s.recorded clusters).notOnBackend, P e := by
    intro P hold hes e he
    rw [notOnBackend_recorded] at he
    rcases mem_append.mp he with he | he
    · exact hold e he
    · exact hes e he
  refine { h with plain := ?_, sorted := ?_, current := ?_, tlogs := ?_, above := ?_ }
  · apply hmem h.plain
    intro e he
    obtain ⟨hsco, hnum⟩ := hnew he
    exact ⟨by rw [hsco, hnum], by rw [hnum]; exact h.number_pos⟩
  · have hwrites : (s.recorded clusters).writes = s.writes ++ s.entriesFor clusters := by
      rw [writes, notOnBackend_recorded, ← append_assoc]
      rfl
    rw [hwrites]
    refine pairwise_append.mpr ⟨h.sorted, ?_, ?_⟩
    · exact pairwise_of_forall_mem_list fun a ha b hb => Nat.le_of_eq ((hnew ha).2.trans (hnew hb).2.symm)
    · intro a ha b hb
      rw [(hnew hb).2]
      exact h.le_number ha
  · intro e he
    have hoff : s.offset + clusters.length ≠ 0 := fun h0 => hlen (Nat.eq_zero_of_add_eq_zero_left h0)
    rcases mem_append.mp he with he | he
    · exact ⟨(h.current e he).1, fun _ => hoff⟩
    · exact ⟨Nat.le_of_eq (hnew he).2, fun _ => hoff⟩
  · exact h.tlogs_current fun e he => (mem_append.mp he).imp_right fun he => (hnew he).2
  · apply hmem h.above
    intro e he
    rw [(hnew he).2]
    exact h.last_lt

theorem scos_nil {b : Backend} (hin : InOrder b.scos) (h : b.entries = []) : b.scos = [] := by
  cases hs : b.scos with
  | nil => rfl
  | cons p ps =>
    have hp : p ∈ b.scos := by
      rw [hs]
      exact mem_cons_self ..
    obtain ⟨e, he⟩ := exists_mem_of_ne_nil _ (hin.nonempty p hp)
    have : e ∈ b.entries := mem_flatMap.mpr ⟨p, hp, he⟩
    rw [h] at this
    cases this

theorem addEntries_alone {es : List CacheEntry} (hc : s.cache_ = false) : s.addEntries es = s := by
  unfold addEntries
  rw [hc]
  rfl

theorem addEntries_connected {es : List CacheEntry} {dtl : Backend} (hc : s.cache_ = true)
    (h : Backend.addEntries es s.dtl = .ok () dtl) : s.addEntries es = { s with dtl := dtl } := by
  unfold addEntries
  rw [if_pos hc, h]

theorem Inv.write (h : Inv s) (hoff : s.offset + clusters.length < 2 ^ 16)
    (hflag : s.dtl.first_command_must_be_getEntries = true → s.cache_ = true → s.notOnBackend = []) :
    Inv (s.write clusters) := by
  unfold State.write
  split
  · next hw =>
    rw [mod_eq_of_lt hoff]
    show Inv (State.addEntries (s.entriesFor clusters) (s.recorded clusters))
    have hord := h.ordered.recorded hw.1
    cases hc : s.cache_ with
    | false =>
      rw [addEntries_alone (show (s.recorded clusters).cache_ = false from hc)]
      exact ⟨hord, h.ids, h.ids_lt, h.cache, h.alone, fun hc' => absurd (hc.symm.trans hc') (by decide)⟩
    | true =>
      obtain ⟨k, hk⟩ := h.held hc
      have hlen := length_entriesFor s clusters
      have hempty : s.dtl.first_command_must_be_getEntries = true → s.dtl.scos = [] := by
        intro hf
        apply scos_nil hk.inOrder
        obtain ⟨hclosed, hcurrent⟩ := append_eq_nil_iff.mp (hflag hf hc)
        rw [hk.entries, hcurrent, append_nil]
        refine flatMap_eq_nil_iff.mpr fun t ht => flatMap_eq_nil_iff.mp hclosed t (mem_of_mem_drop ht)
      obtain ⟨dtl, hrun, hentries, hin, htail, -⟩ := Backend.addEntries_ok hk.inOrder hk.tail hempty
        h.ordered.number_pos h.ordered.number_lt (entriesFor_batch s hw.1) (by rw [hlen]; exact le_of_lt hoff)
      rw [hlen] at htail
      rw [addEntries_connected (show (s.recorded clusters).cache_ = true from hc) hrun]
      refine ⟨hord.withDtl dtl .., h.ids, h.ids_lt, h.cache, h.alone, fun _ => ⟨k, ?_⟩⟩
      refine ⟨hk.le, ?_, hin, htail, hk.sync, hk.last⟩
      rw [hk.entries, append_assoc] at hentries
      exact hentries
  · exact h

end

/-! ### TLogs on the backend -/

/-- The TLog's writes count as on the backend, up to its last SCO. -/
def State.uploaded (s : State) (t : TLog) (closed : List TLog) (last : SCONumber) (dtl : Backend) : State :=
  { s with closed := closed, onBackend := s.onBackend ++ t.entries, lastSCOInBackend := last, dtl := dtl }

theorem writes_uploaded (hclosed : s.closed = t :: closed) (last : SCONumber) (dtl : Backend) :
    (s.uploaded t closed last dtl).writes = s.writes := by
  unfold writes uploaded notOnBackend
  rw [hclosed, flatMap_cons]
  simp only [append_assoc]

theorem Ordered.uploaded (h : Ordered s) (hclosed : s.closed = t :: closed) (dtl : Backend)
    (hle : ∀ e ∈ t.entries, num e ≤ last) (hmono : s.lastSCOInBackend ≤ last)
    (hmem : last ≠ s.lastSCOInBackend → ∃ e ∈ t.entries, num e = last) : Ordered (s.uploaded t closed last dtl) := by
  have hsub : ∀ e ∈ (s.uploaded t closed last dtl).notOnBackend, e ∈ s.notOnBackend := by
    intro e he
    rcases mem_notOnBackend.mp he with ⟨t', ht', he⟩ | he
    · exact mem_notOnBackend.mpr (Or.inl ⟨t', hclosed ▸ mem_cons_of_mem t ht', he⟩)
    · exact mem_notOnBackend.mpr (Or.inr he)
  have htlogs : (t :: (closed ++ [s.currentTLog_])).Pairwise Before := by
    have := h.tlogs
    rwa [hclosed] at this
  obtain ⟨hfirst, hrest⟩ := pairwise_cons.mp htlogs
  have ht : t ∈ s.closed := hclosed ▸ mem_cons_self ..
  refine { h with
    plain := fun e he => h.plain e (hsub e he)
    sorted := writes_uploaded hclosed last dtl ▸ h.sorted
    finished := fun t' ht' => h.finished t' (hclosed ▸ mem_cons_of_mem t ht')
    tlogs := hrest
    onBackend := ?_, above := ?_, last_lt := ?_, last_mem := ?_ }
  · intro e he
    rcases mem_append.mp he with he | he
    · exact le_trans (h.onBackend e he) hmono
    · exact hle e he
  · -- the other TLogs are in later SCOs
    intro e he
    by_cases heq : last = s.lastSCOInBackend
    · show last < num e
      rw [heq]
      exact h.above e (hsub e he)
    · obtain ⟨x, hx, hnum⟩ := hmem heq
      have hafter : ∃ t' ∈ closed ++ [s.currentTLog_], e ∈ t'.entries := by
        rcases mem_notOnBackend.mp he with ⟨t', ht', he⟩ | he
        · exact ⟨t', mem_append_left _ ht', he⟩
        · exact ⟨_, mem_append_right _ (mem_singleton_self _), he⟩
      obtain ⟨t', ht', he'⟩ := hafter
      have hlt := hfirst t' ht' x hx e he'
      rwa [hnum] at hlt
  · by_cases heq : last = s.lastSCOInBackend
    · show last < s.number
      rw [heq]
      exact h.last_lt
    · obtain ⟨x, hx, hnum⟩ := hmem heq
      have hlt := h.finished t ht x hx
      rwa [hnum] at hlt
  · intro hne
    by_cases heq : last = s.lastSCOInBackend
    · obtain ⟨e, he, hnum⟩ := h.last_mem (heq ▸ hne)
      exact ⟨e, mem_append_left _ he, hnum.trans heq.symm⟩
    · obtain ⟨x, hx, hnum⟩ := hmem heq
      exact ⟨x, mem_append_right _ hx, hnum⟩

theorem Held.filter_uploaded (h : Held k s) (hclosed : s.closed = t :: closed)
    (hle : ∀ e ∈ t.entries, num e ≤ last) (ho : Ordered (s.uploaded t closed last dtl)) :
    (s.dtl.entries.filter fun e => e.cli_.sco.number > last) =
      (closed.drop (k - 1)).flatMap (·.entries) ++ s.currentTLog_.entries := by
  have hkept : ∀ n, ((closed.drop n).flatMap (·.entries) ++ s.currentTLog_.entries).filter
      (fun e => e.cli_.sco.number > last) = (closed.drop n).flatMap (·.entries) ++ s.currentTLog_.entries := by
    intro n
    refine filter_eq_self.mpr fun e he => decide_eq_true (ho.above e (mem_notOnBackend.mpr ?_))
    rcases mem_append.mp he with he | he
    · obtain ⟨t', ht', he⟩ := mem_flatMap.mp he
      exact Or.inl ⟨t', mem_of_mem_drop ht', he⟩
    · exact Or.inr he
  rw [h.entries, hclosed]
  cases k with
  | zero =>
    have hnone : (t.entries.filter fun e => e.cli_.sco.number > last) = [] := by
      refine filter_eq_nil_iff.mpr fun e he => ?_
      have hnum : e.cli_.sco.number ≤ last := hle e he
      simpa using hnum
    rw [drop_zero, flatMap_cons, append_assoc, filter_append, hnone]
    exact hkept 0
  | succ k => exact hkept k

theorem Held.uploaded (h : Held k s) (hclosed : s.closed = t :: closed) (hle : ∀ e ∈ t.entries, num e ≤ last)
    (ho : Ordered (s.uploaded t closed last dtl))
    (hentries : dtl.entries = s.dtl.entries.filter fun e => e.cli_.sco.number > last) (hin : InOrder dtl.scos)
    (htail : dtl.Tail s.number s.offset) : Held (k - 1) (s.uploaded t closed last dtl) where
  le := by
    have hlen := h.le
    rw [hclosed, length_cons] at hlen
    show k - 1 ≤ closed.length
    omega
  entries := hentries.trans (h.filter_uploaded hclosed hle ho)
  inOrder := hin
  tail := htail
  sync := fun hs => by rw [h.sync hs]
  last := by
    intro hk
    obtain ⟨t', ht', hlast⟩ := h.last (by omega)
    refine ⟨t', ?_, hlast⟩
    rw [hclosed, List.getElem?_cons, if_neg hk] at ht'
    exact ht'

theorem Inv.checkState {s' : State} (h : Inv s) (hk : Held k s) (hclosed : s.closed = t :: closed)
    (hk' : Held (k - 1) s')
    (hlast : s'.last_tlog_not_on_failover_ = s.last_tlog_not_on_failover_) : Held (k - 1) (s'.checkState t.id) := by
  unfold State.checkState
  split
  · next heq =>
    refine { hk' with sync := fun _ => ?_ }
    by_contra hne
    obtain ⟨t', ht', hid⟩ := hk.last (by omega)
    rw [hlast, hid] at heq
    -- a later TLog has another identifier
    have hids := h.ids
    rw [State.ids, hclosed, map_cons, cons_append, nodup_cons] at hids
    rw [hclosed, List.getElem?_cons, if_neg hne] at ht'
    have hmem : t' ∈ closed := mem_of_getElem? ht'
    exact hids.1 (Option.some.inj heq ▸ mem_append_left _ (mem_map_of_mem hmem))
  · exact hk'

theorem checkState_none {id : TLogId} (h : s.last_tlog_not_on_failover_ = none) : s.checkState id = s := by
  unfold checkState
  rw [h]
  rfl

theorem Ordered.checkState (h : Ordered s) (id : TLogId) : Ordered (s.checkState id) := by
  unfold State.checkState
  split
  · exact h.withDtl ..
  · exact h

theorem Inv.callback (h : Inv s) (hclosed : s.closed = t :: closed) (hle : ∀ e ∈ t.entries, num e ≤ last)
    (ho : Ordered (s.uploaded t closed last dtl))
    (hdtl : s.cache_ = true → dtl.entries = (s.dtl.entries.filter fun e => e.cli_.sco.number > last) ∧
      InOrder dtl.scos ∧ dtl.Tail s.number s.offset) : Inv ((s.uploaded t closed last dtl).checkState t.id) := by
  have hfields : ∀ s' : State, (s'.checkState t.id).closed = s'.closed ∧
      (s'.checkState t.id).currentTLog_ = s'.currentTLog_ ∧ (s'.checkState t.id).newTLogId = s'.newTLogId ∧
      (s'.checkState t.id).cache_ = s'.cache_ ∧
      (s'.checkState t.id).configured = s'.configured := by
    intro s'
    unfold State.checkState
    split <;> exact ⟨rfl, rfl, rfl, rfl, rfl⟩
  obtain ⟨hcl, hcur, hnew, hcache, hconf⟩ := hfields (s.uploaded t closed last dtl)
  have hids : s.ids = t.id :: ((s.uploaded t closed last dtl).checkState t.id).ids := by
    rw [State.ids, State.ids, hcl, hcur, hclosed]
    rfl
  constructor
  · exact ho.checkState t.id
  · have := h.ids
    rw [hids] at this
    exact (nodup_cons.mp this).2
  · intro id hid
    rw [hnew]
    exact h.ids_lt id (hids ▸ mem_cons_of_mem _ hid)
  · rw [hcache, hconf]
    exact h.cache
  · intro hc
    rw [hcache] at hc
    obtain ⟨hne, hnone⟩ := h.alone hc
    rw [checkState_none (show (s.uploaded t closed last dtl).last_tlog_not_on_failover_ = none from hnone)]
    exact ⟨hne, hnone⟩
  · intro hc
    rw [hcache] at hc
    obtain ⟨k, hk⟩ := h.held hc
    obtain ⟨hentries, hin, htail⟩ := hdtl hc
    exact ⟨k - 1, h.checkState hk hclosed (hk.uploaded hclosed hle ho hentries hin htail) rfl⟩

theorem Inv.tlogWrittenToBackendCallback (h : Inv s) : Inv s.tlogWrittenToBackendCallback := by
  unfold State.tlogWrittenToBackendCallback
  cases hclosed : s.closed with
  | nil => exact h
  | cons t closed =>
    show Inv (s.written t closed)
    unfold State.written
    have hmem : ∀ e ∈ t.entries, e ∈ s.notOnBackend := by
      intro e he
      exact mem_notOnBackend.mpr (Or.inl ⟨t, hclosed ▸ mem_cons_self .., he⟩)
    cases hlast : t.entries.getLast? with
    | none =>
      -- an empty TLog
      have hnil := List.getLast?_eq_none_iff.mp hlast
      have hle : ∀ e ∈ t.entries, num e ≤ s.lastSCOInBackend := by
        intro e he
        rw [hnil] at he
        cases he
      have ho : Ordered (s.uploaded t closed s.lastSCOInBackend s.dtl) :=
        h.ordered.uploaded hclosed s.dtl hle (le_refl _) fun hne => absurd rfl hne
      have hsco : ¬ t.sco.number ≠ 0 := by
        unfold TLog.sco
        rw [hlast]
        exact fun hne => hne rfl
      rw [if_neg hsco]
      apply h.callback hclosed hle ho
      intro hc
      obtain ⟨k, hk⟩ := h.held hc
      refine ⟨(filter_eq_self.mpr fun e he => decide_eq_true (h.ordered.above e ?_)).symm, hk.inOrder, hk.tail⟩
      exact hk.pending he
    | some last =>
      have hin : last ∈ t.entries := mem_of_getLast? hlast
      obtain ⟨hplain, hpos⟩ := h.ordered.plain last (hmem last hin)
      have hsco : t.sco = ⟨num last, 0, 0⟩ := by
        unfold TLog.sco
        rw [hlast]
        exact hplain
      have hsub : t.entries.Sublist s.writes := by
        unfold State.writes State.notOnBackend
        rw [hclosed, flatMap_cons]
        exact ((sublist_append_left ..).trans (sublist_append_left ..)).trans (sublist_append_right ..)
      have hle := le_getLast (h.ordered.sorted.sublist hsub) hlast
      have hlt := h.ordered.finished t (hclosed ▸ mem_cons_self ..) last hin
      have ho : ∀ dtl, Ordered (s.uploaded t closed (num last) dtl) := fun dtl =>
        h.ordered.uploaded hclosed dtl hle (le_of_lt (h.ordered.above last (hmem last hin))) fun _ => ⟨last, hin, rfl⟩
      rw [hsco, if_pos hpos]
      unfold State.removeUpToFromFailOverCache
      split
      · next hc =>
        obtain ⟨k, hk⟩ := h.held hc
        obtain ⟨dtl, hrun, hscos, -, htail⟩ := Backend.removeUpTo_ok s.dtl (num last)
        rw [after_ok hrun]
        apply h.callback hclosed hle (ho dtl)
        intro _
        refine ⟨?_, ?_, htail _ _ hk.tail hlt⟩
        · rw [Backend.entries_eq, hscos, entries_rest hk.inOrder]
          rfl
        · rw [hscos]
          exact hk.inOrder.rest
      · next hc => exact h.callback hclosed hle (ho s.dtl) fun hc' => absurd hc' hc

/-! ### Restarts -/

theorem writes_survived (s : State) (lost : Nat) : (s.survived lost).writes.Sublist s.writes :=
  (List.Sublist.refl _).append ((List.Sublist.refl _).append (take_sublist ..))

theorem Ordered.survived (h : Ordered s) (lost : Nat) : Ordered (s.survived lost) := by
  have hsub : ∀ e ∈ (s.survived lost).notOnBackend, e ∈ s.notOnBackend := fun e he =>
    ((List.Sublist.refl _).append (take_sublist ..)).mem he
  exact { h with
    plain := fun e he => h.plain e (hsub e he)
    sorted := h.sorted.sublist (writes_survived s lost)
    current := fun e he => h.current e (mem_of_mem_take he)
    tlogs := h.tlogs_current fun e he => .inl (mem_of_mem_take he)
    above := fun e he => h.above e (hsub e he) }

theorem survived_zero (s : State) : s.survived 0 = s := by
  unfold survived
  rw [Nat.sub_zero, take_length]

theorem Ordered.getLastSCO (h : Ordered s) : ∀ e ∈ s.writes, num e ≤ s.getLastSCO := le_last h.sorted

theorem Ordered.getLastSCO_le (h : Ordered s) : s.getLastSCO ≤ s.number := by
  unfold State.getLastSCO
  cases hl : s.writes.getLast? with
  | none => exact zero_le _
  | some e => exact h.le_number (mem_of_getLast? hl)

theorem inv_restarted (ho : Ordered s) (hids : s.ids.Nodup) (hlt : ∀ id ∈ s.ids, id < s.newTLogId)
    (hnum : s.number + 1 < 2 ^ 32) (hheld : s.configured = true → Held 0 s) : Inv s.restarted := by
  have hmod : (s.getLastSCO + 1) % 2 ^ 32 = s.getLastSCO + 1 :=
    mod_eq_of_lt (lt_of_le_of_lt (succ_le_succ ho.getLastSCO_le) hnum)
  have hbackend : s.lastSCOInBackend < s.getLastSCO + 1 := by
    by_cases hzero : s.lastSCOInBackend = 0
    · rw [hzero]
      exact succ_pos _
    · obtain ⟨e, he, hlast⟩ := ho.last_mem hzero
      rw [← hlast]
      exact lt_succ_of_le (ho.getLastSCO e (mem_append_left _ he))
  have hnot : ∀ e ∈ s.notOnBackend, num e < s.getLastSCO + 1 := fun e he =>
    lt_succ_of_le (ho.getLastSCO e (mem_append_right _ he))
  have hmoved := ho.moved hnot hbackend (lt_of_le_of_lt (succ_le_succ ho.getLastSCO_le) hnum)
  unfold restarted
  rw [hmod]
  constructor
  · exact hmoved.withDtl ..
  · exact hids
  · exact hlt
  · rfl
  · intro hc
    have hc : s.configured = false := hc
    rw [hc]
    exact ⟨by simp, rfl⟩
  · intro hc
    have hc : s.configured = true := hc
    have hk := hheld hc
    refine ⟨0, zero_le _, ?_, ?_, ?_, fun _ => rfl, fun hne => absurd rfl hne⟩
    · simp only [hc]
      exact hk.entries
    · simp only [hc]
      exact hk.inOrder
    · simp only [hc]
      exact Backend.Tail.next (b := s.dtl.setFirstCommandMustBeGetEntries) (hk.below hnot) 0

theorem Inv.localRestart (h : Inv s) {lost : Nat} (hnum : s.number + 1 < 2 ^ 32)
    (hsync : s.configured = true → s.cache_ = true ∧ s.failoverstate_ = .OK_SYNC ∧ lost = 0) :
    Inv (s.localRestart lost) := by
  have hheld : (s.survived lost).configured = true → Held 0 (s.survived lost) := by
    intro hc
    obtain ⟨hcache, hstate, rfl⟩ := hsync hc
    obtain ⟨k, hk⟩ := h.held hcache
    obtain rfl := hk.sync hstate
    rw [survived_zero]
    exact hk
  have hinv : Inv (s.survived lost).restarted := inv_restarted (h.ordered.survived lost) h.ids h.ids_lt hnum hheld
  unfold State.localRestart
  split
  · exact hinv.switchTLog rfl
  · exact hinv

/-! ### A new DTL -/

theorem setTLogNotOnFailOver_eq (s : State) : ∃ state last,
    s.setTLogNotOnFailOver = { s with last_tlog_not_on_failover_ := last, failoverstate_ := state } := by
  unfold setTLogNotOnFailOver
  split
  · exact ⟨_, _, rfl⟩
  · split
    · exact ⟨_, _, rfl⟩
    · exact ⟨_, _, rfl⟩

theorem held_of_empty (hdtl : s.dtl.scos = []) (hoff : s.offset = 0) :
    ∃ k, Held k s.setTLogNotOnFailOver.switchTLog := by
  have hentries : s.dtl.entries = [] := by
    rw [Backend.entries_eq, hdtl]
    rfl
  have hin : InOrder s.dtl.scos := by
    rw [hdtl]
    exact InOrder.nil
  have htail : s.dtl.Tail s.number s.offset := by
    rw [hoff]
    apply Backend.Tail.next
    rw [hdtl]
    exact fun p hp => absurd hp (not_mem_nil)
  unfold setTLogNotOnFailOver switchTLog
  split
  · refine ⟨s.closed.length + 1, ?_, ?_, hin, htail, by rintro ⟨⟩, fun _ => ⟨s.currentTLog_, ?_, rfl⟩⟩
    · simp
    · simpa using hentries
    · simp
  · next hempty =>
    have hempty : s.currentTLog_.entries = [] := not_not.mp hempty
    split
    · next t ht =>
      refine ⟨s.closed.length, ?_, ?_, hin, htail, by rintro ⟨⟩, fun hne => ⟨t, ?_, rfl⟩⟩
      · simp
      · simpa [hempty] using hentries
      · rw [List.getLast?_eq_getElem?] at ht
        rw [List.getElem?_append_left (Nat.sub_lt (Nat.pos_of_ne_zero hne) Nat.one_pos)]
        exact ht
    · next hnone =>
      have hclosed : s.closed = [] := List.getLast?_eq_none_iff.mp hnone
      refine ⟨0, Nat.zero_le _, ?_, hin, htail, fun _ => rfl, fun hne => absurd rfl hne⟩
      simpa [hempty, hclosed] using hentries

theorem Inv.setFailOverCacheConfig_ (h : Inv s) (server : Backend) (hnum : s.number + 1 < 2 ^ 32) :
    Inv (s.setFailOverCacheConfig_ server) := by
  have hconn : Ordered (s.connected server) := h.ordered.withDtl ..
  have hfin := hconn.finalizeCurrentSCO hnum
  obtain ⟨n, hset⟩ := finalizeCurrentSCO_eq (s.connected server)
  unfold State.setFailOverCacheConfig_
  rw [hset] at hfin ⊢
  obtain ⟨k, hheld⟩ := held_of_empty (s := { s.connected server with number := n, offset := 0 }) rfl rfl
  obtain ⟨state, last, heq⟩ := setTLogNotOnFailOver_eq { s.connected server with number := n, offset := 0 }
  rw [heq] at hheld ⊢
  have hswitch := switchTLog_ids (s := { s.connected server with
    number := n, offset := 0, last_tlog_not_on_failover_ := last, failoverstate_ := state }) h.ids h.ids_lt
  exact ⟨Ordered.switchTLog (hfin.withDtl ..) rfl, hswitch.1, hswitch.2, rfl, nofun, fun _ => ⟨k, hheld⟩⟩

theorem Inv.step (h : Inv s) {a : Action} (ha : Orderly s a) : Inv (step s a) := by
  cases a with
  | write clusters => exact h.write ha.1 ha.2
  | finalizeCurrentSCO => exact h.finalizeCurrentSCO ha
  | closeTLog => exact h.closeTLog ha
  | tlogWrittenToBackend => exact h.tlogWrittenToBackendCallback
  | localRestart lost => exact h.localRestart ha.1 ha.2
  | setFailOverCacheConfig server => exact h.setFailOverCacheConfig_ server ha

end

/-! ## Runs -/

/-- A new volume, without a DTL. -/
theorem inv_init (sco_mult : Nat) : Inv { sco_mult := sco_mult } := by
  constructor
  · constructor <;> simp [notOnBackend, writes]
  · simp [ids]
  · simp [ids]
  · rfl
  · exact fun _ => ⟨by simp, rfl⟩
  · rintro ⟨⟩

/-- In every orderly run, the DTL has what is needed whenever the volume says that it is in sync. -/
theorem recoverable_in_order (sco_mult : Nat) (as : List Action) (h : Each step Orderly { sco_mult := sco_mult } as) :
    Each step (fun s a => Recoverable (step s a)) { sco_mult := sco_mult } as := by
  apply each_imp Inv _ (inv_init sco_mult) h
  intro s a hs ha
  have hnext := hs.step ha
  exact ⟨hnext.recoverable, hnext⟩

/-- A volume with writes before and after the DTL is set, whose restart is followed by a write when
the backend has all that was written before. -/
theorem recoverable_in_order_after_restart :
    Each step (fun s a => Recoverable (step s a)) { sco_mult := 4 }
      [.write [(0, [1])], .setFailOverCacheConfig {}, .write [(1, [2]), (2, [3])], .tlogWrittenToBackend,
        .closeTLog, .tlogWrittenToBackend, .localRestart 0, .write [(3, [4])]] := by
  apply recoverable_in_order
  refine ⟨?_, ?_, ?_, ?_, ?_, ?_, ?_, ?_, trivial⟩
  · exact ⟨by decide, by decide⟩
  · exact (by decide : 1 + 1 < 2 ^ 32)
  · exact ⟨by decide, by decide⟩
  · exact trivial
  · exact (by decide : 2 + 1 < 2 ^ 32)
  · exact trivial
  · exact ⟨by decide, by decide⟩
  · exact ⟨by decide, by decide⟩

/-- A write after a local restart drops what the DTL has of the writes before it. -/
theorem restart_drops_entries :
    ¬ Each step (fun s a => Recoverable (step s a)) { sco_mult := 4 }
      [.setFailOverCacheConfig {}, .write [(0, [1])], .localRestart 0, .write [(1, [2])]] := by
  rintro ⟨-, -, -, h, -⟩
  exact absurd (congrArg List.length (h rfl)) (by decide)

end VolumeDriver.InSync
