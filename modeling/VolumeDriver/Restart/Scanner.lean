/-
Scanning a local TLog when a volume restarts (LocalTLogScanner.cpp, EntryProcessor.h). Locations are
queued until a SCO CRC entry comes; if the SCO's checksum is right they go to the metadata store,
else the scan is aborted. The scanner remembers up to which entry all locations went to the store.
-/
import VolumeDriver.Types
import Mathlib.Tactic

namespace VolumeDriver

open Lib List

/-! ## TLog files -/

/-- A TLog on disk: whole entries and the number of bytes after the last of them. -/
structure TLogFile where
  entries : List Entry
  tail : Nat := 0
  deriving DecidableEq, Repr

namespace TLogFile

/-- `TLogReader::max_num_cached`: so many entries are read at once. -/
def max_num_cached : Nat := 256 * 256

/-- The entries that `nextAny` returns. A read that gets to the end of a file that was cut within an
entry fails, and with it all whole entries of that read. -/
def readable (f : TLogFile) : List Entry :=
  if f.tail = 0 then f.entries else f.entries.take (f.entries.length / max_num_cached * max_num_cached)

/-- `FileUtils::truncate` to a number of entries. -/
def truncate (f : TLogFile) (n : Nat) : TLogFile := { entries := f.entries.take n }

end TLogFile

/-! ## The scanner -/

/-- What the scanner is given: the outcome of the SCO checksum check made at an entry of a TLog, and
the checksum of the entries of a TLog. -/
structure ScanEnv where
  checkSCO : TLogId → Nat → ClusterLocation → Nat → Except Exn Bool
  crc : List Entry → Nat

/-- The calls that the scanner makes on a metadata store. -/
structure MetaDataStoreCalls (σ : Type) where
  cork : σ → UUID → σ
  writeCluster : σ → ClusterAddress → ClusterLocationAndHash → σ

/-- `checksum_` is kept as the entries that went into it. -/
structure CheckTLogAndSCOCRCProcessor where
  tlog_id_ : TLogId
  current_clusterlocation_ : ClusterLocation := ⟨⟨0, 0, 0⟩, 0⟩
  seen_final_sco_crc_ : Bool := true
  last_entry_was_tlog_crc_ : Bool := false
  checksum_ : List Entry := []
  num_entries_ : Nat := 0

namespace CheckTLogAndSCOCRCProcessor

/-- A location; the SCO may only change after its CRC entry. -/
def processLoc (p : CheckTLogAndSCOCRCProcessor) (loc : ClusterLocation) : Except Exn CheckTLogAndSCOCRCProcessor :=
  if p.current_clusterlocation_.sco ≠ loc.sco ∧ p.current_clusterlocation_.isNull = false ∧
      p.seen_final_sco_crc_ = false then throw .scoSwitchWithoutSCOCRC
  else pure { p with seen_final_sco_crc_ := false, current_clusterlocation_ := loc }

/-- The current SCO has its CRC entry. -/
def processSCOCRC (p : CheckTLogAndSCOCRCProcessor) : Except Exn CheckTLogAndSCOCRCProcessor :=
  if p.current_clusterlocation_.isNull then throw .scoCRCWithoutActiveSCO
  else pure { p with seen_final_sco_crc_ := true }

/-- The checksum of what was read so far. -/
def processTLogCRC (env : ScanEnv) (p : CheckTLogAndSCOCRCProcessor) (t : Nat) :
    Except Exn CheckTLogAndSCOCRCProcessor :=
  if t ≠ env.crc p.checksum_ then throw .tlogWrongCRC else pure p

/-- Calls the method for the type of the entry. -/
def dispatch (env : ScanEnv) (p : CheckTLogAndSCOCRCProcessor) (e : Entry) : Except Exn CheckTLogAndSCOCRCProcessor :=
  if e.isLocation then do
    let _ ← e.clusterAddress
    p.processLoc e.clusterLocation
  else if e.isTLogCRC then p.processTLogCRC env e.getCheckSum
  else if e.isSCOCRC then p.processSCOCRC
  else if e.isSync then pure p
  else throw (.ioException "You are not supposed to be here. Leave immediately through an error path")

/-- Each entry is counted and goes into the checksum. -/
def processEntry (env : ScanEnv) (p : CheckTLogAndSCOCRCProcessor) (e : Entry) :
    Except Exn CheckTLogAndSCOCRCProcessor := do
  let p ← p.dispatch env e
  pure { p with
    last_entry_was_tlog_crc_ := e.isTLogCRC
    checksum_ := p.checksum_ ++ [e]
    num_entries_ := p.num_entries_ + 1 }

end CheckTLogAndSCOCRCProcessor

/-- The scanner. `tlogs_` are the files in the volume's TLog directory. -/
structure LocalTLogScanner (σ : Type) where
  mdstore_ : σ
  tlogs_ : TLogId → Option TLogFile
  current_proc_ : CheckTLogAndSCOCRCProcessor := { tlog_id_ := 0 }
  aborted_ : Bool := false
  last_good_tlog_ : TLogId × Nat := (0, 0)
  tlog_without_final_crc_ : Bool := false
  replay_queue_ : Bindings := []

namespace LocalTLogScanner

variable {σ : Type} (env : ScanEnv) (md : MetaDataStoreCalls σ)

/-- A call that throws leaves the scanner as it was at that point. -/
abbrev Scan (σ α : Type) := Except (Exn × LocalTLogScanner σ) α

/-- Writes the queue to the metadata store. -/
def writeAll (s : σ) (queue : Bindings) : σ :=
  queue.foldl (fun s p => md.writeCluster s p.1 p.2) s

variable (sc : LocalTLogScanner σ)

/-- The check of the SCO: if it is right, the queue goes to the store. -/
def processSCOCRC (t : Nat) : Scan σ (LocalTLogScanner σ) :=
  let p := sc.current_proc_
  match env.checkSCO p.tlog_id_ p.num_entries_ p.current_clusterlocation_ t with
  | .ok true => pure { sc with
      mdstore_ := writeAll md sc.mdstore_ sc.replay_queue_
      replay_queue_ := []
      last_good_tlog_ := (sc.last_good_tlog_.1, p.num_entries_ + 1) }
  | .ok false => throw (.abort "Failed to verify SCO checksum", sc)
  | .error e => throw (e, sc)

/-- Calls the scanner's method for the type of the entry. -/
def dispatch (e : Entry) : Scan σ (LocalTLogScanner σ) :=
  if e.isLocation then do
    let ca ← e.clusterAddress.mapError fun x => (x, sc)
    pure { sc with replay_queue_ := sc.replay_queue_ ++ [(ca, e.loc_and_hash)] }
  else if e.isTLogCRC then pure sc
  else if e.isSCOCRC then processSCOCRC env md sc e.getCheckSum
  else if e.isSync then pure sc
  else throw (.ioException "You are not supposed to be here. Leave immediately through an error path", sc)

/-- The combined processor: the scanner looks at an entry before the checks on the TLog do. -/
def processEntry (sc : LocalTLogScanner σ) (e : Entry) : Scan σ (LocalTLogScanner σ) := do
  let sc ← dispatch env md sc e
  let p ← (sc.current_proc_.processEntry env e).mapError fun x => (x, sc)
  pure { sc with current_proc_ := p }

/-- `for_each` over the entries of a file. -/
def for_each (f : TLogFile) : Scan σ (LocalTLogScanner σ) := do
  let sc ← f.readable.foldlM (processEntry env md) sc
  if f.tail = 0 then pure sc else throw (.assertion "max_pos % Entry::getDataSize() == 0", sc)

/-- What is found out about a TLog that was scanned to its end. -/
def scannedToTheEnd : LocalTLogScanner σ :=
  let sc := if sc.current_proc_.seen_final_sco_crc_ then sc else { sc with aborted_ := true }
  if sc.current_proc_.last_entry_was_tlog_crc_ then sc
  else { sc with aborted_ := true, tlog_without_final_crc_ := true }

/-- The `try` block of `scanTLog`: an abort ends the scan, any other exception goes on to the caller. -/
def tryForEach (f : TLogFile) : Except Exn (LocalTLogScanner σ) :=
  match for_each env md sc f with
  | .ok sc => pure sc.scannedToTheEnd
  | .error (.abort _, sc) => pure { sc with aborted_ := true }
  | .error (e, _) => throw e

/-- Scans a TLog; after an abort its file is removed instead. -/
def scanTLog (tlog_id : TLogId) : Except Exn (LocalTLogScanner σ) :=
  if sc.tlog_without_final_crc_ then throw .tlogWithoutFinalCRC
  else if sc.aborted_ then pure { sc with tlogs_ := Function.update sc.tlogs_ tlog_id none }
  else do
    VERIFY (sc.replay_queue_ = []) "replay_queue_.empty()"
    let sc := { sc with
      last_good_tlog_ := (tlog_id, 0)
      mdstore_ := md.cork sc.mdstore_ tlog_id
      current_proc_ := { tlog_id_ := tlog_id } }
    match sc.tlogs_ tlog_id with
    | none => throw (.ioException "Could not open TLog")
    | some f => do
      let sc ← sc.tryForEach env md f
      let sc := if sc.aborted_ then { sc with replay_queue_ := [] } else sc
      VERIFY (sc.replay_queue_ = []) "replay_queue_.empty()"
      pure sc

/-- The TLog at which the scan stopped, and how many of its entries are good. -/
def last_good_tlog : Except Exn (TLogId × Nat) := do
  VERIFY (sc.last_good_tlog_.1 ≠ 0) "last_good_tlog_.first != TLogId(yt::UUID::NullUUID())"
  pure sc.last_good_tlog_

end LocalTLogScanner

/-! ## What is kept of a TLog -/

namespace LocalTLogScanner

/-- The addresses and locations of the location entries, in order. -/
def bindings (l : List Entry) : Bindings :=
  (l.filter (·.isLocation)).map Entry.binding

/-- The location of the last location entry. -/
def lastLocation (l : List Entry) : Option ClusterLocation :=
  ((l.filter (·.isLocation)).getLast?).map (·.clusterLocation)

/-- Every location is followed by a SCO CRC entry, with only locations of the same SCO in between, at
which the check of that SCO was right. -/
def Verified (env : ScanEnv) (id : TLogId) (file : List Entry) : Prop :=
  ∀ a e rest, file = a ++ e :: rest → e.isLocation = true →
    ∃ b c d loc, rest = b ++ c :: d ∧ c.isSCOCRC = true ∧ (∀ x ∈ b, x.isLocation = true → x.sco = e.sco) ∧
      lastLocation (a ++ e :: b) = some loc ∧ loc.sco = e.sco ∧
      env.checkSCO id (a ++ e :: b).length loc c.getCheckSum = .ok true

@[simp] theorem bindings_append (a b : List Entry) : bindings (a ++ b) = bindings a ++ bindings b := by
  simp [bindings]

theorem bindings_eq_nil {l : List Entry} (h : ∀ e ∈ l, e.isLocation = false) : bindings l = [] := by
  unfold bindings
  rw [map_eq_nil_iff, filter_eq_nil_iff]
  intro e he
  rw [h e he]; simp

variable {σ : Type} {e : Entry} {good open_ : List Entry} {id : TLogId} {sc sc' : LocalTLogScanner σ} {s₀ : σ}
  {f : TLogFile}

theorem lastLocation_concat {l : List Entry} :
    lastLocation (l ++ [e]) = if e.isLocation then some e.clusterLocation else lastLocation l := by
  unfold lastLocation
  by_cases h : e.isLocation = true
  · simp [h]
  · simp [h]

/-- The processor after an entry was counted. -/
def counted (p : CheckTLogAndSCOCRCProcessor) (e : Entry) : CheckTLogAndSCOCRCProcessor := { p with
  last_entry_was_tlog_crc_ := e.isTLogCRC
  checksum_ := p.checksum_ ++ [e]
  num_entries_ := p.num_entries_ + 1 }

/-- What `Verified` says of the location `e`, with `a` before it. -/
def Checked (env : ScanEnv) (id : TLogId) (a : List Entry) (e : Entry) (rest : List Entry) : Prop :=
  ∃ b c d loc, rest = b ++ c :: d ∧ c.isSCOCRC = true ∧ (∀ x ∈ b, x.isLocation = true → x.sco = e.sco) ∧
    lastLocation (a ++ e :: b) = some loc ∧ loc.sco = e.sco ∧
    env.checkSCO id (a ++ e :: b).length loc c.getCheckSum = .ok true

theorem Verified.append {env : ScanEnv} {ext : List Entry} (h : Verified env id good)
    (hext : ∀ a e rest, ext = a ++ e :: rest → e.isLocation = true → Checked env id (good ++ a) e rest) :
    Verified env id (good ++ ext) := by
  intro a e rest hsplit he
  rcases append_eq_append_iff.1 hsplit with ⟨z, h1, h2⟩ | ⟨z, h1, h2⟩
  · -- the location is one of the entries that follow
    exact h1 ▸ hext z e rest h2 he
  · cases z with
    | nil =>
      rw [append_nil] at h1
      have hnew := hext [] e rest h2.symm he
      rw [append_nil, h1] at hnew
      exact hnew
    | cons x z =>
      obtain ⟨rfl, rfl⟩ := List.cons.inj h2
      obtain ⟨b, c, d, loc, h3, h4⟩ := h a e z h1 he
      exact ⟨b, c, d ++ ext, loc, by rw [h3]; simp, h4⟩

theorem Verified.append_other {env : ScanEnv} {ext : List Entry} (h : Verified env id good)
    (hext : ∀ e ∈ ext, e.isLocation = false) : Verified env id (good ++ ext) := by
  refine h.append ?_
  intro a e rest hsplit he
  rw [hext e (by rw [hsplit]; simp)] at he
  cases he

theorem Verified.nil (env : ScanEnv) (id : TLogId) : Verified env id [] := by
  intro a e rest h
  simp at h

/-! ## One entry -/

variable {env : ScanEnv} {md : MetaDataStoreCalls σ}

/-- The state of a scan of TLog `id` that began with the store `s₀` and has read `good ++ open_`. The
locations of `good` are verified and in the store, those of `open_` are queued and of one SCO. -/
structure Scanned (env : ScanEnv) (md : MetaDataStoreCalls σ) (s₀ : σ) (id : TLogId) (good open_ : List Entry)
    (sc : LocalTLogScanner σ) : Prop where
  last_good : sc.last_good_tlog_ = (id, good.length)
  tlog_id : sc.current_proc_.tlog_id_ = id
  num : sc.current_proc_.num_entries_ = (good ++ open_).length
  current : sc.current_proc_.current_clusterlocation_ = (lastLocation (good ++ open_)).getD ⟨⟨0, 0, 0⟩, 0⟩
  queue : sc.replay_queue_ = bindings open_
  store : sc.mdstore_ = writeAll md s₀ (bindings good)
  verified : Verified env id good
  one_sco : ∀ e ∈ open_, e.isLocation = true → e.sco = sc.current_proc_.current_clusterlocation_.sco
  seen : (∃ e ∈ open_, e.isLocation = true) → sc.current_proc_.seen_final_sco_crc_ = false

theorem writeAll_append (s : σ) (a b : Bindings) :
    writeAll md s (a ++ b) = writeAll md (writeAll md s a) b := by
  simp [writeAll]

theorem Scanned.num_next (h : Scanned env md s₀ id good open_ sc) :
    sc.current_proc_.num_entries_ + 1 = (good ++ open_ ++ [e]).length := by
  simp [h.num]; omega

theorem isLocation_not_null (h : e.isLocation = true) : e.clusterLocation.isNull = false :=
  Entry.isLocation_iff.1 h

variable {p : CheckTLogAndSCOCRCProcessor}

/-- A location is queued; it is of the SCO of the other queued ones, or the checks throw. -/
theorem Scanned.loc (h : Scanned env md s₀ id good open_ sc) (he : e.isLocation = true)
    (hp : sc.current_proc_.processLoc e.clusterLocation = .ok p) :
    Scanned env md s₀ id good (open_ ++ [e]) { sc with
      replay_queue_ := sc.replay_queue_ ++ [e.binding]
      current_proc_ := counted p e } := by
  unfold CheckTLogAndSCOCRCProcessor.processLoc at hp
  split at hp
  · cases hp
  rename_i hswitch
  rw [← pure_ok hp]
  refine ⟨h.last_good, h.tlog_id, ?_, ?_, ?_, h.store, h.verified, ?_, fun _ => rfl⟩
  · exact h.num_next.trans (by rw [append_assoc])
  · show e.clusterLocation = _
    rw [← append_assoc, lastLocation_concat, if_pos he]; rfl
  · show sc.replay_queue_ ++ [e.binding] = _
    rw [h.queue, bindings_append]
    simp [bindings, he]
  · intro x hx hxl
    show x.sco = e.sco
    rcases mem_append.1 hx with hx | hx
    · -- otherwise the SCO would change with locations in the queue
      have hsco := h.one_sco x hx hxl
      have hnull : sc.current_proc_.current_clusterlocation_.isNull = false := by
        have := isLocation_not_null hxl
        unfold ClusterLocation.isNull at this ⊢
        rw [← hsco]; exact this
      by_contra hne
      exact hswitch ⟨fun he => hne (hsco.trans he), hnull, h.seen ⟨x, hx, hxl⟩⟩
    · rw [mem_singleton.1 hx]

theorem Scanned.other (h : Scanned env md s₀ id good open_ sc) (he : e.isLocation = false) :
    Scanned env md s₀ id good (open_ ++ [e]) { sc with current_proc_ := counted sc.current_proc_ e } := by
  have hmem : ∀ x ∈ open_ ++ [e], x.isLocation = true → x ∈ open_ := by
    intro x hx hxl
    rcases mem_append.1 hx with hx | hx
    · exact hx
    · rw [mem_singleton.1 hx, he] at hxl; cases hxl
  refine ⟨h.last_good, h.tlog_id, ?_, ?_, ?_, h.store, h.verified, ?_, ?_⟩
  · exact h.num_next.trans (by rw [append_assoc])
  · show sc.current_proc_.current_clusterlocation_ = _
    rw [h.current, ← append_assoc, lastLocation_concat, if_neg (by simp [he])]
  · show sc.replay_queue_ = _
    rw [h.queue, bindings_append, bindings_eq_nil (l := [e]) (by simpa using he), append_nil]
  · intro x hx hxl
    exact h.one_sco x (hmem x hx hxl) hxl
  · rintro ⟨x, hx, hxl⟩
    exact h.seen ⟨x, hmem x hx hxl, hxl⟩

/-- A SCO CRC entry whose check was right makes all that was read good. -/
theorem Scanned.crc (h : Scanned env md s₀ id good open_ sc) (he : e.isLocation = false) (hcrc : e.isSCOCRC = true)
    (hcheck : env.checkSCO id sc.current_proc_.num_entries_ sc.current_proc_.current_clusterlocation_ e.getCheckSum =
      .ok true) :
    Scanned env md s₀ id (good ++ open_ ++ [e]) [] { sc with
      mdstore_ := writeAll md sc.mdstore_ sc.replay_queue_
      replay_queue_ := []
      last_good_tlog_ := (sc.last_good_tlog_.1, sc.current_proc_.num_entries_ + 1)
      current_proc_ := counted { sc.current_proc_ with seen_final_sco_crc_ := true } e } := by
  refine ⟨?_, h.tlog_id, ?_, ?_, rfl, ?_, ?_, by simp, by simp⟩
  · show (sc.last_good_tlog_.1, sc.current_proc_.num_entries_ + 1) = _
    rw [h.last_good, h.num_next]
  · exact h.num_next.trans (by rw [append_nil])
  · show sc.current_proc_.current_clusterlocation_ = _
    rw [h.current, append_nil, lastLocation_concat, if_neg (by simp [he])]
  · show writeAll md sc.mdstore_ sc.replay_queue_ = _
    rw [h.store, h.queue, ← writeAll_append, bindings_append, bindings_append,
      bindings_eq_nil (l := [e]) (by simpa using he), append_nil]
  · rw [append_assoc]
    refine h.verified.append ?_
    intro a x rest hsplit hx
    -- `x` is a queued location, so `e` comes after it
    obtain ⟨b, rfl⟩ : ∃ b, rest = b ++ [e] := by
      rcases eq_nil_or_concat' rest with rfl | ⟨b, y, rfl⟩
      · obtain ⟨-, hlast⟩ := append_inj' hsplit rfl
        rw [← (List.cons.inj hlast).1, he] at hx; cases hx
      · rw [← cons_append, ← append_assoc] at hsplit
        obtain ⟨-, hlast⟩ := append_inj' hsplit rfl
        exact ⟨b, by rw [(List.cons.inj hlast).1]⟩
    have hopen : open_ = a ++ x :: b := by
      rw [← cons_append, ← append_assoc] at hsplit
      exact (append_inj' hsplit rfl).1
    have hmem : x ∈ open_ := by rw [hopen]; simp
    obtain ⟨loc, hloc⟩ : ∃ loc, lastLocation (good ++ open_) = some loc := by
      rcases hl : lastLocation (good ++ open_) with _ | loc
      · unfold lastLocation at hl
        rw [Option.map_eq_none_iff, List.getLast?_eq_none_iff, filter_eq_nil_iff] at hl
        exact absurd hx (hl x (mem_append_right _ hmem))
      · exact ⟨loc, rfl⟩
    have hcur : sc.current_proc_.current_clusterlocation_ = loc := by rw [h.current, hloc]; rfl
    refine ⟨b, e, [], loc, rfl, hcrc, ?_, ?_, ?_, ?_⟩
    · intro y hy hyl
      rw [h.one_sco y (by rw [hopen]; simp [hy]) hyl, h.one_sco x hmem hx]
    · rw [append_assoc, ← hopen]; exact hloc
    · rw [h.one_sco x hmem hx, hcur]
    · rw [append_assoc, ← hopen, ← h.num, ← hcur]; exact hcheck

theorem mapError_ok {ε ε' α : Type} {x : Except ε α} {f : ε → ε'} {a : α} (h : x.mapError f = .ok a) : x = .ok a := by
  cases x with
  | error e => cases h
  | ok b => cases h; rfl

/-- What a scan never touches. -/
structure Frame (sc sc' : LocalTLogScanner σ) : Prop where
  tlogs : sc'.tlogs_ = sc.tlogs_
  aborted : sc'.aborted_ = sc.aborted_
  without : sc'.tlog_without_final_crc_ = sc.tlog_without_final_crc_

/-- What one entry does to a scan: it is queued or passed over, or it is a SCO CRC entry whose check
was right, and all that was read so far is good. -/
theorem Scanned.step (h : Scanned env md s₀ id good open_ sc) (hs : processEntry env md sc e = .ok sc') :
    (Scanned env md s₀ id good (open_ ++ [e]) sc' ∨ Scanned env md s₀ id (good ++ open_ ++ [e]) [] sc') ∧
      Frame sc sc' := by
  unfold processEntry at hs
  obtain ⟨sc₁, h1, hs⟩ := bind_ok hs
  obtain ⟨p, h2, hs⟩ := bind_ok hs
  obtain ⟨p₁, h3, h4⟩ := bind_ok (mapError_ok h2)
  rw [← pure_ok hs, ← pure_ok h4]
  unfold dispatch at h1
  unfold CheckTLogAndSCOCRCProcessor.dispatch at h3
  by_cases hloc : e.isLocation = true
  · rw [if_pos hloc] at h1 h3
    obtain ⟨ca, hca, h1⟩ := bind_ok h1
    obtain ⟨_, _, h3⟩ := bind_ok h3
    have hb : (ca, e.loc_and_hash) = e.binding := by rw [Entry.clusterAddress_ok (mapError_ok hca)]; rfl
    rw [← pure_ok h1, hb] at h3 ⊢
    exact ⟨Or.inl (h.loc hloc h3), rfl, rfl, rfl⟩
  · have hother : e.isLocation = false := by simpa using hloc
    rw [if_neg hloc] at h1 h3
    by_cases htlog : e.isTLogCRC = true
    · rw [if_pos htlog] at h1 h3
      unfold CheckTLogAndSCOCRCProcessor.processTLogCRC at h3
      split at h3
      · cases h3
      · rw [← pure_ok h3, ← pure_ok h1]
        exact ⟨Or.inl (h.other hother), rfl, rfl, rfl⟩
    · rw [if_neg htlog] at h1 h3
      by_cases hcrc : e.isSCOCRC = true
      · rw [if_pos hcrc] at h1 h3
        unfold processSCOCRC at h1
        dsimp only at h1
        split at h1
        · rename_i hcheck
          rw [h.tlog_id] at hcheck
          rw [← pure_ok h1] at h3 ⊢
          unfold CheckTLogAndSCOCRCProcessor.processSCOCRC at h3
          split at h3
          · cases h3
          · rw [← pure_ok h3]
            exact ⟨Or.inr (h.crc hother hcrc hcheck), rfl, rfl, rfl⟩
        · cases h1
        · cases h1
      · rw [if_neg hcrc] at h1 h3
        split at h1
        · rename_i hsync
          rw [if_pos hsync] at h3
          rw [← pure_ok h3, ← pure_ok h1]
          exact ⟨Or.inl (h.other hother), rfl, rfl, rfl⟩
        · cases h1

theorem processEntry_not_abort {what : String} : p.processEntry env e ≠ .error (.abort what) := by
  intro h
  unfold CheckTLogAndSCOCRCProcessor.processEntry CheckTLogAndSCOCRCProcessor.dispatch
    CheckTLogAndSCOCRCProcessor.processLoc CheckTLogAndSCOCRCProcessor.processTLogCRC
    CheckTLogAndSCOCRCProcessor.processSCOCRC Entry.clusterAddress verify at h
  split at h
  · split at h <;> split at h <;> first | cases h | (split at h <;> cases h)
  · split at h
    · split at h <;> cases h
    · split at h
      · split at h <;> cases h
      · split at h <;> cases h

theorem abort_unchanged {what : String} (h : processEntry env md sc e = .error (.abort what, sc')) : sc' = sc := by
  unfold processEntry at h
  cases hd : dispatch env md sc e with
  | ok sc₁ =>
    rw [hd, ok_bind] at h
    cases hp : sc₁.current_proc_.processEntry env e with
    | ok p => rw [hp] at h; cases h
    | error x =>
      rw [hp] at h
      cases h
      exact absurd hp processEntry_not_abort
  | error x =>
    rw [hd] at h
    cases h
    unfold dispatch processSCOCRC at hd
    split at hd
    · cases hca : e.clusterAddress with
      | ok ca => rw [hca] at hd; cases hd
      | error x => rw [hca] at hd; cases hd; rfl
    · split at hd
      · cases hd
      · split at hd
        · dsimp only at hd
          split at hd <;> cases hd <;> rfl
        · split at hd
          · cases hd
          · cases hd

/-! ## One file -/

/-- Reading a list of entries: either to its end, or up to an entry that aborts the scan. -/
theorem Scanned.run {sc' : LocalTLogScanner σ} : ∀ (l : List Entry) {good open_ : List Entry}
    {sc : LocalTLogScanner σ}, Scanned env md s₀ id good open_ sc →
    (l.foldlM (processEntry env md) sc = .ok sc' ∨
      ∃ what, l.foldlM (processEntry env md) sc = .error (.abort what, sc')) →
    ∃ good' open' rest, good ++ open_ ++ l = good' ++ open' ++ rest ∧ Scanned env md s₀ id good' open' sc' ∧
      Frame sc sc' ∧ (l.foldlM (processEntry env md) sc = .ok sc' → rest = [])
  | [], good, open_, sc, h, hs => by
    rcases hs with hs | ⟨_, hs⟩
    · rw [← pure_ok hs]
      exact ⟨good, open_, [], rfl, h, ⟨rfl, rfl, rfl⟩, fun _ => rfl⟩
    · cases hs
  | e :: l, good, open_, sc, h, hs => by
    rw [foldlM_cons] at hs ⊢
    cases hp : processEntry env md sc e with
    | error x =>
      rw [hp] at hs
      rcases hs with hs | ⟨_, hs⟩
      · cases hs
      · cases hs
        rw [abort_unchanged hp]
        exact ⟨good, open_, e :: l, rfl, h, ⟨rfl, rfl, rfl⟩, nofun⟩
    | ok sc₁ =>
      rw [hp, ok_bind] at hs
      obtain ⟨hnext, hframe⟩ := h.step hp
      -- the induction goes on from either outcome of the entry
      obtain ⟨good₁, open₁, heq, h₁⟩ : ∃ good₁ open₁, good ++ open_ ++ [e] = good₁ ++ open₁ ∧
          Scanned env md s₀ id good₁ open₁ sc₁ := by
        rcases hnext with hn | hn
        · exact ⟨good, open_ ++ [e], by simp, hn⟩
        · exact ⟨good ++ open_ ++ [e], [], by simp, hn⟩
      obtain ⟨good', open', rest, hlist, h₂, hframe', hall⟩ := Scanned.run l h₁ hs
      rw [← heq, append_assoc _ [e]] at hlist
      exact ⟨good', open', rest, hlist, h₂, ⟨hframe'.tlogs.trans hframe.tlogs, hframe'.aborted.trans hframe.aborted,
        hframe'.without.trans hframe.without⟩, hall⟩

theorem readable_prefix (f : TLogFile) : ∃ rest, f.entries = f.readable ++ rest := by
  unfold TLogFile.readable
  split
  · exact ⟨[], by simp⟩
  · exact ⟨_, (take_append_drop _ _).symm⟩

/-- What is kept of TLog `id`, of which the file is `f`, by a scan that began with the store `s₀`. -/
structure Kept (env : ScanEnv) (md : MetaDataStoreCalls σ) (s₀ : σ) (id : TLogId) (kept : List Entry)
    (sc : LocalTLogScanner σ) : Prop where
  verified : Verified env id kept
  store : sc.mdstore_ = writeAll md s₀ (bindings kept)

theorem Scanned.kept_all (h : Scanned env md s₀ id good open_ sc)
    (hseen : sc.current_proc_.seen_final_sco_crc_ = true) :
    Kept env md s₀ id (good ++ open_) sc ∧ sc.replay_queue_ = [] := by
  have hnone : ∀ e ∈ open_, e.isLocation = false := by
    intro e he
    by_contra hne
    have := h.seen ⟨e, he, by simpa using hne⟩
    rw [hseen] at this; cases this
  refine ⟨⟨h.verified.append_other hnone, ?_⟩, by rw [h.queue, bindings_eq_nil hnone]⟩
  rw [h.store, bindings_append, bindings_eq_nil hnone, append_nil]

theorem Scanned.start (id : TLogId) (hq : sc.replay_queue_ = []) :
    Scanned env md (md.cork sc.mdstore_ id) id [] [] { sc with
      last_good_tlog_ := (id, 0)
      mdstore_ := md.cork sc.mdstore_ id
      current_proc_ := { tlog_id_ := id } } :=
  ⟨rfl, rfl, rfl, rfl, hq, rfl, .nil env id, by simp, by simp⟩

/-- The outcome of `scanTLog` for a file: all of it is kept, or the scan is aborted and a front of it is
kept, as long as the scanner says. -/
def Outcome (env : ScanEnv) (md : MetaDataStoreCalls σ) (s₀ : σ) (id : TLogId) (f : TLogFile)
    (sc : LocalTLogScanner σ) : Prop :=
  (sc.aborted_ = false ∧ f.tail = 0 ∧ Kept env md s₀ id f.entries sc) ∨
    (sc.aborted_ = true ∧ ∃ n, sc.last_good_tlog_ = (id, n) ∧ n ≤ f.entries.length ∧
      Kept env md s₀ id (f.entries.take n) sc)

theorem Scanned.stopped {rest : List Entry} (h : Scanned env md s₀ id good open_ sc) (hf : f.entries = good ++ rest)
    (hlast : sc'.last_good_tlog_ = sc.last_good_tlog_) (hstore : sc'.mdstore_ = sc.mdstore_)
    (ha : sc'.aborted_ = true) : Outcome env md s₀ id f sc' := by
  refine Or.inr ⟨ha, good.length, hlast.trans h.last_good, by simp [hf], ?_⟩
  rw [hf, take_left]
  exact ⟨h.verified, hstore.trans h.store⟩

theorem Scanned.toTheEnd (h : Scanned env md s₀ id good open_ sc) (ha : sc.aborted_ = false) (htail : f.tail = 0)
    (hf : f.entries = good ++ open_) :
    Outcome env md s₀ id f sc.scannedToTheEnd ∧ sc.scannedToTheEnd.tlogs_ = sc.tlogs_ := by
  unfold scannedToTheEnd
  dsimp only
  by_cases hseen : sc.current_proc_.seen_final_sco_crc_ = true
  · rw [if_pos hseen]
    split
    · refine ⟨Or.inl ⟨ha, htail, ?_⟩, rfl⟩
      rw [hf]
      exact (h.kept_all hseen).1
    · exact ⟨h.stopped hf rfl rfl rfl, rfl⟩
  · -- the locations after the last SCO CRC entry are not replayed
    rw [if_neg hseen]
    split
    · exact ⟨h.stopped hf rfl rfl rfl, rfl⟩
    · exact ⟨h.stopped hf rfl rfl rfl, rfl⟩

theorem Outcome.cleared (h : Outcome env md s₀ id f sc) :
    Outcome env md s₀ id f (if sc.aborted_ then { sc with replay_queue_ := [] } else sc) := by
  rcases h with ⟨ha, h⟩ | ⟨ha, n, h1, h2, h3⟩
  · rw [if_neg (by simp [ha])]
    exact Or.inl ⟨ha, h⟩
  · rw [if_pos ha]
    exact Or.inr ⟨ha, n, h1, h2, h3.verified, h3.store⟩

theorem Scanned.tryForEach (h : Scanned env md s₀ id [] [] sc) (ha : sc.aborted_ = false)
    (hs : sc.tryForEach env md f = .ok sc') :
    Outcome env md s₀ id f sc' ∧ sc'.tlogs_ = sc.tlogs_ := by
  obtain ⟨rest, hrest⟩ := readable_prefix f
  unfold LocalTLogScanner.tryForEach for_each at hs
  cases hfold : f.readable.foldlM (processEntry env md) sc with
  | ok sc₁ =>
    obtain ⟨good, open_, _, h1, h2, h3, hnil⟩ := h.run f.readable (.inl hfold)
    rw [hfold, ok_bind] at hs
    by_cases htail : f.tail = 0
    · rw [if_pos htail] at hs
      have hall : f.entries = good ++ open_ := by
        rw [hnil hfold] at h1
        simpa [TLogFile.readable, htail] using h1
      obtain ⟨h4, h5⟩ := h2.toTheEnd (h3.aborted.trans ha) htail hall
      rw [← pure_ok hs]
      exact ⟨h4, h5.trans h3.tlogs⟩
    · rw [if_neg htail] at hs; cases hs
  | error x =>
    obtain ⟨x, sc₁⟩ := x
    rw [hfold] at hs
    cases x <;> try cases hs
    obtain ⟨good, open_, rest', h1, h2, h3, -⟩ := h.run f.readable (.inr ⟨_, hfold⟩)
    have hfile : f.entries = good ++ (open_ ++ rest' ++ rest) := by
      rw [hrest, ← append_assoc, ← append_assoc, ← h1]; simp
    exact ⟨h2.stopped hfile rfl rfl rfl, h3.tlogs⟩

/-- The scan of one TLog, when none was aborted before. -/
theorem scanTLog_spec (ha : sc.aborted_ = false) (hs : scanTLog env md sc id = .ok sc') :
    ∃ f, sc.tlogs_ id = some f ∧ sc'.tlogs_ = sc.tlogs_ ∧ Outcome env md (md.cork sc.mdstore_ id) id f sc' := by
  unfold scanTLog at hs
  split at hs
  · cases hs
  rw [if_neg (by simp [ha])] at hs
  obtain ⟨hq, hs⟩ := VERIFY_bind_ok hs
  dsimp only at hs
  cases hf : sc.tlogs_ id with
  | none => rw [hf] at hs; cases hs
  | some f =>
    rw [hf] at hs
    obtain ⟨sc₁, hread, hs⟩ := bind_ok hs
    obtain ⟨-, hs⟩ := VERIFY_bind_ok hs
    obtain ⟨hout, htlogs⟩ := (Scanned.start id hq).tryForEach ha hread
    rw [← pure_ok hs]
    refine ⟨f, rfl, ?_, hout.cleared⟩
    split
    · exact htlogs
    · exact htlogs

theorem scanTLog_aborted (ha : sc.aborted_ = true) (hs : scanTLog env md sc id = .ok sc') :
    sc' = { sc with tlogs_ := Function.update sc.tlogs_ id none } := by
  unfold scanTLog at hs
  by_cases hcrc : sc.tlog_without_final_crc_ = true
  · rw [if_pos hcrc] at hs; cases hs
  · rw [if_neg hcrc, if_pos ha] at hs
    exact (pure_ok hs).symm

end LocalTLogScanner

end VolumeDriver
