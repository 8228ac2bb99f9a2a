/-
How `Volume::write_aligned_` cuts a request into chunks: each turn of the loop writes as much as is left of the
request, of the DTL's queue and of the SCO. The loop keeps a record of its turns. The DTL may be reconfigured
between two turns, and what one turn calls may throw. Capacities are 64-bit numbers, that of the SCO a signed one.
-/
import VolumeDriver.Lib.Bytes
import VolumeDriver.Lib.Memory
import VolumeDriver.Volume.Write

namespace VolumeDriver.Chunks

open Lib List

/-- A turn of the loop: the chunk, where the SCO was when the turn began, and `max_entries` of the DTL, if
there was one. -/
structure Turn where
  addr : Nat
  data : Bytes
  offset : Nat
  sco_mult : Nat
  max_entries : Option Nat
  deriving DecidableEq

/-- How the loop ends. -/
inductive Outcome
  | returned (v : Volume Bytes)
  | threw (e : VolumeExn) (v : Volume Bytes)
  | outOfFuel

section
variable (sums : Sums Bytes) (cs : Nat)

/-- `writeClusters_`, with its checks. -/
def writeClusters_ (addr : Nat) (buf : Bytes) : Volume.M Bytes Unit := do
  Volume.verify (addr % cs = 0) "addr % clusterSize_ == 0"
  Volume.verify (buf.length % cs = 0) "bufsize % clusterSize_ == 0"
  Volume.writeClusters_ sums (addr / cs) (chunks cs (buf.length / cs) buf)

/-- `max_entries() * getClusterSize()`; without a DTL there is no limit. -/
def dtl_cap : Option Nat → Nat
  | some max_entries => max_entries * cs % 2 ^ 64
  | none => 2 ^ 64 - 1

/-- What is left of the SCO, in bytes: negative from `2 ^ 63` on. -/
def sco_cap (v : Volume Bytes) : Nat := v.dataStore_.getRemainingSCOCapacity * cs % 2 ^ 64

/-- The bytes that a turn writes: the smallest of the three limits. -/
def chunksize (v : Volume Bytes) (max_entries : Option Nat) (buf : Bytes) : Nat :=
  min buf.length (min (dtl_cap cs max_entries) (sco_cap cs v))

/-- The loop of `write_aligned_` from its turn `i` on; `dtl` says which DTL each turn finds. -/
def loop (dtl : Nat → Option Nat) : Nat → Nat → Volume Bytes → Nat → Bytes → List Turn × Outcome
  | 0, _, _, _, _ => ([], .outOfFuel)
  | fuel + 1, i, v, addr, buf =>
    if buf = [] then ([], .returned v)
    else if 2 ^ 63 ≤ sco_cap cs v then ([], .threw (.exn (.assertion "sco_cap >= 0")) v)
    else if dtl_cap cs (dtl i) = 0 then ([], .threw (.exn (.assertion "dtl_cap > 0")) v)
    else
      let n := chunksize cs v (dtl i) buf
      let turn := ⟨addr, buf.take n, v.dataStore_.offset, v.dataStore_.sco_mult_, dtl i⟩
      match writeClusters_ sums cs addr (buf.take n) v with
      | .error e v => ([turn], .threw e v)
      | .ok _ v =>
        let rest := loop dtl fuel (i + 1) v (addr + n) (buf.drop n)
        (turn :: rest.1, rest.2)

/-- `write_aligned_`, behind the checks of `validateIOAlignment`. -/
def write_aligned_ (dtl : Nat → Option Nat) (fuel : Nat) (v : Volume Bytes) (off : Nat) (buf : Bytes) :
    List Turn × Outcome :=
  if buf.length % cs ≠ 0 then ([], .threw (.exn (.ioException "Length not aligned to cluster size")) v)
  else if off % cs ≠ 0 then ([], .threw (.exn (.ioException "Request address not aligned to cluster")) v)
  else loop sums cs dtl fuel 0 v off buf

end

/-! ## What a turn leaves behind -/

/-- The SCO has room for what is left of it; multipliers have 32 bits and are not 0. A SCO is a file, so
that its size in bytes is a positive `ssize_t`. -/
structure Valid (cs : Nat) (v : Volume Bytes) : Prop where
  pos : 0 < v.dataStore_.sco_mult_
  lt : v.dataStore_.sco_mult_ < 2 ^ 32
  le : v.dataStore_.offset ≤ v.dataStore_.sco_mult_
  size : v.dataStore_.sco_mult_ * cs < 2 ^ 63

variable {cs : Nat} {v : Volume Bytes}

theorem Valid.capacity (h : Valid cs v) :
    v.dataStore_.getRemainingSCOCapacity = v.dataStore_.sco_mult_ - v.dataStore_.offset := by
  have hlt := h.lt
  have hle := h.le
  unfold DataStoreNG.getRemainingSCOCapacity
  omega

theorem Valid.sco_cap (h : Valid cs v) :
    sco_cap cs v = (v.dataStore_.sco_mult_ - v.dataStore_.offset) * cs ∧ Chunks.sco_cap cs v < 2 ^ 63 := by
  have hsize := h.size
  have hle := Nat.mul_le_mul_right cs (Nat.sub_le v.dataStore_.sco_mult_ v.dataStore_.offset)
  unfold Chunks.sco_cap
  rw [h.capacity]
  generalize (v.dataStore_.sco_mult_ - v.dataStore_.offset) * cs = n at hle ⊢
  omega

theorem Valid.moved {w : Volume Bytes} (h : Valid cs v) (hmult : w.dataStore_.sco_mult_ = v.dataStore_.sco_mult_)
    (hle : w.dataStore_.offset ≤ v.dataStore_.sco_mult_) : Valid cs w := by
  constructor
  · rw [hmult]
    exact h.pos
  · rw [hmult]
    exact h.lt
  · rw [hmult]
    exact hle
  · rw [hmult]
    exact h.size

section
variable (sums : Sums Bytes) {v : Volume Bytes}

theorem switchTLog_ok (v : Volume Bytes) : ∃ w, Volume.switchTLog sums v = .ok () w ∧ w.dataStore_ = v.dataStore_ :=
  ⟨_, rfl, rfl⟩

theorem addSCOCRC_ok (data : List Bytes) (v : Volume Bytes) :
    ∃ w, Volume.addSCOCRC sums data v = .ok () w ∧ w.dataStore_ = v.dataStore_ := by
  obtain ⟨e, he⟩ : ∃ e, Entry.mkCheckSum (sums.crc data) .SCOCRC = .ok e := ⟨_, rfl⟩
  have hentry : Volume.addSCOCRCEntry sums data v = .ok () { v with currentTLog_ := v.currentTLog_ ++ [e] } := by
    unfold Volume.addSCOCRCEntry
    rw [he]
    rfl
  unfold Volume.addSCOCRC
  rw [run_bind hentry]
  generalize hu : ({ v with currentTLog_ := v.currentTLog_ ++ [e] } : Volume Bytes) = u
  have hds : u.dataStore_ = v.dataStore_ := by rw [← hu]
  unfold Volume.maybe_switch_tlog_
  rw [run_get_bind]
  split
  · obtain ⟨w, hw, hdsw⟩ := switchTLog_ok sums u
    exact ⟨w, hw, hdsw.trans hds⟩
  · exact ⟨u, rfl, hds⟩

/-- The exception of a rollover that yields no checksum. -/
def noChecksum : VolumeExn := .exn (.assertion "cs")

/-- Behind a chunk there is room in the SCO: a full one is closed and the next one is empty. -/
theorem rollover_ok (h : Valid cs v) (hopen : v.dataStore_.current_open = true) :
    ∃ w, Volume.rollover sums v = .ok () w ∧ Valid cs w ∧ 0 < w.dataStore_.getRemainingSCOCapacity := by
  have hpos := h.pos
  unfold Volume.rollover
  rw [run_get_bind]
  split
  · next hcap =>
    rw [h.capacity] at hcap
    have hoffset : v.dataStore_.offset ≠ 0 := by
      omega
    rw [run_bind (Volume.ds_ok (DataStoreNG.finalizeCurrentSCO_data hoffset hopen))]
    obtain ⟨w, hw, hds⟩ := addSCOCRC_ok sums v.dataStore_.currentCheckSum_
      { v with dataStore_ := v.dataStore_.nextSCO.attempted }
    have hsame := DataStoreNG.sameLocation_attempted v.dataStore_.nextSCO
    have hmult : w.dataStore_.sco_mult_ = v.dataStore_.sco_mult_ := by
      rw [hds]
      exact hsame.mult
    have hzero : w.dataStore_.offset = 0 := by
      rw [hds]
      exact congrArg ClusterLocation.offset hsame.loc
    have hvalid := h.moved hmult (by rw [hzero]; exact Nat.zero_le _)
    refine ⟨w, hw, hvalid, ?_⟩
    rw [hvalid.capacity, hmult, hzero]
    omega
  · next hcap => exact ⟨v, rfl, h, Nat.pos_of_ne_zero hcap⟩

end

/-! ## The turns of the loop -/

/-- The chunk lies on cluster boundaries, inside the SCO and inside the DTL's queue. -/
structure InLimits (cs : Nat) (t : Turn) : Prop where
  addr : t.addr % cs = 0
  data : t.data.length % cs = 0
  sco : t.offset + t.data.length / cs ≤ t.sco_mult
  dtl : ∀ m ∈ t.max_entries, t.data.length / cs ≤ m

/-- Each chunk starts where the one before ends. -/
def Consecutive : Nat → List Turn → Prop
  | _, [] => True
  | addr, t :: ts => t.addr = addr ∧ Consecutive (addr + t.data.length) ts

/-- A turn that finds a full SCO is followed by one that writes something. -/
def Progress : List Turn → Prop
  | t :: t' :: ts => (t.offset = t.sco_mult → t'.data ≠ []) ∧ Progress (t' :: ts)
  | _ => True

/-- The loop ends, and its chunks make up the request, or the part of it before a call that threw. -/
structure Partitioned (sums : Sums Bytes) (cs off : Nat) (buf : Bytes) (r : List Turn × Outcome) : Prop where
  ends : r.2 ≠ .outOfFuel
  limits : ∀ t ∈ r.1, InLimits cs t
  consecutive : Consecutive off r.1
  parts : r.1.flatMap (·.data) <+: buf
  whole : ∀ v, r.2 = .returned v → r.1.flatMap (·.data) = buf
  progress : Progress r.1
  rolled : ∀ t, r.1.getLast? = some t → t.offset = t.sco_mult → ∃ e v, r.2 = .threw e v
  thrown : ∀ e v, r.2 = .threw e v →
    e ≠ noChecksum ∧ ∃ t w, r.1.getLast? = some t ∧ writeClusters_ sums cs t.addr t.data w = .error e v

section
variable (sums : Sums Bytes) {buf : Bytes} {max_entries : Option Nat} (hcs : 0 < cs) (hcs32 : cs < 2 ^ 32)
include hcs hcs32

omit hcs hcs32 in
theorem Partitioned.cons {sums : Sums Bytes} {t : Turn} {r : List Turn × Outcome} {n : Nat}
    (h : Partitioned sums cs (t.addr + n) (buf.drop n) r) (ht : InLimits cs t) (hdata : t.data = buf.take n)
    (hn : n ≤ buf.length) (hnext : t.offset = t.sco_mult → ∃ t' ts, r.1 = t' :: ts ∧ t'.data ≠ []) :
    Partitioned sums cs t.addr buf (t :: r.1, r.2) := by
  have hlen : t.data.length = n := by rw [hdata, length_take, Nat.min_eq_left hn]
  constructor
  case ends => exact h.ends
  case limits =>
    rintro t' (_ | ⟨_, ht'⟩)
    · exact ht
    · exact h.limits t' ht'
  case consecutive =>
    refine ⟨rfl, ?_⟩
    rw [hlen]
    exact h.consecutive
  case parts =>
    rw [flatMap_cons, hdata]
    conv => rhs; rw [← take_append_drop n buf]
    exact (prefix_append_right_inj _).2 h.parts
  case whole =>
    intro v hv
    rw [flatMap_cons, hdata, h.whole v hv, take_append_drop]
  case progress =>
    cases hr : r.1 with
    | nil => trivial
    | cons t' ts =>
      have hp := h.progress
      rw [hr] at hp
      refine ⟨fun hfull => ?_, hp⟩
      obtain ⟨t'', ts', heq, hne⟩ := hnext hfull
      rw [hr] at heq
      cases heq
      exact hne
  case rolled =>
    intro t' ht' hfull
    cases hr : r.1 with
    | nil =>
      rw [hr] at ht'
      cases ht'
      obtain ⟨t'', ts', heq, -⟩ := hnext hfull
      rw [hr] at heq
      cases heq
    | cons t'' ts =>
      refine h.rolled t' ?_ hfull
      rwa [hr, List.getLast?_cons_cons, ← hr] at ht'
  case thrown =>
    intro e v hv
    obtain ⟨hne, t', w, hlast, hcall⟩ := h.thrown e v hv
    refine ⟨hne, t', w, ?_, hcall⟩
    cases hr : r.1 with
    | nil =>
      rw [hr] at hlast
      cases hlast
    | cons t'' ts =>
      rw [hr] at hlast
      exact (List.getLast?_cons_cons ..).trans hlast

end

/-- A volume whose SCO is full. -/
def full : Volume Bytes :=
  { dataStore_ := { currentClusterLoc_ := ⟨⟨1, 0, 0⟩, 2⟩, sco_mult_ := 2, current_open := true }
    cluster_locations_ := 2
    maxTLogEntries_ := 40 }

/-- A full SCO and clusters of two bytes: the first turn writes nothing, the second one the request. -/
example : (write_aligned_ .lengths 2 (fun _ => some 1024) 4 full 4 [1, 2, 3, 4]).1 =
    [⟨4, [], 2, 2, some 1024⟩, ⟨4, [1, 2, 3, 4], 0, 2, some 1024⟩] := by
  decide +kernel

end VolumeDriver.Chunks
