/-
Which parts of a volume a request touches (`Volume::read`, `Volume::write`, their LBA overloads,
`validateIOLength`, `validateIOAlignment`). Offsets, lengths and addresses are 64-bit words: sums
and products are taken modulo `2 ^ 64`. The data are left out here; a call leaves a log of the
buffers it uses and the clusters it reads or writes.
-/
import Mathlib.Data.UInt
import VolumeDriver.Lib.Blocks
import VolumeDriver.Lib.Triple

namespace VolumeDriver

open Lib List Nat

namespace Access

/-! ## The volume and the log -/

/-- What the two calls look at. -/
structure Volume where
  lba_count : UInt64
  lba_size : UInt64
  clusterSize_ : UInt32
  clusterSize_pos : 0 < clusterSize_.toNat
  volume_nullio : Bool := false
  isVolumeTemplate : Bool := false
  halted : Bool := false
  readOnly : Bool := false

/-- `getSize`, and the bound `validateIOLength` computes. -/
def Volume.getSize (v : Volume) : Nat := v.lba_count.toNat * v.lba_size.toNat % 2 ^ 64

/-- The cluster size. -/
def Volume.cs (v : Volume) : Nat := v.clusterSize_.toNat

/-- The clusters of the volume are those with smaller addresses. -/
def Volume.numberOfClusters (v : Volume) : Nat := blocks v.cs v.getSize

/-- What is thrown. -/
inductive Error
  | accessBeyondEndOfVolume
  | notAligned (what : String)
  | volumeIsTemplate
  | volumeHalted
  | volumeReadOnly
  deriving DecidableEq, Repr

/-- What is logged. -/
inductive Event
  /-- The request is past its validation. -/
  | validated
  /-- A buffer of `size` bytes that is accessed up to byte `need`. -/
  | buffer (size need : Nat)
  | cluster (ca : Nat)
  deriving DecidableEq, Repr

/-- Calls with a log. -/
abbrev M := EStateM Error (List Event)

/-- Adds to the log. -/
def tell (es : List Event) : M Unit := modify (· ++ es)

/-- Throws unless the condition holds. -/
def require (p : Prop) [Decidable p] (e : Error) : M Unit := if p then pure () else throw e

/-! ## The calls -/

variable (v : Volume)

/-- `validateIOLength`. -/
def validateIOLength (off len : Nat) : M Unit := require ((off + len) % 2 ^ 64 ≤ v.getSize) .accessBeyondEndOfVolume

/-- `validateIOAlignment`. -/
def validateIOAlignment (off len : Nat) : M Unit := do
  require (len % v.cs = 0) (.notAligned "Length not aligned to cluster size")
  require (off % v.cs = 0) (.notAligned "Request address not aligned to cluster")

/-- Rounds down. -/
def aligned_off (off : Nat) : Nat := off / v.cs * v.cs % 2 ^ 64

/-- Rounds up. -/
def aligned_len (off len : Nat) : Nat := blocks v.cs ((off % v.cs + len) % 2 ^ 64) * v.cs % 2 ^ 64

/-- The cluster of a byte. -/
def addr2CA (addr : Nat) : Nat := addr / v.cs

/-- The clusters of a loop that starts at `addr` and goes on by the cluster size below `bufsize`. -/
def clusterAddresses (addr bufsize : Nat) : List Nat :=
  (List.range (blocks v.cs bufsize)).map fun i => addr2CA v ((addr + i * v.cs) % 2 ^ 64)

/-- `readClusters_`. -/
def readClusters_ (addr bufsize : Nat) : M Unit := tell ((clusterAddresses v addr bufsize).map .cluster)

/-- `Volume::read`. -/
def readAt (off len : Nat) : M Unit :=
  if v.volume_nullio then pure () else do
    require (v.halted = false) .volumeHalted
    validateIOLength v off len
    validateIOAlignment v (aligned_off v off) (aligned_len v off len)
    -- the bounce buffer, or for an aligned request the caller's buffer
    tell [.validated, .buffer (aligned_len v off len) (off % v.cs + len)]
    readClusters_ v (aligned_off v off) (aligned_len v off len)

/-- The clusters of a chunk. -/
def writeClusters_ (addr bufsize : Nat) : M Unit := tell ((clusterAddresses v addr bufsize).map .cluster)

/-- The loop of `write_aligned_`. `cap` says how many clusters the SCO and the DTL take in each
turn; a turn writes at least one cluster. -/
def writeChunks (cap : Nat → Nat) (off len : Nat) : Nat → Nat → M Unit
  | 0, _ => pure ()
  | turns + 1, write_off =>
    if write_off < len then do
      let chunksize := min (len - write_off) (cap turns * v.cs)
      writeClusters_ v ((off + write_off) % 2 ^ 64) chunksize
      writeChunks cap off len turns (write_off + chunksize)
    else pure ()

/-- `write_aligned_`. -/
def write_aligned_ (cap : Nat → Nat) (off len : Nat) : M Unit := do
  validateIOAlignment v off len
  writeChunks v cap off len (blocks v.cs len) 0

/-- What `write` does after its checks: an unaligned request reads the clusters it changes first. -/
def writeBody (cap : Nat → Nat) (off len : Nat) : M Unit :=
  if aligned_off v off ≠ off ∨ aligned_len v off len ≠ len then do
    readAt v (aligned_off v off) (aligned_len v off len)
    write_aligned_ v cap (aligned_off v off) (aligned_len v off len)
  else
    write_aligned_ v cap (aligned_off v off) (aligned_len v off len)

/-- `Volume::write`. -/
def writeAt (cap : Nat → Nat) (off len : Nat) : M Unit :=
  if v.volume_nullio then pure () else do
    require (v.isVolumeTemplate = false) .volumeIsTemplate
    require (v.halted = false) .volumeHalted
    require (v.readOnly = false) .volumeReadOnly
    validateIOLength v off len
    tell [.validated, .buffer (aligned_len v off len) (off % v.cs + len)]
    writeBody v cap off len

/-! ## Requests -/

/-- The two calls. -/
inductive Op
  | read
  | write (cap : Nat → Nat)

/-- The two overloads. -/
inductive Start
  | off (off : UInt64)
  | lba (lba : UInt64)
  deriving DecidableEq

/-- The first byte of the request, computed without wrap-around. -/
def Start.exact : Start → Nat
  | .off o => o.toNat
  | .lba l => l.toNat * v.lba_size.toNat

/-- A request. -/
def call (op : Op) (start : Start) (len : UInt64) : M Unit :=
  match op with
  | .read => readAt v (start.exact v % 2 ^ 64) len.toNat
  | .write cap => writeAt v cap (start.exact v % 2 ^ 64) len.toNat

/-- What must hold of an event: a request past its validation lies inside the volume, a buffer is
large enough, a cluster is one of the volume. -/
def Event.Ok (inside : Prop) : Event → Prop
  | .validated => inside
  | .buffer size need => need ≤ size
  | .cluster ca => ca < v.numberOfClusters

/-- The request does nothing outside the volume or its buffers. -/
def Safe (op : Op) (start : Start) (len : UInt64) : Prop :=
  ∀ e ∈ after (call v op start len) [], e.Ok v (start.exact v + len.toNat ≤ v.getSize)

/-- The volume does not take the request, whatever its offset and length are. -/
def Refuses : Op → Prop
  | .read => v.volume_nullio = true ∨ v.halted = true
  | .write _ => v.volume_nullio = true ∨ v.isVolumeTemplate = true ∨ v.halted = true ∨ v.readOnly = true

/-- A read also checks that the length it computed is a whole number of clusters. -/
def Misaligned (off len : Nat) : Op → Prop
  | .read => ¬ v.cs ∣ aligned_len v off len
  | .write _ => False

/-- No sum, product or rounding of the request leaves 64 bits. -/
def NoWrap (start : Start) (len : UInt64) : Prop :=
  start.exact v + len.toNat < 2 ^ 64 ∧ blocks v.cs (start.exact v % v.cs + len.toNat) * v.cs < 2 ^ 64

theorem Volume.cs_pos : 0 < v.cs := v.clusterSize_pos

theorem Volume.cs_lt : v.cs < 2 ^ 32 := v.clusterSize_.toNat_lt

theorem Volume.getSize_lt : v.getSize < 2 ^ 64 := mod_lt _ (by decide)

/-! ## What a program adds to the log -/

/-- The program only appends to the log, and only events that meet `P`. -/
def Adds (P : Event → Prop) (m : M Unit) : Prop := ∀ s, ∃ rest, after m s = s ++ rest ∧ ∀ e ∈ rest, P e

section
variable {P : Event → Prop}

theorem adds_pure : Adds P (pure ()) := fun s => ⟨[], (append_nil s).symm, by simp⟩

theorem adds_tell {es : List Event} (h : ∀ e ∈ es, P e) : Adds P (tell es) := fun _ => ⟨es, rfl, h⟩

theorem Adds.bind {m m' : M Unit} (hm : Adds P m) (hm' : Adds P m') : Adds P (m >>= fun _ => m') := by
  intro s
  obtain ⟨r, hr, hp⟩ := hm s
  cases h : m s with
  | ok a s' =>
    obtain ⟨r', hr', hp'⟩ := hm' s'
    rw [after_ok h] at hr
    refine ⟨r ++ r', ?_, forall_mem_append.mpr ⟨hp, hp'⟩⟩
    rw [after_bind h, hr', hr, append_assoc]
  | error e s' =>
    rw [after_error h] at hr
    exact ⟨r, (after_bind_error h).trans hr, hp⟩

theorem adds_require_bind {p : Prop} [Decidable p] {e : Error} {m : M Unit} (h : p → Adds P m) :
    Adds P (require p e >>= fun _ => m) := by
  unfold require
  by_cases hp : p
  · rw [if_pos hp]; exact h hp
  · rw [if_neg hp]; exact fun s => adds_pure s

theorem adds_require {p : Prop} [Decidable p] {e : Error} : Adds P (require p e) := by
  unfold require
  split
  · exact adds_pure
  · exact fun s => adds_pure s

/-! ## What the calls add -/

/-- The events of a read that passes its checks. -/
def readEvents (off len : Nat) : List Event :=
  [.validated, .buffer (aligned_len v off len) (off % v.cs + len)] ++
    (clusterAddresses v (aligned_off v off) (aligned_len v off len)).map .cluster

theorem readAt_adds {off len : Nat} (h : (off + len) % 2 ^ 64 ≤ v.getSize → ∀ e ∈ readEvents v off len, P e) :
    Adds P (readAt v off len) := by
  unfold readAt validateIOLength validateIOAlignment
  split
  · exact adds_pure
  · refine adds_require_bind fun _ => adds_require_bind fun hlen => ?_
    refine Adds.bind (Adds.bind adds_require adds_require) ?_
    obtain ⟨h₁, h₂⟩ := forall_mem_append.mp (h hlen)
    exact Adds.bind (adds_tell h₁) (adds_tell h₂)

theorem addr2CA_mul {a i : Nat} (h : (a + i) * v.cs < 2 ^ 64) :
    addr2CA v ((a * v.cs % 2 ^ 64 + i * v.cs) % 2 ^ 64) = a + i := by
  have hsum : (a + i) * v.cs = a * v.cs + i * v.cs := Nat.add_mul ..
  rw [Nat.mod_eq_of_lt (show a * v.cs < 2 ^ 64 by omega), ← hsum, Nat.mod_eq_of_lt h]
  exact Nat.mul_div_cancel _ v.cs_pos

/-- A chunk loop that stands at a multiple of the cluster size touches clusters up to its end. -/
theorem writeChunks_adds (cap : Nat → Nat) {a n : Nat} (h : ∀ i < n, P (.cluster (a + i)))
    (hn : ∀ i < n, (a + i) * v.cs < 2 ^ 64) :
    ∀ turns j, Adds P (writeChunks v cap (a * v.cs) (n * v.cs) turns (j * v.cs))
  | 0, _ => adds_pure
  | turns + 1, j => by
    unfold writeChunks
    split
    · have hchunk : min (n * v.cs - j * v.cs) (cap turns * v.cs) = min (n - j) (cap turns) * v.cs := by
        rw [← Nat.sub_mul, ← Nat.mul_min_mul_right]
      simp only [hchunk, ← Nat.add_mul]
      refine Adds.bind (adds_tell ?_) (writeChunks_adds cap h hn turns _)
      intro e he
      obtain ⟨ca, hca, rfl⟩ := mem_map.mp he
      obtain ⟨i, hi, rfl⟩ := mem_map.mp hca
      rw [mem_range, blocks_mul_self v.cs_pos] at hi
      have hlt : j + i < n := by omega
      have haddr := hn (j + i) hlt
      rw [← Nat.add_assoc] at haddr
      rw [addr2CA_mul v haddr, Nat.add_assoc]
      exact h (j + i) hlt
    · exact adds_pure

theorem write_aligned_adds {cap : Nat → Nat} {a n : Nat} (h : ∀ i < n, P (.cluster (a + i)))
    (hn : ∀ i < n, (a + i) * v.cs < 2 ^ 64) : Adds P (write_aligned_ v cap (a * v.cs) (n * v.cs)) := by
  have hloop := writeChunks_adds v cap h hn (blocks v.cs (n * v.cs)) 0
  rw [Nat.zero_mul] at hloop
  exact Adds.bind (Adds.bind adds_require adds_require) hloop

end

/-! ## Requests that do not wrap -/

section
variable {off len : Nat} (hsum : off + len < 2 ^ 64) (hround : blocks v.cs (off % v.cs + len) * v.cs < 2 ^ 64)

theorem aligned_off_eq (h : off < 2 ^ 64) : aligned_off v off = off / v.cs * v.cs := by
  have := div_mul_le_self off v.cs
  exact mod_eq_of_lt (by omega)

variable {inside : Prop}

theorem cluster_ok {ca : Nat} (h : ca * v.cs < v.getSize) : (Event.cluster ca).Ok v inside :=
  (lt_blocks_iff v.cs_pos).mpr h

theorem cluster_start_lt {i : Nat} (hi : i < blocks v.cs (off % v.cs + len)) : (off / v.cs + i) * v.cs < off + len := by
  have h := (lt_blocks_iff v.cs_pos).mp hi
  have hoff := Nat.div_add_mod' off v.cs
  rw [Nat.add_mul]
  omega

theorem writeBody_adds {cap : Nat → Nat} {P : Event → Prop}
    (hread : Adds P (readAt v (aligned_off v off) (aligned_len v off len)))
    (hwrite : Adds P (write_aligned_ v cap (aligned_off v off) (aligned_len v off len))) :
    Adds P (writeBody v cap off len) := by
  unfold writeBody
  split
  · exact hread.bind hwrite
  · exact hwrite

include hsum hround

theorem aligned_len_eq : aligned_len v off len = blocks v.cs (off % v.cs + len) * v.cs := by
  have := mod_le off v.cs
  unfold aligned_len
  rw [mod_eq_of_lt (show off % v.cs + len < 2 ^ 64 by omega), mod_eq_of_lt hround]

theorem clusterAddresses_mem {ca : Nat} (h : ca ∈ clusterAddresses v (aligned_off v off) (aligned_len v off len)) :
    ca * v.cs < off + len := by
  rw [aligned_off_eq v (by omega), aligned_len_eq v hsum hround] at h
  obtain ⟨i, hi, rfl⟩ := mem_map.mp h
  rw [mem_range, blocks_mul_self v.cs_pos] at hi
  have hstart := cluster_start_lt v hi
  have hmul := div_mul_le_self off v.cs
  have haddr := addr2CA_mul v (show (off / v.cs + i) * v.cs < 2 ^ 64 by omega)
  rw [mod_eq_of_lt (show off / v.cs * v.cs < 2 ^ 64 by omega)] at haddr
  rw [haddr]
  exact hstart

theorem readEvents_ok (hsize : off + len ≤ v.getSize) (hin : inside) : ∀ e ∈ readEvents v off len, e.Ok v inside := by
  intro e he
  simp only [readEvents, cons_append, nil_append, mem_cons, mem_map] at he
  rcases he with rfl | rfl | ⟨ca, hca, rfl⟩
  · exact hin
  · show off % v.cs + len ≤ aligned_len v off len
    rw [aligned_len_eq v hsum hround]
    exact le_blocks_mul v.cs_pos
  · apply cluster_ok
    have := clusterAddresses_mem v hsum hround hca
    omega

theorem readEvents_aligned : readEvents v (aligned_off v off) (aligned_len v off len) =
      [.validated, .buffer (aligned_len v off len) (aligned_len v off len)] ++
        (clusterAddresses v (aligned_off v off) (aligned_len v off len)).map .cluster := by
  have hoff := aligned_off_eq v (show off < 2 ^ 64 by omega)
  have hlt : aligned_off v off < 2 ^ 64 := Nat.mod_lt _ (by decide)
  have hoff2 : aligned_off v (aligned_off v off) = aligned_off v off := by
    rw [aligned_off_eq v hlt, hoff, Nat.mul_div_cancel _ v.cs_pos]
  have hmod : aligned_off v off % v.cs = 0 := by rw [hoff, Nat.mul_mod_left]
  have hlen2 : aligned_len v (aligned_off v off) (aligned_len v off len) = aligned_len v off len := by
    rw [show aligned_len v (aligned_off v off) (aligned_len v off len) =
      blocks v.cs ((aligned_off v off % v.cs + aligned_len v off len) % 2 ^ 64) * v.cs % 2 ^ 64 from rfl]
    rw [hmod, Nat.zero_add, aligned_len_eq v hsum hround, Nat.mod_eq_of_lt hround, blocks_mul_self v.cs_pos,
      Nat.mod_eq_of_lt hround]
  unfold readEvents
  rw [hoff2, hlen2, hmod, Nat.zero_add]

theorem writeBody_ok (cap : Nat → Nat) (hsize : off + len ≤ v.getSize) (hin : inside) :
    Adds (Event.Ok v inside) (writeBody v cap off len) := by
  have hevents := readEvents_ok v hsum hround hsize hin
  apply writeBody_adds
  · apply readAt_adds
    intro _ e he
    rw [readEvents_aligned v hsum hround] at he
    rcases mem_append.mp he with h | h
    · simp only [mem_cons, not_mem_nil, or_false] at h
      rcases h with rfl | rfl
      · exact hin
      · exact le_refl _
    · exact hevents e (mem_append_right _ h)
  · rw [aligned_off_eq v (by omega), aligned_len_eq v hsum hround]
    apply write_aligned_adds
    · intro i hi
      have := cluster_start_lt v hi
      exact cluster_ok v (by omega)
    · intro i hi
      have := cluster_start_lt v hi
      omega

end

/-! ## The log of a request -/

theorem after_require_bind {p : Prop} [Decidable p] {e : Error} {m : M Unit} {s : List Event} :
    after (require p e >>= fun _ => m) s = if p then after m s else s := by
  unfold require
  split <;> rfl

theorem after_nullio {m : M Unit} {s : List Event} :
    after (if v.volume_nullio then pure () else m) s = if v.volume_nullio = false then after m s else s := by
  cases v.volume_nullio <;> rfl

section
variable {off len : Nat} {cap : Nat → Nat} {s : List Event}

theorem after_readAt (hoff : off < 2 ^ 64) : after (readAt v off len) s =
      if v.volume_nullio = false ∧ v.halted = false ∧ (off + len) % 2 ^ 64 ≤ v.getSize ∧
        aligned_len v off len % v.cs = 0
      then s ++ readEvents v off len else s := by
  have haligned : aligned_off v off % v.cs = 0 := by rw [aligned_off_eq v hoff, mul_mod_left]
  unfold readAt validateIOLength validateIOAlignment
  simp only [bind_assoc, after_nullio, after_require_bind, if_pos haligned, ite_and, readEvents, ← append_assoc]
  rfl

theorem after_writeAt : after (writeAt v cap off len) s =
      if v.volume_nullio = false ∧ v.isVolumeTemplate = false ∧ v.halted = false ∧ v.readOnly = false ∧
        (off + len) % 2 ^ 64 ≤ v.getSize
      then after (writeBody v cap off len) (s ++ [.validated, .buffer (aligned_len v off len) (off % v.cs + len)])
      else s := by
  unfold writeAt validateIOLength
  simp only [after_nullio, after_require_bind, ite_and]
  rfl

end

/-- The volume takes the request and it passes the checks on its offset and length. -/
def Accepts (op : Op) (off len : Nat) : Prop :=
  ¬ Refuses v op ∧ (off + len) % 2 ^ 64 ≤ v.getSize ∧ ¬ Misaligned v off len op

section
variable {op : Op} {start : Start} {len : UInt64}

theorem accepts_read_iff {off len : Nat} : Accepts v .read off len ↔
    v.volume_nullio = false ∧ v.halted = false ∧ (off + len) % 2 ^ 64 ≤ v.getSize ∧
      aligned_len v off len % v.cs = 0 := by
  simp only [Accepts, Refuses, Misaligned, not_or, Bool.not_eq_true, not_not, dvd_iff_mod_eq_zero, and_assoc]

theorem accepts_write_iff {cap : Nat → Nat} {off len : Nat} : Accepts v (.write cap) off len ↔
    v.volume_nullio = false ∧ v.isVolumeTemplate = false ∧ v.halted = false ∧ v.readOnly = false ∧
      (off + len) % 2 ^ 64 ≤ v.getSize := by
  simp only [Accepts, Refuses, Misaligned, not_or, Bool.not_eq_true, not_false_eq_true, and_true, and_assoc]

theorem writeChunks_grows (cap : Nat → Nat) (off len : Nat) :
    ∀ turns write_off, Adds (fun _ => True) (writeChunks v cap off len turns write_off)
  | 0, _ => adds_pure
  | turns + 1, write_off => by
    unfold writeChunks
    split
    · exact Adds.bind (adds_tell fun _ _ => trivial) (writeChunks_grows cap off len turns _)
    · exact adds_pure

theorem writeBody_grows (cap : Nat → Nat) (off len : Nat) : Adds (fun _ => True) (writeBody v cap off len) := by
  apply writeBody_adds
  · exact readAt_adds v fun _ _ _ => trivial
  · exact Adds.bind (Adds.bind adds_require adds_require) (writeChunks_grows v cap _ _ _ _)

/-- The first events of an accepted request. -/
def firstEvents (off len : Nat) : List Event := [.validated, .buffer (aligned_len v off len) (off % v.cs + len)]

theorem after_call (h : Accepts v op (start.exact v % 2 ^ 64) len.toNat) :
    ∃ rest, after (call v op start len) [] = firstEvents v (start.exact v % 2 ^ 64) len.toNat ++ rest := by
  cases op with
  | read =>
    refine ⟨(clusterAddresses v (aligned_off v (start.exact v % 2 ^ 64))
      (aligned_len v (start.exact v % 2 ^ 64) len.toNat)).map .cluster, ?_⟩
    show after (readAt v _ _) [] = _
    rw [after_readAt v (mod_lt _ (by decide)), if_pos ((accepts_read_iff v).mp h)]
    rfl
  | write cap =>
    obtain ⟨rest, hrest, -⟩ := writeBody_grows v cap (start.exact v % 2 ^ 64) len.toNat
      ([] ++ firstEvents v (start.exact v % 2 ^ 64) len.toNat)
    refine ⟨rest, ?_⟩
    show after (writeAt v cap _ _) [] = _
    rw [after_writeAt, if_pos ((accepts_write_iff v).mp h)]
    exact hrest

theorem after_call_not_accepted (h : ¬ Accepts v op (start.exact v % 2 ^ 64) len.toNat) :
    after (call v op start len) [] = [] := by
  cases op with
  | read =>
    show after (readAt v _ _) [] = _
    rw [after_readAt v (mod_lt _ (by decide)), if_neg (h ∘ (accepts_read_iff v).mpr)]
  | write cap =>
    show after (writeAt v cap _ _) [] = _
    rw [after_writeAt, if_neg (h ∘ (accepts_write_iff v).mpr)]

theorem safe_of_noWrap (h : NoWrap v start len) (hacc : Accepts v op (start.exact v % 2 ^ 64) len.toNat) :
    Safe v op start len := by
  obtain ⟨hsum, hround⟩ := h
  have hmod : start.exact v % 2 ^ 64 = start.exact v := mod_eq_of_lt (by omega)
  have hsize : start.exact v + len.toNat ≤ v.getSize := by
    have := hacc.2.1
    rwa [hmod, mod_eq_of_lt hsum] at this
  have hevents := readEvents_ok v hsum hround hsize hsize
  cases op with
  | read =>
    intro e he
    have hlog : after (call v .read start len) [] = readEvents v (start.exact v) len.toNat := by
      show after (readAt v _ _) [] = _
      rw [after_readAt v (mod_lt _ (by decide)), if_pos ((accepts_read_iff v).mp hacc), hmod]
      rfl
    rw [hlog] at he
    exact hevents e he
  | write cap =>
    intro e he
    obtain ⟨rest, hrest, hok⟩ := writeBody_ok v hsum hround cap hsize hsize
      ([] ++ firstEvents v (start.exact v) len.toNat)
    have hlog : after (call v (.write cap) start len) [] = [] ++ firstEvents v (start.exact v) len.toNat ++ rest := by
      show after (writeAt v cap _ _) [] = _
      rw [after_writeAt, if_pos ((accepts_write_iff v).mp hacc), hmod]
      exact hrest
    rw [hlog, nil_append] at he
    rcases mem_append.mp he with h | h
    · exact hevents e (mem_append_left _ h)
    · exact hok e h

/-- An accepted request that wraps leaves its bounds: the exact end is beyond the volume, or the
rounded length has lost its highest bit and is too small. -/
theorem noWrap_of_safe (h : Safe v op start len) (hacc : Accepts v op (start.exact v % 2 ^ 64) len.toNat) :
    NoWrap v start len := by
  obtain ⟨rest, hlog⟩ := after_call v hacc
  unfold Safe at h
  rw [hlog] at h
  have hsize : start.exact v + len.toNat ≤ v.getSize :=
    h .validated (mem_append_left _ mem_cons_self)
  have hlt := v.getSize_lt
  have hsum : start.exact v + len.toNat < 2 ^ 64 := by omega
  have hbuf : start.exact v % 2 ^ 64 % v.cs + len.toNat ≤ aligned_len v (start.exact v % 2 ^ 64) len.toNat :=
    h (.buffer _ _) (mem_append_left _ (mem_cons_of_mem _ mem_cons_self))
  refine ⟨hsum, ?_⟩
  by_contra hround
  rw [mod_eq_of_lt (show start.exact v < 2 ^ 64 by omega)] at hbuf
  have hmod := mod_le (start.exact v) v.cs
  have hcs := v.cs_lt
  have hup := blocks_mul_lt (x := start.exact v % v.cs + len.toNat) v.cs_pos
  -- the rounded length is between `2 ^ 64` and `2 ^ 64 + cs`
  have hwrapped : aligned_len v (start.exact v) len.toNat =
      blocks v.cs (start.exact v % v.cs + len.toNat) * v.cs - 2 ^ 64 := by
    unfold aligned_len
    rw [mod_eq_of_lt (show start.exact v % v.cs + len.toNat < 2 ^ 64 by omega)]
    omega
  omega

/-- A request stays inside the volume and its buffers exactly when it is turned down or nothing
in it wraps. -/
theorem no_io_outside_volume_iff (op : Op) (start : Start) (len : UInt64) :
    Safe v op start len ↔
      Refuses v op ∨ v.getSize < (start.exact v + len.toNat) % 2 ^ 64 ∨
        Misaligned v (start.exact v % 2 ^ 64) len.toNat op ∨ NoWrap v start len := by
  have hsum : (start.exact v % 2 ^ 64 + len.toNat) % 2 ^ 64 = (start.exact v + len.toNat) % 2 ^ 64 := mod_add_mod ..
  by_cases hacc : Accepts v op (start.exact v % 2 ^ 64) len.toNat
  · obtain ⟨hr, hl, hm⟩ := id hacc
    constructor
    · intro h
      exact .inr (.inr (.inr (noWrap_of_safe v h hacc)))
    · rintro (h | h | h | h)
      · exact absurd h hr
      · omega
      · exact absurd h hm
      · exact safe_of_noWrap v h hacc
  · constructor
    · intro _
      by_contra hn
      rw [not_or, not_or, not_or] at hn
      refine hacc ⟨hn.1, ?_, hn.2.2.1⟩
      omega
    · intro _
      unfold Safe
      rw [after_call_not_accepted v hacc]
      simp

end

namespace Sample

/-- A volume of one cluster. -/
def volume : Volume := { lba_count := 8, lba_size := 512, clusterSize_ := 4096, clusterSize_pos := by decide }

end Sample

/-- A read of the last cluster of the address space, of a volume of one cluster: the sum of offset
and length wraps to 0, the request is accepted and the cluster at address `2 ^ 52 - 1` is read. -/
theorem read_beyond_the_end :
    after (call Sample.volume .read (.off (2 ^ 64 - 4096)) 4096) [] =
        [.validated, .buffer 4096 4096, .cluster (2 ^ 52 - 1)] ∧
      Sample.volume.getSize = 4096 ∧ Sample.volume.numberOfClusters = 1 := by
  refine ⟨?_, ?_, ?_⟩ <;> decide +kernel

end Access

end VolumeDriver
