/-
Requests to the metadata server over shared memory: which memory the client and the server hand to
Cap'n Proto for a message, as their headers say it. Sizes, offsets and addresses are 64 bits wide and
wrap. Cap'n Proto itself is not modelled: it stays inside the array of words that it is given, and the
serialised size of a message of `n` words in one segment is `n + 1` words.
-/
import Mathlib.Algebra.Group.Nat.Defs
import Mathlib.Order.CompletePartialOrder
import Mathlib.Order.Interval.Set.Basic
import Mathlib.Order.Interval.Set.Disjoint
import Mathlib.Tactic.Common

namespace VolumeDriver.MetaDataServer

open Option

/-! ## Regions, word arrays and headers -/

/-- A mapped `SharedMemoryRegion`. Mappings lie in the lower half of the address space. -/
structure Region where
  address : Nat
  size : Nat
  fits : address + size < 2 ^ 63

/-- The bytes of a region. -/
def Region.bytes (mr : Region) : Set Nat := Set.Ico mr.address (mr.address + mr.size)

/-- The regions that a connection can open, by their id; distinct ones do not overlap. -/
structure Regions where
  get : Nat → Option Region
  apart : ∀ {i j : Nat} {mr mr' : Region}, i ≠ j → get i = some mr → get j = some mr' → Disjoint mr.bytes mr'.bytes

/-- A `kj::ArrayPtr` of words of 8 bytes. -/
structure WordArray where
  start : Nat
  words : Nat
  deriving DecidableEq, Repr

open WordArray

/-- The bytes of an array. -/
def WordArray.bytes (a : WordArray) : Set Nat := Set.Ico a.start (a.start + 8 * a.words)

/-- `RequestHeader`, as it comes from the peer. A region id of 0 means that there is none. -/
structure RequestHeader where
  size : Nat
  out_region : Nat
  out_offset : Nat
  in_region : Nat
  in_offset : Nat
  size_lt : size < 2 ^ 64
  out_offset_lt : out_offset < 2 ^ 64
  in_offset_lt : in_offset < 2 ^ 64

/-- `ResponseHeader`, with the flag `UseShmem`. -/
structure ResponseHeader where
  size : Nat
  use_shmem : Bool
  size_lt : size < 2 ^ 64

/-- Where a message is read: in a region, or in a buffer of the given length that was filled from the
socket. -/
inductive DataSource
  | shmem (mr : Region) (array : WordArray)
  | received (bytes words : Nat)

/-! ## The server -/

/-- `get_data_` and `recv_data_`. Opening a region that is not there throws. -/
def get_data_ (regions : Regions) (hdr : RequestHeader) : Option DataSource :=
  if hdr.size ≠ 0 ∧ hdr.out_region ≠ 0 then
    -- the offset is added to a pointer to words
    (regions.get hdr.out_region).map fun mr =>
      .shmem mr ⟨(mr.address + 8 * hdr.out_offset) % 2 ^ 64, hdr.size / 8⟩
  else some (.received hdr.size (hdr.size / 8))

/-- The array in which `handle_shmem_` builds the response. -/
def handle_shmem_ (mr : Region) (hdr : RequestHeader) : WordArray :=
  ⟨(mr.address + hdr.in_offset) % 2 ^ 64, (mr.size + 2 ^ 64 - hdr.in_offset) % 2 ^ 64 / 8⟩

/-- The test with which `handle_` refuses to build the response in shared memory. -/
def RequestHeader.overlapping (hdr : RequestHeader) : Prop :=
  hdr.in_region = hdr.out_region ∧ hdr.in_offset < (hdr.out_offset + hdr.size) % 2 ^ 64

instance (hdr : RequestHeader) : Decidable hdr.overlapping := inferInstanceAs (Decidable (_ ∧ _))

/-- `handle_`: the region of the response, if it is built in one. A region that cannot be opened makes it
fall back to the socket. -/
def handle_ (regions : Regions) (hdr : RequestHeader) : Option Region :=
  if hdr.in_region ≠ 0 ∧ ¬hdr.overlapping then regions.get hdr.in_region else none

/-! ## The client -/

/-- `send_shmem_` for a message of `n` words. The size is passed on as a `uint32_t`. -/
def send_shmem_ (id n : Nat) : RequestHeader where
  size := 8 * (n + 1) % 2 ^ 64 % 2 ^ 32
  out_region := id
  out_offset := 0
  in_region := id
  in_offset := 8 * (n + 1) % 2 ^ 64
  size_lt := by omega
  out_offset_lt := by omega
  in_offset_lt := by omega

/-- `recv_`: where the client reads the response; it throws if the response is said to be in shared
memory and reaches beyond the region. -/
def recv_ (mr : Region) (txoff : Nat) (rxhdr : ResponseHeader) : Option DataSource :=
  if rxhdr.use_shmem then
    if (mr.address + txoff + rxhdr.size) % 2 ^ 64 ≤ mr.address + mr.size then
      some (.shmem mr ⟨(mr.address + txoff) % 2 ^ 64, rxhdr.size / 8⟩)
    else none
  else some (.received rxhdr.size (rxhdr.size / 8))

/-! ## Staying inside -/

/-- The message is read in the region, or in what was received. -/
def DataSource.Inside : DataSource → Prop
  | shmem mr array => array.bytes ⊆ mr.bytes
  | received bytes words => 8 * words ≤ bytes

/-- A request is read inside its region or the received bytes; if its response is built in a region, then
between `in_offset` and the end of the region and not over the request. -/
structure InBounds (regions : Regions) (hdr : RequestHeader) : Prop where
  reads : ∀ src, get_data_ regions hdr = some src → src.Inside
  builds : ∀ src mr, get_data_ regions hdr = some src → handle_ regions hdr = some mr →
    (handle_shmem_ mr hdr).bytes ⊆ Set.Ico (mr.address + hdr.in_offset) (mr.address + mr.size)
  apart : ∀ mr' request mr, get_data_ regions hdr = some (.shmem mr' request) → handle_ regions hdr = some mr →
    Disjoint request.bytes (handle_shmem_ mr hdr).bytes

/-- What a header has to say. The words of the request, if there are any, lie in its region, with
`out_offset` counted in words and taken modulo `2 ^ 64` bytes. The offset of the response is not beyond the
end of its region (or so far beyond a region of less than a word that nothing is left of the difference).
In one region the request ends before the response starts, if there is a word of either. -/
structure RequestHeader.Placed (hdr : RequestHeader) (regions : Regions) : Prop where
  request : ∀ mr, hdr.out_region ≠ 0 → regions.get hdr.out_region = some mr → 8 ≤ hdr.size →
    8 * hdr.out_offset % 2 ^ 64 + hdr.size / 8 * 8 ≤ mr.size
  response : ∀ mr, (hdr.size = 0 ∨ hdr.out_region = 0 ∨ (regions.get hdr.out_region).isSome) →
    hdr.in_region ≠ 0 → ¬hdr.overlapping → regions.get hdr.in_region = some mr →
    hdr.in_offset ≤ mr.size ∨ mr.size + 2 ^ 64 < hdr.in_offset + 8
  gap : ∀ mr, hdr.in_region ≠ 0 → ¬hdr.overlapping → regions.get hdr.in_region = some mr →
    hdr.in_region = hdr.out_region → 8 ≤ hdr.size → hdr.in_offset + 8 ≤ mr.size →
    8 * hdr.out_offset % 2 ^ 64 + hdr.size / 8 * 8 ≤ hdr.in_offset

theorem WordArray.bytes_subset_iff {a : WordArray} {lo hi : Nat} :
    a.bytes ⊆ Set.Ico lo hi ↔ a.words = 0 ∨ lo ≤ a.start ∧ a.start + 8 * a.words ≤ hi := by
  unfold bytes
  by_cases h : a.words = 0
  · simp [h]
  · rw [Set.Ico_subset_Ico_iff (by omega)]
    simp [h]

theorem request_inside_iff (mr : Region) (hdr : RequestHeader) :
    (mk ((mr.address + 8 * hdr.out_offset) % 2 ^ 64) (hdr.size / 8)).bytes ⊆ mr.bytes ↔
      (8 ≤ hdr.size → 8 * hdr.out_offset % 2 ^ 64 + hdr.size / 8 * 8 ≤ mr.size) := by
  have hfits := mr.fits
  unfold Region.bytes
  rw [bytes_subset_iff]
  dsimp only
  omega

theorem response_inside_iff (mr : Region) (hdr : RequestHeader) :
    (handle_shmem_ mr hdr).bytes ⊆ Set.Ico (mr.address + hdr.in_offset) (mr.address + mr.size) ↔
      hdr.in_offset ≤ mr.size ∨ mr.size + 2 ^ 64 < hdr.in_offset + 8 := by
  have hfits := mr.fits
  unfold handle_shmem_
  rw [bytes_subset_iff]
  dsimp only
  omega

theorem bytes_disjoint_iff {a b : WordArray} : Disjoint a.bytes b.bytes ↔
      a.words = 0 ∨ b.words = 0 ∨ a.start + 8 * a.words ≤ b.start ∨ b.start + 8 * b.words ≤ a.start := by
  unfold bytes
  rw [Set.Ico_disjoint_Ico]
  omega

section
variable {regions : Regions} {hdr : RequestHeader}

theorem get_data_cases {src : DataSource} (h : get_data_ regions hdr = some src) :
    (hdr.size = 0 ∨ hdr.out_region = 0) ∧ src = .received hdr.size (hdr.size / 8) ∨
      ∃ mr, hdr.out_region ≠ 0 ∧ regions.get hdr.out_region = some mr ∧
        src = .shmem mr ⟨(mr.address + 8 * hdr.out_offset) % 2 ^ 64, hdr.size / 8⟩ := by
  unfold get_data_ at h
  split at h
  · next hc =>
    obtain ⟨mr, hmr, rfl⟩ := map_eq_some_iff.1 h
    exact Or.inr ⟨mr, hc.2, hmr, rfl⟩
  · next hc =>
    cases h
    exact Or.inl ⟨by omega, rfl⟩

variable {mr : Region}

theorem get_data_shmem (hsize : hdr.size ≠ 0) (hout : hdr.out_region ≠ 0) (hmr : regions.get hdr.out_region = some mr) :
    get_data_ regions hdr = some (.shmem mr ⟨(mr.address + 8 * hdr.out_offset) % 2 ^ 64, hdr.size / 8⟩) := by
  unfold get_data_
  rw [if_pos ⟨hsize, hout⟩, hmr]
  rfl

theorem exists_get_data_ (h : hdr.size = 0 ∨ hdr.out_region = 0 ∨ (regions.get hdr.out_region).isSome) :
    ∃ src, get_data_ regions hdr = some src := by
  unfold get_data_
  split
  · next hc =>
    obtain ⟨mr, hmr⟩ := isSome_iff_exists.1 ((h.resolve_left hc.1).resolve_left hc.2)
    exact ⟨_, by rw [hmr]; rfl⟩
  · exact ⟨_, rfl⟩

theorem handle_eq_some :
    handle_ regions hdr = some mr ↔ hdr.in_region ≠ 0 ∧ ¬hdr.overlapping ∧ regions.get hdr.in_region = some mr := by
  unfold handle_
  split
  · next hc => simp [hc.1, hc.2]
  · next hc =>
    constructor
    · exact nofun
    · rintro ⟨hin, hno, _⟩
      exact absurd ⟨hin, hno⟩ hc

theorem disjoint_in_region_iff (hreq : 8 ≤ hdr.size → 8 * hdr.out_offset % 2 ^ 64 + hdr.size / 8 * 8 ≤ mr.size)
    (hres : hdr.in_offset ≤ mr.size ∨ mr.size + 2 ^ 64 < hdr.in_offset + 8) :
    Disjoint (mk ((mr.address + 8 * hdr.out_offset) % 2 ^ 64) (hdr.size / 8)).bytes (handle_shmem_ mr hdr).bytes ↔
      (8 ≤ hdr.size → hdr.in_offset + 8 ≤ mr.size →
        8 * hdr.out_offset % 2 ^ 64 + hdr.size / 8 * 8 ≤ hdr.in_offset) := by
  have hfits := mr.fits
  unfold handle_shmem_
  rw [bytes_disjoint_iff]
  dsimp only
  omega

theorem inBounds_iff : InBounds regions hdr ↔ hdr.Placed regions := by
  constructor
  · intro h
    have hrequest : ∀ mr, hdr.out_region ≠ 0 → regions.get hdr.out_region = some mr → 8 ≤ hdr.size →
        8 * hdr.out_offset % 2 ^ 64 + hdr.size / 8 * 8 ≤ mr.size := by
      intro mr hout hmr hsize
      exact (request_inside_iff mr hdr).1 (h.reads _ (get_data_shmem (by omega) hout hmr)) hsize
    have hresponse : ∀ mr, (hdr.size = 0 ∨ hdr.out_region = 0 ∨ (regions.get hdr.out_region).isSome) →
        hdr.in_region ≠ 0 → ¬hdr.overlapping → regions.get hdr.in_region = some mr →
        hdr.in_offset ≤ mr.size ∨ mr.size + 2 ^ 64 < hdr.in_offset + 8 := by
      intro mr hget hin hno hmr
      obtain ⟨src, hsrc⟩ := exists_get_data_ hget
      exact (response_inside_iff mr hdr).1 (h.builds src mr hsrc (handle_eq_some.2 ⟨hin, hno, hmr⟩))
    refine ⟨hrequest, hresponse, ?_⟩
    intro mr hin hno hmr heq hsize
    -- request and response share the region
    have hout : hdr.out_region ≠ 0 := heq ▸ hin
    have hmr' : regions.get hdr.out_region = some mr := heq ▸ hmr
    refine (disjoint_in_region_iff (hrequest mr hout hmr') ?_).1 ?_ hsize
    · exact hresponse mr (Or.inr (Or.inr (by simp [hmr']))) hin hno hmr
    · exact h.apart mr _ mr (get_data_shmem (by omega) hout hmr') (handle_eq_some.2 ⟨hin, hno, hmr⟩)
  · intro h
    have hreads : ∀ src, get_data_ regions hdr = some src → src.Inside := by
      intro src hsrc
      rcases get_data_cases hsrc with ⟨_, rfl⟩ | ⟨mr, hout, hmr, rfl⟩
      · show 8 * (hdr.size / 8) ≤ hdr.size
        omega
      · exact (request_inside_iff mr hdr).2 (h.request mr hout hmr)
    have hbuilds : ∀ src mr, get_data_ regions hdr = some src → handle_ regions hdr = some mr →
        hdr.in_offset ≤ mr.size ∨ mr.size + 2 ^ 64 < hdr.in_offset + 8 := by
      intro src mr hsrc hmr
      obtain ⟨hin, hno, hmr⟩ := handle_eq_some.1 hmr
      refine h.response mr ?_ hin hno hmr
      rcases get_data_cases hsrc with ⟨hnone, _⟩ | ⟨mr', _, hmr', _⟩
      · rcases hnone with h0 | h0
        · exact Or.inl h0
        · exact Or.inr (Or.inl h0)
      · exact Or.inr (Or.inr (by simp [hmr']))
    refine ⟨hreads, fun src mr hsrc hmr => (response_inside_iff mr hdr).2 (hbuilds src mr hsrc hmr), ?_⟩
    intro mr' request mr hsrc hmr
    have hres := hbuilds _ mr hsrc hmr
    rcases get_data_cases hsrc with ⟨_, heq⟩ | ⟨_, hout, hmr', heq⟩
    · cases heq
    · cases heq
      obtain ⟨hin, hno, hmr⟩ := handle_eq_some.1 hmr
      by_cases heq : hdr.in_region = hdr.out_region
      · obtain rfl : mr = mr' := some.inj (hmr.symm.trans (heq ▸ hmr'))
        exact (disjoint_in_region_iff (h.request mr hout hmr') hres).2 (h.gap mr hin hno hmr heq)
      · -- two regions: each array stays in its own
        have hin_mr : (handle_shmem_ mr hdr).bytes ⊆ mr.bytes :=
          ((response_inside_iff mr hdr).2 hres).trans (Set.Ico_subset_Ico_left (Nat.le_add_right _ _))
        exact (regions.apart (Ne.symm heq) hmr' hmr).mono
          ((request_inside_iff mr' hdr).2 (h.request mr' hout hmr')) hin_mr

/-! ## The client's requests and responses -/

/-- A request of the client is well placed when a word of the region is left. The segment table, which is
counted in the size, is not in the region. -/
theorem send_shmem_placed_iff {id n : Nat} (hid : id ≠ 0) (hmr : regions.get id = some mr)
    (hn : n ≤ mr.size / 8) : (send_shmem_ id n).Placed regions ↔ n < mr.size / 8 := by
  have hfits := mr.fits
  have hno : ¬(send_shmem_ id n).overlapping := by
    rintro ⟨_, hlt⟩
    simp only [send_shmem_] at hlt
    omega
  constructor
  · intro h
    have := h.response mr (Or.inr (Or.inr (by simp [send_shmem_, hmr]))) hid hno hmr
    simp only [send_shmem_] at this
    omega
  · intro hlt
    constructor
    · intro mr' _ hmr' _
      obtain rfl : mr = mr' := some.inj (hmr.symm.trans hmr')
      simp only [send_shmem_]
      omega
    · intro mr' _ _ _ hmr'
      obtain rfl : mr = mr' := some.inj (hmr.symm.trans hmr')
      simp only [send_shmem_]
      omega
    · intro mr' _ _ hmr' _ _ _
      simp only [send_shmem_]
      omega

end

/-- The end of the response does not wrap, or comes out beyond the region nevertheless. -/
def ResponseHeader.Placed (rxhdr : ResponseHeader) (mr : Region) (txoff : Nat) : Prop :=
  rxhdr.use_shmem = true → 8 ≤ rxhdr.size →
    mr.address + txoff + rxhdr.size < 2 ^ 64 ∨ 2 ^ 64 + mr.address + mr.size < mr.address + txoff + rxhdr.size

theorem recv_inside_iff {mr : Region} {txoff : Nat} (htxoff : txoff ≤ mr.size + 8) (rxhdr : ResponseHeader) :
    (∀ src, recv_ mr txoff rxhdr = some src → src.Inside) ↔ rxhdr.Placed mr txoff := by
  have hfits := mr.fits
  have hlt := rxhdr.size_lt
  unfold recv_ ResponseHeader.Placed
  by_cases hs : rxhdr.use_shmem = true
  · rw [if_pos hs]
    simp only [hs, forall_true_left]
    split
    · next hle =>
      simp only [some.injEq, forall_eq']
      unfold DataSource.Inside Region.bytes
      dsimp only
      rw [bytes_subset_iff]
      dsimp only
      omega
    · next hgt =>
      -- refused; the sum did not wrap to something in the region
      simp only [reduceCtorEq, false_implies, implies_true, true_iff]
      omega
  · rw [if_neg hs]
    simp only [some.injEq, forall_eq', hs, Bool.false_eq_true, false_implies, iff_true]
    show 8 * (rxhdr.size / 8) ≤ rxhdr.size
    omega

/-- The server serves a header within bounds exactly when it is well placed; a request of the client that
it has built in a region is one of those exactly when it leaves a word of the region free; and the client
reads a response inside its region exactly when the end that the header gives does not wrap into it. -/
theorem shmem_in_bounds_iff (regions : Regions) (hdr : RequestHeader) (mr : Region) (id n : Nat) (hid : id ≠ 0)
    (hmr : ∃ mr', regions.get id = some mr' ∧ mr'.size = mr.size) (hn : n ≤ mr.size / 8)
    (rxhdr : ResponseHeader) (txoff : Nat) (htxoff : txoff = 0 ∨ txoff = (send_shmem_ id n).in_offset) :
    (InBounds regions hdr ↔ hdr.Placed regions) ∧
    (InBounds regions (send_shmem_ id n) ↔ n < mr.size / 8) ∧
    ((∀ src, recv_ mr txoff rxhdr = some src → src.Inside) ↔ rxhdr.Placed mr txoff) := by
  obtain ⟨mr', hmr', hsize⟩ := hmr
  refine ⟨inBounds_iff, ?_, ?_⟩
  · rw [inBounds_iff, send_shmem_placed_iff hid hmr' (hsize ▸ hn), hsize]
  · refine recv_inside_iff ?_ rxhdr
    rcases htxoff with rfl | rfl
    · omega
    · simp only [send_shmem_]
      omega

/-- One region, which both sides have mapped. -/
def Regions.single (id : Nat) (mr : Region) : Regions where
  get i := if i = id then some mr else none
  apart := by
    intro i j mr mr' hne hi hj
    split at hi <;> split at hj <;> simp_all

/-- A region of 8 KiB. -/
def page : Region := ⟨2 ^ 20, 8192, by decide⟩

/-- A request of 1023 words, which leaves one word of the region free. -/
theorem room_for_segment_table :
    InBounds (Regions.single 1 page) (send_shmem_ 1 1023) :=
  (shmem_in_bounds_iff (Regions.single 1 page) (send_shmem_ 1 1023) page 1 1023 (by decide) ⟨page, rfl, rfl⟩ (by decide)
    ⟨16, true, by decide⟩ 8192 (Or.inr rfl)).2.1.2 (by decide)

/-- A request that fills the region: the response is built in an array of `2 ^ 61 - 1` words that starts
eight bytes behind the region. -/
theorem full_region_overrun :
    handle_ (Regions.single 1 page) (send_shmem_ 1 1024) = some page ∧
    handle_shmem_ page (send_shmem_ 1 1024) = ⟨page.address + page.size + 8, 2 ^ 61 - 1⟩ ∧
    ¬InBounds (Regions.single 1 page) (send_shmem_ 1 1024) := by
  refine ⟨?_, by decide, ?_⟩
  · rw [handle_eq_some]
    exact ⟨by decide, by decide, rfl⟩
  · rw [inBounds_iff, send_shmem_placed_iff (by decide) rfl (by decide)]
    decide

end VolumeDriver.MetaDataServer
