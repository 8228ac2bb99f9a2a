/-
A container as an array of bytes. The local files in the extent cache are copies of the objects on the
backend, so what a container holds is the contents of its objects side by side; reads, writes and resizes
are followed on that array.
-/
import VolumeDriver.Filedriver.Container
import VolumeDriver.Lib.Steps

namespace VolumeDriver.Filedriver

open Lib
open Extent (capacity)
open State List

theorem capacity_pos : 0 < capacity := by decide

/-- Beyond this size extent numbers do not fit in an `int` any more. -/
def limit : Nat := (2 ^ 31 - 1) * capacity

variable {off n : Nat} {backend : Nat → Option File} {s : State} {bytes : File}

theorem idx_of_lt_limit (hoff : off < limit) :
    off / capacity + 1 < 2 ^ 31 ∧ off / capacity % 2 ^ 32 = off / capacity := by
  have hlt : off / capacity < 2 ^ 31 - 1 := (Nat.div_lt_iff_lt_mul capacity_pos).2 hoff
  generalize off / capacity = idx at hlt ⊢
  omega

theorem limit_lt : limit < 2 ^ 51 := by
  unfold limit capacity
  omega

/-! ## Extents, objects and local files -/

theorem backend_set (s : State) (idx : Nat) (f : File) :
    ({ s with objects := s.objects.set idx f } : State).backend = Function.update s.backend idx (some f) := by
  funext j
  unfold backend Function.update
  rw [Assoc.find_set]
  by_cases h : idx = j
  · subst h
    simp
  · simp [h, Ne.symm h]

theorem backend_erase (s : State) (idx : Nat) :
    ({ s with objects := s.objects.erase idx } : State).backend = Function.update s.backend idx none := by
  funext j
  unfold backend Function.update
  rw [Assoc.find_erase]
  by_cases h : idx = j
  · subst h
    simp
  · simp [h, Ne.symm h]

/-- The extents that exist are the objects on the backend, and the extent cache has copies of them. -/
structure Stored (s : State) : Prop where
  exists_iff : ∀ idx, s.extent_exists_ idx = true ↔ (s.backend idx).isSome
  cached : ∀ p ∈ s.cache.entries, s.backend p.1 = some p.2
  length : s.extents_.length < 2 ^ 31

theorem mark_exists (s : State) (idx j : Nat) :
    (s.mark idx).extent_exists_ j = if j = idx then true else s.extent_exists_ j := by
  unfold mark extent_exists_
  split
  · next hle =>
    rw [append_assoc, getElem?_append]
    split
    · next hlt => rw [if_neg (by omega)]
    · next hge =>
      rw [getElem?_append, length_replicate, getElem?_replicate]
      split
      · next hlt =>
        rw [if_neg (by omega), getElem?_eq_none (by omega)]
        rfl
      · next hge' =>
        by_cases hj : j = idx
        · subst hj
          simp
        · rw [if_neg hj, getElem?_eq_none (by simp; omega), getElem?_eq_none (by omega)]
  · next hgt =>
    rw [getElem?_set]
    by_cases hj : idx = j
    · subst hj
      rw [if_pos rfl, if_pos rfl, if_pos (by omega)]
      rfl
    · rw [if_neg hj, if_neg (Ne.symm hj)]

theorem mark_length (s : State) (idx : Nat) : (s.mark idx).extents_.length = max s.extents_.length (idx + 1) := by
  unfold mark
  split <;> simp <;> omega

theorem ExtentCache.find_ok {cache : ExtentCache} (idx : Nat) {f : File} {pull : Option File}
    (hcached : ∀ p ∈ cache.entries, backend p.1 = some p.2) (hf : (backend idx).getD f = f)
    (hpull : pull = some f) :
    ∃ cache', cache.find idx pull = some (f, cache') ∧ ∀ p ∈ cache'.entries, p = (idx, f) ∨ backend p.1 = some p.2 := by
  unfold ExtentCache.find
  split
  · next g hg =>
    have hb := hcached _ (Assoc.mem_of_find hg)
    rw [hb, Option.getD_some] at hf
    subst hf
    refine ⟨_, rfl, fun p hp => ?_⟩
    rcases mem_append.1 hp with hp | hp
    · exact Or.inr (hcached p (mem_of_mem_filter hp))
    · exact Or.inl (mem_singleton.1 hp)
  · rw [hpull]
    refine ⟨_, rfl, fun p hp => ?_⟩
    rcases mem_append.1 hp with hp | hp
    · exact Or.inr (hcached p (mem_of_mem_drop hp))
    · exact Or.inl (mem_singleton.1 hp)

namespace Stored

variable {s : State} (h : Stored s)

include h

theorem backend_none {idx : Nat} (he : ¬ s.extent_exists_ idx = true) : s.backend idx = none := by
  simpa using fun hs => he ((h.exists_iff idx).2 hs)

theorem find_extent {idx : Nat} (he : s.extent_exists_ idx = true) :
    ∃ cache, s.find_extent_ idx = .ok ((s.backend idx).getD [], { s with cache := cache }) ∧
      ∀ p ∈ cache.entries, s.backend p.1 = some p.2 := by
  obtain ⟨f, hf⟩ := Option.isSome_iff_exists.1 ((h.exists_iff idx).1 he)
  obtain ⟨cache, hfind, hall⟩ := ExtentCache.find_ok idx h.cached (by rw [hf]; rfl) hf
  refine ⟨cache, ?_, fun p hp => ?_⟩
  · unfold find_extent_
    rw [hf] at hfind ⊢
    rw [hfind]
    rfl
  · rcases hall p hp with rfl | hp
    · exact hf
    · exact hp

theorem find_or_create_extent (idx : Nat) :
    ∃ cache, s.find_or_create_extent_ idx = .ok ((s.backend idx).getD [], { s with cache := cache }) ∧
      ∀ p ∈ cache.entries, p.1 = idx ∨ s.backend p.1 = some p.2 := by
  unfold find_or_create_extent_
  split
  · next he =>
    obtain ⟨cache, hfind, hall⟩ := h.find_extent he
    exact ⟨cache, hfind, fun p hp => Or.inr (hall p hp)⟩
  · next he =>
    -- no such object, hence no such entry either
    have hnone := h.backend_none he
    obtain ⟨cache, hfind, hall⟩ := ExtentCache.find_ok idx (f := []) h.cached (by rw [hnone]; rfl) rfl
    refine ⟨cache, ?_, fun p hp => ?_⟩
    · unfold new_extent_
      rw [hfind, hnone]
      rfl
    · rcases hall p hp with rfl | hp
      · exact Or.inl rfl
      · exact Or.inr hp

omit h in
theorem upload_backend (cache : ExtentCache) (idx : Nat) (f : File) :
    ((upload { s with cache := cache } idx f).mark idx).backend = Function.update s.backend idx (some f) :=
  backend_set s idx f

theorem upload_mark {cache : ExtentCache} {idx : Nat}
    (hcache : ∀ p ∈ cache.entries, p.1 = idx ∨ s.backend p.1 = some p.2) (hidx : idx + 1 < 2 ^ 31) (f : File) :
    Stored ((upload { s with cache := cache } idx f).mark idx) := by
  constructor
  · intro j
    rw [mark_exists, upload_backend]
    split
    · next hj =>
      subst hj
      simp
    · next hj =>
      rw [Function.update_of_ne hj]
      exact h.exists_iff j
  · intro p hp
    rw [upload_backend]
    rcases mem_append.1 hp with hp | hp
    · have hmem := mem_filter.1 hp
      have hne : p.1 ≠ idx := by simpa using hmem.2
      rw [Function.update_of_ne hne]
      exact (hcache p hmem.1).resolve_left hne
    · obtain rfl := mem_singleton.1 hp
      exact Function.update_self ..
  · rw [mark_length]
    have := h.length
    show max s.extents_.length (idx + 1) < _
    omega

end Stored

theorem Stored.setSize (h : Stored s) (size : Nat) : Stored { s with size_ := size } :=
  { h with }

/-! ## One turn -/

section
variable {s : State} (h : Stored s)

include h

variable {eoff : Nat}

theorem readPiece_ok (idx : Nat) {r : Nat} (hin : eoff + r ≤ capacity) :
    ∃ cache, s.readPiece idx eoff r =
        .ok (slice (valueAt ((s.backend idx).getD [])) eoff r, { s with cache := cache }) ∧
      Stored { s with cache := cache } := by
  unfold readPiece
  split
  · next he =>
    obtain ⟨cache, hfind, hall⟩ := h.find_extent he
    refine ⟨cache, ?_, ⟨h.exists_iff, hall, h.length⟩⟩
    have hfill : pread ((s.backend idx).getD []) eoff r ++
        replicate (r - (pread ((s.backend idx).getD []) eoff r).length) 0 =
          slice (valueAt ((s.backend idx).getD [])) eoff r := pread_fill
    rw [hfind, ok_bind, ← hfill]
    dsimp only
    rw [verify_of hin, ok_bind]
    rfl
  · next he =>
    have hnone := h.backend_none he
    refine ⟨s.cache, ?_, h⟩
    rw [hnone]
    refine congrArg (fun bytes => Except.ok (bytes, s)) (ext_getElem? fun i => ?_)
    rw [getElem?_slice, getElem?_replicate]
    split
    · rfl
    · rfl

theorem writePiece_ok {idx : Nat} {bytes : File} (hin : eoff + bytes.length ≤ capacity) (hidx : idx + 1 < 2 ^ 31) :
    ∃ s', s.writePiece idx eoff bytes = .ok s' ∧ Stored s' ∧ s'.size_ = s.size_ ∧
      s'.backend = Function.update s.backend idx (some (pwrite ((s.backend idx).getD []) eoff bytes)) := by
  obtain ⟨cache, hfind, hcache⟩ := h.find_or_create_extent idx
  refine ⟨_, ?_, h.upload_mark hcache hidx (pwrite ((s.backend idx).getD []) eoff bytes), rfl, Stored.upload_backend ..⟩
  unfold writePiece
  rw [hfind, ok_bind]
  dsimp only
  rw [verify_of hin, ok_bind]
  rfl

theorem resizeExtent_ok {idx : Nat} (hpos : 0 < eoff) (hle : eoff ≤ capacity) (hidx : idx + 1 < 2 ^ 31) :
    ∃ s', s.resizeExtent idx eoff = .ok s' ∧ Stored s' ∧
      s'.backend = Function.update s.backend idx (some (truncate ((s.backend idx).getD []) eoff)) := by
  obtain ⟨cache, hfind, hcache⟩ := h.find_or_create_extent idx
  refine ⟨_, ?_, h.upload_mark hcache hidx (truncate ((s.backend idx).getD []) eoff), Stored.upload_backend ..⟩
  unfold resizeExtent
  rw [hfind, ok_bind]
  dsimp only
  rw [verify_of hpos, ok_bind, verify_of hle, ok_bind]
  rfl

end

/-! ## The loops -/

/-- The end of the data: every object ends before it or there, and one ends there. -/
structure Ends (backend : Nat → Option File) (n : Nat) : Prop where
  within : ∀ idx f, backend idx = some f → idx * capacity + f.length ≤ n
  short : ∀ idx f, backend idx = some f → 0 < f.length ∧ f.length ≤ capacity
  reached : n = 0 ∨ ∃ idx f, backend idx = some f ∧ idx * capacity + f.length = n

theorem Ends.of_objects (h : ∀ idx f, backend idx = some f →
      idx * capacity + f.length ≤ n ∧ 0 < f.length ∧ f.length ≤ capacity)
    (hreached : n = 0 ∨ ∃ idx f, backend idx = some f ∧ idx * capacity + f.length = n) : Ends backend n :=
  ⟨fun idx f hf => (h idx f hf).1, fun idx f hf => (h idx f hf).2, hreached⟩

theorem Ends.update {idx : Nat} {f : File} (h : Ends backend n)
    (hlen : ((backend idx).getD []).length ≤ f.length) (hpos : 0 < f.length) (hle : f.length ≤ capacity) :
    Ends (Function.update backend idx (some f)) (max n (idx * capacity + f.length)) := by
  apply Ends.of_objects
  · intro j g hg
    by_cases hj : j = idx
    · subst hj
      rw [Function.update_self] at hg
      cases hg
      exact ⟨Nat.le_max_right .., hpos, hle⟩
    · rw [Function.update_of_ne hj] at hg
      exact ⟨Nat.le_trans (h.within j g hg) (Nat.le_max_left ..), h.short j g hg⟩
  · right
    by_cases hmax : n ≤ idx * capacity + f.length
    · exact ⟨idx, f, Function.update_self .., by omega⟩
    · rcases h.reached with h0 | ⟨j, g, hg, hn⟩
      · omega
      · refine ⟨j, g, ?_, by omega⟩
        by_cases hj : j = idx
        · subst hj
          rw [hg, Option.getD_some] at hlen
          omega
        · rw [Function.update_of_ne hj]
          exact hg

/-- What the loop of `read` finds on a backend. -/
def readFrom (backend : Nat → Option File) : Nat → Nat → Nat → File
  | 0, _, _ => []
  | turns + 1, off, todo =>
    if todo = 0 then []
    else
      let r := min (capacity - off % capacity) todo
      slice (valueAt ((backend (off / capacity % 2 ^ 32)).getD [])) (off % capacity) r ++
        readFrom backend turns ((off + r) % 2 ^ 64) (todo - r)

theorem readLoop_ok : ∀ (turns : Nat) {s : State} (off todo : Nat), Stored s →
    ∃ cache, readLoop turns s off todo = .ok (readFrom s.backend turns off todo, { s with cache := cache }) ∧
      Stored { s with cache := cache }
  | 0, s, off, todo, h => ⟨s.cache, rfl, h⟩
  | turns + 1, s, off, todo, h => by
    unfold readLoop readFrom
    split
    · exact ⟨s.cache, rfl, h⟩
    · have hmod := Nat.mod_lt off capacity_pos
      dsimp only
      generalize hr : min (capacity - off % capacity) todo = r
      have hin : off % capacity + r ≤ capacity := by omega
      obtain ⟨cache, hpiece, hst⟩ := readPiece_ok h (off / capacity % 2 ^ 32) hin
      obtain ⟨cache', hloop, hst'⟩ := readLoop_ok turns ((off + r) % 2 ^ 64) (todo - r) hst
      refine ⟨cache', ?_, hst'⟩
      rw [hpiece, ok_bind]
      rw [hloop, ok_bind]
      rfl

theorem readFrom_eq : ∀ {turns off todo : Nat}, todo ≤ turns → off + todo ≤ 2 ^ 52 →
    readFrom backend turns off todo = slice (spread capacity backend) off todo
  | 0, off, todo, hturns, _ => by
    obtain rfl : todo = 0 := by omega
    rfl
  | turns + 1, off, todo, hturns, hoff => by
    unfold readFrom
    split
    · next h0 =>
      subst h0
      rfl
    · next hpos =>
      have hmod := Nat.mod_lt off capacity_pos
      have hdiv := Nat.div_add_mod off capacity
      have hcap : capacity = 2 ^ 20 := rfl
      have hidx : off / capacity % 2 ^ 32 = off / capacity := Nat.mod_eq_of_lt (by rw [hcap]; omega)
      dsimp only
      generalize hr : min (capacity - off % capacity) todo = r
      have hin : off % capacity + r ≤ capacity := by omega
      have hslice : slice (spread capacity backend) (off / capacity * capacity + off % capacity) r =
          slice (valueAt ((backend (off / capacity)).getD [])) (off % capacity) r := slice_spread hin
      have hnext : (off + r) % 2 ^ 64 = off + r := Nat.mod_eq_of_lt (by omega)
      have hrest : off + r + (todo - r) ≤ 2 ^ 52 := by omega
      rw [hidx, hnext, readFrom_eq (show todo - r ≤ turns by omega) hrest, ← hslice, Nat.mul_comm, hdiv, ← slice_add,
        show r + (todo - r) = todo by omega]

theorem Ends.pwrite {eoff : Nat} (h : Ends backend n) (idx : Nat) (hne : bytes ≠ [])
    (hin : eoff + bytes.length ≤ capacity) :
    Ends (Function.update backend idx (some (pwrite ((backend idx).getD []) eoff bytes)))
      (max n (idx * capacity + eoff + bytes.length)) := by
  have hlen : (Lib.pwrite ((backend idx).getD []) eoff bytes).length = _ := length_pwrite hne
  have hpos := length_pos_of_ne_nil hne
  have hold : ((backend idx).getD []).length ≤ capacity ∧
      (0 < ((backend idx).getD []).length → idx * capacity + ((backend idx).getD []).length ≤ n) := by
    cases hb : backend idx with
    | none => simp
    | some f => exact ⟨(h.short idx f hb).2, fun _ => h.within idx f hb⟩
  have hmax : max n (idx * capacity + (Lib.pwrite ((backend idx).getD []) eoff bytes).length) =
      max n (idx * capacity + eoff + bytes.length) := by omega
  rw [← hmax]
  exact h.update (by omega) (by omega) (by omega)

theorem extend_backend (s : State) (off : Nat) : (s.extend off).backend = s.backend := rfl

theorem Stored.extend (h : Stored s) (off : Nat) : Stored (s.extend off) := by
  exact h.setSize _

theorem extend_size (hoff : off < 2 ^ 64) (hsize : s.size_ < 2 ^ 64) : (s.extend off).size_ = off := by
  unfold extend uint64
  dsimp only
  split <;> omega

theorem writeTurn_ok {r : Nat} (h : Stored s) (he : Ends s.backend n) (hsize : s.size_ < 2 ^ 64)
    (hr : min (capacity - off % capacity) bytes.length = r) (hpos : 0 < r) (hoff : off + bytes.length ≤ limit) :
    ∃ s₁, s.writePiece (off / capacity % 2 ^ 32) (off % capacity) (bytes.take r) = .ok s₁ ∧
      Stored s₁ ∧ Ends s₁.backend (max n (off + r)) ∧ (s₁.extend (off + r)).size_ = off + r ∧
      spread capacity s₁.backend = store (spread capacity s.backend) off (bytes.take r) := by
  have hdiv : off / capacity * capacity + off % capacity = off := by
    rw [Nat.mul_comm]
    exact Nat.div_add_mod off capacity
  have hlimit := limit_lt
  obtain ⟨hidx, hidx'⟩ := idx_of_lt_limit (show off < limit by omega)
  have htake : (bytes.take r).length = r := by
    rw [length_take]
    omega
  have hne : bytes.take r ≠ [] := by
    intro h0
    rw [h0, length_nil] at htake
    omega
  have hin : off % capacity + (bytes.take r).length ≤ capacity := by
    omega
  obtain ⟨s₁, hpiece, hst, hsz, hbackend⟩ := writePiece_ok h hin hidx
  have hends := he.pwrite (off / capacity) hne hin
  rw [← hbackend, hdiv, htake] at hends
  refine ⟨s₁, ?_, hst, hends, extend_size (by omega) (hsz ▸ hsize), ?_⟩
  · rw [hidx']
    exact hpiece
  · rw [hbackend, spread_pwrite capacity_pos hin, hdiv]

theorem writeLoop_ok {turns : Nat} (h : Stored s) (he : Ends s.backend n) (hsize : s.size_ < 2 ^ 64)
    (hturns : bytes.length ≤ turns) (hoff : off + bytes.length ≤ limit) :
    ∃ s', writeLoop turns s off bytes = .ok s' ∧ Stored s' ∧
      spread capacity s'.backend = store (spread capacity s.backend) off bytes ∧
      Ends s'.backend (if bytes = [] then n else max n (off + bytes.length)) ∧
      s'.size_ = if bytes = [] then s.size_ else off + bytes.length := by
  induction turns generalizing s off n bytes with
  | zero =>
    obtain rfl : bytes = [] := List.length_eq_zero_iff.1 (by omega)
    exact ⟨s, rfl, h, store_nil.symm, he, rfl⟩
  | succ turns ih =>
    unfold writeLoop
    split
    · next h0 =>
      rw [List.isEmpty_iff] at h0
      subst h0
      exact ⟨s, rfl, h, store_nil.symm, he, rfl⟩
    · next hne =>
      have hne : bytes ≠ [] := by simpa using hne
      have hlen := List.length_pos_of_ne_nil hne
      have hmod := Nat.mod_lt off capacity_pos
      have hlimit := limit_lt
      generalize hr : min (capacity - off % capacity) bytes.length = r
      obtain ⟨s₁, hpiece, hst, hends, hsize₁, hspread⟩ := writeTurn_ok h he hsize hr (by omega) hoff
      have hnext : (off + r) % 2 ^ 64 = off + r := Nat.mod_eq_of_lt (by omega)
      have hdrop : (bytes.drop r).length = bytes.length - r := List.length_drop
      rw [← extend_backend s₁ (off + r)] at hends hspread
      obtain ⟨s', hloop, hst', hspread', hends', hsize'⟩ := ih (hst.extend _) hends (by rw [hsize₁]; omega)
        (show (bytes.drop r).length ≤ turns by omega) (show off + r + (bytes.drop r).length ≤ limit by omega)
      refine ⟨s', ?_, hst', ?_, ?_, ?_⟩
      · dsimp only
        rw [hr, hpiece, ok_bind, hnext]
        exact hloop
      · rw [hspread', hspread]
        exact store_take_drop (by omega)
      · rw [if_neg hne]
        by_cases h0 : bytes.drop r = []
        · rw [if_pos h0] at hends'
          rw [h0, List.length_nil] at hdrop
          rw [show off + bytes.length = off + r by omega]
          exact hends'
        · rw [if_neg h0] at hends'
          rw [show max n (off + bytes.length) = max (max n (off + r)) (off + r + (bytes.drop r).length) by omega]
          exact hends'
      · rw [if_neg hne, hsize']
        by_cases h0 : bytes.drop r = []
        · rw [if_pos h0]
          rw [h0, List.length_nil] at hdrop
          omega
        · rw [if_neg h0]
          omega

/-! ## Resizing -/

theorem Stored.remove (h : Stored s) {i : Nat} (hlast : ∀ j, i < j → s.backend j = none) :
    Stored { s with cache := s.cache.erase i, objects := s.objects.erase i, extents_ := s.extents_.take i } := by
  have hbackend := backend_erase s i
  constructor
  · intro j
    show ((s.extents_.take i)[j]?).getD false = true ↔
      (({ s with objects := s.objects.erase i } : State).backend j).isSome
    rw [getElem?_take, hbackend]
    by_cases hj : j = i
    · subst hj
      simp
    · rw [Function.update_of_ne hj]
      split
      · exact h.exists_iff j
      · rw [hlast j (by omega)]
        simp
  · intro p hp
    have hmem := mem_filter.1 hp
    have hne : p.1 ≠ i := by simpa using hmem.2
    show ({ s with objects := s.objects.erase i } : State).backend p.1 = some p.2
    rw [hbackend, Function.update_of_ne hne]
    exact h.cached p hmem.1
  · have := h.length
    show (s.extents_.take i).length < _
    rw [length_take]
    omega

theorem removeExtents_ok (rm : Nat) : ∀ {i : Nat} {s : State}, Stored s → (∀ j, i ≤ j → s.backend j = none) →
    Stored (removeExtents rm i s) ∧ (removeExtents rm i s).backend = fun j => if rm ≤ j then none else s.backend j
  | 0, s, h, hnone => by
    refine ⟨h, ?_⟩
    funext j
    rw [show (removeExtents rm 0 s).backend = s.backend from rfl, hnone j (Nat.zero_le j)]
    split <;> rfl
  | i + 1, s, h, hnone => by
    unfold removeExtents
    split
    · next hlt =>
      refine ⟨h, ?_⟩
      funext j
      split
      · exact hnone j (by omega)
      · rfl
    · next hge =>
      split
      · next he =>
        have herase := backend_erase s i
        have hrest : ∀ j, i ≤ j → ({ s with objects := s.objects.erase i } : State).backend j = none := by
          intro j hj
          rw [herase]
          by_cases hji : j = i
          · subst hji
            exact Function.update_self ..
          · rw [Function.update_of_ne hji]
            exact hnone j (by omega)
        obtain ⟨hst, hbackend⟩ := removeExtents_ok rm ((h.remove fun j hj => hnone j (by omega)).setSize _) hrest
        refine ⟨hst, hbackend.trans ?_⟩
        funext j
        split
        · rfl
        · exact (congrFun herase j).trans (Function.update_of_ne (show j ≠ i by omega) ..)
      · next he =>
        have hrest : ∀ j, i ≤ j → s.backend j = none := by
          intro j hj
          rcases Nat.lt_or_eq_of_le hj with hlt | rfl
          · exact hnone j hlt
          · exact h.backend_none he
        exact removeExtents_ok rm (h.setSize _) hrest

/-- The objects that are left when all extents after `k` are gone and `k` has the length `e`. -/
def cut (backend : Nat → Option File) (k e : Nat) : Nat → Option File :=
  Function.update (fun j => if k + 1 ≤ j then none else backend j) k (some (truncate ((backend k).getD []) e))

section
variable {backend : Nat → Option File} {k e : Nat}

theorem cut_self : cut backend k e k = some (truncate ((backend k).getD []) e) := Function.update_self ..

theorem cut_of_lt {j : Nat} (h : j < k) : cut backend k e j = backend j := by
  unfold cut
  rw [Function.update_of_ne (by omega), if_neg (by omega)]

theorem cut_of_gt {j : Nat} (h : k < j) : cut backend k e j = none := by
  unfold cut
  rw [Function.update_of_ne (by omega), if_pos (by omega)]

theorem add_capacity_le {j : Nat} (h : j < k) : j * capacity + capacity ≤ k * capacity := by
  rw [← Nat.succ_mul]
  exact Nat.mul_le_mul_right capacity h

theorem spread_cut (hle : e ≤ capacity) (i : Nat) : spread capacity (cut backend k e) i =
      if i < k * capacity + e then spread capacity backend i else 0 := by
  have hi := Nat.div_add_mod i capacity
  have hlt := Nat.mod_lt i capacity_pos
  rw [Nat.mul_comm] at hi
  unfold spread
  rcases Nat.lt_trichotomy (i / capacity) k with hk | hk | hk
  · have := add_capacity_le hk
    rw [cut_of_lt hk, if_pos (by omega)]
  · rw [hk] at hi
    rw [hk, cut_self, Option.getD_some, valueAt_truncate]
    by_cases he : i % capacity < e
    · rw [if_pos he, if_pos (by omega)]
    · rw [if_neg he, if_neg (by omega)]
      rfl
  · have := add_capacity_le hk
    rw [cut_of_gt hk, if_neg (by omega)]
    rfl

theorem Ends.cut {n : Nat} (h : Ends backend n) (hpos : 0 < e) (hle : e ≤ capacity) :
    Ends (cut backend k e) (k * capacity + e) := by
  apply Ends.of_objects
  · intro j f hf
    rcases Nat.lt_trichotomy j k with hj | rfl | hj
    · rw [cut_of_lt hj] at hf
      have hshort := h.short j f hf
      have := add_capacity_le hj
      omega
    · rw [cut_self] at hf
      cases hf
      rw [length_truncate]
      exact ⟨Nat.le_refl _, hpos, hle⟩
    · rw [cut_of_gt hj] at hf
      cases hf
  · exact Or.inr ⟨k, _, cut_self, by rw [length_truncate]⟩

end

theorem int32_eq (h : n < 2 ^ 31) : int32 n = n := by
  unfold int32
  rw [Int.bmod_eq_of_le] <;> omega

theorem Stored.backend_beyond (h : Stored s) {j : Nat} (hj : s.extents_.length ≤ j) : s.backend j = none := by
  apply h.backend_none
  unfold extent_exists_
  rw [getElem?_eq_none hj]
  exact Bool.false_ne_true

/-- The extent number and the offset that `resize` computes, for the last extent `k` of length `e`: a full
extent is found as the beginning of the next one. -/
theorem resize_index {k e : Nat} (hpos : 0 < e) (hle : e ≤ capacity) (hk : k + 1 < 2 ^ 31) :
    let size := k * capacity + e
    let idx := size / capacity % 2 ^ 32
    let eoff := size % capacity
    (if eoff ≠ 0 then idx + 1 else idx) % 2 ^ 32 = k + 1 ∧
    (if eoff = 0 ∧ 0 < idx then idx - 1 else idx) = k ∧
    (if eoff = 0 ∧ 0 < idx then capacity else eoff) = e := by
  intro size idx eoff
  rcases Nat.lt_or_eq_of_le hle with hlt | rfl
  · have hidx : idx = k := by
      show size / capacity % 2 ^ 32 = k
      rw [mul_add_div_eq hlt]
      omega
    have heoff : eoff = e := mul_add_mod_eq hlt
    rw [hidx, heoff, if_pos (by omega), if_neg (by omega), if_neg (by omega)]
    omega
  · have hsize : size = (k + 1) * capacity := by rw [Nat.add_mul, Nat.one_mul]
    have hidx : idx = k + 1 := by
      show size / capacity % 2 ^ 32 = k + 1
      rw [hsize, Nat.mul_div_cancel _ capacity_pos]
      omega
    have heoff : eoff = 0 := by
      show size % capacity = 0
      rw [hsize, Nat.mul_mod_left]
    rw [hidx, heoff, if_neg (by omega), if_pos (by omega), if_pos (by omega)]
    omega

theorem resize_pos {k e : Nat} (h : Stored s) (hpos : 0 < e) (hle : e ≤ capacity) (hlimit : k * capacity + e ≤ limit) :
    ∃ s', s.resize (k * capacity + e) = .ok s' ∧ Stored s' ∧ s'.size_ = k * capacity + e ∧
      s'.backend = cut s.backend k e := by
  have hk : k + 1 < 2 ^ 31 := by
    have := (idx_of_lt_limit (show k * capacity < limit by omega)).1
    rwa [Nat.mul_div_cancel _ capacity_pos] at this
  have hlt := limit_lt
  obtain ⟨hrm, hidx, heoff⟩ := resize_index hpos hle hk
  obtain ⟨hst, hbackend⟩ := removeExtents_ok (k + 1) h fun _ => h.backend_beyond
  obtain ⟨s', hres, hst', hbackend'⟩ := resizeExtent_ok hst hpos hle hk
  refine ⟨{ s' with size_ := k * capacity + e }, ?_, hst'.setSize _, rfl, ?_⟩
  · unfold resize
    dsimp only
    rw [hrm, hidx, heoff, int32_eq hk, if_pos (by omega), hres, ok_bind, verify_of (by omega), ok_bind]
    rfl
  · show s'.backend = _
    rw [hbackend', hbackend]
    unfold cut
    dsimp only
    rw [if_neg (by omega)]

theorem resize_zero (h : Stored s) :
    ∃ s', s.resize 0 = .ok s' ∧ Stored s' ∧ s'.size_ = 0 ∧ ∀ j, s'.backend j = none := by
  obtain ⟨hst, hbackend⟩ := removeExtents_ok 0 h fun _ => h.backend_beyond
  refine ⟨{ removeExtents 0 s.extents_.length s with size_ := 0 }, ?_, hst.setSize _, rfl, ?_⟩
  · rfl
  · intro j
    show (removeExtents 0 s.extents_.length s).backend j = none
    have := congrFun hbackend j
    simpa using this

/-- `resize` cuts off the bytes from the new size on. -/
theorem resize_ok {size : Nat} (h : Stored s) (he : Ends s.backend n) (hsize : size ≤ limit) :
    ∃ s', s.resize size = .ok s' ∧ Stored s' ∧ s'.size_ = size ∧ Ends s'.backend size ∧
      ∀ i, spread capacity s'.backend i = if i < size then spread capacity s.backend i else 0 := by
  rcases Nat.eq_zero_or_pos size with rfl | hpos
  · obtain ⟨s', hres, hst, hsz, hnone⟩ := resize_zero h
    refine ⟨s', hres, hst, hsz, .of_objects ?_ (Or.inl rfl), fun i => ?_⟩
    · intro idx f hf
      rw [hnone] at hf
      cases hf
    · unfold spread
      rw [hnone, if_neg (Nat.not_lt_zero i)]
      rfl
  · -- the last byte is in extent `k`
    obtain ⟨k, e, hposE, hle, rfl⟩ : ∃ k e, 0 < e ∧ e ≤ capacity ∧ size = k * capacity + e := by
      refine ⟨(size - 1) / capacity, (size - 1) % capacity + 1, Nat.succ_pos _, ?_, ?_⟩
      · exact Nat.mod_lt _ capacity_pos
      · have := Nat.div_add_mod (size - 1) capacity
        rw [Nat.mul_comm] at this
        omega
    obtain ⟨s', hres, hst, hsz, hbackend⟩ := resize_pos h hposE hle hsize
    refine ⟨s', hres, hst, hsz, ?_, fun i => ?_⟩
    · rw [hbackend]
      exact he.cut hposE hle
    · rw [hbackend]
      exact spread_cut hle i

/-! ## Files as byte arrays -/

/-- What a file is: its size and its bytes. -/
structure Bytes where
  size : Nat := 0
  content : Nat → UInt8 := fun _ => 0

/-- A call on a file. -/
inductive Call
  | read (off n : Nat)
  | write (off : Nat) (bytes : File)
  | resize (size : Nat)
  | size
  deriving DecidableEq, Repr

/-- What a call returns, or that it throws. -/
inductive Answer
  | bytes (bytes : File)
  | count (n : Nat)
  | done
  | threw (e : Error)
  deriving DecidableEq, Repr

/-- A read ends at the end of the file; a write extends the file if it has to; bytes that a resize cuts
off are gone. -/
def Bytes.call (f : Bytes) : Call → Answer × Bytes
  | .read off n => (.bytes (slice f.content off (min n (f.size - off))), f)
  | .write off bytes =>
    (.count bytes.length,
      { size := if bytes = [] then f.size else max f.size (off + bytes.length), content := store f.content off bytes })
  | .resize size => (.done, { size := size, content := fun i => if i < size then f.content i else 0 })
  | .size => (.count f.size, f)

/-- The call on a container. What is left behind by a call that throws is not followed. -/
def State.call (s : State) : Call → Answer × State
  | .read off n =>
    match s.read off n with
    | .ok (bytes, s') => (.bytes bytes, s')
    | .error e => (.threw e, s)
  | .write off bytes =>
    match s.write off bytes with
    | .ok s' => (.count bytes.length, s')
    | .error e => (.threw e, s)
  | .resize size =>
    match s.resize size with
    | .ok s' => (.done, s')
    | .error e => (.threw e, s)
  | .size => (.count s.size_, s)

/-- A container beside the file that it should be. -/
def step (p : State × Bytes) (c : Call) : State × Bytes := ((p.1.call c).2, (p.2.call c).2)

/-- The call answers what the file says. -/
def Agrees (p : State × Bytes) (c : Call) : Prop := (p.1.call c).1 = (p.2.call c).1

/-- A read does not start behind the end of the file, a write does not end before it, and no extent number
leaves the range of an `int`. -/
def Careful (p : State × Bytes) : Call → Prop
  | .read off n => n = 0 ∨ off ≤ p.2.size
  | .write off bytes => bytes = [] ∨ (p.2.size ≤ off + bytes.length ∧ off + bytes.length ≤ limit)
  | .resize size => size ≤ limit
  | .size => True

instance (p : State × Bytes) : (c : Call) → Decidable (Careful p c)
  | .read _ _ => inferInstanceAs (Decidable (_ ∨ _))
  | .write _ _ => inferInstanceAs (Decidable (_ ∨ _))
  | .resize _ => inferInstanceAs (Decidable (_ ≤ _))
  | .size => isTrue trivial

/-- The container holds the file. -/
structure Holds (s : State) (f : Bytes) : Prop where
  stored : Stored s
  ends : Ends s.backend s.size_
  size : s.size_ = f.size
  content : spread capacity s.backend = f.content
  limit : f.size ≤ limit

namespace Holds

variable {s : State} {f : Bytes} (h : Holds s f)

include h

variable {off : Nat}

theorem to_read {n : Nat} (hoff : n = 0 ∨ off ≤ f.size) : s.to_read off n = min n (f.size - off) := by
  have hlimit := h.limit
  have hlt := limit_lt
  have hsize := h.size
  unfold State.to_read uint64
  split <;> omega

theorem read {n : Nat} (hoff : n = 0 ∨ off ≤ f.size) :
    Agrees (s, f) (.read off n) ∧ Holds (s.call (.read off n)).2 f := by
  have hlimit := h.limit
  have hlt := limit_lt
  have hr := h.to_read hoff
  generalize hn : min n (f.size - off) = r at hr
  obtain ⟨cache, hloop, hst⟩ : ∃ cache, State.readLoop r s off r =
      .ok (slice (spread capacity s.backend) off r, { s with cache := cache }) ∧ Stored { s with cache := cache } := by
    obtain ⟨cache, hloop, hst⟩ := readLoop_ok r off r h.stored
    refine ⟨cache, ?_, hst⟩
    rcases Nat.eq_zero_or_pos r with rfl | hpos
    · exact hloop
    · rwa [readFrom_eq (Nat.le_refl r) (by omega)] at hloop
  have hread : s.read off n = .ok (slice f.content off r, { s with cache := cache }) := by
    unfold State.read
    rw [hr, hloop, h.content]
  unfold Agrees State.call Bytes.call
  dsimp only
  rw [hread, hn]
  exact ⟨rfl, hst, h.ends, h.size, h.content, h.limit⟩

theorem write {bytes : File} (hw : bytes = [] ∨ (f.size ≤ off + bytes.length ∧ off + bytes.length ≤ Filedriver.limit)) :
    Agrees (s, f) (.write off bytes) ∧ Holds (s.call (.write off bytes)).2 (f.call (.write off bytes)).2 := by
  have hlt := limit_lt
  unfold Agrees State.call State.write Bytes.call
  dsimp only
  by_cases hne : bytes = []
  · subst hne
    refine ⟨rfl, h.stored, h.ends, h.size, ?_, h.limit⟩
    rw [store_nil]
    exact h.content
  · obtain ⟨hge, hle⟩ := hw.resolve_left hne
    obtain ⟨s', hloop, hst, hspread, hends, hsize⟩ :=
      writeLoop_ok h.stored h.ends (by rw [h.size]; omega) (Nat.le_refl _) hle
    rw [if_neg hne] at hends hsize
    rw [if_neg hne, hloop]
    have hmax : max f.size (off + bytes.length) = off + bytes.length := by omega
    refine ⟨rfl, hst, ?_, ?_, ?_, ?_⟩
    · rw [hsize]
      rw [h.size, hmax] at hends
      exact hends
    · rw [hsize, hmax]
    · rw [hspread, h.content]
    · rw [hmax]
      exact hle

theorem resize {size : Nat} (hle : size ≤ Filedriver.limit) :
    Agrees (s, f) (.resize size) ∧ Holds (s.call (.resize size)).2 (f.call (.resize size)).2 := by
  obtain ⟨s', hres, hst, hsize, hends, hspread⟩ := resize_ok h.stored h.ends hle
  unfold Agrees call Bytes.call
  dsimp only
  rw [hres]
  refine ⟨rfl, hst, ?_, hsize, ?_, hle⟩
  · rw [hsize]
    exact hends
  · funext i
    rw [hspread i, h.content]

theorem call {c : Call} (hc : Careful (s, f) c) : Agrees (s, f) c ∧ Holds (s.call c).2 (f.call c).2 := by
  cases c with
  | read off n => exact h.read hc
  | write off bytes => exact h.write hc
  | resize size => exact h.resize hc
  | size => exact ⟨congrArg Answer.count h.size, h⟩

end Holds

theorem Holds.init (cache : ExtentCache) (hcache : cache.entries = []) : Holds { cache := cache } {} := by
  refine ⟨⟨?_, ?_, ?_⟩, ⟨?_, ?_, Or.inl rfl⟩, rfl, ?_, Nat.zero_le _⟩
  · intro idx
    simp [extent_exists_, backend, Assoc.find]
  · simp [hcache]
  · simp
  · intro idx file hfile
    cases hfile
  · intro idx file hfile
    cases hfile
  · funext i
    rfl

/-- In every sequence of calls in which no read starts behind the end and no write ends before it, a
container behaves like an array of bytes. -/
theorem container_byte_array (capacity : Nat) (cs : List Call)
    (hcs : Each step Careful ({ cache := { capacity := capacity } }, {}) cs) :
    Each step Agrees ({ cache := { capacity := capacity } }, {}) cs :=
  each_imp (fun p => Holds p.1 p.2) (fun _ _ h hc => h.call hc) (Holds.init _ rfl) hcs

/-- A file is written, extended over a gap, read and cut off, with a cache for a single extent. -/
theorem written_and_read :
    Each step Agrees ({ cache := { capacity := 1 } }, {})
      [.write 0 [1, 2, 3], .write (2 ^ 20 - 1) [4, 5, 6], .read 1 3, .read (2 ^ 20 - 2) 9, .size, .resize 2,
        .read 0 9, .read 2 4, .size] :=
  container_byte_array 1 _ (by decide +kernel)

/-- Two bytes are overwritten in a file of four: the file is two bytes long afterwards. -/
theorem overwrite_truncates :
    let p := runs step ({ cache := { capacity := 1 } }, {}) [.write 0 [1, 2, 3, 4], .write 0 [5, 6]]
    (p.1.call .size).1 = .count 2 ∧ (p.2.call .size).1 = .count 4 ∧
      (p.1.call (.read 0 4)).1 = .bytes [5, 6] ∧ (p.2.call (.read 0 4)).1 = .bytes [5, 6, 3, 4] := by
  decide +kernel

/-- A read that starts behind the end yields zeros. -/
example :
    let p := runs step ({ cache := { capacity := 1 } }, {}) [.write 0 [1]]
    (p.1.call (.read 5 3)).1 = .bytes [0, 0, 0] ∧ (p.2.call (.read 5 3)).1 = .bytes [] := by
  decide +kernel

end VolumeDriver.Filedriver
