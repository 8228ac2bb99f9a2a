/-
The slots of the page cache when backend calls throw (CachedMetaDataStore::get_page_). A miss that
finds every slot taken unlinks the least recently used page before it is written out and before the
new page is read, and free slots are found by their index. Stated is for which failures the index
still names a free slot and no unwritten entry is lost.
-/
import VolumeDriver.MetaData.Cache
import VolumeDriver.MetaData.Journal
import VolumeDriver.Lib.Steps

namespace VolumeDriver.PageSlots

open Lib CachedMetaDataStore Journal
open CachePage

/-! ## Calls that throw -/

/-- What the backend calls of one access throw, should they be made. A `getPage` that throws may have
written anything to the page's memory before. -/
structure Calls (page_bits : Nat) where
  putPage : Option Exn := none
  discardPage : Option Exn := none
  getPage : Option (Exn × PageData page_bits) := none

variable {page_bits : Nat} {β : Type} (B : MetaDataBackendInterface page_bits β)
  {s : CachedMetaDataStore page_bits β} {calls : Calls page_bits}

/-- The backend during an access. -/
def failing (calls : Calls page_bits) : MetaDataBackendInterface page_bits β :=
  { B with
    putPage := fun b p d =>
      match calls.putPage with
      | some e => .error e
      | none => B.putPage b p d
    discardPage := fun b p d =>
      match calls.discardPage with
      | some e => .error e
      | none => B.discardPage b p d }

variable (s)

/-- The slot for a page that is not in the cache. -/
def make_room : Result page_bits β (CachedMetaDataStore page_bits β × Nat) :=
  if s.num_pages_ < s.pages_size then pure (s, s.num_pages_)
  else
    match s.page_list_ with
    | [] => throw (.assertion "page_list_.front()", s)
    | i :: _ => do
      let (s, _) ← maybeWritePage_locked_context B (s.unlink i) i false
      pure (s, i)

/-- A page set up in slot `i` whose contents were not read. -/
def torn (pa : PageAddress) (i : Nat) (data : PageData page_bits) : CachedMetaDataStore page_bits β :=
  s.setPage i { page_address := pa, data := data }

/-- The page is set up in its slot before it is read, and linked after that. -/
def get_page_ (calls : Calls page_bits) (s : CachedMetaDataStore page_bits β) (ca : ClusterAddress) :
    Result page_bits β (CachedMetaDataStore page_bits β × Nat) :=
  let pa := pageAddress page_bits ca
  match s.page_map_ pa with
  | none => do
    let (s, i) ← make_room (failing B calls) s
    match calls.getPage with
    | some (e, data) => throw (e, torn s pa i data)
    | none => pure (load B s pa i, i)
  | some i => pure ({ s with page_list_ := s.page_list_.erase i ++ [i] }, i)

/-- A read, or a write of `loc`, of the location of `ca`. -/
structure Access (page_bits : Nat) where
  ca : ClusterAddress
  loc : ClusterLocationAndHash := .zero
  for_write : Bool := false
  calls : Calls page_bits := {}

/-- Reads or writes the location of an address, as the calls permit. -/
def get_cluster_location_unlocked_ (a : Access page_bits) :
    Result page_bits β (CachedMetaDataStore page_bits β × ClusterLocationAndHash) := do
  let (s, i) ← get_page_ B a.calls s a.ca
  if a.for_write then pure (s.write i a.ca a.loc, a.loc)
  else pure (s, (s.pages_ i).data (offset page_bits a.ca))

/-- The store after an access, whether it threw or not. -/
def step (a : Access page_bits) : CachedMetaDataStore page_bits β :=
  match get_cluster_location_unlocked_ B s a with
  | .ok (s, _) => s
  | .error (_, s) => s

/-- The access threw. -/
def failed (a : Access page_bits) : Bool :=
  match get_cluster_location_unlocked_ B s a with
  | .ok _ => false
  | .error _ => true

/-! ## The discipline -/

/-- The page in slot `i` is linked in `page_map_`. -/
def Mapped (i : Nat) : Prop := s.page_map_ (s.pages_ i).page_address = some i

instance : DecidablePred (Mapped s) :=
  fun i => inferInstanceAs (Decidable (s.page_map_ (s.pages_ i).page_address = some i))

/-- The counter agrees with what is linked, and names a slot that is not. -/
structure Disciplined : Prop where
  list : s.num_pages_ = s.page_list_.length
  map : s.num_pages_ = ((Finset.range s.pages_size).filter (Mapped s)).card
  next : s.num_pages_ < s.pages_size → s.num_pages_ ∉ s.page_list_ ∧ ¬Mapped s s.num_pages_

/-- The entries of every page that was dirty in `s` are found in `s'`. -/
def Held (s s' : CachedMetaDataStore page_bits β) : Prop :=
  ∀ i ∈ s.page_list_, (s.pages_ i).dirty = true →
    Same (s'.contents B (s.pages_ i).page_address) (s.pages_ i).data

/-- After the access the slots are in order, and one that threw has lost nothing. -/
structure Survives (a : Access page_bits) : Prop where
  disciplined : Disciplined (step B s a)
  held : failed B s a = true → Held B s (step B s a)

/-! ## The condition -/

/-- What writing out the page in slot `i` throws: an empty page is discarded unless the parent has it. -/
def writeOut (calls : Calls page_bits) (s : CachedMetaDataStore page_bits β) (i : Nat) : Option Exn :=
  if (s.pages_ i).dirty then
    if (s.pages_ i).empty && !B.pageExistsInParent s.backend_ (s.pages_ i).page_address then calls.discardPage
    else calls.putPage
  else none

/-- The page in slot `i` has to make room for the page of `ca`. -/
structure Evicts (ca : ClusterAddress) (i : Nat) : Prop where
  miss : s.page_map_ (pageAddress page_bits ca) = none
  full : s.pages_size ≤ s.num_pages_
  front : s.page_list_.head? = some i

/-- An access that evicts a page throws only if that page is in the last slot and, where writing it
out throws, if the backend has its entries already. -/
structure Careful (a : Access page_bits) : Prop where
  last : ∀ i, Evicts s a.ca i → (writeOut B a.calls s i).isSome ∨ a.calls.getPage.isSome → i + 1 = s.pages_size
  stored : ∀ i, Evicts s a.ca i → (writeOut B a.calls s i).isSome →
    Same (B.stored s.backend_ (s.pages_ i).page_address) (s.pages_ i).data

/-! ## Writing out -/

variable {s} {i : Nat} {e : Exn} {s' : CachedMetaDataStore page_bits β} {a : Access page_bits}

theorem maybeWritePage_failing (hw : writeOut B calls s i = none) (ie : Bool) :
    maybeWritePage_locked_context (failing B calls) s i ie = maybeWritePage_locked_context B s i ie := by
  unfold writeOut at hw
  unfold maybeWritePage_locked_context possibly_discard_page_ dispose_page
  cases hd : (s.pages_ i).dirty with
  | false => simp
  | true =>
    -- which of the two calls is made decides which of the two failures is absent
    cases he : (s.pages_ i).empty <;>
      cases hp : B.pageExistsInParent s.backend_ (s.pages_ i).page_address <;>
      simp_all [failing]

/-- The store after it could not write a page. -/
def recorded (s : CachedMetaDataStore page_bits β) (e : Exn) : CachedMetaDataStore page_bits β :=
  { s with failed_ := s.failed_ ++ [e] }

theorem maybeWritePage_throws (hw : writeOut B calls s i = some e) :
    maybeWritePage_locked_context (failing B calls) s i false = .error (e, recorded s e) := by
  unfold writeOut at hw
  unfold maybeWritePage_locked_context possibly_discard_page_ dispose_page
  cases hd : (s.pages_ i).dirty with
  | false => simp [hd] at hw
  | true =>
    cases he : (s.pages_ i).empty <;>
      cases hp : B.pageExistsInParent s.backend_ (s.pages_ i).page_address <;>
      simp_all [failing] <;> rfl

/-! ## Slots -/

theorem mapped_iff (h : Linked B s) (i : Nat) : Mapped s i ↔ i ∈ s.page_list_ := by
  unfold Mapped
  rw [h.map]
  simp

theorem front_of_full (hs : Slots s) (hn : ¬s.num_pages_ < s.pages_size) : ∃ i, s.page_list_.head? = some i := by
  have hsize := hs.size
  cases hl : s.page_list_ with
  | nil =>
    have h0 := (hs.used 0).2 (by omega)
    rw [hl] at h0
    cases h0
  | cons i rest => exact ⟨i, rfl⟩

theorem disciplined_of_slots (h : Linked B s) (hs : Slots s) : Disciplined s := by
  have hfilter : (Finset.range s.pages_size).filter (Mapped s) = Finset.range s.num_pages_ := by
    ext i
    rw [Finset.mem_filter, Finset.mem_range, Finset.mem_range, mapped_iff B h, hs.used]
    have := hs.num
    omega
  constructor
  case list => exact (hs.length h.nodup).symm
  case map => rw [hfilter, Finset.card_range]
  case next =>
    intro _
    rw [mapped_iff B h, hs.used]
    omega

section
variable {s' : CachedMetaDataStore page_bits β} {i : Nat}

/-- What is left of the slots when the page in slot `i` was unlinked from a full cache. -/
structure Unlinked (s s' : CachedMetaDataStore page_bits β) (i : Nat) : Prop where
  list : s'.page_list_ = s.page_list_.erase i
  num : s'.num_pages_ = s.num_pages_ - 1
  size : s'.pages_size = s.pages_size

/-- The index names the slot that became free only if that was the last one. -/
theorem Unlinked.last (h : Linked B s) (hs : Slots s) (hfull : s.pages_size ≤ s.num_pages_) (hu : Unlinked s s' i)
    (hd : Disciplined s') : i + 1 = s.pages_size := by
  have hsize := hs.size
  have hnum := hs.num
  have hfree := (hd.next (by rw [hu.num, hu.size]; omega)).1
  rw [hu.list, hu.num, h.nodup.mem_erase_iff, hs.used] at hfree
  omega

theorem Unlinked.slots (h : Linked B s) (hs : Slots s) (hfull : s.pages_size ≤ s.num_pages_) (hu : Unlinked s s' i)
    (hlast : i + 1 = s.pages_size) : Slots s' := by
  have hnum := hs.num
  constructor
  case size => rw [hu.size]; exact hs.size
  case num => rw [hu.size, hu.num]; omega
  case used =>
    intro j
    rw [hu.list, hu.num, h.nodup.mem_erase_iff, hs.used]
    omega

end

/-! ## Entries -/

theorem same_of_locationOf (hloc : s'.locationOf B = s.locationOf B) (pa : PageAddress) :
    Same (s'.contents B pa) (s.contents B pa) := by
  intro k
  have := congrFun hloc (clusterAddress page_bits pa + k)
  unfold locationOf at this
  rwa [pageAddress_add, offset_add] at this

theorem held_of_locationOf (h : Linked B s) (hloc : s'.locationOf B = s.locationOf B) : Held B s s' := by
  intro i hi _
  rw [← contents_of_some B (h.mapped B hi)]
  exact same_of_locationOf B hloc _

/-! ## What an access does -/

theorem step_of_error (h : get_page_ B a.calls s a.ca = .error (e, s')) : step B s a = s' ∧ failed B s a = true := by
  unfold step failed get_cluster_location_unlocked_
  rw [h]
  exact ⟨rfl, rfl⟩

theorem access_ok (hB : B.Lawful) (hN : B.NonFailing) (h : Linked B s) (hs : Slots s)
    (hp : get_page_ B a.calls s a.ca = CachedMetaDataStore.get_page_ B s a.ca) :
    failed B s a = false ∧ Linked B (step B s a) ∧ Slots (step B s a) := by
  obtain ⟨s', i, hget, hc, hs', hm⟩ := (keeps_linked hB hN).get_page h hs a.ca
  have hl' := (hc.linked B hB h).1
  unfold step failed get_cluster_location_unlocked_
  rw [hp, hget, ok_bind]
  cases a.for_write with
  | true => exact ⟨rfl, (hl'.write B a.loc hm).1, hs'.write i a.ca a.loc⟩
  | false => exact ⟨rfl, hl', hs'⟩

theorem get_page_hit {ca : ClusterAddress} (hm : s.page_map_ (pageAddress page_bits ca) = some i) :
    get_page_ B calls s ca = CachedMetaDataStore.get_page_ B s ca := by
  unfold get_page_ CachedMetaDataStore.get_page_
  simp only [hm]

theorem get_page_miss {ca : ClusterAddress} (hm : s.page_map_ (pageAddress page_bits ca) = none)
    (hr : make_room (failing B calls) s = make_room B s) (hg : calls.getPage = none) :
    get_page_ B calls s ca = CachedMetaDataStore.get_page_ B s ca := by
  unfold get_page_ CachedMetaDataStore.get_page_
  simp only [hm, hr, hg]
  unfold make_room
  split
  · rfl
  · cases s.page_list_ with
    | nil => rfl
    | cons i rest => simp only [bind_assoc, pure_bind]

theorem make_room_free (hn : s.num_pages_ < s.pages_size) : make_room (failing B calls) s = .ok (s, s.num_pages_) := by
  unfold make_room
  rw [if_pos hn]; rfl

theorem make_room_throws (hn : ¬s.num_pages_ < s.pages_size) (hf : s.page_list_.head? = some i)
    (hw : writeOut B calls s i = some e) :
    make_room (failing B calls) s = .error (e, recorded (s.unlink i) e) := by
  obtain ⟨rest, hl⟩ := List.head?_eq_some_iff.1 hf
  unfold make_room
  rw [if_neg hn]
  simp only [hl]
  rw [maybeWritePage_throws B (s := s.unlink i) hw]
  rfl

theorem make_room_failing (hn : ¬s.num_pages_ < s.pages_size) (hf : s.page_list_.head? = some i)
    (hw : writeOut B calls s i = none) : make_room (failing B calls) s = make_room B s := by
  obtain ⟨rest, hl⟩ := List.head?_eq_some_iff.1 hf
  unfold make_room
  rw [if_neg hn, if_neg hn]
  simp only [hl]
  rw [maybeWritePage_failing B (s := s.unlink i) hw]

theorem make_room_evicts (hB : B.Lawful) (hN : B.NonFailing) (h : Linked B s)
    (hn : ¬s.num_pages_ < s.pages_size) (hf : s.page_list_.head? = some i) :
    ∃ s', make_room B s = .ok (s', i) ∧ Cache B s [] s' ∧ Unlinked s s' i := by
  obtain ⟨rest, hl⟩ := List.head?_eq_some_iff.1 hf
  have hi : i ∈ s.page_list_ := by rw [hl]; exact List.mem_cons_self ..
  obtain ⟨s', r, _, hw, hc, hout⟩ := (keeps_linked hB hN).maybeWritePage h hi false
  refine ⟨s'.unlink i, ?_, .internal hc (.evict (hout.list ▸ hi) (hout.clean i (by simp))), ?_⟩
  · unfold make_room
    rw [if_neg hn]
    simp only [hl, hw]
    rfl
  · constructor
    case list => change s'.page_list_.erase i = _; rw [hout.list]
    case num => change s'.num_pages_ - 1 = _; rw [hout.num]
    case size => exact hout.size

theorem torn_internal (hi : i ∉ s.page_list_) (pa : PageAddress) (data : PageData page_bits) :
    Internal B s (torn s pa i data) := by
  refine .slots s.pages_size fun j hj => ?_
  have hne : j ≠ i := fun he => hi (he ▸ hj)
  exact Function.update_of_ne hne _ _

/-! ## The four ways to go -/

/-- `getPage` throws for a slot that was free. -/
theorem free_slot (hB : B.Lawful) (h : Linked B s) (hs : Slots s) {data : PageData page_bits}
    (hm : s.page_map_ (pageAddress page_bits a.ca) = none)
    (hn : s.num_pages_ < s.pages_size) (hg : a.calls.getPage = some (e, data)) :
    Linked B (step B s a) ∧ Slots (step B s a) ∧ Held B s (step B s a) := by
  have hget : get_page_ B a.calls s a.ca = .error (e, torn s (pageAddress page_bits a.ca) s.num_pages_ data) := by
    unfold get_page_
    simp only [hm, make_room_free B hn, hg, ok_bind]
    rfl
  rw [(step_of_error B hget).1]
  have hfree : s.num_pages_ ∉ s.page_list_ := by rw [hs.used]; omega
  obtain ⟨hl', hloc⟩ := (torn_internal B hfree _ data).linked B hB h
  exact ⟨hl', { hs with }, held_of_locationOf B h hloc⟩

section
variable {i : Nat} {a : Access page_bits}

/-- Writing out the evicted page throws. -/
theorem dropped (h : Linked B s) (he : Evicts s a.ca i) (hw : (writeOut B a.calls s i).isSome) :
    Linked B (step B s a) ∧ Unlinked s (step B s a) i ∧ failed B s a = true ∧
      (Held B s (step B s a) ↔ Same (B.stored s.backend_ (s.pages_ i).page_address) (s.pages_ i).data) := by
  obtain ⟨e, hw'⟩ := Option.isSome_iff_exists.1 hw
  obtain ⟨rest, hl⟩ := List.head?_eq_some_iff.1 he.front
  have hi : i ∈ s.page_list_ := by rw [hl]; exact List.mem_cons_self ..
  have hget : get_page_ B a.calls s a.ca = .error (e, recorded (s.unlink i) e) := by
    unfold get_page_
    simp only [he.miss, make_room_throws B (not_lt.2 he.full) he.front hw']
    rfl
  obtain ⟨hstep, hfail⟩ := step_of_error B hget
  rw [hstep]
  have hdirty : (s.pages_ i).dirty = true := by
    by_contra hd
    simp [writeOut, hd] at hw
  have hcontents : ∀ pa, (recorded (s.unlink i) e).contents B pa =
      if pa = (s.pages_ i).page_address then B.stored s.backend_ pa else s.contents B pa := fun pa => by
    change (s.unlink i).contents B pa = _
    unfold contents
    rw [unlink_map]
    by_cases hpa : pa = (s.pages_ i).page_address
    · rw [if_pos hpa, if_pos hpa]; rfl
    · rw [if_neg hpa, if_neg hpa]; rfl
  refine ⟨((h.unlink B hi).congr B (recorded (s.unlink i) e) rfl rfl rfl rfl).1, ⟨rfl, rfl, rfl⟩, hfail, ?_⟩
  constructor
  · intro hheld
    have := hheld i hi hdirty
    rwa [hcontents, if_pos rfl] at this
  · intro hsame j hj _
    rw [hcontents]
    split
    · rename_i haddr
      rw [h.inj B hj hi haddr]
      exact hsame
    · rw [contents_of_some B (h.mapped B hj)]
      exact fun _ => rfl

/-- `getPage` throws after the evicted page was written out. -/
theorem evicted (hB : B.Lawful) (hN : B.NonFailing) (h : Linked B s) (he : Evicts s a.ca i)
    (hw : writeOut B a.calls s i = none) (hg : a.calls.getPage.isSome) :
    Linked B (step B s a) ∧ Unlinked s (step B s a) i ∧ Held B s (step B s a) := by
  obtain ⟨⟨e, data⟩, hg'⟩ := Option.isSome_iff_exists.1 hg
  have hn := not_lt.2 he.full
  obtain ⟨s', hroom, hc, hu⟩ := make_room_evicts B hB hN h hn he.front
  have hget : get_page_ B a.calls s a.ca = .error (e, torn s' (pageAddress page_bits a.ca) i data) := by
    unfold get_page_
    simp only [he.miss, make_room_failing B hn he.front hw, hroom, hg', ok_bind]
    rfl
  rw [(step_of_error B hget).1]
  have hfree : i ∉ s'.page_list_ := by rw [hu.list]; exact h.nodup.not_mem_erase
  obtain ⟨hl', hloc⟩ := (Cache.internal hc (torn_internal B hfree _ data)).linked B hB h
  exact ⟨hl', { hu with }, held_of_locationOf B h hloc⟩

end

theorem careful_access (hB : B.Lawful) (hN : B.NonFailing) (h : Linked B s) (hs : Slots s) (hc : Careful B s a) :
    Linked B (step B s a) ∧ Slots (step B s a) ∧ (failed B s a = true → Held B s (step B s a)) := by
  cases hm : s.page_map_ (pageAddress page_bits a.ca) with
  | some i =>
    obtain ⟨hf, hl', hs'⟩ := access_ok B hB hN h hs (get_page_hit B hm)
    exact ⟨hl', hs', by simp [hf]⟩
  | none =>
    by_cases hn : s.num_pages_ < s.pages_size
    · -- a slot is free
      cases hg : a.calls.getPage with
      | some failure =>
        obtain ⟨hl', hs', hheld⟩ := free_slot B hB h hs hm hn hg
        exact ⟨hl', hs', fun _ => hheld⟩
      | none =>
        have hroom : make_room (failing B a.calls) s = make_room B s := by
          unfold make_room
          rw [if_pos hn, if_pos hn]
        obtain ⟨hf, hl', hs'⟩ := access_ok B hB hN h hs (get_page_miss B hm hroom hg)
        exact ⟨hl', hs', by simp [hf]⟩
    · -- a page is evicted
      obtain ⟨i, hfront⟩ := front_of_full hs hn
      have he : Evicts s a.ca i := ⟨hm, not_lt.1 hn, hfront⟩
      cases hw : writeOut B a.calls s i with
      | some e =>
        have hw' : (writeOut B a.calls s i).isSome := by simp [hw]
        obtain ⟨hl', hu, _, hheld⟩ := dropped B h he hw'
        exact ⟨hl', hu.slots B h hs he.full (hc.last i he (.inl hw')), fun _ => hheld.2 (hc.stored i he hw')⟩
      | none =>
        cases hg : a.calls.getPage with
        | some failure =>
          have hg' : a.calls.getPage.isSome := by simp [hg]
          obtain ⟨hl', hu, hheld⟩ := evicted B hB hN h he hw hg'
          exact ⟨hl', hu.slots B h hs he.full (hc.last i he (.inr hg')), fun _ => hheld⟩
        | none =>
          have hroom := make_room_failing B hn hfront hw
          obtain ⟨hf, hl', hs'⟩ := access_ok B hB hN h hs (get_page_miss B hm hroom hg)
          exact ⟨hl', hs', by simp [hf]⟩

theorem careful_of_survives (hB : B.Lawful) (hN : B.NonFailing) (h : Linked B s) (hs : Slots s)
    (hv : Survives B s a) : Careful B s a := by
  constructor
  case last =>
    intro i he hthrows
    cases hw : writeOut B a.calls s i with
    | some e =>
      obtain ⟨_, hu, _, _⟩ := dropped B h he (by simp [hw])
      exact hu.last B h hs he.full hv.disciplined
    | none =>
      have hg : a.calls.getPage.isSome := by simpa [hw] using hthrows
      obtain ⟨_, hu, _⟩ := evicted B hB hN h he hw hg
      exact hu.last B h hs he.full hv.disciplined
  case stored =>
    intro i he hw
    obtain ⟨_, _, hfail, hheld⟩ := dropped B h he hw
    exact hheld.1 (hv.held hfail)

/-- Over every run of accesses, from any state of the cache in which the slots are in order, and
whatever the backend's calls throw: the slots stay in order and no access that throws loses an entry
exactly if every access meets the condition. -/
theorem slots_survive (hB : B.Lawful) (hN : B.NonFailing) (h : Linked B s) (hs : Slots s)
    (as : List (Access page_bits)) : Each (step B) (Survives B) s as ↔ Each (step B) (Careful B) s as := by
  refine each_iff (fun s => Linked B s ∧ Slots s) ?_ ?_ ⟨h, hs⟩
  · rintro s a ⟨h, hs⟩
    constructor
    · exact careful_of_survives B hB hN h hs
    · intro hc
      obtain ⟨hl', hs', hheld⟩ := careful_access B hB hN h hs hc
      exact ⟨disciplined_of_slots B hl' hs', hheld⟩
  · rintro s a ⟨h, hs⟩ hc
    obtain ⟨hl', hs', _⟩ := careful_access B hB hN h hs hc
    exact ⟨hl', hs'⟩

theorem careful_of_quiet (h : a.calls = {}) : Careful B s a := by
  have hw : ∀ i, writeOut B a.calls s i = none := fun i => by simp [writeOut, h]
  have hg : a.calls.getPage = none := by rw [h]
  constructor
  case last =>
    intro i _ hthrows
    simp [hw, hg] at hthrows
  case stored =>
    intro i _ hthrows
    simp [hw] at hthrows

/-! ## Two slots -/

/-- An empty cache of two pages with one location each. -/
def twoSlots : CachedMetaDataStore 0 (Journal 0) :=
  { backend_ := {}, pages_ := init_pages_ 0, pages_size := 2, cork_uuid_ := none, scrub_id_ := none }

theorem twoSlots_linked : Linked (backend 0) twoSlots ∧ Slots twoSlots :=
  ⟨⟨List.nodup_nil, by simp [twoSlots], by simp [twoSlots]⟩, ⟨by decide, by decide, by simp [twoSlots]⟩⟩

/-- A write of one cluster. -/
def writes (ca : ClusterAddress) : Access 0 := { ca, loc := ⟨⟨⟨1, 0, 0⟩, 0⟩, 7⟩, for_write := true }

/-- A read of a third page, for which `getPage` throws. -/
def unread : Access 0 := { ca := 2, calls := { getPage := some (.ioException "getPage", reset 0) } }

/-- A read of a third page, for which the evicted page cannot be written. -/
def unwritten : Access 0 := { ca := 2, calls := { putPage := some (.ioException "putPage") } }

/-- The page in the last slot is evicted and written out, then reading the new page fails. -/
theorem last_slot_survives :
    Each (step (backend 0)) (Survives (backend 0)) twoSlots [writes 0, writes 1, writes 0, unread] := by
  rw [slots_survive (backend 0) (backend_lawful 0) (backend_nonFailing 0) twoSlots_linked.1
    twoSlots_linked.2]
  refine ⟨careful_of_quiet _ rfl, careful_of_quiet _ rfl, careful_of_quiet _ rfl, ?_, trivial⟩
  constructor
  case last =>
    rintro i ⟨_, _, hfront⟩ _
    have : i = 1 := (Option.some.inj hfront).symm
    rw [this]; rfl
  case stored =>
    rintro i ⟨_, _, hfront⟩ hw
    have : i = 1 := (Option.some.inj hfront).symm
    subst this
    exact absurd hw (by decide)

/-- The first page is evicted and cannot be written: its location is lost, and the counter names the
slot that the second page is in. -/
theorem failed_eviction_loses_page :
    ¬Each (step (backend 0)) (Survives (backend 0)) twoSlots [writes 0, writes 1, unwritten] ∧
      ¬Held (backend 0) (runs (step (backend 0)) twoSlots [writes 0, writes 1])
        (runs (step (backend 0)) twoSlots [writes 0, writes 1, unwritten]) := by
  constructor
  · rintro ⟨_, _, h, _⟩
    have hnext := (h.disciplined.next (by decide)).1
    exact hnext (by decide)
  · intro h
    have hlost := h 0 (by decide) (by decide) 0
    exact absurd hlost (by decide)

end VolumeDriver.PageSlots
