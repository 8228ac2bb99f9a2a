/-
What the page cache does behind the back of its users, as a transition system: pages are loaded,
moved in the list, written to the backend or discarded, and evicted when clean. None of this
changes which location an address has. Every loop of the store is a sequence of such steps and of
writes, and succeeds as long as the backend does.
-/
import VolumeDriver.MetaData.Store
import VolumeDriver.Lib.Replay

namespace VolumeDriver

open Lib Function List
open CachePage (offset pageAddress reset)

namespace CachedMetaDataStore

variable {page_bits : Nat} {β : Type} (B : MetaDataBackendInterface page_bits β)
  {s s' s'' : CachedMetaDataStore page_bits β}

/-! ## Contents -/

/-- The page at `pa` as the store sees it: from the cache, or else from the backend. -/
def contents (s : CachedMetaDataStore page_bits β) (pa : PageAddress) : PageData page_bits :=
  match s.page_map_ pa with
  | some i => (s.pages_ i).data
  | none => B.stored s.backend_ pa

/-- The location of an address, corks apart. -/
def locationOf (s : CachedMetaDataStore page_bits β) (ca : ClusterAddress) : ClusterLocationAndHash :=
  (s.contents B (pageAddress page_bits ca) (offset page_bits ca)).fixup

/-- Two pages with the same locations: hashes of missing ones apart. -/
def Same (d d' : PageData page_bits) : Prop := ∀ k, (d k).fixup = (d' k).fixup

variable {i : Nat} {pa : PageAddress} {l : Bindings} {b : β} {ie : Bool}

theorem contents_of_some (h : s.page_map_ pa = some i) : s.contents B pa = (s.pages_ i).data := by
  unfold contents; rw [h]

theorem contents_of_none (h : s.page_map_ pa = none) : s.contents B pa = B.stored s.backend_ pa := by
  unfold contents; rw [h]

theorem locationOf_congr (h : ∀ pa, Same (s'.contents B pa) (s.contents B pa)) : s'.locationOf B = s.locationOf B :=
  funext fun _ => h _ _

/-- List and map agree, and a page that is not dirty is as the backend has it. -/
structure Linked (s : CachedMetaDataStore page_bits β) : Prop where
  nodup : s.page_list_.Nodup
  map : ∀ pa i, s.page_map_ pa = some i ↔ i ∈ s.page_list_ ∧ (s.pages_ i).page_address = pa
  clean : ∀ i ∈ s.page_list_, (s.pages_ i).dirty = false →
    Same (s.pages_ i).data (B.stored s.backend_ (s.pages_ i).page_address)

/-- The slots in use are the first `num_pages_`. -/
structure Slots (s : CachedMetaDataStore page_bits β) : Prop where
  size : 0 < s.pages_size
  num : s.num_pages_ ≤ s.pages_size
  used : ∀ i, i ∈ s.page_list_ ↔ i < s.num_pages_

theorem Linked.congr (h : Linked B s) (s' : CachedMetaDataStore page_bits β) (hp : s'.pages_ = s.pages_)
    (hm : s'.page_map_ = s.page_map_) (hl : s'.page_list_ = s.page_list_)
    (hst : B.stored s'.backend_ = B.stored s.backend_) :
    Linked B s' ∧ s'.locationOf B = s.locationOf B := by
  refine ⟨⟨?_, ?_, ?_⟩, ?_⟩
  · rw [hl]; exact h.nodup
  · rw [hp, hm, hl]; exact h.map
  · rw [hp, hl, hst]; exact h.clean
  · unfold locationOf contents
    rw [hp, hm, hst]

theorem Slots.congr (h : Slots s) (hs : s'.pages_size = s.pages_size) (hn : s'.num_pages_ = s.num_pages_)
    (hl : s'.page_list_ = s.page_list_) : Slots s' :=
  ⟨hs ▸ h.size, hs ▸ hn ▸ h.num, fun i => by rw [hl, hn]; exact h.used i⟩

/-! ## Steps -/

/-- A step of the cache that changes no location. -/
inductive Internal (s : CachedMetaDataStore page_bits β) : CachedMetaDataStore page_bits β → Prop
  | touch {i : Nat} (linked : i ∈ s.page_list_) : Internal s { s with page_list_ := s.page_list_.erase i ++ [i] }
  | put {i : Nat} {b : β} (linked : i ∈ s.page_list_)
      (call : B.putPage s.backend_ (s.pages_ i) (s.delta i) = .ok b) : Internal s (s.disposed i b)
  | discard {i : Nat} {b : β} (linked : i ∈ s.page_list_) (empty : (s.pages_ i).empty = true)
      (parent : B.pageExistsInParent s.backend_ (s.pages_ i).page_address = false)
      (call : B.discardPage s.backend_ (s.pages_ i) (s.delta i) = .ok b) : Internal s (s.disposed i b)
  | evict {i : Nat} (linked : i ∈ s.page_list_) (clean : (s.pages_ i).dirty = false) : Internal s (s.unlink i)
  | load {pa : PageAddress} {i : Nat} (free : i ∉ s.page_list_) (new : s.page_map_ pa = none) :
      Internal s (load B s pa i)
  /-- Slots that are not in use may be set up anew, in any number. -/
  | slots {f : Nat → CachePage page_bits} (size : Nat) (used : ∀ i ∈ s.page_list_, f i = s.pages_ i) :
      Internal s { s with pages_ := f, pages_size := size }

/-- A sequence of steps in which the writes `l` were made. -/
inductive Cache (s : CachedMetaDataStore page_bits β) :
    Bindings → CachedMetaDataStore page_bits β → Prop
  | refl : Cache s [] s
  | internal {l : Bindings} {s' s'' : CachedMetaDataStore page_bits β} :
      Cache s l s' → Internal B s' s'' → Cache s l s''
  | write {l : Bindings} {s' : CachedMetaDataStore page_bits β}
      {ca : ClusterAddress} {i : Nat} (loc : ClusterLocationAndHash) :
      Cache s l s' → s'.page_map_ (pageAddress page_bits ca) = some i →
        Cache s (l ++ [(ca, loc)]) (s'.write i ca loc)

theorem Cache.trans {l' : Bindings} (h : Cache B s l s')
    (h' : Cache B s' l' s'') : Cache B s (l ++ l') s'' := by
  induction h' with
  | refl => simpa using h
  | internal _ hi ih => exact ih.internal hi
  | write loc _ hm ih => rw [← append_assoc]; exact ih.write loc hm

theorem Cache.internal_trans (h : Cache B s [] s') (h' : Cache B s' l s'') : Cache B s l s'' := by
  simpa using h.trans B h'

/-! ## Steps change no location -/

theorem disposed_page (j : Nat) :
    (s.disposed i b).pages_ j = if j = i then (s.pages_ i).written else s.pages_ j := by
  simp [disposed, setPage, update_apply]

@[simp] theorem disposed_address (j : Nat) :
    ((s.disposed i b).pages_ j).page_address = (s.pages_ j).page_address := by
  rw [disposed_page]; split
  · rename_i h; rw [h]; rfl
  · rfl

@[simp] theorem disposed_data (j : Nat) : ((s.disposed i b).pages_ j).data = (s.pages_ j).data := by
  rw [disposed_page]; split
  · rename_i h; rw [h]; rfl
  · rfl

/-- Pages were written out, those in the slots `w` if they were dirty; list and slots are as before. -/
structure WroteOut (w : List Nat) (s s' : CachedMetaDataStore page_bits β) : Prop where
  list : s'.page_list_ = s.page_list_
  map : s'.page_map_ = s.page_map_
  num : s'.num_pages_ = s.num_pages_
  size : s'.pages_size = s.pages_size
  clean : ∀ i, (s.pages_ i).dirty = false ∨ i ∈ w → (s'.pages_ i).dirty = false

theorem WroteOut.refl : WroteOut [] s s := ⟨rfl, rfl, rfl, rfl, by simp⟩

theorem WroteOut.trans {w w' : List Nat} (h : WroteOut w s s') (h' : WroteOut w' s' s'') :
    WroteOut (w ++ w') s s'' := by
  refine ⟨h'.list.trans h.list, h'.map.trans h.map, h'.num.trans h.num, h'.size.trans h.size, fun i hi => ?_⟩
  rw [mem_append, ← or_assoc] at hi
  exact h'.clean i (hi.imp_left (h.clean i))

theorem WroteOut.weaken {w : List Nat} (h : WroteOut w s s') : WroteOut [] s s' :=
  { h with clean := fun i hi => h.clean i (hi.imp_right nofun) }

theorem Slots.wroteOut {w : List Nat} (hs : Slots s) (h : WroteOut w s s') : Slots s' := hs.congr h.size h.num h.list

theorem disposed_wroteOut : WroteOut [i] s (s.disposed i b) := by
  refine ⟨rfl, rfl, rfl, rfl, fun j hj => ?_⟩
  rw [disposed_page]
  split
  · rfl
  · exact hj.resolve_right (by simpa)

theorem Linked.mapped (h : Linked B s) (hi : i ∈ s.page_list_) : s.page_map_ (s.pages_ i).page_address = some i :=
  (h.map _ i).2 ⟨hi, rfl⟩

theorem Linked.inj (h : Linked B s) {j : Nat} (hi : i ∈ s.page_list_) (hj : j ∈ s.page_list_)
    (he : (s.pages_ i).page_address = (s.pages_ j).page_address) : i = j := by
  have := h.mapped B hi
  rw [he, h.mapped B hj] at this
  exact (Option.some.inj this).symm

/-- The backend takes over a page in the cache as it is there, hashes of missing locations apart. -/
theorem Linked.dispose (h : Linked B s) {d : PageData page_bits} (hi : i ∈ s.page_list_)
    (hst : B.stored b = update (B.stored s.backend_) (s.pages_ i).page_address d)
    (hd : Same (s.pages_ i).data d) :
    Linked B (s.disposed i b) ∧ (s.disposed i b).locationOf B = s.locationOf B := by
  refine ⟨⟨h.nodup, fun pa j => ?_, fun j hj hjd => ?_⟩, locationOf_congr B fun pa => ?_⟩
  · rw [disposed_address]; exact h.map pa j
  · rw [disposed_address, disposed_data]
    change Same _ (B.stored b _)
    rw [hst]
    by_cases hji : j = i
    · subst hji; rw [update_self]; exact hd
    · rw [update_of_ne fun he => hji (h.inj B hj hi he)]
      rw [disposed_page, if_neg hji] at hjd
      exact h.clean j hj hjd
  · cases hm : s.page_map_ pa with
    | some j =>
      rw [contents_of_some B hm, contents_of_some B (s := s.disposed i b) hm, disposed_data]
      exact fun _ => rfl
    | none =>
      rw [contents_of_none B hm, contents_of_none B (s := s.disposed i b) hm]
      change Same (B.stored b pa) _
      rw [hst, update_of_ne]
      · exact fun _ => rfl
      · rintro rfl
        rw [h.mapped B hi] at hm
        cases hm

theorem empty_same {p : CachePage page_bits} (h : p.empty = true) : Same p.data (reset page_bits) := by
  intro k
  have := of_decide_eq_true h k
  rw [ClusterLocationAndHash.fixup_of_isNull this]
  rfl

theorem unlink_map :
    (s.unlink i).page_map_ pa = if pa = (s.pages_ i).page_address then none else s.page_map_ pa := by
  simp [unlink, update_apply]

theorem Linked.unlink (h : Linked B s) (hi : i ∈ s.page_list_) : Linked B (s.unlink i) := by
  have hmem : ∀ j, j ∈ s.page_list_.erase i ↔ j ≠ i ∧ j ∈ s.page_list_ := fun j => h.nodup.mem_erase_iff
  refine ⟨h.nodup.erase i, fun pa j => ?_, fun j hj => h.clean j ((hmem j).1 hj).2⟩
  change _ ↔ j ∈ s.page_list_.erase i ∧ (s.pages_ j).page_address = pa
  rw [hmem, unlink_map]
  split
  · rename_i hpa
    constructor
    · intro h; cases h
    · rintro ⟨⟨hne, hj⟩, he⟩; exact absurd (h.inj B hj hi (he.trans hpa)) hne
  · rename_i hpa
    rw [h.map pa j]
    constructor
    · rintro ⟨hj, he⟩; exact ⟨⟨fun hji => hpa (hji ▸ he).symm, hj⟩, he⟩
    · rintro ⟨⟨_, hj⟩, he⟩; exact ⟨hj, he⟩

theorem Linked.evict (h : Linked B s) (hi : i ∈ s.page_list_) (hc : (s.pages_ i).dirty = false) :
    Linked B (s.unlink i) ∧ (s.unlink i).locationOf B = s.locationOf B := by
  refine ⟨h.unlink B hi, locationOf_congr B fun pa => ?_⟩
  by_cases hpa : pa = (s.pages_ i).page_address
  · rw [contents_of_none B (s := s.unlink i) (by rw [unlink_map, if_pos hpa]), hpa, contents_of_some B (h.mapped B hi)]
    exact fun k => (h.clean i hi hc k).symm
  · unfold contents
    rw [unlink_map, if_neg hpa]
    exact fun _ => rfl

theorem Linked.load (h : Linked B s) (hi : i ∉ s.page_list_) (hpa : s.page_map_ pa = none) :
    Linked B (CachedMetaDataStore.load B s pa i) ∧
      (CachedMetaDataStore.load B s pa i).locationOf B = s.locationOf B := by
  have hpage : ∀ j, (CachedMetaDataStore.load B s pa i).pages_ j =
      if j = i then { page_address := pa, data := B.stored s.backend_ pa } else s.pages_ j := fun j => by
    simp [CachedMetaDataStore.load, setPage, update_apply]
  have hold : ∀ j ∈ s.page_list_, (CachedMetaDataStore.load B s pa i).pages_ j = s.pages_ j := fun j hj => by
    rw [hpage, if_neg fun he : j = i => hi (he ▸ hj)]
  have hmap : ∀ pa', (CachedMetaDataStore.load B s pa i).page_map_ pa' =
      if pa' = pa then some i else s.page_map_ pa' := fun pa' => by
    simp [CachedMetaDataStore.load, update_apply]
  have hmem : ∀ j, j ∈ (CachedMetaDataStore.load B s pa i).page_list_ ↔ j ∈ s.page_list_ ∨ j = i := fun j => by
    simp [CachedMetaDataStore.load]
  refine ⟨⟨?_, fun pa' j => ?_, fun j hj hjd => ?_⟩, locationOf_congr B fun pa' => ?_⟩
  · exact h.nodup.append (nodup_singleton i) (by simpa using hi)
  · rw [hmap, hmem]
    split
    · rename_i he
      subst he
      constructor
      · rintro ⟨⟩; exact ⟨.inr rfl, by rw [hpage, if_pos rfl]⟩
      · rintro ⟨hj | rfl, he⟩
        · rw [hold j hj] at he
          rw [(h.map pa' j).2 ⟨hj, he⟩] at hpa; cases hpa
        · rfl
    · rename_i hne
      constructor
      · intro hm
        obtain ⟨hj, he⟩ := (h.map pa' j).1 hm
        exact ⟨.inl hj, by rw [hold j hj]; exact he⟩
      · rintro ⟨hj | rfl, he⟩
        · rw [hold j hj] at he; exact (h.map pa' j).2 ⟨hj, he⟩
        · rw [hpage, if_pos rfl] at he; exact absurd he.symm hne
  · rcases (hmem j).1 hj with hj | rfl
    · rw [hold j hj] at hjd ⊢; exact h.clean j hj hjd
    · rw [hpage, if_pos rfl]; exact fun k => rfl
  · by_cases hp : pa' = pa
    · rw [contents_of_some B (i := i) (by rw [hmap, if_pos hp]), hpage, if_pos rfl, hp, contents_of_none B hpa]
      exact fun _ => rfl
    · cases hm : s.page_map_ pa' with
      | none =>
        rw [contents_of_none B hm, contents_of_none B (by rw [hmap, if_neg hp, hm])]
        exact fun _ => rfl
      | some j =>
        rw [contents_of_some B hm, contents_of_some B (i := j) (by rw [hmap, if_neg hp, hm]),
          hold j ((h.map _ j).1 hm).1]
        exact fun _ => rfl

theorem Internal.linked (hB : B.Lawful) (h : Linked B s) (hs : Internal B s s') :
    Linked B s' ∧ s'.locationOf B = s.locationOf B := by
  cases hs with
  | @touch i hi =>
    have hmem : ∀ j, j ∈ s.page_list_.erase i ++ [i] ↔ j ∈ s.page_list_ := fun j => by
      rw [mem_append, mem_singleton, h.nodup.mem_erase_iff]
      constructor
      · rintro (h | rfl)
        · exact h.2
        · exact hi
      · intro hj
        by_cases he : j = i
        · exact .inr he
        · exact .inl ⟨he, hj⟩
    refine ⟨⟨?_, fun pa j => ?_, fun j hj => h.clean j ((hmem j).1 hj)⟩, rfl⟩
    · exact (h.nodup.erase i).append (nodup_singleton i) (by simp [h.nodup.mem_erase_iff])
    · change _ ↔ j ∈ s.page_list_.erase i ++ [i] ∧ _
      rw [hmem]; exact h.map pa j
  | put hi hc => exact h.dispose B hi (hB.put hc).1 fun _ => rfl
  | discard hi he hp hc => exact h.dispose B hi (hB.discard hc hp).1 (empty_same he)
  | evict hi hc => exact h.evict B hi hc
  | load hi hn => exact h.load B hi hn
  | @slots f _ hu =>
    refine ⟨⟨h.nodup, fun pa j => ?_, fun j hj => ?_⟩, locationOf_congr B fun pa => ?_⟩
    · rw [h.map pa j]
      exact and_congr_right fun hj => by rw [← hu j hj]
    · change (f j).dirty = false → Same (f j).data (B.stored s.backend_ (f j).page_address)
      rw [hu j hj]; exact h.clean j hj
    · cases hm : s.page_map_ pa with
      | none =>
        rw [contents_of_none B hm, contents_of_none B (s := { s with pages_ := f, pages_size := _ }) hm]
        exact fun _ => rfl
      | some j =>
        rw [contents_of_some B hm, contents_of_some B (s := { s with pages_ := f, pages_size := _ }) hm]
        change Same (f j).data _
        rw [hu j ((h.map _ j).1 hm).1]
        exact fun _ => rfl

/-! ## Writes -/

@[simp] theorem write_address (j : Nat) (ca : ClusterAddress) (loc : ClusterLocationAndHash) :
    ((s.write i ca loc).pages_ j).page_address = (s.pages_ j).page_address := by
  unfold write setPage
  by_cases h : j = i
  · subst h; simp
  · simp [h]

theorem write_data (j : Nat) (ca : ClusterAddress) (loc : ClusterLocationAndHash) :
    ((s.write i ca loc).pages_ j).data =
      if j = i then update (s.pages_ i).data (offset page_bits ca) loc else (s.pages_ j).data := by
  unfold write setPage
  by_cases h : j = i
  · subst h; simp
  · simp [h]

theorem write_dirty (j : Nat) (ca : ClusterAddress) (loc : ClusterLocationAndHash) :
    ((s.write i ca loc).pages_ j).dirty = if j = i then true else (s.pages_ j).dirty := by
  unfold write setPage
  by_cases h : j = i
  · subst h; simp
  · simp [h]

theorem Linked.contents_write (h : Linked B s) {ca : ClusterAddress} (loc : ClusterLocationAndHash)
    (hm : s.page_map_ (pageAddress page_bits ca) = some i) :
    (s.write i ca loc).contents B = update (s.contents B) (pageAddress page_bits ca)
      (update (s.pages_ i).data (offset page_bits ca) loc) := by
  funext pa
  by_cases hpa : pa = pageAddress page_bits ca
  · subst hpa
    rw [contents_of_some B (s := s.write i ca loc) hm, write_data, if_pos rfl, update_self]
  · rw [update_of_ne hpa]
    cases hm' : s.page_map_ pa with
    | none => rw [contents_of_none B hm', contents_of_none B (s := s.write i ca loc) hm']; rfl
    | some j =>
      rw [contents_of_some B hm', contents_of_some B (s := s.write i ca loc) hm', write_data, if_neg]
      rintro rfl
      exact hpa (((h.map _ _).1 hm').2.symm.trans ((h.map _ _).1 hm).2)

/-- A write changes the location of its address and no other. -/
theorem Linked.write (h : Linked B s) {ca : ClusterAddress} (loc : ClusterLocationAndHash)
    (hm : s.page_map_ (pageAddress page_bits ca) = some i) :
    Linked B (s.write i ca loc) ∧ (s.write i ca loc).locationOf B = update (s.locationOf B) ca loc.fixup := by
  refine ⟨⟨h.nodup, fun pa j => ?_, fun j hj hd => ?_⟩, funext fun a => ?_⟩
  · rw [write_address]; exact h.map pa j
  · rw [write_dirty] at hd
    split at hd
    · cases hd
    · rename_i hji
      rw [write_address, write_data, if_neg hji]
      exact h.clean j hj hd
  · unfold locationOf
    rw [h.contents_write B loc hm]
    by_cases hpa : pageAddress page_bits a = pageAddress page_bits ca
    · rw [hpa, update_self]
      by_cases hac : a = ca
      · rw [hac, update_self, update_self]
      · rw [update_of_ne fun ho => hac (CachePage.address_ext hpa ho), update_of_ne hac, hpa, contents_of_some B hm]
    · rw [update_of_ne hpa, update_of_ne fun hac : a = ca => hpa (hac ▸ rfl)]

/-! ## Sequences -/

/-- The writes as they show: without hashes of missing locations. -/
def shown (l : Bindings) : Bindings :=
  l.map fun p => (p.1, p.2.fixup)

theorem shown_of_fixed (h : ∀ p ∈ l, p.2.fixup = p.2) : shown l = l := by
  conv_rhs => rw [← map_id l]
  exact map_congr_left fun p hp => by rw [h p hp]; rfl

theorem Cache.linked (hB : B.Lawful) (h : Linked B s) (hc : Cache B s l s') :
    Linked B s' ∧ s'.locationOf B = replay (s.locationOf B) (shown l) := by
  induction hc with
  | refl => exact ⟨h, rfl⟩
  | internal _ hi ih =>
    obtain ⟨h1, h2⟩ := hi.linked B hB ih.1
    exact ⟨h1, h2.trans ih.2⟩
  | write loc _ hm ih =>
    obtain ⟨h1, h2⟩ := ih.1.write B loc hm
    refine ⟨h1, ?_⟩
    rw [h2, ih.2, shown, shown, map_append, replay_append]
    rfl

/-- What the cache leaves alone. -/
structure Frame (s s' : CachedMetaDataStore page_bits β) : Prop where
  corks : s'.corks_ = s.corks_
  cork_uuid : s'.cork_uuid_ = s.cork_uuid_
  scrub_id : s'.scrub_id_ = s.scrub_id_
  lastCork : B.lastCorkUUID s'.backend_ = B.lastCorkUUID s.backend_
  parent : B.pageExistsInParent s'.backend_ = B.pageExistsInParent s.backend_
  failed : s'.failed_ = s.failed_

theorem Frame.refl : Frame B s s := ⟨rfl, rfl, rfl, rfl, rfl, rfl⟩

theorem Frame.trans (h : Frame B s s') (h' : Frame B s' s'') : Frame B s s'' :=
  ⟨h'.corks.trans h.corks, h'.cork_uuid.trans h.cork_uuid, h'.scrub_id.trans h.scrub_id, h'.lastCork.trans h.lastCork,
    h'.parent.trans h.parent, h'.failed.trans h.failed⟩

theorem Internal.frame (hB : B.Lawful) (h : Internal B s s') : Frame B s s' := by
  cases h with
  | put _ hc => exact ⟨rfl, rfl, rfl, (hB.put hc).2.2, (hB.put hc).2.1, rfl⟩
  | discard _ _ hp hc => exact ⟨rfl, rfl, rfl, (hB.discard hc hp).2.2, (hB.discard hc hp).2.1, rfl⟩
  | touch | evict | load | slots => exact ⟨rfl, rfl, rfl, rfl, rfl, rfl⟩

theorem Cache.frame (hB : B.Lawful) (h : Cache B s l s') : Frame B s s' := by
  induction h with
  | refl => exact Frame.refl B
  | internal _ hi ih => exact ih.trans B (hi.frame B hB)
  | write loc _ _ ih => exact ih.trans B ⟨rfl, rfl, rfl, rfl, rfl, rfl⟩

/-! ## The loops of the store -/

/-- An invariant of the store, kept by writes of the addresses in `W`, under which the backend takes
every page it is given. -/
structure Keeps (W : ClusterAddress → Prop) (I : CachedMetaDataStore page_bits β → Prop) : Prop where
  linked : ∀ {s}, I s → Linked B s
  put : ∀ {s i}, I s → i ∈ s.page_list_ → ∃ b, B.putPage s.backend_ (s.pages_ i) (s.delta i) = .ok b
  discard : ∀ {s i}, I s → i ∈ s.page_list_ → (s.pages_ i).empty = true →
    B.pageExistsInParent s.backend_ (s.pages_ i).page_address = false →
    ∃ b, B.discardPage s.backend_ (s.pages_ i) (s.delta i) = .ok b
  internal : ∀ {s s'}, I s → Internal B s s' → I s'
  write : ∀ {s i ca} (loc), W ca → I s → s.page_map_ (pageAddress page_bits ca) = some i →
    I (s.write i ca loc)

variable {B} {W : ClusterAddress → Prop} {I : CachedMetaDataStore page_bits β → Prop}

theorem Keeps.cache (hI : Keeps B W I) (h : I s) (hc : Cache B s l s') (hw : ∀ p ∈ l, W p.1) : I s' := by
  induction hc with
  | refl => exact h
  | internal _ hi ih => exact hI.internal (ih hw) hi
  | write loc _ hm ih =>
    exact hI.write loc (hw _ (mem_append_right _ (mem_singleton_self _)))
      (ih fun p hp => hw p (mem_append_left _ hp)) hm

theorem Keeps.cache_nil (hI : Keeps B W I) (h : I s) (hc : Cache B s [] s') : I s' :=
  hI.cache h hc (by simp)

theorem dispose_page_ok {dispose : β → CachePage page_bits → Int → Except Exn β}
    (h : dispose s.backend_ (s.pages_ i) (s.delta i) = .ok b) : s.dispose_page dispose i = .ok (s.disposed i b) := by
  unfold dispose_page
  rw [h]; rfl

theorem maybeWritePage_clean (hd : (s.pages_ i).dirty = false) :
    maybeWritePage_locked_context B s i ie = .ok (s, false) := by
  unfold maybeWritePage_locked_context
  rw [if_neg (by simp [hd])]

theorem maybeWritePage_put (hd : (s.pages_ i).dirty = true)
    (he : (s.pages_ i).empty = true → B.pageExistsInParent s.backend_ (s.pages_ i).page_address = true)
    (hb : B.putPage s.backend_ (s.pages_ i) (s.delta i) = .ok b) :
    maybeWritePage_locked_context B s i ie = .ok (s.disposed i b, true) := by
  unfold maybeWritePage_locked_context possibly_discard_page_
  rw [if_pos hd]
  by_cases h : (s.pages_ i).empty = true
  · simp [h, he h, dispose_page_ok hb, pure, Except.pure]
  · simp [h, dispose_page_ok hb, pure, Except.pure]

theorem maybeWritePage_discard (hd : (s.pages_ i).dirty = true) (he : (s.pages_ i).empty = true)
    (hp : B.pageExistsInParent s.backend_ (s.pages_ i).page_address = false)
    (hb : B.discardPage s.backend_ (s.pages_ i) (s.delta i) = .ok b) :
    maybeWritePage_locked_context B s i ie = .ok (s.disposed i b, false) := by
  unfold maybeWritePage_locked_context possibly_discard_page_
  rw [if_pos hd]
  simp [he, hp, dispose_page_ok hb, pure, Except.pure]

/-- A page in the cache is clean after the attempt to write it. An eviction unlinks the page first,
which makes no difference. -/
theorem Keeps.maybeWritePage (hI : Keeps B W I) (h : I s) (hi : i ∈ s.page_list_) (ie : Bool) :
    ∃ s' r, maybeWritePage_locked_context B s i ie = .ok (s', r) ∧
      maybeWritePage_locked_context B (s.unlink i) i ie = .ok (s'.unlink i, r) ∧
      Cache B s [] s' ∧ WroteOut [i] s s' := by
  have hunlink : ∀ b, (s.disposed i b).unlink i = (s.unlink i).disposed i b := fun b => by
    unfold unlink
    rw [disposed_address]; rfl
  cases hd : (s.pages_ i).dirty with
  | false => exact ⟨s, false, maybeWritePage_clean hd, maybeWritePage_clean hd, .refl,
      ⟨rfl, rfl, rfl, rfl, fun j hj => hj.elim id fun hj => mem_singleton.1 hj ▸ hd⟩⟩
  | true =>
    by_cases he : (s.pages_ i).empty = true → B.pageExistsInParent s.backend_ (s.pages_ i).page_address = true
    · obtain ⟨b, hb⟩ := hI.put h hi
      refine ⟨s.disposed i b, true, maybeWritePage_put hd he hb, ?_, .internal .refl (.put hi hb), disposed_wroteOut⟩
      rw [hunlink]; exact maybeWritePage_put (s := s.unlink i) hd he hb
    · simp only [Classical.not_imp, Bool.not_eq_true] at he
      obtain ⟨b, hb⟩ := hI.discard h hi he.1 he.2
      refine ⟨s.disposed i b, false, maybeWritePage_discard hd he.1 he.2 hb, ?_,
        .internal .refl (.discard hi he.1 he.2 hb), disposed_wroteOut⟩
      rw [hunlink]; exact maybeWritePage_discard (s := s.unlink i) hd he.1 he.2 hb

theorem Keeps.get_page (hI : Keeps B W I) (h : I s) (hs : Slots s) (ca : ClusterAddress) :
    ∃ s' i, get_page_ B s ca = .ok (s', i) ∧ Cache B s [] s' ∧ Slots s' ∧
      s'.page_map_ (pageAddress page_bits ca) = some i := by
  have hl := hI.linked h
  unfold get_page_
  cases hm : s.page_map_ (pageAddress page_bits ca) with
  | some i =>
    have hi := ((hl.map _ _).1 hm).1
    refine ⟨_, i, by simp [hm, pure, Except.pure], .internal .refl (.touch hi), ⟨hs.size, hs.num, fun j => ?_⟩, hm⟩
    change j ∈ s.page_list_.erase i ++ [i] ↔ j < s.num_pages_
    rw [← hs.used j, mem_append, mem_singleton, hl.nodup.mem_erase_iff]
    grind
  | none =>
    by_cases hn : s.num_pages_ < s.pages_size
    · -- a slot that was never used
      have hfree : s.num_pages_ ∉ s.page_list_ := fun hm => Nat.lt_irrefl _ ((hs.used _).1 hm)
      refine ⟨load B s _ s.num_pages_, s.num_pages_, by simp [hm, hn, pure, Except.pure],
        .internal .refl (.load hfree hm), ⟨hs.size, hn, fun j => ?_⟩, by simp [load]⟩
      change j ∈ s.page_list_ ++ [s.num_pages_] ↔ j < s.num_pages_ + 1
      rw [mem_append, mem_singleton, hs.used j]
      omega
    · -- the least recently used page makes room
      have hfull : s.num_pages_ = s.pages_size := le_antisymm hs.num (not_lt.1 hn)
      cases hlist : s.page_list_ with
      | nil =>
        have := (hs.used 0).2 (by rw [hfull]; exact hs.size)
        rw [hlist] at this; cases this
      | cons i rest =>
        have hi : i ∈ s.page_list_ := by rw [hlist]; exact mem_cons_self ..
        obtain ⟨s', r, _, hw, hc, e1, e2, e3, e4, hd⟩ := hI.maybeWritePage h hi false
        have hl' := hI.linked (hI.cache_nil h hc)
        have hc' := Cache.internal hc (.evict (e1 ▸ hi) (hd i (by simp)))
        have hfree : i ∉ (s'.unlink i).page_list_ := hl'.nodup.not_mem_erase
        have hnew : (s'.unlink i).page_map_ (pageAddress page_bits ca) = none := by
          simp only [unlink, update_apply, e2, hm, ite_self]
        refine ⟨load B (s'.unlink i) _ i, i, ?_, .internal hc' (.load hfree hnew), ⟨?_, ?_, fun j => ?_⟩,
          by simp [load]⟩
        · simp [hm, hn, hw, pure, Except.pure]
        · change 0 < s'.pages_size
          rw [e4]; exact hs.size
        · change s'.num_pages_ - 1 + 1 ≤ s'.pages_size
          have := hs.size
          omega
        · change j ∈ s'.page_list_.erase i ++ [i] ↔ j < s'.num_pages_ - 1 + 1
          have := hs.size
          rw [mem_append, mem_singleton, hl'.nodup.mem_erase_iff, e1, hs.used j, e3, Nat.sub_add_cancel (by omega)]
          have := (hs.used i).1 hi
          grind

theorem Slots.write (hs : Slots s) (i : Nat) (ca : ClusterAddress) (loc : ClusterLocationAndHash) :
    Slots (s.write i ca loc) := { hs with }

theorem Keeps.get_cluster_location_write (hI : Keeps B W I) (h : I s) (hs : Slots s) (ca : ClusterAddress)
    (loc : ClusterLocationAndHash) :
    ∃ s', get_cluster_location_ B s ca loc true = .ok (s', loc) ∧ Cache B s [(ca, loc)] s' ∧ Slots s' := by
  obtain ⟨s₁, i, h1, hc, hs₁, hm⟩ := hI.get_page h hs ca
  refine ⟨s₁.write i ca loc, ?_, .write loc hc hm, hs₁.write i ca loc⟩
  unfold get_cluster_location_ get_cluster_location_unlocked_
  rw [h1]; rfl

theorem Keeps.get_cluster_location_read (hI : Keeps B W I) (hB : B.Lawful) (h : I s) (hs : Slots s)
    (ca : ClusterAddress) (loc : ClusterLocationAndHash) :
    ∃ s' r, get_cluster_location_ B s ca loc false = .ok (s', r) ∧ Cache B s [] s' ∧ Slots s' ∧
      r.fixup = s.locationOf B ca := by
  obtain ⟨s₁, i, h1, hc, hs₁, hm⟩ := hI.get_page h hs ca
  refine ⟨s₁, (s₁.pages_ i).data (offset page_bits ca), ?_, hc, hs₁, ?_⟩
  · unfold get_cluster_location_ get_cluster_location_unlocked_
    rw [h1]; rfl
  · have hloc : s₁.locationOf B = s.locationOf B := (hc.linked B hB (hI.linked h)).2
    rw [← congrFun hloc ca, locationOf, contents_of_some B hm]

theorem Keeps.readCluster (hI : Keeps B W I) (hB : B.Lawful) (h : I s) (hs : Slots s) (ca : ClusterAddress) :
    ∃ s', readCluster B s ca = .ok (s', (corked s.corks_ ca).getD (s.locationOf B ca)) ∧ Cache B s [] s' ∧
      Slots s' := by
  unfold CachedMetaDataStore.readCluster
  cases corked s.corks_ ca with
  | some loc => exact ⟨s, rfl, .refl, hs⟩
  | none =>
    obtain ⟨s', r, h1, hc, hs', hr⟩ := hI.get_cluster_location_read hB h hs ca .zero
    refine ⟨s', ?_, hc, hs'⟩
    simp only [h1, ok_bind, Option.getD_none, hr]
    rfl

theorem Keeps.writeAll (hI : Keeps B W I) : ∀ (l : Bindings)
    {s : CachedMetaDataStore page_bits β}, (∀ p ∈ l, W p.1) → I s → Slots s →
    ∃ s', writeAll B s l = .ok s' ∧ Cache B s l s' ∧ Slots s'
  | [], s, _, _, hs => ⟨s, rfl, .refl, hs⟩
  | p :: l, s, hw, h, hs => by
    obtain ⟨s₁, h1, hc₁, hs₁⟩ := hI.get_cluster_location_write h hs p.1 p.2
    have hp : I s₁ := hI.cache h hc₁ (by simpa using hw p (mem_cons_self ..))
    obtain ⟨s', h2, hc₂, hs₂⟩ := hI.writeAll l (fun q hq => hw q (mem_cons_of_mem _ hq)) hp hs₁
    refine ⟨s', ?_, hc₁.trans B hc₂, hs₂⟩
    unfold CachedMetaDataStore.writeAll at h2 ⊢
    rw [foldlM_cons, h1]
    exact h2

theorem Keeps.foldPages (hI : Keeps B W I) {w : Nat → List Nat}
    {f : CachedMetaDataStore page_bits β → Nat → Result page_bits β (CachedMetaDataStore page_bits β)}
    (hf : ∀ {s i}, I s → i ∈ s.page_list_ → ∃ s', f s i = .ok s' ∧ Cache B s [] s' ∧ WroteOut (w i) s s') :
    ∀ (l : List Nat) {s : CachedMetaDataStore page_bits β}, I s → (∀ i ∈ l, i ∈ s.page_list_) →
      ∃ s', l.foldlM f s = .ok s' ∧ Cache B s [] s' ∧ WroteOut (l.flatMap w) s s'
  | [], s, _, _ => ⟨s, rfl, .refl, .refl⟩
  | i :: l, s, h, hl => by
    obtain ⟨s₁, h1, hc₁, hw₁⟩ := hf h (hl i (mem_cons_self ..))
    obtain ⟨s', h2, hc₂, hw₂⟩ := hI.foldPages hf l (hI.cache_nil h hc₁) fun j hj => by
      rw [hw₁.list]; exact hl j (mem_cons_of_mem _ hj)
    exact ⟨s', by rw [foldlM_cons, h1]; exact h2, hc₁.internal_trans B hc₂, hw₁.trans hw₂⟩

theorem Keeps.maybeWritePages (hI : Keeps B W I) (h : I s) :
    ∃ s', maybeWritePages B s s.page_list_ = .ok s' ∧ Cache B s [] s' ∧ WroteOut s.page_list_ s s' := by
  refine (hI.foldPages (w := fun i => [i]) (fun h hi => ?_) s.page_list_ h fun _ hi => hi).imp fun s' ⟨h1, hc, hw⟩ =>
    ⟨h1, hc, by rwa [flatMap_singleton'] at hw⟩
  obtain ⟨s', r, h1, -, hc, hw⟩ := hI.maybeWritePage h hi false
  exact ⟨s', by rw [h1]; rfl, hc, hw⟩

theorem Slots.length (hs : Slots s) (hn : s.page_list_.Nodup) : s.page_list_.length = s.num_pages_ := by
  have : s.page_list_.Perm (List.range s.num_pages_) :=
    (perm_ext_iff_of_nodup hn nodup_range).2 fun i => by rw [hs.used i, mem_range]
  simpa using this.length_eq

theorem Slots.foldUnlink {J : CachedMetaDataStore page_bits β → Prop}
    {f : CachedMetaDataStore page_bits β → Nat → Result page_bits β (CachedMetaDataStore page_bits β)}
    (hf : ∀ {s i}, J s → i ∈ s.page_list_ → ∃ s', f s i = .ok s' ∧ J s' ∧ s'.page_list_ = s.page_list_.erase i ∧
      s'.num_pages_ = s.num_pages_ - 1) (hs : Slots s) (hn : s.page_list_.Nodup) (h : J s) :
    ∃ s', s.page_list_.foldlM f s = .ok s' ∧ J s' ∧ s'.page_list_ = [] ∧ s'.num_pages_ = 0 := by
  have key : ∀ (l : List Nat) {s : CachedMetaDataStore page_bits β}, J s → s.page_list_ = l → l.length = s.num_pages_ →
      ∃ s', l.foldlM f s = .ok s' ∧ J s' ∧ s'.page_list_ = [] ∧ s'.num_pages_ = 0 := by
    intro l
    induction l with
    | nil => exact fun h hl hn => ⟨_, rfl, h, hl, hn.symm⟩
    | cons i l ih =>
      intro s h hl hn
      obtain ⟨s₁, h1, hj, e1, e2⟩ := hf h (by rw [hl]; exact mem_cons_self ..)
      obtain ⟨s', h2, hrest⟩ := ih hj (by rw [e1, hl, erase_cons_head]) (by rw [e2, ← hn]; rfl)
      exact ⟨s', by rw [foldlM_cons, h1]; exact h2, hrest⟩
  exact key _ h rfl (hs.length hn)

theorem Keeps.clear (hI : Keeps B W I) (h : I s) (hs : Slots s) (ie : Bool) :
    ∃ s', do_write_dirty_pages_to_backend_and_clear_page_list B s true ie = .ok s' ∧ Cache B s [] s' ∧
      s'.page_list_ = [] ∧ Slots s' := by
  obtain ⟨s₁, h1, ⟨hc, e3⟩, e1, e2⟩ := hs.foldUnlink (J := fun s' => Cache B s [] s' ∧ s'.pages_size = s.pages_size)
    (f := fun s i => maybeWritePage_locked_context B (s.unlink i) i ie >>= fun r => pure r.1) (fun {s₁ i} hs₁ hi => by
    obtain ⟨hc, hsize⟩ := hs₁
    obtain ⟨s', r, _, h1, hc', hw⟩ := hI.maybeWritePage (hI.cache_nil h hc) hi ie
    have hc' := (hc.internal_trans B hc').internal (.evict (hw.list ▸ hi) (hw.clean i (by simp)))
    refine ⟨s'.unlink i, by rw [h1]; rfl, ⟨hc', hw.size.trans hsize⟩, ?_, ?_⟩
    · change s'.page_list_.erase i = _
      rw [hw.list]
    · change s'.num_pages_ - 1 = _
      rw [hw.num]) (hI.linked h).nodup ⟨.refl, rfl⟩
  have hslots : Internal B s₁ { s₁ with pages_ := fun i => { s₁.pages_ i with data := reset page_bits } } := by
    refine Internal.slots s₁.pages_size fun i hi => ?_
    rw [e1] at hi; cases hi
  refine ⟨_, ?_, .internal hc hslots, e1, ⟨?_, ?_, fun i => ?_⟩⟩
  · unfold do_write_dirty_pages_to_backend_and_clear_page_list
    simp only [if_true]
    rw [h1]; rfl
  · change 0 < s₁.pages_size
    rw [e3]; exact hs.size
  · change s₁.num_pages_ ≤ s₁.pages_size
    omega
  · change i ∈ s₁.page_list_ ↔ i < s₁.num_pages_
    rw [e1, e2]; simp

theorem Keeps.set_cache_capacity (hI : Keeps B W I) (h : I s) (hs : Slots s) {n : Nat} (hn : 0 < n) :
    ∃ s', set_cache_capacity B s n = .ok s' ∧ Cache B s [] s' ∧ Slots s' := by
  unfold CachedMetaDataStore.set_cache_capacity CachedMetaDataStore.VERIFY
  rw [verify_of hn, ok_bind]
  split
  · obtain ⟨s₁, h1, hc, e1, hs₁⟩ := hI.clear h hs true
    refine ⟨_, by rw [h1]; rfl, .internal hc (.slots n fun i hi => ?_), ⟨hn, ?_, hs₁.used⟩⟩
    · rw [e1] at hi; cases hi
    · have hl := hs₁.length (hI.linked (hI.cache_nil h hc)).nodup
      change s₁.num_pages_ ≤ n
      rw [← hl, e1]; exact Nat.zero_le _
  · exact ⟨s, rfl, .refl, hs⟩

/-- Uncorking writes the oldest cork's entries, then every dirty page, then the cork. -/
theorem Keeps.unCork (hI : Keeps B W I) (h : I s) (hs : Slots s) {front second : UUID × CaLocMap}
    {rest : List (UUID × CaLocMap)} (he : s.corks_ = front :: second :: rest) {cork : Option UUID}
    (hf : ∀ c, cork = some c → front.1 = c) (hw : ∀ p ∈ front.2.toList, W p.1)
    (hcork : ∀ {s} u, I s → ∃ b', B.setCork s.backend_ u = .ok b') :
    ∃ s₂ b, unCork B s cork = .ok { s₂ with backend_ := b, cork_uuid_ := some front.1, corks_ := second :: rest } ∧
      Cache B s front.2.toList s₂ ∧ Slots s₂ ∧ (∀ i ∈ s₂.page_list_, (s₂.pages_ i).dirty = false) ∧
      B.setCork s₂.backend_ front.1 = .ok b := by
  have hverify : s.verifyFront cork = .ok () := by
    cases cork with
    | none => rfl
    | some c =>
      unfold verifyFront CachedMetaDataStore.VERIFY
      simp [he, hf c rfl, verify]
  obtain ⟨s₁, h1, hc₁, hs₁⟩ := hI.writeAll front.2.toList hw h hs
  obtain ⟨s₂, h2, hc₂, hw₂⟩ := hI.maybeWritePages (hI.cache h hc₁ hw)
  obtain ⟨b, hb⟩ := hcork front.1 (hI.cache_nil (hI.cache h hc₁ hw) hc₂)
  refine ⟨s₂, b, ?_, by simpa using hc₁.trans B hc₂, hs₁.wroteOut hw₂,
    fun i hi => hw₂.clean i (.inr (hw₂.list ▸ hi)), hb⟩
  unfold CachedMetaDataStore.unCork
  rw [hverify, ok_bind, he]
  simp only [h1, h2, ok_bind, call, hb, Except.mapError]
  rfl

theorem keeps_linked (hB : B.Lawful) (hN : B.NonFailing) : Keeps B (fun _ => True) (Linked B) where
  linked := id
  put := fun _ _ => hN.put ..
  discard := fun _ _ _ _ => hN.discard ..
  internal := fun h hi => (hi.linked B hB h).1
  write := fun loc _ h hm => (h.write B loc hm).1

theorem create_ok {capacity : Nat} (hc : 0 < capacity) :
    ∃ s, create B b capacity = .ok s ∧ Linked B s ∧ Slots s ∧ s.corks_ = [] ∧ s.cork_uuid_ = B.lastCorkUUID b ∧
      s.backend_ = b ∧ s.page_map_ = fun _ => none := by
  unfold create
  rw [VERIFY_of hc]
  refine ⟨_, rfl, ⟨nodup_nil, ?_, ?_⟩, ⟨hc, Nat.zero_le _, ?_⟩, rfl, rfl, rfl, rfl⟩ <;> simp

end CachedMetaDataStore

end VolumeDriver
