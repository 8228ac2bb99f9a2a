/-
The number of used clusters. It is kept in several places: two totals and two counters per page in
the cache, a member and a record of the metadata server's backend. Together they count the
addresses that have a location, as long as no page is dropped with its counters standing.
-/
import VolumeDriver.MetaData.Operations
import VolumeDriver.MetaData.MDS
import Mathlib.Data.Set.Card

namespace VolumeDriver

open Lib Function
open CachePage CachedMetaDataStore

/-! ## Counting locations -/

section Count

variable {page_bits : Nat}

/-- The number of locations in a page. -/
def CachePage.count (d : PageData page_bits) : Nat := (Finset.univ.filter fun k => (d k).isNull = false).card

/-- The addresses that have a location in some pages. -/
def locations (pages : PageAddress → PageData page_bits) : Set ClusterAddress :=
  { ca | (pages (pageAddress page_bits ca) (offset page_bits ca)).isNull = false }

variable {pages : PageAddress → PageData page_bits}

theorem CachePage.reset_isNull (k : Fin (2 ^ page_bits)) : (reset page_bits k).isNull = true := rfl

theorem CachePage.count_eq_zero {d : PageData page_bits} (h : ∀ k, (d k).isNull = true) : count d = 0 :=
  Finset.card_eq_zero.2 (Finset.filter_eq_empty_iff.2 fun k _ => by rw [h k]; decide)

theorem CachePage.count_update (d : PageData page_bits) (k : Fin (2 ^ page_bits)) (loc : ClusterLocationAndHash) :
    count (update d k loc) + (if (d k).isNull = false ∧ loc.isNull = true then 1 else 0) =
      count d + (if (d k).isNull = true ∧ loc.isNull = false then 1 else 0) := by
  have hsplit : ∀ e : PageData page_bits, count e =
      ((Finset.univ.erase k).filter fun j => (e j).isNull = false).card + if (e k).isNull = false then 1 else 0 := by
    intro e
    unfold count
    conv_lhs => rw [← Finset.insert_erase (Finset.mem_univ k), Finset.filter_insert]
    split
    · rw [Finset.card_insert_of_notMem (by simp)]
    · rfl
  have hrest : ((Finset.univ.erase k).filter fun j => (update d k loc j).isNull = false) =
      (Finset.univ.erase k).filter fun j => (d j).isNull = false :=
    Finset.filter_congr fun j hj => by rw [update_of_ne (Finset.ne_of_mem_erase hj)]
  rw [hsplit d, hsplit (update d k loc), hrest, update_self]
  cases (d k).isNull <;> cases loc.isNull <;> simp

theorem CachePage.clusterAddress_add_offset (ca : ClusterAddress) :
    clusterAddress page_bits (pageAddress page_bits ca) + offset page_bits ca = ca :=
  @address_ext page_bits _ _ (pageAddress_add _ _) (offset_add _ _)

theorem locations_page (pages : PageAddress → PageData page_bits) (pa : PageAddress) :
    { ca ∈ locations pages | pageAddress page_bits ca = pa } =
      Set.image (fun k : Fin (2 ^ page_bits) => clusterAddress page_bits pa + (k : Nat))
        ↑(Finset.univ.filter fun k => (pages pa k).isNull = false) := by
  ext ca
  simp only [locations, Set.mem_ofPred_eq, Set.mem_image, Finset.coe_filter, Finset.mem_univ, true_and]
  constructor
  · rintro ⟨h, rfl⟩
    exact ⟨offset page_bits ca, h, clusterAddress_add_offset ca⟩
  · rintro ⟨k, h, rfl⟩
    rw [pageAddress_add, offset_add]
    exact ⟨h, rfl⟩

theorem ncard_locations_page (pages : PageAddress → PageData page_bits) (pa : PageAddress) :
    { ca ∈ locations pages | pageAddress page_bits ca = pa }.ncard = count (pages pa) := by
  rw [locations_page, Set.ncard_image_of_injective _ fun a b h => Fin.ext (Nat.add_left_cancel h), Set.ncard_coe_finset]
  rfl

theorem finite_locations_page (pages : PageAddress → PageData page_bits) (pa : PageAddress) :
    { ca ∈ locations pages | pageAddress page_bits ca = pa }.Finite := by
  rw [locations_page]
  exact (Finset.finite_toSet _).image _

theorem ncard_locations (pages : PageAddress → PageData page_bits) (pa : PageAddress)
    (hfin : { ca ∈ locations pages | pageAddress page_bits ca ≠ pa }.Finite) :
    (locations pages).Finite ∧ (locations pages).ncard =
      { ca ∈ locations pages | pageAddress page_bits ca ≠ pa }.ncard + count (pages pa) := by
  have hunion : locations pages = { ca ∈ locations pages | pageAddress page_bits ca ≠ pa } ∪
      { ca ∈ locations pages | pageAddress page_bits ca = pa } := by
    ext ca
    by_cases h : pageAddress page_bits ca = pa <;> simp [h]
  have hdisj : Disjoint { ca ∈ locations pages | pageAddress page_bits ca ≠ pa }
      { ca ∈ locations pages | pageAddress page_bits ca = pa } :=
    Set.disjoint_left.2 fun ca h h' => h.2 h'.2
  refine ⟨hunion ▸ hfin.union (finite_locations_page pages pa), ?_⟩
  conv_lhs => rw [hunion]
  rw [Set.ncard_union_eq hdisj hfin (finite_locations_page pages pa), ncard_locations_page]

theorem ncard_locations_update (hfin : (locations pages).Finite) (pa : PageAddress) (d : PageData page_bits) :
    (locations (update pages pa d)).Finite ∧
      ((locations (update pages pa d)).ncard : Int) = (locations pages).ncard + (count d - count (pages pa)) := by
  have hrest : { ca ∈ locations (update pages pa d) | pageAddress page_bits ca ≠ pa } =
      { ca ∈ locations pages | pageAddress page_bits ca ≠ pa } := by
    ext ca
    refine and_congr_left fun h => ?_
    unfold locations
    rw [Set.mem_ofPred_eq, Set.mem_ofPred_eq, update_of_ne h]
  have hfin' := hfin.subset (Set.sep_subset _ fun ca => pageAddress page_bits ca ≠ pa)
  obtain ⟨-, h1⟩ := ncard_locations pages pa hfin'
  obtain ⟨hf, h2⟩ := ncard_locations (update pages pa d) pa (hrest ▸ hfin')
  refine ⟨hf, ?_⟩
  rw [hrest, update_self] at h2
  omega

theorem finite_locations {ps : Set PageAddress} (hps : ps.Finite)
    (h : ∀ pa, pa ∉ ps → pages pa = reset page_bits) : (locations pages).Finite := by
  refine (hps.biUnion fun pa _ => finite_locations_page pages pa).subset fun ca hca => ?_
  refine Set.mem_biUnion (x := pageAddress page_bits ca) ?_ ⟨hca, rfl⟩
  by_contra hn
  have : (pages (pageAddress page_bits ca) (offset page_bits ca)).isNull = false := hca
  rw [h _ hn, reset_isNull] at this
  cases this

theorem locations_reset : locations (fun _ => reset page_bits) = ∅ :=
  Set.eq_empty_of_forall_notMem fun ca (h : (reset page_bits _).isNull = false) => by
    rw [reset_isNull] at h; cases h

end Count

/-! ## The counters -/

namespace CachedMetaDataStore

open MDSMetaDataBackend (backend)

/-- A store over the table of a metadata server. -/
abbrev OnTable (page_bits : Nat) := CachedMetaDataStore page_bits (MDSMetaDataBackend page_bits)

variable {page_bits : Nat} {s s' : OnTable page_bits}

/-- The addresses with a location, in the cache or else in the table. -/
def effective (s : OnTable page_bits) : Set ClusterAddress :=
  locations (s.contents (backend page_bits))

/-- The addresses with a location in the table. -/
def inTable (b : MDSMetaDataBackend page_bits) : Set ClusterAddress := locations ((backend page_bits).stored b)

/-- All counters are right: those of a page count what the table does not have of it yet, the totals
what the table does not have at all. -/
structure Counted (s : OnTable page_bits) : Prop where
  linked : Linked (backend page_bits) s
  owner : s.backend_.owner_tag_ ≠ none
  finite : (effective s).Finite
  table_finite : (inTable s.backend_).Finite
  total : used_clusters (backend page_bits) s = (effective s).ncard
  table : s.backend_.used_clusters_ = (inTable s.backend_).ncard
  record : s.backend_.table_.used_clusters.getD 0 = s.backend_.used_clusters_
  pages : ∀ i ∈ s.page_list_, s.delta i = (count (s.pages_ i).data : Int) -
    count ((backend page_bits).stored s.backend_ (s.pages_ i).page_address)
  failed : s.failed_ = []

theorem effective_eq (s : OnTable page_bits) :
    effective s = { ca | (s.locationOf (backend page_bits) ca).isNull = false } := by
  unfold effective locations locationOf
  simp only [ClusterLocationAndHash.isNull_fixup]

theorem effective_congr (h : s'.locationOf (backend page_bits) = s.locationOf (backend page_bits)) :
    effective s' = effective s := by
  rw [effective_eq, effective_eq, h]

/-- Handing a page over moves its counters from the cache to the table; the sum it is added to there
cannot get negative, being a number of locations. -/
theorem Counted.dispose (h : Counted s) {i : Nat} (hi : i ∈ s.page_list_) {d : PageData page_bits}
    (hd : count d = count (s.pages_ i).data) :
    0 ≤ (s.backend_.used_clusters_ : Int) + s.delta i ∧
      ∀ {b : MDSMetaDataBackend page_bits}, (b.used_clusters_ : Int) = s.backend_.used_clusters_ + s.delta i →
        (backend page_bits).stored b = update ((backend page_bits).stored s.backend_) (s.pages_ i).page_address d →
        b.table_.used_clusters = some b.used_clusters_ → b.owner_tag_ = s.backend_.owner_tag_ →
        Internal (backend page_bits) s (s.disposed i b) → Counted (s.disposed i b) := by
  obtain ⟨hfin, hcard⟩ := ncard_locations_update h.table_finite (s.pages_ i).page_address d
  have hsum : (s.backend_.used_clusters_ : Int) + s.delta i = (locations (update
      ((backend page_bits).stored s.backend_) (s.pages_ i).page_address d)).ncard := by
    rw [hcard, h.pages i hi, h.table, hd]; rfl
  refine ⟨by rw [hsum]; exact Int.natCast_nonneg _, fun {b} hu hst hrec howner hint => ?_⟩
  obtain ⟨hl, hloc⟩ := hint.linked _ (MDSMetaDataBackend.backend_lawful page_bits) h.linked
  refine ⟨hl, ?_, ?_, ?_, ?_, ?_, ?_, fun j hj => ?_, h.failed⟩
  · exact howner ▸ h.owner
  · rw [effective_congr hloc]; exact h.finite
  · change (locations _).Finite
    rw [show (s.disposed i b).backend_ = b from rfl, hst]; exact hfin
  · rw [effective_congr hloc, ← h.total]
    change s.written_clusters_ - _ - (s.discarded_clusters_ - _) + (b.used_clusters_ : Int) =
      s.written_clusters_ - s.discarded_clusters_ + s.backend_.used_clusters_
    rw [hu, delta]; ring
  · change b.used_clusters_ = (locations _).ncard
    rw [show (s.disposed i b).backend_ = b from rfl, hst]
    exact Int.natCast_inj.1 (hu.trans hsum)
  · change b.table_.used_clusters.getD 0 = b.used_clusters_
    rw [hrec]; rfl
  · rw [disposed_address, disposed_data, show (s.disposed i b).backend_ = b from rfl, hst, delta, disposed_page]
    by_cases hji : j = i
    · subst hji
      rw [if_pos rfl, update_self, hd]
      simp [written]
    · rw [if_neg hji, update_of_ne fun he => hji (h.linked.inj _ hj hi he)]
      exact h.pages j hj

theorem Counted.congr (h : Counted s) (hl : Linked (backend page_bits) s')
    (hloc : s'.locationOf (backend page_bits) = s.locationOf (backend page_bits)) (hb : s'.backend_ = s.backend_)
    (hw : s'.written_clusters_ = s.written_clusters_) (hd : s'.discarded_clusters_ = s.discarded_clusters_)
    (hf : s'.failed_ = s.failed_)
    (hp : ∀ i ∈ s'.page_list_, s'.delta i = (count (s'.pages_ i).data : Int) -
      count ((backend page_bits).stored s.backend_ (s'.pages_ i).page_address)) : Counted s' := by
  refine ⟨hl, hb ▸ h.owner, ?_, hb ▸ h.table_finite, ?_, hb ▸ h.table, hb ▸ h.record, hb ▸ hp, hf.trans h.failed⟩
  · rw [effective_congr hloc]; exact h.finite
  · rw [effective_congr hloc, ← h.total, used_clusters, hw, hd, hb]; rfl

theorem Counted.internal (h : Counted s) (hint : Internal (backend page_bits) s s') : Counted s' := by
  have hB := MDSMetaDataBackend.backend_lawful page_bits
  obtain ⟨hl, hloc⟩ := hint.linked _ hB h.linked
  cases hint with
  | @touch i hi =>
    refine h.congr hl hloc rfl rfl rfl rfl fun j hj => h.pages j ?_
    rcases List.mem_append.1 hj with hj | hj
    · exact List.mem_of_mem_erase hj
    · rw [List.mem_singleton.1 hj]; exact hi
  | @put i b hi hc =>
    obtain ⟨hu, -, hrec, howner, -⟩ := MDSMetaDataBackend.setPage_ok hc
    exact (h.dispose hi rfl).2 hu (hB.put hc).1 hrec howner (.put hi hc)
  | @discard i b hi he hp hc =>
    obtain ⟨hu, -, hrec, howner, -⟩ := MDSMetaDataBackend.setPage_ok hc
    refine (h.dispose hi ?_).2 hu (hB.discard hc hp).1 hrec howner (.discard hi he hp hc)
    rw [count_eq_zero reset_isNull, count_eq_zero (of_decide_eq_true he)]
  | @evict i hi hc => exact h.congr hl hloc rfl rfl rfl rfl fun j hj => h.pages j (List.mem_of_mem_erase hj)
  | @load pa i hi hn =>
    refine h.congr hl hloc rfl rfl rfl rfl fun j hj => ?_
    by_cases hji : j = i
    · subst hji
      simp [load, delta, setPage]
    · have hj : j ∈ s.page_list_ := by simpa [load, hji] using hj
      have hpage : (load (backend page_bits) s pa i).pages_ j = s.pages_ j := by
        simp [load, setPage, hji]
      rw [delta, hpage]
      exact h.pages j hj
  | @slots f n hu =>
    refine h.congr hl hloc rfl rfl rfl rfl fun j hj => ?_
    have hpage : ({ s with pages_ := f, pages_size := n } : OnTable page_bits).pages_ j = s.pages_ j := hu j hj
    rw [delta, hpage]
    exact h.pages j hj

theorem Counted.write (h : Counted s) {i : Nat} {ca : ClusterAddress} (loc : ClusterLocationAndHash)
    (hm : s.page_map_ (pageAddress page_bits ca) = some i) : Counted (s.write i ca loc) := by
  obtain ⟨hfin, hcard⟩ := ncard_locations_update h.finite (pageAddress page_bits ca)
    (update (s.pages_ i).data (offset page_bits ca) loc)
  rw [← h.linked.contents_write _ loc hm, contents_of_some _ hm] at hcard
  rw [← h.linked.contents_write _ loc hm] at hfin
  have hcount := count_update (s.pages_ i).data (offset page_bits ca) loc
  have htotal := h.total
  refine ⟨(h.linked.write _ loc hm).1, h.owner, hfin, h.table_finite, ?_, h.table, h.record, fun j hj => ?_, h.failed⟩
  · unfold effective
    rw [hcard]
    unfold used_clusters effective at htotal
    simp only [used_clusters, CachedMetaDataStore.write, setPage]
    omega
  · rw [write_address, write_data, delta]
    have hp := h.pages j hj
    unfold delta at hp
    by_cases hji : j = i
    · subst hji
      rw [if_pos rfl]
      simp only [CachedMetaDataStore.write, setPage, update_self]
      change _ = _ - (count ((backend page_bits).stored s.backend_ (s.pages_ j).page_address) : Int)
      omega
    · rw [if_neg hji]
      simp only [CachedMetaDataStore.write, setPage, update_of_ne hji]
      exact hp

theorem Counted.records (h : Counted s) {b : MDSMetaDataBackend page_bits}
    (hp : b.table_.pages = s.backend_.table_.pages) (hr : b.table_.used_clusters = s.backend_.table_.used_clusters)
    (hu : b.used_clusters_ = s.backend_.used_clusters_) (ho : b.owner_tag_ = s.backend_.owner_tag_) :
    Counted { s with backend_ := b } := by
  have hst : (backend page_bits).stored b = (backend page_bits).stored s.backend_ := by
    funext pa
    rw [MDSMetaDataBackend.stored_eq, MDSMetaDataBackend.stored_eq, hp]
  obtain ⟨hl, hloc⟩ := h.linked.congr _ { s with backend_ := b } rfl rfl rfl hst
  have htable : inTable b = inTable s.backend_ := by unfold inTable; rw [hst]
  refine ⟨hl, ho ▸ h.owner, ?_, ?_, ?_, ?_, ?_, fun i hi => ?_, h.failed⟩
  · rw [effective_congr hloc]; exact h.finite
  · change (inTable b).Finite
    rw [htable]; exact h.table_finite
  · rw [effective_congr hloc, ← h.total]
    change _ + (b.used_clusters_ : Int) = _
    rw [hu]; rfl
  · change b.used_clusters_ = (inTable b).ncard
    rw [htable, hu]; exact h.table
  · change b.table_.used_clusters.getD 0 = b.used_clusters_
    rw [hr, hu]; exact h.record
  · change _ = (count (s.pages_ i).data : Int) - count ((backend page_bits).stored b _)
    rw [hst]; exact h.pages i hi

theorem counted_stable : Stable (backend page_bits) Counted where
  linked := fun h => h.linked
  put := fun h hi => MDSMetaDataBackend.setPage_of_nonneg (h.dispose hi rfl).1 h.owner
  discard := fun h hi _ _ => MDSMetaDataBackend.setPage_of_nonneg (h.dispose hi rfl).1 h.owner
  internal := Counted.internal
  write := fun loc _ h hm => h.write loc hm
  setCork := fun u h =>
    ⟨_, MDSMetaDataBackend.setCork_of_owner h.owner u, h.records rfl rfl rfl rfl⟩
  set_scrub_id := fun u h =>
    ⟨_, MDSMetaDataBackend.set_scrub_id_of_owner h.owner u, h.records rfl rfl rfl rfl⟩
  frame := fun {s} corks cork_uuid scrub_id h =>
    h.congr (h.linked.congr _ { s with corks_ := corks, cork_uuid_ := cork_uuid, scrub_id_ := scrub_id }
      rfl rfl rfl rfl).1 rfl rfl rfl rfl rfl h.pages

/-! ## Runs -/

/-- What the counters promise: `used_clusters` counts the addresses that have a location, the table's
record those the table has, and the backend took every page it was given. -/
structure Exact (s : OnTable page_bits) : Prop where
  finite : (effective s).Finite
  total : used_clusters (backend page_bits) s = (effective s).ncard
  record : s.backend_.table_.used_clusters.getD 0 = (inTable s.backend_).ncard
  verified : s.failed_ = []

/-- Pages are dropped only if that does not change the number of locations, and keys cleared only if
there are no locations. -/
def Harmless (s : OnTable page_bits) : Operation → Prop
  | .clear_all_keys => effective s = ∅ ∧ inTable s.backend_ = ∅
  | .drop_cache_including_dirty_pages => (effective s).ncard = (inTable s.backend_).ncard
  | _ => True

/-- The store after some operations. -/
def operateAll (s : OnTable page_bits) (ops : List Operation) :
    OnTable page_bits :=
  ops.foldl (operate (backend page_bits)) s

/-- Every operation is harmless. -/
def HarmlessRun (s : OnTable page_bits) : List Operation → Prop
  | [] => True
  | op :: ops => Harmless s op ∧ HarmlessRun (operate (backend page_bits) s op) ops

theorem Counted.exact (h : Counted s) : Exact s :=
  ⟨h.finite, h.total, h.record.trans h.table, h.failed⟩

theorem Counted.dropped (h : Counted s) (hd : (effective s).ncard = (inTable s.backend_).ncard)
    {f : Nat → CachePage page_bits} (corks : List (UUID × CaLocMap)) :
    Counted { s with pages_ := f, page_list_ := [], page_map_ := fun _ => none, num_pages_ := 0, corks_ := corks } where
  __ := h
  linked := ⟨List.nodup_nil, by simp, by simp⟩
  finite := h.table_finite
  total := by
    have := h.total
    rw [hd] at this
    exact this
  pages := by simp

theorem Slots.dropped (hs : Slots s) {f : Nat → CachePage page_bits} (corks : List (UUID × CaLocMap)) :
    Slots { s with pages_ := f, page_list_ := [], page_map_ := fun _ => none, num_pages_ := 0, corks_ := corks } :=
  ⟨hs.size, Nat.zero_le _, by simp⟩

/-- The keys are gone, and the member that counts the table's locations is what it was. -/
theorem clear_all_keys_ok (h : Counted s) (hs : Slots s) : ∃ f, clear_all_keys (backend page_bits) s = .ok { s with
      backend_ := s.backend_.cleared, pages_ := f, page_list_ := [], page_map_ := fun _ => none,
      num_pages_ := 0, corks_ := [], cork_uuid_ := none, scrub_id_ := none } := by
  have hl := (h.linked.congr _ { s with corks_ := [] } rfl rfl rfl rfl).1
  obtain ⟨f, hf⟩ := drop_ok hl (hs.congr rfl rfl rfl) false
  refine ⟨f, ?_⟩
  unfold clear_all_keys
  dsimp only
  rw [hf, ok_bind]
  simp only [call, backend, MDSMetaDataBackend.clear_all_keys_of_owner h.owner, Except.mapError]
  rfl

theorem inTable_cleared (b : MDSMetaDataBackend page_bits) : inTable b.cleared = ∅ := by
  unfold inTable
  rw [MDSMetaDataBackend.stored_cleared, locations_reset]

theorem Counted.operate (h : Counted s) (hs : Slots s) {op : Operation} (hop : Harmless s op) :
    Counted (operate (backend page_bits) s op) ∧ Slots (operate (backend page_bits) s op) := by
  have hB := MDSMetaDataBackend.backend_lawful page_bits
  cases op with
  | basic op => exact counted_stable.step_ends hB h hs op
  | processCloneTLogs cfg ctl nsidmap sync cork =>
    exact counted_stable.processCloneTLogs_ends h hs cfg ctl nsidmap sync cork
  | applyRelocs relocs scid tmp scrub_id => exact counted_stable.applyRelocs_ends hB h hs relocs scid tmp scrub_id
  | drop_cache_including_dirty_pages =>
    obtain ⟨f, hf⟩ := drop_ok h.linked hs true
    rw [CachedMetaDataStore.operate, drop_cache_including_dirty_pages, hf]
    exact ⟨h.dropped hop s.corks_, hs.dropped s.corks_⟩
  | clear_all_keys =>
    obtain ⟨f, hf⟩ := clear_all_keys_ok h hs
    obtain ⟨he, ht⟩ := hop
    have htable := inTable_cleared s.backend_
    have hfinite : (inTable s.backend_.cleared).Finite := by rw [htable]; exact Set.finite_empty
    have hused : s.backend_.used_clusters_ = 0 := by rw [h.table, ht, Set.ncard_empty]
    rw [CachedMetaDataStore.operate, hf]
    refine ⟨⟨⟨List.nodup_nil, by simp [after], by simp [after]⟩, h.owner, hfinite, hfinite, ?_, ?_, ?_,
      by simp [after], h.failed⟩, (hs.dropped (f := f) []).congr rfl rfl rfl⟩
    · have htotal := h.total
      rw [he, Set.ncard_empty] at htotal
      change used_clusters (backend page_bits) s = ((inTable s.backend_.cleared).ncard : Int)
      rw [htable, Set.ncard_empty, htotal]
    · change s.backend_.used_clusters_ = (inTable s.backend_.cleared).ncard
      rw [htable, Set.ncard_empty, hused]
    · change (none : Option Nat).getD 0 = s.backend_.used_clusters_
      rw [hused]; rfl

theorem Counted.operateAll : ∀ (ops : List Operation) {s : OnTable page_bits},
    Counted s → Slots s → HarmlessRun s ops → Counted (operateAll s ops) ∧ Slots (operateAll s ops)
  | [], _, h, hs, _ => ⟨h, hs⟩
  | _ :: ops, _, h, hs, hop => by
    obtain ⟨h', hs'⟩ := h.operate hs hop.1
    exact Counted.operateAll ops h' hs' hop.2

theorem HarmlessRun.take : ∀ {ops : List Operation} {s : OnTable page_bits}
    (n : Nat), HarmlessRun s ops → HarmlessRun s (ops.take n)
  | [], _, _, _ => by simp [HarmlessRun]
  | _ :: _, _, 0, _ => trivial
  | _ :: _, _, n + 1, h => ⟨h.1, HarmlessRun.take n h.2⟩

/-- A table as the backend leaves it: the record counts the locations in its pages. -/
def TableCounted (table : MDSTable page_bits) : Prop :=
  table.used_clusters.getD 0 =
    (locations fun pa => (table.pages[pa]?).getD (reset page_bits)).ncard

theorem finite_inTable (b : MDSMetaDataBackend page_bits) : (inTable b).Finite := by
  refine finite_locations b.table_.pages.keys.finite_toSet fun pa hpa => ?_
  have hnone : b.table_.pages[pa]? = none :=
    Std.TreeMap.getElem?_eq_none fun hm => hpa (Std.TreeMap.mem_keys.2 hm)
  rw [MDSMetaDataBackend.stored_eq, hnone]
  rfl

theorem Counted.create {table : MDSTable page_bits} (ht : TableCounted table) (tag capacity : Nat)
    {s : OnTable page_bits}
    (h : create (backend page_bits) (MDSMetaDataBackend.create table (some tag)) capacity = .ok s) :
    Counted s ∧ Slots s := by
  obtain ⟨hc, h⟩ := VERIFY_bind_ok h
  rw [← pure_ok h]
  refine ⟨⟨⟨List.nodup_nil, by simp, by simp⟩, by simp [MDSMetaDataBackend.create], finite_inTable _,
    finite_inTable _, ?_, ht, rfl, by simp, rfl⟩, ⟨hc, Nat.zero_le _, by simp⟩⟩
  have : ((table.used_clusters.getD 0 : Nat) : Int) = (inTable (MDSMetaDataBackend.create table (some tag))).ncard :=
    congrArg Nat.cast ht
  change (0 : Int) - 0 + (table.used_clusters.getD 0 : Nat) = _
  rw [this]
  simp only [sub_zero, zero_add]
  rfl

/-- From a new store on, in every run in which pages are dropped and keys cleared only where that
changes no number of locations, the counters are exact after every operation. -/
theorem operateAll_exact {table : MDSTable page_bits} (ht : TableCounted table) (tag capacity : Nat)
    {s : OnTable page_bits}
    (hs : create (backend page_bits) (MDSMetaDataBackend.create table (some tag)) capacity = .ok s)
    (ops : List Operation) (hops : HarmlessRun s ops) (n : Nat) : Exact (operateAll s (ops.take n)) := by
  obtain ⟨hc, hslots⟩ := Counted.create ht tag capacity hs
  exact (hc.operateAll _ hslots (hops.take n)).1.exact

theorem tableCounted_empty : TableCounted ({} : MDSTable page_bits) := by
  have h : (fun pa : PageAddress => (({} : MDSTable page_bits).pages[pa]?).getD (reset page_bits)) =
      fun _ => reset page_bits := by
    funext pa; simp
  rw [TableCounted, h, locations_reset, Set.ncard_empty]
  rfl

theorem cleared_exact (h : Counted s) (hs : Slots s)
    (he : Exact (operate (backend page_bits) s .clear_all_keys)) : used_clusters (backend page_bits) s = 0 := by
  obtain ⟨f, hf⟩ := clear_all_keys_ok h hs
  rw [operate, hf] at he
  have htotal : used_clusters (backend page_bits) s = ((inTable s.backend_.cleared).ncard : Int) := he.total
  rw [htotal, inTable_cleared, Set.ncard_empty]
  rfl

theorem dropped_exact (h : Counted s) (hs : Slots s)
    (he : Exact (operate (backend page_bits) s .drop_cache_including_dirty_pages)) :
    used_clusters (backend page_bits) s = s.backend_.used_clusters_ := by
  obtain ⟨f, hf⟩ := drop_ok h.linked hs true
  rw [operate, drop_cache_including_dirty_pages, hf] at he
  have htotal : used_clusters (backend page_bits) s = ((inTable s.backend_).ncard : Int) := he.total
  rw [htotal, h.table]

/-- A store with one slot, over an empty table: clear, then write, discard and resize. -/
theorem operateAll_exact_resized : ∃ s, create (backend 1) (MDSMetaDataBackend.create {} (some 7)) 1 = .ok s ∧
    ∀ n, Exact (operateAll s (([.clear_all_keys, .basic (.cork 1), .basic (.writeCluster 0 ⟨⟨⟨1, 0, 0⟩, 0⟩, 7⟩),
      .basic (.writeCluster 5 ⟨⟨⟨1, 0, 0⟩, 1⟩, 8⟩), .basic (.cork 2), .basic (.unCork (some 1)),
      .basic (.discardCluster 5), .basic (.cork 3), .basic (.unCork none), .basic (.set_cache_capacity 2)] :
        List Operation).take n)) :=
  ⟨_, rfl, operateAll_exact tableCounted_empty 7 1 rfl _ ⟨⟨@locations_reset 1, @locations_reset 1⟩,
    trivial, trivial, trivial, trivial, trivial, trivial, trivial, trivial, trivial, trivial⟩⟩

/-- One cluster is written out; clearing the keys does not take it out of the count. The same
happens to a cluster that is replayed into the cache and dropped from there. -/
theorem operateAll_not_exact :
    (∃ s, create (backend 1) (MDSMetaDataBackend.create {} (some 7)) 1 = .ok s ∧
      ¬ Exact (operateAll s [.basic (.cork 1), .basic (.writeCluster 0 ⟨⟨⟨1, 0, 0⟩, 0⟩, 7⟩), .basic (.cork 2),
        .basic (.unCork (some 1)), .clear_all_keys])) ∧
    ∃ s, create (backend 1) (MDSMetaDataBackend.create {} (some 7)) 1 = .ok s ∧
      ¬ Exact (operateAll s [.processCloneTLogs {} [(0, [3])] (fun _ _ => .ok [⟨0, ⟨⟨⟨1, 0, 0⟩, 0⟩, 7⟩⟩]) false none,
        .drop_cache_including_dirty_pages]) := by
  refine ⟨⟨_, rfl, fun he => ?_⟩, ⟨_, rfl, fun he => ?_⟩⟩
  · obtain ⟨hc, hs⟩ := Counted.create (@tableCounted_empty 1) 7 1 rfl
    obtain ⟨hc, hs⟩ := hc.operateAll [.basic (.cork 1), .basic (.writeCluster 0 ⟨⟨⟨1, 0, 0⟩, 0⟩, 7⟩), .basic (.cork 2),
        .basic (.unCork (some 1))] hs ⟨trivial, trivial, trivial, trivial, trivial⟩
    exact absurd (cleared_exact hc hs he) (by decide)
  · obtain ⟨hc, hs⟩ := Counted.create (@tableCounted_empty 1) 7 1 rfl
    obtain ⟨hc, hs⟩ := hc.operateAll [.processCloneTLogs {} [(0, [3])]
      (fun _ _ => .ok [⟨0, ⟨⟨⟨1, 0, 0⟩, 0⟩, 7⟩⟩]) false none] hs ⟨trivial, trivial⟩
    exact absurd (dropped_exact hc hs he) (by decide)

end CachedMetaDataStore

end VolumeDriver
