/-
Applying the relocations of a scrub to the metadata (CachedMetaDataStore::applyRelocs): the
relocation log holds pairs of an old and a new location of a cluster, and the new one is written
where the old one still is the cluster's location.
-/
import VolumeDriver.MetaData.CloneTLogs
import VolumeDriver.Lib.Patch

namespace VolumeDriver

open Lib ClusterLocationAndHash

namespace CachedMetaDataStore

variable {page_bits : Nat} {β : Type} (B : MetaDataBackendInterface page_bits β)

variable (s : CachedMetaDataStore page_bits β)

/-- The loop of `write_dirty_pages_to_backend_keeping_page_list`: a page that is dirty and not empty
is handed over twice. -/
def writeKeeping (i : Nat) : Result page_bits β (CachedMetaDataStore page_bits β) :=
  if (s.pages_ i).dirty = true ∧ (s.pages_ i).empty = false then do
    let (s, _) ← maybeWritePage_locked_context B s i false
    s.dispose_page B.putPage i
  else pure s

/-- Writes the dirty pages and keeps them in the cache. -/
def write_dirty_pages_to_backend_keeping_page_list : Result page_bits β (CachedMetaDataStore page_bits β) :=
  s.page_list_.foldlM (writeKeeping B) s

/-- The cluster address of an entry, or a throw. -/
def addressOf (e : Entry) : Result page_bits β ClusterAddress :=
  e.clusterAddress.mapError fun x => (x, s)

/-- The loop over the pairs of the relocation log. -/
def applyPairs (scid : SCOCloneID) (s : CachedMetaDataStore page_bits β) :
    List Entry → Nat → Result page_bits β (CachedMetaDataStore page_bits β × Nat)
  | [], relocNum => pure (s, relocNum)
  | [_], _ => throw (.ioException "Wrong Relocation TLog, uneven number of entries", s)
  | e_old :: e_new :: entries, relocNum => do
    let a_old ← s.addressOf e_old
    let a_new ← s.addressOf e_new
    if a_old ≠ a_new then
      throw (.ioException "Wrong Relocation TLog, old clusteraddress does not equal new clusteraddress", s)
    else do
      let (s, l_current) ← get_cluster_location_unlocked_ B s a_old .zero false
      if l_current.clusterLocation = e_old.clusterLocation.withCloneID scid then do
        let (s, _) ← get_cluster_location_unlocked_ B s a_old (e_new.loc_and_hash.withCloneID scid) true
        applyPairs scid s entries (relocNum + 1)
      else applyPairs scid s entries (relocNum + 1)

/-- `tmp` is the temporary scrub id, which makes a restart after a crash in between start over. -/
def applyRelocs (relocs : List Entry) (scid : SCOCloneID) (tmp scrub_id : ScrubId) :
    Result page_bits β (CachedMetaDataStore page_bits β × Nat) := do
  let s ← set_scrub_id B s tmp
  let (s, relocNum) ← applyPairs B scid s (relocs.filter (·.isLocation)) 0
  let s ← write_dirty_pages_to_backend_keeping_page_list B s
  let s ← set_scrub_id B s scrub_id
  pure (s, relocNum)

variable {B} {W : ClusterAddress → Prop} {I : CachedMetaDataStore page_bits β → Prop}
  {s s' : CachedMetaDataStore page_bits β}

theorem Keeps.writeKeeping (hI : Keeps B W I) (h : I s) {i : Nat} (hi : i ∈ s.page_list_) :
    ∃ s', writeKeeping B s i = .ok s' ∧ Cache B s [] s' ∧ WroteOut [] s s' := by
  unfold CachedMetaDataStore.writeKeeping
  split
  · obtain ⟨s₁, r, h1, _, hc, hw⟩ := hI.maybeWritePage h hi false
    have hi₁ : i ∈ s₁.page_list_ := hw.list ▸ hi
    obtain ⟨b, hb⟩ := hI.put (hI.cache_nil h hc) hi₁
    exact ⟨s₁.disposed i b, by rw [h1]; exact dispose_page_ok hb, .internal hc (.put hi₁ hb),
      (hw.trans disposed_wroteOut).weaken⟩
  · exact ⟨s, rfl, .refl, .refl⟩

theorem Keeps.write_dirty_pages (hI : Keeps B W I) (h : I s) (hs : Slots s) :
    ∃ s', write_dirty_pages_to_backend_keeping_page_list B s = .ok s' ∧ Cache B s [] s' ∧ Slots s' := by
  obtain ⟨s', h1, hc, hw⟩ := hI.foldPages (fun h hi => hI.writeKeeping h hi) s.page_list_ h fun _ hi => hi
  exact ⟨s', h1, hc, hs.wroteOut hw⟩

theorem set_scrub_id_ok (hB : B.Lawful) (hN : B.NonFailing) (hl : Linked B s) (hs : Slots s) (id : ScrubId) :
    ∃ s', set_scrub_id B s id = .ok s' ∧ Linked B s' ∧ Slots s' ∧ s'.locationOf B = s.locationOf B ∧
      s'.corks_ = s.corks_ := by
  obtain ⟨b, hb⟩ := hN.scrub s.backend_ id
  obtain ⟨hl', hloc⟩ := hl.congr B { s with backend_ := b, scrub_id_ := some id } rfl rfl rfl (hB.scrub hb).1
  refine ⟨_, ?_, hl', hs.congr rfl rfl rfl, hloc, rfl⟩
  unfold set_scrub_id call
  rw [hb]; rfl

theorem Keeps.readThenWrite (hI : Keeps B (fun _ => True) I) (hB : B.Lawful) (h : I s) (hs : Slots s)
    (a : ClusterAddress) (l_new : ClusterLocationAndHash) :
    ∃ s₁ l_current, get_cluster_location_unlocked_ B s a .zero false = .ok (s₁, l_current) ∧
      l_current.fixup = s.locationOf B a ∧ Cache B s [] s₁ ∧ Slots s₁ ∧
      ∃ s₂, get_cluster_location_unlocked_ B s₁ a l_new true = .ok (s₂, l_new) ∧ Cache B s [(a, l_new)] s₂ ∧
        Slots s₂ := by
  obtain ⟨s₁, r, h1, hc₁, hs₁, hr⟩ := hI.get_cluster_location_read hB h hs a .zero
  obtain ⟨s₂, h2, hc₂, hs₂⟩ := hI.get_cluster_location_write (hI.cache_nil h hc₁) hs₁ a l_new
  exact ⟨s₁, r, h1, hr, hc₁, hs₁, s₂, h2, hc₁.internal_trans B hc₂, hs₂⟩

theorem Keeps.applyPairs_ends (hI : Keeps B (fun _ => True) I) (hB : B.Lawful) (scid : SCOCloneID) :
    ∀ (entries : List Entry) (n : Nat) {s : CachedMetaDataStore page_bits β}, I s → Slots s →
      Ends (applyPairs B scid s entries n) Prod.fst fun s' => (∃ l, Cache B s l s') ∧ Slots s'
  | [], _, s, _, hs => ⟨⟨[], .refl⟩, hs⟩
  | [_], _, s, _, hs => ⟨⟨[], .refl⟩, hs⟩
  | e_old :: e_new :: entries, n, s, h, hs => by
    have hstart : (∃ l, Cache B s l s) ∧ Slots s := ⟨⟨[], .refl⟩, hs⟩
    have haddr : ∀ e, Ends (s.addressOf e) (fun _ => s) fun s' => (∃ l, Cache B s l s') ∧ Slots s' := fun e => by
      rw [addressOf]
      cases e.clusterAddress <;> exact hstart
    refine (haddr e_old).bind fun a_old _ => (haddr e_new).bind fun a_new _ => ?_
    split
    · exact hstart
    · obtain ⟨s₁, r, h1, _, hc₁, hs₁, s₂, h2, hc₂, hs₂⟩ :=
        hI.readThenWrite hB h hs a_old (e_new.loc_and_hash.withCloneID scid)
      simp only [h1, ok_bind]
      split
      · simp only [h2, ok_bind]
        exact (hI.applyPairs_ends hB scid entries (n + 1) (hI.cache h hc₂ (by simp)) hs₂).imp
          fun s' ⟨⟨l, hc⟩, hs'⟩ => ⟨⟨_, hc₂.trans B hc⟩, hs'⟩
      · exact (hI.applyPairs_ends hB scid entries (n + 1) (hI.cache_nil h hc₁) hs₁).imp
          fun s' ⟨⟨l, hc⟩, hs'⟩ => ⟨⟨_, hc₁.internal_trans B hc⟩, hs'⟩

/-! ## What relocations do to the map -/

/-- A pair of the relocation log as a patch of the map. -/
def relocation (scid : SCOCloneID) (p : Entry × Entry) : Patch ClusterAddress ClusterLocationAndHash ClusterLocation :=
  ⟨p.1.clusteraddress, p.1.clusterLocation.withCloneID scid, p.2.loc_and_hash.withCloneID scid⟩

/-- A pair as the scrubber writes them: two locations of one address. -/
structure WellFormed (p : Entry × Entry) : Prop where
  old : p.1.isLocation = true
  new : p.2.isLocation = true
  sane : p.1.clusterAddress = .ok p.1.clusteraddress
  same : p.2.clusterAddress = .ok p.1.clusteraddress

theorem clusterLocation_fixup {c : ClusterLocationAndHash} {loc : ClusterLocation} (h : loc.isNull = false) :
    c.clusterLocation = loc ↔ c.fixup.clusterLocation = loc := by
  by_cases hc : c.isNull = true
  · rw [fixup_of_isNull hc]
    constructor
    · rintro rfl
      rw [isNull, h] at hc; cases hc
    · rintro rfl
      cases h
  · rw [fixup_of_not_isNull (by simpa using hc)]

theorem applyPairs_ok (hB : B.Lawful) (hN : B.NonFailing) (scid : SCOCloneID) :
    ∀ (pairs : List (Entry × Entry)) (n : Nat) {s : CachedMetaDataStore page_bits β},
    (∀ p ∈ pairs, WellFormed p) → Linked B s → Slots s →
    ∃ s' l, applyPairs B scid s (pairs.flatMap fun p => [p.1, p.2]) n = .ok (s', n + pairs.length) ∧ Cache B s l s' ∧
      Slots s' ∧ s'.locationOf B = patchAll (·.clusterLocation) (s.locationOf B) (pairs.map (relocation scid))
  | [], n, s, _, hl, hs => ⟨s, [], rfl, .refl, hs, rfl⟩
  | p :: pairs, n, s, hp, hl, hs => by
    obtain ⟨hold, hnew, hsane, hsame⟩ := hp p (List.mem_cons_self ..)
    have hI := keeps_linked hB hN
    obtain ⟨s₁, r, h1, hr, hc₁, hs₁, s₂, h2, hc₂, hs₂⟩ :=
      hI.readThenWrite hB hl hs p.1.clusteraddress (p.2.loc_and_hash.withCloneID scid)
    have hcond : r.clusterLocation = p.1.clusterLocation.withCloneID scid ↔
        (s.locationOf B p.1.clusteraddress).clusterLocation = p.1.clusterLocation.withCloneID scid := by
      rw [← hr]
      exact clusterLocation_fixup (Entry.isLocation_iff.1 hold)
    -- one pair: the store goes on with the patched map
    obtain ⟨s₃, l₃, hgo, hc₃, hs₃, hloc₃⟩ : ∃ s₃ l₃,
        applyPairs B scid s (p.1 :: p.2 :: pairs.flatMap fun p => [p.1, p.2]) n =
          applyPairs B scid s₃ (pairs.flatMap fun p => [p.1, p.2]) (n + 1) ∧ Cache B s l₃ s₃ ∧ Slots s₃ ∧
        s₃.locationOf B = (relocation scid p).apply (·.clusterLocation) (s.locationOf B) := by
      rw [applyPairs, addressOf, addressOf, hsane, hsame]
      simp only [Except.mapError, ok_bind, ne_eq, not_true, if_false, h1]
      unfold Patch.apply relocation
      by_cases hcur : r.clusterLocation = p.1.clusterLocation.withCloneID scid
      · rw [if_pos hcur, if_pos (hcond.1 hcur)]
        simp only [h2, ok_bind]
        refine ⟨s₂, _, rfl, hc₂, hs₂, ?_⟩
        rw [(hc₂.linked B hB hl).2, shown_of_fixed]
        · rfl
        · intro q hq
          rw [List.mem_singleton.1 hq]
          exact fixup_of_not_isNull (Entry.isLocation_iff.1 hnew)
      · rw [if_neg hcur, if_neg fun h => hcur (hcond.2 h)]
        exact ⟨s₁, _, rfl, hc₁, hs₁, (hc₁.linked B hB hl).2⟩
    obtain ⟨s', l, h3, hc, hs', hmap⟩ := applyPairs_ok hB hN scid pairs (n + 1)
      (fun q hq => hp q (List.mem_cons_of_mem _ hq)) (hc₃.linked B hB hl).1 hs₃
    refine ⟨s', _, ?_, hc₃.trans B hc, hs', ?_⟩
    · rw [List.flatMap_cons, List.length_cons, Nat.add_comm pairs.length, ← Nat.add_assoc, ← h3]
      exact hgo
    · rw [hmap, hloc₃]
      rfl

/-- Relocations patch the map, and count all pairs. -/
theorem applyRelocs_ok (hB : B.Lawful) (hN : B.NonFailing) (hl : Linked B s) (hs : Slots s)
    {pairs : List (Entry × Entry)} (hp : ∀ p ∈ pairs, WellFormed p) (scid : SCOCloneID) (tmp scrub_id : ScrubId) :
    ∃ s', applyRelocs B s (pairs.flatMap fun p => [p.1, p.2]) scid tmp scrub_id = .ok (s', pairs.length) ∧
      s'.corks_ = s.corks_ ∧
      s'.locationOf B = patchAll (·.clusterLocation) (s.locationOf B) (pairs.map (relocation scid)) := by
  have hfilter : (pairs.flatMap fun p => [p.1, p.2]).filter (·.isLocation) = pairs.flatMap fun p => [p.1, p.2] := by
    rw [List.filter_eq_self]
    intro e he
    obtain ⟨p, hpm, he⟩ := List.mem_flatMap.1 he
    rcases List.mem_pair.1 he with rfl | rfl
    · exact (hp p hpm).old
    · exact (hp p hpm).new
  obtain ⟨s₁, h1, hl₁, hs₁, e1, c1⟩ := set_scrub_id_ok hB hN hl hs tmp
  obtain ⟨s₂, l, h2, hc₂, hs₂, e2⟩ := applyPairs_ok hB hN scid pairs 0 hp hl₁ hs₁
  have hl₂ := (hc₂.linked B hB hl₁).1
  obtain ⟨s₃, h3, hc₃, hs₃⟩ := (keeps_linked hB hN).write_dirty_pages hl₂ hs₂
  obtain ⟨hl₃, e3⟩ := hc₃.linked B hB hl₂
  obtain ⟨s₄, h4, -, -, e4, c4⟩ := set_scrub_id_ok hB hN hl₃ hs₃ scrub_id
  refine ⟨s₄, ?_, ?_, ?_⟩
  · unfold applyRelocs
    rw [h1, ok_bind, hfilter, h2]
    dsimp only [ok_bind]
    rw [h3, ok_bind, h4, Nat.zero_add]
    rfl
  · rw [c4, (hc₃.frame B hB).corks, (hc₂.frame B hB).corks, c1]
  · rw [e4, e3, ← e1, ← e2]
    rfl

end CachedMetaDataStore

end VolumeDriver
