/-
Reads next to writes with a location based cluster cache. `readClusters_` and `writeClusters_` hold
the volume's lock shared, so that their steps interleave; only writes exclude each other. A read
looks up the location, asks the cache, reads the SCO and adds the cluster to the cache; a write adds
its clusters to SCOs and then, cluster by cluster, updates the metadata and the cache.
-/
import VolumeDriver.Lib.Steps
import VolumeDriver.Volume.ClusterCache

namespace VolumeDriver.ConcurrentReads

open Lib Function List ClusterCache

/-- A volume in `LocationBased` mode. `zero` is the cluster of zeros. -/
structure Config (D : Type) where
  md5 : D → Weed
  zero : D
  behaviour : ClusterCacheBehaviour
  /-- The clusters of the cluster cache are as large as those of the volume. -/
  same_cluster_size : Bool
  surroundings : ClusterCache.Surroundings D := {}

/-- How far a read has come. -/
inductive Phase (D : Type)
  | lookedUp
  | missed
  | fetched (data : D)

/-- A read of `ca` that found the location `loc`. For the statements it is recorded which write of
`ca` was the last to complete, if none was in progress when the read started. -/
structure Reader (D : Type) where
  ca : ClusterAddress
  loc : Nat
  phase : Phase D
  since : Option Nat

/-- The parts of a volume that reads and writes share. Every cluster gets a location of its own, here
its place in `dataStore_`, and each is kept with the address it was written to. `writer` are the
clusters of the current `writeClusters_` that are not yet through, `updated` says that the metadata of
the first of them are. `done` is the last write to complete, for the statements. -/
structure State (D : Type) where
  dataStore_ : List (ClusterAddress × D) := []
  metaDataStore_ : ClusterAddress → Option Nat := fun _ => none
  clusterCache : ClusterCache D := {}
  writer : List (ClusterAddress × Nat × D) := []
  updated : Bool := false
  readers : Nat → Option (Reader D) := fun _ => none
  done : ClusterAddress → Option Nat := fun _ => none

/-- The steps of writes and reads. -/
inductive Action (D : Type)
  | writeClusters (clusters : List (ClusterAddress × D))
  | writeClusterMetaData_
  | writeClusterCache
  | readCluster (r : Nat) (ca : ClusterAddress)
  | find_in_cluster_cache_ (r : Nat)
  | readClusters (r : Nat)
  | add_to_cluster_cache_ (r : Nat)

variable {D : Type} (cfg : Config D)

/-- The cache after a cluster was added to it. -/
def Config.add (ca : ClusterAddress) (data : D) (c : ClusterCache D) : ClusterCache D :=
  if cfg.same_cluster_size then c.add cfg.md5 cfg.surroundings .LocationBased ca 0 data else c

/-- The cache after a cluster was purged from it. -/
def Config.purge (ca : ClusterAddress) (c : ClusterCache D) : ClusterCache D :=
  if cfg.same_cluster_size then c.invalidate cfg.md5 cfg.surroundings .LocationBased ca else c

/-- What the cache has of a cluster. -/
def Config.find (ca : ClusterAddress) (c : ClusterCache D) : Option D :=
  if cfg.same_cluster_size then c.read cfg.md5 cfg.surroundings .LocationBased ca 0 else none

/-- No write of `ca` is in progress. -/
def State.quiet (s : State D) (ca : ClusterAddress) : Prop := ca ∉ s.writer.map Prod.fst

instance (s : State D) (ca : ClusterAddress) : Decidable (s.quiet ca) :=
  inferInstanceAs (Decidable (ca ∉ s.writer.map Prod.fst))

/-- The write that a read starting now has to see. -/
def State.since (s : State D) (ca : ClusterAddress) : Option Nat := if s.quiet ca then s.done ca else none

/-- The clusters with their locations, from `loc` on. -/
def located : Nat → List (ClusterAddress × D) → List (ClusterAddress × Nat × D)
  | _, [] => []
  | loc, (ca, data) :: rest => (ca, loc, data) :: located (loc + 1) rest

/-- One step of a write or of the read `r`. It does nothing if it is not the next one. -/
def step (s : State D) : Action D → State D
  | .writeClusters clusters =>
    if s.writer.isEmpty then
      { s with
        dataStore_ := s.dataStore_ ++ clusters
        writer := located s.dataStore_.length clusters }
    else s
  | .writeClusterMetaData_ =>
    match s.writer with
    | (ca, loc, _) :: _ =>
      if s.updated then s
      else { s with metaDataStore_ := update s.metaDataStore_ ca (some loc), updated := true }
    | [] => s
  | .writeClusterCache =>
    match s.writer with
    | (ca, loc, data) :: rest =>
      if s.updated then
        { s with
          clusterCache :=
            if cfg.behaviour = .CacheOnWrite then cfg.add ca data s.clusterCache else cfg.purge ca s.clusterCache
          writer := rest
          updated := false
          done := update s.done ca (some loc) }
      else s
    | [] => s
  | .readCluster r ca =>
    match s.readers r, s.metaDataStore_ ca with
    | none, some loc => { s with readers := update s.readers r (some ⟨ca, loc, .lookedUp, s.since ca⟩) }
    | _, _ => s
  | .find_in_cluster_cache_ r =>
    match s.readers r with
    | some ⟨ca, loc, .lookedUp, since⟩ =>
      let after := { s with clusterCache := s.clusterCache.elapse cfg.md5 cfg.surroundings }
      match cfg.find ca s.clusterCache with
      | some _ => { after with readers := update s.readers r none }
      | none => { after with readers := update s.readers r (some ⟨ca, loc, .missed, since⟩) }
    | _ => s
  | .readClusters r =>
    match s.readers r with
    | some ⟨ca, loc, .missed, since⟩ =>
      match s.dataStore_[loc]? with
      | some (_, data) => { s with readers := update s.readers r (some ⟨ca, loc, .fetched data, since⟩) }
      | none => s
    | _ => s
  | .add_to_cluster_cache_ r =>
    match s.readers r with
    | some ⟨ca, _, .fetched data, _⟩ =>
      { s with
        clusterCache := if cfg.behaviour ≠ .NoCache then cfg.add ca data s.clusterCache else s.clusterCache
        readers := update s.readers r none }
    | _ => s

/-- What a read returns in this step: its address, the write it has to see and the cluster. -/
def returned (s : State D) : Action D → Option (ClusterAddress × Option Nat × D)
  | .readCluster r ca =>
    match s.readers r, s.metaDataStore_ ca with
    | none, none => some (ca, s.since ca, cfg.zero)
    | _, _ => none
  | .find_in_cluster_cache_ r =>
    match s.readers r with
    | some ⟨ca, _, .lookedUp, since⟩ => (cfg.find ca s.clusterCache).map fun data => (ca, since, data)
    | _ => none
  | .add_to_cluster_cache_ r =>
    match s.readers r with
    | some ⟨ca, _, .fetched data, since⟩ => some (ca, since, data)
    | _ => none
  | _ => none

/-- A read that had to see the write at `l` returns the cluster of that write, or of a later write of
its address. -/
def Fresh (s : State D) (a : Action D) : Prop :=
  ∀ ca l data, returned cfg s a = some (ca, some l, data) → ∃ l', l ≤ l' ∧ s.dataStore_[l']? = some (ca, data)

/-- A read adds a cluster to the cache only while it is not overtaken: since it looked up the location,
no write of its address has updated the metadata and completed. -/
def NotOvertaken (s : State D) : Action D → Prop
  | .add_to_cluster_cache_ r =>
    ∀ reader data, s.readers r = some reader → reader.phase = .fetched data →
      ∀ l, s.done reader.ca = some l → l ≤ reader.loc
  | _ => True

/-! ## The invariant -/

/-- A read found the location of its address, and no older one than the write that it has to see. -/
structure ReaderOk (store : List (ClusterAddress × D)) (done : ClusterAddress → Option Nat) (reader : Reader D) :
    Prop where
  stored : ∃ data, store[reader.loc]? = some (reader.ca, data)
  fetched : ∀ data, reader.phase = .fetched data → store[reader.loc]? = some (reader.ca, data)
  since : ∀ l, reader.since = some l → l ≤ reader.loc ∧ ∃ m, done reader.ca = some m ∧ l ≤ m

/-- The metadata and the cache hold nothing older than the last write to complete; the writes that are
in progress are newer. -/
structure Inv (s : State D) : Prop where
  stored : ∀ ca l, s.metaDataStore_ ca = some l → ∃ data, s.dataStore_[l]? = some (ca, data)
  done_le : ∀ ca m, s.done ca = some m → ∃ l, s.metaDataStore_ ca = some l ∧ m ≤ l
  quiet : ∀ ca, s.quiet ca → s.metaDataStore_ ca = s.done ca
  writing : ∀ c ∈ s.writer, s.dataStore_[c.2.1]? = some (c.1, c.2.2) ∧ ∀ m, s.done c.1 = some m → m ≤ c.2.1
  sorted : s.writer.Pairwise fun a b => a.2.1 < b.2.1
  updated : s.updated = true → ∃ c rest, s.writer = c :: rest ∧ s.metaDataStore_ c.1 = some c.2.1
  cached : cfg.same_cluster_size = true → ∀ ca data, s.clusterCache.map (.location ca) = some data →
    ∃ l, s.dataStore_[l]? = some (ca, data) ∧ ∀ m, s.done ca = some m → m ≤ l
  reading : ∀ r reader, s.readers r = some reader → ReaderOk s.dataStore_ s.done reader

theorem inv_init : Inv cfg ({} : State D) :=
  ⟨nofun, nofun, fun _ _ => rfl, nofun, List.Pairwise.nil, nofun, nofun, nofun⟩

section
variable {cfg} {s : State D}

theorem update_some {β : Type} {f : ClusterAddress → Option β} {ca a : ClusterAddress} {x y : β}
    (h : update f ca (some x) a = some y) : a = ca ∧ y = x ∨ a ≠ ca ∧ f a = some y := by
  by_cases ha : a = ca
  · subst ha
    rw [update_self] at h
    exact Or.inl ⟨rfl, (Option.some.inj h).symm⟩
  · rw [update_of_ne ha] at h
    exact Or.inr ⟨ha, h⟩

theorem mem_located : ∀ {clusters : List (ClusterAddress × D)} {loc : Nat} {c : ClusterAddress × Nat × D},
    c ∈ located loc clusters → ∃ i, c.2.1 = loc + i ∧ clusters[i]? = some (c.1, c.2.2)
  | [], _, _, h => nomatch h
  | (ca, data) :: rest, loc, c, h => by
    rcases mem_cons.mp h with rfl | h
    · exact ⟨0, rfl, rfl⟩
    · obtain ⟨i, hi, hget⟩ := mem_located h
      exact ⟨i + 1, by omega, hget⟩

theorem located_sorted : ∀ (clusters : List (ClusterAddress × D)) (loc : Nat),
    (located loc clusters).Pairwise fun a b => a.2.1 < b.2.1
  | [], _ => List.Pairwise.nil
  | (ca, data) :: rest, loc => by
    refine pairwise_cons.mpr ⟨fun c hc => ?_, located_sorted rest (loc + 1)⟩
    obtain ⟨i, hi, -⟩ := mem_located hc
    show loc < c.2.1
    omega

theorem ReaderOk.mono {store store' : List (ClusterAddress × D)} {done done' : ClusterAddress → Option Nat}
    {reader : Reader D} (h : ReaderOk store done reader)
    (hstore : ∀ (l : Nat) x, store[l]? = some x → store'[l]? = some x)
    (hdone : ∀ ca m, done ca = some m → ∃ m', done' ca = some m' ∧ m ≤ m') : ReaderOk store' done' reader := by
  constructor
  · obtain ⟨data, hdata⟩ := h.stored
    exact ⟨data, hstore _ _ hdata⟩
  · intro data hphase
    exact hstore _ _ (h.fetched data hphase)
  · intro l hl
    obtain ⟨hle, m, hm, hlm⟩ := h.since l hl
    obtain ⟨m', hm', hmm⟩ := hdone _ m hm
    exact ⟨hle, m', hm', hlm.trans hmm⟩

theorem written_cached {c : ClusterCache D} {ca a : ClusterAddress} {data x : D} (hsize : cfg.same_cluster_size = true)
    (h : (if cfg.behaviour = .CacheOnWrite then cfg.add ca data c else cfg.purge ca c).map (.location a) = some x) :
    a = ca ∧ x = data ∨ a ≠ ca ∧ c.map (.location a) = some x := by
  unfold Config.add Config.purge at h
  split at h
  · exact add_location h
  · exact Or.inr (invalidate_location h)

namespace Inv

variable (h : Inv cfg s)

include h

theorem done_lt {ca : ClusterAddress} {m : Nat} (hm : s.done ca = some m) : m < s.dataStore_.length := by
  obtain ⟨l, hl, hle⟩ := h.done_le ca m hm
  obtain ⟨data, hdata⟩ := h.stored ca l hl
  exact Nat.lt_of_le_of_lt hle (List.getElem?_eq_some_iff.mp hdata).1

theorem update_reader {r : Nat} {next : Option (Reader D)}
    (hnext : ∀ x, next = some x → ReaderOk s.dataStore_ s.done x) (i : Nat) (reader : Reader D)
    (hi : update s.readers r next i = some reader) : ReaderOk s.dataStore_ s.done reader := by
  by_cases hir : i = r
  · subst hir
    rw [update_self] at hi
    exact hnext reader hi
  · rw [update_of_ne hir] at hi
    exact h.reading i reader hi

/-! ## The steps of a write -/

theorem writeClusters (clusters : List (ClusterAddress × D)) : Inv cfg (step cfg s (.writeClusters clusters)) := by
  simp only [step]
  split
  next hidle =>
    rw [List.isEmpty_iff] at hidle
    have hgrow : ∀ (l : Nat) x, s.dataStore_[l]? = some x → (s.dataStore_ ++ clusters)[l]? = some x := fun l x hx => by
      rw [List.getElem?_append_left (List.getElem?_eq_some_iff.mp hx).1]
      exact hx
    refine ⟨?_, h.done_le, ?_, ?_, located_sorted clusters _, ?_, ?_, ?_⟩
    · intro ca l hl
      obtain ⟨data, hdata⟩ := h.stored ca l hl
      exact ⟨data, hgrow _ _ hdata⟩
    · intro ca _
      refine h.quiet ca ?_
      unfold State.quiet
      rw [hidle]
      exact List.not_mem_nil
    · intro c hc
      obtain ⟨i, hi, hget⟩ := mem_located hc
      refine ⟨?_, fun m hm => ?_⟩
      · show (s.dataStore_ ++ clusters)[c.2.1]? = _
        rw [hi, List.getElem?_append_right (by omega), Nat.add_sub_cancel_left]
        exact hget
      · have hlt := h.done_lt hm
        omega
    · intro hupdated
      obtain ⟨c, rest, hwriter, -⟩ := h.updated hupdated
      rw [hidle] at hwriter
      cases hwriter
    · intro hsize ca data hdata
      obtain ⟨l, hl, hle⟩ := h.cached hsize ca data hdata
      exact ⟨l, hgrow _ _ hl, hle⟩
    · intro r reader hr
      exact (h.reading r reader hr).mono hgrow fun ca m hm => ⟨m, hm, le_rfl⟩
  · exact h

theorem writeClusterMetaData_ : Inv cfg (step cfg s .writeClusterMetaData_) := by
  simp only [step]
  split
  next ca loc data rest hwriter =>
    split
    · exact h
    · obtain ⟨hloc, hnewer⟩ := h.writing (ca, loc, data) (by rw [hwriter]; exact mem_cons_self ..)
      refine ⟨?_, ?_, ?_, h.writing, h.sorted, ?_, h.cached, h.reading⟩
      · intro a l hl
        rcases update_some hl with ⟨rfl, rfl⟩ | ⟨-, hl⟩
        · exact ⟨data, hloc⟩
        · exact h.stored a l hl
      · intro a m hm
        by_cases ha : a = ca
        · subst ha
          exact ⟨loc, update_self .., hnewer m hm⟩
        · obtain ⟨l, hl, hle⟩ := h.done_le a m hm
          exact ⟨l, (update_of_ne ha ..).trans hl, hle⟩
      · intro a ha
        have hne : a ≠ ca := by
          rintro rfl
          exact ha (by rw [hwriter]; exact mem_cons_self ..)
        exact (update_of_ne hne ..).trans (h.quiet a ha)
      · intro _
        exact ⟨(ca, loc, data), rest, hwriter, update_self ..⟩
  · exact h

theorem writeClusterCache : Inv cfg (step cfg s .writeClusterCache) := by
  simp only [step]
  split
  next ca loc data rest hwriter =>
    split
    next hupdated =>
      obtain ⟨c, rest', hwriter', hmeta⟩ := h.updated hupdated
      rw [hwriter] at hwriter'
      cases hwriter'
      obtain ⟨hloc, hnewer⟩ := h.writing (ca, loc, data) (by rw [hwriter]; exact mem_cons_self ..)
      have hsorted := h.sorted
      rw [hwriter] at hsorted
      obtain ⟨hlater, hsorted⟩ := pairwise_cons.mp hsorted
      refine ⟨h.stored, ?_, ?_, ?_, hsorted, nofun, ?_, ?_⟩
      · intro a m hm
        rcases update_some hm with ⟨rfl, rfl⟩ | ⟨-, hm⟩
        · exact ⟨m, hmeta, le_rfl⟩
        · exact h.done_le a m hm
      · intro a ha
        by_cases hne : a = ca
        · subst hne
          show s.metaDataStore_ a = update s.done a (some loc) a
          rw [hmeta, update_self]
        · refine (h.quiet a ?_).trans (update_of_ne hne ..).symm
          unfold State.quiet
          rw [hwriter, map_cons, mem_cons, not_or]
          exact ⟨hne, ha⟩
      · intro c hc
        obtain ⟨hstored, hdone⟩ := h.writing c (by rw [hwriter]; exact mem_cons_of_mem _ hc)
        refine ⟨hstored, fun m hm => ?_⟩
        rcases update_some hm with ⟨-, rfl⟩ | ⟨-, hm⟩
        · exact Nat.le_of_lt (hlater c hc)
        · exact hdone m hm
      · intro hsize a x hx
        rcases written_cached hsize hx with ⟨rfl, rfl⟩ | ⟨hne, hx⟩
        · refine ⟨loc, hloc, fun m hm => ?_⟩
          rcases update_some hm with ⟨-, rfl⟩ | ⟨hne, -⟩
          · exact le_rfl
          · exact absurd rfl hne
        · obtain ⟨l, hl, hle⟩ := h.cached hsize a x hx
          exact ⟨l, hl, fun m hm => hle m ((update_of_ne hne ..).symm.trans hm)⟩
      · intro r reader hr
        refine (h.reading r reader hr).mono (fun _ _ hx => hx) fun a m hm => ?_
        by_cases hne : a = ca
        · subst hne
          exact ⟨loc, update_self .., hnewer m hm⟩
        · exact ⟨m, (update_of_ne hne ..).trans hm, le_rfl⟩
    · exact h
  · exact h

/-! ## The steps of a read -/

theorem readCluster (r : Nat) (ca : ClusterAddress) :
    Fresh cfg s (.readCluster r ca) ∧ Inv cfg (step cfg s (.readCluster r ca)) := by
  have hsince : ∀ l, s.since ca = some l → s.metaDataStore_ ca = some l ∧ s.done ca = some l := by
    intro l hl
    unfold State.since at hl
    split at hl
    next hquiet => exact ⟨(h.quiet ca hquiet).trans hl, hl⟩
    · cases hl
  constructor
  · intro a l data hret
    simp only [returned] at hret
    split at hret
    next hnone =>
      -- there is metadata once a write has completed
      obtain ⟨-, hl, -⟩ : ca = a ∧ s.since ca = some l ∧ cfg.zero = data := by simpa using hret
      rw [(hsince l hl).1] at hnone
      cases hnone
    · cases hret
  · simp only [step]
    split
    next loc _ hloc =>
      refine { h with reading := h.update_reader ?_ }
      rintro x ⟨⟩
      refine ⟨h.stored ca loc hloc, nofun, fun l hl => ?_⟩
      obtain ⟨hmeta, hdone⟩ := hsince l hl
      rw [hloc] at hmeta
      cases hmeta
      exact ⟨le_rfl, loc, hdone, le_rfl⟩
    · exact h

theorem find_in_cluster_cache_ (r : Nat) :
    Fresh cfg s (.find_in_cluster_cache_ r) ∧ Inv cfg (step cfg s (.find_in_cluster_cache_ r)) := by
  constructor
  · intro a l x hret
    simp only [returned] at hret
    split at hret
    next ca loc since hr =>
      obtain ⟨data, hfind, heq⟩ := Option.map_eq_some_iff.mp hret
      cases heq
      obtain ⟨-, m, hm, hlm⟩ := (h.reading r _ hr).since l rfl
      unfold Config.find at hfind
      split at hfind
      next hsize =>
        obtain ⟨l', hl', hle⟩ := h.cached hsize a x (elapse_location hfind)
        exact ⟨l', hlm.trans (hle m hm), hl'⟩
      · cases hfind
    · cases hret
  · have hcached : cfg.same_cluster_size = true → ∀ a x,
        (s.clusterCache.elapse cfg.md5 cfg.surroundings).map (.location a) = some x →
        ∃ l, s.dataStore_[l]? = some (a, x) ∧ ∀ m, s.done a = some m → m ≤ l :=
      fun hsize a x hx => h.cached hsize a x (elapse_location hx)
    simp only [step]
    split
    next ca loc since hr =>
      have hok := h.reading r _ hr
      split
      · refine { h with cached := hcached, reading := h.update_reader ?_ }
        rintro x ⟨⟩
      · refine { h with cached := hcached, reading := h.update_reader ?_ }
        rintro x ⟨⟩
        exact ⟨hok.stored, nofun, hok.since⟩
    · exact h

theorem readClusters (r : Nat) : Inv cfg (step cfg s (.readClusters r)) := by
  simp only [step]
  split
  next ca loc since hr =>
    have hok := h.reading r _ hr
    split
    next ca' data hdata =>
      refine { h with reading := h.update_reader ?_ }
      rintro x ⟨⟩
      obtain ⟨data', hdata'⟩ := hok.stored
      rw [hdata] at hdata'
      cases hdata'
      refine ⟨⟨data, hdata⟩, ?_, hok.since⟩
      rintro y ⟨⟩
      exact hdata
    · exact h
  · exact h

theorem add_to_cluster_cache_ (r : Nat) (hfree : NotOvertaken s (.add_to_cluster_cache_ r)) :
    Fresh cfg s (.add_to_cluster_cache_ r) ∧ Inv cfg (step cfg s (.add_to_cluster_cache_ r)) := by
  constructor
  · intro a l x hret
    simp only [returned] at hret
    split at hret
    next ca loc data since hr =>
      cases hret
      have hok := h.reading r _ hr
      exact ⟨loc, (hok.since l rfl).1, hok.fetched x rfl⟩
    · cases hret
  · simp only [step]
    split
    next ca loc data since hr =>
      have hok := h.reading r _ hr
      have hnewest := hfree _ data hr rfl
      refine { h with cached := ?_, reading := h.update_reader nofun }
      intro hsize a x hx
      dsimp only at hx
      split at hx
      · unfold Config.add at hx
        rw [if_pos hsize] at hx
        rcases add_location hx with ⟨rfl, rfl⟩ | ⟨-, hx⟩
        · exact ⟨loc, hok.fetched x rfl, hnewest⟩
        · exact h.cached hsize a x hx
      · exact h.cached hsize a x hx
    · exact h

end Inv

end

/-! ## Every run -/

theorem step_inv (s : State D) (a : Action D) (h : Inv cfg s) (hfree : NotOvertaken s a) :
    Fresh cfg s a ∧ Inv cfg (step cfg s a) := by
  cases a with
  | writeClusters clusters => exact ⟨nofun, h.writeClusters clusters⟩
  | writeClusterMetaData_ => exact ⟨nofun, h.writeClusterMetaData_⟩
  | writeClusterCache => exact ⟨nofun, h.writeClusterCache⟩
  | readCluster r ca => exact h.readCluster r ca
  | find_in_cluster_cache_ r => exact h.find_in_cluster_cache_ r
  | readClusters r => exact ⟨nofun, h.readClusters r⟩
  | add_to_cluster_cache_ r => exact h.add_to_cluster_cache_ r hfree

/-- Reads return nothing stale in every run in which they add to the cache only what no write has
overtaken. -/
theorem reads_are_fresh (as : List (Action D)) (hfree : Each (step cfg) NotOvertaken {} as) :
    Each (step cfg) (Fresh cfg) {} as :=
  each_imp (Inv cfg) (step_inv cfg) (inv_init cfg) hfree

/-! ## Runs of a volume that caches on reads -/

/-- A volume that caches on reads, with numbers for clusters. -/
def cachingOnRead : Config Nat where
  md5 := fun _ => 0
  zero := 0
  behaviour := .CacheOnRead
  same_cluster_size := true

/-- A write of `data` to address 0, from its first to its last step. -/
def wholeWrite (data : Nat) : List (Action Nat) :=
  [.writeClusters [(0, data)], .writeClusterMetaData_, .writeClusterCache]

/-- A read of address 0 up to the point where it adds to the cache. -/
def slowRead (r : Nat) : List (Action Nat) :=
  [.readCluster r 0, .find_in_cluster_cache_ r, .readClusters r]

/-- The read adds to the cache before the next write begins. -/
def inTurn : List (Action Nat) := wholeWrite 1 ++ slowRead 0 ++ [.add_to_cluster_cache_ 0] ++ wholeWrite 2

theorem reads_are_fresh_in_turn : Each (step cachingOnRead) NotOvertaken {} inTurn ∧
    Each (step cachingOnRead) (Fresh cachingOnRead) {} inTurn := by
  have hfree : Each (step cachingOnRead) NotOvertaken {} inTurn := by
    refine ⟨trivial, trivial, trivial, trivial, trivial, trivial, ?_, trivial, trivial, trivial, trivial⟩
    rintro reader data ⟨⟩ - l ⟨⟩
    exact le_rfl
  exact ⟨hfree, reads_are_fresh cachingOnRead _ hfree⟩

/-- Address 0 is written, read, and written again before the read adds what it found to the cache. A
second read looks up the location. -/
def overtaken : List (Action Nat) :=
  wholeWrite 1 ++ slowRead 0 ++ wholeWrite 2 ++ [.add_to_cluster_cache_ 0, .readCluster 1 0]

/-- The second read started after both writes and returns what the first one wrote. -/
theorem overtaken_read_is_served :
    returned cachingOnRead (runs (step cachingOnRead) {} overtaken) (.find_in_cluster_cache_ 1) = some (0, some 1, 1) ∧
      ¬ Each (step cachingOnRead) (Fresh cachingOnRead) {} (overtaken ++ [.find_in_cluster_cache_ 1]) := by
  have hret : returned cachingOnRead (runs (step cachingOnRead) {} overtaken) (.find_in_cluster_cache_ 1)
      = some (0, some 1, 1) := rfl
  refine ⟨hret, fun heach => ?_⟩
  rw [each_append] at heach
  obtain ⟨l, hl, hdata⟩ := heach.2.1 0 1 1 hret
  match l, hl, hdata with
  | 1, _, hdata => cases hdata
  | l + 2, _, hdata => cases hdata

end VolumeDriver.ConcurrentReads
