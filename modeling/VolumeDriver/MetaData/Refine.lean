/-
The cached metadata store is a map. The abstract store is a function from addresses to locations
and the list of corks; every operation of the code does to what is visible what the abstract one
does to the function, whatever the cache evicts, writes out or discards on the way.
-/
import VolumeDriver.MetaData.Cache
import VolumeDriver.MetaData.Journal

namespace VolumeDriver

open Lib Function List

namespace CachedMetaDataStore

variable {page_bits : Nat} {β : Type} (B : MetaDataBackendInterface page_bits β)

/-! ## Operations -/

/-- The operations of the users of the store. -/
inductive Op
  | cork (cork : UUID)
  | writeCluster (caddr : ClusterAddress) (loc : ClusterLocationAndHash)
  | discardCluster (caddr : ClusterAddress)
  | unCork (cork : Option UUID)
  | readCluster (caddr : ClusterAddress)
  | set_cache_capacity (new_capacity : Nat)

/-- The store after an operation, and what it read. -/
def step (s : CachedMetaDataStore page_bits β) :
    Op → Result page_bits β (CachedMetaDataStore page_bits β × List ClusterLocationAndHash)
  | .cork cork => pure (s.cork cork, [])
  | .writeCluster caddr loc => pure (s.writeCluster caddr loc, [])
  | .discardCluster caddr => pure (s.discardCluster caddr, [])
  | .unCork cork => do
    let s ← unCork B s cork
    pure (s, [])
  | .readCluster caddr => do
    let (s, loc) ← readCluster B s caddr
    pure (s, [loc])
  | .set_cache_capacity n => do
    let s ← set_cache_capacity B s n
    pure (s, [])

/-- The store after a sequence of operations, and all they read. -/
def run (s : CachedMetaDataStore page_bits β) :
    List Op → Result page_bits β (CachedMetaDataStore page_bits β × List ClusterLocationAndHash)
  | [] => pure (s, [])
  | op :: ops => do
    let (s, out) ← step B s op
    let (s, outs) ← run s ops
    pure (s, out ++ outs)

end CachedMetaDataStore

/-! ## The abstract store -/

/-- A plain map, and the corks that are open. -/
structure MapStore where
  map : ClusterMap
  corks : List UUID

namespace MapStore

open CachedMetaDataStore (Op)

/-- The operations on a plain map. -/
def step (m : MapStore) : Op → MapStore × List ClusterLocationAndHash
  | .cork cork => (if m.corks.getLast? = some cork then m else { m with corks := m.corks ++ [cork] }, [])
  | .writeCluster caddr loc => ({ m with map := update m.map caddr loc }, [])
  | .discardCluster caddr => ({ m with map := update m.map caddr .discarded_location_and_hash }, [])
  | .unCork _ => ({ m with corks := m.corks.tail }, [])
  | .readCluster caddr => (m, [m.map caddr])
  | .set_cache_capacity _ => (m, [])

/-- The map after some operations, and all they read. -/
def run (m : MapStore) : List Op → MapStore × List ClusterLocationAndHash
  | [] => (m, [])
  | op :: ops => (((m.step op).1.run ops).1, (m.step op).2 ++ ((m.step op).1.run ops).2)

/-- What the users of the store keep to: they write under a cork, and no location only as the
discarded one; they uncork the oldest cork, never the only one. -/
def Legal (m : MapStore) : Op → Prop
  | .writeCluster _ loc => m.corks ≠ [] ∧ loc.fixup = loc
  | .discardCluster _ => m.corks ≠ []
  | .unCork cork => 2 ≤ m.corks.length ∧ ∀ c, cork = some c → m.corks.head? = some c
  | .set_cache_capacity n => 0 < n
  | _ => True

/-- Every operation is legal. -/
def LegalRun (m : MapStore) : List Op → Prop
  | [] => True
  | op :: ops => m.Legal op ∧ (m.step op).1.LegalRun ops

end MapStore

/-- The map with what was written under each open cork, the oldest first, kept apart from what was
uncorked. -/
structure LayeredMap where
  uncorked : ClusterMap
  layers : List (UUID × (ClusterAddress → Option ClusterLocationAndHash))

namespace LayeredMap

open CachedMetaDataStore (Op)

/-- A write goes to the newest cork, if there is one. -/
def write (m : LayeredMap) (caddr : ClusterAddress) (loc : ClusterLocationAndHash) : LayeredMap :=
  match m.layers.getLast? with
  | some (cork, l) => { m with layers := m.layers.dropLast ++ [(cork, update l caddr (some loc))] }
  | none => m

/-- Uncorking merges the oldest layer into what was uncorked before. -/
def unCork (m : LayeredMap) : LayeredMap where
  uncorked := fun ca => ((m.layers.head?.bind (·.2 ca))).getD (m.uncorked ca)
  layers := m.layers.tail

/-- The operations on the layers. -/
def step (m : LayeredMap) : Op → LayeredMap
  | .cork cork =>
    if m.layers.getLast?.map (·.1) = some cork then m
    else { m with layers := m.layers ++ [(cork, fun _ => none)] }
  | .writeCluster caddr loc => m.write caddr loc
  | .discardCluster caddr => m.write caddr .discarded_location_and_hash
  | .unCork _ => m.unCork
  | .readCluster _ => m
  | .set_cache_capacity _ => m

/-- What the layers hold for an address, the newest first. -/
def covering (m : LayeredMap) (ca : ClusterAddress) : Option ClusterLocationAndHash :=
  m.layers.reverse.findSome? (·.2 ca)

/-- The plain map that the layers show together. -/
def toMapStore (m : LayeredMap) : MapStore where
  map := fun ca => (m.covering ca).getD (m.uncorked ca)
  corks := m.layers.map Prod.fst

theorem toMapStore_map {m : LayeredMap} {ca : ClusterAddress} (h : m.covering ca = none) :
    m.toMapStore.map ca = m.uncorked ca := by
  simp [toMapStore, h]

/-- Every legal operation on the layers is the one on the plain map. -/
theorem toMapStore_step (m : LayeredMap) {op : Op} (hl : m.toMapStore.Legal op) :
    (m.step op).toMapStore = (m.toMapStore.step op).1 := by
  have hwrite : ∀ (ca : ClusterAddress) (loc : ClusterLocationAndHash), m.toMapStore.corks ≠ [] →
      (m.write ca loc).toMapStore = { m.toMapStore with map := update m.toMapStore.map ca loc } := by
    obtain ⟨base, layers⟩ := m
    intro ca loc hc
    rcases eq_nil_or_concat' layers with rfl | ⟨l, ⟨u, w⟩, rfl⟩
    · exact absurd rfl hc
    · simp only [write, toMapStore, covering, getLast?_concat, dropLast_concat, map_append, reverse_append,
        reverse_singleton, singleton_append, findSome?_cons, MapStore.mk.injEq]
      refine ⟨funext fun a => ?_, rfl⟩
      by_cases ha : a = ca
      · subst ha; simp
      · simp [ha]
  cases op with
  | cork u =>
    simp only [step, MapStore.step, toMapStore, getLast?_map]
    split
    · rfl
    · simp [covering]
  | writeCluster ca loc => exact hwrite ca loc hl.1
  | discardCluster ca => exact hwrite ca _ hl
  | unCork cork =>
    obtain ⟨base, _ | ⟨⟨u, w⟩, layers⟩⟩ := m
    · rfl
    · simp only [step, unCork, MapStore.step, toMapStore, covering, reverse_cons, findSome?_append, MapStore.mk.injEq]
      refine ⟨funext fun a => ?_, rfl⟩
      rw [Option.getD_or]
      simp
  | readCluster ca => rfl
  | set_cache_capacity n => rfl

theorem toMapStore_run : ∀ (ops : List Op) (m : LayeredMap), m.toMapStore.LegalRun ops →
    (ops.foldl step m).toMapStore = (m.toMapStore.run ops).1
  | [], _, _ => rfl
  | op :: ops, m, hl => by
    have hstep := m.toMapStore_step hl.1
    have hrest := hl.2
    rw [← hstep] at hrest
    rw [foldl_cons, toMapStore_run ops _ hrest, hstep]
    rfl

end LayeredMap

namespace CachedMetaDataStore

variable {page_bits : Nat} {β : Type} {B : MetaDataBackendInterface page_bits β}
  {s s' : CachedMetaDataStore page_bits β}

/-! ## What is visible -/

/-- The store shows the layers of `m`: its corks are the layers, its pages over the backend what was
uncorked. -/
structure Shows (B : MetaDataBackendInterface page_bits β) (s : CachedMetaDataStore page_bits β) (m : LayeredMap) :
    Prop where
  linked : Linked B s
  slots : Slots s
  corks : s.corks_.map (fun c => (c.1, fun ca => c.2[ca]?)) = m.layers
  map : ∀ ca, s.locationOf B ca = m.uncorked ca
  fixed : ∀ c ∈ s.corks_, ∀ (ca : ClusterAddress) (loc : ClusterLocationAndHash), c.2[ca]? = some loc → loc.fixup = loc

variable {m : LayeredMap}

theorem Shows.cache (hB : B.Lawful) (h : Shows B s m) (hc : Cache B s [] s') (hs : Slots s') : Shows B s' m := by
  obtain ⟨hl, hloc⟩ := hc.linked B hB h.linked
  have hf := hc.frame B hB
  exact ⟨hl, hs, hf.corks ▸ h.corks, fun ca => by rw [hloc]; exact h.map ca, hf.corks ▸ h.fixed⟩

theorem Shows.read (hB : B.Lawful) (hN : B.NonFailing) (h : Shows B s m) (ca : ClusterAddress) :
    ∃ s', readCluster B s ca = .ok (s', m.toMapStore.map ca) ∧ Shows B s' m := by
  obtain ⟨s', h1, hc, hs⟩ := (keeps_linked hB hN).readCluster hB h.linked h.slots ca
  have hcovering : corked s.corks_ ca = m.covering ca := by
    rw [LayeredMap.covering, ← h.corks, ← map_reverse, findSome?_map]
    rfl
  exact ⟨s', by rw [h1, h.map ca, hcovering]; rfl, h.cache hB hc hs⟩

theorem Shows.corked (h : Shows B s m) (corks : List (UUID × CaLocMap)) (hf : ∀ c ∈ corks, ∀ (ca : ClusterAddress)
    (loc : ClusterLocationAndHash), c.2[ca]? = some loc → loc.fixup = loc) :
    Shows B { s with corks_ := corks } { m with layers := corks.map fun c => (c.1, fun ca => c.2[ca]?) } := by
  obtain ⟨hl, hloc⟩ := h.linked.congr B { s with corks_ := corks } rfl rfl rfl rfl
  exact ⟨hl, h.slots.congr rfl rfl rfl, rfl, fun ca => by rw [hloc]; exact h.map ca, hf⟩

theorem Shows.write (h : Shows B s m) {ca : ClusterAddress} {loc : ClusterLocationAndHash} (hf : loc.fixup = loc) :
    Shows B (s.writeCluster ca loc) (m.write ca loc) := by
  have hcorks := h.corks
  rcases eq_nil_or_concat' s.corks_ with he | ⟨l, ⟨u, top⟩, he⟩
  · rw [he] at hcorks
    simpa [writeCluster, LayeredMap.write, he, ← hcorks] using h
  · have hnew := h.corked (l ++ [(u, top.insert ca loc)]) fun x hx a v hv => by
      rcases mem_append.1 hx with hx | hx
      · exact h.fixed x (by rw [he]; simp [hx]) a v hv
      · rw [mem_singleton.1 hx, Std.TreeMap.getElem?_insert] at hv
        split at hv
        · cases hv; exact hf
        · exact h.fixed (u, top) (by rw [he]; simp) a v hv
    have hinsert : (fun a => (top.insert ca loc)[a]?) = update (fun a => top[a]?) ca (some loc) := by
      funext a
      by_cases ha : ca = a
      · subst ha; simp
      · simp [Std.TreeMap.getElem?_insert, ha, update_of_ne (Ne.symm ha)]
    rw [he] at hcorks
    rw [map_append, map_singleton, hinsert] at hnew
    simpa [writeCluster, LayeredMap.write, he, ← hcorks] using hnew

theorem Shows.cork (h : Shows B s m) (u : UUID) : Shows B (s.cork u) (m.step (.cork u)) := by
  have hlast : m.layers.getLast?.map (·.1) = s.corks_.getLast?.map (·.1) := by
    rw [← h.corks, getLast?_map, Option.map_map]; rfl
  unfold CachedMetaDataStore.cork
  simp only [LayeredMap.step]
  rw [hlast]
  split
  · exact h
  · have hnew := h.corked (s.corks_ ++ [(u, ∅)]) fun x hx a v hv => by
      rcases mem_append.1 hx with hx | hx
      · exact h.fixed x hx a v hv
      · rw [mem_singleton.1 hx] at hv
        simp at hv
    rw [map_append, h.corks] at hnew
    simpa using hnew

/-- Uncorking replays the oldest cork onto the pages. -/
theorem Shows.unCork (hB : B.Lawful) (hN : B.NonFailing) (h : Shows B s m) {cork : Option UUID}
    (hl : m.toMapStore.Legal (.unCork cork)) : ∃ s', unCork B s cork = .ok s' ∧ Shows B s' m.unCork := by
  obtain ⟨hlen, hfront⟩ := hl
  have hcorks := h.corks
  simp only [LayeredMap.toMapStore, ← hcorks, length_map] at hlen hfront
  obtain ⟨front, second, rest, he⟩ : ∃ front second rest, s.corks_ = front :: second :: rest := by
    rcases hc : s.corks_ with _ | ⟨front, _ | ⟨second, rest⟩⟩
    · rw [hc] at hlen; simp at hlen
    · rw [hc] at hlen; simp at hlen
    · exact ⟨front, second, rest, rfl⟩
  have hf : ∀ c, cork = some c → front.1 = c := fun c hc => by
    have := hfront c hc
    rw [he] at this
    exact Option.some.inj this
  obtain ⟨s₂, b, h1, hc, hs₂, -, hb⟩ :=
    (keeps_linked hB hN).unCork h.linked h.slots he hf (by simp) fun u _ => hN.cork _ u
  obtain ⟨hl₂, hloc₂⟩ := hc.linked B hB h.linked
  obtain ⟨hl', hloc'⟩ := hl₂.congr B
    { s₂ with backend_ := b, cork_uuid_ := some front.1, corks_ := second :: rest } rfl rfl rfl (hB.cork hb).1
  rw [he] at hcorks
  refine ⟨_, h1, ⟨hl', hs₂.congr rfl rfl rfl, ?_, fun ca => ?_, ?_⟩⟩
  · rw [LayeredMap.unCork, ← hcorks]; rfl
  · rw [hloc', hloc₂, replay_apply, shown_of_fixed fun p hp => ?_, lastBinding_toList, h.map ca, LayeredMap.unCork,
      ← hcorks]
    · rfl
    · exact h.fixed front (by rw [he]; exact mem_cons_self ..) p.1 p.2
        (Std.TreeMap.mem_toList_iff_getElem?_eq_some.1 hp)
  · intro c hc
    exact h.fixed c (by rw [he]; exact mem_cons_of_mem _ hc)

/-- One operation on the store reads what the plain map has. -/
theorem Shows.step (hB : B.Lawful) (hN : B.NonFailing) (h : Shows B s m) {op : Op} (hl : m.toMapStore.Legal op) :
    ∃ s', step B s op = .ok (s', (m.toMapStore.step op).2) ∧ Shows B s' (m.step op) := by
  cases op with
  | cork u => exact ⟨_, rfl, h.cork u⟩
  | writeCluster ca loc => exact ⟨_, rfl, h.write hl.2⟩
  | discardCluster ca => exact ⟨_, rfl, h.write rfl⟩
  | unCork cork =>
    obtain ⟨s', h1, hs⟩ := h.unCork hB hN hl
    exact ⟨s', by rw [CachedMetaDataStore.step, h1]; rfl, hs⟩
  | readCluster ca =>
    obtain ⟨s', h1, hs⟩ := h.read hB hN ca
    exact ⟨s', by rw [CachedMetaDataStore.step, h1]; rfl, hs⟩
  | set_cache_capacity n =>
    obtain ⟨s', h1, hc, hs⟩ := (keeps_linked hB hN).set_cache_capacity h.linked h.slots hl
    exact ⟨s', by rw [CachedMetaDataStore.step, h1]; rfl, h.cache hB hc hs⟩

theorem Shows.run (hB : B.Lawful) (hN : B.NonFailing) : ∀ (ops : List Op) {s : CachedMetaDataStore page_bits β}
    {m : LayeredMap}, Shows B s m → m.toMapStore.LegalRun ops →
    ∃ s', run B s ops = .ok (s', (m.toMapStore.run ops).2) ∧ Shows B s' (ops.foldl LayeredMap.step m)
  | [], s, m, h, _ => ⟨s, rfl, h⟩
  | op :: ops, s, m, h, hl => by
    obtain ⟨s₁, h1, hs₁⟩ := h.step hB hN hl.1
    obtain ⟨s', h2, hs'⟩ := Shows.run hB hN ops hs₁ (m.toMapStore_step hl.1 ▸ hl.2)
    refine ⟨s', ?_, hs'⟩
    rw [m.toMapStore_step hl.1] at h2
    simp only [CachedMetaDataStore.run, h1, h2, ok_bind]; rfl

/-- What a new store shows of a backend. -/
def initial (B : MetaDataBackendInterface page_bits β) (b : β) : MapStore where
  map := fun ca => (B.stored b (CachePage.pageAddress page_bits ca) (CachePage.offset page_bits ca)).fixup
  corks := []

theorem Shows.create {b : β} {capacity : Nat} (hc : 0 < capacity) :
    ∃ s, create B b capacity = .ok s ∧ Shows B s ⟨(initial B b).map, []⟩ := by
  obtain ⟨s, h1, hl, hs, hcorks, _, hb, hm⟩ := create_ok (B := B) (b := b) hc
  refine ⟨s, h1, hl, hs, by rw [hcorks]; rfl, fun ca => ?_, by rw [hcorks]; simp⟩
  rw [locationOf, contents_of_none B (by rw [hm]), hb]
  rfl

/-- A store with any capacity over any pages reads, in every legal sequence of operations, what a
plain map would. -/
theorem run_reads_map (hB : B.Lawful) (hN : B.NonFailing) (b : β) {capacity : Nat} (hc : 0 < capacity)
    (ops : List Op) (hl : (initial B b).LegalRun ops) :
    ∃ s s', create B b capacity = .ok s ∧ run B s ops = .ok (s', ((initial B b).run ops).2) := by
  obtain ⟨s, h1, hs⟩ := Shows.create (B := B) (b := b) hc
  obtain ⟨s', h2, _⟩ := hs.run hB hN ops hl
  exact ⟨s, s', h1, h2⟩

/-- One slot for pages of two clusters: every access of another page evicts. -/
theorem run_reads_map_evicting :
    ∃ s s', create (Journal.backend 1) {} 1 = .ok s ∧
      run (Journal.backend 1) s [.cork 1, .writeCluster 0 ⟨⟨⟨1, 0, 0⟩, 0⟩, 7⟩, .writeCluster 5 ⟨⟨⟨1, 0, 0⟩, 1⟩, 8⟩,
        .cork 2, .unCork (some 1), .discardCluster 5, .cork 3, .unCork none, .readCluster 0, .readCluster 5,
        .readCluster 9] =
      .ok (s', [⟨⟨⟨1, 0, 0⟩, 0⟩, 7⟩, .discarded_location_and_hash, .discarded_location_and_hash]) :=
  run_reads_map (Journal.backend_lawful 1) (Journal.backend_nonFailing 1) {} Nat.one_pos _
    ⟨trivial, ⟨by decide, rfl⟩, ⟨by decide, rfl⟩, trivial, ⟨by decide, by rintro c ⟨⟩; rfl⟩,
      (by decide : [2] ≠ []), trivial, ⟨by decide, by rintro c ⟨⟩⟩, trivial, trivial, trivial, trivial⟩

/-- The destroyed store leaves a backend that shows all that was uncorked, and so the map itself at
every address that no open cork covers. -/
def Reopens (B : MetaDataBackendInterface page_bits β) (b : β) (capacity : Nat) (ops : List Op) : Prop :=
  ∃ s s₁ out s', create B b capacity = .ok s ∧ run B s ops = .ok (s₁, out) ∧
    do_write_dirty_pages_to_backend_and_clear_page_list B s₁ true true = .ok s' ∧
    let m := ops.foldl LayeredMap.step ⟨(initial B b).map, []⟩
    ∀ ca, (initial B s'.backend_).map ca = m.uncorked ca ∧
      (m.covering ca = none → (initial B s'.backend_).map ca = ((initial B b).run ops).1.map ca)

/-- Whatever was done to a store, a new one over the backend that it leaves shows what was uncorked. -/
theorem reopens_of_legal (hB : B.Lawful) (hN : B.NonFailing) (b : β) {capacity : Nat} (hc : 0 < capacity)
    (ops : List Op) (hl : (initial B b).LegalRun ops) : Reopens B b capacity ops := by
  obtain ⟨s, h1, hs⟩ := Shows.create (B := B) (b := b) hc
  obtain ⟨s₁, h2, hs₁⟩ := hs.run hB hN ops hl
  obtain ⟨s', h3, h4, hlist, h5⟩ := (keeps_linked hB hN).clear hs₁.linked hs₁.slots true
  have hs' := hs₁.cache hB h4 h5
  have hmap := LayeredMap.toMapStore_run ops ⟨(initial B b).map, []⟩ hl
  refine ⟨s, s₁, _, s', h1, h2, h3, fun ca => ?_⟩
  have hnone : s'.page_map_ (CachePage.pageAddress page_bits ca) = none := by
    refine Option.eq_none_iff_forall_ne_some.2 fun i hi => ?_
    simpa [hlist] using (hs'.linked.map _ i).1 hi
  have hshown := hs'.map ca
  rw [locationOf, contents_of_none B hnone] at hshown
  refine ⟨hshown, fun hcovering => hshown.trans ?_⟩
  rw [← LayeredMap.toMapStore_map hcovering, hmap]
  rfl

/-- Both corks write cluster 5; only the first one is closed. -/
theorem reopens_uncorked :
    let ops := [.cork 1, .writeCluster 5 ⟨⟨⟨1, 0, 0⟩, 0⟩, 7⟩, .cork 2, .writeCluster 5 ⟨⟨⟨1, 0, 0⟩, 1⟩, 8⟩,
      .unCork none]
    Reopens (Journal.backend 1) {} 1 ops ∧
      (ops.foldl LayeredMap.step ⟨(initial (Journal.backend 1) {}).map, []⟩).uncorked 5 = ⟨⟨⟨1, 0, 0⟩, 0⟩, 7⟩ :=
  ⟨reopens_of_legal (Journal.backend_lawful 1) (Journal.backend_nonFailing 1) {} Nat.one_pos _
    ⟨trivial, ⟨by decide, rfl⟩, trivial, ⟨by decide, rfl⟩, ⟨by decide, by rintro c ⟨⟩⟩, trivial⟩, rfl⟩

end CachedMetaDataStore

end VolumeDriver
