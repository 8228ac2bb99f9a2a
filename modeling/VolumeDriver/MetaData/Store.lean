/-
The cached metadata store (CachedMetaDataStore.cpp). Writes go to the map of the newest cork;
uncorking the oldest one writes its map into cached pages, writes the dirty pages to the backend
and records the cork there. Pages live in a fixed number of slots; when all are taken the least
recently used page makes room.
-/
import VolumeDriver.MetaData.Page
import Std.Data.TreeMap.Lemmas

namespace VolumeDriver

open Lib Function CachePage

/-- The entries written under one cork. -/
abbrev CaLocMap := Std.TreeMap ClusterAddress ClusterLocationAndHash

/-- `pages_` are the slots, of which there are `pages_size`. `page_map_` finds the slot of a page
address and `page_list_` holds the slots in use, least recently used first. `corks_` has the newest
cork at its end. `failed_` is no member of the code's: it collects what the backend threw when it was
given a page, also where the code goes on after that. -/
structure CachedMetaDataStore (page_bits : Nat) (β : Type) where
  backend_ : β
  pages_ : Nat → CachePage page_bits
  pages_size : Nat
  page_map_ : PageAddress → Option Nat := fun _ => none
  page_list_ : List Nat := []
  num_pages_ : Nat := 0
  written_clusters_ : Int := 0
  discarded_clusters_ : Int := 0
  cork_uuid_ : Option UUID
  scrub_id_ : Option ScrubId
  corks_ : List (UUID × CaLocMap) := []
  failed_ : List Exn := []

namespace CachedMetaDataStore

variable {page_bits : Nat} {β : Type} (B : MetaDataBackendInterface page_bits β)

/-- A call that throws leaves the store as it was at that point. -/
abbrev Result (page_bits : Nat) (β α : Type) := Except (Exn × CachedMetaDataStore page_bits β) α

/-- The slots as `init_pages_` sets them up. -/
def init_pages_ (page_bits : Nat) (i : Nat) : CachePage page_bits :=
  { page_address := i, data := reset page_bits }

/-- A store with an empty cache. -/
def create (backend : β) (capacity : Nat) : Except Exn (CachedMetaDataStore page_bits β) := do
  VERIFY (0 < capacity) "capacity > 0"
  pure {
    backend_ := backend
    pages_ := init_pages_ page_bits
    pages_size := capacity
    cork_uuid_ := B.lastCorkUUID backend
    scrub_id_ := B.scrub_id backend }

variable (s : CachedMetaDataStore page_bits β)

/-- A backend call made by the store. -/
def call (r : Except Exn β) : Result page_bits β β :=
  r.mapError fun e => (e, s)

/-- A `VERIFY` that fails leaves the store as it is. -/
def VERIFY (p : Prop) [Decidable p] (what : String) :
    Result page_bits β Unit :=
  verify p (.assertion what, s)

/-! ## Pages -/

/-- The store with another page in slot `i`. -/
def setPage (i : Nat) (p : CachePage page_bits) :
    CachedMetaDataStore page_bits β :=
  { s with pages_ := update s.pages_ i p }

/-- The change in used clusters that the page in slot `i` brings to the backend. -/
def delta (i : Nat) : Int :=
  ((s.pages_ i).written_clusters_since_last_backend_write : Int) -
    (s.pages_ i).discarded_clusters_since_last_backend_write

/-- The backend, now `b`, has the page in slot `i`: its counters leave the totals. -/
def disposed (i : Nat) (b : β) : CachedMetaDataStore page_bits β :=
  { s.setPage i (s.pages_ i).written with
    backend_ := b
    written_clusters_ := s.written_clusters_ - (s.pages_ i).written_clusters_since_last_backend_write
    discarded_clusters_ := s.discarded_clusters_ - (s.pages_ i).discarded_clusters_since_last_backend_write }

/-- Hands the page in slot `i` to the backend. -/
def dispose_page (dispose : β → CachePage page_bits → Int → Except Exn β) (s : CachedMetaDataStore page_bits β)
    (i : Nat) : Result page_bits β (CachedMetaDataStore page_bits β) :=
  match dispose s.backend_ (s.pages_ i) (s.delta i) with
  | .ok b => pure (s.disposed i b)
  | .error e => throw (e, { s with failed_ := s.failed_ ++ [e] })

/-- Discards the page in slot `i`, unless the parent has one. -/
def possibly_discard_page_ (i : Nat) :
    Result page_bits β (CachedMetaDataStore page_bits β × Bool) :=
  if B.pageExistsInParent s.backend_ (s.pages_ i).page_address then pure (s, false)
  else do
    let s ← s.dispose_page B.discardPage i
    pure (s, true)

/-- Writes the page in slot `i` if it is dirty, or discards it if nothing is left in it. -/
def maybeWritePage_locked_context (i : Nat) (ignore_errors : Bool) :
    Result page_bits β (CachedMetaDataStore page_bits β × Bool) :=
  if (s.pages_ i).dirty then
    let attempt : Result page_bits β (CachedMetaDataStore page_bits β × Bool) := do
      let (s, discarded) ← if (s.pages_ i).empty then possibly_discard_page_ B s i else pure (s, false)
      if discarded then pure (s, false)
      else do
        let s ← s.dispose_page B.putPage i
        pure (s, true)
    match attempt with
    | .ok r => .ok r
    | .error (e, s) => if ignore_errors then .ok (s, false) else .error (e, s)
  else .ok (s, false)

/-- Takes the page in slot `i` out of the list and the map. -/
def unlink (i : Nat) : CachedMetaDataStore page_bits β :=
  { s with
    page_list_ := s.page_list_.erase i
    page_map_ := update s.page_map_ (s.pages_ i).page_address none
    num_pages_ := s.num_pages_ - 1 }

/-- Reads a page from the backend into slot `i`. -/
def load (pa : PageAddress) (i : Nat) : CachedMetaDataStore page_bits β :=
  { s.setPage i { page_address := pa, data := B.stored s.backend_ pa } with
    page_map_ := update s.page_map_ pa (some i)
    num_pages_ := s.num_pages_ + 1
    page_list_ := s.page_list_ ++ [i] }

/-- The slot of the page of `ca`, now the most recently used one. -/
def get_page_ (ca : ClusterAddress) :
    Result page_bits β (CachedMetaDataStore page_bits β × Nat) :=
  let pa := pageAddress page_bits ca
  match s.page_map_ pa with
  | none => do
    let (s, i) ←
      if s.num_pages_ < s.pages_size then pure (s, s.num_pages_)
      else
        match s.page_list_ with
        | [] => throw (.assertion "page_list_.front()", s)
        | i :: _ => do
          let (s, _) ← maybeWritePage_locked_context B (s.unlink i) i false
          pure (s, i)
    pure (load B s pa i, i)
  | some i => pure ({ s with page_list_ := s.page_list_.erase i ++ [i] }, i)

/-- Writes `loc` for `ca` into the page in slot `i` and counts what that changes. -/
def write (i : Nat) (ca : ClusterAddress) (loc : ClusterLocationAndHash) :
    CachedMetaDataStore page_bits β :=
  let p := s.pages_ i
  let clh := p.data (offset page_bits ca)
  let w := if clh.isNull = true ∧ loc.isNull = false then 1 else 0
  let d := if clh.isNull = false ∧ loc.isNull = true then 1 else 0
  { s.setPage i { p with
      data := update p.data (offset page_bits ca) loc
      dirty := true
      written_clusters_since_last_backend_write := p.written_clusters_since_last_backend_write + w
      discarded_clusters_since_last_backend_write := p.discarded_clusters_since_last_backend_write + d } with
    written_clusters_ := s.written_clusters_ + w
    discarded_clusters_ := s.discarded_clusters_ + d }

/-- Reads or writes the location of an address in its page. -/
def get_cluster_location_unlocked_ (ca : ClusterAddress)
    (loc : ClusterLocationAndHash) (for_write : Bool) :
    Result page_bits β (CachedMetaDataStore page_bits β × ClusterLocationAndHash) := do
  let (s, i) ← get_page_ B s ca
  if for_write then pure (s.write i ca loc, loc)
  else pure (s, (s.pages_ i).data (offset page_bits ca))

/-- As `get_cluster_location_unlocked_`, with the lock. -/
def get_cluster_location_ (ca : ClusterAddress)
    (loc : ClusterLocationAndHash) (for_write : Bool) :
    Result page_bits β (CachedMetaDataStore page_bits β × ClusterLocationAndHash) :=
  get_cluster_location_unlocked_ B s ca loc for_write

/-- A loop that writes one location after the other. -/
def writeAll (l : Bindings) : Result page_bits β (CachedMetaDataStore page_bits β) :=
  l.foldlM (fun s p => do
    let (s, _) ← get_cluster_location_ B s p.1 p.2 true
    pure s) s

/-- Writes the dirty pages among the slots `l`. -/
def maybeWritePages (l : List Nat) : Result page_bits β (CachedMetaDataStore page_bits β) :=
  l.foldlM (fun s i => do
    let (s, _) ← maybeWritePage_locked_context B s i false
    pure s) s

/-- Empties the cache from the least recently used page on; the loop goes over the list at the
start, which only shrinks. -/
def do_write_dirty_pages_to_backend_and_clear_page_list
    (sync ignore_errors : Bool) : Result page_bits β (CachedMetaDataStore page_bits β) := do
  let s ← s.page_list_.foldlM (fun s i =>
    let s := s.unlink i
    if sync then do
      let (s, _) ← maybeWritePage_locked_context B s i ignore_errors
      pure s
    else pure s) s
  pure { s with pages_ := fun i => { s.pages_ i with data := reset page_bits } }

/-! ## Operations -/

/-- The value of an address in the newest cork that has one. -/
def corked (corks : List (UUID × CaLocMap)) (caddr : ClusterAddress) : Option ClusterLocationAndHash :=
  corks.reverse.findSome? fun crk => crk.2[caddr]?

/-- The newest cork that has the address, or else the page; one representation for no location. -/
def readCluster (caddr : ClusterAddress) :
    Result page_bits β (CachedMetaDataStore page_bits β × ClusterLocationAndHash) :=
  match corked s.corks_ caddr with
  | some loc => pure (s, loc)
  | none => do
    let (s, loc) ← get_cluster_location_ B s caddr .zero false
    pure (s, loc.fixup)

/-- There is a newest cork whenever the volume writes; without one the code's behaviour is
undefined. -/
def writeCluster (caddr : ClusterAddress) (loc : ClusterLocationAndHash) :
    CachedMetaDataStore page_bits β :=
  match s.corks_.getLast? with
  | some (uuid, m) => { s with corks_ := s.corks_.dropLast ++ [(uuid, m.insert caddr loc)] }
  | none => s

/-- A discard is a write of no location. -/
def discardCluster (caddr : ClusterAddress) :
    CachedMetaDataStore page_bits β :=
  s.writeCluster caddr .discarded_location_and_hash

/-- A new cork, unless it is the newest one already. -/
def cork (s : CachedMetaDataStore page_bits β) (cork : UUID) : CachedMetaDataStore page_bits β :=
  if s.corks_.getLast?.map (·.1) = some cork then s
  else { s with corks_ := s.corks_ ++ [(cork, ∅)] }

/-- The first check of `unCork`. -/
def verifyFront (cork : Option UUID) : Result page_bits β Unit :=
  match cork with
  | some cork => do
    s.VERIFY (s.corks_ ≠ []) "not corks_.empty()"
    s.VERIFY (s.corks_.head?.map (·.1) = some cork) "corks_.front().first == *cork"
  | none => pure ()

/-- Writes the oldest cork's entries into pages and these to the backend, then records the cork. The
second check compares the corks with their maps' addresses: the first is the last only if there is
one cork. -/
def unCork (cork : Option UUID) : Result page_bits β (CachedMetaDataStore page_bits β) := do
  s.verifyFront cork
  match s.corks_ with
  | front :: second :: rest => do
    let s ← writeAll B s front.2.toList
    let s ← maybeWritePages B s s.page_list_
    let b ← s.call (B.setCork s.backend_ front.1)
    pure { s with backend_ := b, cork_uuid_ := some front.1, corks_ := second :: rest }
  | _ => throw (.assertion "corks_.front() != corks_.back()", s)

/-- The last cork that was written out. -/
def lastCork : Option UUID := s.cork_uuid_

/-- The scrub id. -/
def scrub_id : Option ScrubId := s.scrub_id_

/-- Records a scrub id. -/
def set_scrub_id (s : CachedMetaDataStore page_bits β) (id : ScrubId) :
    Result page_bits β (CachedMetaDataStore page_bits β) := do
  let b ← s.call (B.set_scrub_id s.backend_ id)
  pure { s with backend_ := b, scrub_id_ := some id }

/-- Forgets everything, in the backend too. -/
def clear_all_keys (s : CachedMetaDataStore page_bits β) : Result page_bits β (CachedMetaDataStore page_bits β) := do
  let s := { s with corks_ := [] }
  let s ← do_write_dirty_pages_to_backend_and_clear_page_list B s false false
  let b ← s.call (B.clear_all_keys s.backend_)
  pure { s with backend_ := b, cork_uuid_ := none, scrub_id_ := none }

/-- Drops the cached pages unwritten. -/
def drop_cache_including_dirty_pages : Result page_bits β (CachedMetaDataStore page_bits β) :=
  do_write_dirty_pages_to_backend_and_clear_page_list B s false true

/-- Empties the cache, and sets it up anew. -/
def set_cache_capacity (new_capacity : Nat) : Result page_bits β (CachedMetaDataStore page_bits β) := do
  s.VERIFY (0 < new_capacity) "new_capacity > 0"
  if new_capacity ≠ s.pages_size then do
    let s ← do_write_dirty_pages_to_backend_and_clear_page_list B s true true
    pure { s with pages_ := init_pages_ page_bits, pages_size := new_capacity }
  else pure s

/-- `MetaDataStoreStats::used_clusters`. -/
def used_clusters : Int :=
  s.written_clusters_ - s.discarded_clusters_ + B.getUsedClusters s.backend_

end CachedMetaDataStore

end VolumeDriver
