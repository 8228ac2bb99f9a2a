/-
Pages of cluster locations (CachedMetaDataPage.h) and the interface of the stores that keep them
(MetaDataBackendInterface.h), with the laws a store that does not fail obeys. A page holds
`2 ^ page_bits` locations; `page_bits` is fixed when the process starts (METADATASTORE_BITS).
-/
import VolumeDriver.Types
import Mathlib.Tactic

namespace VolumeDriver

open Lib

/-- The locations of one page. -/
abbrev PageData (page_bits : Nat) := Fin (2 ^ page_bits) → ClusterLocationAndHash

/-- A page in the cache, with what was done to it since it was last written to the backend. -/
structure CachePage (page_bits : Nat) where
  page_address : PageAddress
  data : PageData page_bits
  dirty : Bool := false
  written_clusters_since_last_backend_write : Nat := 0
  discarded_clusters_since_last_backend_write : Nat := 0

namespace CachePage

variable {page_bits : Nat}

/-- The number of locations of a page. -/
def capacity (page_bits : Nat) : Nat := 1 <<< page_bits

/-- The page of a cluster. -/
def pageAddress (page_bits : Nat) (ca : ClusterAddress) : PageAddress := ca >>> page_bits

/-- The first cluster of a page. -/
def clusterAddress (page_bits : Nat) (pa : PageAddress) : ClusterAddress := pa <<< page_bits

/-- The index of a cluster in its page. -/
def offset (page_bits : Nat) (ca : ClusterAddress) : Fin (2 ^ page_bits) :=
  ⟨ca &&& (2 ^ page_bits - 1), Nat.and_lt_two_pow ca (Nat.sub_lt (Nat.two_pow_pos page_bits) Nat.one_pos)⟩

/-- All bytes 0, as `reset` leaves them. -/
def reset (page_bits : Nat) : PageData page_bits := fun _ => .zero

/-- No location in the page. -/
def empty (p : CachePage page_bits) : Bool := decide (∀ i, (p.data i).isNull = true)

/-- The counters of a page that was not written to yet, or that the backend has. -/
def written (p : CachePage page_bits) : CachePage page_bits :=
  { p with
    dirty := false
    written_clusters_since_last_backend_write := 0
    discarded_clusters_since_last_backend_write := 0 }

/-! ## Addresses -/

theorem offset_val (ca : ClusterAddress) : (offset page_bits ca).val = ca % 2 ^ page_bits :=
  Nat.and_two_pow_sub_one_eq_mod ca page_bits

theorem pageAddress_eq (ca : ClusterAddress) : pageAddress page_bits ca = ca / 2 ^ page_bits :=
  Nat.shiftRight_eq_div_pow ca page_bits

theorem address_ext {a b : ClusterAddress} (hp : pageAddress page_bits a = pageAddress page_bits b)
    (ho : offset page_bits a = offset page_bits b) : a = b := by
  have ho := congrArg Fin.val ho
  rw [offset_val, offset_val] at ho
  rw [pageAddress_eq, pageAddress_eq] at hp
  rw [← Nat.div_add_mod a (2 ^ page_bits), ← Nat.div_add_mod b (2 ^ page_bits), hp, ho]

theorem clusterAddress_eq (pa : PageAddress) : clusterAddress page_bits pa = pa * 2 ^ page_bits :=
  Nat.shiftLeft_eq pa page_bits

theorem pageAddress_add (pa : PageAddress) (i : Fin (2 ^ page_bits)) :
    pageAddress page_bits (clusterAddress page_bits pa + i) = pa := by
  rw [pageAddress_eq, clusterAddress_eq, Nat.add_comm, Nat.add_mul_div_right _ _ (Nat.two_pow_pos _),
    Nat.div_eq_of_lt i.2, Nat.zero_add]

theorem offset_add (pa : PageAddress) (i : Fin (2 ^ page_bits)) :
    offset page_bits (clusterAddress page_bits pa + i) = i := by
  apply Fin.ext
  rw [offset_val, clusterAddress_eq, Nat.mul_add_mod_self_right, Nat.mod_eq_of_lt i.2]

end CachePage

/-! ## Backends -/

/-- The operations of a metadata backend whose state is a `β`. `putPage` and `discardPage` take
the page and by how much it changes the number of used clusters. -/
structure MetaDataBackendInterface (page_bits : Nat) (β : Type) where
  getPage : β → PageAddress → Option (PageData page_bits)
  putPage : β → CachePage page_bits → Int → Except Exn β
  discardPage : β → CachePage page_bits → Int → Except Exn β
  pageExistsInParent : β → PageAddress → Bool
  clear_all_keys : β → Except Exn β
  scrub_id : β → Option ScrubId
  set_scrub_id : β → ScrubId → Except Exn β
  setCork : β → UUID → Except Exn β
  lastCorkUUID : β → Option UUID
  getUsedClusters : β → Nat

namespace MetaDataBackendInterface

variable {page_bits : Nat} {β : Type} (B : MetaDataBackendInterface page_bits β)

/-- What a cache finds for a page: zeroes if the backend has none. -/
def stored (b : β) (pa : PageAddress) : PageData page_bits := (B.getPage b pa).getD (CachePage.reset page_bits)

/-- The backend keeps what it is given. -/
structure Lawful : Prop where
  put : ∀ {b b' p d}, B.putPage b p d = .ok b' →
    B.stored b' = Function.update (B.stored b) p.page_address p.data ∧
      B.pageExistsInParent b' = B.pageExistsInParent b ∧ B.lastCorkUUID b' = B.lastCorkUUID b
  discard : ∀ {b b' p d}, B.discardPage b p d = .ok b' → B.pageExistsInParent b p.page_address = false →
    B.stored b' = Function.update (B.stored b) p.page_address (CachePage.reset page_bits) ∧
      B.pageExistsInParent b' = B.pageExistsInParent b ∧ B.lastCorkUUID b' = B.lastCorkUUID b
  cork : ∀ {b b' u}, B.setCork b u = .ok b' →
    B.stored b' = B.stored b ∧ B.pageExistsInParent b' = B.pageExistsInParent b ∧ B.lastCorkUUID b' = some u
  scrub : ∀ {b b' u}, B.set_scrub_id b u = .ok b' →
    B.stored b' = B.stored b ∧ B.pageExistsInParent b' = B.pageExistsInParent b ∧
      B.lastCorkUUID b' = B.lastCorkUUID b

/-- No call throws. -/
structure NonFailing : Prop where
  put : ∀ b p d, ∃ b', B.putPage b p d = .ok b'
  discard : ∀ b p d, ∃ b', B.discardPage b p d = .ok b'
  cork : ∀ b u, ∃ b', B.setCork b u = .ok b'
  scrub : ∀ b u, ∃ b', B.set_scrub_id b u = .ok b'
  clear : ∀ b, ∃ b', B.clear_all_keys b = .ok b'

end MetaDataBackendInterface

end VolumeDriver
