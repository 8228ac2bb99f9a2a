/-
The metadata backend of a metadata server (MDSMetaDataBackend.cpp): a table with a record for every
page, one for the number of used clusters and one each for the cork and the scrub id. The number of
used clusters is also kept in memory, from when the table was opened.
-/
import VolumeDriver.MetaData.Page
import Std.Data.TreeMap.Lemmas

namespace VolumeDriver

open Lib

/-- The records of a table. -/
structure MDSTable (page_bits : Nat) where
  pages : Std.TreeMap PageAddress (PageData page_bits) := ∅
  used_clusters : Option Nat := none
  cork_id : Option UUID := none
  scrub_id : Option ScrubId := none

/-- The table, and what is kept of it in memory. -/
structure MDSMetaDataBackend (page_bits : Nat) where
  table_ : MDSTable page_bits
  used_clusters_ : Nat
  owner_tag_ : Option Nat

namespace MDSMetaDataBackend

variable {page_bits : Nat}

/-- The constructor reads the number of used clusters from the table. -/
def create (table : MDSTable page_bits) (owner_tag : Option Nat) : MDSMetaDataBackend page_bits where
  table_ := table
  used_clusters_ := table.used_clusters.getD 0
  owner_tag_ := owner_tag

/-- The record of the page and of the number of used clusters are set together. -/
def setPage (b : MDSMetaDataBackend page_bits) (pages : Std.TreeMap PageAddress (PageData page_bits))
    (used_clusters_delta : Int) : Except Exn (MDSMetaDataBackend page_bits) := do
  let x := (b.used_clusters_ : Int) + used_clusters_delta
  VERIFY (0 ≤ x) "x >= 0"
  VERIFY (b.owner_tag_ ≠ none) "owner_tag_"
  pure { b with table_ := { b.table_ with pages := pages, used_clusters := some x.toNat }, used_clusters_ := x.toNat }

/-- Stores a page. -/
def putPage (b : MDSMetaDataBackend page_bits) (p : CachePage page_bits) (used_clusters_delta : Int) :
    Except Exn (MDSMetaDataBackend page_bits) :=
  b.setPage (b.table_.pages.insert p.page_address p.data) used_clusters_delta

/-- Drops a page. -/
def discardPage (b : MDSMetaDataBackend page_bits) (p : CachePage page_bits) (used_clusters_delta : Int) :
    Except Exn (MDSMetaDataBackend page_bits) :=
  b.setPage (b.table_.pages.erase p.page_address) used_clusters_delta

/-- The table is empty; the number kept in memory stays. -/
def cleared (b : MDSMetaDataBackend page_bits) : MDSMetaDataBackend page_bits := { b with table_ := {} }

/-- Drops all records. -/
def clear_all_keys (b : MDSMetaDataBackend page_bits) : Except Exn (MDSMetaDataBackend page_bits) := do
  VERIFY (b.owner_tag_ ≠ none) "owner_tag_"
  pure b.cleared

/-- Records a cork. -/
def setCork (b : MDSMetaDataBackend page_bits) (cork_id : UUID) : Except Exn (MDSMetaDataBackend page_bits) := do
  VERIFY (b.owner_tag_ ≠ none) "owner_tag_"
  pure { b with table_ := { b.table_ with cork_id := some cork_id } }

/-- Records a scrub id. -/
def set_scrub_id (b : MDSMetaDataBackend page_bits) (scrub_id : ScrubId) :
    Except Exn (MDSMetaDataBackend page_bits) := do
  VERIFY (b.owner_tag_ ≠ none) "owner_tag_"
  pure { b with table_ := { b.table_ with scrub_id := some scrub_id } }

/-- The table as a backend. -/
def backend (page_bits : Nat) : MetaDataBackendInterface page_bits (MDSMetaDataBackend page_bits) where
  getPage := fun b pa => b.table_.pages[pa]?
  putPage := putPage
  discardPage := discardPage
  pageExistsInParent := fun _ _ => false
  clear_all_keys := clear_all_keys
  scrub_id := fun b => b.table_.scrub_id
  set_scrub_id := set_scrub_id
  setCork := setCork
  lastCorkUUID := fun b => b.table_.cork_id
  getUsedClusters := fun b => b.used_clusters_

theorem stored_eq (b : MDSMetaDataBackend page_bits) (pa : PageAddress) :
    (backend page_bits).stored b pa = (b.table_.pages[pa]?).getD (CachePage.reset page_bits) := rfl

variable {b : MDSMetaDataBackend page_bits} {pages : Std.TreeMap PageAddress (PageData page_bits)}

/-- What a page call that succeeds has checked and changed. -/
theorem setPage_ok {b' : MDSMetaDataBackend page_bits} {d : Int} (h : b.setPage pages d = .ok b') :
    (b'.used_clusters_ : Int) = b.used_clusters_ + d ∧ b'.table_.pages = pages ∧
      b'.table_.used_clusters = some b'.used_clusters_ ∧ b'.owner_tag_ = b.owner_tag_ ∧
      b'.table_.cork_id = b.table_.cork_id := by
  obtain ⟨hx, h⟩ := VERIFY_bind_ok h
  obtain ⟨_, h⟩ := VERIFY_bind_ok h
  rw [← pure_ok h]
  exact ⟨Int.toNat_of_nonneg hx, rfl, rfl, rfl, rfl⟩

theorem setPage_of_nonneg {d : Int}
    (hx : 0 ≤ (b.used_clusters_ : Int) + d) (ho : b.owner_tag_ ≠ none) : ∃ b', b.setPage pages d = .ok b' := by
  unfold setPage
  dsimp only
  rw [VERIFY_of hx, ok_bind, VERIFY_of ho]
  exact ⟨_, rfl⟩

theorem setCork_of_owner (ho : b.owner_tag_ ≠ none) (u : UUID) :
    b.setCork u = .ok { b with table_ := { b.table_ with cork_id := some u } } := by
  unfold setCork
  rw [VERIFY_of ho]; rfl

theorem set_scrub_id_of_owner (ho : b.owner_tag_ ≠ none) (id : ScrubId) :
    b.set_scrub_id id = .ok { b with table_ := { b.table_ with scrub_id := some id } } := by
  unfold set_scrub_id
  rw [VERIFY_of ho]; rfl

theorem clear_all_keys_of_owner (ho : b.owner_tag_ ≠ none) : b.clear_all_keys = .ok b.cleared := by
  unfold clear_all_keys
  rw [VERIFY_of ho]; rfl

theorem stored_cleared (b : MDSMetaDataBackend page_bits) :
    (backend page_bits).stored b.cleared = fun _ => CachePage.reset page_bits := by
  funext pa
  rw [stored_eq]
  simp [cleared]

theorem backend_lawful (page_bits : Nat) : (backend page_bits).Lawful where
  put := by
    intro b b' p d h
    obtain ⟨_, hp, _, _, hc⟩ := setPage_ok h
    refine ⟨funext fun pa => ?_, rfl, hc⟩
    rw [stored_eq, hp, Std.TreeMap.getElem?_insert]
    by_cases hpa : p.page_address = pa
    · subst hpa; simp
    · simp [hpa, Ne.symm hpa, stored_eq]
  discard := by
    intro b b' p d h _
    obtain ⟨_, hp, _, _, hc⟩ := setPage_ok h
    refine ⟨funext fun pa => ?_, rfl, hc⟩
    rw [stored_eq, hp, Std.TreeMap.getElem?_erase]
    by_cases hpa : p.page_address = pa
    · subst hpa; simp
    · simp [hpa, Ne.symm hpa, stored_eq]
  cork := by
    intro b b' u h
    obtain ⟨_, h⟩ := VERIFY_bind_ok h
    rw [← pure_ok h]
    exact ⟨rfl, rfl, rfl⟩
  scrub := by
    intro b b' u h
    obtain ⟨_, h⟩ := VERIFY_bind_ok h
    rw [← pure_ok h]
    exact ⟨rfl, rfl, rfl⟩

end MDSMetaDataBackend

end VolumeDriver
