/-
A metadata backend that records the calls made to it. What it stores is what its calls say, so a
crash is the loss of some of the last calls.
-/
import VolumeDriver.MetaData.Page

namespace VolumeDriver

open Lib

/-- A call that changes the backend. -/
inductive Call (page_bits : Nat)
  | putPage (pa : PageAddress) (data : PageData page_bits)
  | discardPage (pa : PageAddress)
  | setCork (cork : UUID)
  | set_scrub_id (id : ScrubId)
  | clear_all_keys

/-- A backend that held `base` before the calls were made, next to the pages `parent` of its parent. -/
structure Journal (page_bits : Nat) where
  base : PageAddress → Option (PageData page_bits) := fun _ => none
  parent : PageAddress → Bool := fun _ => false
  calls : List (Call page_bits) := []

namespace Journal

variable {page_bits : Nat}

/-- The pages after a call. -/
def applyPages (m : PageAddress → Option (PageData page_bits)) :
    Call page_bits → PageAddress → Option (PageData page_bits)
  | .putPage pa data => Function.update m pa (some data)
  | .discardPage pa => Function.update m pa none
  | .setCork _ => m
  | .set_scrub_id _ => m
  | .clear_all_keys => fun _ => none

/-- The cork after a call. -/
def applyCork (c : Option UUID) : Call page_bits → Option UUID
  | .setCork cork => some cork
  | .clear_all_keys => none
  | _ => c

/-- The scrub id after a call. -/
def applyScrub (c : Option ScrubId) : Call page_bits → Option ScrubId
  | .set_scrub_id id => some id
  | .clear_all_keys => none
  | _ => c

variable (j : Journal page_bits)

/-- The pages after all calls. -/
def pages : PageAddress → Option (PageData page_bits) := j.calls.foldl applyPages j.base

/-- The cork after all calls. -/
def cork : Option UUID := j.calls.foldl applyCork none

/-- The scrub id after all calls. -/
def scrub : Option ScrubId := j.calls.foldl applyScrub none

/-- One more call. -/
def record (c : Call page_bits) : Journal page_bits := { j with calls := j.calls ++ [c] }

/-- The backend of a journal. -/
def backend (page_bits : Nat) : MetaDataBackendInterface page_bits (Journal page_bits) where
  getPage := pages
  putPage := fun j p _ => .ok (j.record (.putPage p.page_address p.data))
  discardPage := fun j p _ => .ok (j.record (.discardPage p.page_address))
  pageExistsInParent := fun j => j.parent
  clear_all_keys := fun j => .ok (j.record .clear_all_keys)
  scrub_id := scrub
  set_scrub_id := fun j id => .ok (j.record (.set_scrub_id id))
  setCork := fun j u => .ok (j.record (.setCork u))
  lastCorkUUID := cork
  getUsedClusters := fun _ => 0

theorem pages_record (c : Call page_bits) : (j.record c).pages = applyPages j.pages c := by
  simp [pages, record]

theorem cork_record (c : Call page_bits) : (j.record c).cork = applyCork j.cork c := by
  simp [cork, record]

theorem stored_eq (pa : PageAddress) :
    (backend page_bits).stored j pa = (j.pages pa).getD (CachePage.reset page_bits) := rfl

theorem backend_lawful (page_bits : Nat) : (backend page_bits).Lawful where
  put := by
    intro b b' p d h
    cases h
    refine ⟨funext fun pa => ?_, rfl, cork_record _ _⟩
    rw [stored_eq, pages_record, applyPages]
    by_cases hpa : pa = p.page_address
    · subst hpa; simp
    · simp [hpa, stored_eq]
  discard := by
    intro b b' p d h _
    cases h
    refine ⟨funext fun pa => ?_, rfl, cork_record _ _⟩
    rw [stored_eq, pages_record, applyPages]
    by_cases hpa : pa = p.page_address
    · subst hpa; simp
    · simp [hpa, stored_eq]
  cork := by
    intro b b' u h
    cases h
    exact ⟨funext fun pa => by rw [stored_eq, pages_record]; rfl, rfl, cork_record _ _⟩
  scrub := by
    intro b b' u h
    cases h
    exact ⟨funext fun pa => by rw [stored_eq, pages_record]; rfl, rfl, cork_record _ _⟩

theorem backend_nonFailing (page_bits : Nat) : (backend page_bits).NonFailing :=
  ⟨fun _ _ _ => ⟨_, rfl⟩, fun _ _ _ => ⟨_, rfl⟩, fun _ _ => ⟨_, rfl⟩, fun _ _ => ⟨_, rfl⟩, fun _ => ⟨_, rfl⟩⟩

end Journal

end VolumeDriver
