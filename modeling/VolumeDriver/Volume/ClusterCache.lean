/-
The cluster cache as one volume sees it (`ClusterCache::add`, `read`, `invalidate`): clusters are
found by their address in the volume's own namespace, or by their hash in one that all volumes
share. An entry may go at any time (it is recycled, or its device fails), and other volumes may add
clusters by their hash; both are functions of the number of calls so far.
-/
import VolumeDriver.Types
import Mathlib.Data.Set.Function

namespace VolumeDriver

open Function

/-- What a cluster is found by. -/
inductive ClusterCacheMode
  | ContentBased
  | LocationBased
  deriving DecidableEq, Repr

/-- When clusters are added. -/
inductive ClusterCacheBehaviour
  | CacheOnWrite
  | CacheOnRead
  | NoCache
  deriving DecidableEq, Repr

/-- The keys. -/
inductive ClusterCacheKey
  | location (ca : ClusterAddress)
  | content (weed : Weed)
  deriving DecidableEq, Repr

/-- The entries, and how many calls there were. -/
structure ClusterCache (D : Type) where
  map : ClusterCacheKey → Option D := fun _ => none
  calls : Nat := 0

/-- What happens to the entries before the call of a given number. -/
structure ClusterCache.Surroundings (D : Type) where
  recycled : Nat → ClusterCacheKey → Bool := fun _ _ => false
  /-- The clusters that other volumes add by their hash. -/
  others : Nat → List D := fun _ => []

namespace ClusterCache

variable {D : Type}

/-- An entry that is found by its hash never changes, and a null hash is no key. -/
def addByContent (map : ClusterCacheKey → Option D) (weed : Weed) (data : D) : ClusterCacheKey → Option D :=
  if weed ≠ 0 ∧ (map (.content weed)).isNone then update map (.content weed) (some data) else map

variable (md5 : D → Weed) (surr : Surroundings D)

/-- The entries at the next call. -/
def elapse (c : ClusterCache D) : ClusterCache D where
  map := fun key =>
    if surr.recycled c.calls key then none
    else (surr.others c.calls).foldl (fun map data => addByContent map (md5 data) data) c.map key
  calls := c.calls + 1

/-- `ClusterCache::add`. -/
def add (mode : ClusterCacheMode) (ca : ClusterAddress) (weed : Weed) (data : D) (c : ClusterCache D) :
    ClusterCache D :=
  let c := c.elapse md5 surr
  match mode with
  | .LocationBased => { c with map := update c.map (.location ca) (some data) }
  | .ContentBased => { c with map := addByContent c.map weed data }

/-- `ClusterCache::read`. -/
def read (mode : ClusterCacheMode) (ca : ClusterAddress) (weed : Weed) (c : ClusterCache D) : Option D :=
  match mode with
  | .LocationBased => (c.elapse md5 surr).map (.location ca)
  | .ContentBased => if weed ≠ 0 then (c.elapse md5 surr).map (.content weed) else none

/-- `ClusterCache::invalidate`. -/
def invalidate (mode : ClusterCacheMode) (ca : ClusterAddress) (c : ClusterCache D) : ClusterCache D :=
  let c := c.elapse md5 surr
  match mode with
  | .LocationBased => { c with map := update c.map (.location ca) none }
  | .ContentBased => c

/-! ## Entries by location -/

section
variable {md5 surr} {c : ClusterCache D} {ca : ClusterAddress} {data : D}

theorem foldl_addByContent_location (ca : ClusterAddress) : ∀ (others : List D) (map : ClusterCacheKey → Option D),
    others.foldl (fun map data => addByContent map (md5 data) data) map (.location ca) = map (.location ca)
  | [], _ => rfl
  | data :: others, map => by
    rw [List.foldl_cons, foldl_addByContent_location ca others]
    unfold addByContent
    split
    · exact update_of_ne (by simp) ..
    · rfl

theorem elapse_location (h : (c.elapse md5 surr).map (.location ca) = some data) :
    c.map (.location ca) = some data := by
  simp only [elapse] at h
  split at h
  · cases h
  · rwa [foldl_addByContent_location] at h

theorem add_location {a : ClusterAddress} {x : D} {weed : Weed}
    (h : (c.add md5 surr .LocationBased ca weed data).map (.location a) = some x) :
    a = ca ∧ x = data ∨ a ≠ ca ∧ c.map (.location a) = some x := by
  by_cases ha : a = ca
  · subst ha
    simp only [add, update_self] at h
    exact Or.inl ⟨rfl, (Option.some.inj h).symm⟩
  · have hne : ClusterCacheKey.location a ≠ .location ca := by simpa using ha
    simp only [add, update_of_ne hne] at h
    exact Or.inr ⟨ha, elapse_location h⟩

theorem invalidate_location {a : ClusterAddress} {x : D}
    (h : (c.invalidate md5 surr .LocationBased ca).map (.location a) = some x) :
    a ≠ ca ∧ c.map (.location a) = some x := by
  by_cases ha : a = ca
  · subst ha
    simp only [invalidate, update_self] at h
    cases h
  · have hne : ClusterCacheKey.location a ≠ .location ca := by simpa using ha
    simp only [invalidate, update_of_ne hne] at h
    exact ⟨ha, elapse_location h⟩

end

/-! ## Entries that agree with the volume -/

/-- `content` are the clusters of the volume, `W` those that any volume writes. -/
structure Sound (mode : ClusterCacheMode) (W : Set D) (content : ClusterAddress → D)
    (map : ClusterCacheKey → Option D) : Prop where
  location : mode = .LocationBased → ∀ ca data, map (.location ca) = some data → data = content ca
  content : ∀ weed data, map (.content weed) = some data → md5 data = weed ∧ data ∈ W

section
variable {md5 surr} {mode : ClusterCacheMode} {W : Set D} {content : ClusterAddress → D} {c : ClusterCache D}
  {map : ClusterCacheKey → Option D} {ca : ClusterAddress} {weed : Weed} {data : D}

theorem addByContent_cases (map : ClusterCacheKey → Option D) (weed : Weed) (data : D) (key : ClusterCacheKey) :
    addByContent map weed data key = map key ∨ key = .content weed ∧ addByContent map weed data key = some data := by
  unfold addByContent
  split
  · by_cases hkey : key = .content weed
    · subst hkey
      exact .inr ⟨rfl, update_self ..⟩
    · exact .inl (update_of_ne hkey ..)
  · exact .inl rfl

theorem Sound.addByContent (h : Sound md5 mode W content map) (hw : md5 data = weed) (hdata : data ∈ W) :
    Sound md5 mode W content (addByContent map weed data) := by
  constructor
  · intro hmode a x hx
    rcases addByContent_cases map weed data (.location a) with heq | ⟨heq, -⟩
    · exact h.location hmode a x (heq.symm.trans hx)
    · cases heq
  · intro w x hx
    rcases addByContent_cases map weed data (.content w) with heq | ⟨hkey, heq⟩
    · exact h.content w x (heq.symm.trans hx)
    · cases hkey
      cases heq.symm.trans hx
      exact ⟨hw, hdata⟩

theorem Sound.foldl_addByContent : ∀ {others : List D} {map : ClusterCacheKey → Option D},
    Sound md5 mode W content map → (∀ data ∈ others, data ∈ W) →
    Sound md5 mode W content (others.foldl (fun map data => ClusterCache.addByContent map (md5 data) data) map)
  | [], _, h, _ => h
  | data :: _, _, h, hW =>
    (h.addByContent rfl (hW data (List.mem_cons_self ..))).foldl_addByContent
      fun x hx => hW x (List.mem_cons_of_mem data hx)

theorem Sound.update_location (h : Sound md5 .LocationBased W content map) (entry : Option D)
    (hentry : ∀ x, entry = some x → x = data) :
    Sound md5 .LocationBased W (update content ca data) (update map (.location ca) entry) := by
  constructor
  · intro _ a x hx
    by_cases ha : a = ca
    · subst ha
      rw [update_self] at hx ⊢
      exact hentry x hx
    · have hne : ClusterCacheKey.location a ≠ .location ca := by simpa using ha
      rw [update_of_ne ha]
      rw [update_of_ne hne] at hx
      exact h.location rfl a x hx
  · intro w x hx
    exact h.content w x hx

theorem Sound.update_content (h : Sound md5 .ContentBased W content map) (content' : ClusterAddress → D) :
    Sound md5 .ContentBased W content' map :=
  ⟨fun hmode => (by cases hmode), h.content⟩

section
variable (hothers : ∀ i, ∀ data ∈ surr.others i, data ∈ W)

include hothers in
theorem Sound.elapse (h : Sound md5 mode W content c.map) : Sound md5 mode W content (c.elapse md5 surr).map := by
  have hadded := h.foldl_addByContent (hothers c.calls)
  constructor
  · intro hmode a x hx
    simp only [ClusterCache.elapse] at hx
    split at hx
    · cases hx
    · exact hadded.location hmode a x hx
  · intro w x hx
    simp only [ClusterCache.elapse] at hx
    split at hx
    · cases hx
    · exact hadded.content w x hx

include hothers in
/-- The cluster is that of the volume, if no other cluster has its hash. -/
theorem Sound.read_eq (h : Sound md5 mode W content c.map) (hinj : Set.InjOn md5 W)
    (hweed : mode = .ContentBased → weed = md5 (content ca) ∧ content ca ∈ W)
    (hread : c.read md5 surr mode ca weed = some data) : data = content ca := by
  have helapse := h.elapse hothers
  cases mode with
  | LocationBased => exact helapse.location rfl ca data hread
  | ContentBased =>
    obtain ⟨rfl, hW⟩ := hweed rfl
    simp only [read] at hread
    split at hread
    · obtain ⟨heq, hdata⟩ := helapse.content _ data hread
      exact hinj hdata hW heq
    · cases hread

include hothers in
theorem Sound.add (ca : ClusterAddress) (h : Sound md5 mode W content c.map)
    (hweed : mode = .ContentBased → weed = md5 data ∧ data ∈ W) :
    Sound md5 mode W (update content ca data) (c.add md5 surr mode ca weed data).map := by
  have helapse := h.elapse hothers
  cases mode with
  | LocationBased => exact helapse.update_location (some data) (by rintro x ⟨⟩; rfl)
  | ContentBased =>
    obtain ⟨rfl, hW⟩ := hweed rfl
    exact (helapse.addByContent rfl hW).update_content _

include hothers in
theorem Sound.invalidate (ca : ClusterAddress) (data : D) (h : Sound md5 mode W content c.map) :
    Sound md5 mode W (update content ca data) (c.invalidate md5 surr mode ca).map := by
  have helapse := h.elapse hothers
  cases mode with
  | LocationBased => exact helapse.update_location none (by rintro x ⟨⟩)
  | ContentBased => exact helapse.update_content _

end

end

end ClusterCache

end VolumeDriver
