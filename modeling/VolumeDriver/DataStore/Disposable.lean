/-
When a SCO may go from the cache, and where it is fetched from: over every sequence of calls of the
data store, with any end of the calls it makes itself.
-/
import VolumeDriver.DataStore.SCOCache

namespace VolumeDriver.Caching

open Lib Function List Triple Store Caching

/-! ## What is on the backend -/

/-- A SCO of the volume itself, as a write makes it. -/
def Own (sco : SCO) : Prop := sco.cloneID = 0 ∧ sco.version = 0 ∧ 1 ≤ sco.number

/-- What the cache does not change: the current location, and what is known of the backend. -/
structure Numbers where
  loc : ClusterLocation
  pending : List SCO
  latest : SCONumber
  written : List SCO
  upTo : SCONumber

/-- The part of the state that the cache does not change. -/
def Store.numbers (s : Store) : Numbers :=
  ⟨s.currentClusterLoc_, s.pendingTLogSCOs_, s.latestSCOnumberInBackend_, s.written, s.upTo⟩

namespace Numbers

/-- A SCO of a parent is on the backend. -/
def OnBackend (k : Numbers) (sco : SCO) : Prop := sco.cloneID ≠ 0 ∨ sco ∈ k.written

/-- A `writtenToBackendUpTo` has told that the TLog of the SCO is on the backend. -/
def TLogOnBackend (k : Numbers) (sco : SCO) : Prop := sco.cloneID ≠ 0 ∨ sco.number ≤ k.upTo

/-- The backend has the SCO and its TLog. -/
def Releasable (k : Numbers) (sco : SCO) : Prop := k.OnBackend sco ∧ k.TLogOnBackend sco

/-- A SCO of a parent, or one that the volume has come to. -/
def Has (k : Numbers) (sco : SCO) : Prop := sco.cloneID ≠ 0 ∨ Own sco ∧ sco.number ≤ k.loc.sco.number

/-- `due` are the SCOs that `writtenToBackendUpTo` is about to release. -/
structure Ok (due : List SCO) (k : Numbers) : Prop where
  current : Own k.loc.sco
  pending : ∀ sco, sco ∈ k.pending ∨ sco ∈ due → sco ∈ k.written
  due : ∀ sco ∈ due, sco.number ≤ k.latest
  latest : k.upTo = k.latest
  covered : ∀ sco, Own sco → sco.number ≤ k.latest → sco ∈ k.written
  written : ∀ sco ∈ k.written, Own sco ∧ sco.number < k.loc.sco.number ∧ (sco.number ≤ k.latest ∨ sco ∈ k.pending)

end Numbers

/-- The calls come as the volume's tasks make them: SCO numbers do not run out, a SCO is written
once it is finalised and has clusters, a TLog after its SCOs and after the TLogs before it. A SCO
whose TLog is not on the backend is not fetched back, and none that is in the cache is purged. -/
def InOrder (s : Store) (ev : Event) : Prop :=
  match ev.action with
  | .finalizeCurrentSCO => s.number + 1 < 2 ^ 32
  | .writtenToBackend sco =>
    Own sco ∧ s.latestSCOnumberInBackend_ < sco.number ∧ sco.number < s.number ∧
      ∀ e, s.entry sco = some e → e.st_size ≠ 0
  | .writtenToBackendUpTo action num =>
    s.latestSCOnumberInBackend_ ≤ num ∧ (∀ sco, Own sco → sco.number ≤ num → sco ∈ s.written) ∧
      (action = .PurgeFromSCOCache → ∀ sco ∈ s.due num, s.find sco = none ∧ s.entry sco = none)
  | .readClusters sco =>
    s.numbers.Has sco ∧
      (sco ∈ s.pendingTLogSCOs_ → ev.calls.partial_read = true ∨ s.find sco ≠ none ∨ s.entry sco ≠ none)
  | _ => True

/-- What holds of a call: SCOs are released when the backend has them and their TLog, a SCO is
fetched from where it is, and a `writtenToBackendUpTo` without a failure takes no mount point away
and no SCO but those it is about. -/
structure Safe (s : Store) (ev : Event) : Prop where
  released : ∀ sco ∈ (step s ev).released, (step s ev).numbers.Releasable sco
  fetched : ∀ sco, (step s ev).numbers.Has sco →
    ((step s ev).fromBackend sco = true ↔ (step s ev).numbers.OnBackend sco)
  upTo : ∀ action num, ev.action = .writtenToBackendUpTo action num → ev.calls.Fine →
    (step s ev).cache.mountPoints_ = s.cache.mountPoints_ ∧
      ∀ key, (step s ev).cache.nsMap_ key = none →
        s.cache.nsMap_ key = none ∨ key.1 = s.nspace_ ∧ key.2 ∈ s.due num

namespace Numbers

variable {due : List SCO} {k : Numbers} {sco : SCO}

theorem Ok.releasable (h : k.Ok due) (hsco : sco ∈ due) : k.Releasable sco :=
  ⟨Or.inr (h.pending sco (Or.inr hsco)), Or.inr (h.latest ▸ h.due sco hsco)⟩

theorem Ok.lt_current (h : k.Ok due) (hsco : sco ∈ k.pending ∨ sco ∈ due) : sco.number < k.loc.sco.number :=
  (h.written sco (h.pending sco hsco)).2.1

theorem Ok.current_fresh (h : k.Ok due) : k.loc.sco ∉ k.pending ∧ k.loc.sco ∉ due := by
  constructor
  · intro hmem
    exact Nat.lt_irrefl _ (h.lt_current (Or.inl hmem))
  · intro hmem
    exact Nat.lt_irrefl _ (h.lt_current (Or.inr hmem))

end Numbers

theorem Store.fromBackend_iff (s : Store) (sco : SCO) : s.fromBackend sco = true ↔
      sco.cloneID ≠ 0 ∨ sco.number ≤ s.latestSCOnumberInBackend_ ∨ sco ∈ s.pendingTLogSCOs_ := by
  simp [fromBackend, or_assoc]

variable {s : Store} {sco : SCO}

theorem fromBackend_onBackend (h : s.numbers.Ok []) (hhas : s.numbers.Has sco) :
    s.fromBackend sco = true ↔ s.numbers.OnBackend sco := by
  rw [s.fromBackend_iff]
  constructor
  · rintro (hclone | hle | hpending)
    · exact Or.inl hclone
    · rcases hhas with hclone | ⟨hown, -⟩
      · exact Or.inl hclone
      · exact Or.inr (h.covered sco hown hle)
    · exact Or.inr (h.pending sco (Or.inl hpending))
  · rintro (hclone | hwritten)
    · exact Or.inl hclone
    · exact Or.inr (h.written sco hwritten).2.2

/-! ## What the cache holds -/

theorem Store.find_eq_some (s : Store) {mp : MountPoint} :
    s.find sco = some mp ↔ s.openSCOs_ (s.index_ sco) = some (sco, mp) := by
  unfold find
  constructor
  · intro h
    split at h
    · next x mp' heq =>
      split at h
      · next hx =>
        cases h
        rw [heq, hx]
      · cases h
    · cases h
  · intro h
    rw [h]
    exact if_pos rfl

theorem Store.openSCOs_withBucket (s : Store) (sco : SCO) (o : Option (SCO × MountPoint)) (i : Nat) :
    (s.withBucket sco o).openSCOs_ i = if i = s.index_ sco then o else s.openSCOs_ i :=
  update_apply ..

theorem Store.entry_withEntry (s : Store) (sco x : SCO) (e : Option CachedSCO) :
    (s.withEntry sco e).entry x = if x = sco then e else s.entry x := by
  unfold entry withEntry
  by_cases hx : x = sco
  · subst hx
    simp
  · simp [update_of_ne, hx]

/-- The files in the cache are on mount points that are online, and an open SCO's file is there as
long as its mount point is. What is pending or due is not empty. -/
structure Cached (due : List SCO) (k : Numbers) (s : Store) : Prop where
  numbers : s.numbers = k
  online : ∀ sco e, s.entry sco = some e → e.mntPoint_ ∈ s.cache.mountPoints_
  opened : ∀ sco mp, s.find sco = some mp → mp ∈ s.cache.mountPoints_ → ∃ e, s.entry sco = some e ∧ e.mntPoint_ = mp
  disposable : ∀ sco e, s.entry sco = some e → e.disposable_ = true → k.Releasable sco
  released : ∀ sco ∈ s.released, k.Releasable sco
  full : ∀ sco, sco ∈ k.pending ∨ sco ∈ due → ∀ e, s.entry sco = some e → e.st_size ≠ 0

namespace Cached

variable {due : List SCO} {k : Numbers} {s : Store} {sco : SCO} {mp : MountPoint}

theorem withEntry (h : Cached due k s) (e : Option CachedSCO)
    (honline : ∀ x, e = some x → x.mntPoint_ ∈ s.cache.mountPoints_)
    (hopened : ∀ mp, s.find sco = some mp → mp ∈ s.cache.mountPoints_ → ∃ x, e = some x ∧ x.mntPoint_ = mp)
    (hdisposable : ∀ x, e = some x → x.disposable_ = true → k.Releasable sco)
    (hfull : sco ∈ k.pending ∨ sco ∈ due → ∀ x, e = some x → x.st_size ≠ 0) : Cached due k (s.withEntry sco e) where
  __ := h
  online := by
    intro x y hy
    rw [entry_withEntry] at hy
    split at hy
    · exact honline y hy
    · exact h.online x y hy
  opened := by
    intro x mp hmp honl
    rw [entry_withEntry]
    split
    · next hx => exact hopened mp (hx ▸ hmp) honl
    · exact h.opened x mp hmp honl
  disposable := by
    intro x y hy hdisp
    rw [entry_withEntry] at hy
    split at hy
    · next hx => exact hx ▸ hdisposable y hy hdisp
    · exact h.disposable x y hy hdisp
  full := by
    intro x hx y hy
    rw [entry_withEntry] at hy
    split at hy
    · next hsco => exact hfull (hsco ▸ hx) y hy
    · exact h.full x hx y hy

theorem release (h : Cached due k s) (hsco : k.Releasable sco) :
    Cached due k { s with released := s.released ++ [sco] } where
  __ := h
  released := by
    intro x hx
    rcases mem_append.mp hx with hx | hx
    · exact h.released x hx
    · rw [mem_singleton.mp hx]
      exact hsco

theorem withBucket (h : Cached due k s) (o : Option (SCO × MountPoint))
    (ho : ∀ x mp, o = some (x, mp) → ∃ e, s.entry x = some e ∧ e.mntPoint_ = mp) :
    Cached due k (s.withBucket sco o) where
  __ := h
  opened := by
    intro x mp hmp honl
    rw [find_eq_some, show index_ (s.withBucket sco o) x = s.index_ x from rfl, openSCOs_withBucket] at hmp
    split at hmp
    · exact ho x mp hmp
    · exact h.opened x mp (s.find_eq_some.mpr hmp) honl

theorem dropMountPoint (h : Cached due k s) (mp : MountPoint) :
    Cached due k { s with cache := s.cache.dropMountPoint mp } := by
  have hentry : ∀ {x : SCO} {e : CachedSCO}, entry { s with cache := s.cache.dropMountPoint mp } x = some e →
      s.entry x = some e ∧ e.mntPoint_ ≠ mp := by
    intro x e he
    obtain ⟨hx, hne⟩ := Option.filter_eq_some_iff.mp he
    exact ⟨hx, by simpa using hne⟩
  constructor
  · exact h.numbers
  · intro x e he
    obtain ⟨hx, hne⟩ := hentry he
    exact mem_filter.mpr ⟨h.online x e hx, by simpa using hne⟩
  · intro x mp' hmp honl
    obtain ⟨honl, hne⟩ := mem_filter.mp honl
    obtain ⟨e, he, rfl⟩ := h.opened x mp' hmp honl
    exact ⟨e, Option.filter_eq_some_iff.mpr ⟨he, hne⟩, rfl⟩
  · intro x e he
    exact h.disposable x e (hentry he).1
  · exact h.released
  · intro x hx e he
    exact h.full x hx e (hentry he).1

theorem foldl_dropMountPoint : ∀ (mps : List MountPoint) (s : Store), Cached due k s →
    Cached due k { s with cache := mps.foldl SCOCache.dropMountPoint s.cache }
  | [], _, h => h
  | mp :: mps, s, h => foldl_dropMountPoint mps { s with cache := s.cache.dropMountPoint mp } (h.dropMountPoint mp)

theorem offlineMountPoint_ (h : Cached due k s) (calls : Calls) (mp : MountPoint) :
    Cached due k (s.offlineMountPoint_ calls mp) := by
  unfold Store.offlineMountPoint_ SCOCache.offlineMountPoint_
  split
  · exact foldl_dropMountPoint _ { s with cache := s.cache.dropMountPoint mp } (h.dropMountPoint mp)
  · exact h

end Cached

/-! ## The calls keep it -/

section
variable {due : List SCO} {k : Numbers} {calls : Calls} {sco : SCO} {mp : MountPoint}

/-- The mount point of the SCO's file in the cache. -/
def At (sco : SCO) (mp : Option MountPoint) (s : Store) : Prop := (s.entry sco).map (·.mntPoint_) = mp

theorem erase_bucket_triple {x : SCO} {w : Option MountPoint} : Triple (fun s => Cached due k s ∧ At x w s)
    (erase_bucket calls sco) (fun _ s => Cached due k s ∧ At x w s) (Cached due k) := by
  apply get_bind
  rintro s ⟨hs, hat⟩
  split
  · split
    · exact throw_of_eq hs
    · exact set (fun _ _ => ⟨hs.withBucket none (by rintro x mp ⟨⟩), hat⟩)
  · exact pure_of_eq ⟨hs, hat⟩

theorem erase_bucket_cached : Triple (Cached due k) (erase_bucket calls sco) (fun _ => Cached due k) (Cached due k) :=
  fun s hs => weaken erase_bucket_triple (fun _ h => h) (fun _ _ h => h.1) s
    ⟨hs, show At sco ((s.entry sco).map (·.mntPoint_)) s from rfl⟩

theorem erase_triple (sync : Bool) :
    Triple (Cached due k) (erase calls sco sync) (fun _ => Cached due k) (Cached due k) := by
  apply get_bind
  rintro s hs
  split
  · split
    · exact throw_of_eq hs
    · exact set (fun _ _ => hs.withBucket none (by rintro x mp ⟨⟩))
  · exact pure_of_eq hs

theorem openSCO_triple : Triple (fun s => Cached due k s ∧ At sco (some mp) s) (openSCO calls sco mp)
    (fun _ => Cached due k) (Cached due k) := by
  apply Triple.ite
  · intro _
    exact Triple.throw fun _ hs => hs.1
  · intro _
    apply Triple.bind erase_bucket_triple
    intro _
    apply Triple.modify
    rintro s ⟨hs, hat⟩
    exact hs.withBucket _ (by rintro x mp ⟨⟩; exact Option.map_eq_some_iff.mp hat)

theorem Cached.fill {s : Store} (h : Cached due k s) (hpending : sco ∉ k.pending) (hdue : sco ∉ due)
    (honline : mp ∈ s.cache.mountPoints_) (hclosed : ∀ x, s.find sco = some x → x ∉ s.cache.mountPoints_) (n : Nat) :
    Cached due k (s.withEntry sco (some { mntPoint_ := mp, st_size := n })) ∧
      At sco (some mp) (s.withEntry sco (some { mntPoint_ := mp, st_size := n })) := by
  refine ⟨h.withEntry _ ?_ (fun x hx hmem => absurd hmem (hclosed x hx)) ?_ ?_,
    congrArg _ ((s.entry_withEntry ..).trans (if_pos rfl))⟩
  · rintro x ⟨⟩
    exact honline
  · rintro x ⟨⟩ ⟨⟩
  · exact fun h => absurd h (not_or.mpr ⟨hpending, hdue⟩)

/-- A SCO that was just created: none that is open has its file. -/
structure Created (sco : SCO) (mp : MountPoint) (s : Store) : Prop where
  online : mp ∈ s.cache.mountPoints_
  at_ : At sco (some mp) s
  closed : ∀ x, s.find sco = some x → x ∉ s.cache.mountPoints_

theorem createSCO_triple (hpending : sco ∉ k.pending) (hdue : sco ∉ due) :
    Triple (Cached due k) (createSCO calls sco) (fun mp s => Cached due k s ∧ Created sco mp s) (Cached due k) := by
  apply get_bind
  rintro s hs
  split
  · exact throw_of_eq hs
  · next hnone =>
    split
    · next mp _ =>
      split
      · next honline =>
        have hentry : s.entry sco = none := by simpa using hnone
        have hclosed : ∀ x, s.find sco = some x → x ∉ s.cache.mountPoints_ := by
          intro x hx hmem
          obtain ⟨e, he, -⟩ := hs.opened sco x hx hmem
          rw [hentry] at he
          cases he
        refine bind (set (Q := fun _ s => Cached due k s ∧ Created sco mp s) fun _ _ => ?_) fun _ =>
          pure fun _ h => h
        obtain ⟨hcached, hat⟩ := hs.fill hpending hdue honline hclosed 0
        exact ⟨hcached, honline, hat, hclosed⟩
      · exact throw_of_eq hs
    · exact throw_of_eq hs

theorem setDisposable_triple {w : Option MountPoint} (hsco : k.Releasable sco) :
    Triple (fun s => Cached due k s ∧ At sco w s) (setDisposable calls sco mp)
      (fun _ s => Cached due k s ∧ At sco w s) (Cached due k) := by
  apply Triple.get_bind
  rintro s ⟨hs, hat⟩
  split
  · exact Triple.throw_of_eq hs
  · split
    · next e he =>
      split
      · exact Triple.throw_of_eq hs
      · split
        · exact Triple.throw_of_eq hs
        · apply Triple.set
          rintro _ _
          constructor
          · apply Cached.release _ hsco
            apply hs.withEntry
            · rintro x ⟨⟩
              exact hs.online sco e he
            · intro x hx hmem
              obtain ⟨e', he', rfl⟩ := hs.opened sco x hx hmem
              cases he.symm.trans he'
              exact ⟨_, rfl, rfl⟩
            · exact fun _ _ _ => hsco
            · rintro hdue x ⟨⟩
              exact hs.full sco hdue e he
          · unfold At at hat ⊢
            rw [he] at hat
            exact (congrArg _ ((s.entry_withEntry ..).trans (if_pos rfl))).trans hat
    · exact Triple.throw_of_eq hs

/-- A SCO that is fetched from the backend becomes disposable. Neither it nor one from the DTL is
pending. -/
theorem fetch_triple {disposable : Bool} (hpending : sco ∉ k.pending) (hdue : sco ∉ due)
    (hsco : disposable = true → k.Releasable sco) :
    Triple (fun s => Cached due k s ∧ Created sco mp s) (fetch calls disposable sco mp)
      (fun x s => Cached due k s ∧ At sco (some x) s) (Cached due k) := by
  have hremove : ∀ s, Cached due k s ∧ Created sco mp s → Cached due k (s.withEntry sco none) := by
    rintro s ⟨hs, hc⟩
    apply hs.withEntry
    · rintro x ⟨⟩
    · intro x hx hmem
      exact absurd hmem (hc.closed x hx)
    · rintro x ⟨⟩
    · rintro _ x ⟨⟩
  apply Triple.ite
  · intro _
    exact Triple.modify_throw fun s hs => hs.1.offlineMountPoint_ calls mp
  · intro _
    split
    · next n _ =>
      apply Triple.ite
      · intro _
        exact Triple.modify_throw hremove
      · intro _
        apply Triple.bind (Triple.modify (Q := fun _ s => Cached due k s ∧ At sco (some mp) s) fun _ hs =>
          hs.1.fill hpending hdue hs.2.online hs.2.closed n)
        intro _
        apply Triple.ite
        · intro hd
          apply Triple.bind (Triple.tryCatch (setDisposable_triple (hsco hd)) fun e =>
            Triple.modify_throw fun s hs => hs.offlineMountPoint_ calls mp)
          exact fun _ => Triple.pure fun _ hs => hs
        · exact fun _ => Triple.pure fun _ hs => hs
    · exact Triple.modify_throw hremove

/-- With a backend interface, the SCO is not pending, and is covered by its TLog if it is on the
backend. -/
theorem getSCO_triple (hk : k.Ok due) {bi : Bool}
    (hbi : bi = true → sco ∉ k.pending ∧ sco ∉ due ∧ (sco.number ≤ k.latest → k.Releasable sco)) :
    Triple (Cached due k) (getSCO_ calls sco bi) (fun mp s => Cached due k s ∧ At sco (some mp) s) (Cached due k) := by
  apply Triple.get_bind
  rintro s hs
  obtain ⟨hpend, hlatest⟩ : s.pendingTLogSCOs_ = k.pending ∧ s.latestSCOnumberInBackend_ = k.latest := by
    rw [← hs.numbers]
    exact ⟨rfl, rfl⟩
  have hiff := s.fromBackend_iff sco
  rw [hpend, hlatest] at hiff
  split
  · exact Triple.throw_of_eq hs
  · next hthrow =>
    obtain ⟨hpending, hdue, hrel⟩ : sco ∉ k.pending ∧ sco ∉ due ∧ (s.fromBackend sco = true → k.Releasable sco) := by
      cases bi with
      | true =>
        obtain ⟨hpending, hdue, hle⟩ := hbi rfl
        refine ⟨hpending, hdue, fun hback => ?_⟩
        rcases hiff.mp hback with hclone | hnum | hmem
        · exact ⟨Or.inl hclone, Or.inl hclone⟩
        · exact hle hnum
        · exact absurd hmem hpending
      | false =>
        have hnot : ¬ s.fromBackend sco = true := by simpa using hthrow
        refine ⟨fun h => hnot (hiff.mpr (Or.inr (Or.inr h))), ?_, fun h => absurd h hnot⟩
        exact fun h => hnot (hiff.mpr (Or.inr (Or.inl (hk.due sco h))))
    split
    · next e he =>
      apply Triple.pure
      rintro _ rfl
      exact ⟨hs, congrArg _ he⟩
    · apply Triple.bind ((createSCO_triple hpending hdue).of_eq hs)
      exact fun mp => fetch_triple hpending hdue hrel

theorem reportIOError_triple (hk : k.Ok due) {Q : Unit → Store → Prop} :
    Triple (Cached due k) (reportIOError_ calls sco mp) Q (Cached due k) := by
  apply Triple.bind (Triple.modify (Q := fun _ => Cached due k) fun s hs => hs.offlineMountPoint_ calls mp)
  intro _
  apply Triple.bind (erase_triple false)
  intro _
  apply Triple.get_bind
  rintro s hs
  apply Triple.ite
  · intro _
    apply Triple.bind ((getSCO_triple hk (by rintro ⟨⟩)).of_eq hs)
    intro mp
    apply Triple.bind openSCO_triple
    exact fun _ => Triple.throw fun _ hs => hs
  · intro _
    exact Triple.throw_of_eq hs

theorem updateCurrentSCO_triple (hk : k.Ok due) :
    Triple (Cached due k) (updateCurrentSCO_ calls) (fun _ => Cached due k) (Cached due k) := by
  apply get_bind
  rintro s hs
  have hsco : s.currentClusterLoc_.sco = k.loc.sco := by
    rw [← hs.numbers]
    rfl
  rw [hsco]
  obtain ⟨hpending, hdue⟩ := hk.current_fresh
  apply bind (erase_bucket_cached.of_eq hs)
  intro _
  apply bind (createSCO_triple hpending hdue)
  intro mp
  apply tryCatch (weaken openSCO_triple (fun _ h => ⟨h.1, h.2.at_⟩) fun _ _ h => h)
  exact fun _ => reportIOError_triple hk

theorem readFromSCO_triple (hk : k.Ok due) :
    Triple (Cached due k) (readFromSCO_ calls sco mp) (fun _ => Cached due k) (Cached due k) := by
  apply Triple.ite
  · exact fun _ => reportIOError_triple hk
  · exact fun _ => Triple.pure fun _ h => h

theorem removeSCO_triple : Triple (fun s => Cached due k s ∧ s.find sco = none) (removeSCO sco false)
    (fun _ => Cached due k) (Cached due k) := by
  apply Triple.get_bind
  rintro s ⟨hs, hclosed⟩
  split
  · next e he =>
    split
    · exact Triple.throw_of_eq hs
    · next hdisp =>
      apply Triple.set
      rintro _ _
      have hsco := hs.disposable sco e he (by simpa using hdisp)
      apply Cached.release _ hsco
      apply hs.withEntry
      · rintro x ⟨⟩
      · intro x hx
        rw [hclosed] at hx
        cases hx
      · rintro x ⟨⟩
      · rintro _ x ⟨⟩
  · exact Triple.throw_of_eq hs

variable {action : SCOWrittenToBackendAction}

theorem release_eq (haction : action ≠ .PurgeFromSCOCache) (mp : MountPoint) :
    release calls action sco mp = setDisposable calls sco mp := by
  cases action with
  | SetDisposable => rfl
  | SetDisposableAndPurgeFromPageCache => rfl
  | PurgeFromSCOCache => exact absurd rfl haction

theorem scoWrittenToBackend_triple (hk : k.Ok due) (hsco : sco ∈ due) (haction : action ≠ .PurgeFromSCOCache) :
    Triple (Cached due k) (scoWrittenToBackend_ calls action sco) (fun _ => Cached due k) (Cached due k) := by
  apply get_bind
  rintro s hs
  split
  · next mp _ =>
    rw [release_eq haction]
    apply tryCatch (F := Cached due k)
    · apply bind ((erase_triple true).of_eq hs)
      intro _ s' hs'
      exact weaken (setDisposable_triple (hk.releasable hsco)) (fun _ h => h) (fun _ _ h => h.1) s' ⟨hs', rfl⟩
    · intro _
      exact tryCatch (reportIOError_triple hk) fun _ => pure fun _ h => h
  · exact pure_of_eq hs

theorem scosWrittenToBackend_triple (hk : k.Ok due) (haction : action ≠ .PurgeFromSCOCache) :
    ∀ {scos : List SCO}, (∀ sco ∈ scos, sco ∈ due) →
    Triple (Cached due k) (scosWrittenToBackend calls action scos) (fun _ => Cached due k) (Cached due k)
  | [], _ => pure fun _ h => h
  | sco :: _, hscos => by
    apply bind (scoWrittenToBackend_triple hk (hscos sco (mem_cons_self ..)) haction)
    exact fun _ => scosWrittenToBackend_triple hk haction fun x hx => hscos x (mem_cons_of_mem sco hx)

/-- SCOs that are neither open nor in the cache are nothing to `scoWrittenToBackend_`. -/
theorem scosWrittenToBackend_absent {s : Store} : ∀ {scos : List SCO},
    (∀ sco ∈ scos, s.find sco = none ∧ s.entry sco = none) → scosWrittenToBackend calls action scos s = .ok () s
  | [], _ => rfl
  | sco :: _, h => by
    obtain ⟨hfind, hentry⟩ := h sco (mem_cons_self ..)
    have hone : scoWrittenToBackend_ calls action sco s = .ok () s := by
      refine run_get_bind.trans ?_
      rw [hfind, hentry]
      rfl
    exact (run_bind hone).trans (scosWrittenToBackend_absent fun x hx => h x (mem_cons_of_mem sco hx))

end

/-! ## The invariant of a run -/

/-- Between two calls, nothing is due. -/
structure Inv (s : Store) : Prop where
  ok : s.numbers.Ok []
  cached : Cached [] s.numbers s

theorem Cached.inv {k : Numbers} (h : Cached [] k s) (hk : k.Ok []) : Inv s := by
  obtain rfl := h.numbers
  exact ⟨hk, h⟩

theorem Inv.of_triple {α : Type} {m : M α} (h : Inv s)
    (ht : Triple (Cached [] s.numbers) m (fun _ => Cached [] s.numbers) (Cached [] s.numbers)) : Inv (after m s) :=
  (ht.after h.cached).inv h.ok

section
variable {s : Store} {calls : Calls}

variable {k : Numbers}

theorem pwrite_triple (hk : k.Ok []) (n : Nat) : Triple (Cached [] k) (pwrite calls n) (fun _ => Inv) Inv := by
  apply Triple.get_bind
  rintro s hs
  split
  · next mp _ =>
    apply Triple.ite
    · intro _
      exact Triple.weakenError ((reportIOError_triple hk).of_eq hs) fun _ h => h.inv hk
    · intro _
      apply Triple.set
      rintro _ _
      obtain rfl := hs.numbers
      have hentry : Cached [] s.numbers (s.withEntry s.currentClusterLoc_.sco
          ((s.entry s.currentClusterLoc_.sco).map fun e => if e.mntPoint_ = mp then
            { e with st_size := max e.st_size (s.currentClusterLoc_.offset + n) } else e)) := by
        apply hs.withEntry
        · intro x hx
          obtain ⟨e, he, rfl⟩ := Option.map_eq_some_iff.mp hx
          have := hs.online _ e he
          split <;> exact this
        · intro x hx hmem
          obtain ⟨e, he, rfl⟩ := hs.opened _ x hx hmem
          refine ⟨_, Option.map_eq_some_iff.mpr ⟨e, he, rfl⟩, ?_⟩
          split <;> rfl
        · intro x hx hdisp
          obtain ⟨e, he, rfl⟩ := Option.map_eq_some_iff.mp hx
          apply hs.disposable _ e he
          split at hdisp <;> exact hdisp
        · intro hdue
          exact absurd hdue (not_or.mpr hk.current_fresh)
      -- only the offset of the current location is another one
      exact ⟨{ hk with }, ⟨rfl, hentry.online, hentry.opened, hentry.disposable, hentry.released, hentry.full⟩⟩
  · exact Triple.throw_of_eq (hs.inv hk)

theorem Inv.writeClusters (h : Inv s) (n : Nat) : Inv (after (writeClusters calls n) s) := by
  apply Triple.after (P := Cached [] s.numbers) _ h.cached
  apply Triple.get_bind
  rintro s' hs'
  apply Triple.ite
  · intro _
    have hupdate : Triple (· = s') (updateCurrentSCO_ calls) (fun _ => Cached [] s.numbers) Inv :=
      Triple.weakenError ((updateCurrentSCO_triple h.ok).of_eq hs')
        fun _ hc => hc.inv h.ok
    exact Triple.bind hupdate fun _ => pwrite_triple h.ok n
  · intro _
    exact (pwrite_triple h.ok n).of_eq hs'

theorem Inv.nextSCO (h : Inv s) (hnum : s.number + 1 < 2 ^ 32) : Inv s.nextSCO := by
  have hnext : s.nextSCO.numbers.loc.sco.number = s.number + 1 := Nat.mod_eq_of_lt hnum
  obtain ⟨hclone, hversion, hpos⟩ := h.ok.current
  constructor
  · constructor
    · exact ⟨hclone, rfl, by rw [hnext]; exact Nat.succ_le_succ (Nat.zero_le _)⟩
    · exact h.ok.pending
    · exact h.ok.due
    · exact h.ok.latest
    · exact h.ok.covered
    · intro sco hsco
      obtain ⟨hown, hlt, hor⟩ := h.ok.written sco hsco
      exact ⟨hown, by rw [hnext]; exact Nat.lt_succ_of_lt hlt, hor⟩
  · exact ⟨rfl, h.cached.online, h.cached.opened, h.cached.disposable, h.cached.released, h.cached.full⟩

theorem Inv.finalizeCurrentSCO (h : Inv s) (hnum : s.number + 1 < 2 ^ 32) :
    Inv (after (finalizeCurrentSCO calls) s) := by
  have hnext := h.nextSCO hnum
  have hupdate : Triple (Cached [] s.nextSCO.numbers) (updateCurrentSCO_ calls) (fun _ => Inv)
      (Cached [] s.nextSCO.numbers) :=
    Triple.weaken (updateCurrentSCO_triple hnext.ok) (fun _ h => h) fun _ _ hc => hc.inv hnext.ok
  apply Triple.after (P := (· = s)) _ rfl
  apply Triple.get_bind
  rintro s rfl
  apply Triple.ite
  · intro _
    apply Triple.ite
    · intro _
      exact Triple.throw_of_eq h
    · intro _
      apply Triple.bind (Triple.set (Q := fun _ => Cached [] s.nextSCO.numbers) fun _ _ => hnext.cached)
      intro _
      apply Triple.tryCatch hupdate
      intro e
      split
      · exact Triple.pure fun _ hc => hc.inv hnext.ok
      · exact Triple.throw fun _ hc => hc.inv hnext.ok
  · intro _
    exact Triple.pure_of_eq h

theorem Inv.writtenToBackend (h : Inv s) {sco : SCO} (hown : Own sco) (hlt : sco.number < s.number)
    (hfull : ∀ e, s.entry sco = some e → e.st_size ≠ 0) : Inv (after (Caching.writtenToBackend sco) s) := by
  have hmem : ∀ x, x ∈ s.pendingTLogSCOs_.insert sco ↔ x = sco ∨ x ∈ s.pendingTLogSCOs_ := fun x => mem_insert_iff
  have hgrow : ∀ x, s.numbers.Releasable x → (after (Caching.writtenToBackend sco) s).numbers.Releasable x :=
    fun x hx => ⟨hx.1.imp_right (mem_cons_of_mem sco), hx.2⟩
  constructor
  · constructor
    · exact h.ok.current
    · rintro x (hx | hx)
      · rcases (hmem x).mp hx with rfl | hx
        · exact mem_cons_self ..
        · exact mem_cons_of_mem sco (h.ok.pending x (Or.inl hx))
      · cases hx
    · exact h.ok.due
    · exact h.ok.latest
    · exact fun x hx hle => mem_cons_of_mem sco (h.ok.covered x hx hle)
    · intro x hx
      rcases mem_cons.mp hx with rfl | hx
      · exact ⟨hown, hlt, Or.inr ((hmem x).mpr (Or.inl rfl))⟩
      · obtain ⟨hox, hltx, hor⟩ := h.ok.written x hx
        exact ⟨hox, hltx, hor.imp_right fun hp => (hmem x).mpr (Or.inr hp)⟩
  · constructor
    · rfl
    · exact h.cached.online
    · exact h.cached.opened
    · exact fun x e he hd => hgrow x (h.cached.disposable x e he hd)
    · exact fun x hx => hgrow x (h.cached.released x hx)
    · rintro x (hx | hx)
      · rcases (hmem x).mp hx with rfl | hx
        · exact hfull
        · exact h.cached.full x (Or.inl hx)
      · cases hx

variable {num : SCONumber}

theorem Inv.withLatest (h : Inv s) (hle : s.latestSCOnumberInBackend_ ≤ num)
    (hcovered : ∀ sco, Own sco → sco.number ≤ num → sco ∈ s.written) :
    (s.withLatest num).numbers.Ok (s.due num) ∧ Cached (s.due num) (s.withLatest num).numbers (s.withLatest num) := by
  have hupTo : s.upTo ≤ max s.upTo num := Nat.le_max_left ..
  have hgrow : ∀ x, s.numbers.Releasable x → (s.withLatest num).numbers.Releasable x :=
    fun x hx => ⟨hx.1, hx.2.imp_right fun hn => Nat.le_trans hn hupTo⟩
  have hpending : ∀ x, x ∈ (s.withLatest num).pendingTLogSCOs_ ∨ x ∈ s.due num → x ∈ s.pendingTLogSCOs_ := by
    rintro x (hx | hx)
    · exact (mem_filter.mp hx).1
    · exact (mem_filter.mp hx).1
  constructor
  · constructor
    · exact h.ok.current
    · exact fun x hx => h.ok.pending x (Or.inl (hpending x hx))
    · exact fun x hx => of_decide_eq_true (mem_filter.mp hx).2
    · have heq : s.upTo = s.latestSCOnumberInBackend_ := h.ok.latest
      exact Nat.max_eq_right (heq ▸ hle)
    · exact hcovered
    · intro x hx
      obtain ⟨hox, hltx, hor⟩ := h.ok.written x hx
      refine ⟨hox, hltx, ?_⟩
      -- a SCO above the number was pending before, and still is
      by_cases hnum : x.number ≤ num
      · exact Or.inl hnum
      · rcases hor with hlat | hp
        · exact absurd (Nat.le_trans hlat hle) hnum
        · exact Or.inr (mem_filter.mpr ⟨hp, by simpa using hnum⟩)
  · constructor
    · rfl
    · exact h.cached.online
    · exact h.cached.opened
    · exact fun x e he hd => hgrow x (h.cached.disposable x e he hd)
    · exact fun x hx => hgrow x (h.cached.released x hx)
    · exact fun x hx => h.cached.full x (Or.inl (hpending x hx))

theorem Cached.nil {due : List SCO} (h : Cached due k s) : Cached [] k s where
  __ := h
  full := fun x hx => h.full x (Or.inl (hx.resolve_right not_mem_nil))

theorem Numbers.Ok.nil {due : List SCO} (h : k.Ok due) : k.Ok [] where
  __ := h
  pending := fun x hx => h.pending x (Or.inl (hx.resolve_right not_mem_nil))
  due := fun _ hx => absurd hx not_mem_nil

variable {action : SCOWrittenToBackendAction}

theorem after_due_absent (h : ∀ sco ∈ s.due num, s.find sco = none ∧ s.entry sco = none) :
    after (scosWrittenToBackend calls action (s.due num)) (s.withLatest num) = s.withLatest num :=
  after_ok (scosWrittenToBackend_absent h)

theorem Inv.writtenToBackendUpTo (h : Inv s)
    (hle : s.latestSCOnumberInBackend_ ≤ num) (hcovered : ∀ sco, Own sco → sco.number ≤ num → sco ∈ s.written)
    (haction : action = .PurgeFromSCOCache → ∀ sco ∈ s.due num, s.find sco = none ∧ s.entry sco = none) :
    Inv (after (Caching.writtenToBackendUpTo calls action num) s) := by
  obtain ⟨hok, hcached⟩ := h.withLatest hle hcovered
  rw [show after (Caching.writtenToBackendUpTo calls action num) s =
    after (scosWrittenToBackend calls action (s.due num)) (s.withLatest num) from rfl]
  by_cases hpurge : action = .PurgeFromSCOCache
  · rw [after_due_absent (haction hpurge)]
    exact hcached.nil.inv hok.nil
  · exact ((scosWrittenToBackend_triple hok hpurge fun _ hx => hx).after hcached).nil.inv hok.nil

theorem Inv.reportIOError (h : Inv s) (sco : SCO) : Inv (after (reportIOError calls sco) s) := by
  apply h.of_triple
  apply get_bind
  rintro s' hs'
  split
  · apply tryCatch ((reportIOError_triple h.ok).of_eq hs')
    intro e
    split
    · exact pure fun _ hc => hc
    · exact throw fun _ hc => hc
  · exact throw_of_eq hs'

theorem Inv.readClusters (h : Inv s) {sco : SCO} (hhas : s.numbers.Has sco)
    (hpending : sco ∈ s.pendingTLogSCOs_ → calls.partial_read = true ∨ s.find sco ≠ none ∨ s.entry sco ≠ none) :
    Inv (after (readClusters calls sco) s) := by
  apply (Triple.after (P := (· = s)) _ rfl : Cached [] s.numbers _).inv h.ok
  apply Triple.get_bind
  rintro s rfl
  split
  · exact (readFromSCO_triple h.ok).of_eq h.cached
  · next habsent =>
    obtain ⟨hfind, hentry⟩ : s.find sco = none ∧ s.entry sco = none := by simpa using habsent
    apply Triple.ite
    · intro _
      exact Triple.pure_of_eq h.cached
    · intro hpart
      have hback : true = true → sco ∉ s.numbers.pending ∧ sco ∉ [] ∧
          (sco.number ≤ s.numbers.latest → s.numbers.Releasable sco) := by
        intro _
        refine ⟨fun hp => ?_, not_mem_nil, fun hnum => ?_⟩
        · rcases hpending hp with hread | hne | hne
          · exact hpart (by simp [hread, s.fromBackend_iff, show sco ∈ s.pendingTLogSCOs_ from hp])
          · exact hne hfind
          · exact hne hentry
        · rcases hhas with hclone | ⟨hown, -⟩
          · exact ⟨Or.inl hclone, Or.inl hclone⟩
          · exact ⟨Or.inr (h.ok.covered sco hown hnum), Or.inr (h.ok.latest ▸ hnum)⟩
      apply Triple.bind (Triple.weaken (getSCO_triple h.ok hback) (by rintro _ rfl; exact h.cached) fun _ _ hc => hc.1)
      exact fun mp => readFromSCO_triple h.ok

theorem Inv.getSCO (h : Inv s) (sco : SCO) : Inv (after (do let _ ← getSCO_ calls sco false) s) := by
  apply h.of_triple
  apply bind (getSCO_triple h.ok (by rintro ⟨⟩))
  exact fun mp => pure fun _ hc => hc.1

theorem Inv.cleanup (h : Inv s) (sco : SCO) : Inv (after (cleanup sco) s) := by
  apply h.of_triple
  apply Triple.get_bind
  rintro s' hs'
  apply Triple.ite
  · intro hfind
    exact removeSCO_triple.of_eq ⟨hs', by simpa using hfind⟩
  · intro _
    exact Triple.pure_of_eq hs'

theorem Inv.step (h : Inv s) {ev : Event} (hev : InOrder s ev) : Inv (step s ev) := by
  obtain ⟨action, calls⟩ := ev
  cases action with
  | writeClusters n => exact h.writeClusters n
  | finalizeCurrentSCO => exact h.finalizeCurrentSCO hev
  | writtenToBackend sco => exact h.writtenToBackend hev.1 hev.2.2.1 hev.2.2.2
  | writtenToBackendUpTo action num => exact h.writtenToBackendUpTo hev.1 hev.2.1 hev.2.2
  | reportIOError sco => exact h.reportIOError sco
  | readClusters sco => exact h.readClusters hev.1 hev.2
  | getSCO sco => exact h.getSCO sco
  | cleanup sco => exact h.cleanup sco

/-! ## Releasing SCOs when nothing fails -/

/-- No mount point has gone, and no SCO. -/
structure SameFiles (s s' : Store) : Prop where
  mountPoints : s'.cache.mountPoints_ = s.cache.mountPoints_
  files : ∀ key, s'.cache.nsMap_ key = none → s.cache.nsMap_ key = none

theorem SameFiles.refl (s : Store) : SameFiles s s := ⟨rfl, fun _ h => h⟩

theorem SameFiles.trans {s₁ s₂ s₃ : Store} (h : SameFiles s₁ s₂) (h' : SameFiles s₂ s₃) : SameFiles s₁ s₃ :=
  ⟨h'.mountPoints.trans h.mountPoints, fun key hkey => h.files key (h'.files key hkey)⟩

section
variable {due : List SCO} {k : Numbers} {sco : SCO} {mp : MountPoint}

theorem disposed_sameFiles (e : CachedSCO) : SameFiles s (s.disposed sco e) := by
  refine ⟨rfl, fun key hkey => ?_⟩
  have hupdate : update s.cache.nsMap_ (s.nspace_, sco) (some { e with disposable_ := true }) key = none := hkey
  rw [update_apply] at hupdate
  split at hupdate
  · cases hupdate
  · exact hupdate

theorem erase_fine (hfine : calls.Fine) : ∃ s', erase calls sco true s = .ok () s' ∧ s'.cache = s.cache ∧
    s'.nspace_ = s.nspace_ ∧ s'.currentClusterLoc_ = s.currentClusterLoc_ ∧ s'.find sco = none := by
  by_cases hopen : (s.find sco).isSome = true
  · refine ⟨s.withBucket sco none, ?_, rfl, rfl, rfl, ?_⟩
    · refine run_get_bind.trans ?_
      rw [if_pos hopen, hfine.files]
      rfl
    · rw [Option.eq_none_iff_forall_ne_some]
      intro mp hmp
      rw [find_eq_some, show (s.withBucket sco none).index_ sco = s.index_ sco from rfl,
        openSCOs_withBucket, if_pos rfl] at hmp
      cases hmp
  · refine ⟨s, ?_, rfl, rfl, rfl, by simpa using hopen⟩
    refine run_get_bind.trans ?_
    rw [if_neg hopen]
    rfl

/-- The mount point of an open SCO has gone before: reporting it again changes nothing. -/
theorem reportIOError_gone (hmp : mp ∉ s.cache.mountPoints_) (hfind : s.find sco = none)
    (hcur : s.currentClusterLoc_.sco ≠ sco) : reportIOError_ calls sco mp s = .error .transientException s := by
  have hoffline : s.offlineMountPoint_ calls mp = s := by
    unfold offlineMountPoint_ SCOCache.offlineMountPoint_
    rw [if_neg hmp]
  have hmodify : (modify (offlineMountPoint_ calls mp) : M _) s = .ok ⟨⟩ (s.offlineMountPoint_ calls mp) := rfl
  rw [hoffline] at hmodify
  refine (run_bind hmodify).trans ?_
  have herase : erase calls sco false s = .ok () s := by
    refine run_get_bind.trans ?_
    rw [hfind]
    rfl
  refine (run_bind herase).trans ?_
  refine run_get_bind.trans ?_
  rw [if_neg (fun h => hcur h.1)]
  rfl

theorem setDisposable_fine {e : CachedSCO} (hfine : calls.Fine) (hmp : mp ∈ s.cache.mountPoints_)
    (he : s.entry sco = some e) (hsize : e.st_size ≠ 0) : setDisposable calls sco mp s = .ok () (s.disposed sco e) := by
  refine run_get_bind.trans ?_
  rw [if_neg (not_not.mpr hmp), he]
  simp only [hfine.files, Bool.false_eq_true, if_false, if_neg hsize]
  rfl

theorem setDisposable_offline (hmp : mp ∉ s.cache.mountPoints_) :
    setDisposable calls sco mp s = .error (.exn (.ioException "mountpoint is offline")) s := by
  refine run_get_bind.trans ?_
  rw [if_pos hmp]
  rfl

theorem scoWrittenToBackend_fine (hk : k.Ok due) (hs : Cached due k s) (hsco : sco ∈ due) (hfine : calls.Fine)
    (haction : action ≠ .PurgeFromSCOCache) :
    ∃ s', scoWrittenToBackend_ calls action sco s = .ok () s' ∧ SameFiles s s' := by
  have hcur : s.currentClusterLoc_.sco ≠ sco := by
    intro heq
    have hlt := hk.lt_current (Or.inr hsco)
    rw [← hs.numbers, ← heq] at hlt
    exact Nat.lt_irrefl _ hlt
  obtain ⟨s₁, herase, hcache, hns, hloc, hclosed⟩ : ∃ s', erase calls sco true s = .ok () s' ∧ _ := erase_fine hfine
  have hentry₁ : s₁.entry sco = s.entry sco := by
    unfold entry
    rw [hcache, hns]
  have hsame : SameFiles s s₁ := by
    constructor
    · rw [hcache]
    · intro key hkey
      rwa [hcache] at hkey
  cases hwhere : s.find sco <|> (s.entry sco).map (·.mntPoint_) with
  | none =>
    refine ⟨s, run_get_bind.trans ?_, SameFiles.refl s⟩
    rw [hwhere]
    rfl
  | some mp =>
    have hrun : scoWrittenToBackend_ calls action sco s =
        tryCatch (do erase calls sco true; release calls action sco mp)
          (fun _ => tryCatch (reportIOError_ calls sco mp) fun _ => pure ()) s := by
      refine run_get_bind.trans ?_
      rw [hwhere]
    rw [hrun, release_eq haction]
    by_cases hmp : mp ∈ s.cache.mountPoints_
    · obtain ⟨e, he⟩ : ∃ e, s.entry sco = some e := by
        cases hfind : s.find sco with
        | none =>
          rw [hfind] at hwhere
          obtain ⟨e, he, -⟩ := Option.map_eq_some_iff.mp hwhere
          exact ⟨e, he⟩
        | some x =>
          rw [hfind] at hwhere
          cases hwhere
          obtain ⟨e, he, -⟩ := hs.opened sco mp hfind hmp
          exact ⟨e, he⟩
      have hset := setDisposable_fine hfine (hcache ▸ hmp) (hentry₁.trans he) (hs.full sco (Or.inr hsco) e he)
      exact ⟨_, run_tryCatch ((run_bind herase).trans hset), hsame.trans (disposed_sameFiles e)⟩
    · -- the open file is on a mount point that went offline before
      have hgone : mp ∉ s₁.cache.mountPoints_ := hcache ▸ hmp
      refine ⟨s₁, ?_, hsame⟩
      refine (run_tryCatch_error ((run_bind herase).trans (setDisposable_offline hgone))).trans ?_
      refine (run_tryCatch_error (reportIOError_gone hgone hclosed (hloc ▸ hcur))).trans ?_
      rfl

theorem scosWrittenToBackend_fine (hk : k.Ok due) (hfine : calls.Fine)
    (haction : action ≠ .PurgeFromSCOCache) : ∀ {scos : List SCO} {s : Store}, (∀ sco ∈ scos, sco ∈ due) →
    Cached due k s → SameFiles s (after (scosWrittenToBackend calls action scos) s)
  | [], s, _, _ => SameFiles.refl s
  | sco :: scos, s, hscos, hs => by
    have hsco := hscos sco (mem_cons_self ..)
    obtain ⟨s', hrun, hsame⟩ := scoWrittenToBackend_fine hk hs hsco hfine haction
    have hs' : Cached due k s' := by
      rw [← after_ok hrun]
      exact (scoWrittenToBackend_triple hk hsco haction).after hs
    rw [show after (scosWrittenToBackend calls action (sco :: scos)) s =
      after (scosWrittenToBackend calls action scos) s' from after_bind hrun]
    exact hsame.trans (scosWrittenToBackend_fine hk hfine haction (fun x hx => hscos x (mem_cons_of_mem sco hx)) hs')

end

theorem Inv.safe (h : Inv s) {ev : Event} (hev : InOrder s ev) : Safe s ev := by
  have hnext := h.step hev
  constructor
  · exact hnext.cached.released
  · exact fun sco hhas => fromBackend_onBackend hnext.ok hhas
  · obtain ⟨act, calls⟩ := ev
    rintro action num rfl hfine
    obtain ⟨hle, hcovered, haction⟩ := hev
    obtain ⟨hok, hcached⟩ := h.withLatest hle hcovered
    have hsame : SameFiles s (after (scosWrittenToBackend calls action (s.due num)) (s.withLatest num)) := by
      by_cases hpurge : action = .PurgeFromSCOCache
      · rw [after_due_absent (haction hpurge)]
        exact ⟨rfl, fun _ hkey => hkey⟩
      · have hloop := scosWrittenToBackend_fine hok hfine hpurge (fun _ hx => hx) hcached
        exact ⟨hloop.mountPoints, hloop.files⟩
    exact ⟨hsame.mountPoints, fun key hkey => Or.inl (hsame.files key hkey)⟩

end

/-! ## Every run -/

/-- A volume that has written nothing, with the SCOs of other volumes in the cache. -/
theorem inv_new {nspace : Namespace} {cache : SCOCache} {num_open_scos : Nat}
    (hnone : ∀ sco, cache.nsMap_ (nspace, sco) = none) :
    Inv { nspace_ := nspace, cache := cache, num_open_scos := num_open_scos } := by
  constructor
  · constructor
    · exact ⟨rfl, rfl, Nat.le_refl _⟩
    · rintro x (hx | hx) <;> cases hx
    · rintro x hx
      cases hx
    · rfl
    · rintro x ⟨-, -, hpos⟩ hle
      exact absurd hle (Nat.not_le.mpr hpos)
    · rintro x hx
      cases hx
  · constructor
    · rfl
    · intro x e he
      cases (hnone x).symm.trans he
    · rintro x mp hmp
      cases hmp
    · intro x e he
      cases (hnone x).symm.trans he
    · rintro x hx
      cases hx
    · rintro x (hx | hx) <;> cases hx

/-- Along every run of calls that come in order, each SCO is dropped only when the backend has it and
its TLog, is fetched from where it is, and releasing SCOs takes nothing else from the cache. -/
theorem released_in_order {nspace : Namespace} {cache : SCOCache} (num_open_scos : Nat)
    (hnone : ∀ sco, cache.nsMap_ (nspace, sco) = none) (events : List Event)
    (hevents : Each step InOrder { nspace_ := nspace, cache := cache, num_open_scos := num_open_scos } events) :
    Each step Safe { nspace_ := nspace, cache := cache, num_open_scos := num_open_scos } events :=
  each_imp Inv (fun _ _ h hev => ⟨h.safe hev, h.step hev⟩) (inv_new hnone) hevents

/-- A new volume on two mount points. -/
def sample : Store := { nspace_ := "vol", cache := { mountPoints_ := [0, 1] }, num_open_scos := 8 }

/-- A SCO with a cluster is finalised and written to the backend. -/
def sampleEvents : List Event :=
  [{ action := .writeClusters 1, calls := { getWriteMountPoint_ := some 0 } },
    { action := .finalizeCurrentSCO, calls := { getWriteMountPoint_ := some 0 } },
    { action := .writtenToBackend ⟨1, 0, 0⟩ }]

theorem own_one (hown : Own sco) (hle : sco.number ≤ 1) : sco = ⟨1, 0, 0⟩ := by
  obtain ⟨number, cloneID, version⟩ := sco
  obtain ⟨rfl, rfl, hpos⟩ := hown
  obtain rfl : number = 1 := Nat.le_antisymm hle hpos
  rfl

theorem inOrder_sampleEvents : Each step InOrder sample sampleEvents := by
  refine ⟨trivial, ?_, ⟨⟨rfl, rfl, Nat.le_refl _⟩, by decide, by decide, ?_⟩, trivial⟩
  · show _ + 1 < 2 ^ 32
    decide
  · intro e he
    cases he
    decide

theorem released_in_order_disposable : Each step Safe sample
    (sampleEvents ++ [{ action := .writtenToBackendUpTo .SetDisposable 1 }, { action := .cleanup ⟨1, 0, 0⟩ }]) := by
  apply released_in_order 8 (fun _ => rfl)
  rw [each_append]
  refine ⟨inOrder_sampleEvents, ⟨by decide, ?_, by rintro ⟨⟩⟩, trivial, trivial⟩
  intro sco hown hle
  rw [own_one hown hle]
  decide

/-- To purge a SCO that is on the backend is reported as an I/O error, since nothing made the SCO
disposable: the mount point goes with the SCO that is being written. And a SCO that is fetched back
from the backend before its TLog is there may be dropped. -/
theorem purge_takes_mount_point :
    (∃ e, (runs step sample sampleEvents).entry ⟨2, 0, 0⟩ = some e) ∧
    (let s := step (runs step sample sampleEvents) { action := .writtenToBackendUpTo .PurgeFromSCOCache 1 }
     s.cache.mountPoints_ = [1] ∧ s.entry ⟨2, 0, 0⟩ = none) ∧
    ¬ Each step Safe sample (sampleEvents ++ [{ action := .writtenToBackendUpTo .PurgeFromSCOCache 1 }]) ∧
    ¬ Each step Safe sample (sampleEvents ++
      [{ action := .reportIOError ⟨1, 0, 0⟩ },
        { action := .readClusters ⟨1, 0, 0⟩
          calls := { getWriteMountPoint_ := some 1, fetched := fun _ => some 1, partial_read := false } }]) := by
  refine ⟨⟨_, rfl⟩, ⟨rfl, rfl⟩, ?_, ?_⟩
  · intro h
    obtain ⟨-, hsafe, -⟩ := (each_append ..).mp h
    have hmps := (hsafe.upTo _ _ rfl ⟨fun _ _ => rfl, fun _ => rfl⟩).1
    revert hmps
    decide
  · intro h
    obtain ⟨-, -, hsafe, -⟩ := (each_append ..).mp h
    obtain ⟨-, hclone | hle⟩ := hsafe.released ⟨1, 0, 0⟩ (by decide)
    · exact hclone rfl
    · revert hle
      decide

end VolumeDriver.Caching
