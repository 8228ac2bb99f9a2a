/-
A TLog that has just been uploaded is uncorked while a scrub result for its snapshot is applied.
`SnapshotManagement::tlogWrittenToBackendCallback` marks the TLog as written, in the snapshots file
on the backend and then locally, before it uncorks; from the local mark on the snapshot may be
scrubbed. Both operations lock the metadata store for one cluster at a time, so that they interleave.
-/
import VolumeDriver.Lib.Steps
import VolumeDriver.MetaData.Journal
import VolumeDriver.MetaData.Relocs

namespace VolumeDriver.ConcurrentRelocs

open Lib CachedMetaDataStore Function List Journal Option

variable {page_bits : Nat} {β : Type} (B : MetaDataBackendInterface page_bits β)

/-! ## The two operations -/

/-- What `tlogWrittenToBackendCallback` does next. -/
inductive Callback
  /-- The snapshots file on the backend gets the mark. -/
  | snapshotsFile
  | setTLogWrittenToBackend
  | writtenToBackendUpTo
  | unCork
  /-- The loop of `unCork` over the entries of the cork. -/
  | entries (left : Bindings)
  | pages
  | setCork
  | done

/-- What `applyScrubbingWork` does next. -/
inductive Apply
  | replaceTLogsWithScrubbedOnes
  | temporaryScrubId
  /-- The loop of `applyRelocs` over the pairs of the relocation logs. -/
  | relocs (left : List (Entry × Entry))
  | pages
  | scrubId
  | removeSCOs
  | done

/-- A scrub result of the volume's own snapshot: the relocations, and the SCOs to be deleted. -/
structure ScrubberResult where
  relocs : List (Entry × Entry)
  sconames_to_be_deleted : List SCO
  tmp : ScrubId
  scrub_id : ScrubId

/-- The store, and where the two operations are. -/
structure State (page_bits : Nat) (β : Type) where
  store : CachedMetaDataStore page_bits β
  callback : Callback := .snapshotsFile
  scrub : Apply := .replaceTLogsWithScrubbedOnes

/-- The TLog is marked as written in the volume's own snapshots. -/
def Callback.marked : Callback → Bool
  | .snapshotsFile | .setTLogWrittenToBackend => false
  | _ => true

/-- The next step of the callback for the TLog `t`, if there is one and no call fails. -/
def callbackStep (t : TLogId) (s : State page_bits β) : Option (State page_bits β) :=
  match s.callback with
  | .snapshotsFile => some { s with callback := .setTLogWrittenToBackend }
  | .setTLogWrittenToBackend => some { s with callback := .writtenToBackendUpTo }
  | .writtenToBackendUpTo => some { s with callback := .unCork }
  | .unCork =>
    match s.store.corks_ with
    | front :: _ :: _ => if front.1 = t then some { s with callback := .entries front.2.toList } else none
    | _ => none
  | .entries [] => some { s with callback := .pages }
  | .entries ((ca, loc) :: left) =>
    match get_cluster_location_ B s.store ca loc true with
    | .ok (store, _) => some { s with store := store, callback := .entries left }
    | .error _ => none
  | .pages =>
    match maybeWritePages B s.store s.store.page_list_ with
    | .ok store => some { s with store := store, callback := .setCork }
    | .error _ => none
  | .setCork =>
    match s.store.corks_ with
    | front :: rest =>
      match B.setCork s.store.backend_ front.1 with
      | .ok b =>
        some { s with
          store := { s.store with backend_ := b, cork_uuid_ := some front.1, corks_ := rest }
          callback := .done }
      | .error _ => none
    | [] => none
  | .done => none

/-- The next step of applying the scrub result. The snapshot was found to be on the backend when the
scrub work was handed out. -/
def applyStep (r : ScrubberResult) (s : State page_bits β) : Option (State page_bits β) :=
  match s.scrub with
  | .replaceTLogsWithScrubbedOnes => if s.callback.marked then some { s with scrub := .temporaryScrubId } else none
  | .temporaryScrubId =>
    match set_scrub_id B s.store r.tmp with
    | .ok store => some { s with store := store, scrub := .relocs r.relocs }
    | .error _ => none
  | .relocs [] => some { s with scrub := .pages }
  | .relocs (p :: left) =>
    match applyPairs B 0 s.store [p.1, p.2] 0 with
    | .ok (store, _) => some { s with store := store, scrub := .relocs left }
    | .error _ => none
  | .pages =>
    match write_dirty_pages_to_backend_keeping_page_list B s.store with
    | .ok store => some { s with store := store, scrub := .scrubId }
    | .error _ => none
  | .scrubId =>
    match set_scrub_id B s.store r.scrub_id with
    | .ok store => some { s with store := store, scrub := .removeSCOs }
    | .error _ => none
  | .removeSCOs => some { s with scrub := .done }
  | .done => none

/-- Whose turn it is. -/
inductive Turn
  | callback
  | scrub

/-- One step; nothing happens when it is not permitted. -/
def step (t : TLogId) (r : ScrubberResult) (s : State page_bits β) : Turn → State page_bits β
  | .callback => (callbackStep B t s).getD s
  | .scrub => (applyStep B r s).getD s

/-! ## Locations in deleted SCOs -/

/-- No address refers to a deleted SCO, in a cork or in a page. -/
structure Clean (deleted : List SCO) (s : CachedMetaDataStore page_bits β) : Prop where
  pages : ∀ ca, (s.locationOf B ca).clusterLocation.sco ∉ deleted
  corks : ∀ c ∈ s.corks_, ∀ p ∈ c.2.toList, p.2.clusterLocation.sco ∉ deleted

/-- The entries of the TLog that are not in pages yet. -/
def State.corkedEntries (s : State page_bits β) : Bindings :=
  match s.callback, s.store.corks_ with
  | .entries left, _ => left
  | .pages, _ | .setCork, _ | .done, _ => []
  | _, front :: _ => front.2.toList
  | _, [] => []

/-- The relocations that are not applied yet. -/
def State.relocsLeft (r : ScrubberResult) (s : State page_bits β) : List (Entry × Entry) :=
  match s.scrub with
  | .replaceTLogsWithScrubbedOnes | .temporaryScrubId => r.relocs
  | .relocs left => left
  | _ => []

/-- A relocation is applied only when the location that it replaces is not one that has yet to come out
of the cork. -/
def NotCorked (s : State page_bits β) : Turn → Prop
  | .scrub => ∀ p left, s.scrub = .relocs (p :: left) →
      ∀ e ∈ s.corkedEntries, e.1 = p.1.clusteraddress → e.2.clusterLocation ≠ (relocation 0 p).old
  | .callback => True

/-! ## The scrub result fits the volume -/

/-- There is a relocation of the location `loc` of `ca` among `relocs`. -/
def Relocated (relocs : List (Entry × Entry)) (ca : ClusterAddress) (loc : ClusterLocationAndHash) : Prop :=
  ∃ p ∈ relocs, p.1.clusteraddress = ca ∧ (relocation 0 p).old = loc.clusterLocation

/-- Every location in a deleted SCO that an address has, once the entries that are still in the cork have
come out, is relocated. -/
structure Covered (deleted : List SCO) (relocs : List (Entry × Entry))
    (corked : Bindings) (m : ClusterMap) : Prop where
  entries : ∀ e ∈ corked, e.2.fixup.clusterLocation.sco ∈ deleted → Relocated relocs e.1 e.2.fixup
  pages : ∀ ca, (∀ e ∈ corked, e.1 ≠ ca) → (m ca).clusterLocation.sco ∈ deleted → Relocated relocs ca (m ca)

/-- The relocations are what a scrubber writes, and lead to SCOs that stay. -/
structure ScrubberResult.Sane (r : ScrubberResult) : Prop where
  wellFormed : ∀ p ∈ r.relocs, WellFormed p
  kept : ∀ p ∈ r.relocs, (relocation 0 p).new.clusterLocation.sco ∉ r.sconames_to_be_deleted

namespace Covered

variable {deleted : List SCO} {relocs : List (Entry × Entry)} {corked : Bindings}
  {m : ClusterMap}

theorem unCork {ca : ClusterAddress} {loc : ClusterLocationAndHash}
    (h : Covered deleted relocs ((ca, loc) :: corked) m) : Covered deleted relocs corked (update m ca loc.fixup) := by
  constructor
  · exact fun e he => h.entries e (mem_cons_of_mem _ he)
  · intro a ha
    by_cases hac : a = ca
    · subst hac
      rw [update_self]
      exact h.entries (a, loc) (mem_cons_self ..)
    · rw [update_of_ne hac]
      refine h.pages a fun e he => ?_
      rcases mem_cons.mp he with rfl | he
      · exact Ne.symm hac
      · exact ha e he

theorem reloc {p : Entry × Entry} (h : Covered deleted (p :: relocs) corked m) (hp : WellFormed p)
    (hkept : (relocation 0 p).new.clusterLocation.sco ∉ deleted)
    (hout : ∀ e ∈ corked, e.1 = p.1.clusteraddress → e.2.clusterLocation ≠ (relocation 0 p).old) :
    Covered deleted relocs corked ((relocation 0 p).apply (·.clusterLocation) m) := by
  constructor
  · intro e he hdel
    obtain ⟨q, hq, haddr, hold⟩ := h.entries e he hdel
    rcases mem_cons.mp hq with rfl | hq
    · refine absurd ?_ (hout e he haddr.symm)
      have hnull : (relocation 0 q).old.isNull = false := Entry.isLocation_iff.mp hp.old
      exact (clusterLocation_fixup hnull).mpr hold.symm
    · exact ⟨q, hq, haddr, hold⟩
  · intro ca hca hdel
    unfold Patch.apply at hdel ⊢
    by_cases hmatch : (m (relocation 0 p).key).clusterLocation = (relocation 0 p).old
    · rw [if_pos hmatch] at hdel ⊢
      by_cases hkey : ca = (relocation 0 p).key
      · subst hkey
        rw [update_self] at hdel
        exact absurd hdel hkept
      · rw [update_of_ne hkey] at hdel ⊢
        obtain ⟨q, hq, haddr, hold⟩ := h.pages ca hca hdel
        rcases mem_cons.mp hq with rfl | hq
        · exact absurd haddr.symm hkey
        · exact ⟨q, hq, haddr, hold⟩
    · rw [if_neg hmatch] at hdel ⊢
      obtain ⟨q, hq, haddr, hold⟩ := h.pages ca hca hdel
      rcases mem_cons.mp hq with rfl | hq
      · -- the pages hold another location than the relocation expects
        refine absurd ?_ hmatch
        rw [hold]
        exact congrArg (fun a => (m a).clusterLocation) haddr
      · exact ⟨q, hq, haddr, hold⟩

end Covered

/-! ## The invariant -/

section
variable {B} {t : TLogId} {r : ScrubberResult} {front : UUID × CaLocMap} {later : List (UUID × CaLocMap)}
  {s : State page_bits β}

/-- The corks are those of the start, the oldest of which goes at the end of the callback. -/
structure Inv (B : MetaDataBackendInterface page_bits β) (r : ScrubberResult) (front : UUID × CaLocMap)
    (later : List (UUID × CaLocMap)) (s : State page_bits β) : Prop where
  linked : Linked B s.store
  slots : Slots s.store
  corks : s.store.corks_ = match s.callback with
    | .done => later
    | _ => front :: later
  left : ∀ p ∈ s.relocsLeft r, p ∈ r.relocs
  covered : Covered r.sconames_to_be_deleted (s.relocsLeft r) s.corkedEntries (s.store.locationOf B)

/-- A step that leaves the store, what is corked and what is to be relocated as it was. -/
theorem Inv.congr (h : Inv B r front later s) {store : CachedMetaDataStore page_bits β} {callback : Callback}
    {scrub : Apply} (hlinked : Linked B store) (hslots : Slots store) (hloc : store.locationOf B = s.store.locationOf B)
    (hcorks : store.corks_ = match callback with
      | .done => later
      | _ => front :: later)
    (hleft : (State.mk store callback scrub).relocsLeft r = s.relocsLeft r)
    (hcorked : (State.mk store callback scrub).corkedEntries = s.corkedEntries) :
    Inv B r front later ⟨store, callback, scrub⟩ := by
  refine ⟨hlinked, hslots, hcorks, ?_, ?_⟩
  · rw [hleft]
    exact h.left
  · rw [hleft, hcorked]
    show Covered _ _ _ (store.locationOf B)
    rw [hloc]
    exact h.covered

theorem Inv.callback (hB : B.Lawful) (hN : B.NonFailing) (h : Inv B r front later s) {s' : State page_bits β}
    (hstep : callbackStep B t s = some s') : Inv B r front later s' := by
  obtain ⟨store, callback, scrub⟩ := s
  have hcorks : store.corks_ = _ := h.corks
  have hcovered := h.covered
  unfold callbackStep at hstep
  cases callback with
  | snapshotsFile | setTLogWrittenToBackend | writtenToBackendUpTo =>
    obtain rfl := some.inj hstep
    refine h.congr h.linked h.slots rfl hcorks rfl ?_
    unfold State.corkedEntries
    rw [hcorks]
  | unCork =>
    dsimp only at hstep
    split at hstep
    next c second rest hshape =>
      split at hstep
      · obtain rfl := some.inj hstep
        obtain rfl : c = front := by
          rw [hcorks] at hshape
          exact (List.cons.inj hshape).1.symm
        refine h.congr h.linked h.slots rfl hcorks rfl ?_
        unfold State.corkedEntries
        rw [hcorks]
      · cases hstep
    · cases hstep
  | entries left =>
    cases left with
    | nil =>
      obtain rfl := some.inj hstep
      exact h.congr h.linked h.slots rfl hcorks rfl rfl
    | cons e left =>
      obtain ⟨store', hget, hc, hslots⟩ := (keeps_linked hB hN).get_cluster_location_write h.linked h.slots e.1 e.2
      obtain ⟨hlinked, hloc⟩ := hc.linked B hB h.linked
      simp only [hget, some.injEq] at hstep
      subst hstep
      refine ⟨hlinked, hslots, (hc.frame B hB).corks.trans hcorks, h.left, ?_⟩
      show Covered _ _ left (store'.locationOf B)
      rw [hloc]
      exact hcovered.unCork
  | pages =>
    obtain ⟨store', hwrite, hc, hw⟩ := (keeps_linked hB hN).maybeWritePages h.linked
    obtain ⟨hlinked, hloc⟩ := hc.linked B hB h.linked
    simp only [hwrite, some.injEq] at hstep
    subst hstep
    exact h.congr hlinked (h.slots.wroteOut hw) hloc ((hc.frame B hB).corks.trans hcorks) rfl rfl
  | setCork =>
    obtain ⟨b, hb⟩ := hN.cork store.backend_ front.1
    obtain ⟨hlinked, hloc⟩ := h.linked.congr B
      { store with backend_ := b, cork_uuid_ := some front.1, corks_ := later } rfl rfl rfl (hB.cork hb).1
    simp only [hcorks, hb, some.injEq] at hstep
    subst hstep
    exact h.congr hlinked (h.slots.congr rfl rfl rfl) hloc rfl rfl rfl
  | done => cases hstep

theorem Inv.scrub (hB : B.Lawful) (hN : B.NonFailing) (hr : r.Sane) (h : Inv B r front later s)
    (hout : NotCorked s .scrub) {s' : State page_bits β} (hstep : applyStep B r s = some s') :
    Inv B r front later s' := by
  obtain ⟨store, callback, scrub⟩ := s
  have hcorks : store.corks_ = _ := h.corks
  -- what is corked depends on the corks and the callback only
  have hcorked : ∀ (store' : CachedMetaDataStore page_bits β) (scrub' : Apply), store'.corks_ = store.corks_ →
      (State.mk store' callback scrub').corkedEntries = (State.mk store callback scrub).corkedEntries := by
    intro store' scrub' heq
    unfold State.corkedEntries
    simp only [heq]
  unfold applyStep at hstep
  cases scrub with
  | replaceTLogsWithScrubbedOnes =>
    dsimp only at hstep
    split at hstep
    · obtain rfl := some.inj hstep
      exact h.congr h.linked h.slots rfl hcorks rfl (hcorked _ _ rfl)
    · cases hstep
  | temporaryScrubId =>
    obtain ⟨store', hset, hlinked, hslots, hloc, hsame⟩ := set_scrub_id_ok hB hN h.linked h.slots r.tmp
    simp only [hset, some.injEq] at hstep
    subst hstep
    exact h.congr hlinked hslots hloc (hsame.trans hcorks) rfl (hcorked _ _ hsame)
  | relocs left =>
    cases left with
    | nil =>
      obtain rfl := some.inj hstep
      exact h.congr h.linked h.slots rfl hcorks rfl (hcorked _ _ rfl)
    | cons p left =>
      have hp : p ∈ r.relocs := h.left p (mem_cons_self ..)
      obtain ⟨store', l, happly, hc, hslots, hloc⟩ := applyPairs_ok hB hN 0 [p] 0
        (fun q hq => by rw [mem_singleton.mp hq]; exact hr.wellFormed p hp) h.linked h.slots
      have happly' : applyPairs B 0 store [p.1, p.2] 0 = .ok (store', 1) := happly
      simp only [happly', some.injEq] at hstep
      subst hstep
      have hsame := (hc.frame B hB).corks
      refine ⟨(hc.linked B hB h.linked).1, hslots, hsame.trans hcorks, fun q hq => h.left q (mem_cons_of_mem p hq), ?_⟩
      rw [hcorked _ _ hsame]
      show Covered _ left _ (store'.locationOf B)
      rw [hloc]
      exact h.covered.reloc (hr.wellFormed p hp) (hr.kept p hp) (hout p left rfl)
  | pages =>
    obtain ⟨store', hwrite, hc, hslots⟩ := (keeps_linked hB hN).write_dirty_pages h.linked h.slots
    obtain ⟨hlinked, hloc⟩ := hc.linked B hB h.linked
    have hsame := (hc.frame B hB).corks
    simp only [hwrite, some.injEq] at hstep
    subst hstep
    exact h.congr hlinked hslots hloc (hsame.trans hcorks) rfl (hcorked _ _ hsame)
  | scrubId =>
    obtain ⟨store', hset, hlinked, hslots, hloc, hsame⟩ :=
      set_scrub_id_ok hB hN h.linked h.slots r.scrub_id
    simp only [hset, some.injEq] at hstep
    subst hstep
    exact h.congr hlinked hslots hloc (hsame.trans hcorks) rfl (hcorked _ _ hsame)
  | removeSCOs =>
    obtain rfl := some.inj hstep
    exact h.congr h.linked h.slots rfl hcorks rfl (hcorked _ _ rfl)
  | done => cases hstep

theorem step_inv (hB : B.Lawful) (hN : B.NonFailing) (hr : r.Sane) (s : State page_bits β) (a : Turn)
    (h : Inv B r front later s) (hout : NotCorked s a) : Inv B r front later (step B t r s a) := by
  cases a with
  | callback =>
    unfold step
    cases hstep : callbackStep B t s with
    | none => exact h
    | some s' => exact h.callback hB hN hstep
  | scrub =>
    unfold step
    cases hstep : applyStep B r s with
    | none => exact h
    | some s' => exact h.scrub hB hN hr hout hstep

end

/-! ## Every interleaving -/

/-- A store in which the TLog `front` is the oldest cork, and a scrub result that relocates every
location in a deleted SCO which an address has once that TLog is uncorked. What was written later is
in other SCOs. -/
structure Ready (r : ScrubberResult) (store : CachedMetaDataStore page_bits β) (front : UUID × CaLocMap)
    (later : List (UUID × CaLocMap)) : Prop where
  linked : Linked B store
  slots : Slots store
  corks : store.corks_ = front :: later
  sane : r.Sane
  covered : Covered r.sconames_to_be_deleted r.relocs front.2.toList (store.locationOf B)
  later : ∀ c ∈ later, ∀ p ∈ c.2.toList, p.2.clusterLocation.sco ∉ r.sconames_to_be_deleted

/-- No address refers to a deleted SCO after both operations, in every interleaving in which no
relocation is applied to a location that is still corked. -/
theorem relocated_after_both (hB : B.Lawful) (hN : B.NonFailing) {r : ScrubberResult}
    {store : CachedMetaDataStore page_bits β} {front : UUID × CaLocMap} {later : List (UUID × CaLocMap)}
    (h : Ready B r store front later) (t : TLogId) (turns : List Turn)
    (hout : Each (step B t r) NotCorked { store } turns)
    (hcallback : (runs (step B t r) { store } turns).callback = .done)
    (hscrub : (runs (step B t r) { store } turns).scrub = .done) :
    Clean B r.sconames_to_be_deleted (runs (step B t r) { store } turns).store := by
  have hstart : Inv B r front later { store } := by
    refine ⟨h.linked, h.slots, h.corks, fun p hp => hp, ?_⟩
    unfold State.corkedEntries
    simp only [h.corks]
    exact h.covered
  have hend := runs_invariant (Inv B r front later) (step_inv hB hN h.sane) hstart hout
  have hcorks := hend.corks
  have hcovered := hend.covered
  unfold State.relocsLeft State.corkedEntries at hcovered
  rw [hcallback] at hcorks
  rw [hcallback, hscrub] at hcovered
  constructor
  · intro ca hdel
    obtain ⟨p, hp, -⟩ := hcovered.pages ca nofun hdel
    cases hp
  · rw [hcorks]
    exact h.later

/-! ## A TLog with one entry -/

/-- The cluster of address 0 is in SCO 1, in an entry that is still corked. -/
def corkedLocation : ClusterLocationAndHash := ⟨⟨⟨1, 0, 0⟩, 0⟩, 7⟩

/-- A store with one corked entry. -/
def smallStore : CachedMetaDataStore 1 (Journal 1) where
  backend_ := {}
  pages_ := init_pages_ 1
  pages_size := 2
  cork_uuid_ := none
  scrub_id_ := none
  corks_ := [(1, (∅ : CaLocMap).insert 0 corkedLocation), (2, ∅)]

/-- The scrubber copied the cluster to a new version of the SCO and deletes the old one. -/
def smallResult : ScrubberResult where
  relocs := [(⟨0, corkedLocation⟩, ⟨0, ⟨⟨⟨1, 0, 1⟩, 0⟩, 7⟩⟩)]
  sconames_to_be_deleted := [⟨1, 0, 0⟩]
  tmp := 8
  scrub_id := 9

theorem smallStore_ready : Ready (backend 1) smallResult smallStore (1, (∅ : CaLocMap).insert 0 corkedLocation)
    [(2, ∅)] := by
  refine ⟨⟨nodup_nil, ?_, nofun⟩, ⟨by decide, by decide, ?_⟩, rfl, ⟨?_, ?_⟩, ⟨?_, ?_⟩, ?_⟩
  · intro pa i
    constructor
    · exact nofun
    · rintro ⟨h, -⟩
      cases h
  · intro i
    constructor
    · exact nofun
    · intro h
      exact absurd h (Nat.not_lt_zero i)
  · intro p hp
    obtain rfl := mem_singleton.mp hp
    exact ⟨rfl, rfl, rfl, rfl⟩
  · intro p hp
    obtain rfl := mem_singleton.mp hp
    decide
  · intro e he _
    obtain rfl := mem_singleton.mp he
    exact ⟨_, mem_singleton_self _, rfl, rfl⟩
  · -- the pages are empty
    intro ca _ hdel
    have hzero : smallStore.locationOf (backend 1) ca = ClusterLocationAndHash.zero.fixup := rfl
    rw [hzero] at hdel
    exact absurd hdel (by decide)
  · intro c hc p hp
    obtain rfl := mem_singleton.mp hc
    cases hp

/-- The TLog is uncorked before the scrub result is applied. -/
def unCorkFirst : List Turn := List.replicate 8 .callback ++ List.replicate 7 .scrub

theorem relocated_after_uncork :
    Each (step (backend 1) 1 smallResult) NotCorked { store := smallStore } unCorkFirst ∧
      Clean (backend 1) smallResult.sconames_to_be_deleted
        (runs (step (backend 1) 1 smallResult) { store := smallStore } unCorkFirst).store := by
  have hout : Each (step (backend 1) 1 smallResult) NotCorked { store := smallStore } unCorkFirst := by
    refine ⟨trivial, trivial, trivial, trivial, trivial, trivial, trivial, trivial, nofun, nofun, ?_, nofun, nofun,
      nofun, nofun, trivial⟩
    rintro p left - e ⟨⟩
  exact ⟨hout, relocated_after_both (backend 1) (backend_lawful 1) (backend_nonFailing 1)
    smallStore_ready 1 unCorkFirst hout rfl rfl⟩

/-- The callback gets as far as uncorking, the scrub result is applied, then the TLog is uncorked. -/
def scrubInBetween : List Turn :=
  List.replicate 4 .callback ++ List.replicate 7 .scrub ++ List.replicate 4 .callback

/-- Both operations are completed, and address 0 is in the SCO that the scrub result deletes. -/
theorem uncorked_after_scrub :
    Ready (backend 1) smallResult smallStore (1, (∅ : CaLocMap).insert 0 corkedLocation) [(2, ∅)] ∧
      (runs (step (backend 1) 1 smallResult) { store := smallStore } scrubInBetween).callback = .done ∧
      (runs (step (backend 1) 1 smallResult) { store := smallStore } scrubInBetween).scrub = .done ∧
      ¬ Clean (backend 1) smallResult.sconames_to_be_deleted
        (runs (step (backend 1) 1 smallResult) { store := smallStore } scrubInBetween).store := by
  refine ⟨smallStore_ready, rfl, rfl, fun hclean => hclean.pages 0 ?_⟩
  decide

end VolumeDriver.ConcurrentRelocs
