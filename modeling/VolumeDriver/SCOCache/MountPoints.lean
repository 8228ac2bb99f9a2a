/-
What removing a mount point, and adding one that fails, does to the rest of the SCO cache. The
clean-up of `removeMountPoint_` goes over all namespaces, and takes along what it should leave.
-/
import Mathlib.Data.List.TakeWhile
import VolumeDriver.SCOCache.Cache

namespace VolumeDriver.Cache

open Lib List SCOCache

/-! ## What the deletion of a SCO leaves alone -/

/-- Everything but the space, the files and which objects exist. -/
structure Core where
  mountPoints_ : List SCOCacheMountPointPtr
  currentMountPoint_ : Option SCOCacheMountPointPtr
  nsMap_ : Assoc Namespace SCOCacheNamespace
  sco : CachedSCOPtr → CachedSCO
  references : List CachedSCOPtr
  path : SCOCacheMountPointPtr → String
  next : CachedSCOPtr
  nextMountPoint : SCOCacheMountPointPtr

/-- Of a cache. -/
def SCOCache.core (c : SCOCache) : Core where
  mountPoints_ := c.mountPoints_
  currentMountPoint_ := c.currentMountPoint_
  nsMap_ := c.nsMap_
  sco := c.sco
  references := c.references
  path mp := (c.mountPoint mp).path_
  next := c.next
  nextMountPoint := c.nextMountPoint

theorem core_setUsed (c : SCOCache) (mp : SCOCacheMountPointPtr) (n : Nat) :
    (c.setMountPoint mp { c.mountPoint mp with used_ := n }).core = c.core := by
  have hpath : ∀ x, ((c.setMountPoint mp { c.mountPoint mp with used_ := n }).mountPoint x).path_ =
      (c.mountPoint x).path_ := by
    intro x
    simp only [setMountPoint]
    split
    · next h => rw [h]
    · rfl
  simp only [core, hpath]
  rfl

theorem Keeps.miscount {γ : Type} {f : SCOCache → γ} (h : ∀ c, f { c with miscounted := true } = f c) :
    Keeps f miscount :=
  (keeps_modify h).bind fun _ => keeps_throw

theorem Keeps.core_updateUsedSize (mp : SCOCacheMountPointPtr) (diff : Int) : Keeps core (updateUsedSize mp diff) := by
  apply keeps_get_bind
  intro c
  dsimp only
  split
  · split
    · exact core_setUsed c mp _
    · exact Keeps.miscount (fun _ => rfl) c
  · split
    · exact core_setUsed c mp _
    · exact Keeps.miscount (fun _ => rfl) c

theorem core_setFile (c : SCOCache) (a : CachedSCOPtr) (f : Option File) : (c.setFile a f).core = c.core := by
  obtain ⟨d, h⟩ := c.setFile_eq a f
  rw [h]
  rfl

theorem Keeps.core_addToGarbage (calls : Calls) (a : CachedSCOPtr) : Keeps core (addToGarbage calls a) := by
  apply keeps_get_bind
  intro c
  split
  · rfl
  · exact core_setFile c a none

theorem Keeps.core_unlink (calls : Calls) (a : CachedSCOPtr) : Keeps core (unlink calls a) :=
  (Keeps.core_addToGarbage calls a).bind fun _ => keeps_get_bind fun c => Keeps.core_updateUsedSize _ _ c

theorem core_destroy (calls : Calls) (a : CachedSCOPtr) (c : SCOCache) : (c.destroy calls a).core = c.core := by
  unfold destroy
  dsimp only
  split
  · exact Keeps.core_unlink calls a _
  · rfl

theorem core_collect (calls : Calls) (a : CachedSCOPtr) (c : SCOCache) : (c.collect calls a).core = c.core := by
  unfold collect
  split
  · exact core_destroy calls a c
  · rfl

/-! ## Entries -/

namespace SCOCache

theorem findNamespace_setNamespace (c : SCOCache) (ns k : Namespace) (entries : SCOCacheNamespace) :
    (c.setNamespace ns entries).findNamespace_ k = if ns = k then some entries else c.findNamespace_ k :=
  Assoc.find_set ns entries k c.nsMap_

theorem findEntry_eraseEntry (c : SCOCache) (ns k : Namespace) (name n : SCO) :
    (c.eraseEntry ns name).findEntry k n = if ns = k ∧ name = n then none else c.findEntry k n := by
  unfold findEntry eraseEntry
  rw [findNamespace_setNamespace]
  by_cases hk : ns = k
  · subst hk
    simp only [if_true, Option.bind_some, Assoc.find_erase, true_and]
    split
    · rfl
    · cases c.findNamespace_ ns <;> rfl
  · simp [hk]

theorem findEntry_core {c c' : SCOCache} (h : c'.core = c.core) (ns : Namespace) (name : SCO) :
    c'.findEntry ns name = c.findEntry ns name := by
  have hmap : c'.nsMap_ = c.nsMap_ := congrArg Core.nsMap_ h
  unfold findEntry findNamespace_
  rw [hmap]

end SCOCache

variable {c c' : SCOCache} {ns : Namespace} {e : SCOCacheNamespaceEntry} {name : SCO} {calls : Calls}

theorem findNamespace_throw_ok {entries : SCOCacheNamespace} (h : c.findNamespace_ ns = some entries) :
    findNamespace_throw_ ns c = .ok entries c := by
  unfold findNamespace_throw_
  refine (run_bind rfl).trans ?_
  rw [h]
  rfl

theorem findNamespace_throw_error (h : c.findNamespace_ ns = none) :
    findNamespace_throw_ ns c = .error (.IOException "namespace does not exist" (.nspace ns) none) c := by
  unfold findNamespace_throw_
  refine (run_bind rfl).trans ?_
  rw [h]
  rfl

/-- Some entries are gone, and nothing else has changed but the space, the files and which objects
exist. -/
structure Cleared (gone : Namespace → SCO → Prop) (c c' : SCOCache) : Prop where
  mountPoints : c'.mountPoints_ = c.mountPoints_
  current : c'.currentMountPoint_ = c.currentMountPoint_
  sco : c'.sco = c.sco
  next : c'.next = c.next
  references : c'.references = c.references
  path : ∀ mp, (c'.mountPoint mp).path_ = (c.mountPoint mp).path_
  namespaces : ∀ ns, (c.findNamespace_ ns).isSome → (c'.findNamespace_ ns).isSome
  erased : ∀ {ns name}, gone ns name → c'.findEntry ns name = none
  kept : ∀ {ns name}, ¬ gone ns name → c'.findEntry ns name = c.findEntry ns name

namespace Cleared

variable {gone gone' : Namespace → SCO → Prop} {c c' c'' : SCOCache}

theorem of_core (h : c'.core = c.core) : Cleared (fun _ _ => False) c c' where
  mountPoints := congrArg Core.mountPoints_ h
  current := congrArg Core.currentMountPoint_ h
  sco := congrArg Core.sco h
  next := congrArg Core.next h
  references := congrArg Core.references h
  path mp := congrFun (congrArg Core.path h) mp
  namespaces ns hns := by
    have hmap : c'.nsMap_ = c.nsMap_ := congrArg Core.nsMap_ h
    unfold findNamespace_ at hns ⊢
    rwa [hmap]
  erased h := h.elim
  kept _ := findEntry_core h ..

theorem refl (c : SCOCache) : Cleared (fun _ _ => False) c c := of_core rfl

theorem trans (h : Cleared gone c c') (h' : Cleared gone' c' c'') :
    Cleared (fun ns name => gone ns name ∨ gone' ns name) c c'' where
  mountPoints := h'.mountPoints.trans h.mountPoints
  current := h'.current.trans h.current
  sco := h'.sco.trans h.sco
  next := h'.next.trans h.next
  references := h'.references.trans h.references
  path mp := (h'.path mp).trans (h.path mp)
  namespaces ns hns := h'.namespaces ns (h.namespaces ns hns)
  erased {ns name} hor := by
    by_cases hg : gone' ns name
    · exact h'.erased hg
    · rw [h'.kept hg]
      exact h.erased (hor.resolve_right hg)
  kept {ns name} hor := by
    rw [not_or] at hor
    rw [h'.kept hor.2, h.kept hor.1]

theorem congr (h : Cleared gone c c') (hiff : ∀ ns name, gone ns name ↔ gone' ns name) : Cleared gone' c c' where
  __ := h
  erased hg := h.erased ((hiff ..).2 hg)
  kept hg := h.kept (mt (hiff ..).1 hg)

theorem dropEntry (calls : Calls) (ns : Namespace) (name : SCO) (c : SCOCache) :
    Cleared (fun k n => ns = k ∧ name = n) c (c.dropEntry calls ns name) := by
  unfold SCOCache.dropEntry
  split
  · next hnone =>
    refine { refl c with erased := ?_, kept := fun _ => rfl }
    rintro _ _ ⟨rfl, rfl⟩
    exact hnone
  · next e _ =>
    have herase : Cleared (fun k n => ns = k ∧ name = n) c (c.eraseEntry ns name) :=
      { mountPoints := rfl, current := rfl, sco := rfl, next := rfl, references := rfl, path := fun _ => rfl
        namespaces := by
          intro k hk
          unfold SCOCache.eraseEntry
          rw [SCOCache.findNamespace_setNamespace]
          split
          · rfl
          · exact hk
        erased := fun h => by rw [SCOCache.findEntry_eraseEntry, if_pos h]
        kept := fun h => by rw [SCOCache.findEntry_eraseEntry, if_neg h] }
    exact (herase.trans (of_core (core_collect calls e.sco_ _))).congr fun _ _ => Iff.of_eq (or_false _)

theorem holding (calls : Calls) (a : CachedSCOPtr) (f : SCOCache → SCOCache)
    (h : ∀ c, Cleared gone c (f c)) (c : SCOCache) : Cleared gone c (c.holding calls a f) := by
  have hf := h { c with references := a :: c.references }
  have hrefs : (f { c with references := a :: c.references }).references.erase a = c.references := by
    rw [hf.references, erase_cons_head]
  unfold SCOCache.holding
  dsimp only
  rw [hrefs]
  have hheld : Cleared gone c { f { c with references := a :: c.references } with references := c.references } :=
    { hf with references := rfl }
  exact (hheld.trans (of_core (core_collect calls a _))).congr fun _ _ => Iff.of_eq (or_false _)

theorem removeSCO_ (calls : Calls) (a : CachedSCOPtr) (hns : (c.findNamespace_ (c.sco a).nspace_).isSome) :
    ∃ c', Cache.removeSCO_ calls a false c = .ok () c' ∧
      Cleared (fun ns name => (c.sco a).nspace_ = ns ∧ (c.sco a).scoName_ = name) c c' := by
  obtain ⟨entries, hfind⟩ := Option.isSome_iff_exists.1 hns
  refine ⟨_, ?_, holding calls a _ (fun c' => dropEntry calls _ _ c') c⟩
  show EStateM.bind (Cache.findNamespace_throw_ _) _ c = _
  exact run_bind (findNamespace_throw_ok hfind)

end Cleared

/-! ## The removal, namespace by namespace -/

/-- What every reachable cache is like: its maps have no key twice, the entries are those of their
SCOs, and SCOs reside on mount points of the cache, which have paths of their own. -/
structure Core.Wf (c : Core) : Prop where
  namespaces : (c.nsMap_.map (·.1)).Nodup
  names : ∀ p ∈ c.nsMap_, (p.2.map (·.1)).Nodup
  named : ∀ p ∈ c.nsMap_, ∀ q ∈ p.2, (c.sco q.2.sco_).nspace_ = p.1 ∧ (c.sco q.2.sco_).scoName_ = q.1
  mounted : ∀ p ∈ c.nsMap_, ∀ q ∈ p.2, (c.sco q.2.sco_).mntPoint_ ∈ c.mountPoints_
  paths : ∀ x ∈ c.mountPoints_, ∀ y ∈ c.mountPoints_, c.path x = c.path y → x = y
  current : ∀ mp, c.currentMountPoint_ = some mp → mp ∈ c.mountPoints_
  fresh : ∀ mp ∈ c.mountPoints_, mp < c.nextMountPoint

/-- What every reachable cache is like. -/
def SCOCache.Wf (c : SCOCache) : Prop := c.core.Wf

/-- The SCO resides on the mount point with this path. -/
def SCOCache.resides (c : SCOCache) (path : String) (a : CachedSCOPtr) : Bool :=
  (c.mountPoint (c.sco a).mntPoint_).path_ = path

/-- The namespace has a SCO on the mount point that is not on the backend yet, or a SCO, on
whatever mount point, that somebody uses. -/
def SCOCache.busy (c : SCOCache) (path : String) (p : Namespace × SCOCacheNamespace) : Bool :=
  p.2.any fun q => c.resides path q.2.sco_ && !(c.sco q.2.sco_).disposable_ || decide (q.2.sco_ ∈ c.references)

theorem Cleared.busy {gone : Namespace → SCO → Prop} (h : Cleared gone c c') (path : String) :
    c'.busy path = c.busy path := by
  funext p
  unfold SCOCache.busy SCOCache.resides
  simp only [h.sco, h.references, h.path]

theorem checkSCOs_eq (c : SCOCache) (path : String) (mp : SCOCacheMountPointPtr) (ns : Namespace) :
    ∀ entries : SCOCacheNamespace,
      (∀ q ∈ entries, (c.sco q.2.sco_).mntPoint_ = mp ↔ c.resides path q.2.sco_) →
      checkSCOs path mp false entries c = if c.busy path (ns, entries) then
        .error (.IOException "cannot remove mountpoint" (.path path) (some .EBUSY)) c else .ok () c
  | [], _ => rfl
  | (name, e) :: rest, h => by
    have ih := checkSCOs_eq c path mp ns rest fun q hq => h q (mem_cons_of_mem _ hq)
    have hmp : decide ((c.sco e.sco_).mntPoint_ = mp) = c.resides path e.sco_ := by
      rw [Bool.eq_iff_iff, decide_eq_true_iff]
      exact h (name, e) (mem_cons_self ..)
    have huse : c.use_count e.sco_ + 1 > 2 ↔ e.sco_ ∈ c.references := by
      unfold use_count
      rw [← count_pos_iff]
      omega
    have hbusy : c.busy path (ns, (name, e) :: rest) = (c.resides path e.sco_ && !(c.sco e.sco_).disposable_ ||
        decide (e.sco_ ∈ c.references) || c.busy path (ns, rest)) := by
      unfold busy
      rw [any_cons]
    rw [hbusy]
    unfold checkSCOs
    rw [run_get_bind]
    simp only [Bool.not_false, Bool.true_and, hmp]
    by_cases h1 : (c.resides path e.sco_ && !(c.sco e.sco_).disposable_) = true
    · simp only [h1]
      rfl
    · by_cases h2 : e.sco_ ∈ c.references
      · simp only [h1, h2, huse.2 h2]
        rfl
      · simp only [h1, h2, mt huse.1 h2]
        exact ih

theorem Cleared.removeSCOs {ns : Namespace} (calls : Calls) : ∀ {entries : SCOCacheNamespace} {c : SCOCache},
    (c.findNamespace_ ns).isSome →
    (∀ q ∈ entries, (c.sco q.2.sco_).nspace_ = ns ∧ (c.sco q.2.sco_).scoName_ = q.1) →
    ∃ c', Cache.removeSCOs calls entries c = .ok () c' ∧ Cleared (fun k n => ns = k ∧ n ∈ entries.map (·.1)) c c'
  | [], c, _, _ => ⟨c, rfl, (refl c).congr fun _ _ => by simp⟩
  | (name, e) :: rest, c, hns, hnamed => by
    obtain ⟨rfl, hname⟩ := hnamed (name, e) (mem_cons_self ..)
    obtain ⟨c₁, hrun₁, h₁⟩ := Cleared.removeSCO_ calls e.sco_ hns
    have hrest : ∀ q ∈ rest, (c₁.sco q.2.sco_).nspace_ = (c.sco e.sco_).nspace_ ∧ (c₁.sco q.2.sco_).scoName_ = q.1 := by
      intro q hq
      rw [h₁.sco]
      exact hnamed q (mem_cons_of_mem _ hq)
    obtain ⟨c₂, hrun₂, h₂⟩ := Cleared.removeSCOs calls (h₁.namespaces _ hns) hrest
    refine ⟨c₂, ?_, (h₁.trans h₂).congr fun k n => ?_⟩
    · unfold Cache.removeSCOs
      rw [run_bind hrun₁]
      exact hrun₂
    · rw [hname, map_cons, mem_cons]
      constructor
      · rintro (⟨h, rfl⟩ | ⟨h, hn⟩)
        · exact ⟨h, .inl rfl⟩
        · exact ⟨h, .inr hn⟩
      · rintro ⟨h, rfl | hn⟩
        · exact .inl ⟨h, rfl⟩
        · exact .inr ⟨h, hn⟩

/-- The names that the loop over the namespaces erases: those of the namespaces before the first
busy one. -/
def SCOCache.erases (c : SCOCache) (path : String) (l : Assoc Namespace SCOCacheNamespace) (ns : Namespace)
    (name : SCO) : Prop :=
  ∃ p ∈ l.takeWhile (fun p => !c.busy path p), p.1 = ns ∧ name ∈ p.2.map (·.1)

theorem Cleared.clearNamespaces (calls : Calls) (path : String) (mp : SCOCacheMountPointPtr) :
    ∀ (l : Assoc Namespace SCOCacheNamespace) (c : SCOCache),
      (∀ p ∈ l, (c.findNamespace_ p.1).isSome) →
      (∀ p ∈ l, ∀ q ∈ p.2, (c.sco q.2.sco_).nspace_ = p.1 ∧ (c.sco q.2.sco_).scoName_ = q.1) →
      (∀ p ∈ l, ∀ q ∈ p.2, (c.sco q.2.sco_).mntPoint_ = mp ↔ c.resides path q.2.sco_) →
      ∃ c', Cleared (c.erases path l) c c' ∧ Cache.clearNamespaces calls path mp false l c = if l.any (c.busy path) then
          .error (.IOException "cannot remove mountpoint" (.path path) (some .EBUSY)) c' else .ok () c'
  | [], c, _, _, _ => ⟨c, (refl c).congr fun _ _ => by simp [erases], rfl⟩
  | p :: rest, c, hns, hnamed, hmp => by
    have hcheck := checkSCOs_eq c path mp p.1 p.2 (hmp p (mem_cons_self ..))
    by_cases hbusy : c.busy path p = true
    · -- the loop ends here
      refine ⟨c, (refl c).congr fun _ _ => by simp [erases, hbusy], ?_⟩
      unfold Cache.clearNamespaces
      rw [if_pos hbusy] at hcheck
      rw [run_bind_error hcheck, any_cons, hbusy]
      rfl
    · rw [if_neg hbusy] at hcheck
      obtain ⟨c₁, hrun₁, h₁⟩ := Cleared.removeSCOs calls (hns p (mem_cons_self ..)) (hnamed p (mem_cons_self ..))
      obtain ⟨c₂, h₂, hrun₂⟩ := Cleared.clearNamespaces calls path mp rest c₁
        (fun x hx => h₁.namespaces _ (hns x (mem_cons_of_mem _ hx)))
        (fun x hx q hq => by rw [h₁.sco]; exact hnamed x (mem_cons_of_mem _ hx) q hq)
        (fun x hx q hq => by
          unfold resides
          rw [h₁.sco, h₁.path]
          exact hmp x (mem_cons_of_mem _ hx) q hq)
      rw [h₁.busy] at hrun₂
      refine ⟨c₂, (h₁.trans h₂).congr fun ns name => ?_, ?_⟩
      · simp [erases, h₁.busy, hbusy, eq_comm]
      · unfold Cache.clearNamespaces
        rw [run_bind hcheck, run_bind hrun₁, hrun₂, any_cons, Bool.eq_false_iff.2 hbusy, Bool.false_or]

/-! ## The calls -/

namespace SCOCache.Wf

variable {c : SCOCache} (hw : c.Wf)

include hw

variable {p : Namespace × SCOCacheNamespace}

theorem findNamespace_ (hp : p ∈ c.nsMap_) : c.findNamespace_ p.1 = some p.2 :=
  Assoc.find_of_mem hw.namespaces hp

variable {q : SCO × SCOCacheNamespaceEntry}

theorem findEntry (hp : p ∈ c.nsMap_) (hq : q ∈ p.2) : c.findEntry p.1 q.1 = some q.2 := by
  unfold SCOCache.findEntry
  rw [hw.findNamespace_ hp]
  exact Assoc.find_of_mem (hw.names p hp) hq

theorem resides_iff {path : String} {mp : SCOCacheMountPointPtr} (hmp : mp ∈ c.mountPoints_)
    (hpath : (c.mountPoint mp).path_ = path) (hp : p ∈ c.nsMap_)
    (hq : q ∈ p.2) :
    (c.sco q.2.sco_).mntPoint_ = mp ↔ c.resides path q.2.sco_ := by
  unfold resides
  rw [decide_eq_true_iff]
  constructor
  · intro h
    rw [h, hpath]
  · intro h
    exact hw.paths _ (hw.mounted p hp q hq) _ hmp (h.trans hpath.symm)

theorem removeMountPoint_ (calls : Calls) {path : String} {mp : SCOCacheMountPointPtr}
    (hfind : c.mountPoints_.find? (fun mp => (c.mountPoint mp).path_ = path) = some mp)
    (hlen : c.mountPoints_.length ≠ 1) :
    ∃ c', Cleared (c.erases path c.nsMap_) c c' ∧
      Cache.removeMountPoint_ calls path false c = if c.nsMap_.any (c.busy path) then
        .error (.IOException "cannot remove mountpoint" (.path path) (some .EBUSY)) c'
      else .ok () (c'.eraseMountPoint mp) := by
  have hmp : mp ∈ c.mountPoints_ := mem_of_find?_eq_some hfind
  have hpath : (c.mountPoint mp).path_ = path := by simpa using List.find?_some hfind
  obtain ⟨c', h, hrun⟩ := Cleared.clearNamespaces calls path mp c.nsMap_ c
    (fun p hp => by rw [hw.findNamespace_ hp]; rfl) hw.named (fun p hp q hq => hw.resides_iff hmp hpath hp hq)
  refine ⟨c', h, ?_⟩
  unfold Cache.removeMountPoint_
  rw [run_get_bind]
  simp only [hfind, Bool.not_false, Bool.true_and, decide_eq_true_eq, hlen, if_false]
  split at hrun
  · next hbusy =>
    rw [if_pos hbusy]
    exact run_bind_error hrun
  · next hbusy =>
    rw [if_neg hbusy]
    exact run_bind hrun

end SCOCache.Wf

/-- The call affects only the mount point with this path: SCOs on other mount points are found as
before, with the same size and disposability, and a call that throws leaves the mount points, the
current one and the entries as they were. -/
structure Confined (path : String) (m : M Unit) (c : SCOCache) : Prop where
  others : ∀ ns name e, c.findEntry ns name = some e → c.resides path e.sco_ = false →
    result (findSCO_ ns name) (after m c) = result (findSCO_ ns name) c ∧ (after m c).sco e.sco_ = c.sco e.sco_
  undone : returns m c = false →
    (after m c).mountPoints_ = c.mountPoints_ ∧ (after m c).currentMountPoint_ = c.currentMountPoint_ ∧
      ∀ ns name, (after m c).findEntry ns name = c.findEntry ns name

theorem result_findSCO_some (h : c.findEntry ns name = some e) :
    result (findSCO_ ns name) c = if e.blocked_ then none else some (some e.sco_) := by
  obtain ⟨entries, hns, hfind⟩ := Option.bind_eq_some_iff.1 h
  unfold result findSCO_
  rw [run_bind (findNamespace_throw_ok hns), hfind]
  rcases e with ⟨a, _ | _⟩ <;> rfl

theorem result_findSCO_none (hns : (c.findNamespace_ ns).isSome) (h : c.findEntry ns name = none) :
    result (findSCO_ ns name) c = some none := by
  obtain ⟨entries, hns⟩ := Option.isSome_iff_exists.1 hns
  have hfind : entries.find name = none := by
    unfold findEntry at h
    rwa [hns] at h
  unfold result findSCO_
  rw [run_bind (findNamespace_throw_ok hns), hfind]
  rfl

theorem result_findSCO_found {a : CachedSCOPtr} (h : result (findSCO_ ns name) c = some (some a)) :
    ∃ e, c.findEntry ns name = some e ∧ e.blocked_ = false ∧ e.sco_ = a := by
  cases he : c.findEntry ns name with
  | some e =>
    rw [result_findSCO_some he] at h
    split at h
    · cases h
    · next hb =>
      cases h
      exact ⟨e, rfl, Bool.eq_false_iff.2 hb, rfl⟩
  | none =>
    cases hns : c.findNamespace_ ns with
    | some entries =>
      rw [result_findSCO_none (Option.isSome_of_eq_some hns) he] at h
      cases h
    | none =>
      unfold result findSCO_ at h
      rw [run_bind_error (findNamespace_throw_error hns)] at h
      cases h

theorem result_findSCO_ne (h : c.findEntry ns name = some e) (hns : (c'.findNamespace_ ns).isSome)
    (h' : c'.findEntry ns name = none) :
    result (findSCO_ ns name) c' ≠ result (findSCO_ ns name) c := by
  rw [result_findSCO_some h, result_findSCO_none hns h']
  split <;> simp

theorem Confined.of_same {path : String} {m : M Unit} (h : after m c = c) : Confined path m c where
  others ns name e _ _ := by rw [h]; exact ⟨rfl, rfl⟩
  undone _ := by rw [h]; exact ⟨rfl, rfl, fun _ _ => rfl⟩

/-- The two calls. -/
inductive MountPointCall
  | removeMountPoint (path : String)
  | addMountPoint (cfg : MountPointConfig)

namespace MountPointCall

/-- How the calls run. -/
def run (calls : Calls) : MountPointCall → M Unit
  | removeMountPoint path => Cache.removeMountPoint calls path
  | addMountPoint cfg => Cache.addMountPoint calls (.ok ()) cfg

/-- The path that they are about. -/
def path : MountPointCall → String
  | removeMountPoint path => path
  | addMountPoint cfg => cfg.path

/-- A removal, or the addition of a new mount point on which a namespace cannot be created. -/
def Concerns (calls : Calls) (c : SCOCache) : MountPointCall → Prop
  | removeMountPoint _ => True
  | addMountPoint cfg => (∀ mp ∈ c.mountPoints_, (c.mountPoint mp).path_ ≠ cfg.path) ∧
      ∃ p ∈ c.nsMap_, p.1 = "lost+found" ∨ calls.exists_fails p.1

/-- The removal is refused at once, or by a namespace with only empty ones before it, or it goes
through and all SCOs of the cache are on that mount point; the addition is not the first and there
are no SCOs at all. -/
def Harmless (c : SCOCache) : MountPointCall → Prop
  | removeMountPoint path =>
      (∀ mp ∈ c.mountPoints_, (c.mountPoint mp).path_ ≠ path) ∨ c.mountPoints_.length = 1 ∨
        if c.nsMap_.any (c.busy path) then ∀ p ∈ c.nsMap_.takeWhile (fun p => !c.busy path p), p.2 = []
        else ∀ p ∈ c.nsMap_, ∀ q ∈ p.2, c.resides path q.2.sco_
  | addMountPoint _ => c.mountPoints_ ≠ [] ∧ ∀ p ∈ c.nsMap_, p.2 = []

end MountPointCall

/-! ### Removal -/

theorem SCOCache.findNamespace_of_findEntry (h : c.findEntry ns name = some e) :
    ∃ p ∈ c.nsMap_, p.1 = ns ∧ (name, e) ∈ p.2 := by
  obtain ⟨entries, hns, hfind⟩ := Option.bind_eq_some_iff.1 h
  exact ⟨(ns, entries), Assoc.mem_of_find hns, rfl, Assoc.mem_of_find hfind⟩

theorem takeWhile_not_of_any_false {α : Type} {f : α → Bool} {l : List α} (h : l.any f = false) :
    l.takeWhile (fun x => !f x) = l := by
  rw [takeWhile_eq_self_iff]
  intro x hx
  have := any_eq_false.1 h x hx
  simpa using this

theorem Cleared.entries_iff {path : String} (hw : c.Wf) (h : Cleared (c.erases path c.nsMap_) c c') :
    (∀ ns name, c'.findEntry ns name = c.findEntry ns name) ↔
      ∀ p ∈ c.nsMap_.takeWhile (fun p => !c.busy path p), p.2 = [] := by
  constructor
  · intro hsame p hp
    apply eq_nil_iff_forall_not_mem.2
    intro q hq
    have hp' : p ∈ c.nsMap_ := (takeWhile_sublist _).subset hp
    have hgone := h.erased ⟨p, hp, rfl, mem_map_of_mem hq⟩
    rw [hsame, hw.findEntry hp' hq] at hgone
    cases hgone
  · intro hempty ns name
    apply h.kept
    rintro ⟨p, hp, -, hname⟩
    rw [hempty p hp] at hname
    cases hname

theorem removeMountPoint_unknown (calls : Calls) {path : String}
    (h : c.mountPoints_.find? (fun mp => (c.mountPoint mp).path_ = path) = none) :
    removeMountPoint_ calls path false c =
      .error (.IOException "mountpoint does not exist" (.path path) (some .ENOENT)) c := by
  unfold removeMountPoint_
  rw [run_get_bind, h]
  rfl

theorem removeMountPoint_last (calls : Calls) {path : String} {mp : SCOCacheMountPointPtr}
    (h : c.mountPoints_.find? (fun mp => (c.mountPoint mp).path_ = path) = some mp)
    (hlen : c.mountPoints_.length = 1) :
    removeMountPoint_ calls path false c =
      .error (.IOException "cannot remove last mountpoint" (.path path) (some .EBUSY)) c := by
  unfold removeMountPoint_
  rw [run_get_bind, h]
  simp only [hlen]
  rfl

theorem confined_removeMountPoint (calls : Calls) (path : String) (hw : c.Wf) :
    Confined path (removeMountPoint calls path) c ↔ (MountPointCall.removeMountPoint path).Harmless c := by
  unfold removeMountPoint MountPointCall.Harmless
  cases hfind : c.mountPoints_.find? (fun mp => (c.mountPoint mp).path_ = path) with
  | none =>
    refine iff_of_true (Confined.of_same (after_error (removeMountPoint_unknown calls hfind))) (.inl fun mp hmp => ?_)
    simpa using List.find?_eq_none.1 hfind mp hmp
  | some mp =>
    have hmp : mp ∈ c.mountPoints_ := mem_of_find?_eq_some hfind
    have hpath : (c.mountPoint mp).path_ = path := by simpa using List.find?_some hfind
    by_cases hlen : c.mountPoints_.length = 1
    · exact iff_of_true (Confined.of_same (after_error (removeMountPoint_last calls hfind hlen))) (.inr (.inl hlen))
    · obtain ⟨c', h, hrun⟩ := hw.removeMountPoint_ calls hfind hlen
      have hknown : ¬ ∀ mp ∈ c.mountPoints_, (c.mountPoint mp).path_ ≠ path := fun hall => hall mp hmp hpath
      simp only [hknown, hlen, false_or]
      by_cases hbusy : c.nsMap_.any (c.busy path) = true
      · -- refused in the middle: what was erased before must have been nothing
        rw [if_pos hbusy] at hrun
        rw [if_pos hbusy, ← h.entries_iff hw]
        constructor
        · intro hconf
          have := (hconf.undone (returns_error hrun)).2.2
          rwa [after_error hrun] at this
        · intro hsame
          constructor
          · intro ns name e he _
            rw [after_error hrun, h.sco, result_findSCO_some he, result_findSCO_some ((hsame ns name).trans he)]
            exact ⟨rfl, rfl⟩
          · intro _
            rw [after_error hrun]
            exact ⟨h.mountPoints, h.current, hsame⟩
      · rw [if_neg hbusy] at hrun
        rw [if_neg hbusy]
        have hall := takeWhile_not_of_any_false (Bool.eq_false_iff.2 hbusy)
        constructor
        · -- an entry of another mount point is gone as well
          intro hconf p hp q hq
          by_contra hres
          have hq' := hw.findEntry hp hq
          have hgone : (c'.eraseMountPoint mp).findEntry p.1 q.1 = none :=
            h.erased ⟨p, by rw [hall]; exact hp, rfl, mem_map_of_mem hq⟩
          have hsame := (hconf.others p.1 q.1 q.2 hq' (Bool.eq_false_iff.2 hres)).1
          rw [after_ok hrun] at hsame
          refine result_findSCO_ne hq' ?_ hgone hsame
          exact h.namespaces p.1 (by rw [hw.findNamespace_ hp]; rfl)
        · intro hres
          constructor
          · intro ns name e he hother
            obtain ⟨p, hp, -, hmem⟩ := findNamespace_of_findEntry he
            rw [hres p hp _ hmem] at hother
            cases hother
          · intro hthrow
            rw [returns_ok hrun] at hthrow
            cases hthrow

/-! ### Addition -/

theorem Keeps.core_addNamespaceTo (calls : Calls) (mp : SCOCacheMountPointPtr) (ns : Namespace) :
    Keeps core (addNamespaceTo calls mp ns) := by
  apply keeps_get_bind
  intro c
  split
  · rfl
  · split
    · rfl
    · split <;> rfl

theorem addNamespaceTo_fails (h : ns = "lost+found" ∨ calls.exists_fails ns = true) (mp : SCOCacheMountPointPtr)
    (c : SCOCache) : ∃ e, addNamespaceTo calls mp ns c = .error e c := by
  unfold addNamespaceTo
  rw [run_get_bind]
  by_cases hns : ns = "lost+found"
  · exact ⟨_, by rw [if_pos hns]; rfl⟩
  · exact ⟨_, by rw [if_neg hns, if_pos (h.resolve_left hns)]; rfl⟩

/-- When a namespace cannot be added, the addition ends with the removal of the mount point, and
throws whether that succeeds or not. -/
theorem addNamespaces_fails (path : String) (mp : SCOCacheMountPointPtr) :
    ∀ {l : List Namespace} (c : SCOCache), (∃ ns ∈ l, ns = "lost+found" ∨ calls.exists_fails ns = true) →
      ∃ c' e, c'.core = c.core ∧
        addNamespaces calls path mp l c = .error e (after (removeMountPoint_ calls path false) c')
  | ns :: rest, c, hex => by
    have hkeep := Keeps.core_addNamespaceTo calls mp ns
    unfold addNamespaces
    cases hadd : addNamespaceTo calls mp ns c with
    | ok u c₁ =>
      have hrest : ∃ x ∈ rest, x = "lost+found" ∨ calls.exists_fails x = true := by
        obtain ⟨x, hx, hfail⟩ := hex
        rcases mem_cons.1 hx with rfl | hx
        · obtain ⟨e, he⟩ := addNamespaceTo_fails hfail mp c
          rw [he] at hadd
          cases hadd
        · exact ⟨x, hx, hfail⟩
      obtain ⟨c', e, hcore, hrun⟩ := addNamespaces_fails path mp c₁ hrest
      refine ⟨c', e, hcore.trans (hkeep.of_ok hadd), ?_⟩
      rw [run_bind (run_tryCatch hadd)]
      exact hrun
    | error e c₁ =>
      have hcore := hkeep.of_error hadd
      cases hrem : removeMountPoint_ calls path false c₁ with
      | ok u c₂ =>
        refine ⟨c₁, e, hcore, ?_⟩
        rw [after_ok hrem]
        apply run_bind_error
        rw [run_tryCatch_error hadd, run_bind hrem]
        rfl
      | error e' c₂ =>
        refine ⟨c₁, e', hcore, ?_⟩
        rw [after_error hrem]
        apply run_bind_error
        rw [run_tryCatch_error hadd, run_bind_error hrem]

theorem addMountPoint_fails {cfg : MountPointConfig} (hnew : ∀ mp ∈ c.mountPoints_, (c.mountPoint mp).path_ ≠ cfg.path)
    (hex : ∃ p ∈ c.nsMap_, p.1 = "lost+found" ∨ calls.exists_fails p.1 = true) :
    ∃ c' e, c'.core = (c.withMountPoint cfg).core ∧
      addMountPoint calls (.ok ()) cfg c = .error e (after (removeMountPoint_ calls cfg.path false) c') := by
  have hkeys : ∃ ns ∈ c.nsMap_.map (·.1), ns = "lost+found" ∨ calls.exists_fails ns = true := by
    obtain ⟨p, hp, h⟩ := hex
    exact ⟨p.1, mem_map_of_mem hp, h⟩
  obtain ⟨c', e, hcore, hrun⟩ := addNamespaces_fails cfg.path c.nextMountPoint (c.withMountPoint cfg) hkeys
  refine ⟨c', e, hcore, ?_⟩
  have hany : (c.mountPoints_.any fun mp => decide ((c.mountPoint mp).path_ = cfg.path)) = false := by
    simpa using hnew
  unfold addMountPoint
  rw [run_get_bind]
  simp only [hany, Bool.false_eq_true, if_false]
  rw [run_bind (show (set (c.withMountPoint cfg) : M PUnit) c = .ok ⟨⟩ (c.withMountPoint cfg) from rfl)]
  exact run_bind_error hrun

section

variable {c : SCOCache} {cfg : MountPointConfig}

theorem SCOCache.Wf.not_mem_nextMountPoint (hw : c.Wf) : c.nextMountPoint ∉ c.mountPoints_ := by
  intro h
  exact Nat.lt_irrefl _ (hw.fresh _ h)

@[simp] theorem withMountPoint_path_new : ((c.withMountPoint cfg).mountPoint c.nextMountPoint).path_ = cfg.path := by
  simp [withMountPoint, setMountPoint]

theorem withMountPoint_path_old (hw : c.Wf) {mp : SCOCacheMountPointPtr} (hmp : mp ∈ c.mountPoints_) :
    ((c.withMountPoint cfg).mountPoint mp).path_ = (c.mountPoint mp).path_ := by
  have hne : mp ≠ c.nextMountPoint := by
    rintro rfl
    exact hw.not_mem_nextMountPoint hmp
  simp [withMountPoint, setMountPoint, hne]

theorem SCOCache.Wf.withMountPoint (hw : c.Wf) (hnew : ∀ mp ∈ c.mountPoints_, (c.mountPoint mp).path_ ≠ cfg.path) :
    (c.withMountPoint cfg).Wf where
  __ := hw
  mounted p hp q hq := mem_append_left _ (hw.mounted p hp q hq)
  paths x hx y hy h := by
    change ((c.withMountPoint cfg).mountPoint x).path_ = ((c.withMountPoint cfg).mountPoint y).path_ at h
    rcases mem_append.1 hx with hx | hx <;> rcases mem_append.1 hy with hy | hy
    · rw [withMountPoint_path_old hw hx, withMountPoint_path_old hw hy] at h
      exact hw.paths x hx y hy h
    · rw [mem_singleton.1 hy, withMountPoint_path_new, withMountPoint_path_old hw hx] at h
      exact absurd h (hnew x hx)
    · rw [mem_singleton.1 hx, withMountPoint_path_new, withMountPoint_path_old hw hy] at h
      exact absurd h.symm (hnew y hy)
    · rw [mem_singleton.1 hx, mem_singleton.1 hy]
  current mp h := mem_append_left _ (hw.current mp h)
  fresh mp hmp := by
    show mp < c.nextMountPoint + 1
    rcases mem_append.1 hmp with h | h
    · exact Nat.lt_succ_of_lt (hw.fresh mp h)
    · rw [mem_singleton.1 h]
      exact Nat.lt_succ_self _

theorem find_withMountPoint (hw : c.Wf) (hnew : ∀ mp ∈ c.mountPoints_, (c.mountPoint mp).path_ ≠ cfg.path)
    {c' : SCOCache} (hcore : c'.core = (c.withMountPoint cfg).core) :
    c'.mountPoints_.find? (fun mp => (c'.mountPoint mp).path_ = cfg.path) = some c.nextMountPoint := by
  have hlist : c'.mountPoints_ = c.mountPoints_ ++ [c.nextMountPoint] := congrArg Core.mountPoints_ hcore
  have hpath : ∀ mp, (c'.mountPoint mp).path_ = ((c.withMountPoint cfg).mountPoint mp).path_ :=
    congrFun (congrArg Core.path hcore)
  have hold : c.mountPoints_.find? (fun mp => ((c.withMountPoint cfg).mountPoint mp).path_ = cfg.path) = none := by
    rw [List.find?_eq_none]
    intro mp hmp
    rw [withMountPoint_path_old hw hmp]
    simpa using hnew mp hmp
  rw [hlist]
  simp only [hpath]
  rw [List.find?_append, hold]
  simp

theorem eraseMountPoint_new (hw : c.Wf) {c' : SCOCache} (hlist : c'.mountPoints_ = c.mountPoints_ ++ [c.nextMountPoint])
    (hcur : c'.currentMountPoint_ = c.currentMountPoint_) :
    (c'.eraseMountPoint c.nextMountPoint).mountPoints_ = c.mountPoints_ ∧
      (c'.eraseMountPoint c.nextMountPoint).currentMountPoint_ = c.currentMountPoint_ := by
  constructor
  · show c'.mountPoints_.erase c.nextMountPoint = c.mountPoints_
    rw [hlist, erase_append_right _ hw.not_mem_nextMountPoint]
    simp
  · have hne : c'.currentMountPoint_ ≠ some c.nextMountPoint := by
      rw [hcur]
      intro h
      exact hw.not_mem_nextMountPoint (hw.current _ h)
    show (if c'.currentMountPoint_ = some c.nextMountPoint then _ else c'.currentMountPoint_) = _
    rw [if_neg hne, hcur]

theorem confined_addMountPoint {calls : Calls} (hw : c.Wf)
    (hnew : ∀ mp ∈ c.mountPoints_, (c.mountPoint mp).path_ ≠ cfg.path)
    (hex : ∃ p ∈ c.nsMap_, p.1 = "lost+found" ∨ calls.exists_fails p.1 = true) :
    Confined cfg.path (addMountPoint calls (.ok ()) cfg) c ↔ (MountPointCall.addMountPoint cfg).Harmless c := by
  obtain ⟨c', e, hcore, hrun⟩ := addMountPoint_fails hnew hex
  have hw' : c'.Wf := by
    show c'.core.Wf
    rw [hcore]
    exact hw.withMountPoint hnew
  have hfind := find_withMountPoint hw hnew hcore
  have hlist : c'.mountPoints_ = c.mountPoints_ ++ [c.nextMountPoint] := congrArg Core.mountPoints_ hcore
  have hcur : c'.currentMountPoint_ = c.currentMountPoint_ := congrArg Core.currentMountPoint_ hcore
  have hmap : c'.nsMap_ = c.nsMap_ := congrArg Core.nsMap_ hcore
  have hentry : ∀ ns name, c'.findEntry ns name = c.findEntry ns name := by
    intro ns name
    unfold findEntry findNamespace_
    rw [hmap]
  -- a mount point that stays was not there before
  have hstays : ∀ x : SCOCache, x.mountPoints_ = c'.mountPoints_ → after (addMountPoint calls (.ok ()) cfg) c = x →
      ¬ Confined cfg.path (addMountPoint calls (.ok ()) cfg) c := by
    intro x hx hafter hconf
    have hundone := (hconf.undone (returns_error hrun)).1
    rw [hafter, hx, hlist] at hundone
    have := congrArg List.length hundone
    simp at this
  unfold MountPointCall.Harmless
  by_cases hnil : c.mountPoints_ = []
  · have hlen : c'.mountPoints_.length = 1 := by simp [hlist, hnil]
    refine iff_of_false (hstays c' rfl ?_) (fun h => h.1 hnil)
    rw [after_error hrun, after_error (removeMountPoint_last calls hfind hlen)]
  · have hlen : c'.mountPoints_.length ≠ 1 := by
      have := length_pos_iff.2 hnil
      rw [hlist, length_append, length_singleton]
      omega
    obtain ⟨c'', h, hrem⟩ := hw'.removeMountPoint_ calls hfind hlen
    by_cases hbusy : c'.nsMap_.any (c'.busy cfg.path) = true
    · rw [if_pos hbusy] at hrem
      refine iff_of_false (hstays c'' h.mountPoints ?_) ?_
      · rw [after_error hrun, after_error hrem]
      · -- somebody uses a SCO, so there is one
        rintro ⟨-, hempty⟩
        obtain ⟨p, hp, hany⟩ := any_eq_true.1 hbusy
        unfold busy at hany
        rw [hempty p (hmap ▸ hp)] at hany
        cases hany
    · rw [if_neg hbusy] at hrem
      have hall := takeWhile_not_of_any_false (Bool.eq_false_iff.2 hbusy)
      have hafter : after (addMountPoint calls (.ok ()) cfg) c = c''.eraseMountPoint c.nextMountPoint := by
        rw [after_error hrun, after_ok hrem]
      have hback := eraseMountPoint_new hw (h.mountPoints.trans hlist) (h.current.trans hcur)
      have hiff := h.entries_iff hw'
      rw [hall, hmap] at hiff
      constructor
      · intro hconf
        refine ⟨hnil, hiff.1 fun ns name => ?_⟩
        have := (hconf.undone (returns_error hrun)).2.2 ns name
        rw [hafter] at this
        exact Eq.trans this (hentry ns name).symm
      · rintro ⟨-, hempty⟩
        constructor
        · intro ns name e' he _
          obtain ⟨p, hp, -, hmem⟩ := findNamespace_of_findEntry he
          rw [hempty p hp] at hmem
          cases hmem
        · intro _
          rw [hafter]
          exact ⟨hback.1, hback.2, fun ns name => Eq.trans (hiff.2 hempty ns name) (hentry ns name)⟩

end

/-- Removing a mount point, or failing to add one, affects that mount point only, exactly in the
harmless cases. -/
theorem only_that_mount_point (calls : Calls) (call : MountPointCall) (c : SCOCache) (hw : c.Wf)
    (hcall : call.Concerns calls c) : Confined call.path (call.run calls) c ↔ call.Harmless c := by
  cases call with
  | removeMountPoint path => exact confined_removeMountPoint calls path hw
  | addMountPoint cfg => exact confined_addMountPoint hw hcall.1 hcall.2

theorem sample_fits : 1000 < 2 ^ 63 := by decide

/-- Two mount points, and one SCO, on the second, that is not on the backend yet. -/
def sample : SCOCache where
  mountPoint mp := { path_ := if mp = 0 then "/mnt/sda" else "/mnt/sdb", capacity_ := 1000, fits := sample_fits }
  mountPoints_ := [0, 1]
  currentMountPoint_ := some 1
  nsMap_ := [("vol", [({ number := 1 }, { sco_ := 0, blocked_ := false })])]
  sco _ := { nspace_ := "vol", scoName_ := { number := 1 }, mntPoint_ := 1, size_ := 100, complete := true }
  live := {0}
  next := 1
  nextMountPoint := 2
  directories mp := if mp = 1 then [("vol", [({ number := 1 }, { st_size := 100 })])] else [("vol", [])]

theorem sample_wf : sample.Wf where
  namespaces := by decide
  names := by decide
  named := by decide
  mounted := by decide
  paths := by decide
  current := by
    intro mp h
    cases h
    decide
  fresh := by decide

/-- The removal of the second mount point is refused, as its SCO is not on the backend yet, and
changes nothing. -/
theorem refused_removal :
    Confined "/mnt/sdb" ((MountPointCall.removeMountPoint "/mnt/sdb").run {}) sample :=
  (only_that_mount_point {} (.removeMountPoint "/mnt/sdb") sample sample_wf trivial).2 (by
    right
    right
    decide)

/-- The removal of the first mount point, on which there is nothing, returns, and the SCO on the
second one, which is not on the backend yet, is forgotten. -/
theorem forgotten_sco :
    returns ((MountPointCall.removeMountPoint "/mnt/sda").run {}) sample = true ∧
      (sample.sco 0).disposable_ = false ∧
      result (findSCO_ "vol" { number := 1 }) sample = some (some 0) ∧
      result (findSCO_ "vol" { number := 1 })
        (after ((MountPointCall.removeMountPoint "/mnt/sda").run {}) sample) = some none ∧
      ¬ Confined "/mnt/sda" ((MountPointCall.removeMountPoint "/mnt/sda").run {}) sample := by
  refine ⟨by decide, by decide, by decide, by decide, fun h => ?_⟩
  have hsame := (h.others "vol" { number := 1 } { sco_ := 0, blocked_ := false } (by decide) (by decide)).1
  revert hsame
  decide

end VolumeDriver.Cache
