/-
A SCO is only found when all of it is there. What could show a SCO too early is the end of a fetch:
the thread looks the entry up again by its name, and that may be the entry of somebody else by now.
-/
import VolumeDriver.SCOCache.MountPoints
import VolumeDriver.SCOCache.Threads

namespace VolumeDriver.Cache

open Lib SCOCache

/-! ## What shows no SCO that is not complete -/

/-- Entries may have gone or been blocked, what was complete still is, and a new entry is for a new
SCO, which is complete or blocked. -/
structure Tame (c c' : SCOCache) : Prop where
  next : c.next ≤ c'.next
  complete : ∀ a < c.next, (c.sco a).complete = true → (c'.sco a).complete = true
  entries : ∀ {ns name e'}, c'.findEntry ns name = some e' →
    (∃ e, c.findEntry ns name = some e ∧ e.sco_ = e'.sco_ ∧ (e'.blocked_ = false → e.blocked_ = false)) ∨
      e'.sco_ < c'.next ∧ (e'.blocked_ = false → (c'.sco e'.sco_).complete = true)

namespace Tame

variable {c c' c'' : SCOCache}

theorem of_same (hmap : c'.nsMap_ = c.nsMap_) (hsco : c'.sco = c.sco) (hnext : c'.next = c.next) : Tame c c' where
  next := hnext.ge
  complete a _ h := by rwa [hsco]
  entries {ns name e'} h := by
    unfold findEntry findNamespace_ at h ⊢
    rw [hmap] at h
    exact .inl ⟨e', h, rfl, id⟩

theorem refl (c : SCOCache) : Tame c c := of_same rfl rfl rfl

theorem trans (h : Tame c c') (h' : Tame c' c'') : Tame c c'' where
  next := h.next.trans h'.next
  complete a ha hc := h'.complete a (ha.trans_le h.next) (h.complete a ha hc)
  entries he := by
    rcases h'.entries he with ⟨e', he', hsco', hblocked'⟩ | hnew
    · rcases h.entries he' with ⟨e, he, hsco, hblocked⟩ | ⟨hlt, hcomplete⟩
      · exact .inl ⟨e, he, hsco.trans hsco', fun h => hblocked (hblocked' h)⟩
      · -- new in between, and not touched since
        rw [hsco'] at hlt hcomplete
        exact .inr ⟨hlt.trans_le h'.next, fun hb => h'.complete _ hlt (hcomplete (hblocked' hb))⟩
    · exact .inr hnew

instance : IsPreorder SCOCache Tame where
  refl := refl
  trans _ _ _ := trans

theorem of_core (h : c'.core = c.core) : Tame c c' :=
  of_same (congrArg Core.nsMap_ h) (congrArg Core.sco h) (congrArg Core.next h)

theorem of_entries (hsco : c'.sco = c.sco) (hnext : c'.next = c.next)
    (h : ∀ {ns name e'}, c'.findEntry ns name = some e' →
      ∃ e, c.findEntry ns name = some e ∧ e.sco_ = e'.sco_ ∧ (e'.blocked_ = false → e.blocked_ = false)) :
    Tame c c' where
  next := hnext.ge
  complete a _ h := by rwa [hsco]
  entries he := .inl (h he)

theorem of_cleared {gone : Namespace → SCO → Prop} (h : Cleared gone c c') : Tame c c' := by
  refine of_entries h.sco h.next ?_
  intro ns name e' he
  by_cases hgone : gone ns name
  · rw [h.erased hgone] at he
    cases he
  · rw [h.kept hgone] at he
    exact ⟨e', he, rfl, id⟩

theorem setSCO {a : CachedSCOPtr} {o : CachedSCO} (h : (c.sco a).complete = true → o.complete = true) :
    Tame c (c.setSCO a o) where
  next := Nat.le_refl _
  complete x _ hx := by
    show (if x = a then o else c.sco x).complete = true
    split
    · next heq =>
      subst heq
      exact h hx
    · exact hx
  entries {_ _ e'} he := .inl ⟨e', he, rfl, id⟩

theorem foldl {α : Type} {f : SCOCache → α → SCOCache} (h : ∀ c x, Tame c (f c x)) :
    ∀ (l : List α) (c : SCOCache), Tame c (l.foldl f c)
  | [], c => refl c
  | x :: l, c => (h c x).trans (foldl h l (f c x))

theorem dropEntry (calls : Calls) (ns : Namespace) (name : SCO) (c : SCOCache) : Tame c (c.dropEntry calls ns name) :=
  of_cleared (Cleared.dropEntry calls ns name c)

theorem collect (calls : Calls) (a : CachedSCOPtr) (c : SCOCache) : Tame c (c.collect calls a) :=
  of_core (core_collect calls a c)

theorem dropMountPoint (calls : Calls) (c : SCOCache) (mp : SCOCacheMountPointPtr) :
    Tame c (c.dropMountPoint calls mp) := by
  have hdrop : ∀ (c : SCOCache) (p : Namespace × SCO), Tame c (c.dropResident calls mp p) := by
    intro c p
    unfold dropResident
    split
    · exact refl c
    · split
      · exact dropEntry calls p.1 p.2 c
      · exact refl c
  have hstart : Tame c { c.setOffline mp with mountPoints_ := c.mountPoints_.filter (· ≠ mp) } := of_same rfl rfl rfl
  exact trans (hstart.trans (foldl hdrop _ _)) (of_same rfl rfl rfl)

theorem offlineMountPoint_ (calls : Calls) (mp : SCOCacheMountPointPtr) (c : SCOCache) :
    Tame c (c.offlineMountPoint_ calls mp) := by
  unfold SCOCache.offlineMountPoint_
  split
  · exact (dropMountPoint calls c mp).trans (foldl (dropMountPoint calls) _ _)
  · exact of_same rfl rfl rfl

end Tame

/-! ### Programs -/

section

variable (calls : Calls)

theorem tame_updateUsedSize (mp : SCOCacheMountPointPtr) (diff : Int) : Along Tame (updateUsedSize mp diff) :=
  fun c => .of_core (Keeps.core_updateUsedSize mp diff c)

variable (a : CachedSCOPtr)

theorem tame_setDisposable : Along Tame (setDisposable calls a) := by
  apply along_get_bind
  intro c
  dsimp only
  split
  · exact .refl c
  · split
    · exact .refl c
    · split
      · exact .refl c
      · split
        · exact .refl c
        · split
          · exact .refl c
          · next st _ _ _ _ =>
            have hfile : Tame c (c.setFile a (some { st with sticky := !st.sticky })) :=
              .of_core (core_setFile ..)
            have hsco : Tame c ((c.setFile a (some { st with sticky := !st.sticky })).setSCO a
                { c.sco a with size_ := st.st_size, disposable_ := true }) :=
              hfile.trans (.setSCO fun h => by rwa [setFile_sco] at h)
            exact hsco.trans (tame_updateUsedSize _ _ _)

variable (ns : Namespace)

theorem tame_findNamespace_throw_ : Along Tame (findNamespace_throw_ ns) := by
  apply along_get_bind
  intro c
  split <;> exact .refl c

theorem tame_holding {f : SCOCache → SCOCache} (h : ∀ c, Tame c (f c)) (c : SCOCache) :
    Tame c (c.holding calls a f) := by
  have hheld : Tame c { c with references := a :: c.references } := .of_same rfl rfl rfl
  unfold holding
  generalize hx : f { c with references := a :: c.references } = x
  have hf : Tame c x := hx ▸ hheld.trans (h _)
  have hfree : Tame x { x with references := x.references.erase a } := .of_same rfl rfl rfl
  exact (hf.trans hfree).trans (.collect calls a _)

theorem tame_removeSCO_ (unlink : Bool) : Along Tame (removeSCO_ calls a unlink) := by
  apply along_get_bind
  intro c
  refine ((tame_findNamespace_throw_ _).bind fun _ => ?_) c
  apply along_modify
  intro c
  refine tame_holding calls a (fun c => ?_) c
  split
  · exact (Tame.dropEntry calls _ _ c).trans (.setSCO fun h => h)
  · exact .dropEntry calls _ _ c

theorem tame_findAndRemoveSCO_ (name : SCO) (rnd mustBeBlocked unlink : Bool) :
    Along Tame (findAndRemoveSCO_ calls ns name rnd mustBeBlocked unlink) := by
  refine (tame_findNamespace_throw_ ns).bind fun entries => ?_
  split
  · exact along_throw
  · next e _ =>
    split
    · exact along_throw
    · refine along_get_bind fun c => ?_
      split
      · exact .refl c
      · exact tame_removeSCO_ calls e.sco_ unlink c

theorem tame_reportIOError_ : Along Tame (reportIOError_ calls a) :=
  along_modify fun c => .offlineMountPoint_ calls _ c

theorem tame_addNamespaceTo (mp : SCOCacheMountPointPtr) (ns : Namespace) : Along Tame (addNamespaceTo calls mp ns) :=
  fun c => .of_core (Keeps.core_addNamespaceTo calls mp ns c)

theorem tame_addNamespaceToMountPoints (ns : Namespace) :
    ∀ mps : List SCOCacheMountPointPtr, Along Tame (addNamespaceToMountPoints calls ns mps)
  | [] => along_pure
  | mp :: rest => by
    refine along_get_bind fun c => ?_
    split
    · exact ((tame_addNamespaceTo calls mp ns).bind fun _ => tame_addNamespaceToMountPoints ns rest) c
    · exact tame_addNamespaceToMountPoints ns rest c

theorem Tame.dropDirectories (c : SCOCache) : Tame c (c.removeNamespaceFromMountPoints_ ns) := by
  have hdrop : ∀ (c : SCOCache) (mp : SCOCacheMountPointPtr), Tame c (dropDirectory ns c mp) :=
    fun _ _ => of_same rfl rfl rfl
  exact foldl hdrop _ c

theorem Tame.setNamespace_nil (c : SCOCache) (ns : Namespace) : Tame c (c.setNamespace ns []) := by
  refine of_entries rfl rfl ?_
  intro k n e' he
  unfold findEntry at he ⊢
  rw [findNamespace_setNamespace] at he
  split at he
  · cases he
  · exact ⟨e', he, rfl, id⟩

theorem tame_addNamespace : Along Tame (addNamespace calls ns) := by
  refine along_get_bind fun c => ?_
  split
  · exact .refl c
  · split
    · exact .refl c
    · refine (Along.bind (.tryCatch (tame_addNamespaceToMountPoints calls ns _) fun _ => ?_) fun _ => ?_) c
      · exact (along_modify (Tame.dropDirectories ns)).bind fun _ => along_throw
      · exact along_modify fun c => .setNamespace_nil c ns

theorem Tame.eraseNamespace (c : SCOCache) (ns : Namespace) : Tame c { c with nsMap_ := c.nsMap_.erase ns } := by
  refine of_entries rfl rfl ?_
  intro k n e' he
  unfold findEntry findNamespace_ at he ⊢
  rw [Assoc.find_erase] at he
  split at he
  · cases he
  · exact ⟨e', he, rfl, id⟩

theorem Tame.disableNamespace_ (ns : Namespace) (c : SCOCache) : Tame c (c.disableNamespace_ calls ns) := by
  have hcollect : ∀ (c : SCOCache) (q : SCO × SCOCacheNamespaceEntry), Tame c (c.collect calls q.2.sco_) :=
    fun c q => collect calls q.2.sco_ c
  exact (eraseNamespace c ns).trans (foldl hcollect _ _)

theorem tame_disableNamespace : Along Tame (disableNamespace calls ns) :=
  (tame_findNamespace_throw_ ns).bind fun _ => along_modify (Tame.disableNamespace_ calls ns)

theorem SCOCache.findEntry_setEntry (c : SCOCache) (ns k : Namespace) (name n : SCO) (e : SCOCacheNamespaceEntry) :
    (c.setEntry ns name e).findEntry k n = if ns = k ∧ name = n then some e else c.findEntry k n := by
  unfold findEntry setEntry
  rw [findNamespace_setNamespace]
  by_cases hk : ns = k
  · subst hk
    simp only [if_true, Option.bind_some, Assoc.find_set, true_and]
    split
    · rfl
    · cases c.findNamespace_ ns <;> rfl
  · simp [hk]

theorem Tame.choose (c : SCOCache) (p : Namespace × SCO) : Tame c (c.choose p) := by
  unfold SCOCache.choose
  split
  · exact refl c
  · next e hentry =>
    split
    · refine of_entries rfl rfl ?_
      intro k n e' he
      change (c.setEntry p.1 p.2 (e.setBlocked true)).findEntry k n = some e' at he
      rw [SCOCache.findEntry_setEntry] at he
      split at he
      · next hkey =>
        obtain ⟨rfl, rfl⟩ := hkey
        cases he
        exact ⟨e, hentry, rfl, nofun⟩
      · exact ⟨e', he, rfl, id⟩
    · exact refl c

theorem tame_eraseChosen (rnd : Bool) : Along Tame (eraseChosen calls a rnd) := by
  refine along_get_bind fun c => ?_
  refine (Along.bind (along_modify fun _ => .of_same rfl rfl rfl) fun _ => ?_) c
  refine (tame_findAndRemoveSCO_ calls _ _ rnd true true).bind fun _ => along_modify fun c => ?_
  split
  · exact .offlineMountPoint_ calls _ c
  · exact .refl c

theorem tame_eraseSCOSetIterator_ (rnd : Bool) : Along Tame (eraseSCOSetIterator_ calls rnd) := by
  refine along_get_bind fun c => ?_
  split
  · exact .refl c
  · next a _ =>
    refine (Along.tryCatch (along_get_bind fun c => ?_) fun _ => ?_) c
    · split
      · exact tame_eraseChosen calls a rnd c
      · exact .refl c
    · exact (along_modify fun _ => .of_same rfl rfl rfl).bind fun _ => along_throw

theorem tame_doCleanup_ (rnd : Bool) : ∀ n : Nat, Along Tame (doCleanup_ calls rnd n)
  | 0 => along_pure
  | n + 1 => (tame_eraseSCOSetIterator_ calls rnd).bind fun _ => tame_doCleanup_ rnd n

theorem SCOCache.findEntry_setAllBlocked (c : SCOCache) (ns k : Namespace) (n : SCO) (b : Bool) :
    (c.setAllBlocked ns b).findEntry k n =
      if ns = k then (c.findEntry ns n).map (·.setBlocked b) else c.findEntry k n := by
  unfold findEntry setAllBlocked
  rw [findNamespace_setNamespace]
  split
  · rw [Option.bind_some, Assoc.find_map fun e : SCOCacheNamespaceEntry => e.setBlocked b]
    cases c.findNamespace_ ns <;> rfl
  · rfl

theorem Tame.setAllBlocked (c : SCOCache) (ns : Namespace) : Tame c (c.setAllBlocked ns true) := by
  refine of_entries rfl rfl ?_
  intro k n e' he
  rw [findEntry_setAllBlocked] at he
  split at he
  · next hk =>
    subst hk
    obtain ⟨e, hfind, rfl⟩ := Option.map_eq_some_iff.1 he
    exact ⟨e, hfind, rfl, nofun⟩
  · exact ⟨e', he, rfl, id⟩

theorem tame_removeNamespace : Along Tame (removeNamespace calls ns) := by
  refine (tame_findNamespace_throw_ ns).bind fun entries => ?_
  have hblock : ∀ c : SCOCache, Tame c { c.setAllBlocked ns true with to_delete := entries.map (·.2.sco_) } :=
    fun c => (Tame.setAllBlocked c ns).trans (.of_same rfl rfl rfl)
  refine (along_modify hblock).bind fun _ => (tame_doCleanup_ calls true _).bind fun _ => ?_
  refine (tame_findNamespace_throw_ ns).bind fun rest => ?_
  split
  · exact along_throw
  · exact along_modify fun c => (Tame.eraseNamespace c ns).trans (.dropDirectories ns _)

end

/-! ### Programs that create SCOs -/

/-- What a constructor returns. -/
def New (complete : Bool) (a : CachedSCOPtr) (c : SCOCache) : Prop :=
  a < c.next ∧ (c.sco a).complete = complete

theorem tame_getWriteMountPoint_ (scoSize : Nat) : Along Tame (getWriteMountPoint_ scoSize) := by
  refine along_get_bind fun c => ?_
  split
  · exact .refl c
  · split
    · exact .of_same rfl rfl rfl
    · exact .refl c

section

variable (c₀ : SCOCache)

theorem Tame.triple {α : Type} {m : M α} (h : Along Tame m) : Triple (Tame c₀) m (fun _ => Tame c₀) (Tame c₀) := by
  intro c hc
  cases hm : m c with
  | ok a c' => exact hc.trans (h.of_ok hm)
  | error e c' => exact hc.trans (h.of_error hm)

theorem tame_allocate (o : CachedSCO) :
    Triple (Tame c₀) (allocate o) (fun a c => Tame c₀ c ∧ New o.complete a c) (Tame c₀) := by
  intro c hc
  have hnew : Tame c { c.setSCO c.next o with live := insert c.next c.live, next := c.next + 1 } :=
    { next := Nat.le_succ _
      complete := by
        intro a ha h
        show (if a = c.next then o else c.sco a).complete = true
        rwa [if_neg ha.ne]
      entries := fun {_ _ e'} he => .inl ⟨e', he, rfl, id⟩ }
  refine ⟨hc.trans hnew, Nat.lt_succ_self _, ?_⟩
  show (if c.next = c.next then o else c.sco c.next).complete = o.complete
  rw [if_pos rfl]

variable (ns : Namespace)

theorem tame_newCachedSCO (name : SCO) (mp : SCOCacheMountPointPtr) (size : Nat) (complete : Bool) :
    Triple (Tame c₀) (newCachedSCO ns name mp size complete) (fun a c => Tame c₀ c ∧ New complete a c) (Tame c₀) := by
  refine .ite (fun _ => .throw fun _ h => h) fun _ => ?_
  generalize int64 size = diff
  refine (Tame.triple c₀ (tame_updateUsedSize mp diff)).bind fun _ => ?_
  exact tame_allocate c₀ { nspace_ := ns, scoName_ := name, mntPoint_ := mp, size_ := size, complete := complete }

theorem tame_insertSCO_ {complete blocked : Bool} (hblocked : blocked = false → complete = true) (a : CachedSCOPtr) :
    Triple (fun c => Tame c₀ c ∧ New complete a c) (insertSCO_ a blocked)
      (fun _ c => Tame c₀ c ∧ New complete a c) (Tame c₀) := by
  refine .get_bind ?_
  rintro c ⟨hc, hnew⟩
  dsimp only
  split
  · exact .throw fun _ h => h ▸ hc
  · refine .ite (fun _ => .throw fun _ h => h ▸ hc) fun _ => .set fun _ _ => ?_
    refine ⟨hc.trans ⟨Nat.le_refl _, fun _ _ h => h, ?_⟩, hnew⟩
    intro k n e' he
    rw [findEntry_setEntry] at he
    split at he
    · cases he
      exact .inr ⟨hnew.1, fun hb => hnew.2.trans (hblocked hb)⟩
    · exact .inl ⟨e', he, rfl, id⟩

theorem tame_createSCO_ (name : SCO) (size : Nat) (blocked : Bool) :
    Triple (Tame c₀) (createSCO_ ns name size blocked) (fun a c => Tame c₀ c ∧ New (!blocked) a c) (Tame c₀) := by
  refine (Tame.triple c₀ (tame_findNamespace_throw_ ns)).bind fun entries => ?_
  refine .ite (fun _ => .throw fun _ h => h) fun _ => ?_
  refine (Tame.triple c₀ (tame_getWriteMountPoint_ size)).bind fun mp => ?_
  refine (tame_newCachedSCO c₀ ns name mp size _).bind fun a => ?_
  refine (tame_insertSCO_ c₀ ?_ a).bind fun _ => .pure fun _ h => h
  rintro rfl
  rfl

theorem tame_findSCO_ (name : SCO) : Along Tame (findSCO_ ns name) := by
  refine (tame_findNamespace_throw_ ns).bind fun entries => ?_
  split
  · exact along_pure
  · exact .ite along_throw along_pure

theorem tame_lookupOrCreate (name : SCO) (size : Nat) :
    Triple (Tame c₀) (lookupOrCreate ns name size)
      (fun r c => Tame c₀ c ∧ (r.2 = false → New false r.1 c)) (Tame c₀) := by
  refine (Tame.triple c₀ (tame_findSCO_ ns name)).bind fun found => ?_
  split
  · exact .pure fun _ h => ⟨h, nofun⟩
  · exact (tame_createSCO_ c₀ ns name size true).bind fun a => .pure fun _ h => ⟨h.1, fun _ => h.2⟩

/-- All entries of a namespace are for SCOs that are complete. -/
def Whole (c : SCOCache) : Prop :=
  ∀ name e, c.findEntry ns name = some e → New true e.sco_ c

theorem Whole.of_core {ns : Namespace} {c c' : SCOCache} (hcore : c'.core = c.core) (h : Whole ns c) : Whole ns c' := by
  intro name e he
  have hsco : c'.sco = c.sco := congrArg Core.sco hcore
  have hnext : c'.next = c.next := congrArg Core.next hcore
  rw [findEntry_core hcore] at he
  unfold New
  rw [hsco, hnext]
  exact h name e he

theorem whole_allocate (o : CachedSCO) : Triple (Whole ns) (allocate o) (fun _ => Whole ns) (Whole ns) := by
  intro c h name e he
  obtain ⟨hlt, hcomplete⟩ := h name e he
  refine ⟨Nat.lt_succ_of_lt hlt, ?_⟩
  show (if e.sco_ = c.next then o else c.sco e.sco_).complete = true
  rwa [if_neg hlt.ne]

theorem whole_insertSCO_ (a : CachedSCOPtr) (blocked : Bool) :
    Triple (fun c => Whole ns c ∧ New true a c) (insertSCO_ a blocked) (fun _ => Whole ns) (fun _ => True) := by
  refine .get_bind ?_
  rintro c ⟨hc, hnew⟩
  dsimp only
  split
  · exact .throw fun _ _ => trivial
  · refine .ite (fun _ => .throw fun _ _ => trivial) fun _ => .set fun _ _ => ?_
    intro name e he
    rw [findEntry_setEntry] at he
    split at he
    · cases he
      exact hnew
    · exact hc name e he

/-- While a namespace is scanned. -/
def Scanning (c : SCOCache) : Prop := Tame c₀ c ∧ Whole ns c

theorem scanning_allocate (o : CachedSCO) :
    Triple (Scanning c₀ ns) (allocate o) (fun a c => Scanning c₀ ns c ∧ New o.complete a c) (Tame c₀) := by
  have h := ((tame_allocate c₀ o).and (whole_allocate ns o)).weakenError fun _ h => h.1
  exact h.weaken (fun _ h => h) fun _ _ h => ⟨⟨h.1.1, h.2⟩, h.1.2⟩

theorem scanning_insertSCO_ (a : CachedSCOPtr) :
    Triple (fun c => Scanning c₀ ns c ∧ New true a c) (insertSCO_ a true) (fun _ => Scanning c₀ ns) (Tame c₀) := by
  have htame : Triple (fun c => Tame c₀ c ∧ New true a c) (insertSCO_ a true) _ _ := tame_insertSCO_ c₀ (fun _ => rfl) a
  have h := (htame.and (whole_insertSCO_ ns a true)).weakenError fun _ h => h.1
  exact h.weaken (fun _ h => ⟨⟨h.1.1, h.2⟩, h.1.2, h.2⟩) fun _ _ h => ⟨h.1.1, h.2⟩

section

variable (calls : Calls)

theorem scanning_scanNamespace (mp : SCOCacheMountPointPtr) (ns : Namespace) :
    ∀ files : Assoc SCO File,
      Triple (Scanning c₀ ns) (scanNamespace calls mp ns files) (fun _ => Scanning c₀ ns) (Tame c₀)
  | [] => .pure fun _ h => h
  | (name, f) :: rest => by
    refine (scanning_allocate c₀ ns _).bind fun a => ?_
    refine (Triple.tryCatch (scanning_insertSCO_ c₀ ns a) fun e => ?_).bind fun _ => scanning_scanNamespace mp ns rest
    refine Triple.bind (.modify fun c h => ?_) fun _ => .throw fun _ h => h
    exact h.trans (.collect calls a c)

theorem scanning_addNamespaceTo (mp : SCOCacheMountPointPtr) (ns k : Namespace) :
    Triple (Scanning c₀ ns) (addNamespaceTo calls mp k) (fun _ => Scanning c₀ ns) (Tame c₀) := by
  intro c h
  have hkeep := Keeps.core_addNamespaceTo calls mp k
  cases hm : addNamespaceTo calls mp k c with
  | ok u c' => exact ⟨h.1.trans (.of_core (hkeep.of_ok hm)), h.2.of_core (hkeep.of_ok hm)⟩
  | error e c' => exact h.1.trans (.of_core (hkeep.of_error hm))

theorem scanning_scanMountPoints (ns : Namespace) : ∀ mps : List SCOCacheMountPointPtr,
      Triple (Scanning c₀ ns) (scanMountPoints calls ns mps) (fun _ => Scanning c₀ ns) (Tame c₀)
  | [] => .pure fun _ h => h
  | mp :: rest => by
    refine .get_bind fun c hc => ?_
    have hstart : ∀ x : SCOCache, x = c → Scanning c₀ ns x := fun x h => h ▸ hc
    have hrest := scanning_scanMountPoints ns rest
    split
    · next files _ =>
      exact ((scanning_scanNamespace c₀ calls mp ns files).bind fun _ => hrest).weaken hstart fun _ _ h => h
    · exact ((scanning_addNamespaceTo c₀ calls mp ns ns).bind fun _ => hrest).weaken hstart fun _ _ h => h

theorem Tame.showAll {c : SCOCache} {ns : Namespace} (h : Whole ns c) : Tame c (c.setAllBlocked ns false) where
  next := Nat.le_refl _
  complete _ _ h := h
  entries {k n e'} he := by
    rw [findEntry_setAllBlocked] at he
    split at he
    · next hk =>
      obtain ⟨e, hfind, rfl⟩ := Option.map_eq_some_iff.1 he
      exact .inr ⟨(h n e hfind).1, fun _ => (h n e hfind).2⟩
    · exact .inl ⟨e', he, rfl, id⟩

theorem whole_setNamespace_nil (c : SCOCache) (ns : Namespace) : Whole ns (c.setNamespace ns []) := by
  intro name e he
  unfold findEntry at he
  rw [findNamespace_setNamespace, if_pos rfl] at he
  cases he

theorem tame_enableNamespace (ns : Namespace) :
    Triple (Tame c₀) (enableNamespace calls ns) (fun _ => Tame c₀) (Tame c₀) := by
  refine .get_bind fun c hc => ?_
  have hstart : ∀ x : SCOCache, x = c → Tame c₀ x := fun x h => h ▸ hc
  refine .ite (fun _ => .throw hstart) fun _ => ?_
  refine Triple.bind (.modify fun x h => ?_) fun _ =>
    Triple.bind (Triple.tryCatch (scanning_scanMountPoints c₀ calls ns _) fun e => ?_) fun _ => ?_
  · exact ⟨(hstart x h).trans (.setNamespace_nil x ns), whole_setNamespace_nil x ns⟩
  · exact Triple.bind (.modify fun x h => h.trans (.disableNamespace_ calls ns x)) fun _ => .throw fun _ h => h
  · exact .modify fun x h => h.1.trans (.showAll h.2)

end

end

/-! ### The restart -/

theorem tame_scan_ (mp : SCOCacheMountPointPtr) : ∀ sizes : List Nat, Along Tame (scan_ mp sizes)
  | [] => along_pure
  | size :: rest => by
    unfold scan_
    generalize int64 size = diff
    exact (tame_updateUsedSize mp diff).bind fun _ => tame_scan_ mp rest

theorem tame_restartMountPoint (mp : SCOCacheMountPointPtr) : Along Tame (restartMountPoint mp) := by
  refine Along.bind (along_modify fun _ => .of_same rfl rfl rfl) fun _ => along_get_bind fun c => ?_
  refine (Along.tryCatch (Along.bind (tame_scan_ mp _) fun _ => ?_) fun _ => along_pure) c
  exact along_modify fun _ => .of_same rfl rfl rfl

theorem tame_restartMountPoints : ∀ mps : List SCOCacheMountPointPtr, Along Tame (restartMountPoints mps)
  | [] => along_pure
  | mp :: rest => (tame_restartMountPoint mp).bind fun _ => tame_restartMountPoints rest

theorem tame_restart (mps : List SCOCacheMountPointPtr) : Along Tame (restart mps) := by
  refine Along.bind (along_modify fun c => ?_) fun _ => (tame_restartMountPoints _).bind fun _ => ?_
  · exact .of_entries rfl rfl fun he => by cases he
  · exact along_modify fun _ => .of_same rfl rfl rfl

/-! ## The end of a fetch -/

/-- What the second lookup of a fetch reads. -/
def SCOCache.lookup (a : CachedSCOPtr) (c : SCOCache) : Assoc Namespace SCOCacheNamespace × Namespace × SCO :=
  (c.nsMap_, (c.sco a).nspace_, (c.sco a).scoName_)

theorem Keeps.lookup_setDisposable (calls : Calls) (a : CachedSCOPtr) : Keeps (lookup a) (setDisposable calls a) := by
  apply keeps_get_bind
  intro c
  dsimp only
  split
  · rfl
  · split
    · rfl
    · split
      · rfl
      · split
        · rfl
        · split
          · rfl
          · next st _ _ _ _ =>
            generalize int64 (st.st_size - (c.sco a).size_) = diff
            generalize hx : (c.setFile a (some { st with sticky := !st.sticky })).setSCO a
              { c.sco a with size_ := st.st_size, disposable_ := true } = x
            have hcore := Keeps.core_updateUsedSize (c.sco a).mntPoint_ diff x
            show lookup a (after (updateUsedSize (c.sco a).mntPoint_ diff) x) = _
            have hmap : (after (updateUsedSize (c.sco a).mntPoint_ diff) x).nsMap_ = x.nsMap_ :=
              congrArg Core.nsMap_ hcore
            have hsco : (after (updateUsedSize (c.sco a).mntPoint_ diff) x).sco = x.sco := congrArg Core.sco hcore
            unfold lookup
            rw [hmap, hsco, ← hx]
            simp [setSCO]

theorem tame_disposeFetched (calls : Calls) (a : CachedSCOPtr) (disposable : Bool) :
    Along Tame (disposeFetched calls a disposable) := by
  refine .ite (.tryCatch (tame_setDisposable calls a) fun _ => ?_) along_pure
  exact (tame_reportIOError_ calls a).bind fun _ => along_throw

variable {c : SCOCache} {s : State}

theorem lookup_disposeFetched {calls : Calls} {a : CachedSCOPtr} {disposable : Bool} {c' : SCOCache} {u : Unit}
    (h : disposeFetched calls a disposable c = .ok u c') : c'.lookup a = c.lookup a := by
  unfold disposeFetched at h
  cases disposable with
  | false =>
    cases h
    rfl
  | true =>
    cases hset : setDisposable calls a c with
    | ok _ c₁ =>
      rw [if_pos rfl, run_tryCatch hset] at h
      cases h
      exact (Keeps.lookup_setDisposable calls a).of_ok hset
    | error e c₁ =>
      rw [if_pos rfl, run_tryCatch_error hset] at h
      cases hrep : reportIOError_ calls a c₁ with
      | ok _ c₂ =>
        cases h
      | error _ c₂ =>
        cases h

theorem tame_showFetched {a : CachedSCOPtr} (hnew : New true a c)
    (hown : ∀ e, c.findEntry (c.sco a).nspace_ (c.sco a).scoName_ = some e → e.sco_ = a) :
    Tame c (after (showFetched a) c) := by
  rw [showFetched, after_bind (m := get) rfl]
  split
  · exact .refl c
  · next e he =>
    refine ⟨Nat.le_refl _, fun _ _ h => h, ?_⟩
    intro k n e' he'
    change (c.setEntry _ _ _).findEntry k n = some e' at he'
    rw [findEntry_setEntry] at he'
    split at he'
    · cases he'
      right
      change e.sco_ < c.next ∧ (false = false → (c.sco e.sco_).complete = true)
      rw [hown e he]
      exact ⟨hnew.1, fun _ => hnew.2⟩
    · exact .inl ⟨e', he', rfl, id⟩

/-! ## Runs -/

/-- The cache has just been created. -/
structure State.Started (s : State) : Prop where
  nsMap : s.cache.nsMap_ = []
  fetches : s.fetches = []

/-- The entry under the name of a SCO, if there is one, is that of this very SCO. -/
def SCOCache.owned (c : SCOCache) (a : CachedSCOPtr) : Bool :=
  (c.findEntry (c.sco a).nspace_ (c.sco a).scoName_).all fun e => e.sco_ = a

/-- When a thread whose fetch has ended takes the lock again, nobody else has created an entry under
the name of its SCO, or it is gone. -/
def Undisturbed (s : State) (ev : Event) : Prop :=
  (match ev.action with
    | .finish i => s.fetches[i]?.all fun f => s.cache.owned f.sco
    | _ => true) = true

instance (s : State) (ev : Event) : Decidable (Undisturbed s ev) := inferInstanceAs (Decidable (_ = true))

/-- After the step only complete SCOs are found, and the end of a failed fetch has left the entries
of other SCOs. -/
structure Visible (s : State) (ev : Event) : Prop where
  complete : ∀ ns name a, result (findSCO_ ns name) (step s ev).cache = some (some a) →
    ((step s ev).cache.sco a).complete = true
  spared : ∀ i f, ev.action = .finish i → s.fetches[i]? = some f → f.phase = .failed →
    ∀ ns name e, s.cache.findEntry ns name = some e → e.sco_ ≠ f.sco →
      (step s ev).cache.findEntry ns name = some e

/-- The invariant of the runs. -/
structure State.Good (s : State) : Prop where
  entries : ∀ {ns name e}, s.cache.findEntry ns name = some e →
    e.sco_ < s.cache.next ∧ (e.blocked_ = false → (s.cache.sco e.sco_).complete = true)
  fetches : ∀ f ∈ s.fetches, f.sco < s.cache.next ∧ (f.phase = .fetched → (s.cache.sco f.sco).complete = true)

namespace State.Good

variable {s : State}

section
variable (h : s.Good)
include h

theorem tame {c : SCOCache} (htame : Tame s.cache c) {fs : List Fetch} (hfs : fs ⊆ s.fetches) :
    ({ cache := c, fetches := fs } : State).Good where
  entries he := by
    rcases htame.entries he with ⟨e, hold, hsco, hblocked⟩ | hnew
    · obtain ⟨hlt, hcomplete⟩ := h.entries hold
      rw [hsco] at hlt hcomplete
      exact ⟨hlt.trans_le htame.next, fun hb => htame.complete _ hlt (hcomplete (hblocked hb))⟩
    · exact hnew
  fetches f hf := by
    obtain ⟨hlt, hcomplete⟩ := h.fetches f (hfs hf)
    exact ⟨hlt.trans_le htame.next, fun hp => htame.complete _ hlt (hcomplete hp)⟩

theorem along {α : Type} {m : M α} (hm : Along Tame m) : (s.perform m).Good :=
  h.tame (hm s.cache) (List.Subset.refl _)

theorem modify {f : SCOCache → SCOCache} (hf : Tame s.cache (f s.cache)) : (s.modify f).Good :=
  h.tame hf (List.Subset.refl _)

theorem release (calls : Calls) (a : CachedSCOPtr) : (s.release calls a).Good := by
  have hfree : Tame s.cache { s.cache with references := s.cache.references.erase a } := .of_same rfl rfl rfl
  exact h.modify (hfree.trans (.collect calls a _))

theorem hold (a : CachedSCOPtr) : (s.hold a).Good := h.modify (.of_same rfl rfl rfl)

theorem createSCO (ns : Namespace) (name : SCO) (size : Nat) : (s.createSCO ns name size).Good := by
  have htriple := tame_createSCO_ s.cache ns name size false s.cache (.refl _)
  unfold State.createSCO
  cases hm : createSCO_ ns name size false s.cache with
  | ok a c =>
    rw [hm] at htriple
    exact (h.tame htriple.1 (List.Subset.refl _)).hold a
  | error e c =>
    rw [hm] at htriple
    exact h.tame htriple (List.Subset.refl _)

theorem getSCO (ns : Namespace) (name : SCO) (size : Nat) (disposable : Bool) :
    (s.getSCO ns name size disposable).Good := by
  have htriple := tame_lookupOrCreate s.cache ns name size s.cache (.refl _)
  unfold State.getSCO
  cases hm : lookupOrCreate ns name size s.cache with
  | error e c =>
    rw [hm] at htriple
    exact h.tame htriple (List.Subset.refl _)
  | ok r c =>
    rw [hm] at htriple
    obtain ⟨htame, hnew⟩ := htriple
    have hc := h.tame htame (List.Subset.refl _)
    obtain ⟨a, _ | _⟩ := r
    · -- the new thread is still fetching
      suffices hfetch : State.Good ⟨c, s.fetches ++ [{ sco := a, disposable := disposable }]⟩ from hfetch.hold a
      refine ⟨hc.entries, ?_⟩
      intro f hf
      rcases List.mem_append.1 hf with hf | hf
      · exact hc.fetches f hf
      · rw [List.mem_singleton.1 hf]
        exact ⟨(hnew rfl).1, nofun⟩
    · exact hc.hold a

theorem findSCO (ns : Namespace) (name : SCO) : (s.findSCO ns name).Good := by
  unfold State.findSCO
  split
  · exact h.hold _
  · exact h

variable {f : Fetch}

theorem endFetch {i : Nat} (hf : s.fetches[i]? = some f) (size : Option Nat) (phase : Phase) :
    (s.endFetch i f size phase).Good := by
  -- the file first, then what is known of the SCO
  have hstep : ∀ c, Tame s.cache c →
      State.Good ⟨if phase = .fetched then c.setSCO f.sco { c.sco f.sco with complete := true } else c,
        s.fetches.set i { f with phase := phase }⟩ := by
    intro c hfile
    have hc : Tame s.cache (if phase = .fetched then c.setSCO f.sco { c.sco f.sco with complete := true } else c) := by
      split
      · exact hfile.trans (.setSCO fun _ => rfl)
      · exact hfile
    have hgood := h.tame hc (List.Subset.refl _)
    refine ⟨hgood.entries, ?_⟩
    intro g hg
    rcases List.mem_or_eq_of_mem_set hg with hg | rfl
    · exact hgood.fetches g hg
    · refine ⟨(hgood.fetches f (List.mem_of_getElem? hf)).1, ?_⟩
      rintro (rfl : phase = .fetched)
      simp [setSCO]
  cases size with
  | none => exact hstep _ (.refl _)
  | some n => exact hstep _ (.of_core (core_setFile ..))

theorem tame_finish (calls : Calls) (hf : f ∈ s.fetches) (hown : s.cache.owned f.sco = true) :
    Tame s.cache (after (f.finish calls) s.cache) := by
  unfold Fetch.finish
  split
  · exact .refl _
  · next hphase =>
    have hnew : New true f.sco s.cache := ⟨(h.fetches f hf).1, (h.fetches f hf).2 hphase⟩
    have htame := tame_disposeFetched calls f.sco f.disposable
    cases hm : disposeFetched calls f.sco f.disposable s.cache with
    | error e c =>
      rw [after_bind_error hm]
      exact htame.of_error hm
    | ok u c =>
      rw [after_bind hm]
      have hc := htame.of_ok hm
      have hlookup := lookup_disposeFetched hm
      simp only [lookup, Prod.mk.injEq] at hlookup
      obtain ⟨hmap, hns, hname⟩ := hlookup
      refine hc.trans (tame_showFetched ?_ ?_)
      · exact ⟨hnew.1.trans_le hc.next, hc.complete _ hnew.1 hnew.2⟩
      · intro e he
        unfold findEntry findNamespace_ at he
        rw [hmap, hns, hname] at he
        have := hown
        unfold owned findEntry findNamespace_ at this
        rw [he] at this
        simpa using this
  · exact ((tame_removeSCO_ calls f.sco false).bind fun _ => along_throw) s.cache
  · exact ((tame_reportIOError_ calls f.sco).bind fun _ => along_throw) s.cache

theorem finish (calls : Calls) {i : Nat} (hf : s.fetches[i]? = some f)
    (hown : s.cache.owned f.sco = true) : (s.finish calls i f).Good := by
  have htame := h.tame_finish calls (List.mem_of_getElem? hf) hown
  have hfs : s.fetches.eraseIdx i ⊆ s.fetches := (List.eraseIdx_sublist ..).subset
  unfold State.finish
  cases hm : f.finish calls s.cache with
  | ok u c =>
    rw [after_ok hm] at htame
    exact h.tame htame hfs
  | error e c =>
    rw [after_error hm] at htame
    exact (h.tame htame hfs).release calls f.sco

end

end State.Good

theorem State.Good.guard (h : s.Good) {p : Prop} [Decidable p] {s' : State} (hs : s'.Good) :
    (if p then s' else s : State).Good := by
  split
  · exact hs
  · exact h

theorem State.Good.ofFetch (h : s.Good) {i : Nat} {next : Fetch → State}
    (hnext : ∀ f, s.fetches[i]? = some f → (next f).Good) :
    (match s.fetches[i]? with | some f => next f | none => s : State).Good := by
  split
  · next f hf => exact hnext f hf
  · exact h

theorem good_step {ev : Event} (h : s.Good) (hq : Undisturbed s ev) : (step s ev).Good := by
  obtain ⟨action, calls⟩ := ev
  cases action with
  | createSCO ns name size => exact h.createSCO ns name size
  | getSCO ns name size disposable => exact h.getSCO ns name size disposable
  | fetched | fetchThrew => exact h.ofFetch fun f hf => h.guard (h.endFetch hf _ _)
  | finish i =>
    refine h.ofFetch fun f hf => ?_
    have hown : s.cache.owned f.sco = true := by
      unfold Undisturbed at hq
      dsimp only at hq
      rwa [hf] at hq
    split
    · exact h
    · exact h.finish calls hf hown
  | findSCO ns name => exact h.findSCO ns name
  | write a n => exact h.guard (h.modify (.of_core (core_setFile ..)))
  | setSCODisposable a => exact h.guard (h.along (tame_setDisposable calls a))
  | release a => exact h.guard (h.release calls a)
  | removeSCO ns name rnd unlink => exact h.along (tame_findAndRemoveSCO_ calls ns name rnd false unlink)
  | prepareCleanup chosen => exact h.guard (h.modify (.foldl Tame.choose chosen _))
  | cleanup => exact h.along (tame_eraseSCOSetIterator_ calls false)
  | offline mp => exact h.modify (.offlineMountPoint_ calls mp _)
  | addNamespace ns => exact h.guard (h.along (tame_addNamespace calls ns))
  | removeNamespace ns => exact h.guard (h.guard (h.along (tame_removeNamespace calls ns)))
  | disableNamespace ns => exact h.guard (h.along (tame_disableNamespace calls ns))
  | enableNamespace ns =>
    refine h.guard (h.tame ?_ (List.Subset.refl _))
    exact (tame_enableNamespace s.cache calls ns).after (.refl _)
  | choke mp choking =>
    have htame : Tame s.cache (s.cache.setMountPoint mp { s.cache.mountPoint mp with choking_ := choking }) :=
      .of_same rfl rfl rfl
    exact h.tame htame (List.Subset.refl _)
  | restart mps => exact h.tame (tame_restart mps s.cache) (List.nil_subset _)

theorem findEntry_removeSCO_ (calls : Calls) (a : CachedSCOPtr) {ns : Namespace} {name : SCO}
    (hother : ¬ ((c.sco a).nspace_ = ns ∧ (c.sco a).scoName_ = name)) :
    (after (removeSCO_ calls a false) c).findEntry ns name = c.findEntry ns name := by
  cases hns : c.findNamespace_ (c.sco a).nspace_ with
  | some entries =>
    obtain ⟨c', hrun, hcleared⟩ := Cleared.removeSCO_ calls a (Option.isSome_of_eq_some hns)
    rw [after_ok hrun]
    exact hcleared.kept hother
  | none =>
    -- the namespace is not there, and nothing is done
    have hrun : removeSCO_ calls a false c =
        .error (.IOException "namespace does not exist" (.nspace (c.sco a).nspace_) none) c := by
      show EStateM.bind (findNamespace_throw_ _) _ c = _
      exact run_bind_error (findNamespace_throw_error hns)
    rw [after_error hrun]

theorem findEntry_release (calls : Calls) (s : State) (a : CachedSCOPtr) (ns : Namespace) (name : SCO) :
    (s.release calls a).cache.findEntry ns name = s.cache.findEntry ns name :=
  findEntry_core (core_collect calls a { s.cache with references := s.cache.references.erase a }) ns name

theorem findEntry_finish_failed (calls : Calls) {i : Nat} {f : Fetch} (hphase : f.phase = .failed)
    {ns : Namespace} {name : SCO}
    (hother : ¬ ((s.cache.sco f.sco).nspace_ = ns ∧ (s.cache.sco f.sco).scoName_ = name)) :
    (s.finish calls i f).cache.findEntry ns name = s.cache.findEntry ns name := by
  have hkept := findEntry_removeSCO_ calls f.sco hother
  have hrun : ∃ e, f.finish calls s.cache = .error e (after (removeSCO_ calls f.sco false) s.cache) := by
    unfold Fetch.finish
    rw [hphase]
    dsimp only
    cases hm : removeSCO_ calls f.sco false s.cache with
    | ok u c => exact ⟨_, by rw [run_bind hm, after_ok hm]; rfl⟩
    | error e c => exact ⟨e, by rw [run_bind_error hm, after_error hm]⟩
  obtain ⟨e, hrun⟩ := hrun
  unfold State.finish
  rw [hrun]
  exact (findEntry_release ..).trans hkept

/-- In every run in which no thread comes back from a fetch to the entry of somebody else, only
complete SCOs are found, and a failed fetch removes its own entry only. -/
theorem only_complete_scos (s : State) (hs : s.Started) (evs : List Event) (h : Each step Undisturbed s evs) :
    Each step Visible s evs := by
  have hstart : s.Good := by
    constructor
    · intro ns name e he
      unfold findEntry findNamespace_ at he
      rw [hs.nsMap] at he
      cases he
    · intro f hf
      rw [hs.fetches] at hf
      cases hf
  refine each_imp State.Good (fun s ev hgood hq => ?_) hstart h
  have hnext := good_step hgood hq
  refine ⟨⟨?_, ?_⟩, hnext⟩
  · intro ns name a ha
    obtain ⟨e, he, hb, rfl⟩ := result_findSCO_found ha
    exact (hnext.entries he).2 hb
  · intro i f haction hf hphase ns name e he hne
    have hown : s.cache.owned f.sco = true := by
      unfold Undisturbed at hq
      rw [haction] at hq
      dsimp only at hq
      rwa [hf] at hq
    have hstep : step s ev = s.finish ev.calls i f := by
      unfold step
      rw [haction]
      dsimp only
      rw [hf]
      simp [hphase]
    rw [hstep, findEntry_finish_failed ev.calls hphase, he]
    rintro ⟨rfl, rfl⟩
    unfold owned at hown
    rw [he] at hown
    exact hne (by simpa using hown)

/-- Two empty mount points. -/
def emptyCache : State where
  cache :=
    { mountPoint := sample.mountPoint
      mountPoints_ := [0, 1]
      currentMountPoint_ := some 0
      sco := fun _ => { nspace_ := "", scoName_ := { number := 0 }, mntPoint_ := 0, size_ := 0 }
      nextMountPoint := 2 }

/-- A SCO is fetched from the backend while another thread asks for it. -/
def fetchInPeace : List Event :=
  [{ action := .addNamespace "vol" }, { action := .getSCO "vol" { number := 1 } 100 true },
    { action := .getSCO "vol" { number := 1 } 100 true }, { action := .fetched 0 60 }, { action := .finish 0 },
    { action := .findSCO "vol" { number := 1 } }]

theorem fetched_and_found :
    result (findSCO_ "vol" { number := 1 }) (runs step emptyCache fetchInPeace).cache = some (some 0) ∧
      Each step Visible emptyCache fetchInPeace :=
  ⟨by decide +kernel, only_complete_scos emptyCache ⟨rfl, rfl⟩ fetchInPeace (by decide +kernel)⟩

/-- The mount point is offlined while the first thread fetches, and a second thread starts to fetch
the SCO to the other one. Then the first thread comes back. -/
def fetchAcrossOffline : List Event :=
  [{ action := .addNamespace "vol" }, { action := .getSCO "vol" { number := 1 } 100 false }, { action := .offline 1 },
    { action := .getSCO "vol" { number := 1 } 100 false }, { action := .fetched 0 60 }, { action := .finish 0 }]

/-- The SCO of the second thread is found although nothing of it has been fetched yet. -/
theorem shown_too_early :
    emptyCache.Started ∧
      result (findSCO_ "vol" { number := 1 }) (runs step emptyCache fetchAcrossOffline).cache = some (some 1) ∧
      ((runs step emptyCache fetchAcrossOffline).cache.sco 1).complete = false ∧
      (runs step emptyCache fetchAcrossOffline).fetches = [{ sco := 1, disposable := false, phase := .fetching }] :=
  ⟨⟨rfl, rfl⟩, by decide +kernel, by decide +kernel, by decide +kernel⟩

end VolumeDriver.Cache
