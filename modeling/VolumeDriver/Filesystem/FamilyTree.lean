/-
The family tree in the object registry. An object has a parent exactly when the parent lists it among its
descendants, none is its own ancestor, and a descendant carries a snapshot when its parent is a volume and
none when it is a template. All calls keep this but one: `convert_base_to_clone` puts a new registration in
the place of the old one without looking whether that was a base.
-/
import VolumeDriver.Lib.Forest
import VolumeDriver.Filesystem.ObjectRegistry

namespace VolumeDriver.ObjectRegistry

open Lib Lib.Sequence Relation ObjectTreeConfig

open Function (update update_of_ne update_self)
open Reads

/-- What is registered. -/
abbrev Store := ObjectId → Option ObjectRegistration

/-! ## The family -/

/-- The parent of an object. -/
def parent (st : Store) (c : ObjectId) : Option ObjectId := (st c).bind fun reg => reg.treeconfig.parent_volume

/-- The descendants in a registration. -/
def listed : Option ObjectRegistration → Descendants
  | some reg => reg.treeconfig.descendants
  | none => []

/-- The descendants of an object. -/
def descendants (st : Store) (p : ObjectId) : Descendants := listed (st p)

/-- What an object is. -/
def type (st : Store) (id : ObjectId) : Option ObjectType := (st id).map fun reg => reg.treeconfig.object_type

/-- `p` is the parent of `c`. -/
def ParentOf (st : Store) (c p : ObjectId) : Prop := parent st c = some p

/-- The family tree is in order. -/
structure Consistent (st : Store) : Prop where
  /-- The parents of an object are the objects that list it. -/
  family : ∀ c p, parent st c = some p ↔ ((descendants st p).find c).isSome
  acyclic : Acyclic (ParentOf st)
  /-- Clones of a volume are clones of a snapshot, those of a template are not. -/
  snapshots : ∀ p c snap, (descendants st p).find c = some snap →
    (snap.isSome ↔ type st p = some .Volume) ∧ (snap.isNone ↔ type st p = some .Template)
  files : ∀ id, type st id = some .File → parent st id = none

section

variable {st : Store} {id : ObjectId} {reg : ObjectRegistration}

theorem parent_of_some (h : st id = some reg) : parent st id = reg.treeconfig.parent_volume := by
  simp [parent, h]

theorem descendants_of_some (h : st id = some reg) : descendants st id = reg.treeconfig.descendants := by
  simp [descendants, h, listed]

theorem type_of_some (h : st id = some reg) : type st id = some reg.treeconfig.object_type := by
  simp [type, h]

theorem parent_of_none (h : st id = none) : parent st id = none := by
  simp [parent, h]

theorem descendants_of_none (h : st id = none) : descendants st id = [] := by
  simp [descendants, h, listed]

variable (st) (k x : ObjectId) (v : Option ObjectRegistration)

theorem parent_update : parent (update st k v) x =
    if x = k then v.bind fun reg => reg.treeconfig.parent_volume else parent st x := by
  unfold parent
  by_cases hx : x = k <;> simp [hx]

theorem descendants_update : descendants (update st k v) x = if x = k then listed v else descendants st x := by
  unfold descendants
  by_cases hx : x = k <;> simp [hx]

theorem type_update : type (update st k v) x =
    if x = k then v.map fun reg => reg.treeconfig.object_type else type st x := by
  unfold type
  by_cases hx : x = k <;> simp [hx]

end

/-! ## What keeps the family consistent -/

namespace Consistent

variable {st st' : Store} {id p : ObjectId}

section
variable (h : Consistent st)
include h

theorem not_parent (hid : descendants st id = []) (c : ObjectId) : parent st c ≠ some id := by
  intro hc
  have := (h.family c id).1 hc
  rw [hid] at this
  cases this

/-- A registration is put in the place of another one, or of none, with the same relatives. The type
may change where there are no descendants. -/
theorem replace {v : Option ObjectRegistration}
    (hparent : (v.bind fun reg => reg.treeconfig.parent_volume) = parent st id) (hlisted : listed v = descendants st id)
    (htype : descendants st id = [] ∨ (v.map fun reg => reg.treeconfig.object_type) = type st id)
    (hfile : (v.map fun reg => reg.treeconfig.object_type) = some .File → parent st id = none) :
    Consistent (update st id v) := by
  have hpar : ∀ x, parent (update st id v) x = parent st x := by
    intro x
    rw [parent_update]
    split
    · next hx => rw [hx, hparent]
    · rfl
  have hdes : ∀ x, descendants (update st id v) x = descendants st x := by
    intro x
    rw [descendants_update]
    split
    · next hx => rw [hx, hlisted]
    · rfl
  have hrel : ParentOf (update st id v) = ParentOf st := by
    funext c q
    simp [ParentOf, hpar]
  constructor
  · intro c q
    rw [hpar, hdes]
    exact h.family c q
  · rw [hrel]
    exact h.acyclic
  · intro q c snap hc
    rw [hdes] at hc
    rw [type_update]
    split
    · next hq =>
      subst hq
      rcases htype with hnone | htype
      · rw [hnone] at hc
        cases hc
      · rw [htype]
        exact h.snapshots q c snap hc
    · exact h.snapshots q c snap hc
  · intro x hx
    rw [hpar]
    rw [type_update] at hx
    split at hx
    · next hxi =>
      rw [hxi]
      exact hfile hx
    · exact h.files x hx

theorem volumes (hp : descendants st p ≠ []) : type st p = some .Volume ∨ type st p = some .Template := by
  obtain ⟨⟨c, snap⟩, rest, hcons⟩ := List.exists_cons_of_ne_nil hp
  have hc : (descendants st p).find c = some snap := by
    rw [hcons]
    simp [Assoc.find]
  obtain ⟨hsome, hnone⟩ := h.snapshots p c snap hc
  cases snap with
  | some _ => exact .inl (hsome.1 rfl)
  | none => exact .inr (hnone.1 rfl)

theorem descendants_of_file (hp : type st p = some .File) : descendants st p = [] := by
  by_contra hne
  rcases h.volumes hne with hv | hv <;> rw [hp] at hv <;> cases hv

/-- An object without relatives is registered. -/
theorem create {reg : ObjectRegistration} (hid : st id = none)
    (hdescendants : reg.treeconfig.descendants = []) (hparent : reg.treeconfig.parent_volume = none) :
    Consistent (update st id (some reg)) := by
  have hpar := parent_of_none hid
  have hdes := descendants_of_none hid
  exact h.replace (by rw [hpar]; exact hparent) (by rw [hdes]; exact hdescendants) (.inl hdes) fun _ => hpar

/-- An object without relatives is taken out. -/
theorem remove (hdescendants : descendants st id = []) (hparent : parent st id = none) :
    Consistent (update st id none) :=
  h.replace hparent.symm hdescendants.symm (.inl hdescendants) fun _ => hparent

/-- The object `c`, which has no descendants, gets the registration `v`, and `p` lists it with `clone` or not at all. -/
theorem relink {c : ObjectId} {pr : ObjectRegistration} {v : Option ObjectRegistration} {ds : Descendants}
    (clone : Option (Option SnapshotName)) (hp : st p = some pr) (hpc : p ≠ c) (hc : descendants st c = [])
    (hother : ∀ q, parent st c = some q → q = p) (hv : listed v = [])
    (hds : ∀ x, ds.find x = if c = x then clone else (descendants st p).find x)
    (hlink : ∀ q, (v.bind fun reg => reg.treeconfig.parent_volume) = some q ↔ q = p ∧ clone.isSome)
    (hsnap : ∀ snap, clone = some snap →
      (snap.isSome ↔ type st p = some .Volume) ∧ (snap.isNone ↔ type st p = some .Template))
    (hfile : (v.map fun reg => reg.treeconfig.object_type) ≠ some .File) :
    Consistent (update (update st p (some (withDescendants pr ds))) c v) := by
  have hpar : ∀ x, parent (update (update st p (some (withDescendants pr ds))) c v) x =
      if x = c then v.bind fun reg => reg.treeconfig.parent_volume else parent st x := by
    intro x
    rw [parent_update, parent_update]
    by_cases hxp : x = p
    · simp [hxp, hpc, parent_of_some hp, withDescendants, makeParent]
    · simp [hxp]
  have hdes : ∀ x, descendants (update (update st p (some (withDescendants pr ds))) c v) x =
      if x = p then ds else descendants st x := by
    intro x
    rw [descendants_update, descendants_update]
    by_cases hxc : x = c
    · simp [hxc, Ne.symm hpc, hv, hc]
    · simp [hxc, listed, withDescendants, makeParent]
  have htype : ∀ x, x ≠ c → type (update (update st p (some (withDescendants pr ds))) c v) x = type st x := by
    intro x hxc
    rw [type_update, type_update, if_neg hxc]
    split
    · next hxp => rw [hxp, type_of_some hp]; rfl
    · rfl
  constructor
  · intro x q
    rw [hpar, hdes]
    by_cases hxc : x = c
    · subst hxc
      rw [if_pos rfl, hlink]
      by_cases hqp : q = p
      · simp [hqp, hds]
      · -- only its parent lists the clone
        have hfalse : ¬ ((descendants st q).find x).isSome := fun hq => hqp (hother q ((h.family x q).2 hq))
        simp [hqp, hfalse]
    · rw [if_neg hxc, h.family x q]
      split
      · next hqp => rw [hqp, hds, if_neg (Ne.symm hxc)]
      · rfl
  · refine h.acyclic.link (q := c) (m := p) ?_ ?_
    · intro x y hxy
      unfold ParentOf at hxy
      rw [hpar] at hxy
      split at hxy
      · next hxc => exact .inr ⟨hxc, ((hlink y).1 hxy).1⟩
      · exact .inl hxy
    · -- nobody has the clone for a parent
      intro hreach
      rcases ReflTransGen.cases_tail hreach with hcp | ⟨x, _, hx⟩
      · exact hpc hcp.symm
      · exact h.not_parent hc x hx
  · intro q x s hx
    rw [hdes] at hx
    by_cases hqp : q = p
    · subst hqp
      rw [if_pos rfl, hds] at hx
      rw [htype q hpc]
      split at hx
      · exact hsnap s hx
      · exact h.snapshots q x s hx
    · rw [if_neg hqp] at hx
      have hqc : q ≠ c := by
        rintro rfl
        rw [hc] at hx
        cases hx
      rw [htype q hqc]
      exact h.snapshots q x s hx
  · intro x hx
    rw [hpar]
    by_cases hxc : x = c
    · subst hxc
      rw [type_update, if_pos rfl] at hx
      exact absurd hx hfile
    · rw [if_neg hxc]
      rw [htype x hxc] at hx
      exact h.files x hx

/-- The object `c`, which is not registered, becomes a clone of `p`. -/
theorem adopt {c : ObjectId} {pr cr : ObjectRegistration} {snap : Option SnapshotName}
    (hp : st p = some pr) (hc : st c = none)
    (hsnap : (pr.treeconfig.object_type = .Volume ∧ snap.isSome) ∨
      (pr.treeconfig.object_type = .Template ∧ snap.isNone))
    (hcr : cr.treeconfig = .makeClone p) :
    Consistent (update (update st p
      (some (withDescendants pr (pr.treeconfig.descendants.insert c snap)))) c (some cr)) := by
  have hpc : p ≠ c := by
    rintro rfl
    rw [hp] at hc
    cases hc
  refine h.relink (some snap) hp hpc (descendants_of_none hc) ?_ ?_ ?_ ?_ ?_ ?_
  · simp [parent_of_none hc]
  · simp [listed, hcr, makeClone]
  · simp [Assoc.find_insert, descendants_of_some hp]
  · simp [hcr, makeClone, eq_comm]
  · rintro _ ⟨⟩
    rw [type_of_some hp]
    rcases hsnap with ⟨htype, hs⟩ | ⟨htype, hs⟩ <;> rw [htype] <;> cases snap <;> simp at hs ⊢
  · simp [hcr, makeClone]

/-- A clone without descendants is taken out, and its parent does not list it any more. -/
theorem disown {c : ObjectId} {pr : ObjectRegistration} (hp : st p = some pr)
    (hparent : parent st c = some p) (hdescendants : descendants st c = []) :
    Consistent (update (update st p (some (withDescendants pr (pr.treeconfig.descendants.erase c)))) c none) := by
  have hpc : p ≠ c := by
    rintro rfl
    exact h.not_parent hdescendants p hparent
  refine h.relink none hp hpc hdescendants ?_ rfl ?_ (by simp) (by simp) (by simp)
  · intro q hq
    exact Option.some.inj (hq.symm.trans hparent)
  · simp [Assoc.find_erase, descendants_of_some hp]

end

end Consistent

/-! ## What the calls hand in -/

/-- The objects that a call names. -/
def Call.names : Call → List ObjectId
  | .register_base_volume vol_id _ _ => [vol_id]
  | .register_file id => [id]
  | .register_clone clone_id _ parent_id _ _ => [clone_id, parent_id]
  | .convert_base_to_clone clone_id _ parent_id _ _ => [clone_id, parent_id]
  | .migrate vol_id _ _ => [vol_id]
  | .unregister id => [id]
  | .set_volume_as_template vol_id => [vol_id]
  | .set_foc_config_mode vol_id _ => [vol_id]

/-- The object that the call converts. -/
def Call.converts : Call → Option ObjectId
  | .convert_base_to_clone clone_id _ _ _ _ => some clone_id
  | _ => none

/-- The object that the call unregisters. -/
def Call.unregisters : Call → Option ObjectId
  | .unregister id => some id
  | _ => none

/-- The snapshot that a clone of this parent is made from. -/
def MayClone (pr : ObjectRegistration) (snap : Option SnapshotName) : Prop :=
  (pr.treeconfig.object_type = .Volume ∧ snap.isSome) ∨ (pr.treeconfig.object_type = .Template ∧ snap.isNone)

/-- The parent lists the clone, and the clone is registered. -/
def adoption (c p : ObjectId) (pr cr : ObjectRegistration) (snap : Option SnapshotName) : Seq :=
  [.assert p (some pr), .set p (withDescendants pr (pr.treeconfig.descendants.insert c snap)),
    .assert c none, .set c cr]

/-- The sequence that an attempt of the call has prepared, by what it does. -/
inductive Prepared (call : Call) : Seq → Prop
  | nothing : Prepared call []
  | create {id : ObjectId} {reg : ObjectRegistration} (hid : id ∈ call.names)
      (hdescendants : reg.treeconfig.descendants = []) (hparent : reg.treeconfig.parent_volume = none) :
      Prepared call [.assert id none, .set id reg]
  | adopt {c p : ObjectId} {pr cr : ObjectRegistration} {snap : Option SnapshotName} (hnames : call.names = [c, p])
      (hsnap : MayClone pr snap) (hcr : cr.treeconfig = .makeClone p) : Prepared call (adoption c p pr cr snap)
  | convert {c p : ObjectId} {old pr cr : ObjectRegistration} {snap : Option SnapshotName}
      (hnames : call.names = [c, p]) (hcall : call.converts = some c) (hsnap : MayClone pr snap)
      (hcr : cr.treeconfig = .makeClone p) :
      Prepared call ([.assert c (some old), .delete c] ++ adoption c p pr cr snap)
  | rewrite {id : ObjectId} {r r' : ObjectRegistration} (hid : id ∈ call.names)
      (hparent : r'.treeconfig.parent_volume = r.treeconfig.parent_volume)
      (hdescendants : r'.treeconfig.descendants = r.treeconfig.descendants)
      (htype : r'.treeconfig.object_type = r.treeconfig.object_type ∨
        r.treeconfig.descendants = [] ∧ r'.treeconfig.object_type ≠ .File) :
      Prepared call [.assert id (some r), .set id r']
  | remove {id : ObjectId} {r : ObjectRegistration} (hid : id ∈ call.names)
      (halone : (r.treeconfig.descendants = [] ∧ r.treeconfig.parent_volume = none) ∨
        r.treeconfig.object_type = .File) :
      Prepared call [.assert id (some r), .delete id]
  | disown {c p : ObjectId} {r pr : ObjectRegistration} (hid : c ∈ call.names) (hcall : call.unregisters = some c)
      (hparent : r.treeconfig.parent_volume = some p) (hdescendants : r.treeconfig.descendants = []) :
      Prepared call [.assert p (some pr), .set p (withDescendants pr (pr.treeconfig.descendants.erase c)),
        .assert c (some r), .delete c]

theorem mayClone_of_checkParent {clone_id parent_id : ObjectId} {snap : Option SnapshotName} {pr : ObjectRegistration}
    (h : checkParent clone_id parent_id snap pr.treeconfig.object_type = .ok ()) : MayClone pr snap := by
  unfold MayClone
  cases htype : pr.treeconfig.object_type <;> cases snap <;> simp [checkParent, htype] at h ⊢

section

variable {call : Call} {log : List (ObjectId × Option ObjectRegistration)}

/-- What the sequence of an attempt does. -/
abbrev Leads (call : Call) (m : M (ObjectRegistration × Seq)) (log : List (ObjectId × Option ObjectRegistration)) :
    Prop :=
  m.Leaves (fun _ x => Prepared call x.2) log

theorem leads_register_clone {convert : Bool} {clone_id parent_id : ObjectId} (node_id : NodeId) (nspace : Namespace)
    (snap : Option SnapshotName) (foccmode : FailOverCacheConfigMode) (tag : OwnerTag)
    (hnames : call.names = [clone_id, parent_id]) (hcall : convert → call.converts = some clone_id) :
    Leads call (prepare_register_clone_ node_id clone_id nspace parent_id snap convert foccmode tag) log := by
  refine leaves_bind fun log pr => ?_
  dsimp only
  split
  · trivial
  · next hcheck =>
    have hsnap := mayClone_of_checkParent hcheck
    split
    · trivial
    · refine leaves_bind fun log found => ?_
      split
      · trivial
      · split
        · next hconvert =>
          refine leaves_bind fun log old => ?_
          exact .convert hnames (hcall hconvert) hsnap rfl
        · exact .adopt hnames hsnap rfl

theorem leads_template {id : ObjectId} (hid : id ∈ call.names) (node_id : NodeId) :
    Leads call (prepare_set_volume_as_template_ node_id id) log := by
  refine leaves_bind fun log r => ?_
  unfold do_prepare_set_volume_as_template_
  split
  · trivial
  · split
    · trivial
    · next hdescendants =>
      have hnone := not_not.1 hdescendants
      have hprepared : Prepared call (rewrite r { r with
          node_id := node_id, treeconfig := .makeTemplate r.treeconfig.parent_volume } id).2 :=
        .rewrite hid rfl hnone.symm (.inr ⟨hnone, by simp [makeTemplate]⟩)
      split
      · exact hprepared
      · refine leaves_bind fun log pr => ?_
        split
        · trivial
        · exact hprepared
  · exact .nothing

theorem leads_unregister_volumoid {id : ObjectId} (hid : id ∈ call.names) (hcall : call.unregisters = some id)
    (node_id : NodeId) :
    (prepare_unregister_volumoid_ node_id id).Leaves (fun _ seq => Prepared call seq) log := by
  refine leaves_bind fun log r => ?_
  unfold do_prepare_unregister_volumoid_
  split
  · trivial
  · next hdescendants =>
    have hnone := not_not.1 hdescendants
    split
    · next hparent => exact .remove hid (.inl ⟨hnone, hparent⟩)
    · next p hparent =>
      refine leaves_bind fun log pr => ?_
      dsimp only
      split
      · trivial
      · split
        · trivial
        · exact .disown hid hcall hparent hnone

theorem leads_unregister_file {id : ObjectId} (hid : id ∈ call.names) (node_id : NodeId) :
    (prepare_unregister_file_ node_id id).Leaves (fun _ seq => Prepared call seq) log := by
  refine leaves_bind fun log r => ?_
  split
  · trivial
  · next hfile => exact .remove hid (.inr (not_not.1 hfile))

theorem leaves_attempt {m : M (ObjectRegistration × Seq)} (h : Leads call m log) :
    (attempt m).Leaves (fun _ x => Prepared call x.2.2) log :=
  Reads.Leaves.bind (fun _ _ hx => hx) h

/-- Every attempt of every call hands in one of these sequences. -/
theorem prepare_leaves (op : Op) (kept : Kept) (tries : Nat) :
    (op.prepare kept tries).Leaves (fun _ x => Prepared op.call x.2.2) [] := by
  obtain ⟨node_id, call, tags⟩ := op
  cases call with
  | register_base_volume | register_file => exact .create (List.mem_singleton_self _) rfl rfl
  | register_clone => exact leaves_attempt (leads_register_clone _ _ _ _ _ rfl (by simp))
  | convert_base_to_clone => exact leaves_attempt (leads_register_clone _ _ _ _ _ rfl fun _ => rfl)
  | migrate | set_foc_config_mode =>
    refine leaves_attempt (leaves_bind fun log r => ?_)
    exact .rewrite (List.mem_singleton_self _) rfl rfl (.inl rfl)
  | unregister id =>
    refine leaves_bind (m := typeToUnregister id kept) fun log otype => ?_
    refine Reads.Leaves.bind (P := fun _ seq => Prepared (.unregister id) seq) ?_ ?_
    · intro _ _ hseq
      exact hseq
    split
    · exact leads_unregister_file (List.mem_singleton_self _) node_id
    · exact leads_unregister_volumoid (List.mem_singleton_self _) rfl node_id
  | set_volume_as_template vol_id => exact leaves_attempt (leads_template (List.mem_singleton_self _) node_id)

end

/-! ## What a sequence does that is carried out -/

/-- The objects whose registrations the call may change: those it names, and the parent of one that it
unregisters. -/
def Named (st : Store) (call : Call) (x : ObjectId) : Prop :=
  x ∈ call.names ∨ ∃ c ∈ call.unregisters, parent st c = some x

/-- What is converted has no relatives. -/
def MayConvert (st : Store) (call : Call) : Prop :=
  ∀ c, call.converts = some c → parent st c = none ∧ descendants st c = []

section

variable {st st' : Store} {call : Call} {seq : Seq}

theorem exec_adoption {c p : ObjectId} {pr cr : ObjectRegistration} {snap : Option SnapshotName}
    (h : exec (adoption c p pr cr snap) st = .ok st') :
    st p = some pr ∧ st c = none ∧
      update (update st p (some (withDescendants pr (pr.treeconfig.descendants.insert c snap))))
        c (some cr) = st' := by
  simp only [adoption, exec_assert, exec_set, exec_nil] at h
  obtain ⟨hp, hc, hst⟩ := h
  refine ⟨hp, ?_, hst⟩
  by_cases hpc : c = p
  · rw [hpc, update_self] at hc
    cases hc
  · rwa [update_of_ne hpc] at hc

/-- A sequence that is carried out keeps the family consistent, when what it converts has no relatives. -/
theorem Consistent.commit (h : Consistent st) (hseq : Prepared call seq) (hmay : MayConvert st call)
    (hst : exec seq st = .ok st') : Consistent st' := by
  cases hseq with
  | nothing =>
    rw [exec_nil] at hst
    exact hst ▸ h
  | create _ hdescendants hparent =>
    simp only [exec_assert, exec_set, exec_nil] at hst
    exact hst.2 ▸ h.create hst.1 hdescendants hparent
  | adopt _ hsnap hcr =>
    obtain ⟨hp, hc, hst⟩ := exec_adoption hst
    exact hst ▸ h.adopt hp hc hsnap hcr
  | @convert c p old pr cr snap _ hcall hsnap hcr =>
    simp only [List.cons_append, List.nil_append, exec_assert, exec_delete] at hst
    obtain ⟨hparent, hdescendants⟩ := hmay c hcall
    obtain ⟨hp, hc, hst⟩ := exec_adoption hst.2.2
    exact hst ▸ (h.remove hdescendants hparent).adopt hp hc hsnap hcr
  | rewrite _ hparent hdescendants htype =>
    simp only [exec_assert, exec_set, exec_nil] at hst
    obtain ⟨hid, hst⟩ := hst
    rw [← hst]
    refine h.replace ?_ ?_ ?_ ?_
    · rw [parent_of_some hid]
      exact hparent
    · rw [descendants_of_some hid]
      exact hdescendants
    · rcases htype with htype | ⟨hnone, _⟩
      · exact .inr (by rw [type_of_some hid]; exact congrArg some htype)
      · exact .inl (by rw [descendants_of_some hid, hnone])
    · intro hfile
      rcases htype with htype | ⟨_, hne⟩
      · exact h.files _ (by rw [type_of_some hid, ← htype]; exact hfile)
      · exact absurd (Option.some.inj hfile) hne
  | @remove id r _ halone =>
    simp only [exec_assert, exec_delete, exec_nil] at hst
    obtain ⟨hid, -, hst⟩ := hst
    rw [← hst]
    rcases halone with ⟨hdescendants, hparent⟩ | hfile
    · exact h.remove (by rw [descendants_of_some hid, hdescendants]) (by rw [parent_of_some hid, hparent])
    · have htype : type st id = some .File := by rw [type_of_some hid, hfile]
      exact h.remove (h.descendants_of_file htype) (h.files id htype)
  | @disown c p r pr _ _ hparent hdescendants =>
    simp only [exec_assert, exec_set, exec_delete, exec_nil] at hst
    obtain ⟨hp, hc, -, hst⟩ := hst
    have hpc : c ≠ p := by
      rintro rfl
      -- the clone would be its own parent
      rw [update_self] at hc
      have hself : parent st c = some c := by
        rw [parent_of_some hp, ← hparent, ← Option.some.inj hc]
        rfl
      exact h.acyclic c (.single hself)
    rw [update_of_ne hpc] at hc
    exact hst ▸ h.disown hp (by rw [parent_of_some hc, hparent]) (by rw [descendants_of_some hc, hdescendants])

/-- A sequence that is carried out changes no other objects than those that the call names, and the
parent of an object that it unregisters. -/
theorem commit_frame (hseq : Prepared call seq) (hst : exec seq st = .ok st') {x : ObjectId} (hx : ¬ Named st call x) :
    st' x = st x := by
  have hne : ∀ id, id ∈ call.names → x ≠ id := by
    rintro id hid rfl
    exact hx (.inl hid)
  cases hseq with
  | nothing =>
    rw [exec_nil] at hst
    rw [hst]
  | create hid | rewrite hid =>
    simp only [exec_assert, exec_set, exec_nil] at hst
    rw [← hst.2, update_of_ne (hne _ hid)]
  | @adopt c p _ _ _ hnames =>
    obtain ⟨-, -, hst⟩ := exec_adoption hst
    rw [← hst, update_of_ne (hne c (by simp [hnames])), update_of_ne (hne p (by simp [hnames]))]
  | @convert c p _ _ _ _ hnames =>
    simp only [List.cons_append, List.nil_append, exec_assert, exec_delete] at hst
    obtain ⟨-, -, hst⟩ := exec_adoption hst.2.2
    have hc := hne c (by simp [hnames])
    rw [← hst, update_of_ne hc, update_of_ne (hne p (by simp [hnames])), update_of_ne hc]
  | remove hid =>
    simp only [exec_assert, exec_delete, exec_nil] at hst
    rw [← hst.2.2, update_of_ne (hne _ hid)]
  | @disown c p r pr hid hcall hparent =>
    simp only [exec_assert, exec_set, exec_delete, exec_nil] at hst
    obtain ⟨hp, hc, -, hst⟩ := hst
    have hxc := hne c hid
    have hxp : x ≠ p := by
      rintro rfl
      rw [update_of_ne (Ne.symm hxc)] at hc
      exact hx (.inr ⟨c, hcall, by rw [parent_of_some hc, hparent]⟩)
    rw [← hst, update_of_ne hxc, update_of_ne hxp]

end

/-! ## Runs -/

/-- The registry and its clients. -/
abbrev State := Lib.Sequence.State ObjectId ObjectRegistration Error Op Kept (Option ObjectRegistration)

/-- What the action converts, if it carries out the sequence of a call that does, has no relatives. -/
def Based (s : State) : Action Op → Prop
  | .call _ _ => True
  | .step c =>
    match s.clients c with
    | .busy op _ _ (.pure (_, _, seq)) => (∃ st, exec seq s.store = .ok st) → MayConvert s.store op.call
    | _ => True

/-- The registrations that the action changes are those of objects that the client's call names, and of
the parent of one that it unregisters. -/
def Framed (s : State) (a : Action Op) : Prop :=
  ∀ x, (step service s a).store x ≠ s.store x →
    ∃ c op tries log todo, a = .step c ∧ s.clients c = .busy op tries log todo ∧ Named s.store op.call x

theorem framed {s : State} (hready : s.Ready fun op _ _ x => Prepared op.call x.2.2) (a : Action Op) : Framed s a := by
  intro x hx
  rcases step_store (S := service) hready a with hst | ⟨op, tries, log, attempt, hleaf, ⟨c, rfl, hc⟩, hst⟩
  · exact absurd (congrFun hst x) hx
  · refine ⟨c, op, tries, log, _, rfl, hc, ?_⟩
    by_contra hnamed
    exact hx (commit_frame hleaf hst hnamed)

/-- From every consistent registry, in every interleaving of calls from any number of nodes in which only
objects without relatives are converted: the family stays consistent, only volumes and templates have
descendants, and each step leaves alone what its call does not name. -/
theorem family_in_order (st : Store) (h : Consistent st) (as : List (Action Op))
    (has : Each (step service) Based ⟨st, fun _ => .idle⟩ as) :
    Consistent (runs (step service) ⟨st, fun _ => .idle⟩ as).store ∧
      (∀ p, descendants (runs (step service) ⟨st, fun _ => .idle⟩ as).store p ≠ [] →
        type (runs (step service) ⟨st, fun _ => .idle⟩ as).store p = some .Volume ∨
          type (runs (step service) ⟨st, fun _ => .idle⟩ as).store p = some .Template) ∧
      Each (step service) Framed ⟨st, fun _ => .idle⟩ as := by
  have hrun : Consistent (runs (step service) ⟨st, fun _ => .idle⟩ as).store := by
    refine runs_store (S := service) prepare_leaves Consistent ?_ h (State.ready_idle st) has
    rintro s a op tries log ⟨kept, reg, seq⟩ st' hcons hbased hleaf ⟨⟨c, rfl, hc⟩, hst⟩
    simp only [Based, hc] at hbased
    exact hcons.commit hleaf (hbased ⟨st', hst⟩) hst
  refine ⟨hrun, fun p hp => hrun.volumes hp, ?_⟩
  refine each_imp (fun s => s.Ready fun op _ _ x => Prepared op.call x.2.2) ?_ (State.ready_idle st) has
  intro s a hready _
  exact ⟨framed hready a, hready.step prepare_leaves a⟩

theorem consistent_empty : Consistent fun _ => none := by
  constructor
  · intro c p
    simp [parent, descendants, listed]
  · refine acyclic_of_rank (fun _ => 0) ?_
    intro c p h
    cases h
  · intro p c snap h
    cases h
  · intro id h
    cases h

/-- A call on node `node`. -/
def on (node : NodeId) (call : Call) : Op := ⟨node, call, fun _ => .initial_value⟩

/-- Two volumes are registered on one node, a clone of the first on another one, and the second volume is
converted to a clone of the first. -/
theorem family_of_three :
    Consistent (runs (step service) ⟨fun _ => none, fun _ => .idle⟩
      [.call 0 (on "n" (.register_base_volume "v" "v" .Automatic)), .step 0,
        .call 0 (on "n" (.register_base_volume "w" "w" .Automatic)), .step 0,
        .call 1 (on "m" (.register_clone "c" "c" "v" (some "s") .Automatic)), .step 1, .step 1, .step 1,
        .call 0 (on "n" (.convert_base_to_clone "w" "w" "v" (some "s") .Automatic)), .step 0, .step 0, .step 0,
        .step 0]).store := by
  refine (family_in_order (fun _ => none) consistent_empty _ ?_).1
  refine ⟨trivial, ?_, trivial, ?_, trivial, trivial, trivial, ?_, trivial, trivial, trivial, trivial, ?_, trivial⟩
  · rintro - c ⟨⟩
  · rintro - c ⟨⟩
  · rintro - c ⟨⟩
  · rintro - c ⟨⟩
    exact ⟨rfl, rfl⟩

/-- A volume that has a clone is itself converted to a clone of another volume: its clone has lost its place
in the family. -/
theorem forgotten_descendant :
    let s := runs (step service) ⟨fun _ => none, fun _ => .idle⟩
      [.call 0 (on "n" (.register_base_volume "v" "v" .Automatic)), .step 0,
        .call 0 (on "n" (.register_base_volume "w" "w" .Automatic)), .step 0,
        .call 0 (on "n" (.register_clone "c" "c" "v" (some "s") .Automatic)), .step 0, .step 0, .step 0,
        .call 0 (on "n" (.convert_base_to_clone "v" "v" "w" (some "s") .Automatic)), .step 0, .step 0, .step 0, .step 0]
    parent s.store "c" = some "v" ∧ (descendants s.store "v").find "c" = none := by
  decide

end VolumeDriver.ObjectRegistry
