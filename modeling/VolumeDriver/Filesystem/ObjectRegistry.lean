/-
The registry of the objects of a cluster in Arakoon (ObjectRegistry.cpp): which node owns an object, and
the tree of volumes, templates and their clones. A call reads the registrations it needs and hands in one
asserted sequence; whether it prepares the sequence again when an assertion has failed depends on the call.
-/
import VolumeDriver.Lib.Assoc
import VolumeDriver.Lib.Sequence
import VolumeDriver.Types

namespace VolumeDriver.ObjectRegistry

open Lib Lib.Sequence

/-! ## Registrations -/

/-- The id of an object. -/
abbrev ObjectId := String

/-- The id of a node. -/
abbrev NodeId := String

/-- A namespace on the backend. -/
abbrev Namespace := String

/-- The tags that the allocator hands out: 0 is reserved for registrations that were written without one. -/
structure OwnerTag where
  tag : UInt64
  ne_zero : tag ≠ 0
  deriving DecidableEq, Repr

namespace OwnerTag

/-- The first tag. -/
def initial_value : OwnerTag := ⟨1, by decide⟩

end OwnerTag

/-- What an object is. -/
inductive ObjectType
  | File
  | Volume
  | Template
  deriving DecidableEq, Repr

/-- Who sets the DTL of a volume. -/
inductive FailOverCacheConfigMode
  | Automatic
  | Manual
  deriving DecidableEq, Repr

/-- The clones of a volume, each with the snapshot it was made from. -/
abbrev Descendants := Assoc ObjectId (Option SnapshotName)

/-- The place of an object in the tree. -/
structure ObjectTreeConfig where
  object_type : ObjectType
  descendants : Descendants
  parent_volume : Option ObjectId
  deriving DecidableEq, Repr

namespace ObjectTreeConfig

/-- A volume without a parent. -/
def makeBase : ObjectTreeConfig := ⟨.Volume, [], none⟩

/-- A clone. -/
def makeClone (parent : ObjectId) : ObjectTreeConfig := ⟨.Volume, [], some parent⟩

/-- A template. -/
def makeTemplate (parent : Option ObjectId) : ObjectTreeConfig := ⟨.Template, [], parent⟩

/-- An object with descendants. -/
def makeParent (type : ObjectType) (descendants : Descendants) (grandparent : Option ObjectId) : ObjectTreeConfig :=
  ⟨type, descendants, grandparent⟩

/-- A file. -/
def makeFile : ObjectTreeConfig := ⟨.File, [], none⟩

end ObjectTreeConfig

/-- What the registry has of an object. -/
structure ObjectRegistration where
  nspace : Namespace
  volume_id : ObjectId
  node_id : NodeId
  treeconfig : ObjectTreeConfig
  owner_tag : OwnerTag
  foc_config_mode : FailOverCacheConfigMode
  deriving DecidableEq, Repr

/-! ## Errors -/

/-- The exceptions. -/
inductive Exception
  | ObjectNotRegisteredException
  | ObjectAlreadyRegisteredException
  | InvalidOperationException
  | WrongOwnerException
  | ConflictingUpdateException
  | InconsistencyException
  | error_not_found
  /-- A `VERIFY` or `THROW_UNLESS` that failed. -/
  | assertion (what : String)
  deriving DecidableEq, Repr

/-- An exception with the data that it carries. -/
structure Error where
  exception : Exception
  object_id : Option ObjectId := none
  parent_volume_id : Option ObjectId := none
  desc : Option String := none
  node_id : Option NodeId := none
  other_node_id : Option NodeId := none
  deriving DecidableEq, Repr

/-! ## Looking registrations up -/

/-- A program that reads registrations. -/
abbrev M := Reads ObjectId ObjectRegistration Error

/-- A sequence of updates. -/
abbrev Seq := List (Update ObjectId ObjectRegistration)

variable (id : ObjectId)

/-- Looks an object up. -/
def find_ : M (Option ObjectRegistration) := .get id pure

/-- Looks up an object that is registered. -/
def find_throw_ : M ObjectRegistration :=
  Reads.find id { exception := .ObjectNotRegisteredException, object_id := some id }

/-- As `find_throw_`, and checks the id. -/
def find_throw : M ObjectRegistration := do
  let reg ← find_throw_ id
  if id ≠ reg.volume_id then .throw { exception := .assertion "vol_id == reg->volume_id" }
  else pure reg

/-- Looks up an object that the node owns. -/
def with_owned_volume_ (owner : NodeId) : M ObjectRegistration := do
  let reg ← find_throw_ id
  if id ≠ reg.volume_id then .throw { exception := .assertion "id == reg->volume_id" }
  else if reg.node_id ≠ owner then
    .throw { exception := .WrongOwnerException, object_id := some id, node_id := some owner,
             other_node_id := some reg.node_id }
  else pure reg

/-! ## The sequences -/

variable (node_id : NodeId)

/-- Registers an object without a parent. -/
def prepare_register_base_or_file_ (id : ObjectId) (nspace : Namespace) (typ : ObjectType)
    (foccmode : FailOverCacheConfigMode) (tag : OwnerTag) : ObjectRegistration × Seq :=
  let reg : ObjectRegistration :=
    { nspace := nspace, volume_id := id, node_id := node_id,
      treeconfig := if typ = .Volume then .makeBase else .makeFile, owner_tag := tag, foc_config_mode := foccmode }
  (reg, [.assert id none, .set id reg])

/-- The parent may be cloned from: a volume at a snapshot, a template without one. -/
def checkParent (clone_id parent_id : ObjectId) (maybe_parent_snap : Option SnapshotName) (type : ObjectType) :
    Except Error Unit :=
  let invalid (desc : String) : Error :=
    { exception := .InvalidOperationException, object_id := some clone_id, parent_volume_id := some parent_id,
      desc := some desc }
  match type with
  | .File => .error (invalid "cannot clone from file")
  | .Volume =>
    if maybe_parent_snap.isNone then .error (invalid "cannot clone from volume if snapshot is not specified")
    else .ok ()
  | .Template =>
    if maybe_parent_snap.isSome then .error (invalid "cannot clone from template if snapshot is specified") else .ok ()

/-- The clone is not registered yet, or, when a base is converted, it is. -/
def checkClone (clone_id : ObjectId) (convert_base_to_clone : Bool) (found : Option ObjectRegistration) :
    Except Error Unit :=
  if convert_base_to_clone then
    if found.isNone then .error { exception := .ObjectNotRegisteredException, object_id := some clone_id } else .ok ()
  else
    if found.isSome then .error { exception := .ObjectAlreadyRegisteredException, object_id := some clone_id }
    else .ok ()

/-- The registration with other descendants. -/
def withDescendants (reg : ObjectRegistration) (descendants : Descendants) : ObjectRegistration :=
  { reg with
    treeconfig := .makeParent reg.treeconfig.object_type descendants reg.treeconfig.parent_volume }

/-- Registers a clone, or makes one of a base volume. -/
def prepare_register_clone_ (clone_id : ObjectId) (clone_nspace : Namespace) (parent_id : ObjectId)
    (maybe_parent_snap : Option SnapshotName) (convert_base_to_clone : Bool) (foccmode : FailOverCacheConfigMode)
    (tag : OwnerTag) : M (ObjectRegistration × Seq) := do
  let old_parent_reg ← find_throw_ parent_id
  let old_treeconfig := old_parent_reg.treeconfig
  match checkParent clone_id parent_id maybe_parent_snap old_treeconfig.object_type with
  | .error e => .throw e
  | .ok () =>
    if (old_treeconfig.descendants.find clone_id).isSome then
      .throw { exception := .ObjectAlreadyRegisteredException, object_id := some clone_id,
               parent_volume_id := some parent_id, desc := some "clone was already registered with parent" }
    else do
      let found ← find_ clone_id
      match checkClone clone_id convert_base_to_clone found with
      | .error e => .throw e
      | .ok () =>
        let new_parent_reg :=
          withDescendants old_parent_reg (old_treeconfig.descendants.insert clone_id maybe_parent_snap)
        let clone_reg : ObjectRegistration :=
          { nspace := clone_nspace, volume_id := clone_id, node_id := node_id, treeconfig := .makeClone parent_id,
            owner_tag := tag, foc_config_mode := foccmode }
        let adopt : Seq := [.assert parent_id (some old_parent_reg), .set parent_id new_parent_reg,
          .assert clone_id none, .set clone_id clone_reg]
        if convert_base_to_clone then do
          let old_clone_reg ← find_throw_ clone_id
          pure (clone_reg, [.assert clone_id (some old_clone_reg), .delete clone_id] ++ adopt)
        else pure (clone_reg, adopt)

/-- The registration is rewritten. -/
def rewrite (old_reg reg : ObjectRegistration) (id : ObjectId) : ObjectRegistration × Seq :=
  (reg, [.assert id (some old_reg), .set id reg])

/-- The object moves to another node. -/
def prepare_migrate (vol_id : ObjectId) (fromNode toNode : NodeId) (tag : OwnerTag) : M (ObjectRegistration × Seq) := do
  let old_reg ← with_owned_volume_ vol_id fromNode
  pure (rewrite old_reg { old_reg with node_id := toNode, owner_tag := tag } vol_id)

/-- Takes a volume or template out, and off the list of its parent. -/
def do_prepare_unregister_volumoid_ (old_reg : ObjectRegistration) : M Seq :=
  if old_reg.treeconfig.descendants ≠ [] then
    .throw { exception := .InvalidOperationException, object_id := some id,
             desc := some "cannot remove volume or template as it still has descendants" }
  else
    match old_reg.treeconfig.parent_volume with
    | none => pure [.assert id (some old_reg), .delete id]
    | some parent_id => do
      let old_parent_reg ← find_throw_ parent_id
      let parent_treeconfig := old_parent_reg.treeconfig
      if parent_treeconfig.object_type ≠ .Volume ∧ parent_treeconfig.object_type ≠ .Template then
        .throw { exception := .InconsistencyException, object_id := some id, parent_volume_id := some parent_id,
                 desc := some "parent is neither a volume nor template" }
      else if (parent_treeconfig.descendants.find id).isNone then
        .throw { exception := .ConflictingUpdateException, object_id := some id, parent_volume_id := some parent_id,
                 desc := some "parent does not refer to clone anymore" }
      else
        pure [.assert parent_id (some old_parent_reg),
          .set parent_id (withDescendants old_parent_reg (parent_treeconfig.descendants.erase id)),
          .assert id (some old_reg), .delete id]

/-- Takes out a volume or template that the node owns. -/
def prepare_unregister_volumoid_ (id : ObjectId) : M Seq := do
  let old_reg ← with_owned_volume_ id node_id
  do_prepare_unregister_volumoid_ id old_reg

/-- Takes out a file. -/
def prepare_unregister_file_ (id : ObjectId) : M Seq := do
  let old_reg ← with_owned_volume_ id node_id
  if old_reg.treeconfig.object_type ≠ .File then
    .throw { exception := .assertion "old_reg.treeconfig.object_type == ObjectType::File" }
  else pure [.assert id (some old_reg), .delete id]

/-- A volume becomes a template. -/
def do_prepare_set_volume_as_template_ (id : ObjectId) (old_reg : ObjectRegistration) :
    M (ObjectRegistration × Seq) :=
  let invalid (desc : String) : Error :=
    { exception := .InvalidOperationException, object_id := some old_reg.volume_id, desc := some desc }
  let reg := { old_reg with node_id := node_id, treeconfig := .makeTemplate old_reg.treeconfig.parent_volume }
  match old_reg.treeconfig.object_type with
  | .File => .throw (invalid "cannot convert a file into a template")
  | .Volume =>
    if old_reg.treeconfig.descendants ≠ [] then
      .throw (invalid "cannot convert a volume with descendants into a template")
    else
      match old_reg.treeconfig.parent_volume with
      | none => pure (rewrite old_reg reg id)
      | some parent_id => do
        let parent ← find_throw parent_id
        if parent.treeconfig.object_type ≠ .Template then
          .throw (invalid "cannot templatize a clone whose parent is not a template")
        else pure (rewrite old_reg reg id)
  | .Template => pure (old_reg, [])

/-- A volume that the node owns becomes a template. -/
def prepare_set_volume_as_template_ (id : ObjectId) : M (ObjectRegistration × Seq) := do
  let old_reg ← with_owned_volume_ id node_id
  do_prepare_set_volume_as_template_ node_id id old_reg

/-- Sets who configures the DTL. -/
def prepare_set_foc_config_mode_ (id : ObjectId) (foc_cm : FailOverCacheConfigMode) :
    M (ObjectRegistration × Seq) := do
  let old_reg ← with_owned_volume_ id node_id
  pure (rewrite old_reg { old_reg with foc_config_mode := foc_cm } id)

/-! ## The calls -/

/-- The calls that change the registry. -/
inductive Call
  | register_base_volume (vol_id : ObjectId) (nspace : Namespace) (foccmode : FailOverCacheConfigMode)
  | register_file (id : ObjectId)
  | register_clone (clone_id : ObjectId) (clone_nspace : Namespace) (parent_id : ObjectId)
      (maybe_parent_snap : Option SnapshotName) (foccmode : FailOverCacheConfigMode)
  | convert_base_to_clone (clone_id : ObjectId) (clone_nspace : Namespace) (parent_id : ObjectId)
      (maybe_parent_snap : Option SnapshotName) (foccmode : FailOverCacheConfigMode)
  | migrate (vol_id : ObjectId) (fromNode toNode : NodeId)
  | unregister (id : ObjectId)
  | set_volume_as_template (vol_id : ObjectId)
  | set_foc_config_mode (vol_id : ObjectId) (foc_cm : FailOverCacheConfigMode)
  deriving DecidableEq, Repr

/-- A call on a node. `tags n` is what the allocator gives in attempt `n`. -/
structure Op where
  node_id : NodeId
  call : Call
  tags : Nat → OwnerTag

/-- The type of the object that `unregister` has found before its first attempt. -/
abbrev Kept := Option ObjectType

/-- An attempt of a call that keeps nothing for the next one. -/
def attempt (m : M (ObjectRegistration × Seq)) : M (Kept × Option ObjectRegistration × Seq) := do
  let (reg, seq) ← m
  pure (none, some reg, seq)

/-- `unregister` looks at the type of the object once, before its first attempt. -/
def typeToUnregister : Kept → M ObjectType
  | some otype => pure otype
  | none => do
    let reg ← find_throw id
    pure reg.treeconfig.object_type

/-- An attempt of `unregister`. -/
def prepareUnregister (id : ObjectId) (kept : Kept) :
    M (Kept × Option ObjectRegistration × Seq) := do
  let otype ← typeToUnregister id kept
  let prepare := if otype = .File then prepare_unregister_file_ else prepare_unregister_volumoid_
  let seq ← prepare node_id id
  pure (some otype, none, seq)

/-- One attempt of a call. -/
def Op.prepare (op : Op) (kept : Kept) (tries : Nat) : M (Kept × Option ObjectRegistration × Seq) :=
  match op.call with
  | .register_base_volume vol_id nspace foccmode =>
    attempt (pure (prepare_register_base_or_file_ op.node_id vol_id nspace .Volume foccmode (op.tags tries)))
  | .register_file id =>
    attempt (pure (prepare_register_base_or_file_ op.node_id id id .File .Automatic (op.tags tries)))
  | .register_clone clone_id clone_nspace parent_id maybe_parent_snap foccmode =>
    attempt (prepare_register_clone_ op.node_id clone_id clone_nspace parent_id maybe_parent_snap false foccmode
      (op.tags tries))
  | .convert_base_to_clone clone_id clone_nspace parent_id maybe_parent_snap foccmode =>
    attempt (prepare_register_clone_ op.node_id clone_id clone_nspace parent_id maybe_parent_snap true foccmode
      (op.tags tries))
  | .migrate vol_id fromNode toNode => attempt (prepare_migrate vol_id fromNode toNode (op.tags tries))
  | .unregister id => prepareUnregister op.node_id id kept
  | .set_volume_as_template vol_id => attempt (prepare_set_volume_as_template_ op.node_id vol_id)
  | .set_foc_config_mode vol_id foc_cm => attempt (prepare_set_foc_config_mode_ op.node_id vol_id foc_cm)

/-- `RetryOnArakoonAssert`. -/
def Op.retry (op : Op) (otype : Kept) : Bool :=
  match op.call with
  | .register_clone .. | .convert_base_to_clone .. => true
  | .unregister _ => otype ≠ some .File
  | _ => false

/-- The error of a call whose sequence was refused. -/
def Op.refused (op : Op) (otype : Kept) : Refusal → Error
  | .notFound => { exception := .error_not_found }
  | .assertionFailed =>
    let conflict (id : ObjectId) (desc : String) : Error :=
      { exception := .ConflictingUpdateException, object_id := some id, desc := some desc, node_id := some op.node_id }
    match op.call with
    | .register_base_volume id _ _ | .register_file id =>
      { conflict id "failed to register volume" with exception := .ObjectAlreadyRegisteredException }
    | .register_clone id .. => conflict id "register clone"
    | .convert_base_to_clone id .. => conflict id "convert base to clone"
    | .migrate id fromNode toNode =>
      { conflict id "failed to migrate" with node_id := some fromNode, other_node_id := some toNode }
    | .unregister id =>
      conflict id (match otype with
        | some .File => "unregister file"
        | some .Template => "unregister template"
        | _ => "unregister volume")
    | .set_volume_as_template id => conflict id "set volume as template"
    | .set_foc_config_mode id _ => conflict id "set FOC config mode"

/-- The registry as a service. -/
def service : Service ObjectId ObjectRegistration Error Op Kept (Option ObjectRegistration) where
  prepare := Op.prepare
  kept := none
  retry := Op.retry
  maxRetries := 10000
  refused := Op.refused

end VolumeDriver.ObjectRegistry
