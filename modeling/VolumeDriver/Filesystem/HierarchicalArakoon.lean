/-
The hierarchy of the file system in Arakoon (HierarchicalArakoon.h, HierarchicalArakoon.cpp). Each entry
is stored under its own key together with its value and maps the names of its children to their ids. A
call reads the entries it needs and hands in one asserted sequence through `LockedArakoon::run_sequence`,
which prepares it again when an assertion has failed.
-/
import VolumeDriver.Lib.Assoc
import VolumeDriver.Lib.Sequence

namespace VolumeDriver.HierarchicalArakoon

open Lib Lib.Sequence

/-! ## Entries -/

/-- The id of an entry. -/
abbrev UUID := BitVec 128

/-- The root entry, or the UUID of another one. The keys (`make_key_`) are the ids behind a fixed text. -/
inductive ArakoonEntryId
  | root
  | uuid (u : UUID)
  deriving DecidableEq, Repr

/-- The children of an entry, by name. -/
abbrev EntryMap := Lib.Assoc String ArakoonEntryId

/-- An entry. -/
structure Entry where
  children : EntryMap := []
  id : ArakoonEntryId
  parent_id : Option ArakoonEntryId
  deriving DecidableEq, Repr

/-- What is stored under a key: the entry and behind it the value, which the root entry does not have. -/
structure Buffer (T : Type) where
  entry : Entry
  value : Option T
  deriving DecidableEq, Repr

/-- The buffer with another entry in front of the value (`update_serialized_entry_`). -/
def Buffer.update_serialized_entry_ {T : Type} (buf : Buffer T) (entry : Entry) : Buffer T := { buf with entry }

/-- The entry with other children. -/
def Entry.withChildren (e : Entry) (children : EntryMap) : Entry := { e with children := children }

/-! ## Paths -/

/-- The components of a path. An absolute path starts with "/". -/
abbrev Path := List String

/-- The path as text. -/
def Path.string : Path → String
  | "/" :: rest => "/" ++ String.intercalate "/" rest
  | path => String.intercalate "/" path

/-- The path without its last component. -/
def Path.parent_path (path : Path) : Path := path.dropLast

/-- The last component. -/
def Path.filename (path : Path) : String := path.getLast?.getD ""

/-- The loop of `is_prefix_` over a path and the paths above it; the components come last one first. -/
def isPrefixLoop (pfx : Path) : List String → Bool
  | [] => false
  | s :: above => (s :: above).reverse = pfx || isPrefixLoop pfx above

/-- One path is the other or above it. -/
def is_prefix_ (pfx path : Path) : Bool := isPrefixLoop pfx path.reverse

/-- The errnos of the exceptions. -/
inductive Errno
  | EINVAL
  | EPERM
  | ENOENT
  | ENOTEMPTY
  deriving DecidableEq, Repr

/-- The exceptions. -/
inductive Error
  | DoesNotExistException (what : String) (name : String) (errno : Errno)
  | NotEmptyException (what : String) (name : String) (errno : Errno)
  | InvalidPathException (what : String) (name : String) (errno : Errno)
  | PreconditionFailedException (what : String) (name : String)
  /-- The archive has no value that can be read. -/
  | archive_exception
  | error_not_found
  | error_assertion_failed
  /-- A `VERIFY` that failed. -/
  | assertion (what : String)
  deriving DecidableEq, Repr

/-- The path is absolute and has no dots. -/
def validate_path_ (path : Path) : Except Error Unit :=
  if path = [] then
    .error (.InvalidPathException "The empty path is not supported" "(empty)" .EINVAL)
  else if path.head? ≠ some "/" then
    .error (.InvalidPathException "empty path not supported" path.string .EINVAL)
  else if path.any fun s => s = "." || s = ".." then
    .error (.InvalidPathException
      "paths containing \".\" or \"..\" components or trailing slashes are not supported" path.string .EINVAL)
  else .ok ()

/-! ## Looking entries up -/

section

variable {T : Type}

/-- The key of an entry. -/
abbrev Key := ArakoonEntryId

/-- A program that reads entries. -/
abbrev M (T : Type) := Reads Key (Buffer T) Error

/-- Reads an entry that is there. -/
def get (key : Key) : M T (Buffer T) := Reads.find key .error_not_found

/-- The loop of `do_find_` over the components. An entry that is missing is reported like a name. -/
def walk (path : Path) : Buffer T → List String → M T (Buffer T)
  | buf, [] => pure buf
  | buf, s :: rest =>
    match buf.entry.children.find s with
    | none => .throw (.DoesNotExistException "Path does not exist" path.string .ENOENT)
    | some id => do
      let buf ← Reads.find id (.DoesNotExistException "Path does not exist" path.string .ENOENT)
      walk path buf rest

/-- Looks a path up, from the root entry. -/
def do_find_ (path : Path) : M T (Buffer T) := do
  let buf ← Reads.find .root (.DoesNotExistException "Path does not exist" path.string .ENOENT)
  walk path buf path

/-- Looks up the parent of a path. -/
def find_parent_ (path : Path) : M T (Buffer T) :=
  match validate_path_ path with
  | .error e => .throw e
  | .ok () => do_find_ path.parent_path

/-- The buffer of the parent and its key, which a later attempt of the call uses again. -/
def with_parent_ (path : Path) (pkey : Option Key) : M T (Buffer T × Key) :=
  match pkey with
  | none => do
    let pbuf ← find_parent_ path
    pure (pbuf, pbuf.entry.id)
  | some key => do
    let pbuf ← get key
    pure (pbuf, key)

/-! ## The sequences -/

/-- A sequence of updates. -/
abbrev Seq (T : Type) := List (Update Key (Buffer T))

/-- The sequence sets the value of an entry that exists. -/
def setValue [DecidableEq T] (name : String) (key : Key) (test_and_set : Bool) (newval : T) (oldval : Option T)
    (seq : Seq T) : M T (Seq T) := do
  let cbuf ← get key
  match cbuf.value with
  | none => .throw .archive_exception
  | some value =>
    if test_and_set ∧ oldval ≠ some value then
      .throw (.PreconditionFailedException "Precondition failed: old value does not match expectations" name)
    else
      pure (seq ++ [.assert key (some cbuf), .set key { cbuf with value := some newval }])

/-- `uuid` is what the allocator gives for the new entry. -/
def do_prepare_test_and_set_sequence_ [DecidableEq T] (pbuf : Buffer T) (name : String) (pkey : Key)
    (test_and_set : Bool) (newval : T) (oldval : Option T) (uuid : UUID) : M T (Seq T) :=
  let seq : Seq T := [.assert pkey (some pbuf)]
  match pbuf.entry.children.find name with
  | none =>
    if test_and_set ∧ oldval.isSome then
      .throw (.PreconditionFailedException "Precondition failed: value already present" name)
    else
      let entry : Entry := { id := .uuid uuid, parent_id := some pbuf.entry.id }
      let pentry := pbuf.entry.withChildren (pbuf.entry.children.insert name entry.id)
      pure (seq ++ [.assert pkey (some pbuf), .set pkey (pbuf.update_serialized_entry_ pentry),
        .set entry.id { entry := entry, value := some newval }])
  | some id =>
    if test_and_set ∧ oldval.isNone then
      .throw (.PreconditionFailedException "Precondition failed: value not present" name)
    else setValue name id test_and_set newval oldval seq

/-- The sequence removes an entry without children. -/
def do_prepare_erase_sequence_ (pbuf : Buffer T) (name : String) (pkey : Key) : M T (Seq T) :=
  match pbuf.entry.children.find name with
  | none => .throw (.DoesNotExistException "Entry does not exist " name .ENOENT)
  | some key => do
    let buf ← get key
    if buf.entry.children ≠ [] then
      .throw (.NotEmptyException "Entry still has children " name .ENOTEMPTY)
    else
      let pentry := pbuf.entry.withChildren (pbuf.entry.children.erase name)
      pure [.assert pkey (some pbuf), .assert key (some buf), .set pkey (pbuf.update_serialized_entry_ pentry),
        .delete key]

/-- The entry that the rename overwrites: its value and its removal. -/
def overwrite (entry_to : Entry) (toName : String) : M T (Option T × Seq T) :=
  match entry_to.children.find toName with
  | none => pure (none, [])
  | some old_key => do
    let garbage ← get old_key
    match garbage.value with
    | none => .throw .archive_exception
    | some value => pure (some value, [.delete old_key])

/-- The keys of the parents that a call has found. -/
structure Kept where
  parent_from : Option Key := none
  parent_to : Option Key := none
  deriving DecidableEq, Repr

/-- The sequence moves an entry. -/
def do_prepare_rename_sequence_ (buf_from buf_to : Buffer T) (fromName toName : String) (kept : Kept) :
    M T (Kept × Option T × Seq T) :=
  let parent_from := kept.parent_from.getD buf_from.entry.id
  match buf_from.entry.children.find fromName with
  | none => .throw (.DoesNotExistException "Source path/uuid does not exist" fromName .ENOENT)
  | some entry_id =>
    -- the path based call compares only once it has kept the key of the destination's parent
    if kept.parent_to = some entry_id then
      .throw (.InvalidPathException "source path is prefix of destination path" toName .EPERM)
    else do
      let parent_to := kept.parent_to.getD buf_to.entry.id
      let (ret, seq) ← overwrite buf_to.entry toName
      if parent_from = parent_to then
        let entry_from := buf_from.entry.withChildren ((buf_from.entry.children.erase fromName).insert toName entry_id)
        pure (⟨some parent_from, some parent_to⟩, ret, seq ++ [.assert parent_from (some buf_from),
          .set parent_from (buf_from.update_serialized_entry_ entry_from)])
      else
        let buf_entry ← get entry_id
        let entry_up := { buf_entry.entry with parent_id := some buf_to.entry.id }
        let entry_from := buf_from.entry.withChildren (buf_from.entry.children.erase fromName)
        let entry_to := buf_to.entry.withChildren (buf_to.entry.children.insert toName entry_id)
        pure (⟨some parent_from, some parent_to⟩, ret, seq ++ [.assert parent_from (some buf_from),
          .assert parent_to (some buf_to), .assert entry_id (some buf_entry),
          .set parent_from (buf_from.update_serialized_entry_ entry_from),
          .set parent_to (buf_to.update_serialized_entry_ entry_to),
          .set entry_id (buf_entry.update_serialized_entry_ entry_up)])

end

/-! ## The calls -/

/-- The calls of a client. `alloc n` is the UUID that the allocator gives in attempt `n`. -/
inductive Op (T : Type)
  | set (path : Path) (value : T) (alloc : Nat → UUID)
  | setAt (parent_id : UUID) (name : String) (value : T) (alloc : Nat → UUID)
  | test_and_set (path : Path) (newval : T) (oldval : Option T) (alloc : Nat → UUID)
  | test_and_setAt (parent_id : UUID) (name : String) (newval : T) (oldval : Option T) (alloc : Nat → UUID)
  | test_and_setId (id : UUID) (newval oldval : T)
  | erase (path : Path)
  | eraseAt (parent_id : UUID) (name : String)
  | rename (fromPath toPath : Path)
  | renameAt (from_parent_id : UUID) (from_name : String) (to_parent_id : UUID) (to_name : String)

section

variable {T : Type} [DecidableEq T]

/-- What an attempt gives that keeps the key of one parent. -/
def attempt (pkey : Key) (seq : M T (Seq T)) : M T (Kept × Option T × Seq T) := do
  let seq ← seq
  pure (⟨some pkey, none⟩, none, seq)

/-- An attempt to set the value at a path. -/
def prepare_test_and_set_sequence_ (path : Path) (kept : Kept) (test_and_set : Bool) (newval : T) (oldval : Option T)
    (uuid : UUID) : M T (Kept × Option T × Seq T) := do
  let (pbuf, pkey) ← with_parent_ path kept.parent_from
  attempt pkey (do_prepare_test_and_set_sequence_ pbuf path.filename pkey test_and_set newval oldval uuid)

/-- An attempt to set the value of a child. -/
def prepare_test_and_set_sequence_at (parent_id : UUID) (name : String) (test_and_set : Bool) (newval : T)
    (oldval : Option T) (uuid : UUID) : M T (Kept × Option T × Seq T) := do
  let pbuf ← get (.uuid parent_id)
  attempt (.uuid parent_id)
    (do_prepare_test_and_set_sequence_ pbuf name (.uuid parent_id) test_and_set newval oldval uuid)

/-- The variant that names the entry itself reports a missing key and an old value that does not match
without a name. -/
def prepare_test_and_set_sequence_id (id : UUID) (newval oldval : T) : M T (Kept × Option T × Seq T) := do
  let cbuf ← Reads.find (.uuid id) (.DoesNotExistException "UUID does not exist" (toString id) .ENOENT)
  match cbuf.value with
  | none => .throw .archive_exception
  | some value =>
    if oldval ≠ value then
      .throw (.PreconditionFailedException "Precondition failed: old value does not match expectations" "")
    else
      pure ({}, none, [.assert (.uuid id) (some cbuf), .set (.uuid id) { cbuf with value := some newval }])

/-- An attempt to remove what is at a path. -/
def prepare_erase_sequence_ (path : Path) (kept : Kept) : M T (Kept × Option T × Seq T) := do
  let (pbuf, pkey) ← with_parent_ path kept.parent_from
  attempt pkey (do_prepare_erase_sequence_ pbuf path.filename pkey)

/-- An attempt to remove a child. -/
def prepare_erase_sequence_at (parent_id : UUID) (name : String) : M T (Kept × Option T × Seq T) := do
  let pbuf ← get (.uuid parent_id)
  attempt (.uuid parent_id) (do_prepare_erase_sequence_ pbuf name (.uuid parent_id))

/-- An attempt to move from a path to another. -/
def prepare_rename_sequence_ (fromPath toPath : Path) (kept : Kept) : M T (Kept × Option T × Seq T) :=
  match kept.parent_from, kept.parent_to with
  | none, none => do
    let buf_from ← find_parent_ fromPath
    let buf_to ← find_parent_ toPath
    do_prepare_rename_sequence_ buf_from buf_to fromPath.filename toPath.filename kept
  | none, some _ => .throw (.assertion "!parent_to")
  | some _, none => .throw (.assertion "parent_to")
  | some parent_from, some parent_to => do
    let buf_from ← get parent_from
    let buf_to ← get parent_to
    do_prepare_rename_sequence_ buf_from buf_to fromPath.filename toPath.filename kept

/-- An attempt to move a child. -/
def prepare_rename_sequence_at (from_parent_id : UUID) (from_name : String) (to_parent_id : UUID) (to_name : String) :
    M T (Kept × Option T × Seq T) := do
  let buf_from ← get (.uuid from_parent_id)
  let buf_to ← get (.uuid to_parent_id)
  do_prepare_rename_sequence_ buf_from buf_to from_name to_name
    ⟨some (.uuid from_parent_id), some (.uuid to_parent_id)⟩

/-- One attempt of a call. Names that are equal leave a rename with nothing to do. -/
def Op.prepare : Op T → Kept → Nat → M T (Kept × Option T × Seq T)
  | .set path value alloc, kept, tries => prepare_test_and_set_sequence_ path kept false value none (alloc tries)
  | .setAt parent_id name value alloc, _, tries =>
    prepare_test_and_set_sequence_at parent_id name false value none (alloc tries)
  | .test_and_set path newval oldval alloc, kept, tries =>
    prepare_test_and_set_sequence_ path kept true newval oldval (alloc tries)
  | .test_and_setAt parent_id name newval oldval alloc, _, tries =>
    prepare_test_and_set_sequence_at parent_id name true newval oldval (alloc tries)
  | .test_and_setId id newval oldval, _, _ => prepare_test_and_set_sequence_id id newval oldval
  | .erase path, kept, _ => prepare_erase_sequence_ path kept
  | .eraseAt parent_id name, _, _ => prepare_erase_sequence_at parent_id name
  | .rename fromPath toPath, kept, _ =>
    if fromPath = toPath then pure (kept, none, [])
    else if is_prefix_ fromPath toPath then
      .throw (.InvalidPathException "source path is prefix of destination path" toPath.string .EPERM)
    else prepare_rename_sequence_ fromPath toPath kept
  | .renameAt from_parent_id from_name to_parent_id to_name, kept, _ =>
    if from_parent_id = to_parent_id ∧ from_name = to_name then pure (kept, none, [])
    else prepare_rename_sequence_at from_parent_id from_name to_parent_id to_name

/-- The clients of the hierarchy: every call retries when an assertion fails (`run_sequence`). -/
def service : Service Key (Buffer T) Error (Op T) Kept (Option T) where
  prepare := Op.prepare
  kept := {}
  retry := fun _ _ => true
  maxRetries := 10000
  refused
    | _, _, .assertionFailed => .error_assertion_failed
    | _, _, .notFound => .error_not_found

end

end VolumeDriver.HierarchicalArakoon
