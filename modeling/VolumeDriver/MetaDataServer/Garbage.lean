/-
Garbage collection of tables in the metadata server (DataBase.cpp, RocksDataBase.cpp, Table::work_). A
table whose backend namespace is gone asks the database to drop it, by name; the garbage collector drops
the storage of that name later. In between the name may have been opened anew, over the same storage.
-/
import VolumeDriver.Lib.Steps
import Mathlib.Tactic

namespace VolumeDriver.MetaDataServer

open Lib Function

/-! ## The database -/

/-- The role of a table. -/
inductive Role
  | Master
  | Slave
  deriving DecidableEq, Repr

/-- A `Table`, over a `RocksTable`. -/
structure Table where
  nspace : String
  table_ : Nat
  deriving DecidableEq, Repr

/-- The tables and the storage of the server. -/
structure DataBase (K V : Type) where
  /-- The column families, by their `RocksTable`; `none` once it was dropped. -/
  column_family_ : Nat → Option (K → Option V) := fun _ => none
  /-- `RocksDataBase::tables_`. -/
  rocks : String → Option Nat := fun _ => none
  families : Nat := 0
  /-- The `Table` objects, also those that only a client still has. -/
  table : Nat → Option Table := fun _ => none
  role : Nat → Role := fun _ => .Slave
  next : Nat := 0
  tables_ : String → Option Nat := fun _ => none
  /-- The tables to be dropped, with the one whose callback put it there. -/
  garbage_ : List (Nat × Nat) := []
  /-- The tables that found their namespace missing and have not called back yet. -/
  missing : List Nat := []
  /-- The namespaces on the backend. -/
  backend : String → Bool := fun _ => false
  /-- What was acknowledged and may be relied on. -/
  acknowledged : String → K → Option V := fun _ _ => none
  /-- The table that a column family was dropped for. -/
  behalf : Nat → Option Nat := fun _ => none

namespace DataBase

variable {K V : Type}

variable (db : DataBase K V)

/-- `RocksDataBase::open`. -/
def openRocks (nspace : String) : DataBase K V × Nat :=
  match db.rocks nspace with
  | some r => (db, r)
  | none =>
    ({ db with
        column_family_ := update db.column_family_ db.families (some fun _ => none)
        rocks := update db.rocks nspace (some db.families)
        families := db.families + 1 }, db.families)

/-- `RocksDataBase::drop`. -/
def dropRocks (nspace : String) : DataBase K V :=
  match db.rocks nspace with
  | some r => { db with column_family_ := update db.column_family_ r none, rocks := update db.rocks nspace none }
  | none => db

/-- A new `Table`. -/
def addTable (nspace : String) (r : Nat) : DataBase K V :=
  { db with
    table := update db.table db.next (some ⟨nspace, r⟩)
    role := update db.role db.next .Slave
    next := db.next + 1
    tables_ := update db.tables_ nspace (some db.next) }

/-- A table over the storage of the name. -/
def create_table_ (nspace : String) : DataBase K V × Nat :=
  ((db.openRocks nspace).1.addTable nspace (db.openRocks nspace).2, (db.openRocks nspace).1.next)

/-- The table of a name, a new one if there is none. -/
def open_ (nspace : String) : DataBase K V × Nat :=
  match db.tables_ nspace with
  | some t => (db, t)
  | none => db.create_table_ nspace

/-- Drops a table and its storage. -/
def drop (nspace : String) : DataBase K V :=
  { db.dropRocks nspace with
    tables_ := update db.tables_ nspace none
    acknowledged := update db.acknowledged nspace fun _ => none }

/-- The names that the callback and the collector go by. -/
def nspace (db : DataBase K V) (t : Nat) : Option String := (db.table t).map (·.nspace)

/-- A call through a table that changes its records. It throws, and changes nothing, if there is no column
family any more or the table is a slave. -/
def modifyRecords (t : Nat) (f : (K → Option V) → K → Option V) : DataBase K V :=
  match db.table t, db.role t with
  | some ⟨nspace, r⟩, .Master =>
    match db.column_family_ r with
    | some records =>
      { db with
        column_family_ := update db.column_family_ r (some (f records))
        acknowledged := update db.acknowledged nspace (f (db.acknowledged nspace)) }
    | none => db
  | _, _ => db

/-- A record without value is a deletion. -/
def multiset [DecidableEq K] (db : DataBase K V) (t : Nat) (records : List (K × Option V)) : DataBase K V :=
  db.modifyRecords t fun m => records.foldl (fun m p => update m p.1 p.2) m

/-- Removes all records. -/
def clear (t : Nat) : DataBase K V := db.modifyRecords t fun _ _ => none

/-- `none` if it throws. -/
def multiget (t : Nat) (key : K) : Option (Option V) :=
  (db.table t).bind fun table => (db.column_family_ table.table_).map (· key)

/-- The role is set. -/
def set_role (t : Nat) (role : Role) : DataBase K V :=
  { db with role := update db.role t role }

/-- `Table::work_` up to the point where the lock is released. Left out are the metadata that it builds, and
that `make_mdstore_` opens the table of the name anew if it was dropped. -/
def work_ (t : Nat) : DataBase K V :=
  match db.table t, db.role t with
  | some ⟨nspace, _⟩, .Slave =>
    if db.backend nspace then db
    else { db with missing := t :: db.missing, acknowledged := update db.acknowledged nspace fun _ => none }
  | _, _ => db

/-- The drop callback. -/
def schedule_garbage_ (t : Nat) : DataBase K V :=
  match db.nspace t with
  | some nspace =>
    match db.tables_ nspace with
    | some t' =>
      { db with
        missing := db.missing.erase t, garbage_ := db.garbage_ ++ [(t', t)], tables_ := update db.tables_ nspace none }
    | none => { db with missing := db.missing.erase t }
  | none => db

/-- One turn of the inner loop. -/
def collect_garbage_ (db : DataBase K V) : DataBase K V :=
  match db.garbage_ with
  | [] => db
  | (t, cause) :: rest =>
    match (db.nspace t).bind db.rocks with
    | some r =>
      { db.dropRocks ((db.nspace t).getD "") with garbage_ := rest, behalf := update db.behalf r (some cause) }
    | none => { db with garbage_ := rest }

/-! ## Runs -/

/-- What clients, tables, the collector and the backend do. -/
inductive Action (K V : Type)
  | open_ (nspace : String)
  | drop (nspace : String)
  | multiset (t : Nat) (records : List (K × Option V))
  | clear (t : Nat)
  | set_role (t : Nat) (role : Role)
  | work_ (t : Nat)
  | schedule_garbage_ (t : Nat)
  | collect_garbage_
  | setNamespace (nspace : String) (exist : Bool)

/-- The database after an action. -/
def step [DecidableEq K] (db : DataBase K V) : Action K V → DataBase K V
  | .open_ nspace => (db.open_ nspace).1
  | .drop nspace => db.drop nspace
  | .multiset t records => db.multiset t records
  | .clear t => db.clear t
  | .set_role t role => db.set_role t role
  | .work_ t => db.work_ t
  | .schedule_garbage_ t => if t ∈ db.missing then db.schedule_garbage_ t else db
  | .collect_garbage_ => db.collect_garbage_
  | .setNamespace nspace exist => { db with backend := update db.backend nspace exist }

/-- What was acknowledged is found through the table that `open` returns, and no table has lost its
storage for the sake of an earlier one. -/
structure Kept (db : DataBase K V) : Prop where
  found : ∀ nspace key v, db.acknowledged nspace key = some v →
    (db.open_ nspace).1.multiget (db.open_ nspace).2 key = some (some v)
  own : ∀ t table cause, db.table t = some table → db.behalf table.table_ = some cause → t ≤ cause

/-- A check has found the namespace missing, and the storage was not dropped yet. -/
def Doomed (db : DataBase K V) (nspace : Option String) : Prop :=
  (∃ t ∈ db.missing, db.nspace t = nspace) ∨ ∃ p ∈ db.garbage_, db.nspace p.1 = nspace

instance (db : DataBase K V) (nspace : Option String) : Decidable (db.Doomed nspace) :=
  inferInstanceAs (Decidable (_ ∨ _))

/-- A name that is doomed gets no new table and no new records, and only the table that is open under a
name finds that its namespace is missing. -/
def Careful : Action K V → Prop
  | .open_ nspace => db.tables_ nspace = none → ¬db.Doomed (some nspace)
  | .multiset t _ => ¬db.Doomed (db.nspace t)
  | .work_ t => ∀ nspace ∈ db.nspace t, db.backend nspace = true ∨ db.tables_ nspace = none ∨ db.tables_ nspace = some t
  | _ => True

/-! ## The invariant -/

/-- What is relied on is stored, under a name that is not doomed. -/
def Acked (db : DataBase K V) : Prop := ∀ n key v, db.acknowledged n key = some v → ¬db.Doomed (some n) ∧
  ∃ r records, db.rocks n = some r ∧ db.column_family_ r = some records ∧ records key = some v

/-- Tables and their storage agree, and the doomed ones are not relied on. -/
structure Inv (db : DataBase K V) : Prop where
  below : ∀ t table, db.table t = some table → t < db.next ∧ table.table_ < db.families
  opened : ∀ n t, db.tables_ n = some t →
    ∃ table, db.table t = some table ∧ table.nspace = n ∧ db.rocks n = some table.table_
  latest : ∀ n t, db.tables_ n = some t → ∀ t' table, db.table t' = some table → table.nspace = n → t' ≤ t
  stored : ∀ n r, db.rocks n = some r → db.column_family_ r ≠ none ∧ r < db.families ∧ db.behalf r = none
  distinct : ∀ n n' r, db.rocks n = some r → db.rocks n' = some r → n = n'
  alive : ∀ t table, db.table t = some table → db.column_family_ table.table_ ≠ none →
    db.rocks table.nspace = some table.table_
  acked : db.Acked
  garbage : ∀ p ∈ db.garbage_, p.1 = p.2 ∧ ∃ table, db.table p.1 = some table ∧ db.tables_ table.nspace = none ∧
    ∀ t' table', db.table t' = some table' → table'.nspace = table.nspace → t' ≤ p.1
  missing : ∀ t ∈ db.missing, ∃ table, db.table t = some table ∧
    (db.tables_ table.nspace = none ∨ db.tables_ table.nspace = some t)
  own : ∀ t table cause, db.table t = some table → db.behalf table.table_ = some cause → t ≤ cause
  fresh : ∀ r, db.families ≤ r → db.behalf r = none

variable {db db' : DataBase K V}

theorem doomed_iff {n : String} : db.Doomed (some n) ↔
    (∃ t ∈ db.missing, ∃ table, db.table t = some table ∧ table.nspace = n) ∨
      ∃ p ∈ db.garbage_, ∃ table, db.table p.1 = some table ∧ table.nspace = n := by
  simp [Doomed, nspace, Option.map_eq_some_iff]

theorem Acked.congr (h : db.Acked) (ha : db'.acknowledged = db.acknowledged) (hr : db'.rocks = db.rocks)
    (hf : db'.column_family_ = db.column_family_) (hd : ∀ n, db'.Doomed (some n) → db.Doomed (some n)) : db'.Acked := by
  intro n key v hv
  rw [ha] at hv
  obtain ⟨hnot, hrest⟩ := h n key v hv
  exact ⟨fun hn => hnot (hd n hn), by rwa [hr, hf]⟩

theorem found_of_foldl [DecidableEq K] {key : K} {v : V} : ∀ (records : List (K × Option V)) {m m' : K → Option V},
    records.foldl (fun m p => update m p.1 p.2) m key = some v → (m key = some v → m' key = some v) →
      records.foldl (fun m p => update m p.1 p.2) m' key = some v
  | [], _, _, hv, hm => hm hv
  | p :: records, m, m', hv, hm => by
    refine found_of_foldl records hv fun hkey => ?_
    by_cases hp : key = p.1
    · simpa [hp] using hkey
    · simpa [hp] using hm (by simpa [hp] using hkey)

namespace Inv

variable (h : Inv db)

include h

theorem forget (n : String) : Inv { db with acknowledged := update db.acknowledged n fun _ => none } := by
  refine { h with acked := ?_ }
  intro m key v hv
  by_cases hm : m = n
  · simp [hm] at hv
  · exact h.acked m key v (by simpa [update_apply, hm] using hv)

variable {n : String} {t : Nat}

theorem dropRocks (hn : db.tables_ n = none) (ha : ∀ key, db.acknowledged n key = none) : Inv (db.dropRocks n) := by
  unfold DataBase.dropRocks
  split
  · next r hr =>
    refine { h with opened := ?_, stored := ?_, distinct := ?_, alive := ?_, acked := ?_ }
    case refine_5 =>
      intro m key v hv
      obtain ⟨hd, r', records, hr', hrec, hv'⟩ := h.acked m key v hv
      have hm : m ≠ n := by rintro rfl; simp [ha] at hv
      have hne : r' ≠ r := fun heq => hm (h.distinct m n r (heq ▸ hr') hr)
      exact ⟨hd, r', records, by simp [hm, hr'], by simp [hne, hrec], hv'⟩
    all_goals simp only [update_apply]
    all_goals grind [Inv]
  · exact h

theorem drop (n : String) : Inv (db.drop n) := by
  have hclosed : Inv { db with tables_ := update db.tables_ n none } := by
    refine { h with opened := ?_, latest := ?_, garbage := ?_, missing := ?_ }
    all_goals simp only [update_apply]
    all_goals grind [Inv]
  have hdrop := (hclosed.forget n).dropRocks (n := n) (by simp) (by simp)
  unfold DataBase.drop
  unfold DataBase.dropRocks at hdrop ⊢
  cases hr : db.rocks n <;> simpa only [hr] using hdrop

theorem modifyRecords {f : (K → Option V) → K → Option V} (hf : ∀ m m' key v, f m key = some v →
      (m key = some v → m' key = some v) → f m' key = some v)
    (hd : ¬db.Doomed (db.nspace t) ∨ ∀ m key, f m key = none) : Inv (db.modifyRecords t f) := by
  unfold DataBase.modifyRecords
  split
  · next n r ht _ =>
    split
    · next records hrec =>
      have hr : db.rocks n = some r := h.alive t _ ht (by simp [hrec])
      refine { h with stored := ?_, alive := ?_, acked := ?_ }
      case refine_3 =>
        intro m key v hv
        by_cases hm : m = n
        · subst hm
          simp only [update_self] at hv
          have hnot : ¬db.Doomed (some m) := by
            rcases hd with hd | hd
            · simpa [DataBase.nspace, ht] using hd
            · simp [hd] at hv
          refine ⟨hnot, r, f records, hr, by simp, hf _ _ key v hv fun hkey => ?_⟩
          obtain ⟨-, r', records', hr', hrec', hv'⟩ := h.acked m key v hkey
          grind
        · obtain ⟨hnot, r', records', hr', hrec', hv'⟩ := h.acked m key v (by simpa [hm] using hv)
          have hne : r' ≠ r := fun heq => hm (h.distinct m n r (heq ▸ hr') hr)
          exact ⟨hnot, r', records', hr', by simp [hne, hrec'], hv'⟩
      all_goals simp only [update_apply]
      all_goals grind [Inv]
    · exact h
  · exact h

theorem work_ (hc : ∀ n ∈ db.nspace t, db.backend n = true ∨ db.tables_ n = none ∨ db.tables_ n = some t) :
    Inv (db.work_ t) := by
  unfold DataBase.work_
  split
  · next n r ht _ =>
    split
    · exact h
    · next hgone =>
      have hopen := hc n (by simp [DataBase.nspace, ht])
      refine { h.forget n with acked := ?_, missing := ?_ }
      · intro m key v hv
        obtain ⟨hnot, hrest⟩ := (h.forget n).acked m key v hv
        refine ⟨?_, hrest⟩
        simp only [doomed_iff] at hnot ⊢
        grind
      · grind [Inv]
  · exact h

theorem schedule_garbage_ (ht : t ∈ db.missing) : Inv (db.schedule_garbage_ t) := by
  obtain ⟨table, htable, hopen⟩ := h.missing t ht
  have hsub : ∀ x ∈ db.missing.erase t, x ∈ db.missing := fun x => List.mem_of_mem_erase
  have hname : db.nspace t = some table.nspace := by simp [DataBase.nspace, htable]
  unfold DataBase.schedule_garbage_
  rw [hname]
  dsimp only
  split
  · next t' ht' =>
    -- the table that is open under the name is the one that calls
    obtain rfl : t' = t := by simpa [ht'] using hopen
    refine { h with opened := ?_, latest := ?_, acked := ?_, garbage := ?_, missing := ?_ }
    case refine_3 => exact h.acked.congr rfl rfl rfl fun n => by simp only [doomed_iff]; grind
    case refine_4 =>
      intro p hp
      have hlatest := h.latest _ _ ht'
      simp only [update_apply]
      rcases List.mem_append.1 hp with hp | hp
      · obtain ⟨heq, tb, htb, hclosed, hrest⟩ := h.garbage p hp
        exact ⟨heq, tb, htb, by simp [hclosed], hrest⟩
      · obtain rfl := List.mem_singleton.1 hp
        exact ⟨rfl, table, htable, if_pos rfl, hlatest⟩
    all_goals simp only [update_apply]
    all_goals grind [Inv]
  · refine { h with acked := ?_, missing := fun x hx => h.missing x (hsub x hx) }
    exact h.acked.congr rfl rfl rfl fun n => by simp only [doomed_iff]; grind

theorem collect_garbage_ : Inv db.collect_garbage_ := by
  unfold DataBase.collect_garbage_
  split
  · exact h
  · next t cause rest hg =>
    obtain ⟨heq, table, htable, hclosed, hlatest⟩ := h.garbage (t, cause) (by simp [hg])
    have hname : db.nspace t = some table.nspace := by simp [DataBase.nspace, htable]
    have hnone : ∀ key, db.acknowledged table.nspace key = none := by
      intro key
      by_contra hsome
      obtain ⟨v, hv⟩ := Option.ne_none_iff_exists'.1 hsome
      exact (h.acked _ key v hv).1 (doomed_iff.2 (.inr ⟨(t, cause), by simp [hg], table, htable, rfl⟩))
    have hrest : ∀ p ∈ rest, p ∈ db.garbage_ := fun p hp => by simp [hg, hp]
    have hdrop := h.dropRocks hclosed hnone
    rw [hname]
    split
    · next r hr =>
      change db.rocks table.nspace = some r at hr
      rw [Option.getD_some]
      unfold DataBase.dropRocks at hdrop ⊢
      rw [hr] at hdrop ⊢
      refine { hdrop with stored := ?_, acked := ?_, garbage := ?_, own := ?_, fresh := ?_ }
      · have := hdrop.stored
        grind
      · exact hdrop.acked.congr rfl rfl rfl fun n => by simp only [doomed_iff]; grind
      · exact fun p hp => hdrop.garbage p (hrest p hp)
      · -- a table over this storage has the name, and is not younger
        intro t' table' cause' htable' hcause
        simp only [update_apply] at htable' hcause
        by_cases hfam : table'.table_ = r
        · have hrocks := h.alive t' table' htable' (by rw [hfam]; exact (h.stored _ r hr).1)
          have hsame := h.distinct _ _ r (hfam ▸ hrocks) hr
          have hle := hlatest t' table' htable' hsame
          simp only [hfam, if_true, Option.some.injEq] at hcause
          omega
        · exact h.own t' table' cause' htable' (by simpa [hfam] using hcause)
      · grind [Inv]
    · refine { h with acked := ?_, garbage := fun p hp => h.garbage p (hrest p hp) }
      exact h.acked.congr rfl rfl rfl fun n => by simp only [doomed_iff]; grind

theorem openRocks (n : String) : Inv (db.openRocks n).1 ∧ (db.openRocks n).1.rocks n = some (db.openRocks n).2 := by
  unfold DataBase.openRocks
  split
  · next r hr => exact ⟨h, hr⟩
  · next hr =>
    refine ⟨{ h with below := ?_, opened := ?_, stored := ?_, distinct := ?_, alive := ?_, acked := ?_, fresh := ?_ },
      by simp⟩
    case refine_6 =>
      intro m key v hv
      obtain ⟨hnot, r, records, hr', hrec, hv'⟩ := h.acked m key v hv
      have hm : m ≠ n := by rintro rfl; simp [hr] at hr'
      have hne : r ≠ db.families := (h.stored m r hr').2.1.ne
      exact ⟨hnot, r, records, by simp [hm, hr'], by simp [hne, hrec], hv'⟩
    all_goals simp only [update_apply]
    all_goals grind [Inv]

theorem addTable {r : Nat} (hr : db.rocks n = some r) (hnot : ¬db.Doomed (some n)) : Inv (db.addTable n r) := by
  rw [doomed_iff] at hnot
  constructor
  case acked =>
    refine h.acked.congr rfl rfl rfl fun n => ?_
    simp only [doomed_iff, DataBase.addTable, update_apply]
    grind [Inv]
  case opened =>
    intro m t ht
    simp only [DataBase.addTable, update_apply] at ht ⊢
    by_cases hm : m = n
    · obtain rfl : db.next = t := by simpa [hm] using ht
      exact ⟨⟨n, r⟩, if_pos rfl, hm.symm, hm ▸ hr⟩
    · obtain ⟨table, htable, hrest⟩ := h.opened m t (by simpa [hm] using ht)
      exact ⟨table, by rw [if_neg (h.below t table htable).1.ne, htable], hrest⟩
  all_goals simp only [DataBase.addTable, update_apply]
  all_goals grind [Inv]

theorem open_ (hc : db.tables_ n = none → ¬db.Doomed (some n)) : Inv (db.open_ n).1 := by
  unfold DataBase.open_
  split
  · exact h
  · next hnone =>
    obtain ⟨hinv, hr⟩ := h.openRocks n
    refine hinv.addTable hr ?_
    unfold DataBase.openRocks
    split <;> exact hc hnone

theorem step [DecidableEq K] {a : Action K V} (hc : db.Careful a) : Inv (db.step a) := by
  cases a with
  | open_ n => exact h.open_ hc
  | drop n => exact h.drop n
  | multiset t records =>
    exact h.modifyRecords (fun m m' key v hv hm => found_of_foldl records hv hm) (.inl hc)
  | clear t => exact h.modifyRecords (fun _ _ _ _ hv => by simp at hv) (.inr fun _ _ => rfl)
  | set_role t role => exact { h with }
  | work_ t => exact h.work_ hc
  | schedule_garbage_ t =>
    show Inv (if t ∈ db.missing then db.schedule_garbage_ t else db)
    split
    · next ht => exact h.schedule_garbage_ ht
    · exact h
  | collect_garbage_ => exact h.collect_garbage_
  | setNamespace n exist => exact { h with }

theorem kept : Kept db := by
  refine ⟨fun n key v hv => ?_, h.own⟩
  obtain ⟨-, r, records, hr, hrec, hkey⟩ := h.acked n key v hv
  unfold DataBase.open_
  split
  · next t ht =>
    obtain ⟨table, htable, -, hrocks⟩ := h.opened n t ht
    obtain rfl : r = table.table_ := by simpa [hr] using hrocks
    simp [multiget, htable, hrec, hkey]
  · simp [create_table_, DataBase.openRocks, hr, DataBase.addTable, multiget, hrec, hkey]

end Inv

theorem inv_new (backend : String → Bool) : Inv ({ backend } : DataBase K V) := by
  constructor
  case acked => intro n key v hv; simp at hv
  all_goals simp

/-- In every run in which doomed names are left alone, no table that is in use is dropped. -/
theorem tables_in_use_kept [DecidableEq K] (backend : String → Bool) (as : List (Action K V))
    (h : Each step Careful { backend } as) : Each step (fun db a => Kept (db.step a)) { backend } as :=
  each_imp Inv (fun _ _ hdb hc => ⟨(hdb.step hc).kept, hdb.step hc⟩) (inv_new backend) h

/-- The namespace goes, the garbage is collected, and the name is opened anew. -/
theorem reopened_later_kept : Each step (fun db a => Kept (db.step a)) ({} : DataBase Nat Nat)
    [.open_ "vol", .work_ 0, .schedule_garbage_ 0, .collect_garbage_, .setNamespace "vol" true, .open_ "vol",
      .set_role 1 .Master, .multiset 1 [(1, some 5)]] := by
  refine tables_in_use_kept _ _
    ⟨fun _ => by decide, ?_, trivial, trivial, trivial, fun _ => by decide, trivial, ?_, trivial⟩
  · rintro n ⟨⟩
    exact .inr (.inr rfl)
  · unfold Careful
    decide

/-- The name is opened anew before the garbage is collected. -/
theorem reopened_table_dropped :
    let db := runs step ({} : DataBase Nat Nat) [.open_ "vol", .work_ 0, .schedule_garbage_ 0, .setNamespace "vol" true,
      .open_ "vol", .set_role 1 .Master, .multiset 1 [(1, some 5)], .collect_garbage_]
    db.tables_ "vol" = some 1 ∧ db.acknowledged "vol" 1 = some 5 ∧ db.multiget 1 1 = none ∧ ¬Kept db := by
  refine ⟨rfl, rfl, rfl, fun h => ?_⟩
  exact absurd (h.own 1 ⟨"vol", 0⟩ 0 rfl rfl) (by decide)

end DataBase

end VolumeDriver.MetaDataServer
