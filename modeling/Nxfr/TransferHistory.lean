/-
The table of past transfers (`nxfr-storage/src/history.rs`): `add` inserts a
row and prunes the table, `list` selects from it, `clear` empties it.

A table is the list of its rows, the newest first; the statements are what
SQLite says of them. SQLite picks the id of a row, and rusqlite refuses an
integer parameter that does not fit in an `i64`. `serde_json` is a parameter.
-/
import Nxfr.History
import Nxfr.Ranking
import Mathlib

namespace Nxfr.Storage

open History Ranking

structure TransferHistoryRecord where
  id : Int
  tsMs : Int
  direction : String
  peerName : String
  peerId : String
  fileCount : UInt32
  totalBytes : UInt64
  status : String
  filePaths : List String
  deriving DecidableEq

/-- A row of `transfer_history`, with the types of its columns. -/
structure HistoryRow where
  id : Int
  tsMs : Int
  direction : String
  peerName : String
  peerId : String
  fileCount : Int
  totalBytes : Int
  status : String
  filePaths : String
  deriving DecidableEq

def maxHistoryRows : Nat := 200

/-- The functions of `serde_json` that are used, on lists of strings. -/
structure Json where
  toString : List String → Option String
  fromStr : String → Option (List String)

inductive StorageError where
  | toSqlConversion
  deriving DecidableEq

/-- What `ORDER BY ts_ms DESC, id DESC` orders by. -/
def HistoryRow.key (row : HistoryRow) : Int ×ₗ Int := toLex (row.tsMs, row.id)

def TransferHistoryRecord.key (record : TransferHistoryRecord) : Int ×ₗ Int := toLex (record.tsMs, record.id)

/-- An unsigned integer as a parameter of a statement. -/
def toSql (n : Nat) : Except StorageError Int := if n < 2 ^ 63 then .ok n else .error .toSqlConversion

structure HistoryDb where
  rows : List HistoryRow
  deriving DecidableEq

section

variable (json : Json)

/-- `SELECT … ORDER BY ts_ms DESC, id DESC LIMIT ?1` -/
def HistoryDb.select (db : HistoryDb) (limit : Nat) : List HistoryRow := (ranked HistoryRow.key db.rows).take limit

/-- `INSERT INTO transfer_history …`, the id being the one SQLite picks. -/
def HistoryDb.insert (db : HistoryDb) (row : HistoryRow) : HistoryDb := ⟨row :: db.rows⟩

/-- `DELETE FROM transfer_history WHERE id NOT IN (SELECT id …)` -/
def HistoryDb.prune (db : HistoryDb) : HistoryDb :=
  ⟨db.rows.filter fun row => decide (row.id ∈ (db.select maxHistoryRows).map (·.id))⟩

/-- `now` is the clock and `id` the id that SQLite picks for the row. -/
def HistoryDb.add (now id : Int) (db : HistoryDb) (record : TransferHistoryRecord) :
    Except StorageError (HistoryDb × Int) := do
  let pathsJson := (json.toString record.filePaths).getD "[]"
  let ts := if record.tsMs > 0 then record.tsMs else now
  let totalBytes ← toSql record.totalBytes.toNat
  let db := db.insert
    { id, tsMs := ts, direction := record.direction, peerName := record.peerName, peerId := record.peerId,
      fileCount := record.fileCount.toNat, totalBytes, status := record.status, filePaths := pathsJson }
  pure (db.prune, id)

/-- A row as `list` reads it. -/
def HistoryRow.record (row : HistoryRow) : TransferHistoryRecord :=
  { id := row.id, tsMs := row.tsMs, direction := row.direction, peerName := row.peerName, peerId := row.peerId,
    fileCount := UInt32.ofInt row.fileCount, totalBytes := UInt64.ofInt row.totalBytes, status := row.status,
    filePaths := (json.fromStr row.filePaths).getD [] }

def HistoryDb.list (db : HistoryDb) (limit : Nat) : Except StorageError (List TransferHistoryRecord) := do
  let fetchLimit := if limit = 0 then maxHistoryRows else limit
  let _ ← toSql fetchLimit
  pure ((db.select fetchLimit).map (HistoryRow.record json))

def HistoryDb.clear (_ : HistoryDb) : HistoryDb := ⟨[]⟩

/-! ## Calls one after another -/

inductive HistoryCall where
  | add (now id : Int) (record : TransferHistoryRecord)
  | clear

def HistoryDb.call (db : HistoryDb) : HistoryCall → HistoryDb
  | .add now id record => match db.add json now id record with
    | .ok (db', _) => db'
    | .error _ => db
  | .clear => db.clear

/-- The record a call adds: with the id of its row, and with the clock where its
timestamp is not positive. An `add` that rusqlite refuses adds none. -/
def HistoryCall.added : HistoryCall → Option TransferHistoryRecord
  | .add now id record =>
    if record.totalBytes.toNat < 2 ^ 63 then
      some { record with id, tsMs := if record.tsMs > 0 then record.tsMs else now }
    else none
  | .clear => none

/-- The records added since the last `clear`, the newest first. -/
def addedSinceClear (records : List TransferHistoryRecord) (c : HistoryCall) : List TransferHistoryRecord := match c with
  | .add .. => c.added.toList ++ records
  | .clear => []

/-- The ids that SQLite picks increase. -/
def IdsIncrease (calls : List HistoryCall) : Prop := ((calls.filterMap HistoryCall.added).map (·.id)).Pairwise (· < ·)

/-- The paths of every added record come back from their JSON. -/
def PathsKept (calls : List HistoryCall) : Prop :=
  ∀ record ∈ calls.filterMap HistoryCall.added,
    ((json.toString record.filePaths).bind json.fromStr) = some record.filePaths

end

/-! ## Rows and records -/

section

variable {json : Json}

/-- The row that a record is stored in. -/
def TransferHistoryRecord.row (json : Json) (record : TransferHistoryRecord) : HistoryRow :=
  { id := record.id, tsMs := record.tsMs, direction := record.direction, peerName := record.peerName,
    peerId := record.peerId, fileCount := record.fileCount.toNat, totalBytes := record.totalBytes.toNat,
    status := record.status, filePaths := (json.toString record.filePaths).getD "[]" }

theorem ofInt_toNat_u32 (a : UInt32) : UInt32.ofInt (a.toNat : Int) = a := by
  have hlt := a.toNat_lt
  have hmod : ((a.toNat : Int) % 2 ^ 32).toNat = a.toNat := by omega
  rw [UInt32.ofInt, hmod, UInt32.ofNat_toNat]

theorem ofInt_toNat_u64 (a : UInt64) : UInt64.ofInt (a.toNat : Int) = a := by
  have hlt := a.toNat_lt
  have hmod : ((a.toNat : Int) % 2 ^ 64).toNat = a.toNat := by omega
  rw [UInt64.ofInt, hmod, UInt64.ofNat_toNat]

theorem row_record {record : TransferHistoryRecord}
    (h : ((json.toString record.filePaths).bind json.fromStr) = some record.filePaths) :
    (record.row json).record json = record := by
  obtain ⟨s, hs, hback⟩ := Option.bind_eq_some_iff.mp h
  simp only [TransferHistoryRecord.row, HistoryRow.record, hs, Option.getD_some, hback, ofInt_toNat_u32,
    ofInt_toNat_u64]

theorem toSql_ok {n : Nat} (h : n < 2 ^ 63) : toSql n = .ok (n : Int) := if_pos h

theorem toSql_error {n : Nat} (h : 2 ^ 63 ≤ n) : toSql n = .error .toSqlConversion := if_neg (by omega)

/-- A call inserts the row of the record it adds, and prunes. -/
theorem call_added {db : HistoryDb} {now id : Int} {record added : TransferHistoryRecord}
    (h : (HistoryCall.add now id record).added = some added) :
    db.call json (.add now id record) = (db.insert (added.row json)).prune := by
  simp only [HistoryCall.added] at h
  split at h
  · rename_i hbytes
    cases h
    simp only [HistoryDb.call, HistoryDb.add, toSql_ok hbytes]
    rfl
  · cases h

theorem call_refused {db : HistoryDb} {now id : Int} {record : TransferHistoryRecord}
    (h : (HistoryCall.add now id record).added = none) : db.call json (.add now id record) = db := by
  simp only [HistoryCall.added] at h
  split at h
  · cases h
  · rename_i hbytes
    simp only [HistoryDb.call, HistoryDb.add, toSql_error (Nat.le_of_not_lt hbytes)]
    rfl

/-! ## The table holds the first of what was added -/

/-- The rows are those of the first records, in some order. -/
structure Holds (json : Json) (db : HistoryDb) (records : List TransferHistoryRecord) : Prop where
  rows : ranked HistoryRow.key db.rows =
    ((ranked TransferHistoryRecord.key records).take maxHistoryRows).map (TransferHistoryRecord.row json)
  ids : (records.map (·.id)).Nodup

theorem Holds.empty : Holds json ⟨[]⟩ [] := ⟨rfl, List.nodup_nil⟩

theorem row_eq_of_key {rows : List HistoryRow} (hids : (rows.map (·.id)).Nodup) :
    ∀ a ∈ rows, ∀ b ∈ rows, a.key = b.key → a = b := by
  intro a ha b hb hkey
  have hid : a.id = b.id := congrArg (fun k => (ofLex k).2) hkey
  exact List.inj_on_of_nodup_map hids ha hb hid

/-- Pruning leaves the rows that are selected. -/
theorem prune_ranked {db : HistoryDb} (hids : (db.rows.map (·.id)).Nodup) :
    ranked HistoryRow.key db.prune.rows = db.select maxHistoryRows := by
  have hranked : ((ranked HistoryRow.key db.rows).map (·.id)).Nodup :=
    ((ranked_perm HistoryRow.key db.rows).map _).nodup_iff.mpr hids
  have hperm : (db.select maxHistoryRows).Perm db.prune.rows := by
    have hfilter := (ranked_perm HistoryRow.key db.rows).filter
      fun row => decide (row.id ∈ (db.select maxHistoryRows).map (·.id))
    rw [HistoryDb.select, filter_mem_take hranked] at hfilter
    exact hfilter
  refine ranked_eq hperm ?_ (row_eq_of_key ?_)
  · exact (ranked_pairwise HistoryRow.key db.rows).sublist (List.take_sublist _ _)
  · exact hids.sublist (List.filter_sublist.map _)

theorem Holds.rows_ids {db : HistoryDb} {records : List TransferHistoryRecord} (h : Holds json db records) :
    (db.rows.map (·.id)).Nodup ∧ ∀ row ∈ db.rows, row.id ∈ records.map (·.id) := by
  have hids : ((ranked HistoryRow.key db.rows).map (·.id)) =
      ((ranked TransferHistoryRecord.key records).take maxHistoryRows).map (·.id) := by
    rw [h.rows, List.map_map]
    rfl
  have hperm := (ranked_perm HistoryRow.key db.rows).map (·.id)
  have hsub : (((ranked TransferHistoryRecord.key records).take maxHistoryRows).map (·.id)).Sublist
      ((ranked TransferHistoryRecord.key records).map (·.id)) := (List.take_sublist _ _).map _
  have hrecords := (ranked_perm TransferHistoryRecord.key records).map (·.id)
  constructor
  · rw [← hperm.nodup_iff, hids]
    exact (hrecords.nodup_iff.mpr h.ids).sublist hsub
  · intro row hrow
    have hmem := hperm.symm.subset (List.mem_map_of_mem hrow)
    rw [hids] at hmem
    exact hrecords.subset (hsub.subset hmem)

theorem Holds.insert {db : HistoryDb} {records : List TransferHistoryRecord} (h : Holds json db records)
    {added : TransferHistoryRecord} (hnew : added.id ∉ records.map (·.id)) :
    Holds json (db.insert (added.row json)).prune (added :: records) := by
  obtain ⟨hnodup, hsubset⟩ := h.rows_ids
  have hids : ((db.insert (added.row json)).rows.map (·.id)).Nodup := by
    refine List.nodup_cons.mpr ⟨?_, hnodup⟩
    intro hmem
    obtain ⟨row, hrow, heq⟩ := List.mem_map.mp hmem
    have hold := hsubset row hrow
    rw [heq] at hold
    exact hnew hold
  refine ⟨?_, List.nodup_cons.mpr ⟨hnew, h.ids⟩⟩
  have hkey : ∀ a : TransferHistoryRecord, (a.row json).key = a.key := fun _ => rfl
  have hrows : ranked HistoryRow.key db.rows =
      (ranked HistoryRow.key (records.map (TransferHistoryRecord.row json))).take maxHistoryRows := by
    rw [h.rows, ranked_map hkey, List.map_take]
  rw [prune_ranked hids, HistoryDb.select, HistoryDb.insert, take_ranked_cons hrows, ← List.map_cons,
    ranked_map hkey, List.map_take]

theorem addedSinceClear_subset (calls : List HistoryCall) :
    ∀ record ∈ after addedSinceClear [] calls, record ∈ calls.filterMap HistoryCall.added := by
  refine after_induction (I := fun calls records => ∀ record ∈ records, record ∈ calls.filterMap HistoryCall.added)
    (by simp) ?_ calls
  intro calls c ih record hrecord
  rw [List.filterMap_append, List.mem_append]
  cases c with
  | clear => cases hrecord
  | add now id r =>
    rcases List.mem_append.mp hrecord with hnew | hold
    · right
      simpa using hnew
    · exact .inl (ih record hold)

theorem Holds.after (calls : List HistoryCall) (hids : IdsIncrease calls) :
    Holds json (after (HistoryDb.call json) ⟨[]⟩ calls) (after addedSinceClear [] calls) := by
  induction calls using List.reverseRecOn with
  | nil => exact .empty
  | append_singleton calls c ih =>
    rw [IdsIncrease, List.filterMap_append, List.map_append, List.pairwise_append] at hids
    obtain ⟨hbefore, -, hlast⟩ := hids
    have hholds := ih hbefore
    rw [after_snoc, after_snoc]
    cases c with
    | clear => exact .empty
    | add now id record =>
      cases hadded : (HistoryCall.add now id record).added with
      | none =>
        rw [call_refused hadded, addedSinceClear, hadded]
        exact hholds
      | some added =>
        have hnew : added.id ∉ (History.after addedSinceClear [] calls).map (·.id) := by
          intro hmem
          obtain ⟨old, hold, heq⟩ := List.mem_map.mp hmem
          have hlt := hlast old.id (List.mem_map_of_mem (addedSinceClear_subset calls old hold)) added.id
            (by simp [hadded])
          omega
        rw [call_added hadded, addedSinceClear, hadded]
        exact hholds.insert hnew

/-- **The table holds the 200 greatest, and `list` reads them back.** After any
calls of `add` and `clear` there is one way to put the records added since the
last `clear` in descending order of timestamp and id. The table holds the first
200 of them, with all their fields, and `list` returns as many of these as its
limit says, or an error for a limit that is not an `i64`. -/
theorem history_exact (json : Json) (calls : List HistoryCall) (hids : IdsIncrease calls)
    (hpaths : PathsKept json calls) :
    ∃ ordered : List TransferHistoryRecord, ordered.Perm (after addedSinceClear [] calls) ∧
      (ordered.Pairwise fun a b => b.key < a.key) ∧
      ((after (HistoryDb.call json) ⟨[]⟩ calls).rows.map (HistoryRow.record json)).Perm (ordered.take 200) ∧
      ∀ limit : Nat,
        (limit < 2 ^ 63 → (after (HistoryDb.call json) ⟨[]⟩ calls).list json limit =
          .ok ((ordered.take 200).take (if limit = 0 then 200 else limit))) ∧
        (2 ^ 63 ≤ limit → (after (HistoryDb.call json) ⟨[]⟩ calls).list json limit = .error .toSqlConversion) := by
  have hholds : Holds json _ _ := Holds.after calls hids
  set db := after (HistoryDb.call json) ⟨[]⟩ calls
  set records := after addedSinceClear [] calls with hrecords
  have hkeys : (records.map (·.key)).Nodup := by
    have hcomp : records.map (·.id) = (records.map (·.key)).map fun k => (ofLex k).2 := by
      rw [List.map_map]
      rfl
    have hids := hholds.ids
    rw [hcomp] at hids
    exact hids.of_map
  have hback : (ranked HistoryRow.key db.rows).map (HistoryRow.record json) =
      (ranked TransferHistoryRecord.key records).take 200 := by
    rw [hholds.rows, List.map_map]
    refine (List.map_congr_left ?_).trans (List.map_id _)
    intro record hrecord
    have hmem := (ranked_perm _ records).subset (List.mem_of_mem_take hrecord)
    exact row_record (hpaths record (addedSinceClear_subset calls record hmem))
  refine ⟨ranked TransferHistoryRecord.key records, ranked_perm _ _, ranked_strict hkeys, ?_, ?_⟩
  · rw [← hback]
    exact ((ranked_perm HistoryRow.key db.rows).map _).symm
  · intro limit
    constructor
    · intro hlimit
      have hfetch : (if limit = 0 then maxHistoryRows else limit) < 2 ^ 63 := by
        split
        · decide
        · exact hlimit
      simp only [HistoryDb.list, toSql_ok hfetch, HistoryDb.select, List.map_take, hback]
      rfl
    · intro hlimit
      have hfetch : 2 ^ 63 ≤ if limit = 0 then maxHistoryRows else limit := by
        rw [if_neg (by omega)]
        exact hlimit
      simp only [HistoryDb.list, toSql_error hfetch]
      rfl

def sampleJson : Json where
  toString paths := if paths = [] then some "[]" else none
  fromStr s := if s = "[]" then some [] else none

def sampleRecord : TransferHistoryRecord :=
  { id := 0, tsMs := 0, direction := "recv", peerName := "phone", peerId := "p1", fileCount := 1, totalBytes := 7,
    status := "complete", filePaths := [] }

/-- Two records with one timestamp, and one whose timestamp is the clock. -/
def sampleCalls : List HistoryCall :=
  [.add 9 1 { sampleRecord with tsMs := 5 }, .add 9 2 sampleRecord, .add 9 3 { sampleRecord with tsMs := 5 }]

theorem history_exact_sample :
    ∃ ordered : List TransferHistoryRecord, ordered.Perm (after addedSinceClear [] sampleCalls) ∧
      (ordered.Pairwise fun a b => b.key < a.key) ∧
      (after (HistoryDb.call sampleJson) ⟨[]⟩ sampleCalls).list sampleJson 2 = .ok ((ordered.take 200).take 2) := by
  obtain ⟨ordered, hperm, horder, -, hlist⟩ := history_exact sampleJson sampleCalls
    (by unfold IdsIncrease; decide) (by unfold PathsKept; decide)
  exact ⟨ordered, hperm, horder, (hlist 2).1 (by decide)⟩

/-- A limit of 2⁶³ does not fit in an `i64`. -/
theorem list_limit_refused :
    (after (HistoryDb.call sampleJson) ⟨[]⟩ sampleCalls).list sampleJson (2 ^ 63) = .error .toSqlConversion ∧
      after addedSinceClear [] sampleCalls ≠ [] := by
  decide

end

end Nxfr.Storage
