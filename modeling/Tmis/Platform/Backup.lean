import Tmis.Lib.Overlay
import Tmis.Lib.PyText
import Tmis.Lib.Store

/-!
# Backups and restores

`BackupEngine` writes the files it is handed to an object store, all of them or those whose checksum
changed since the backup below; `RestoreEngine` walks down from a backup to the full one it rests on
and puts the entries on top of each other.

* `BackupStorage` — the port of the object store;
* `createFullBackup`, `createIncrementalBackup`, `verifyIntegrity` — the backup engine;
* `resolveChain`, `resolveManifest`, `dryRun`, `restore` — the restore engine;
* `Operation`, `step` — the operations that write.
-/

namespace Tmis.Platform

open Tmis.Lib

abbrev Bytes := List UInt8

/-- A `BackupStoragePort`: an object that was written reads as it was last written. -/
structure BackupStorage where
  State : Type
  writeObject : State → String → Bytes → State
  readObject : State → String → Except PyException Bytes
  read_write : ∀ s key data key', readObject (writeObject s key data) key' =
    if key' = key then .ok data else readObject s key'

/-- The objects in a dictionary. -/
def BackupStorage.memory : BackupStorage where
  State := Dict String Bytes
  writeObject s key data := s.set key data
  readObject s key := match s.get key with
    | none => .error ⟨"FileNotFoundError", key⟩
    | some data => .ok data
  read_write s key data key' := by
    by_cases h : key' = key <;> simp [Dict.get_set, h]

inductive BackupType where
  | full | incremental
  deriving DecidableEq

structure BackupManifestEntry where
  path : String
  checksum : String
  sizeBytes : ℕ
  storageKey : String
  deriving DecidableEq

structure BackupRecord where
  id : String
  firmId : String
  type : BackupType
  entries : List BackupManifestEntry := []
  baseBackupId : Option String := none
  deriving DecidableEq

structure RestorePlan where
  backupId : String
  files : List String := []
  totalSizeBytes : ℕ := 0
  warnings : List String := []
  deriving DecidableEq

/-- The files handed to a backup: their contents, by path. -/
abbrev Files := Dict String Bytes

/-- The object store and the record store, which the two engines share. -/
structure Backups (storage : BackupStorage) where
  objects : storage.State
  records : Store String BackupRecord BackupRecord.id := ∅

/-! ### The backup engine -/

section Backup

variable {storage : BackupStorage} (checksum : Bytes → String)

/-- `f"{firm_id}/{backup_id}/{path}"`. -/
def storageKey (firmId backupId path : String) : String := firmId ++ "/" ++ backupId ++ "/" ++ path

/-- The entry `_write_entry` returns. -/
def manifestEntry (firmId backupId path : String) (data : Bytes) : BackupManifestEntry :=
  { path, checksum := checksum data, sizeBytes := data.length
    storageKey := storageKey firmId backupId path }

/-- `_write_entry` for each of the files. -/
def writeEntries (firmId backupId : String) :
    List (String × Bytes) → storage.State → List BackupManifestEntry × storage.State
  | [], objects => ([], objects)
  | (path, data) :: files, objects =>
      let objects := storage.writeObject objects (storageKey firmId backupId path) data
      let (entries, objects) := writeEntries firmId backupId files objects
      (manifestEntry checksum firmId backupId path data :: entries, objects)

/-- `create_full_backup`, with the identifier it draws. -/
def createFullBackup (s : Backups storage) (firmId : String) (files : Files) (backupId : String) :
    BackupRecord × Backups storage :=
  let (entries, objects) := writeEntries checksum firmId backupId files.entries s.objects
  let record : BackupRecord := { id := backupId, firmId, type := .full, entries }
  (record, { objects, records := s.records.save record })

/-- `{entry.path: entry.checksum for entry in base.entries}`. -/
def baseChecksums (base : BackupRecord) : Dict String String :=
  base.entries.foldl (fun d entry => d.set entry.path entry.checksum) ∅

/-- `create_incremental_backup`, with the identifier it draws. -/
def createIncrementalBackup (s : Backups storage) (firmId baseBackupId : String) (files : Files)
    (backupId : String) : Except PyException (BackupRecord × Backups storage) :=
  match s.records.get baseBackupId with
  | none => .error (valueError ("base backup " ++ baseBackupId ++ " not found"))
  | some base =>
      let changed := files.filter fun path data => (baseChecksums base).get path ≠ some (checksum data)
      let (entries, objects) := writeEntries checksum firmId backupId changed.entries s.objects
      let record : BackupRecord :=
        { id := backupId, firmId, type := .incremental, entries, baseBackupId := some baseBackupId }
      .ok (record, { objects, records := s.records.save record })

def verifyIntegrity (s : Backups storage) (backupId : String) : Except PyException Bool :=
  match s.records.get backupId with
  | none => .ok false
  | some record => record.entries.allM fun entry => do
      let data ← storage.readObject s.objects entry.storageKey
      return checksum data = entry.checksum

end Backup

/-! ### The restore engine -/

section Restore

variable {storage : BackupStorage} (checksum : Bytes → String) (s : Backups storage)

/-- The `while` loop of `_resolve_manifest`; `none` if it goes on for more than `fuel` rounds. -/
def resolveChain : ℕ → Option String → List BackupRecord → Option (Except PyException (List BackupRecord))
  | _, none, chain => some (.ok chain)
  | 0, some _, _ => none
  | fuel + 1, some currentId, chain =>
      match s.records.get currentId with
      | none => some (.error (valueError ("backup " ++ currentId ++ " not found")))
      | some record => resolveChain fuel record.baseBackupId (chain ++ [record])

/-- The entries of one record, written into the manifest. -/
def applyEntries (manifest : Dict String BackupManifestEntry) (record : BackupRecord) :
    Dict String BackupManifestEntry :=
  record.entries.foldl (fun manifest entry => manifest.set entry.path entry) manifest

/-- `_resolve_manifest`. -/
def resolveManifest (fuel : ℕ) (backupId : String) :
    Option (Except PyException (Dict String BackupManifestEntry)) :=
  (resolveChain s fuel (some backupId) []).map fun result =>
    result.map fun chain => chain.reverse.foldl applyEntries ∅

def dryRun (fuel : ℕ) (backupId : String) : Option (Except PyException RestorePlan) :=
  (resolveManifest s fuel backupId).map fun result =>
    result.map fun manifest =>
      { backupId, files := manifest.keys.insertionSort (· ≤ ·)
        totalSizeBytes := manifest.values.foldl (fun n entry => n + entry.sizeBytes) 0 }

/-- The loop of `restore` over the manifest. -/
def readEntries (backupId : String) :
    List (String × BackupManifestEntry) → Files → Except PyException Files
  | [], restored => .ok restored
  | (path, entry) :: entries, restored => do
      let data ← storage.readObject s.objects entry.storageKey
      if checksum data ≠ entry.checksum then
        .error (valueError ("checksum mismatch restoring " ++ path ++ " (backup " ++ backupId ++ ")"))
      else readEntries backupId entries (restored.set path data)

def restore (fuel : ℕ) (backupId : String) : Option (Except PyException Files) :=
  (resolveManifest s fuel backupId).map fun result => do
    let manifest ← result
    readEntries checksum s backupId manifest.entries ∅

end Restore

/-! ### Runs -/

/-- A call of the backup engine, with the identifier `uuid4` draws in it. -/
inductive Operation where
  | full (firmId : String) (files : Files) (backupId : String)
  | incremental (firmId baseBackupId : String) (files : Files) (backupId : String)

/-- The identifier drawn. -/
def Operation.drawn : Operation → String
  | .full _ _ backupId => backupId
  | .incremental _ _ _ backupId => backupId

def step {storage : BackupStorage} (checksum : Bytes → String) (s : Backups storage) :
    Operation → Backups storage
  | .full firmId files backupId => (createFullBackup checksum s firmId files backupId).2
  | .incremental firmId baseBackupId files backupId =>
      afterCall s ((createIncrementalBackup checksum s firmId baseBackupId files backupId).map Prod.snd)

/-- What `uuid4` is relied on for: the identifier is that of no backup, and it occurs in no key that
was written before. -/
structure DrawsNew {storage : BackupStorage} (s : Backups storage) (op : Operation) : Prop where
  new_id : s.records.get op.drawn = none
  new_text : ∀ record ∈ s.records.values, ∀ entry ∈ record.entries,
    occursIn op.drawn entry.storageKey = false

instance {storage : BackupStorage} (s : Backups storage) (op : Operation) : Decidable (DrawsNew s op) :=
  decidable_of_iff (s.records.get op.drawn = none ∧ ∀ record ∈ s.records.values,
      ∀ entry ∈ record.entries, occursIn op.drawn entry.storageKey = false)
    ⟨fun h => ⟨h.1, h.2⟩, fun h => ⟨h.new_id, h.new_text⟩⟩

end Tmis.Platform
