import Tmis.Platform.Archive

/-!
# Backups of several firms

An incremental backup rests on whatever backup its caller names.  As long as that is one of its own firm,
restoring it gives what was handed to backups of the firm.

* `BaseOfFirm` — an incremental backup is made on a backup of its firm;
* `FirmChains`, `firmChains_step` — then backups rest on backups of their firms;
* `Handed`, `restore_handed` — what is restored was handed to a backup of the firm;
* `other_firm_restored` — otherwise it may have been handed to another firm.
-/

namespace Tmis.Platform

open Tmis.Lib

variable {storage : BackupStorage} {checksum : Bytes → String} {s : Backups storage} {archive : Archive}

/-- A call for an incremental backup names a backup of its firm, if it names one. -/
def BaseOfFirm (s : Backups storage) : Operation → Prop
  | .full .. => True
  | .incremental firmId baseBackupId _ _ => ∀ base ∈ s.records.get baseBackupId, base.firmId = firmId

instance (s : Backups storage) : ∀ op, Decidable (BaseOfFirm s op)
  | .full .. => isTrue trivial
  | .incremental firmId baseBackupId _ _ =>
      inferInstanceAs (Decidable (∀ base ∈ s.records.get baseBackupId, base.firmId = firmId))

/-- The file was handed to a backup of the firm. -/
def Handed (s : Backups storage) (archive : Archive) (firmId path : String) (data : Bytes) : Prop :=
  ∃ id record g, s.records.get id = some record ∧ record.firmId = firmId ∧ archive.get id = some g ∧
    g.given.get path = some data

/-! ### Chains -/

/-- Backups rest on backups of their firms. -/
def FirmChains (s : Backups storage) : Prop :=
  ∀ id record baseBackupId, s.records.get id = some record → record.baseBackupId = some baseBackupId →
    ∃ base, s.records.get baseBackupId = some base ∧ base.firmId = record.firmId

lemma firmChains_empty (objects : storage.State) : FirmChains { objects } := fun _ _ _ h => nomatch h

/-- A new record that rests on one of its firm. -/
lemma FirmChains.save (h : FirmChains s) (objects : storage.State) {new : BackupRecord}
    (hnew : s.records.get new.id = none) (hbase : ∀ baseBackupId, new.baseBackupId = some baseBackupId →
      ∃ base, s.records.get baseBackupId = some base ∧ base.firmId = new.firmId) :
    FirmChains { objects, records := s.records.save new } := by
  have hkept {id : String} {firmId : String} :
      (∃ base, s.records.get id = some base ∧ base.firmId = firmId) →
      ∃ base, (s.records.save new).get id = some base ∧ base.firmId = firmId := by
    rintro ⟨base, hfound, hfirm⟩
    refine ⟨base, ?_, hfirm⟩
    rw [Store.get_save, if_neg fun heq => ?_, hfound]
    rw [heq, hnew] at hfound
    cases hfound
  intro id record baseBackupId hrecord hrests
  rcases Store.of_get_save hrecord with rfl | hrecord
  · exact hkept (hbase baseBackupId hrests)
  · exact hkept (h id record baseBackupId hrecord hrests)

/-- **The step lemma.** -/
theorem firmChains_step (h : FirmChains s) {op : Operation} (hnew : DrawsNew s op) (hbase : BaseOfFirm s op) :
    FirmChains (step checksum s op) := by
  cases op with
  | full firmId files backupId => exact h.save _ hnew.new_id fun _ hrests => nomatch hrests
  | incremental firmId baseBackupId files backupId =>
    simp only [step, createIncrementalBackup]
    cases hfound : s.records.get baseBackupId with
    | none => exact h
    | some base =>
      refine h.save _ hnew.new_id fun id hrests => ?_
      obtain rfl := Option.some.inj hrests
      exact ⟨base, hfound, hbase base hfound⟩

/-! ### What is restored -/

/-- Backups store files that they were handed. -/
def StoresGiven (archive : Archive) : Prop :=
  ∀ id g path data, archive.get id = some g → g.stored.get path = some data → g.given.get path = some data

lemma storesGiven_step (h : StoresGiven archive) (op : Operation) : StoresGiven (archive.step checksum op) := by
  have hset {id : String} {new : Generation} (hnew : ∀ path data, new.stored.get path = some data →
      new.given.get path = some data) : StoresGiven (archive.set id new) := by
    intro id' g path data hg hstored
    rw [Dict.get_set] at hg
    split at hg
    · obtain rfl := Option.some.inj hg
      exact hnew path data hstored
    · exact h id' g path data hg hstored
  cases op with
  | full firmId files backupId => exact hset fun _ _ hstored => hstored
  | incremental firmId baseBackupId files backupId =>
    simp only [Archive.step]
    cases archive.get baseBackupId with
    | none => exact h
    | some below =>
      refine hset fun path data hstored => ?_
      rw [changed, Dict.get_filter] at hstored
      exact (Option.filter_eq_some_iff.mp hstored).1

/-- Every generation of a chain is that of a backup of the firm. -/
lemma chain_ofFirm (h : Refines checksum s archive) (hchains : FirmChains s) {id : String}
    {chain : List Generation} (hchain : archive.ChainOf id chain) {record : BackupRecord}
    (hrecord : s.records.get id = some record) :
    ∀ g ∈ chain, ∃ id' record', s.records.get id' = some record' ∧ record'.firmId = record.firmId ∧
      archive.get id' = some g := by
  induction hchain generalizing record with
  | @lowest id g hfind hbase =>
    intro g' hg'
    obtain rfl := List.mem_singleton.mp hg'
    exact ⟨id, record, hrecord, rfl, hfind⟩
  | @above id j g chain hfind hbase hbelow ih =>
    obtain ⟨base, hfound, hfirm⟩ := hchains id record j hrecord
      ((h.holds _ _ _ hrecord hfind).base_eq.trans hbase)
    intro g' hg'
    rcases List.mem_append.mp hg' with hg' | hg'
    · exact hfirm ▸ ih hfound g' hg'
    · obtain rfl := List.mem_singleton.mp hg'
      exact ⟨id, record, hrecord, rfl, hfind⟩

/-- **Firm isolation**: after any run of full and incremental backups with new identifiers, each incremental
one made on a backup of its own firm, restoring any backup ends, and gives files that were handed to
backups of its firm. -/
theorem restore_handed (objects : storage.State) {ops : List Operation}
    (hdraws : Along (step checksum) DrawsNew ({ objects } : Backups storage) ops)
    (hfirms : Along (step checksum) BaseOfFirm ({ objects } : Backups storage) ops) {id : String}
    {record : BackupRecord}
    (hrecord : (run (step checksum) ({ objects } : Backups storage) ops).records.get id = some record) :
    ∃ rounds restored,
      (∀ fuel, rounds ≤ fuel → restore checksum (run (step checksum) ({ objects } : Backups storage) ops) fuel id =
        some (.ok restored)) ∧
      ∀ path data, restored.get path = some data →
        Handed (run (step checksum) ({ objects } : Backups storage) ops) (archiveOf checksum ops)
          record.firmId path data := by
  have hrefines := refines_run objects hdraws
  have hchains : FirmChains (run (step checksum) ({ objects } : Backups storage) ops) :=
    ((along_and _ _).mpr ⟨hdraws, hfirms⟩).inv (firmChains_empty objects)
      fun s op h hop => firmChains_step h hop.1 hop.2
  have hgiven : StoresGiven (archiveOf checksum ops) :=
    run_inv ops (fun _ _ _ _ h => nomatch h) fun archive op h => storesGiven_step h op
  obtain ⟨g, hg⟩ := hrefines.exists_generation hrecord
  obtain ⟨chain, hchain⟩ := hrefines.grounded id g hg
  obtain ⟨records, hrecords, hheld⟩ := hrefines.exists_records hchain
  obtain ⟨restored, hrestored, hget⟩ := restore_contents hrecords hheld
  refine ⟨records.length, restored, hrestored, fun path data hdata => ?_⟩
  rw [hget, contents, get_overlay, ← List.map_reverse, List.findSome?_map] at hdata
  obtain ⟨g', hg', hstored⟩ := List.exists_of_findSome?_eq_some hdata
  obtain ⟨id', record', hrecord', hfirm, harchive⟩ :=
    chain_ofFirm hrefines hchains hchain hrecord g' (List.mem_reverse.mp hg')
  exact ⟨id', record', g', hrecord', hfirm, harchive, hgiven id' g' path data harchive hstored⟩

def otherId : String := "5be0c3d4-7a19-4e62-8f05-2b6d91ac4e37"

/-- Two firms, each with a backup; the first one makes another on top of its own. -/
def firmOperations : List Operation :=
  [.full "firm-1" sampleFull fullId, .full "firm-2" sampleIncrement otherId,
    .incremental "firm-1" fullId sampleIncrement incrementId]

theorem restore_handed_firms : ∃ record : BackupRecord, record.firmId = "firm-1" ∧ ∃ rounds restored,
    (∀ fuel, rounds ≤ fuel → restore sampleChecksum (run (step sampleChecksum) emptyBackups firmOperations) fuel
      incrementId = some (.ok restored)) ∧
    ∀ path data, restored.get path = some data →
      Handed (run (step sampleChecksum) emptyBackups firmOperations) (archiveOf sampleChecksum firmOperations)
        record.firmId path data :=
  ⟨((run (step sampleChecksum) emptyBackups firmOperations).records.get incrementId).get (by decide +kernel),
    by decide +kernel,
    restore_handed emptyBackups.objects (by decide +kernel) (by decide +kernel) (Option.some_get _).symm⟩

/-- The second firm names the backup of the first one, and has nothing to store. -/
def crossOperations : List Operation :=
  [.full "firm-1" sampleFull fullId, .incremental "firm-2" fullId ∅ incrementId]

/-- It restores what was handed to the first firm's. -/
theorem other_firm_restored :
    let s := run (step sampleChecksum) emptyBackups crossOperations
    Along (step sampleChecksum) DrawsNew emptyBackups crossOperations ∧
      (s.records.get incrementId).map BackupRecord.firmId = some "firm-2" ∧
      restore sampleChecksum s 2 incrementId = some (.ok sampleFull) ∧
      sampleFull.get "a.txt" = some [104, 101, 108, 108, 111] ∧
      ¬ Handed s (archiveOf sampleChecksum crossOperations) "firm-2" "a.txt" [104, 101, 108, 108, 111] := by
  refine ⟨by decide +kernel, by decide +kernel, by decide +kernel, by decide +kernel, ?_⟩
  rintro ⟨id, record, g, hrecord, hfirm, hg, hgiven⟩
  have hrecords : ∀ entry ∈ (run (step sampleChecksum) emptyBackups crossOperations).records.entries.entries,
      entry.2.firmId = "firm-2" → entry.1 = incrementId := by decide +kernel
  obtain rfl := hrecords (id, record) (Dict.mem_entries_iff.mpr hrecord) hfirm
  have hnothing : ∀ g ∈ (archiveOf sampleChecksum crossOperations).get incrementId,
      g.given.get "a.txt" = none := by decide +kernel
  rw [hnothing g hg] at hgiven
  cases hgiven

end Tmis.Platform
