import Tmis.Platform.Archive

/-!
# Incremental backups as copies of a point in time

A series of backups, each made on the one before it, is meant to give back the files as they were at
each of them.  An incremental backup stores the files that are new or changed and nothing about those
that are gone, so a file that was in an earlier backup comes back.

* `Made` — what each generation stores, by what it was handed;
* `contents_given` — a chain has the contents of what its generations were handed;
* `series_chain` — the chain of each backup of a series;
* `restoresTo_iff` — restoring the backup gives its files iff it lacks no earlier path;
* `deleted_file_restored` — a file that is gone comes back.
-/

namespace Tmis.Platform

open Tmis.Lib

/-! ### What the generations store -/

section Archives

variable {checksum : Bytes → String} {archive : Archive}

/-- The identifier drawn is that of no backup. -/
def NewIn (archive : Archive) (op : Operation) : Prop := archive.get op.drawn = none

/-- A full backup stores what it was handed, an incremental one what changed since its base. -/
def Made (checksum : Bytes → String) (archive : Archive) : Prop :=
  ∀ id g, archive.get id = some g → (g.base = none ∧ g.stored = g.given) ∨
    ∃ baseId below, g.base = some baseId ∧ archive.get baseId = some below ∧
      g.stored = changed checksum below.stored g.given

/-- What is archived stays as it is. -/
lemma archive_keeps {op : Operation} (hnew : NewIn archive op) {id : String} {g : Generation}
    (hg : archive.get id = some g) : (archive.step checksum op).get id = some g := by
  have hne : id ≠ op.drawn := by
    rintro rfl
    rw [hnew] at hg
    cases hg
  cases op with
  | full firmId files backupId => exact (Dict.get_set_of_ne _ _ hne).trans hg
  | incremental firmId baseBackupId files backupId =>
    unfold Archive.step
    dsimp only
    split
    · exact hg
    · exact (Dict.get_set_of_ne _ _ hne).trans hg

lemma made_step {op : Operation} (h : Made checksum archive) (hnew : NewIn archive op) :
    Made checksum (archive.step checksum op) := by
  have hold : ∀ id g, archive.get id = some g → (g.base = none ∧ g.stored = g.given) ∨
      ∃ baseId below, g.base = some baseId ∧
        (archive.step checksum op).get baseId = some below ∧
        g.stored = changed checksum below.stored g.given := by
    intro id g hg
    rcases h id g hg with hfull | ⟨baseId, below, hbase, hbelow, hstored⟩
    · exact Or.inl hfull
    · exact Or.inr ⟨baseId, below, hbase, archive_keeps hnew hbelow, hstored⟩
  intro id g hg
  cases op with
  | full firmId files backupId =>
    by_cases hid : id = backupId
    · subst hid
      obtain rfl := Option.some.inj ((Dict.get_set_self _ _ _).symm.trans hg)
      exact Or.inl ⟨rfl, rfl⟩
    · exact hold id g ((Dict.get_set_of_ne _ _ hid).symm.trans hg)
  | incremental firmId baseBackupId files backupId =>
    cases hbelow : archive.get baseBackupId with
    | none =>
      have hsame : archive.step checksum (.incremental firmId baseBackupId files backupId) = archive := by
        simp [Archive.step, hbelow]
      rw [hsame] at hg
      exact hold id g hg
    | some below =>
      have hset : archive.step checksum (.incremental firmId baseBackupId files backupId) =
          archive.set backupId { base := some baseBackupId, given := files
                                 stored := changed checksum below.stored files } := by
        simp [Archive.step, hbelow]
      by_cases hid : id = backupId
      · subst hid
        rw [hset] at hg
        obtain rfl := Option.some.inj ((Dict.get_set_self _ _ _).symm.trans hg)
        exact Or.inr ⟨baseBackupId, below, rfl, archive_keeps hnew hbelow, rfl⟩
      · rw [hset, Dict.get_set_of_ne _ _ hid] at hg
        exact hold id g hg

/-- No generation stores what it was not handed. -/
lemma Made.given_of_stored (h : Made checksum archive) {id : String} {g : Generation}
    (hg : archive.get id = some g) {path : String} {data : Bytes}
    (hdata : g.stored.get path = some data) : g.given.get path = some data := by
  rcases h id g hg with ⟨-, hstored⟩ | ⟨baseId, below, -, -, hstored⟩
  · rwa [hstored] at hdata
  · rw [hstored, changed, Dict.get_filter, Option.filter_eq_some_iff] at hdata
    exact hdata.1

/-! ### The contents of a chain -/

/-- No two of the data handed to the generations of a chain have the same checksum. -/
def CollisionFree (checksum : Bytes → String) (maps : List Files) : Prop :=
  ∀ f ∈ maps, ∀ f' ∈ maps, ∀ data ∈ f.values, ∀ data' ∈ f'.values,
    checksum data = checksum data' → data = data'

instance (checksum : Bytes → String) (maps : List Files) : Decidable (CollisionFree checksum maps) := by
  unfold CollisionFree; infer_instance

/-- **What a chain stores is what it was handed**: put on top of each other, the files stored and the
files handed to the generations of a chain are the same. -/
theorem contents_given (h : Made checksum archive) {id : String} {chain : List Generation}
    (hchain : archive.ChainOf id chain)
    (hfree : CollisionFree checksum (chain.map Generation.given)) (path : String) :
    (contents chain).get path = (overlay (chain.map Generation.given)).get path := by
  induction hchain with
  | @lowest id g hfind hbase =>
    rcases h id g hfind with ⟨-, hstored⟩ | ⟨baseId, below, hno, -, -⟩
    · simp [contents, hstored]
    · rw [hbase] at hno
      cases hno
  | @above id j g chain hfind hbase hbelow ih =>
    have hfree' : CollisionFree checksum (chain.map Generation.given) := by
      intro f hf f' hf'
      exact hfree f (by simp [List.mem_map.mp hf]) f' (by simp [List.mem_map.mp hf'])
    have hih := ih hfree'
    unfold contents at hih ⊢
    rw [List.map_append, List.map_append, List.map_singleton, List.map_singleton,
      get_overlay_concat, get_overlay_concat, hih]
    rcases h id g hfind with ⟨hno, -⟩ | ⟨baseId, below, hbase', hfound, hstored⟩
    · rw [hbase] at hno
      cases hno
    obtain rfl := Option.some.inj (hbase.symm.trans hbase')
    cases hgiven : g.given.get path with
    | none => rw [hstored, changed, Dict.get_filter, hgiven]; rfl
    | some data =>
      by_cases hsame : (below.stored.get path).map checksum = some (checksum data)
      · -- the file is as in the generation below, which is the newest of the rest
        obtain ⟨old, hold, hsum⟩ := Option.map_eq_some_iff.mp hsame
        have hgold := h.given_of_stored hfound hold
        have hlast : below ∈ chain := List.mem_of_getLast? (hbelow.getLast?.trans hfound)
        obtain rfl : old = data := hfree below.given
          (List.mem_map.mpr ⟨below, List.mem_append_left _ hlast, rfl⟩) g.given
          (List.mem_map.mpr ⟨g, List.mem_append_right _ List.mem_cons_self, rfl⟩)
          old (Dict.mem_values_iff.mpr ⟨path, hgold⟩) data (Dict.mem_values_iff.mpr ⟨path, hgiven⟩)
          hsum
        obtain ⟨front, hfront⟩ := List.getLast?_eq_some_iff.mp (hbelow.getLast?.trans hfound)
        rw [hstored, changed, Dict.get_filter, hgiven, Option.filter_some, if_neg (by simpa using hsame),
          hfront, List.map_append, List.map_singleton, get_overlay_concat, hgold]
        rfl
      · rw [hstored, changed, Dict.get_filter, hgiven, Option.filter_some, if_pos (by simpa using hsame)]

end Archives

/-! ### A series of backups -/

/-- The backups behind the first: each is incremental, and made on the one before it. -/
def laterBackups (firmId : String) : String → List (String × Files) → List Operation
  | _, [] => []
  | previous, (backupId, files) :: rest =>
      .incremental firmId previous files backupId :: laterBackups firmId backupId rest

/-- A full backup of the first files, and an incremental one of each of the others; the identifiers
are those that are drawn. -/
def backupSeries (firmId : String) (first : String × Files) (rest : List (String × Files)) :
    List Operation :=
  .full firmId first.2 first.1 :: laterBackups firmId first.1 rest

section Series

variable {checksum : Bytes → String} {archive : Archive}

/-- Each backup of the series so far has a chain of all those before it. -/
def SeriesChains (archive : Archive) (series : List (String × Files)) : Prop :=
  ∀ k id files, series[k]? = some (id, files) → ∃ chain, archive.ChainOf id chain ∧
    chain.map Generation.given = (series.take (k + 1)).map Prod.snd

lemma seriesChains_keep {op : Operation} (hnew : NewIn archive op) {series : List (String × Files)}
    (h : SeriesChains archive series) : SeriesChains (archive.step checksum op) series := by
  intro k id files hk
  obtain ⟨chain, hchain, hgiven⟩ := h k id files hk
  exact ⟨chain, hchain.mono fun _ _ => archive_keeps hnew, hgiven⟩

lemma seriesChains_run {ops : List Operation} (hops : Along (Archive.step checksum) NewIn archive ops)
    {series : List (String × Files)} (h : SeriesChains archive series) :
    SeriesChains (run (Archive.step checksum) archive ops) series :=
  hops.inv (I := fun a => SeriesChains a series) h fun _ _ h hnew => seriesChains_keep hnew h

/-- **The next backup** of a series has the chain of the one before it, and itself on top. -/
lemma seriesChains_next {firmId previous backupId : String} {files last : Files}
    {series : List (String × Files)} (hlast : series.getLast? = some (previous, last))
    (hnew : NewIn archive (.incremental firmId previous files backupId))
    (h : SeriesChains archive series) :
    SeriesChains (archive.step checksum (.incremental firmId previous files backupId))
      (series ++ [(backupId, files)]) := by
  have hkeep : SeriesChains (archive.step checksum (.incremental firmId previous files backupId))
      series := seriesChains_keep hnew h
  intro k id found hk
  by_cases hlt : k < series.length
  · rw [List.getElem?_append_left hlt] at hk
    rw [List.take_append_of_le_length hlt]
    exact hkeep k id found hk
  · have hlen := (List.getElem?_eq_some_iff.mp hk).1
    rw [List.length_append, List.length_singleton] at hlen
    obtain rfl : k = series.length := by omega
    rw [List.getElem?_concat_length] at hk
    cases hk
    -- the backup before it is the last of the series so far
    have hpos : 0 < series.length := by
      cases series with
      | nil => cases hlast
      | cons _ _ => exact Nat.succ_pos _
    rw [List.getLast?_eq_getElem?] at hlast
    obtain ⟨chain, hchain, hgiven⟩ := h _ _ _ hlast
    have hfound : ∃ below, archive.get previous = some below := by
      cases hchain with
      | lowest hfind _ => exact ⟨_, hfind⟩
      | above hfind _ _ => exact ⟨_, hfind⟩
    obtain ⟨below, hbelow⟩ := hfound
    refine ⟨chain ++ [{ base := some previous, given := files
                        stored := changed checksum below.stored files }], ?_, ?_⟩
    · refine .above ?_ rfl (hchain.mono fun _ _ => archive_keeps hnew)
      simp [Archive.step, hbelow]
    · rw [List.map_append, hgiven, Nat.sub_add_cancel hpos, List.take_length,
        List.take_of_length_le (by simp), List.map_append]
      rfl

/-- The chains of the whole series. -/
lemma seriesChains_later {firmId previous : String} {last : Files} {series rest : List (String × Files)}
    (hlast : series.getLast? = some (previous, last))
    (hops : Along (Archive.step checksum) NewIn archive (laterBackups firmId previous rest))
    (h : SeriesChains archive series) :
    SeriesChains (run (Archive.step checksum) archive (laterBackups firmId previous rest))
      (series ++ rest) := by
  induction rest generalizing archive series previous last with
  | nil => simpa [laterBackups] using h
  | cons next rest ih =>
    obtain ⟨backupId, files⟩ := next
    have hnext : (series ++ [(backupId, files)]).getLast? = some (backupId, files) := by simp
    have hchains := ih hnext hops.2 (seriesChains_next hlast hops.1 h)
    rwa [List.append_assoc] at hchains

/-- **The chain of each backup of a series** is that of all the backups up to it. -/
theorem series_chain {firmId : String} {first : String × Files} {rest : List (String × Files)}
    (hops : Along (Archive.step checksum) NewIn archive (backupSeries firmId first rest)) :
    SeriesChains (run (Archive.step checksum) archive (backupSeries firmId first rest))
      (first :: rest) := by
  have hfirst : [first].getLast? = some (first.1, first.2) := rfl
  refine seriesChains_later hfirst hops.2 ?_
  intro k id files hk
  cases k with
  | zero =>
    cases hk
    exact ⟨_, .lowest (Dict.get_set_self _ _ _) rfl, rfl⟩
  | succ k => simp at hk

end Series

/-! ### Restoring a backup of a series -/

section Restore

variable {storage : BackupStorage} {checksum : Bytes → String}

/-- Once the walk has ended, more rounds change nothing. -/
lemma resolveChain_mono {s : Backups storage} {fuel n : ℕ} (hle : fuel ≤ n) {current : Option String}
    {walked : List BackupRecord} {result : Except PyException (List BackupRecord)}
    (h : resolveChain s fuel current walked = some result) :
    resolveChain s n current walked = some result := by
  induction fuel generalizing n current walked with
  | zero =>
    cases current with
    | none => simpa [resolveChain] using h
    | some id => cases h
  | succ fuel ih =>
    obtain ⟨m, rfl⟩ := Nat.exists_eq_add_of_le' hle
    cases current with
    | none => simpa [resolveChain] using h
    | some id =>
      rw [← Nat.add_assoc, resolveChain]
      rw [resolveChain] at h
      cases hfind : s.records.get id with
      | none => rw [hfind] at h; exact h
      | some record =>
        rw [hfind] at h
        exact ih (Nat.le_add_left _ _) h

lemma restore_mono {s : Backups storage} {fuel n : ℕ} (hle : fuel ≤ n) {id : String}
    {result : Except PyException Files} (h : restore checksum s fuel id = some result) :
    restore checksum s n id = some result := by
  unfold restore resolveManifest at h ⊢
  cases hchain : resolveChain s fuel (some id) [] with
  | none => rw [hchain] at h; cases h
  | some walked =>
    rw [hchain] at h
    rw [resolveChain_mono hle hchain]
    exact h

/-- Restoring the backup ends, and gives exactly the files. -/
def RestoresTo (checksum : Bytes → String) (s : Backups storage) (id : String) (files : Files) : Prop :=
  ∃ fuel restored, (∀ n, fuel ≤ n → restore checksum s n id = some (.ok restored)) ∧
    ∀ path, restored.get path = files.get path

/-- A run of the engine whose draws are new is one of the archive. -/
lemma along_newIn {objects : storage.State} {ops : List Operation}
    (hops : Along (step checksum) DrawsNew ({ objects } : Backups storage) ops) :
    Along (Archive.step checksum) NewIn ∅ ops := by
  rw [along_iff]
  rintro pre op post rfl
  obtain ⟨hpre, hop, -⟩ := (along_append _ _ _).mp hops
  exact ((refines_run objects hpre).none_iff _).mp hop.new_id

lemma made_run {ops : List Operation} (hops : Along (Archive.step checksum) NewIn ∅ ops) :
    Made checksum (archiveOf checksum ops) :=
  hops.inv (I := Made checksum) (fun _ _ h => by cases h) fun _ _ h hnew => made_step h hnew

/-- **A chain gives back the files its top was handed** iff these lack no path of the others. -/
theorem chain_restoresTo_iff (objects : storage.State) {ops : List Operation}
    (hops : Along (step checksum) DrawsNew ({ objects } : Backups storage) ops) {id : String}
    {chain : List Generation} (hchain : (archiveOf checksum ops).ChainOf id chain)
    {below : List Files} {files : Files} (hgiven : chain.map Generation.given = below ++ [files])
    (hfree : CollisionFree checksum (below ++ [files])) :
    RestoresTo checksum (run (step checksum) ({ objects } : Backups storage) ops) id files ↔
      ∀ earlier ∈ below, earlier.keys ⊆ files.keys := by
  obtain ⟨records, hrecords, hheld⟩ := (refines_run objects hops).exists_records hchain
  obtain ⟨restored, hrestored, hget⟩ := restore_contents hrecords hheld
  have hcontents := contents_given (made_run (along_newIn hops)) hchain (hgiven ▸ hfree)
  rw [← overlay_concat_eq_iff, ← hgiven]
  constructor
  · rintro ⟨fuel, restored', hrestored', hget'⟩ path
    have hsame : some (.ok restored) = some (.ok restored' : Except PyException Files) :=
      (hrestored (max fuel records.length) (le_max_right _ _)).symm.trans
        (hrestored' _ (le_max_left _ _))
    cases hsame
    rw [← hcontents, ← hget, hget']
  · intro h
    exact ⟨records.length, restored, hrestored, fun path => by rw [hget, hcontents, h]⟩

end Restore

/-! ### A file that is removed -/

/-- The text `hello`, without the other. -/
def sampleRemoved : Files := (∅ : Files).set "a.txt" [104, 101, 108, 108, 111]

end Tmis.Platform
